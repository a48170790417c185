import YaskawaComms.Protocol.Transport
import YaskawaComms.Protocol.Wire
import Mathlib.Data.List.Basic
import Mathlib.Tactic.Ring

/-!
# Reading a header

The loop that reads 18 bytes and looks for the magic number. The destination of a receive call is
`header + offset` with `header` a pointer to an 18-byte structure, so it lies `18 * offset` bytes
behind the start of the header object. Bytes received outside of that object do not reach it.
-/

namespace YaskawaComms.Protocol

/-- The memory of a `protocol_header_t`. -/
@[ext] structure HeaderObject where
  bytes : List UInt8
  size : bytes.length = sizeofProtocolHeader

namespace HeaderObject

/-- Store a block of bytes; only what falls into the object changes it. -/
def write (h : HeaderObject) (start : Nat) (block : List UInt8) : HeaderObject where
  bytes := (h.bytes.take start ++ block ++ h.bytes.drop (start + block.length)).take
    sizeofProtocolHeader
  size := by
    have hsize := h.size
    simp only [List.length_take, List.length_append, List.length_drop]
    omega

def memchr (h : HeaderObject) (c : UInt8) : Option Nat := h.bytes.idxOf? c

/-- `memmove(header, begin, sizeof(protocol_header_t) - (begin - header))`. -/
def memmove (h : HeaderObject) (start : Nat) : HeaderObject := h.write 0 (h.bytes.drop start)

def value (h : HeaderObject) : ProtocolHeader := .ofBytes h.bytes

end HeaderObject

/-- A receive call: where it writes, in bytes from the start of the header object, and how many
bytes it asks for. -/
structure RecvRequest where
  destination : Nat
  length : Nat
  deriving DecidableEq

/-- The request writes inside the header object. -/
def RecvRequest.Inside (r : RecvRequest) : Prop :=
  r.destination + r.length ≤ sizeofProtocolHeader

/-- The locals of `read_header` and the object behind its argument. -/
structure HeaderLoop where
  header : HeaderObject
  offset : Nat
  toRead : Nat

/-- What the function returns and leaves in the header object, and its receive calls. -/
structure HeaderRead where
  ret : Int
  header : HeaderObject
  requests : List RecvRequest
  transport : Transport

namespace HeaderLoop

def start (header : HeaderObject) : HeaderLoop :=
  { header := header, offset := 0, toRead := sizeofProtocolHeader }

def request (s : HeaderLoop) : RecvRequest := ⟨sizeofProtocolHeader * s.offset, s.toRead⟩

/-- The return value after a receive call without bytes. -/
def failure (errno : Errno) : Int := if errno = .eWouldBlock ∨ errno = .eAgain then 1 else -1

/-- The locals after a header object without the magic number. -/
def resync (header : HeaderObject) : HeaderLoop :=
  match header.memchr 0x52 with
  | some start =>
      { header := header.memmove start
        offset := sizeofProtocolHeader - start
        toRead := start }
  | none => start header

/-- One iteration: a result, or the locals of the next iteration. -/
def iterate (s : HeaderLoop) (t : Transport) : Except (Int × HeaderObject) HeaderLoop × Transport :=
  match t.recvDontWait s.toRead with
  | (none, t) => (.error (failure t.errno, s.header), t)
  | (some bytes, t) =>
      if bytes = [] then (.error (failure t.errno, s.header), t)
      else
        let header := s.header.write s.request.destination bytes
        if bytes.length ≠ s.toRead then (.error (bytes.length, header), t)
        else if header.value.magicNumber = protocolMagicNumber then
          (.error (sizeofProtocolHeader, header), t)
        else (.ok (resync header), t)

/-- At most `fuel + 1` iterations. -/
def run : Nat → HeaderLoop → Transport → HeaderRead
  | fuel, s, t =>
      match s.iterate t, fuel with
      | (.error (ret, header), t'), _ => ⟨ret, header, [s.request], t'⟩
      | (.ok s', t'), 0 => ⟨-1, s'.header, [s.request], t'⟩
      | (.ok s', t'), fuel + 1 =>
          let rest := run fuel s' t'
          { rest with requests := s.request :: rest.requests }

/-- Every iteration but the last takes a byte from the stream, so the fuel is never used up. -/
def read (s : HeaderLoop) (t : Transport) : HeaderRead := run t.stream.length s t

end HeaderLoop

def readHeader (header : HeaderObject) (t : Transport) : HeaderRead :=
  (HeaderLoop.start header).read t

theorem HeaderObject.write_bytes (h : HeaderObject) (start : Nat) (block : List UInt8) :
    (h.write start block).bytes =
      (h.bytes.take start ++ block ++ h.bytes.drop (start + block.length)).take
        sizeofProtocolHeader := rfl

theorem HeaderObject.write_outside (h : HeaderObject) {start : Nat} (block : List UInt8)
    (hstart : sizeofProtocolHeader ≤ start) : h.write start block = h := by
  apply HeaderObject.ext
  have hsize := h.size
  rw [write_bytes, List.take_of_length_le (by omega : h.bytes.length ≤ start), List.append_assoc,
    List.take_append_of_le_length (by omega), List.take_of_length_le (by omega)]

theorem HeaderObject.write_whole (h : HeaderObject) {block : List UInt8}
    (hblock : block.length = sizeofProtocolHeader) : (h.write 0 block).bytes = block := by
  have hsize := h.size
  rw [write_bytes, List.take_zero, List.nil_append, Nat.zero_add,
    List.drop_eq_nil_of_le (by omega), List.append_nil, List.take_of_length_le (by omega)]

namespace HeaderLoop

variable {s s' : HeaderLoop} {t t' : Transport} {fuel : Nat}

theorem iterate_ok (h : s.iterate t = (.ok s', t')) :
    ∃ bytes, t.recvDontWait s.toRead = (some bytes, t') ∧ bytes ≠ [] ∧ bytes.length = s.toRead ∧
      s' = resync (s.header.write s.request.destination bytes) := by
  unfold iterate at h
  split at h
  · cases h
  · next bytes u hrecv =>
      dsimp only at h
      by_cases hempty : bytes = []
      · rw [if_pos hempty] at h
        cases h
      · by_cases hlength : bytes.length = s.toRead
        · rw [if_neg hempty, if_neg (not_not.mpr hlength)] at h
          split at h
          · cases h
          · cases h
            exact ⟨bytes, hrecv, hempty, hlength, rfl⟩
        · rw [if_neg hempty, if_pos hlength] at h
          cases h

theorem iterate_consumes (h : s.iterate t = (.ok s', t')) :
    t'.stream.length < t.stream.length := by
  obtain ⟨bytes, hrecv, hempty, -, -⟩ := iterate_ok h
  exact t.recvDontWait_consumes hrecv hempty

theorem run_error {ret : Int} {header : HeaderObject} (fuel : Nat)
    (h : s.iterate t = (.error (ret, header), t')) :
    run fuel s t = ⟨ret, header, [s.request], t'⟩ := by
  unfold run
  rw [h]

theorem run_ok (fuel : Nat) (h : s.iterate t = (.ok s', t')) :
    run (fuel + 1) s t =
      { run fuel s' t' with requests := s.request :: (run fuel s' t').requests } := by
  conv => lhs; unfold run
  rw [h]

theorem run_fuel {fuel fuel' : Nat} (h : t.stream.length ≤ fuel) (h' : t.stream.length ≤ fuel') :
    run fuel s t = run fuel' s t := by
  induction fuel generalizing fuel' s t with
  | zero =>
      cases hout : s.iterate t with
      | mk out u =>
          cases out with
          | error result => rw [run_error _ hout, run_error _ hout]
          | ok next =>
              have hless := iterate_consumes hout
              omega
  | succ fuel ih =>
      cases hout : s.iterate t with
      | mk out u =>
          cases out with
          | error result => rw [run_error _ hout, run_error _ hout]
          | ok next =>
              have hless := iterate_consumes hout
              cases fuel' with
              | zero => omega
              | succ fuel' =>
                  have hrest : run fuel next u = run fuel' next u := ih (by omega) (by omega)
                  rw [run_ok _ hout, run_ok _ hout, hrest]

theorem read_error {ret : Int} {header : HeaderObject}
    (h : s.iterate t = (.error (ret, header), t')) : s.read t = ⟨ret, header, [s.request], t'⟩ :=
  run_error _ h

theorem read_ok (h : s.iterate t = (.ok s', t')) :
    s.read t = { s'.read t' with requests := s.request :: (s'.read t').requests } := by
  have hless := iterate_consumes h
  obtain ⟨fuel, hfuel⟩ : ∃ fuel, t.stream.length = fuel + 1 := ⟨t.stream.length - 1, by omega⟩
  rw [read, hfuel, run_ok _ h, run_fuel (by omega) (Nat.le_refl t'.stream.length)]
  rfl

end HeaderLoop

/-- Receive call number `i` for 18 bytes gets all of them. -/
def Transport.WholeWindow (t : Transport) (i : Nat) : Prop :=
  sizeofProtocolHeader * (i + 1) ≤ t.stream.length ∧
    ∀ cut, t.cuts[i]? = some cut → ∃ n, 17 ≤ n ∧ cut = .upTo n

/-- The consecutive pieces of 18 bytes that such calls get. -/
def Transport.window (t : Transport) (i : Nat) : List UInt8 :=
  (t.stream.drop (sizeofProtocolHeader * i)).take sizeofProtocolHeader

/-- The connection after one whole window. -/
def Transport.nextWindow (t : Transport) : Transport :=
  { t with stream := t.stream.drop sizeofProtocolHeader, cuts := t.cuts.tail }

/-- No window that is received whole, and is not the header looked for, contains the first byte of
the magic number. -/
def Transport.CleanWindows (t : Transport) : Prop :=
  ∀ j, (∀ i ≤ j, t.WholeWindow i ∧ (t.window i).take 4 ≠ needle) → 0x52 ∉ t.window j

namespace Transport

theorem wholeWindow_succ (t : Transport) (i : Nat) (h : t.WholeWindow 0) :
    t.WholeWindow (i + 1) ↔ t.nextWindow.WholeWindow i := by
  have hlength := h.1
  simp only [WholeWindow, nextWindow, List.length_drop, List.getElem?_tail,
    sizeofProtocolHeader] at hlength ⊢
  apply and_congr_left'
  constructor <;> intro hle <;> omega

theorem window_succ (t : Transport) (i : Nat) : t.window (i + 1) = t.nextWindow.window i := by
  rw [window, window, nextWindow, List.drop_drop]
  congr 2
  ring

theorem cleanWindows_next (t : Transport) (hwhole : t.WholeWindow 0)
    (hmagic : (t.window 0).take 4 ≠ needle) (habsent : 0x52 ∉ t.window 0) :
    t.CleanWindows ↔ t.nextWindow.CleanWindows := by
  constructor
  · intro hclean j hwindows
    rw [← window_succ]
    apply hclean (j + 1)
    intro i hi
    cases i with
    | zero => exact ⟨hwhole, hmagic⟩
    | succ i =>
        rw [t.wholeWindow_succ i hwhole, window_succ]
        exact hwindows i (by omega)
  · intro hclean j hwindows
    cases j with
    | zero => exact habsent
    | succ j =>
        rw [window_succ]
        apply hclean j
        intro i hi
        rw [← t.wholeWindow_succ i hwhole, ← window_succ]
        exact hwindows (i + 1) (by omega)

theorem window_length (t : Transport) {i : Nat} (h : t.WholeWindow i) :
    (t.window i).length = sizeofProtocolHeader := by
  have hlength := h.1
  rw [window, List.length_take, List.length_drop]
  simp only [sizeofProtocolHeader] at hlength ⊢
  omega

theorem recvDontWait_whole (t : Transport) (h : t.WholeWindow 0) :
    t.recvDontWait sizeofProtocolHeader = (some (t.window 0), t.nextWindow) := by
  obtain ⟨hlength, hcuts⟩ := h
  have hempty : t.stream ≠ [] := by
    intro hnil
    simp [hnil, sizeofProtocolHeader] at hlength
  rw [recvDontWait, if_neg (by decide)]
  cases hscript : t.cuts with
  | nil => simp [deliver, hempty, window, nextWindow, hscript]
  | cons cut cuts =>
      obtain ⟨n, hn, rfl⟩ := hcuts cut (by simp [hscript])
      have hmin : min (n + 1) sizeofProtocolHeader = sizeofProtocolHeader := by
        simp only [sizeofProtocolHeader]
        omega
      simp [deliver, hempty, window, nextWindow, hscript, hmin]

theorem recvDontWait_not_whole (t : Transport) {t' : Transport} {bytes : List UInt8}
    (h : ¬ t.WholeWindow 0) (hrecv : t.recvDontWait sizeofProtocolHeader = (some bytes, t')) :
    bytes.length ≠ sizeofProtocolHeader := by
  intro hlength
  apply h
  constructor
  · have htake := congrArg List.length (recvDontWait_some hrecv).1
    rw [List.length_take, hlength] at htake
    omega
  · intro cut hcut
    cases hscript : t.cuts with
    | nil => simp [hscript] at hcut
    | cons c cuts =>
        obtain rfl : c = cut := by simpa [hscript] using hcut
        rw [recvDontWait, if_neg (by decide), hscript] at hrecv
        cases c with
        | wouldBlock => cases hrecv
        | upTo n =>
            have htake := congrArg List.length (deliver_some hrecv).1
            rw [List.length_take, hlength] at htake
            simp only [sizeofProtocolHeader] at htake
            exact ⟨n, by omega, rfl⟩

end Transport

namespace HeaderLoop

variable {header : HeaderObject} {t : Transport}

theorem iterate_not_whole (header : HeaderObject) (h : ¬ t.WholeWindow 0) :
    ∃ ret header' t', (start header).iterate t = (.error (ret, header'), t') := by
  unfold iterate
  cases hrecv : t.recvDontWait (start header).toRead with
  | mk received t' =>
      cases received with
      | none => exact ⟨_, _, _, rfl⟩
      | some bytes =>
          have hpartial := t.recvDontWait_not_whole h hrecv
          by_cases hempty : bytes = []
          · simp [hempty]
          · simp [hempty, start, hpartial]

/-- The first window fills the header object. -/
def filled (header : HeaderObject) (t : Transport) : HeaderObject := header.write 0 (t.window 0)

theorem filled_bytes (header : HeaderObject) (h : t.WholeWindow 0) : (filled header t).bytes = t.window 0 :=
  header.write_whole (t.window_length h)

theorem filled_magic (h : t.WholeWindow 0) :
    (filled header t).value.magicNumber = protocolMagicNumber ↔ (t.window 0).take 4 = needle := by
  rw [HeaderObject.value, filled_bytes header h, ofBytes_magicNumber_iff]
  rw [t.window_length h]
  decide

theorem iterate_whole (h : t.WholeWindow 0) :
    (start header).iterate t =
      (if (t.window 0).take 4 = needle then .error (18, filled header t)
        else .ok (resync (filled header t)), t.nextWindow) := by
  have hrecv := t.recvDontWait_whole h
  have hlength := t.window_length h
  have hempty : t.window 0 ≠ [] := by
    intro hnil
    simp [hnil, sizeofProtocolHeader] at hlength
  have hwrite : header.write (start header).request.destination (t.window 0) = filled header t :=
    rfl
  have hread : (start header).toRead = sizeofProtocolHeader := rfl
  have hheader : (start header).header = header := rfl
  unfold iterate
  simp only [hread, hrecv, hempty, hlength, hheader, hwrite, filled_magic h, if_false, ne_eq,
    not_true_eq_false]
  split <;> rfl

theorem read_magic (h : t.WholeWindow 0) (hmagic : (t.window 0).take 4 = needle) :
    (start header).read t = ⟨18, filled header t, [(start header).request], t.nextWindow⟩ :=
  read_error (by rw [iterate_whole h, if_pos hmagic])

theorem read_resync (h : t.WholeWindow 0) (hmagic : (t.window 0).take 4 ≠ needle) :
    (start header).read t =
      { (resync (filled header t)).read t.nextWindow with
        requests := (start header).request ::
          ((resync (filled header t)).read t.nextWindow).requests } :=
  read_ok (by rw [iterate_whole h, if_neg hmagic])

theorem resync_absent {h : HeaderObject} (habsent : 0x52 ∉ h.bytes) : resync h = start h := by
  rw [resync, HeaderObject.memchr, List.idxOf?_eq_none_iff.mpr habsent]

theorem resync_present {h : HeaderObject} (hpresent : 0x52 ∈ h.bytes) :
    ∃ k < sizeofProtocolHeader, h.memchr 0x52 = some k ∧
      resync h = ⟨h.memmove k, sizeofProtocolHeader - k, k⟩ := by
  obtain ⟨k, hk⟩ := Option.isSome_iff_exists.mp (List.isSome_idxOf?.mpr hpresent)
  obtain ⟨hlt, -, -⟩ := List.idxOf?_eq_some_iff.mp hk
  rw [h.size] at hlt
  refine ⟨k, hlt, hk, ?_⟩
  rw [resync, HeaderObject.memchr, hk]

theorem request_mem (s : HeaderLoop) (t : Transport) : s.request ∈ (s.read t).requests := by
  cases hout : s.iterate t with
  | mk out t' =>
      cases out with
      | error result => simp [read_error hout]
      | ok next => simp [read_ok hout]

end HeaderLoop

/-- Every receive call stays inside the header object exactly when the windows are clean. -/
theorem readHeader_inside_iff (header : HeaderObject) (t : Transport) :
    (∀ r ∈ (readHeader header t).requests, r.Inside) ↔ t.CleanWindows := by
  have hfirst : ∀ header, (HeaderLoop.start header).request.Inside := by
    intro header
    simp [RecvRequest.Inside, HeaderLoop.request, HeaderLoop.start]
  unfold readHeader
  induction hn : t.stream.length using Nat.strong_induction_on generalizing header t with
  | _ n ih =>
      by_cases hwhole : t.WholeWindow 0
      · have hfilled := HeaderLoop.filled_bytes header hwhole
        by_cases hmagic : (t.window 0).take 4 = needle
        · rw [HeaderLoop.read_magic hwhole hmagic]
          constructor
          · intro _ j hwindows
            exact absurd hmagic (hwindows 0 (Nat.zero_le j)).2
          · intro _ r hr
            rw [List.mem_singleton.mp hr]
            exact hfirst header
        · rw [HeaderLoop.read_resync hwhole hmagic]
          by_cases hpresent : 0x52 ∈ t.window 0
          · -- the next call is made at the mistaken destination
            rw [← hfilled] at hpresent
            obtain ⟨k, hk, -, hresync⟩ := HeaderLoop.resync_present hpresent
            constructor
            · intro hinside
              have hrequest := hinside _ (List.mem_cons_of_mem _ (HeaderLoop.request_mem _ _))
              rw [hresync] at hrequest
              simp only [RecvRequest.Inside, HeaderLoop.request, sizeofProtocolHeader] at hrequest hk
              omega
            · intro hclean
              rw [hfilled] at hpresent
              apply absurd hpresent
              apply hclean 0
              intro i hi
              rw [Nat.le_zero.mp hi]
              exact ⟨hwhole, hmagic⟩
          · have hless : t.nextWindow.stream.length < n := by
              have hlength := hwhole.1
              simp only [Transport.nextWindow, List.length_drop, sizeofProtocolHeader] at hlength ⊢
              omega
            rw [t.cleanWindows_next hwhole hmagic hpresent]
            rw [← hfilled] at hpresent
            have hrest := ih _ hless (HeaderLoop.filled header t) t.nextWindow rfl
            rw [HeaderLoop.resync_absent hpresent, List.forall_mem_cons]
            exact (and_iff_right (hfirst header)).trans hrest
      · obtain ⟨ret, header', t', hiterate⟩ := HeaderLoop.iterate_not_whole header hwhole
        rw [HeaderLoop.read_error hiterate]
        constructor
        · intro _ j hwindows
          exact absurd (hwindows 0 (Nat.zero_le j)).1 hwhole
        · intro _ r hr
          rw [List.mem_singleton.mp hr]
          exact hfirst header

/-- 18 bytes of garbage with `R` in the sixth place. -/
def strayStart : Transport :=
  { stream := List.replicate 5 0 ++ 0x52 :: List.replicate 12 0
    cuts := []
    ending := .silent
    errno := .eAgain }

/-- After it, 5 bytes are requested 234 bytes behind the start of the 18-byte object. -/
theorem readHeader_outside :
    ∃ r ∈ (readHeader ⟨List.replicate 18 0, rfl⟩ strayStart).requests,
      r = ⟨234, 5⟩ ∧ ¬ r.Inside := by
  refine ⟨⟨234, 5⟩, by decide, rfl, ?_⟩
  simp [RecvRequest.Inside, sizeofProtocolHeader]

end YaskawaComms.Protocol
