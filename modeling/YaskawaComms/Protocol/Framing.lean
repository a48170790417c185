import YaskawaComms.Protocol.ReadHeader

/-!
# Frames

What a client sends: headers with the magic number, each followed by the payload it announces. The
lemmas say what one call of `read_header` finds at the start of a frame, and how much of the script
of receive calls a payload uses up.
-/

namespace YaskawaComms.Protocol

structure Frame where
  header : ProtocolHeader
  payload : List UInt8
  magic : header.magicNumber = protocolMagicNumber
  length : payload.length = header.payloadLength.toNat

def Frame.bytes (f : Frame) : List UInt8 := f.header.bytes ++ f.payload

def Frame.size (f : Frame) : Nat := sizeofProtocolHeader + f.payload.length

def encode (frames : List Frame) : List UInt8 := (frames.map Frame.bytes).flatten

@[simp] theorem encode_nil : encode [] = [] := rfl

@[simp] theorem encode_cons (f : Frame) (frames : List Frame) :
    encode (f :: frames) = f.bytes ++ encode frames := rfl

theorem Frame.bytes_length (f : Frame) : f.bytes.length = f.size := by
  rw [bytes, List.length_append, ProtocolHeader.bytes_length, size]

section Examples

/-- A header of the current version without a time stamp. -/
def headerOf (length : UInt32) (type : UInt8) : ProtocolHeader :=
  ⟨protocolMagicNumber, protocolVersion, type, 0, length⟩

def heartbeat : Frame := ⟨headerOf 0 0x03, [], rfl, rfl⟩

def stopMotion : Frame := ⟨headerOf 0 0x11, [], rfl, rfl⟩

/-- A connection on which these bytes have arrived and nothing follows. -/
def quiet (stream : List UInt8) : Transport := ⟨stream, [], .silent, .eAgain⟩

end Examples

theorem encode_length (frames : List Frame) :
    (encode frames).length = (frames.map Frame.size).sum := by
  induction frames with
  | nil => rfl
  | cons f frames ih =>
      rw [encode_cons, List.length_append, f.bytes_length, ih, List.map_cons, List.sum_cons]

theorem ProtocolHeader.bytes_needle {h : ProtocolHeader} (hmagic : h.magicNumber = protocolMagicNumber) :
    h.bytes.take 4 = needle := by
  rw [← ofBytes_magicNumber_iff _ (by simp [sizeofProtocolHeader]), ProtocolHeader.ofBytes_bytes, hmagic]

theorem Frame.take_bytes (f : Frame) {stream rest : List UInt8} (h : stream = f.header.bytes ++ rest) :
    stream.take sizeofProtocolHeader = f.header.bytes ∧
      stream.drop sizeofProtocolHeader = rest ∧ stream.take 4 = needle := by
  have hlength := f.header.bytes_length
  rw [h]
  refine ⟨List.take_left' hlength, List.drop_left' hlength, ?_⟩
  rw [List.take_append_of_le_length (by rw [hlength]; decide), f.header.bytes_needle f.magic]

section ReadHeader

variable (memory : HeaderObject) {t : Transport}

theorem readHeader_wouldBlock {cuts : List Cut} (h : t.cuts = .wouldBlock :: cuts) :
    (readHeader memory t).ret = 1 ∧
      (readHeader memory t).transport = { t with cuts := cuts, errno := .eAgain } := by
  have hiterate : (HeaderLoop.start memory).iterate t =
      (.error (1, memory), { t with cuts := cuts, errno := .eAgain }) := by
    simp [HeaderLoop.iterate, HeaderLoop.start, Transport.recvDontWait, h, HeaderLoop.failure,
      sizeofProtocolHeader]
  rw [readHeader, HeaderLoop.read_error hiterate]
  exact ⟨rfl, rfl⟩

theorem readHeader_nothing (h : t.stream = []) :
    ((readHeader memory t).ret = 1 ∨ (readHeader memory t).ret = -1) ∧
      (readHeader memory t).transport.stream = [] := by
  obtain ⟨t', hiterate, hempty⟩ : ∃ t' : Transport,
      (HeaderLoop.start memory).iterate t = (.error (HeaderLoop.failure t'.errno, memory), t') ∧
        t'.stream = [] := by
    cases hcuts : t.cuts with
    | nil =>
        cases hending : t.ending <;>
          simp [HeaderLoop.iterate, HeaderLoop.start, Transport.recvDontWait, Transport.deliver,
            Transport.afterLast, h, hcuts, hending, sizeofProtocolHeader]
    | cons cut cuts =>
        cases cut <;> cases hending : t.ending <;>
          simp [HeaderLoop.iterate, HeaderLoop.start, Transport.recvDontWait, Transport.deliver,
            Transport.afterLast, h, hcuts, hending, sizeofProtocolHeader]
  rw [readHeader, HeaderLoop.read_error hiterate]
  refine ⟨?_, hempty⟩
  simp only [HeaderLoop.failure]
  split <;> simp

theorem readHeader_partial {cuts : List Cut} {n : Nat} (h : t.cuts = .upTo n :: cuts)
    (hn : n < 17) (hlength : sizeofProtocolHeader ≤ t.stream.length) :
    (readHeader memory t).ret = (n + 1 : Nat) ∧
      (readHeader memory t).transport =
        { t with stream := t.stream.drop (n + 1), cuts := cuts } := by
  have hmin : min (n + 1) sizeofProtocolHeader = n + 1 := by
    simp only [sizeofProtocolHeader]
    omega
  have hempty : t.stream ≠ [] := by
    intro hnil
    simp [hnil, sizeofProtocolHeader] at hlength
  have hcount : (t.stream.take (n + 1)).length = n + 1 := by
    rw [List.length_take]
    omega
  have hpartial : n + 1 ≠ sizeofProtocolHeader := by
    simp only [sizeofProtocolHeader]
    omega
  have hiterate : (HeaderLoop.start memory).iterate t =
      (.error ((n + 1 : Nat), memory.write 0 (t.stream.take (n + 1))),
        { t with stream := t.stream.drop (n + 1), cuts := cuts }) := by
    have hzero : sizeofProtocolHeader ≠ 0 := by decide
    simp [HeaderLoop.iterate, HeaderLoop.start, HeaderLoop.request, Transport.recvDontWait,
      Transport.deliver, h, hmin, hempty, hcount, hpartial, hzero]
  rw [readHeader, HeaderLoop.read_error hiterate]
  exact ⟨rfl, rfl⟩

theorem readHeader_whole (f : Frame) {rest : List UInt8} (hwhole : t.WholeWindow 0)
    (hstream : t.stream = f.header.bytes ++ rest) :
    (readHeader memory t).ret = sizeofProtocolHeader ∧
      (readHeader memory t).header.value = f.header ∧
      (readHeader memory t).transport = { t with stream := rest, cuts := t.cuts.tail } := by
  obtain ⟨htake, hdrop, hneedle⟩ := f.take_bytes hstream
  have hwindow : t.window 0 = f.header.bytes := by
    rw [Transport.window, Nat.mul_zero, List.drop_zero, htake]
  have hmagic : (t.window 0).take 4 = needle := by rw [hwindow, f.header.bytes_needle f.magic]
  rw [readHeader, HeaderLoop.read_magic hwhole hmagic]
  refine ⟨rfl, ?_, ?_⟩
  · rw [HeaderObject.value, HeaderLoop.filled_bytes memory hwhole, hwindow,
      ProtocolHeader.ofBytes_bytes]
  · rw [Transport.nextWindow, hdrop]

end ReadHeader

section Consumption

theorem HeaderLoop.iterate_le (s : HeaderLoop) (t : Transport) :
    (s.iterate t).2.stream.length ≤ t.stream.length := by
  have hle := t.recvDontWait_le s.toRead
  unfold iterate
  split
  · next u hrecv => rwa [hrecv] at hle
  · next bytes u hrecv =>
      rw [hrecv] at hle
      dsimp only
      split
      · exact hle
      · split
        · exact hle
        · split <;> exact hle

theorem HeaderLoop.run_le (fuel : Nat) (s : HeaderLoop) (t : Transport) :
    (s.run fuel t).transport.stream.length ≤ t.stream.length := by
  induction fuel generalizing s t with
  | zero =>
      have hle := s.iterate_le t
      unfold run
      split <;> simp_all
  | succ fuel ih =>
      cases hout : s.iterate t with
      | mk out u =>
          have hle := s.iterate_le t
          rw [hout] at hle
          cases out with
          | error result => rwa [run_error _ hout]
          | ok next =>
              rw [run_ok _ hout]
              exact Nat.le_trans (ih next u) hle

/-- A header that is returned as complete has cost at least 18 bytes. -/
theorem readHeader_consumes (memory : HeaderObject) (t : Transport)
    (h : (readHeader memory t).ret = sizeofProtocolHeader) :
    (readHeader memory t).transport.stream.length + sizeofProtocolHeader ≤ t.stream.length := by
  unfold readHeader at h ⊢
  cases hout : (HeaderLoop.start memory).iterate t with
  | mk out u =>
      cases out with
      | ok next =>
          obtain ⟨bytes, hrecv, -, hbytes, -⟩ := HeaderLoop.iterate_ok hout
          have hlength := Transport.recvDontWait_length hrecv
          have hle := HeaderLoop.run_le u.stream.length next u
          rw [HeaderLoop.read_ok hout]
          simp only [HeaderLoop.start, HeaderLoop.read] at hbytes hle ⊢
          omega
      | error result =>
          rw [HeaderLoop.read_error hout] at h ⊢
          have hfailure : ∀ errno, HeaderLoop.failure errno ≠ (sizeofProtocolHeader : Nat) := by
            intro errno
            unfold HeaderLoop.failure
            split <;> decide
          unfold HeaderLoop.iterate at hout
          split at hout
          · cases hout
            exact absurd h (hfailure _)
          · next bytes v hrecv =>
              have hlength := Transport.recvDontWait_length hrecv
              dsimp only at hout
              split at hout
              · cases hout
                exact absurd h (hfailure _)
              · split at hout
                · next hpartial =>
                    cases hout
                    exact absurd (Int.ofNat.inj h) hpartial
                · next hwhole =>
                    have hall : bytes.length = sizeofProtocolHeader := not_not.mp hwhole
                    split at hout
                    · cases hout
                      dsimp only
                      omega
                    · cases hout

theorem readHeader_le (memory : HeaderObject) (t : Transport) :
    (readHeader memory t).transport.stream.length ≤ t.stream.length :=
  HeaderLoop.run_le _ _ t

end Consumption

/-- The script after `len` bytes have been received by waiting calls. -/
def payloadCuts : Nat → List Cut → List Cut
  | _, [] => []
  | len, .wouldBlock :: cuts => if len = 0 then .wouldBlock :: cuts else payloadCuts len cuts
  | len, .upTo n :: cuts => if len = 0 then .upTo n :: cuts else payloadCuts (len - (n + 1)) cuts

theorem payloadCuts_zero (cuts : List Cut) : payloadCuts 0 cuts = cuts := by
  cases cuts with
  | nil => rfl
  | cons cut cuts => cases cut <;> rfl

theorem Transport.recvWaitAll_some {t : Transport} (hstream : t.stream ≠ []) {len : Nat}
    (hlen : 0 < len) :
    ∃ n cuts, 0 < n ∧ n ≤ len ∧
      t.recvWaitAll len =
        some (some (t.stream.take n), { t with stream := t.stream.drop n, cuts := cuts }) ∧
      payloadCuts len t.cuts = payloadCuts (len - n) cuts := by
  have hwaits : t.recvWaitAll len = some (recvDontWait { t with cuts := awake t.cuts } len) := by
    rw [recvWaitAll, if_neg (fun h => hstream h.1)]
  rw [hwaits]
  have hne : len ≠ 0 := by omega
  induction t.cuts with
  | nil =>
      refine ⟨len, [], hlen, Nat.le_refl _, ?_, rfl⟩
      simp [recvDontWait, hne, awake, deliver, hstream]
  | cons cut cuts ih =>
      cases cut with
      | wouldBlock =>
          rw [payloadCuts, if_neg hne]
          exact ih
      | upTo n =>
          have hcuts : payloadCuts len (.upTo n :: cuts) = payloadCuts (len - min (n + 1) len) cuts := by
            rw [payloadCuts, if_neg hne]
            congr 1
            omega
          refine ⟨min (n + 1) len, cuts, by omega, Nat.min_le_right _ _, ?_, hcuts⟩
          simp [recvDontWait, hne, awake, deliver, hstream]

end YaskawaComms.Protocol
