import YaskawaComms.Protocol.ReadHeader

/-!
# Resynchronisation

Where the loop ends up on a stream that has garbage in front of a header, when every receive call
gets all it asks for. A false start, a `0x52` inside a window, makes the loop lose the bytes that
it requests next.
-/

namespace YaskawaComms.Protocol

/-- The first place of the magic number, with a whole header there. -/
structure FirstMagicAt (stream : List UInt8) (p : Nat) : Prop where
  found : (stream.drop p).take 4 = needle
  first : ∀ q < p, (stream.drop q).take 4 ≠ needle
  whole : p + sizeofProtocolHeader ≤ stream.length

/-- The header at place `p` is returned, and the bytes up to its end are consumed. -/
def Resynchronises (header : HeaderObject) (t : Transport) (p : Nat) : Prop :=
  let result := readHeader header t
  result.ret = sizeofProtocolHeader ∧
    result.header.bytes = (t.stream.drop p).take sizeofProtocolHeader ∧
    result.transport.stream = t.stream.drop (p + sizeofProtocolHeader)

namespace HeaderObject

theorem memmove_bytes (h : HeaderObject) {k : Nat} (hk : k ≤ sizeofProtocolHeader) :
    (h.memmove k).bytes = h.bytes.drop k ++ h.bytes.drop (sizeofProtocolHeader - k) := by
  have hsize := h.size
  rw [memmove, write_bytes, List.take_zero, List.nil_append, List.length_drop, hsize, Nat.zero_add,
    List.take_of_length_le]
  rw [List.length_append, List.length_drop, List.length_drop]
  omega

theorem memchr_memmove {h : HeaderObject} {c : UInt8} {k : Nat} (hk : h.memchr c = some k) :
    (h.memmove k).memchr c = some 0 := by
  obtain ⟨hlt, hc, -⟩ := List.idxOf?_eq_some_iff.mp hk
  have hsize := h.size
  rw [memchr, memmove_bytes h (by omega), List.drop_eq_getElem_cons hlt, hc, List.cons_append,
    List.idxOf?_cons, if_pos (beq_self_eq_true c)]

end HeaderObject

namespace HeaderLoop

variable {h : HeaderObject} {t : Transport} {k : Nat}

theorem failure_ne (errno : Errno) : failure errno ≠ sizeofProtocolHeader := by
  unfold failure
  split <;> decide

theorem read_nothing (h : HeaderObject) (offset : Nat) (t : Transport) :
    (read ⟨h, offset, 0⟩ t).ret ≠ sizeofProtocolHeader := by
  have hiterate : iterate ⟨h, offset, 0⟩ t = (.error (failure t.errno, h), t) := by
    simp [iterate, Transport.recvDontWait]
  rw [read_error hiterate]
  exact failure_ne t.errno

/-- After a false start, the bytes received go astray: what the header object shows next are the
moved bytes and old ones. -/
theorem read_falseStart (hcuts : t.cuts = []) (hk : h.memchr 0x52 = some k)
    (hmagic : h.bytes.take 4 ≠ needle) (havailable : k ≤ t.stream.length) :
    (((resync h).read t).ret = sizeofProtocolHeader ↔ (h.memmove k).bytes.take 4 = needle) ∧
      (((resync h).read t).ret = sizeofProtocolHeader →
        ((resync h).read t).header = h.memmove k ∧
          ((resync h).read t).transport.stream = t.stream.drop k) := by
  obtain ⟨hlt, -, -⟩ := List.idxOf?_eq_some_iff.mp hk
  rw [h.size] at hlt
  have hresync : resync h = ⟨h.memmove k, sizeofProtocolHeader - k, k⟩ := by rw [resync, hk]
  rw [hresync]
  cases k with
  | zero =>
      have hsame : (h.memmove 0).bytes = h.bytes := by
        rw [h.memmove_bytes (Nat.zero_le _), List.drop_zero, List.drop_eq_nil_of_le (by rw [h.size]; rfl),
          List.append_nil]
      have hret := read_nothing (h.memmove 0) (sizeofProtocolHeader - 0) t
      rw [hsame]
      exact ⟨iff_of_false hret hmagic, fun heq => absurd heq hret⟩
  | succ k =>
      have hempty : t.stream ≠ [] := by
        intro hnil
        simp [hnil] at havailable
      have htaken : t.stream.take (k + 1) ≠ [] := by simpa using hempty
      have hcount : (t.stream.take (k + 1)).length = k + 1 := by
        rw [List.length_take]
        omega
      have hrecv : t.recvDontWait (k + 1) =
          (some (t.stream.take (k + 1)), { t with stream := t.stream.drop (k + 1) }) := by
        simp [Transport.recvDontWait, hcuts, Transport.deliver, hempty]
      have hwrite : ∀ block, (h.memmove (k + 1)).write
          (sizeofProtocolHeader * (sizeofProtocolHeader - (k + 1))) block = h.memmove (k + 1) := by
        intro block
        apply HeaderObject.write_outside
        simp only [sizeofProtocolHeader] at hlt ⊢
        omega
      have hvalue : (h.memmove (k + 1)).value.magicNumber = protocolMagicNumber ↔
          (h.memmove (k + 1)).bytes.take 4 = needle := by
        apply ofBytes_magicNumber_iff
        rw [(h.memmove (k + 1)).size]
        decide
      have hiterate : iterate ⟨h.memmove (k + 1), sizeofProtocolHeader - (k + 1), k + 1⟩ t =
          (if (h.memmove (k + 1)).bytes.take 4 = needle then
              .error (18, h.memmove (k + 1))
            else .ok (resync (h.memmove (k + 1))), { t with stream := t.stream.drop (k + 1) }) := by
        simp only [iterate, hrecv, htaken, hcount, request, hwrite, hvalue, if_false, ne_eq,
          not_true_eq_false]
        split <;> rfl
      by_cases hfound : (h.memmove (k + 1)).bytes.take 4 = needle
      · rw [if_pos hfound] at hiterate
        rw [read_error hiterate]
        exact ⟨iff_of_true rfl hfound, fun _ => ⟨rfl, rfl⟩⟩
      · rw [if_neg hfound] at hiterate
        have hagain : resync (h.memmove (k + 1)) =
            ⟨(h.memmove (k + 1)).memmove 0, sizeofProtocolHeader - 0, 0⟩ := by
          rw [resync, HeaderObject.memchr_memmove hk]
        have hret := read_nothing ((h.memmove (k + 1)).memmove 0) (sizeofProtocolHeader - 0)
          { t with stream := t.stream.drop (k + 1) }
        rw [read_ok hiterate, hagain]
        exact ⟨iff_of_false hret hfound, fun heq => absurd heq hret⟩

end HeaderLoop

namespace FirstMagicAt

variable {stream : List UInt8} {p : Nat}

theorem start (h : FirstMagicAt stream p) : stream[p]? = some 0x52 := by
  have hfound := congrArg (·[0]?) h.found
  simpa [needle] using hfound

theorem next (h : FirstMagicAt stream p) (hp : sizeofProtocolHeader ≤ p) :
    FirstMagicAt (stream.drop sizeofProtocolHeader) (p - sizeofProtocolHeader) where
  found := by
    rw [List.drop_drop, Nat.add_sub_cancel' hp]
    exact h.found
  first := by
    intro q hq
    rw [List.drop_drop]
    exact h.first _ (by omega)
  whole := by
    have hwhole := h.whole
    rw [List.length_drop]
    omega

end FirstMagicAt

theorem Transport.wholeWindow_of_uncut {t : Transport} (hcuts : t.cuts = [])
    (hlength : sizeofProtocolHeader ≤ t.stream.length) : t.WholeWindow 0 := by
  constructor
  · simpa using hlength
  · intro cut hcut
    simp [hcuts] at hcut

section Window

variable {header : HeaderObject} {t : Transport} {p k : Nat}

theorem filled_of_uncut (header : HeaderObject) (hcuts : t.cuts = [])
    (hlength : sizeofProtocolHeader ≤ t.stream.length) :
    (HeaderLoop.filled header t).bytes = t.stream.take sizeofProtocolHeader :=
  HeaderLoop.filled_bytes header (Transport.wholeWindow_of_uncut hcuts hlength)

theorem window_ne_needle (hp : FirstMagicAt t.stream p) (hpos : 0 < p) :
    (t.window 0).take 4 ≠ needle := by
  have hfirst := hp.first 0 hpos
  rw [List.drop_zero] at hfirst
  simpa [Transport.window, List.take_take, sizeofProtocolHeader] using hfirst

theorem resynchronises_step (hcuts : t.cuts = []) (hp : FirstMagicAt t.stream p) (hpos : 0 < p) :
    Resynchronises header t p ↔
      let result := (HeaderLoop.resync (HeaderLoop.filled header t)).read t.nextWindow
      result.ret = sizeofProtocolHeader ∧
        result.header.bytes = (t.stream.drop p).take sizeofProtocolHeader ∧
        result.transport.stream = t.stream.drop (p + sizeofProtocolHeader) := by
  have hlength := hp.whole
  have hwhole := Transport.wholeWindow_of_uncut hcuts (by omega)
  rw [Resynchronises, readHeader, HeaderLoop.read_resync hwhole (window_ne_needle hp hpos)]

/-- A false start at the place searched for: the last bytes of the header are not received but
left over from the window. -/
theorem resynchronises_here (hcuts : t.cuts = []) (hp : FirstMagicAt t.stream k) (hpos : 0 < k)
    (hk : (HeaderLoop.filled header t).memchr 0x52 = some k) :
    Resynchronises header t k ↔
      (t.stream.drop sizeofProtocolHeader).take k =
        (t.stream.drop (sizeofProtocolHeader - k)).take k := by
  have hlength := hp.whole
  have hfilled := filled_of_uncut header hcuts (by omega)
  have hlt : k < sizeofProtocolHeader := by
    obtain ⟨hlt, -, -⟩ := List.idxOf?_eq_some_iff.mp hk
    rwa [HeaderObject.size] at hlt
  have hmagic : (HeaderLoop.filled header t).bytes.take 4 ≠ needle := by
    have hne := window_ne_needle hp hpos
    rwa [hfilled]
  have havailable : k ≤ t.nextWindow.stream.length := by
    rw [Transport.nextWindow, List.length_drop]
    omega
  obtain ⟨hret, hstate⟩ := HeaderLoop.read_falseStart (by simp [Transport.nextWindow, hcuts]) hk
    hmagic havailable
  have hmoved : ((HeaderLoop.filled header t).memmove k).bytes =
      (t.stream.take sizeofProtocolHeader).drop k ++
        (t.stream.drop (sizeofProtocolHeader - k)).take k := by
    have hleft : sizeofProtocolHeader - (sizeofProtocolHeader - k) = k := by omega
    rw [HeaderObject.memmove_bytes _ (by omega), hfilled]
    congr 1
    rw [List.drop_take, hleft]
  have hwanted : (t.stream.drop k).take sizeofProtocolHeader =
      (t.stream.take sizeofProtocolHeader).drop k ++
        (t.stream.drop sizeofProtocolHeader).take k := by
    have hsplit : sizeofProtocolHeader = sizeofProtocolHeader - k + k := by omega
    conv => lhs; rw [hsplit]
    rw [List.take_add, List.drop_take, List.drop_drop, Nat.add_sub_cancel' (by omega)]
  rw [resynchronises_step hcuts hp hpos]
  constructor
  · rintro ⟨heighteen, hbytes, -⟩
    rw [(hstate heighteen).1, hmoved, hwanted] at hbytes
    exact (List.append_cancel_left hbytes).symm
  · intro htail
    have hsame : ((HeaderLoop.filled header t).memmove k).bytes =
        (t.stream.drop k).take sizeofProtocolHeader := by
      rw [hmoved, hwanted, htail]
    have heighteen := hret.mpr (by
      rw [hsame, List.take_take]
      exact hp.found)
    refine ⟨heighteen, ?_, ?_⟩
    · rw [(hstate heighteen).1, hsame]
    · rw [(hstate heighteen).2, Transport.nextWindow, List.drop_drop, Nat.add_comm]

theorem falseStart_bytes {h : HeaderObject} {stream : List UInt8}
    (hbytes : h.bytes = stream.take sizeofProtocolHeader) (hk : h.memchr 0x52 = some k) :
    stream[k]? = some 0x52 ∧ ∀ j < k, stream[j]? ≠ some 0x52 := by
  obtain ⟨hlt, hat, hbefore⟩ := List.idxOf?_eq_some_iff.mp hk
  have hsize := h.size
  have hget : ∀ j (hj : j < h.bytes.length), stream[j]? = some h.bytes[j] := by
    intro j hj
    rw [← List.getElem?_eq_getElem hj, hbytes, List.getElem?_take_of_lt (by omega)]
  constructor
  · rw [hget k hlt, hat]
  · intro j hj hstream
    rw [hget j (by omega), Option.some.injEq] at hstream
    exact hbefore j hj hstream

theorem not_resynchronises_before (hcuts : t.cuts = []) (hp : FirstMagicAt t.stream p)
    (hk : (HeaderLoop.filled header t).memchr 0x52 = some k) (hless : k < p) :
    ¬ Resynchronises header t p := by
  have hlength := hp.whole
  have hfilled := filled_of_uncut header hcuts (by omega)
  have hne := window_ne_needle hp (by omega)
  have havailable : k ≤ t.nextWindow.stream.length := by
    rw [Transport.nextWindow, List.length_drop]
    omega
  obtain ⟨-, hstate⟩ := HeaderLoop.read_falseStart (by simp [Transport.nextWindow, hcuts]) hk
    (by rwa [hfilled]) havailable
  rw [resynchronises_step hcuts hp (by omega)]
  rintro ⟨heighteen, -, hstream⟩
  have hlengths := congrArg List.length hstream
  rw [(hstate heighteen).2, Transport.nextWindow, List.drop_drop, List.length_drop,
    List.length_drop] at hlengths
  omega

/-- No `0x52` before the place searched for, and the bytes lost in moving its window are those left
behind. -/
def Recovers (stream : List UInt8) (p : Nat) : Prop :=
  0x52 ∉ stream.take p ∧
    (stream.drop (p + sizeofProtocolHeader - p % sizeofProtocolHeader)).take
        (p % sizeofProtocolHeader) =
      (stream.drop (p + sizeofProtocolHeader - 2 * (p % sizeofProtocolHeader))).take
        (p % sizeofProtocolHeader)

theorem recovers_next {stream : List UInt8} (hp : sizeofProtocolHeader ≤ p)
    (habsent : 0x52 ∉ stream.take sizeofProtocolHeader) :
    Recovers (stream.drop sizeofProtocolHeader) (p - sizeofProtocolHeader) ↔ Recovers stream p := by
  have hrest : sizeofProtocolHeader + (p - sizeofProtocolHeader) = p := Nat.add_sub_cancel' hp
  have hgarbage : stream.take p = stream.take sizeofProtocolHeader ++
      (stream.drop sizeofProtocolHeader).take (p - sizeofProtocolHeader) := by
    rw [← List.take_add, hrest]
  have hmod : (p - sizeofProtocolHeader) % sizeofProtocolHeader = p % sizeofProtocolHeader :=
    (Nat.mod_eq_sub_mod hp).symm
  have hrem := Nat.mod_lt p (by decide : sizeofProtocolHeader > 0)
  have hbound : sizeofProtocolHeader + p % sizeofProtocolHeader ≤ p := by
    simp only [sizeofProtocolHeader] at hp ⊢
    omega
  have hnew : sizeofProtocolHeader +
      (p - sizeofProtocolHeader + sizeofProtocolHeader - p % sizeofProtocolHeader) =
        p + sizeofProtocolHeader - p % sizeofProtocolHeader := by
    omega
  have hold : sizeofProtocolHeader +
      (p - sizeofProtocolHeader + sizeofProtocolHeader - 2 * (p % sizeofProtocolHeader)) =
        p + sizeofProtocolHeader - 2 * (p % sizeofProtocolHeader) := by
    omega
  rw [Recovers, Recovers, hgarbage, List.mem_append, or_iff_right habsent, hmod, List.drop_drop,
    List.drop_drop, hnew, hold]

theorem resynchronises_next (hcuts : t.cuts = []) (hp : FirstMagicAt t.stream p)
    (hp18 : sizeofProtocolHeader ≤ p) (habsent : 0x52 ∉ (HeaderLoop.filled header t).bytes) :
    Resynchronises header t p ↔
      Resynchronises (HeaderLoop.filled header t) t.nextWindow (p - sizeofProtocolHeader) := by
  have hpos : 0 < p := Nat.lt_of_lt_of_le (by decide) hp18
  have hdrop : ∀ n, t.nextWindow.stream.drop n = t.stream.drop (sizeofProtocolHeader + n) := by
    intro n
    rw [Transport.nextWindow, List.drop_drop]
  rw [resynchronises_step hcuts hp hpos, HeaderLoop.resync_absent habsent, Resynchronises, hdrop,
    hdrop, ← Nat.add_assoc, Nat.add_sub_cancel' hp18]
  rfl

theorem resynchronises_present (hcuts : t.cuts = []) (hp : FirstMagicAt t.stream p) (hpos : 0 < p)
    (hpresent : 0x52 ∈ (HeaderLoop.filled header t).bytes) :
    Resynchronises header t p ↔ Recovers t.stream p := by
  have hlength := hp.whole
  obtain ⟨k, hlt, hk, -⟩ := HeaderLoop.resync_present hpresent
  obtain ⟨hat, hbefore⟩ := falseStart_bytes (filled_of_uncut header hcuts (by omega)) hk
  have hkp : k ≤ p := by
    by_contra hpk
    exact hbefore p (by omega) hp.start
  rcases Nat.lt_or_eq_of_le hkp with hless | rfl
  · apply iff_of_false
    · exact not_resynchronises_before hcuts hp hk hless
    · intro hcondition
      apply hcondition.1
      exact List.mem_iff_getElem?.mpr ⟨k, by rw [List.getElem?_take_of_lt hless, hat]⟩
  · have habsent : 0x52 ∉ t.stream.take k := by
      intro hmem
      obtain ⟨j, hj⟩ := List.mem_iff_getElem?.mp hmem
      rw [List.getElem?_take] at hj
      split at hj
      · next hjk => exact hbefore j hjk hj
      · cases hj
    have hmod : k % sizeofProtocolHeader = k := Nat.mod_eq_of_lt hlt
    have hnew : k + sizeofProtocolHeader - k = sizeofProtocolHeader := by omega
    have hold : k + sizeofProtocolHeader - 2 * k = sizeofProtocolHeader - k := by omega
    rw [resynchronises_here hcuts hp hpos hk, Recovers, hmod, hnew, hold]
    exact (and_iff_right habsent).symm

end Window

/-- The header in front of which the garbage ends is found exactly when the garbage contains no
`0x52` and the bytes lost in moving the window happen to be those that it left behind. -/
theorem readHeader_resynchronises_iff (header : HeaderObject) (t : Transport) (p : Nat)
    (hcuts : t.cuts = []) (hp : FirstMagicAt t.stream p) :
    Resynchronises header t p ↔
      0x52 ∉ t.stream.take p ∧
        (t.stream.drop (p + sizeofProtocolHeader - p % sizeofProtocolHeader)).take
            (p % sizeofProtocolHeader) =
          (t.stream.drop (p + sizeofProtocolHeader - 2 * (p % sizeofProtocolHeader))).take
            (p % sizeofProtocolHeader) := by
  change _ ↔ Recovers t.stream p
  -- one window after the other, up to the one that has a `0x52`
  induction p using Nat.strong_induction_on generalizing header t with
  | _ p ih =>
      have hlength := hp.whole
      have hfilled := filled_of_uncut header hcuts (by omega)
      rcases Nat.eq_zero_or_pos p with rfl | hpos
      · have hwhole := Transport.wholeWindow_of_uncut hcuts (by omega)
        have hmagic : (t.window 0).take 4 = needle := by
          have hfound := hp.found
          simpa [Transport.window, List.take_take, sizeofProtocolHeader] using hfound
        rw [Resynchronises, readHeader, HeaderLoop.read_magic hwhole hmagic]
        simp [Recovers, hfilled, Transport.nextWindow, sizeofProtocolHeader]
      · by_cases hpresent : 0x52 ∈ (HeaderLoop.filled header t).bytes
        · exact resynchronises_present hcuts hp hpos hpresent
        · have hp18 : sizeofProtocolHeader ≤ p := by
            by_contra hless
            apply hpresent
            rw [hfilled, List.mem_iff_getElem?]
            exact ⟨p, by rw [List.getElem?_take_of_lt (by omega), hp.start]⟩
          rw [resynchronises_next hcuts hp hp18 hpresent]
          rw [hfilled] at hpresent
          exact (ih (p - sizeofProtocolHeader) (Nat.sub_lt hpos (by decide))
            (HeaderLoop.filled header t) t.nextWindow (by simp [Transport.nextWindow, hcuts])
            (hp.next hp18)).trans (recovers_next hp18 hpresent)

/-- `n` zero bytes, then the header of a heartbeat message. -/
def garbageThenHeartbeat (n : Nat) : Transport :=
  { stream := List.replicate n 0 ++ needle ++ [7, 3, 1, 2, 3, 4, 5, 6, 7, 8, 0, 0, 0, 0]
    cuts := []
    ending := .silent
    errno := .eAgain }

private theorem garbageThenHeartbeat_magic {n : Nat} (hfirst : ∀ q < n,
    ((garbageThenHeartbeat n).stream.drop q).take 4 ≠ needle) :
    FirstMagicAt (garbageThenHeartbeat n).stream n where
  found := by simp [garbageThenHeartbeat, needle]
  first := hfirst
  whole := by simp [garbageThenHeartbeat, needle, sizeofProtocolHeader]

theorem readHeader_resynchronises_window :
    Resynchronises ⟨List.replicate 18 0, rfl⟩ (garbageThenHeartbeat 18) 18 :=
  (readHeader_resynchronises_iff _ (garbageThenHeartbeat 18) 18 rfl
    (garbageThenHeartbeat_magic (by decide))).mpr (by decide)

/-- Behind five bytes of garbage the header is found, but with another payload length. -/
theorem readHeader_garbled :
    FirstMagicAt (garbageThenHeartbeat 5).stream 5 ∧
      ¬ Resynchronises ⟨List.replicate 18 0, rfl⟩ (garbageThenHeartbeat 5) 5 ∧
      (readHeader ⟨List.replicate 18 0, rfl⟩ (garbageThenHeartbeat 5)).ret = 18 ∧
      (readHeader ⟨List.replicate 18 0, rfl⟩ (garbageThenHeartbeat 5)).header.value.payloadLength =
        0x07060504 := by
  refine ⟨garbageThenHeartbeat_magic (by decide), ?_, by decide, by decide⟩
  intro h
  exact absurd h.2.1 (by decide)

end YaskawaComms.Protocol
