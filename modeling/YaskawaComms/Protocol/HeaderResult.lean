import YaskawaComms.Protocol.Resync

/-!
# The verdict on the connection

A receive call without bytes ends `read_header` with a look at `errno`, which `recv` sets only when
it fails. A closed connection, and a request for no bytes, are judged by what an earlier call left
there.
-/

namespace YaskawaComms.Protocol

/-- The value of `errno` with which the connection is kept. -/
def Errno.Passing (errno : Errno) : Prop := errno = .eWouldBlock ∨ errno = .eAgain

instance (errno : Errno) : Decidable errno.Passing :=
  inferInstanceAs (Decidable (errno = .eWouldBlock ∨ errno = .eAgain))

namespace Transport

/-- A receive call that learns that the peer is gone: it asks for bytes and gets none, or fails with
an error other than that nothing has arrived yet. -/
def FindsGone (t : Transport) (len : Nat) : Prop :=
  (len ≠ 0 ∧ (t.recvDontWait len).1 = some []) ∨
    ((t.recvDontWait len).1 = none ∧ ¬ (t.recvDontWait len).2.errno.Passing)

/-- The next receive call is at the end of a closed connection. -/
def AtClose (t : Transport) : Prop :=
  t.stream = [] ∧ t.ending = .closed ∧ t.cuts.head? ≠ some .wouldBlock

/-- The next receive call gets as many bytes as it asks for. -/
def Gets (t : Transport) (len : Nat) : Prop :=
  len ≤ t.stream.length ∧ ∀ cut, t.cuts.head? = some cut → ∃ n, len ≤ n + 1 ∧ cut = .upTo n

/-- The connection after a receive call that has got this many bytes. -/
def passed (t : Transport) (len : Nat) : Transport :=
  { t with stream := t.stream.drop len, cuts := t.cuts.tail }

variable {t : Transport} {len : Nat}

theorem deliver_pos (hempty : t.stream ≠ []) (len : Nat) :
    t.deliver len = (some (t.stream.take len), { t with stream := t.stream.drop len }) :=
  if_neg hempty

theorem recvDontWait_gets (hlen : len ≠ 0) (h : t.Gets len) :
    t.recvDontWait len = (some (t.stream.take len), t.passed len) := by
  obtain ⟨hlength, hcuts⟩ := h
  have hempty : t.stream ≠ [] := List.ne_nil_of_length_pos (by omega)
  rw [recvDontWait, if_neg hlen]
  cases hscript : t.cuts with
  | nil => simp [deliver_pos hempty, passed, hscript]
  | cons cut cuts =>
      obtain ⟨n, hn, rfl⟩ := hcuts cut (by rw [hscript]; rfl)
      have hmin : min (n + 1) len = len := Nat.min_eq_right hn
      simp [deliver, hempty, passed, hscript, hmin]

theorem deliver_empty (hempty : t.stream = []) (len : Nat) :
    (t.ending = .closed ∧ t.deliver len = (some [], t)) ∨
      (t.ending ≠ .closed ∧ ∃ t', t.deliver len = (none, t')) := by
  rw [deliver, if_pos hempty, afterLast]
  cases t.ending with
  | silent =>
      refine Or.inr ⟨?_, _, rfl⟩
      intro hclosed
      cases hclosed
  | closed => exact Or.inl ⟨rfl, rfl⟩
  | failed error =>
      refine Or.inr ⟨?_, _, rfl⟩
      intro hclosed
      cases hclosed

/-- The other outcomes of a request for bytes. -/
theorem recvDontWait_not_gets (hlen : len ≠ 0) (h : ¬ t.Gets len) :
    (t.AtClose ∧ ∃ t', t.recvDontWait len = (some [], t') ∧ t'.errno = t.errno) ∨
      (¬ t.AtClose ∧ ∃ t', t.recvDontWait len = (none, t')) ∨
      (¬ t.AtClose ∧ ∃ bytes t', t.recvDontWait len = (some bytes, t') ∧ bytes ≠ [] ∧
        bytes.length ≠ len) := by
  have hpartial : ∀ n, 0 < n → (n = len → ¬ len ≤ t.stream.length) → n ≤ len → t.stream ≠ [] →
      t.stream.take n ≠ [] ∧ (t.stream.take n).length ≠ len := by
    intro n hpos hshort hle hsome
    have hstream := List.length_pos_iff.mpr hsome
    constructor
    · apply List.ne_nil_of_length_pos
      rw [List.length_take]
      omega
    · rw [List.length_take]
      omega
  rw [recvDontWait, if_neg hlen]
  cases hscript : t.cuts with
  | nil =>
      dsimp only
      by_cases hempty : t.stream = []
      · rcases deliver_empty hempty len with ⟨hclosed, hdeliver⟩ | ⟨hopen, t', hdeliver⟩
        · exact Or.inl ⟨⟨hempty, hclosed, by simp [hscript]⟩, t, hdeliver, rfl⟩
        · exact Or.inr (Or.inl ⟨fun hclose => hopen hclose.2.1, t', hdeliver⟩)
      · have hshort : ¬ len ≤ t.stream.length := fun hle => h ⟨hle, by simp [hscript]⟩
        obtain ⟨hsome, hlength⟩ := hpartial len (by omega) (fun _ => hshort) (Nat.le_refl _) hempty
        exact Or.inr (Or.inr ⟨fun hclose => hempty hclose.1, _, _, deliver_pos hempty len, hsome,
          hlength⟩)
  | cons cut cuts =>
      cases cut with
      | wouldBlock => exact Or.inr (Or.inl ⟨fun hclose => hclose.2.2 (by rw [hscript]; rfl), _, rfl⟩)
      | upTo n =>
          dsimp only
          by_cases hempty : t.stream = []
          · rcases deliver_empty (t := { t with cuts := cuts }) hempty (min (n + 1) len) with
              ⟨hclosed, hdeliver⟩ | ⟨hopen, t', hdeliver⟩
            · exact Or.inl ⟨⟨hempty, hclosed, by simp [hscript]⟩, _, hdeliver, rfl⟩
            · exact Or.inr (Or.inl ⟨fun hclose => hopen hclose.2.1, t', hdeliver⟩)
          · have hshort : min (n + 1) len = len → ¬ len ≤ t.stream.length := by
              intro hmin hle
              exact h ⟨hle, fun cut hcut => ⟨n, by omega, by simpa [hscript] using hcut.symm⟩⟩
            obtain ⟨hsome, hlength⟩ := hpartial (min (n + 1) len) (by omega) hshort
              (Nat.min_le_right _ _) hempty
            exact Or.inr (Or.inr ⟨fun hclose => hempty hclose.1, _, _,
              deliver_pos (t := { t with cuts := cuts }) hempty _, hsome, hlength⟩)

theorem gets_not_findsGone (hlen : len ≠ 0) (h : t.Gets len) : ¬ t.FindsGone len := by
  have hsome : t.stream.take len ≠ [] := by
    apply List.ne_nil_of_length_pos
    rw [List.length_take_of_le h.1]
    omega
  have hempty : t.stream ≠ [] := fun hnil => hsome (by rw [hnil, List.take_nil])
  simp [FindsGone, recvDontWait_gets hlen h, hlen, hempty]

theorem atClose_not_gets (h : t.AtClose) (hlen : len ≠ 0) : ¬ t.Gets len := by
  rintro ⟨hlength, -⟩
  rw [h.1, List.length_nil] at hlength
  omega

end Transport

namespace HeaderLoop

variable {s s' : HeaderLoop} {t t' : Transport}

/-- One of the receive calls of the loop finds the peer gone. -/
inductive FindsGone : HeaderLoop → Transport → Prop where
  | now {s : HeaderLoop} {t : Transport} (found : t.FindsGone s.toRead) : FindsGone s t
  | later {s s' : HeaderLoop} {t t' : Transport} (goesOn : s.iterate t = (.ok s', t'))
      (found : FindsGone s' t') : FindsGone s t

/-- The loop reports a lost connection exactly if it finds the peer gone. -/
def Judges (s : HeaderLoop) (t : Transport) : Prop := (s.read t).ret = -1 ↔ s.FindsGone t

theorem findsGone_ok (h : s.iterate t = (.ok s', t')) : s.FindsGone t ↔ s'.FindsGone t' := by
  constructor
  · intro hgone
    cases hgone with
    | now found =>
        obtain ⟨bytes, hrecv, hempty, -, -⟩ := iterate_ok h
        rcases found with ⟨-, hnone⟩ | ⟨hnone, -⟩
        · rw [hrecv] at hnone
          exact absurd (Option.some.inj hnone) hempty
        · rw [hrecv] at hnone
          cases hnone
    | later goesOn found =>
        rw [h] at goesOn
        cases goesOn
        exact found
  · exact .later h

theorem findsGone_error {result : Int × HeaderObject} (h : s.iterate t = (.error result, t')) :
    s.FindsGone t ↔ t.FindsGone s.toRead := by
  constructor
  · intro hgone
    cases hgone with
    | now found => exact found
    | later goesOn _ =>
        rw [h] at goesOn
        cases goesOn
  · exact .now

theorem judges_ok (h : s.iterate t = (.ok s', t')) : s.Judges t ↔ s'.Judges t' := by
  rw [Judges, Judges, findsGone_ok h, read_ok h]

theorem failure_eq_neg_one (errno : Errno) : failure errno = -1 ↔ ¬ errno.Passing := by
  unfold failure Errno.Passing
  split
  · next h => exact iff_of_false (by decide) (not_not.mpr h)
  · next h => exact iff_of_true rfl h

theorem iterate_nothing (h : s.toRead = 0) :
    s.iterate t = (.error (failure t.errno, s.header), t) := by
  simp [iterate, h, Transport.recvDontWait]

theorem findsGone_nothing (h : s.toRead = 0) : ¬ s.FindsGone t := by
  rw [findsGone_error (iterate_nothing h), h]
  simp [Transport.FindsGone, Transport.recvDontWait]

theorem judges_nothing (h : s.toRead = 0) : s.Judges t ↔ t.errno.Passing := by
  have hgone : ¬ s.FindsGone t := findsGone_nothing h
  rw [Judges, read_error (iterate_nothing h), failure_eq_neg_one]
  constructor
  · intro hjudges
    by_contra hfails
    exact hgone (hjudges.mp hfails)
  · intro hpassing
    exact iff_of_false (not_not.mpr hpassing) hgone

theorem judges_not_gets (hlen : s.toRead ≠ 0) (h : ¬ t.Gets s.toRead) :
    s.Judges t ↔ (t.AtClose → ¬ t.errno.Passing) := by
  rcases Transport.recvDontWait_not_gets hlen h with ⟨hclose, t', hrecv, herrno⟩ |
    ⟨hopen, t', hrecv⟩ | ⟨hopen, bytes, t', hrecv, hsome, hlength⟩
  · have hiterate : s.iterate t = (.error (failure t'.errno, s.header), t') := by
      simp [iterate, hrecv]
    have hgone : t.FindsGone s.toRead := Or.inl ⟨hlen, congrArg Prod.fst hrecv⟩
    rw [Judges, findsGone_error hiterate, read_error hiterate, failure_eq_neg_one, herrno]
    exact ⟨fun hjudges _ => hjudges.mpr hgone, fun hfails => iff_of_true (hfails hclose) hgone⟩
  · have hiterate : s.iterate t = (.error (failure t'.errno, s.header), t') := by
      simp [iterate, hrecv]
    have hgone : t.FindsGone s.toRead ↔ ¬ t'.errno.Passing := by
      simp [Transport.FindsGone, hrecv]
    rw [Judges, findsGone_error hiterate, read_error hiterate, failure_eq_neg_one, hgone]
    exact iff_of_true Iff.rfl fun hclose => absurd hclose hopen
  · have hiterate : s.iterate t =
        (.error (bytes.length, s.header.write s.request.destination bytes), t') := by
      simp [iterate, hrecv, hsome, hlength]
    have hgone : ¬ t.FindsGone s.toRead := by
      simp [Transport.FindsGone, hrecv, hsome]
    rw [Judges, findsGone_error hiterate, read_error hiterate]
    have hret : ¬ (bytes.length : Int) = -1 := by omega
    exact iff_of_true (iff_of_false hret hgone) fun hclose => absurd hclose hopen

theorem judges_gets (hlen : s.toRead ≠ 0) (h : t.Gets s.toRead) :
    s.Judges t ↔
      ((s.header.write s.request.destination (t.stream.take s.toRead)).value.magicNumber ≠
          protocolMagicNumber →
        (resync (s.header.write s.request.destination (t.stream.take s.toRead))).Judges
          (t.passed s.toRead)) := by
  have hrecv := Transport.recvDontWait_gets hlen h
  have hlength : (t.stream.take s.toRead).length = s.toRead := List.length_take_of_le h.1
  have hsome : t.stream.take s.toRead ≠ [] := List.ne_nil_of_length_pos (by omega)
  generalize t.stream.take s.toRead = bytes at hrecv hlength hsome
  generalize hheader : s.header.write s.request.destination bytes = header
  by_cases hmagic : header.value.magicNumber = protocolMagicNumber
  · have hiterate : s.iterate t = (.error (sizeofProtocolHeader, header), t.passed s.toRead) := by
      simp [iterate, hrecv, hsome, hlength, hheader, hmagic]
    have hgone := Transport.gets_not_findsGone hlen h
    rw [Judges, findsGone_error hiterate, read_error hiterate]
    have hret : ¬ (sizeofProtocolHeader : Int) = -1 := by decide
    exact iff_of_true (iff_of_false hret hgone) fun hne => absurd hmagic hne
  · have hiterate : s.iterate t = (.ok (resync header), t.passed s.toRead) := by
      simp [iterate, hrecv, hsome, hlength, hheader, hmagic]
    rw [judges_ok hiterate]
    exact ⟨fun hjudges _ => hjudges, fun hjudges => hjudges hmagic⟩

/-- The search for a false start, and the one receive call after it. -/
theorem judges_falseStart {h : HeaderObject} {k : Nat} (hk : h.memchr 0x52 = some k) :
    (resync h).Judges t ↔
      (k = 0 → t.errno.Passing) ∧
      (k ≠ 0 → (t.AtClose → ¬ t.errno.Passing) ∧
        (t.Gets k → (h.memmove k).bytes.take 4 ≠ needle → t.errno.Passing)) := by
  obtain ⟨hlt, -, -⟩ := List.idxOf?_eq_some_iff.mp hk
  rw [h.size] at hlt
  have hresync : resync h = ⟨h.memmove k, sizeofProtocolHeader - k, k⟩ := by rw [resync, hk]
  rw [hresync]
  by_cases hzero : k = 0
  · rw [judges_nothing hzero]
    simp [hzero]
  · by_cases hgets : t.Gets k
    · have hwrite : (h.memmove k).write (sizeofProtocolHeader * (sizeofProtocolHeader - k))
          (t.stream.take k) = h.memmove k := by
        apply HeaderObject.write_outside
        simp only [sizeofProtocolHeader] at hlt ⊢
        omega
      have hvalue : (h.memmove k).value.magicNumber = protocolMagicNumber ↔
          (h.memmove k).bytes.take 4 = needle := by
        apply ofBytes_magicNumber_iff
        rw [(h.memmove k).size]
        decide
      have hagain : resync (h.memmove k) =
          ⟨(h.memmove k).memmove 0, sizeofProtocolHeader - 0, 0⟩ := by
        rw [resync, HeaderObject.memchr_memmove hk]
      have hopen : ¬ t.AtClose := fun hclose => Transport.atClose_not_gets hclose hzero hgets
      rw [judges_gets hzero hgets]
      simp only [request, hwrite, ne_eq, hvalue, hagain]
      rw [judges_nothing rfl]
      simp [hzero, hgets, hopen, Transport.passed]
    · rw [judges_not_gets hzero hgets]
      simp [hzero, hgets]

end HeaderLoop

namespace Transport

/-- The connection after so many windows. -/
def behind (t : Transport) (j : Nat) : Transport :=
  { t with stream := t.stream.drop (sizeofProtocolHeader * j), cuts := t.cuts.drop j }

/-- The loop comes to window `j`: those before are received whole and have no sign of a header. -/
def Reaches (t : Transport) (j : Nat) : Prop :=
  ∀ i < j, t.WholeWindow i ∧ (t.window i).take 4 ≠ needle ∧ 0x52 ∉ t.window i

/-- The old value of `errno` fits what the loop meets: it is not a passing one where the loop comes to
the close of the connection, in front of a window or behind a false start, and it is one where the
loop asks for no bytes, because the window, or what has been moved to its front, begins with `0x52`. -/
def ErrnoFits (t : Transport) : Prop :=
  ∀ j, t.Reaches j →
    ((t.behind j).AtClose → ¬ t.errno.Passing) ∧
    (t.WholeWindow j → (t.window j).take 4 ≠ needle → ∀ k, (t.window j).idxOf? 0x52 = some k →
      (k = 0 → t.errno.Passing) ∧
      (k ≠ 0 → ((t.behind (j + 1)).AtClose → ¬ t.errno.Passing) ∧
        ((t.behind (j + 1)).Gets k →
          ((t.window j).drop k ++ (t.window j).drop (sizeofProtocolHeader - k)).take 4 ≠ needle →
          t.errno.Passing)))

variable {t : Transport}

theorem behind_zero (t : Transport) : t.behind 0 = t := by
  simp [behind]

theorem behind_succ (t : Transport) (j : Nat) : t.behind (j + 1) = t.nextWindow.behind j := by
  simp only [behind, nextWindow, List.drop_drop, List.drop_tail, Nat.mul_succ, Nat.add_comm]

theorem wholeWindow_zero : t.WholeWindow 0 ↔ t.Gets sizeofProtocolHeader := by
  unfold WholeWindow Gets sizeofProtocolHeader
  rw [List.head?_eq_getElem?]
  constructor
  · rintro ⟨hlength, hcuts⟩
    refine ⟨by omega, ?_⟩
    intro cut hcut
    obtain ⟨n, hn, heq⟩ := hcuts cut hcut
    exact ⟨n, by omega, heq⟩
  · rintro ⟨hlength, hcuts⟩
    refine ⟨by omega, ?_⟩
    intro cut hcut
    obtain ⟨n, hn, heq⟩ := hcuts cut hcut
    exact ⟨n, by omega, heq⟩

theorem reaches_zero (t : Transport) : t.Reaches 0 := fun i hi => absurd hi (Nat.not_lt_zero i)

theorem Reaches.first {j : Nat} (h : t.Reaches j) (hj : 0 < j) :
    t.WholeWindow 0 ∧ (t.window 0).take 4 ≠ needle ∧ 0x52 ∉ t.window 0 :=
  h 0 hj

theorem reaches_succ (hwhole : t.WholeWindow 0) (hmagic : (t.window 0).take 4 ≠ needle)
    (habsent : 0x52 ∉ t.window 0) {j : Nat} : t.Reaches (j + 1) ↔ t.nextWindow.Reaches j := by
  constructor
  · intro h i hi
    rw [← t.wholeWindow_succ i hwhole, ← window_succ]
    exact h (i + 1) (Nat.succ_lt_succ hi)
  · intro h i hi
    cases i with
    | zero => exact ⟨hwhole, hmagic, habsent⟩
    | succ i =>
        rw [t.wholeWindow_succ i hwhole, window_succ]
        exact h i (Nat.lt_of_succ_lt_succ hi)

theorem wholeWindow_open (h : t.WholeWindow 0) : ¬ t.AtClose := fun hclose =>
  atClose_not_gets hclose (by decide) (wholeWindow_zero.mp h)

theorem errnoFits_next (hwhole : t.WholeWindow 0) (hmagic : (t.window 0).take 4 ≠ needle)
    (habsent : 0x52 ∉ t.window 0) : t.ErrnoFits ↔ t.nextWindow.ErrnoFits := by
  constructor
  · intro h j hreaches
    have hj := h (j + 1) ((reaches_succ hwhole hmagic habsent).mpr hreaches)
    rw [behind_succ, behind_succ, t.wholeWindow_succ j hwhole, window_succ] at hj
    exact hj
  · intro h j hreaches
    cases j with
    | zero =>
        refine ⟨fun hclose => absurd hclose (wholeWindow_open hwhole), ?_⟩
        intro _ _ k hk
        rw [List.idxOf?_eq_none_iff.mpr habsent] at hk
        cases hk
    | succ j =>
        rw [behind_succ, behind_succ, t.wholeWindow_succ j hwhole, window_succ]
        exact h j ((reaches_succ hwhole hmagic habsent).mp hreaches)

theorem errnoFits_first (hstops : ¬ (t.WholeWindow 0 ∧ (t.window 0).take 4 ≠ needle ∧
      0x52 ∉ t.window 0)) :
    t.ErrnoFits ↔ (t.AtClose → ¬ t.errno.Passing) ∧
      (t.WholeWindow 0 → (t.window 0).take 4 ≠ needle → ∀ k, (t.window 0).idxOf? 0x52 = some k →
        (k = 0 → t.errno.Passing) ∧
        (k ≠ 0 → (t.nextWindow.AtClose → ¬ t.errno.Passing) ∧
          (t.nextWindow.Gets k →
            ((t.window 0).drop k ++ (t.window 0).drop (sizeofProtocolHeader - k)).take 4 ≠ needle →
            t.errno.Passing))) := by
  constructor
  · intro h
    have hfirst := h 0 t.reaches_zero
    rwa [behind_succ, behind_zero, behind_zero] at hfirst
  · intro h j hreaches
    cases j with
    | zero => rwa [behind_succ, behind_zero, behind_zero]
    | succ j => exact absurd (hreaches.first (Nat.succ_pos j)) hstops

end Transport

/-- The result -1 means that the peer is gone, and is given whenever it is found to be, exactly if the
old value of `errno` fits. -/
theorem readHeader_judges_iff (header : HeaderObject) (t : Transport) :
    ((readHeader header t).ret = -1 ↔ (HeaderLoop.start header).FindsGone t) ↔ t.ErrnoFits := by
  change (HeaderLoop.start header).Judges t ↔ _
  induction hn : t.stream.length using Nat.strong_induction_on generalizing header t with
  | _ n ih =>
      by_cases hwhole : t.WholeWindow 0
      · have hfilled := HeaderLoop.filled_bytes header hwhole
        have hiterate : (HeaderLoop.start header).iterate t = _ := HeaderLoop.iterate_whole hwhole
        by_cases hmagic : (t.window 0).take 4 = needle
        · rw [Transport.errnoFits_first fun h => h.2.1 hmagic]
          rw [if_pos hmagic] at hiterate
          have hgone : ¬ t.FindsGone (HeaderLoop.start header).toRead :=
            Transport.gets_not_findsGone (Nat.succ_ne_zero 17) (Transport.wholeWindow_zero.mp hwhole)
          have hret : ¬ (18 : Int) = -1 := by decide
          rw [HeaderLoop.Judges, HeaderLoop.findsGone_error hiterate, HeaderLoop.read_error hiterate]
          apply iff_of_true (iff_of_false hret hgone)
          exact ⟨fun hclose => absurd hclose (Transport.wholeWindow_open hwhole),
            fun _ hne => absurd hmagic hne⟩
        · rw [if_neg hmagic] at hiterate
          rw [HeaderLoop.judges_ok hiterate]
          by_cases hpresent : 0x52 ∈ t.window 0
          · rw [Transport.errnoFits_first fun h => h.2.2 hpresent]
            rw [← hfilled] at hpresent
            obtain ⟨k, hlt, hk, -⟩ := HeaderLoop.resync_present hpresent
            rw [HeaderLoop.judges_falseStart hk, HeaderObject.memmove_bytes _ (Nat.le_of_lt hlt), hfilled]
            rw [HeaderObject.memchr, hfilled] at hk
            constructor
            · intro hfits
              refine ⟨fun hclose => absurd hclose (Transport.wholeWindow_open hwhole), ?_⟩
              intro _ _ k' hk'
              rw [hk] at hk'
              cases hk'
              exact hfits
            · intro hfits
              exact hfits.2 hwhole hmagic k hk
          · have hless : t.nextWindow.stream.length < n := by
              have hlength := hwhole.1
              simp only [Transport.nextWindow, List.length_drop, sizeofProtocolHeader] at hlength ⊢
              omega
            rw [Transport.errnoFits_next hwhole hmagic hpresent]
            rw [← hfilled] at hpresent
            rw [HeaderLoop.resync_absent hpresent]
            exact ih _ hless (HeaderLoop.filled header t) t.nextWindow rfl
      · have hgets : ¬ t.Gets sizeofProtocolHeader := fun h => hwhole (Transport.wholeWindow_zero.mpr h)
        rw [Transport.errnoFits_first fun h => hwhole h.1,
          HeaderLoop.judges_not_gets (s := HeaderLoop.start header) (Nat.succ_ne_zero 17) hgets]
        exact (and_iff_left fun h => absurd h hwhole).symm

/-- A peer that has closed the connection, after a call that found nothing yet. -/
def closedAfterWaiting : Transport := ⟨[], [], .closed, .eAgain⟩

/-- Eighteen bytes that begin with `0x52` and are no header, after an interrupted call. -/
def garbageAfterInterrupt : Transport := ⟨0x52 :: List.replicate 17 0, [], .silent, .eIntr⟩

/-- The first is not recognised; the second is taken for a lost connection. -/
theorem readHeader_misjudges :
    let header : HeaderObject := ⟨List.replicate 18 0, rfl⟩
    ((readHeader header closedAfterWaiting).ret = 1 ∧
      (HeaderLoop.start header).FindsGone closedAfterWaiting) ∧
    (readHeader header garbageAfterInterrupt).ret = -1 ∧
      ¬ (HeaderLoop.start header).FindsGone garbageAfterInterrupt := by
  intro header
  have hwhole : garbageAfterInterrupt.WholeWindow 0 := ⟨by decide, nofun⟩
  have hiterate : (HeaderLoop.start header).iterate garbageAfterInterrupt = _ :=
    HeaderLoop.iterate_whole hwhole
  refine ⟨⟨by decide, .now (Or.inl ⟨Nat.succ_ne_zero 17, rfl⟩)⟩, by decide, ?_⟩
  rw [HeaderLoop.findsGone_ok hiterate]
  exact HeaderLoop.findsGone_nothing (by decide)

end YaskawaComms.Protocol
