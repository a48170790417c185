import YaskawaComms.Logging.RingExchange
import YaskawaComms.Logging.RingSharing
import Mathlib.Data.Fintype.Option

/-!
# A reader against many writers

Any number of threads write to the ring buffer under its lock while one thread reads it without
the lock. The writers act on the reader as one writer does that makes their calls in the order in
which these end. The bytes come out in that order, and those of one call are not mixed with those
of another.
-/

namespace YaskawaComms.Logging

open Program

variable {ω : Type}

/-- The reader is `none`, the writers are the others. -/
abbrev WritersPool (ω : Type) :=
  (RingPool (Option ω) × Record (Option ω) RingOp (Nat × List UInt8)) × Exchange

def party : Option ω → Party
  | none => .reader
  | some _ => .writer

/-- The call of a writer counts from the moment it gets the lock. -/
def Exchange.entered (h : Exchange) (op : Option RingOp) : Exchange :=
  { h with writer := {}, offered := (op.map RingOp.data).getD [] }

def Exchange.noteShared (label : PoolLabel (Option ω) Bool RingOp)
    (s : RingPool (Option ω) × Record (Option ω) RingOp (Nat × List UInt8)) (h : Exchange) :
    Exchange :=
  match label with
  | .begin none _ => { h with reader := {} }
  | .begin (some _) _ => h
  | .call i interrupted =>
      match s.1.code i with
      | .ret _ => h
      | .call c next =>
          match s.1.shared.perform interrupted c with
          | none => h
          | some (r, _) =>
              match i with
              | none => h.made .reader c r (next r)
              | some _ =>
                  if s.1.held i then h.made .writer c r (next r)
                  else if ringLock.acquires c r then
                    (h.entered (s.2.doing i)).made .writer c r (next r)
                  else h

/-- A step of the reader or of a writer, noted in both histories. -/
def writersStep [DecidableEq ω] : PoolLabel (Option ω) Bool RingOp → WritersPool ω → Option (WritersPool ω) :=
  noting (recordedStep ringLock (fun interrupted c rb => rb.perform interrupted c) RingOp.code)
    Exchange.noteShared

/-- All threads idle on a ring buffer. -/
def writers (ω : Type) (rb : RingBuffer) : WritersPool ω := ((Pool.idle rb (0, []), {}), {})

/-- The reader reads and does not find the buffer empty, the writers write, and no index wraps
between the comparison of a space function and the load that follows it. -/
def Undisturbed (s : WritersPool ω) (label : PoolLabel (Option ω) Bool RingOp) : Prop :=
  Pool.Avoids EmptyReadGive s.1.1 label ∧
    match label with
    | .begin i op => (party i).plays op = true
    | .call none _ => ∀ head tail, s.2.reader.loads = [head, tail] → tail ≤ head →
        s.1.1.shared.tail ≤ s.1.1.shared.head
    | .call (some i) _ => s.1.1.held (some i) = true → ∀ head tail,
        s.2.writer.loads = [head, tail] → head < tail → s.1.1.shared.head < s.1.1.shared.tail

/-- What the writes that held the lock have put in, one after the other. -/
def WritersPool.sent (s : WritersPool ω) : List UInt8 :=
  s.1.2.locked.flatMap fun call => call.1.data.take call.2.1

/-- The code of two parties. -/
def codes (reader writer : RingProgram (Nat × List UInt8)) : Party → RingProgram (Nat × List UInt8)
  | .reader => reader
  | .writer => writer

section Codes

variable (reader writer p : RingProgram (Nat × List UInt8))

@[simp] theorem update_codes_reader : Function.update (codes reader writer) .reader p = codes p writer := by
  funext i
  cases i <;> rfl

@[simp] theorem update_codes_writer : Function.update (codes reader writer) .writer p = codes reader p := by
  funext i
  cases i <;> rfl

end Codes

/-- A reader and one writer in the place of the threads. -/
def together (rb : RingBuffer) (reader writer : RingProgram (Nat × List UInt8)) (h : Exchange) :
    RingPool Party × Exchange :=
  (⟨rb, codes reader writer, fun _ => false⟩, h)

/-- The writers stand behind one writer, which is where the holder of the lock is, or idle. -/
structure Stands (s : WritersPool ω) (writer : RingProgram (Nat × List UInt8)) : Prop where
  working : ∀ i, s.1.1.held (some i) = true → writer = s.1.1.code (some i) ∧
    (∃ op, s.1.2.doing (some i) = some op ∧ s.2.offered = op.data) ∧
    s.2.published = s.sent ++ s.2.writer.done
  resting : (∀ i, s.1.1.held (some i) = false) → (∃ out, writer = .ret out) ∧ s.2.published = s.sent

structure Sharing (rb : RingBuffer) (s : WritersPool ω) : Prop where
  sectioned : Sectioned ringLock TriesLock RingOp.code (fun i => i ≠ none) s.1
  plays : ∀ i op, s.1.2.doing (some i) = some op → Party.writer.plays op = true
  reader : s.1.1.held none = false
  refused : ∀ e ∈ s.1.2.ended, e.thread ≠ none → e.locked = false → e.result = (0, [])
  linked : ∃ unread writer, Stands s writer ∧
    Linked rb.size rb.unread (together s.1.1.shared (s.1.1.code none) writer s.2) unread

theorem Party.writer_locks {op : RingOp} (h : Party.writer.plays op = true) : op.locks = true := by
  cases op <;> first | rfl | cases h

section Steps

variable {rb : RingBuffer} {s t : WritersPool ω} {writer : RingProgram (Nat × List UInt8)}

theorem Stands.keep (h : Stands s writer) (hheld : ∀ i, t.1.1.held (some i) = s.1.1.held (some i))
    (hcode : ∀ i, t.1.1.code (some i) = s.1.1.code (some i))
    (hdoing : ∀ i, t.1.2.doing (some i) = s.1.2.doing (some i)) (hsent : t.sent = s.sent)
    (hoffered : t.2.offered = s.2.offered) (hpublished : t.2.published = s.2.published)
    (hdone : t.2.writer.done = s.2.writer.done) : Stands t writer := by
  constructor
  · intro i hi
    rw [hcode i, hdoing i, hsent, hoffered, hpublished, hdone]
    exact h.working i (hheld i ▸ hi)
  · intro hnone
    rw [hsent, hpublished]
    exact h.resting fun i => hheld i ▸ hnone i

theorem Stands.outside (h : Stands s writer) {i : ω} (hfree : s.1.1.held (some i) = false)
    (hheld : ∀ k, t.1.1.held (some k) = s.1.1.held (some k))
    (hcode : ∀ k, k ≠ i → t.1.1.code (some k) = s.1.1.code (some k))
    (hdoing : ∀ k, k ≠ i → t.1.2.doing (some k) = s.1.2.doing (some k)) (hsent : t.sent = s.sent)
    (hexchange : t.2 = s.2) : Stands t writer := by
  constructor
  · intro k hk
    rw [hheld k] at hk
    have hne : k ≠ i := by
      rintro rfl
      rw [hfree] at hk
      cases hk
    rw [hcode k hne, hdoing k hne, hsent, hexchange]
    exact h.working k hk
  · intro hnone
    rw [hsent, hexchange]
    exact h.resting fun k => hheld k ▸ hnone k

theorem sent_of_free {i : Option ω} {doing : Option ω → Option RingOp} {j : Option RingOp}
    {p : RingProgram (Nat × List UInt8)}
    (hrecord : t.1.2 = ⟨doing, s.1.2.ended ++ Record.entry i j false p⟩) : t.sent = s.sent := by
  rw [WritersPool.sent, WritersPool.sent, hrecord, Record.locked_append_free]

theorem Sharing.refused_append (h : Sharing rb s) {i : Option ω}
    {doing : Option ω → Option RingOp} {j : Option RingOp} {locked : Bool}
    {p : RingProgram (Nat × List UInt8)}
    (hrecord : t.1.2 = ⟨doing, s.1.2.ended ++ Record.entry i j locked p⟩)
    (hp : i ≠ none → locked = false → ∀ out, p = .ret out → out = (0, [])) :
    ∀ e ∈ t.1.2.ended, e.thread ≠ none → e.locked = false → e.result = (0, []) := by
  rw [hrecord]
  intro e he hthread hfree
  rcases List.mem_append.mp he with hbefore | hlast
  · exact h.refused e hbefore hthread hfree
  · obtain ⟨hi, -, hlocked, hend⟩ := Record.mem_entry hlast
    exact hp (hi ▸ hthread) (hlocked ▸ hfree) _ hend

theorem noted_holding {i : ω} {interrupted : Bool} {c : RingCall}
    {next : c.access.Result → RingProgram (Nat × List UInt8)} {r : c.access.Result}
    {shared : RingBuffer} (hcode : s.1.1.code (some i) = .call c next)
    (hperform : s.1.1.shared.perform interrupted c = some (r, shared))
    (hheld : s.1.1.held (some i) = true) :
    Exchange.noteShared (.call (some i) interrupted) s.1 s.2 = s.2.made .writer c r (next r) := by
  simp only [Exchange.noteShared, hcode, hperform, hheld, if_true]

theorem noted_waiting {i : ω} {interrupted : Bool} {c : RingCall}
    {next : c.access.Result → RingProgram (Nat × List UInt8)} {r : c.access.Result}
    {shared : RingBuffer} (hcode : s.1.1.code (some i) = .call c next)
    (hperform : s.1.1.shared.perform interrupted c = some (r, shared))
    (hheld : s.1.1.held (some i) = false) :
    Exchange.noteShared (.call (some i) interrupted) s.1 s.2 =
      if ringLock.acquires c r then (s.2.entered (s.1.2.doing (some i))).made .writer c r (next r)
      else s.2 := by
  simp only [Exchange.noteShared, hcode, hperform, hheld, Bool.false_eq_true, if_false]

variable [DecidableEq ω]

theorem Sharing.reader_begins (h : Sharing rb s) (hsize : rb.size ≤ 2 ^ 63) {op : RingOp}
    (hplays : Party.reader.plays op = true) (hstep : writersStep (.begin none op) s = some t) :
    Sharing rb t := by
  obtain ⟨hrecorded, hnote⟩ := noting_eq_some hstep
  replace hnote : t.2 = { s.2 with reader := {} } := hnote
  obtain ⟨out, hidle, hpool, hrecord⟩ := recorded_begin hrecorded
  have hbegins : BeginsSections ringLock TriesLock RingOp.code (fun i : Option ω => i ≠ none)
      (.begin none op : PoolLabel (Option ω) Bool RingOp) := fun hne => absurd rfl hne
  obtain ⟨unread, writer, hstands, hlinked⟩ := h.linked
  obtain ⟨wanted, rfl⟩ : ∃ wanted, op = .readN wanted := by
    cases op with
    | readN wanted => exact ⟨wanted, rfl⟩
    | _ => cases hplays
  refine ⟨h.sectioned.step ring_locking hbegins hrecorded, ?_, ?_, ?_, unread, writer, ?_, ?_⟩
  · intro i op hdoing
    rw [hrecord] at hdoing
    exact h.plays i op (by simpa using hdoing)
  · rw [hpool]
    exact h.reader
  · exact h.refused_append hrecord fun hne => absurd rfl hne
  · refine hstands.keep ?_ ?_ ?_ (sent_of_free hrecord) ?_ ?_ ?_
    · rw [hpool]
      exact fun _ => rfl
    · rw [hpool]
      exact fun _ => by simp
    · rw [hrecord]
      exact fun _ => by simp
    all_goals rw [hnote]
  · have hread := @Linked.reader_begins _ _ _ _ (fun _ => false) hlinked hsize wanted
    simp only [together, update_codes_reader] at hread
    rw [hpool, hnote]
    simpa [together] using hread

/-- A writer that begins has no effect as long as it does not hold the lock. -/
theorem Sharing.writer_begins (h : Sharing rb s) {i : ω} {op : RingOp}
    (hplays : Party.writer.plays op = true) (hstep : writersStep (.begin (some i) op) s = some t) :
    Sharing rb t := by
  obtain ⟨hrecorded, hnote⟩ := noting_eq_some hstep
  replace hnote : t.2 = s.2 := hnote
  obtain ⟨out, hidle, hpool, hrecord⟩ := recorded_begin hrecorded
  have hsection := op.code_oneSection (Party.writer_locks hplays)
  have hbegins : BeginsSections ringLock TriesLock RingOp.code (fun i : Option ω => i ≠ none)
      (.begin (some i) op : PoolLabel (Option ω) Bool RingOp) := fun _ => hsection
  obtain ⟨unread, writer, hstands, hlinked⟩ := h.linked
  have hfree : s.1.1.held (some i) = false := by
    refine Bool.eq_false_iff.mpr fun hheld => ?_
    have hinside := (h.sectioned.inside (some i) (Option.some_ne_none i) hheld).2
    rw [hidle] at hinside
    exact Program.Remains.not_ends hinside
  refine ⟨h.sectioned.step ring_locking hbegins hrecorded, ?_, ?_, ?_, unread, writer, ?_, ?_⟩
  · intro k op' hdoing
    rw [hrecord] at hdoing
    by_cases hk : k = i
    · subst hk
      obtain rfl : op = op' := by simpa using hdoing
      exact hplays
    · exact h.plays k op' (by simpa [hk] using hdoing)
  · rw [hpool]
    exact h.reader
  · refine h.refused_append hrecord fun _ _ out hend => ?_
    exact RingOp.refused (Party.writer_locks hplays) (Or.inl hend)
  · refine hstands.outside (i := i) hfree ?_ ?_ ?_ (sent_of_free hrecord) hnote
    · rw [hpool]
      exact fun _ => rfl
    · rw [hpool]
      exact fun k hk => by simp [hk]
    · rw [hrecord]
      exact fun k hk => by simp [hk]
  · rw [hpool, hnote]
    simpa [together] using hlinked

theorem Sharing.reader_calls (h : Sharing rb s) {interrupted : Bool}
    (hundisturbed : Undisturbed s (.call none interrupted))
    (hstep : writersStep (.call none interrupted) s = some t) : Sharing rb t := by
  obtain ⟨hrecorded, hnote⟩ := noting_eq_some hstep
  obtain ⟨c, next, r, shared, hcode, hperform, hpool, hrecord⟩ := recorded_call hrecorded
  have hmade : t.2 = s.2.made .reader c r (next r) := by
    rw [hnote]
    simp only [Exchange.noteShared, hcode, hperform]
  have hbegins : BeginsSections ringLock TriesLock RingOp.code (fun i : Option ω => i ≠ none)
      (.call none interrupted : PoolLabel (Option ω) Bool RingOp) := trivial
  obtain ⟨unread, writer, hstands, hlinked⟩ := h.linked
  -- a read makes no attempt to take the lock
  have hafter : ringLock.after false c r = false := by
    obtain ⟨known, -, hreads⟩ := hlinked.reads
    replace hreads : (s.1.1.code none).Obeys reading HandsOver _ := hreads
    rw [hcode] at hreads
    obtain ⟨site, a⟩ := c
    cases a with
    | lockTake => exact hreads.1.2.2.elim
    | _ => simp [LockUse.after, ringLock]
  rw [h.reader] at hrecord
  refine ⟨h.sectioned.step ring_locking hbegins hrecorded, ?_, ?_, ?_, ?_⟩
  · rw [hrecord]
    exact h.plays
  · rw [hpool]
    simpa [h.reader] using hafter
  · exact h.refused_append hrecord fun hne => absurd rfl hne
  · obtain ⟨unread', hlinked'⟩ := @Linked.reader_step _ _ _ _ _ (fun _ => false) _ _ hlinked _ _
      hundisturbed.2 hcode hperform
    refine ⟨unread', writer, ?_, ?_⟩
    · refine hstands.keep ?_ ?_ ?_ (sent_of_free hrecord) ?_ ?_ ?_
      · rw [hpool]
        exact fun _ => by simp
      · rw [hpool]
        exact fun _ => by simp
      · rw [hrecord]
        exact fun _ => rfl
      all_goals rw [hmade]; rfl
    · simp only [stepped, together, update_codes_reader] at hlinked'
      rw [hpool, hmade]
      simpa [together] using hlinked'

theorem done_append_published {m : Side} {c : RingCall} {r : c.access.Result}
    (hgood : writing.good m c) :
    m.progress.done ++ m.progress.published c = (m.progress.after c r).done := by
  obtain ⟨site, a⟩ := c
  cases a with
  | storeHead value =>
      rw [hgood.2.1]
      rfl
  | storeTail value => exact hgood.2.elim
  | copyOut start count => exact hgood.2.elim
  | loadSize | loadHead | loadTail =>
      simp only [Progress.published, Progress.after, Progress.loaded, List.append_nil]
      split <;> rfl
  | lockTake | lockGive | copyIn start block => exact List.append_nil _

/-- What an access of a writer changes. -/
structure Moves (s t : WritersPool ω) (i : ω) (c : RingCall)
    (next : c.access.Result → RingProgram (Nat × List UInt8)) (r : c.access.Result)
    (shared : RingBuffer) : Prop where
  code : t.1.1.code (some i) = next r
  held : t.1.1.held (some i) = ringLock.after (s.1.1.held (some i)) c r
  shared : t.1.1.shared = shared
  others : ∀ k, k ≠ some i → t.1.1.code k = s.1.1.code k ∧ t.1.1.held k = s.1.1.held k
  record : t.1.2 = ⟨s.1.2.doing, s.1.2.ended ++
    Record.entry (some i) (s.1.2.doing (some i)) (s.1.1.held (some i)) (next r)⟩

section Moves

variable {i : ω} {c : RingCall} {next : c.access.Result → RingProgram (Nat × List UInt8)}
  {r : c.access.Result} {shared : RingBuffer} {interrupted : Bool} {unread : List UInt8} {op : RingOp}

omit [DecidableEq ω] in
theorem Moves.doing (h : Moves s t i c next r shared) : t.1.2.doing = s.1.2.doing := by
  rw [h.record]

omit [DecidableEq ω] in
theorem Moves.inside (h : Moves s t i c next r shared)
    (hrest : (next r).Remains ringLock TriesLock .inside) : t.1.2 = s.1.2 := by
  rw [h.record, Record.entry_inside hrest, List.append_nil]

omit [DecidableEq ω] in
theorem Moves.others_free (h : Moves s t i c next r shared) (halone : s.1.1.Exclusive)
    (halone' : t.1.1.Exclusive) (hi : s.1.1.held (some i) = true ∨ t.1.1.held (some i) = true) :
    ∀ k, k ≠ some i → s.1.1.held k = false := by
  intro k hk
  refine Bool.eq_false_iff.mpr fun hheld => hk ?_
  rcases hi with hi | hi
  · exact halone k (some i) hheld hi
  · exact halone' k (some i) ((h.others k hk).2.trans hheld) hi

omit [DecidableEq ω] in
/-- The writer that has got the lock starts where the last one has ended. -/
theorem Stands.takes (h : Stands s writer) (hmoves : Moves s t i c next r shared)
    (hsize : rb.size ≤ 2 ^ 63) (halone' : t.1.1.Exclusive)
    (hlinked : Linked rb.size rb.unread
      (together s.1.1.shared (s.1.1.code none) writer s.2) unread)
    (hplays : Party.writer.plays op = true) (hdoing : s.1.2.doing (some i) = some op)
    (hstart : op.code = .call c next) (hall : ∀ k, s.1.1.held (some k) = false)
    (htaken : t.1.1.held (some i) = true) (hacquires : ringLock.acquires c r = true)
    (hrest : (next r).Remains ringLock TriesLock .inside)
    (hperform : s.1.1.shared.perform interrupted c = some (r, shared))
    (hexchange : t.2 = (s.2.entered (s.1.2.doing (some i))).made .writer c r (next r)) :
    ∃ unread' writer', Stands t writer' ∧ Linked rb.size rb.unread
      (together t.1.1.shared (t.1.1.code none) writer' t.2) unread' := by
  obtain ⟨⟨out, hidle⟩, hpublished⟩ := h.resting hall
  obtain ⟨site, a⟩ := c
  obtain rfl : a = .lockTake := ring_locking.acquired _ _ hacquires
  rw [hdoing] at hexchange
  have hbegun := @Linked.writer_begins _ _ _ _ (fun _ => false) hlinked hsize out
    (by rw [hidle]; rfl) op hplays
  simp only [together, update_codes_writer] at hbegun
  rw [hstart] at hbegun
  obtain ⟨unread', hlinked'⟩ := @Linked.writer_step _ _ _ _ _ (fun _ => false) _ _ hbegun interrupted _
    (by rintro head tail hloads; cases hloads) rfl hperform
  refine ⟨unread', next r, ⟨?_, ?_⟩, ?_⟩
  · intro k hk
    obtain rfl : k = i := by simpa using halone' _ _ hk htaken
    refine ⟨hmoves.code.symm, ⟨op, hmoves.doing ▸ hdoing, ?_⟩, ?_⟩
    · rw [hexchange]
      rfl
    · rw [WritersPool.sent, hmoves.inside hrest, hexchange]
      show s.2.published ++ [] = s.sent ++ []
      rw [hpublished]
  · intro hall'
    rw [hall' i] at htaken
    cases htaken
  · simp only [stepped, update_codes_writer] at hlinked'
    rw [hmoves.shared, (hmoves.others none (by simp)).1, hexchange]
    exact hlinked'

omit [DecidableEq ω] in
theorem Stands.holds (h : Stands s writer) (hmoves : Moves s t i c next r shared)
    (hlinked : Linked rb.size rb.unread
      (together s.1.1.shared (s.1.1.code none) writer s.2) unread)
    (hheld : s.1.1.held (some i) = true) (hcode : s.1.1.code (some i) = .call c next)
    (hperform : s.1.1.shared.perform interrupted c = some (r, shared))
    (hundisturbed : Undisturbed s (.call (some i) interrupted))
    (hexchange : t.2 = s.2.made .writer c r (next r)) :
    t.2.published = s.sent ++ t.2.writer.done ∧ ∃ unread', Linked rb.size rb.unread
      (together t.1.1.shared (t.1.1.code none) (next r) t.2) unread' := by
  obtain ⟨rfl, -, hpublished⟩ := h.working i hheld
  obtain ⟨known, -, hwrites⟩ := hlinked.writes
  replace hwrites : (s.1.1.code (some i)).Obeys writing _ _ := hwrites
  rw [hcode] at hwrites
  have hdone := done_append_published (r := r) hwrites.1
  obtain ⟨unread', hlinked'⟩ := @Linked.writer_step _ _ _ _ _ (fun _ => false) _ _ hlinked interrupted _
    (hundisturbed.2 hheld) hcode hperform
  refine ⟨?_, unread', ?_⟩
  · rw [hexchange]
    show s.2.published ++ s.2.writer.published c = s.sent ++ (s.2.writer.after c r).done
    rw [hpublished, List.append_assoc]
    exact congrArg _ hdone
  · simp only [stepped, together, update_codes_writer] at hlinked'
    rw [hmoves.shared, (hmoves.others none (by simp)).1, hexchange]
    exact hlinked'

end Moves

theorem Sharing.writer_calls (h : Sharing rb s) (hsize : rb.size ≤ 2 ^ 63) {i : ω}
    {interrupted : Bool} (halone : s.1.1.Exclusive) (halone' : t.1.1.Exclusive)
    (hundisturbed : Undisturbed s (.call (some i) interrupted))
    (hstep : writersStep (.call (some i) interrupted) s = some t) : Sharing rb t := by
  obtain ⟨hrecorded, hnote⟩ := noting_eq_some hstep
  obtain ⟨c, next, r, shared, hcode, hperform, hpool, hrecord⟩ := recorded_call hrecorded
  have hbegins : BeginsSections ringLock TriesLock RingOp.code (fun i : Option ω => i ≠ none)
      (.call (some i) interrupted : PoolLabel (Option ω) Bool RingOp) := trivial
  obtain ⟨unread, writer, hstands, hlinked⟩ := h.linked
  have hmoves : Moves s t i c next r shared := by
    refine ⟨?_, ?_, ?_, fun k hk => ?_, hrecord⟩
    all_goals rw [hpool]
    · simp
    · simp
    · simp [hk]
  have hcases := h.sectioned.call_cases ring_locking (Option.some_ne_none i) hcode hperform
  refine ⟨h.sectioned.step ring_locking hbegins hrecorded, hmoves.doing ▸ h.plays, ?_, ?_, ?_⟩
  · rw [(hmoves.others none (by simp)).2]
    exact h.reader
  · refine h.refused_append hrecord fun _ hfree out hend => ?_
    cases hcases with
    | fails j a free doing start acquires after unchanged rest =>
        exact RingOp.refused (Party.writer_locks (h.plays i j doing))
          (Or.inr ⟨c, next, r, start, acquires, hend⟩)
    | takes j free doing start acquires after rest =>
        rw [hend] at rest
        exact absurd rest Program.Remains.not_ends
    | works j held doing plain after rest => exact absurd (held.symm.trans hfree) (by decide)
    | gives j a held doing plain after rest => exact absurd (held.symm.trans hfree) (by decide)
  cases hcases with
  | fails j a free doing start acquires after unchanged rest =>
      have hexchange : t.2 = s.2 := by
        rw [hnote, noted_waiting hcode hperform free, acquires]
        rfl
      have hheld : ∀ k, t.1.1.held k = s.1.1.held k := by
        intro k
        by_cases hk : k = some i
        · rw [hk, hmoves.held, free, after]
        · exact (hmoves.others k hk).2
      rw [free] at hrecord
      refine ⟨unread, writer, ?_, ?_⟩
      · exact hstands.outside free (fun k => hheld (some k))
          (fun k hk => (hmoves.others (some k) (by simpa using hk)).1)
          (fun k _ => congrFun hmoves.doing _) (sent_of_free hrecord) hexchange
      · rw [hmoves.shared, unchanged, (hmoves.others none (by simp)).1, hexchange]
        exact hlinked
  | takes j free doing start acquires after rest =>
      have htaken : t.1.1.held (some i) = true := by rw [hmoves.held, free, after]
      have hall : ∀ k, s.1.1.held (some k) = false := by
        intro k
        by_cases hk : k = i
        · rw [hk, free]
        · exact hmoves.others_free halone halone' (Or.inr htaken) (some k) (by simpa using hk)
      have hexchange := hnote.trans (noted_waiting hcode hperform free)
      rw [acquires, if_pos rfl] at hexchange
      exact hstands.takes hmoves hsize halone' hlinked (h.plays i j doing) doing start hall htaken
        acquires rest hperform hexchange
  | works j held doing plain after rest =>
      have hkept : t.1.1.held (some i) = true := by rw [hmoves.held, held, after]
      have hexchange := hnote.trans (noted_holding hcode hperform held)
      obtain ⟨hpublished, unread', hlinked'⟩ := hstands.holds hmoves hlinked held hcode hperform
        hundisturbed hexchange
      obtain ⟨-, ⟨op, hop, hoffered⟩, -⟩ := hstands.working i held
      refine ⟨unread', next r, ⟨?_, ?_⟩, hlinked'⟩
      · intro k hk
        obtain rfl : k = i := by simpa using halone' _ _ hk hkept
        refine ⟨hmoves.code.symm, ⟨op, hmoves.doing ▸ hop, ?_⟩, ?_⟩
        · rw [hexchange]
          exact hoffered
        · rw [hpublished, WritersPool.sent, WritersPool.sent, hmoves.inside rest]
      · intro hall'
        rw [hall' i] at hkept
        cases hkept
  | gives j a held doing plain after rest =>
      have hexchange := hnote.trans (noted_holding hcode hperform held)
      obtain ⟨hpublished, unread', hlinked'⟩ := hstands.holds hmoves hlinked held hcode hperform
        hundisturbed hexchange
      obtain ⟨-, ⟨op, hop, hoffered⟩, -⟩ := hstands.working i held
      obtain rfl : j = op := Option.some.inj (doing.symm.trans hop)
      have hfree : ∀ k, t.1.1.held (some k) = false := by
        intro k
        by_cases hk : k = i
        · rw [hk, hmoves.held, held, after]
        · have hne : some k ≠ some i := by simpa using hk
          rw [(hmoves.others (some k) hne).2]
          exact hmoves.others_free halone halone' (Or.inl held) (some k) hne
      -- the writer has accepted what its call returns
      have hdone : t.2.writer.done = j.data.take a.1 := by
        obtain ⟨known, -, hwrites⟩ := hlinked'.writes
        replace hwrites : (next r).Obeys writing (Accepts t.2.offered) _ := hwrites
        rw [rest] at hwrites
        have hoffered' : t.2.offered = j.data := by rw [hexchange]; exact hoffered
        rw [← hoffered']
        exact hwrites.2.2.1
      have hsent : t.sent = s.sent ++ j.data.take a.1 := by
        have hentry : t.1.2 = ⟨s.1.2.doing, s.1.2.ended ++ [⟨some i, j, true, a⟩]⟩ := by
          rw [hrecord, doing, rest, held]
          rfl
        rw [WritersPool.sent, WritersPool.sent, hentry, Record.locked_append, List.flatMap_append,
          List.flatMap_singleton]
      refine ⟨unread', next r, ⟨?_, fun _ => ⟨⟨a, rest⟩, ?_⟩⟩, hlinked'⟩
      · intro k hk
        rw [hfree k] at hk
        cases hk
      · rw [hpublished, hdone, hsent]

end Steps

/-- What is promised of a reader and any number of writers on a buffer that was `rb` at first. -/
structure Delivers (rb : RingBuffer) (s : WritersPool ω) : Prop where
  used : UsedSpaceFits s.2.reader.loads
  free : FreeSpaceFits s.2.writer.loads
  /-- A copy of any writer stays in the storage and away from the unread bytes. -/
  spared : ∀ i site start block,
    (s.1.1.code (some i)).nextCall = some ⟨site, .copyIn start block⟩ →
    start + block.length ≤ s.1.1.shared.size ∧ ∀ k < s.1.1.shared.unread.length,
      (s.1.1.shared.tail + k) % s.1.1.shared.size ∉ Set.Ico start (start + block.length)
  /-- Reads have returned the first of the published bytes, in order; the others are there. -/
  order : rb.unread ++ s.2.published = s.2.obtained ++ s.1.1.shared.unread
  /-- What is published comes from whole calls, one after the other. -/
  whole : (∀ i, s.1.1.held (some i) = false) → s.2.published = s.sent
  begun : ∀ i, s.1.1.held (some i) = true → s.2.published = s.sent ++ s.2.writer.done
  refused : ∀ e ∈ s.1.2.ended, e.thread ≠ none → e.locked = false → e.result = (0, [])

section Runs

variable {rb : RingBuffer} {s : WritersPool ω}

theorem Sharing.copies (h : Sharing rb s) {i : ω} {site : RingFunction} {start : Nat}
    {block : List UInt8}
    (hnext : (s.1.1.code (some i)).nextCall = some ⟨site, .copyIn start block⟩) :
    s.1.1.held (some i) = true := by
  refine Bool.eq_true_of_not_eq_false fun hfree => ?_
  rcases h.sectioned.waiting (some i) (Option.some_ne_none i) hfree with ⟨a, hret⟩ | ⟨op, hdoing, hop⟩
  · rw [hret] at hnext
    cases hnext
  · have hsection := h.sectioned.jobs (some i) op (Option.some_ne_none i) hdoing
    rw [hop] at hnext
    cases hcode : op.code with
    | ret a =>
        rw [hcode] at hnext
        cases hnext
    | call c next =>
        rw [hcode] at hnext hsection
        obtain rfl := Option.some.inj hnext
        cases hsection.1.1

theorem Sharing.delivers (h : Sharing rb s) : Delivers rb s := by
  obtain ⟨unread, writer, hstands, hlinked⟩ := h.linked
  have hfaithful := hlinked.faithful
  refine ⟨hfaithful.used, hfaithful.free, ?_, hfaithful.order, fun hnone => (hstands.resting hnone).2,
    fun i hi => (hstands.working i hi).2.2, h.refused⟩
  intro i site start block hnext
  obtain ⟨rfl, -⟩ := hstands.working i (h.copies hnext)
  exact hfaithful.spared site start block hnext

variable [DecidableEq ω]

theorem Sharing.step {t : WritersPool ω} (h : Sharing rb s) (hsize : rb.size ≤ 2 ^ 63)
    (halone : s.1.1.Exclusive) (halone' : t.1.1.Exclusive)
    {label : PoolLabel (Option ω) Bool RingOp} (hundisturbed : Undisturbed s label)
    (hstep : writersStep label s = some t) : Sharing rb t := by
  rcases label with ⟨_ | i, interrupted⟩ | ⟨_ | i, op⟩
  · exact h.reader_calls hundisturbed hstep
  · exact h.writer_calls hsize halone halone' hundisturbed hstep
  · exact h.reader_begins hsize hundisturbed.2 hstep
  · exact h.writer_begins hundisturbed.2 hstep

variable [Fintype ω]

/-- In every run of one reader and any number of writers that is not disturbed, no subtraction
underflows, no copy touches an unread byte, and the reads return in order what the writes have
put in: the accepted bytes of one write after those of another, in the order in which they end. -/
theorem writers_deliver (rb : RingBuffer) (hvalid : rb.Valid) (hsize : rb.size ≤ 2 ^ 63)
    (hlock : rb.lock = some 1) (s : WritersPool ω)
    (hrun : Run writersStep Undisturbed (writers ω rb) s) : Delivers rb s := by
  have hinvariant : Pool.Balanced ringLock EmptyReadGive RingBuffer.lock 1 s.1.1 ∧ Sharing rb s := by
    induction hrun with
    | start =>
        refine ⟨⟨fun _ => rfl, 1, hlock, by simp [Pool.holders, writers, Pool.idle]⟩, ⟨?_, ?_, ?_⟩,
          ?_, rfl, ?_, rb.unread, .ret (0, []), ⟨?_, fun _ => ⟨⟨(0, []), rfl⟩, rfl⟩⟩, ?_⟩
        · intro i op _ hdoing
          cases hdoing
        · exact fun i _ _ => Or.inl ⟨(0, []), rfl⟩
        · intro i _ hheld
          cases hheld
        · intro i op hdoing
          cases hdoing
        · intro e he
          cases he
        · intro i hheld
          cases hheld
        · have hlayout := hvalid.layout
          refine ⟨?_, hlayout.head, ⟨0, Nat.zero_le _, trivial, rfl, rfl⟩,
            ⟨0, Nat.zero_le _, trivial, rfl, rfl, rfl⟩, List.nil_prefix, List.append_nil _⟩
          show RingContent rb.size rb (rb.unread ++ [])
          rw [List.append_nil]
          exact hlayout.content
    | next label _ met taken ih =>
        obtain ⟨hbalanced, h⟩ := ih
        have hpool := (noting_eq_some (noting_eq_some taken).1).1
        have hbalanced' := hbalanced.step ringBuffer_counts RingOp.code_disciplined met.1 hpool
        exact ⟨hbalanced', h.step hsize hbalanced.holders_alone hbalanced'.holders_alone met taken⟩
  exact hinvariant.2.delivers

end Runs

private def undisturbedCheck (s : WritersPool (Fin 2)) :
    PoolLabel (Option (Fin 2)) Bool RingOp → Bool
  | .begin i op => (party i).plays op
  | .call none _ => (s.1.1.code none).nextCall != some ⟨.readN, .lockGive⟩ &&
      (s.2.reader.loads.length != 2 || decide (s.1.1.shared.tail ≤ s.1.1.shared.head))
  | .call (some i) _ => (s.1.1.code (some i)).nextCall != some ⟨.readN, .lockGive⟩ &&
      (s.2.writer.loads.length != 2 || decide (s.1.1.shared.head < s.1.1.shared.tail) ||
        decide (s.2.writer.loads.getD 1 0 ≤ s.2.writer.loads.getD 0 0))

private theorem undisturbed_of_check (s : WritersPool (Fin 2))
    (label : PoolLabel (Option (Fin 2)) Bool RingOp) (h : undisturbedCheck s label = true) :
    Undisturbed s label := by
  rcases label with ⟨_ | i, interrupted⟩ | ⟨i, op⟩
  · obtain ⟨havoids, hsteady⟩ := Bool.and_eq_true_iff.mp h
    refine ⟨?_, ?_⟩
    · rintro c hc rfl
      rw [hc] at havoids
      cases havoids
    · intro head tail hloads _
      simpa [hloads] using hsteady
  · obtain ⟨havoids, hsteady⟩ := Bool.and_eq_true_iff.mp h
    refine ⟨?_, ?_⟩
    · rintro c hc rfl
      rw [hc] at havoids
      cases havoids
    · intro _ head tail hloads hlt
      simpa [hloads, Nat.not_le.mpr hlt] using hsteady
  · exact ⟨trivial, h⟩

private def turns (i : Option (Fin 2)) (n : Nat) : List (PoolLabel (Option (Fin 2)) Bool RingOp) :=
  List.replicate n (.call i false)

/-- Two writers and the reader at once: the writer that began last gets the lock first, and the
other one crosses the end of the storage. -/
theorem writers_deliver_two :
    ∃ s : WritersPool (Fin 2), Run writersStep Undisturbed
        (writers (Fin 2) ⟨[10, 11, 12, 13], 4, 2, 1, some 1⟩) s ∧
      s.sent = [7, 8, 9] ∧ s.2.obtained = [11] ∧
      Delivers ⟨[10, 11, 12, 13], 4, 2, 1, some 1⟩ s := by
  obtain ⟨s, hrun, hs⟩ : ∃ s : WritersPool (Fin 2), Run writersStep Undisturbed
      (writers (Fin 2) ⟨[10, 11, 12, 13], 4, 2, 1, some 1⟩) s ∧
      (s.sent == [7, 8, 9] && s.2.obtained == [11]) = true :=
    Run.exists_of_follow undisturbedCheck
      (.begin none (.readN 8) :: turns none 4 ++ .begin (some 0) (.writeN [8, 9]) ::
        .begin (some 1) (.writeN [7]) :: turns (some 1) 6 ++ turns none 7 ++ turns (some 1) 7 ++
        turns (some 0) 16) _ undisturbed_of_check (by decide)
  simp only [Bool.and_eq_true, beq_iff_eq] at hs
  exact ⟨s, hrun, hs.1, hs.2,
    writers_deliver _ ⟨rfl, by decide, by decide⟩ (by decide) rfl s hrun⟩

end YaskawaComms.Logging
