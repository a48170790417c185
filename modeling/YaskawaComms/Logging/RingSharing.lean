import YaskawaComms.Framework.Completion
import YaskawaComms.Logging.RingLock

/-!
# Many threads on one ring buffer

Each operation but the read takes the lock first and gives it back by its last access. Any number
of threads that call these operations, interleaved at every load, store, copy and lock call, get
from the ring buffer what one thread would get that makes the calls in the order in which they
end.
-/

namespace YaskawaComms.Logging

open Program

/-- The attempts to take the lock. -/
def TriesLock (c : RingCall) : Prop := c.access = .lockTake

def RingOp.locks : RingOp → Bool
  | .readN _ => false
  | _ => true

section OneSection

variable {α : Type} {post : α → Phase → Prop} {site : RingFunction}

theorem section_access {a : RingAccess} {next : a.Result → RingProgram α}
    (htake : a ≠ .lockTake) (hgive : a ≠ .lockGive)
    (hnext : ∀ r, (next r).Obeys (sections ringLock TriesLock) post .inside) :
    (Program.call ⟨site, a⟩ next : RingProgram α).Obeys (sections ringLock TriesLock) post
      .inside :=
  obeys_plain htake (decide_eq_false hgive) hnext

theorem section_lockGive {f : Unit → RingProgram α}
    (hnext : (f ()).Obeys (sections ringLock TriesLock) post .past) :
    (lockGive site >>= f).Obeys (sections ringLock TriesLock) post .inside := by
  refine obeys_give ?_ rfl fun _ => hnext
  intro htake
  cases htake

theorem section_lockTake {f : Bool → RingProgram α} (hsite : site ≠ .writeInner)
    (htaken : (f true).Obeys (sections ringLock TriesLock) post .inside)
    (hfailed : (f false).Obeys (sections ringLock TriesLock) post .past) :
    (lockTake site >>= f).Obeys (sections ringLock TriesLock) post .before := by
  refine obeys_take rfl rfl (decide_eq_false hsite) ?_ ?_
  · rintro taken (rfl : taken = true)
    exact htaken
  · rintro taken (rfl : taken = false)
    exact hfailed

theorem freeSpaceInternal_inside : ringBufferFreeSpaceInternal.Obeys
    (sections ringLock TriesLock) (fun _ phase => phase = .inside) .inside := by
  simp only [ringBufferFreeSpaceInternal, loadHead, loadTail, loadSize, call_bind, ret_bind,
    pure_eq_ret]
  repeat' first
    | exact rfl
    | split
    | refine section_access (by decide) (by decide) fun _ => ?_

theorem usedSpaceInner_inside : ringBufferUsedSpaceInner.Obeys
    (sections ringLock TriesLock) (fun _ phase => phase = .inside) .inside := by
  simp only [ringBufferUsedSpaceInner, loadHead, loadTail, loadSize, call_bind, ret_bind,
    pure_eq_ret]
  repeat' first
    | exact rfl
    | split
    | refine section_access (by decide) (by decide) fun _ => ?_

theorem writeInner_inside (data : List UInt8) (size : Nat) :
    (ringBufferWriteInner data size).Obeys (sections ringLock TriesLock)
      (fun _ phase => phase = .inside) .inside := by
  simp only [ringBufferWriteInner, loadHead, loadSize, copyIn, storeHead, call_bind, ret_bind,
    pure_eq_ret]
  repeat' first
    | exact rfl
    | split
    | refine section_access (by simp) (by simp) fun _ => ?_

theorem writeLocked_inside {site : RingFunction} (data : List UInt8) (n : Nat) :
    (if n = 0 then (do lockGive site; return 0)
      else (do let written ← ringBufferWriteInner data n; lockGive site; return written) :
        RingProgram Nat).Remains ringLock TriesLock .inside := by
  have hpast : Phase.past ≠ .inside := by decide
  split
  · exact section_lockGive hpast
  · refine (writeInner_inside data n).bind ?_
    rintro written phase rfl
    exact section_lockGive hpast

theorem space_oneSection {space : RingProgram Nat} {site : RingFunction} (hsite : site ≠ .writeInner)
    (hspace : space.Obeys (sections ringLock TriesLock) (fun _ phase => phase = .inside) .inside) :
    (do
      if !(← lockTake site) then
        return 0
      let n ← space
      lockGive site
      return n : RingProgram Nat).OneSection ringLock TriesLock := by
  have hpast : Phase.past ≠ .inside := by decide
  refine section_lockTake hsite (hspace.bind ?_) hpast
  rintro n phase rfl
  exact section_lockGive hpast

theorem write_oneSection (data : List UInt8) (size : Nat) (site : RingFunction)
    (hsite : site ≠ .writeInner) (count : Nat → Nat) :
    (do
      if size = 0 then
        return 0
      if !(← lockTake site) then
        return 0
      let freeSpace ← ringBufferFreeSpaceInternal
      if count freeSpace = 0 then
        lockGive site
        return 0
      let written ← ringBufferWriteInner data (count freeSpace)
      lockGive site
      return written : RingProgram Nat).OneSection ringLock TriesLock := by
  have hpast : Phase.past ≠ .inside := by decide
  split
  · exact Phase.noConfusion
  refine section_lockTake hsite (freeSpaceInternal_inside.bind ?_) hpast
  rintro n phase rfl
  exact writeLocked_inside data (count n)

theorem RingOp.code_oneSection (op : RingOp) (hlocks : op.locks = true) :
    op.code.OneSection ringLock TriesLock := by
  have hret : ∀ (n : Nat) (phase : Phase), phase ≠ .inside →
      (Program.ret (n, []) : RingProgram (Nat × List UInt8)).Remains ringLock TriesLock phase :=
    fun _ _ h => h
  cases op with
  | writeN data => exact (write_oneSection data _ .writeN (by decide) _).bind hret
  | writeExactN data => exact (write_oneSection data _ .writeExactN (by decide) _).bind hret
  | readN size => cases hlocks
  | usedSpace => exact (space_oneSection (by decide) usedSpaceInner_inside).bind hret
  | freeSpace => exact (space_oneSection (by decide) freeSpaceInternal_inside).bind hret

end OneSection

theorem ring_locking : Locking ringLock TriesLock
    (fun interrupted c rb => RingBuffer.perform interrupted rb c) RingBuffer.handle := by
  refine ⟨?_, ?_, ?_⟩
  · rintro ⟨site, a⟩ r hacquires
    cases a with
    | lockTake => rfl
    | _ => cases hacquires
  · rintro interrupted ⟨site, a⟩ rb r rb' hperform (rfl : a = .lockTake) (rfl : r = false)
    simp only [RingBuffer.perform] at hperform
    split at hperform
    · exact (Prod.mk.inj (Option.some.inj hperform)).2.symm
    · split at hperform
      · exact (Prod.mk.inj (Option.some.inj hperform)).2.symm
      · split at hperform
        · cases hperform
        · cases hperform
  · rintro interrupted ⟨site, a⟩ rb r rb' hperform hacquires
    have hsame : rb.perform false ⟨site, a⟩ = some (r, rb') := by
      cases a with
      | lockTake =>
          obtain rfl : r = true := hacquires rfl
          simp only [RingBuffer.perform] at hperform ⊢
          split at hperform
          · cases hperform
          · next value hlock =>
              split at hperform
              · cases hperform
              · simpa [hlock] using hperform
      | _ => exact hperform
    rw [RingBuffer.handle, hsame]

section Fifo

variable {capacity N : Nat} {q : BoundedFifo UInt8 capacity}

theorem fifoCalls_append (ops : List RingOp) (op : RingOp) :
    fifoCalls (ops ++ [op]) q =
      ((fifoCalls ops q).1 ++ [(op.onFifo (fifoCalls ops q).2).1],
        (op.onFifo (fifoCalls ops q).2).2) := by
  induction ops generalizing q with
  | nil => rfl
  | cons first ops ih => simp only [List.cons_append, fifoCalls, ih]

theorem serial_fifo {J : Type} {op : J → RingOp} {rb rb' : RingBuffer}
    {calls : List (J × (Nat × List UInt8))} {q : BoundedFifo UInt8 (N - 1)}
    (h : Serial RingBuffer.handle (fun j => (op j).code) rb calls rb') (hN : N ≤ 2 ^ 63)
    (hidle : RingIdle N rb q.items) :
    calls.map Prod.snd = (fifoCalls (calls.map fun call => op call.1) q).1 ∧
      RingIdle N rb' (fifoCalls (calls.map fun call => op call.1) q).2.items := by
  induction h with
  | nil => exact ⟨rfl, hidle⟩
  | @snoc calls rb₁ rb₂ j out before last ih =>
      obtain ⟨hresults, hidle₁⟩ := ih
      obtain ⟨rb', hexec, hidle₂⟩ := RingOp.exec_code hidle₁ hN (op j)
      obtain ⟨rfl, rfl⟩ : out = ((op j).onFifo _).1 ∧ rb₂ = rb' := by
        have heq := last.symm.trans hexec
        simpa using heq
      rw [List.map_append, List.map_append, List.map_singleton, List.map_singleton,
        fifoCalls_append, hresults]
      exact ⟨rfl, hidle₂⟩

end Fifo

theorem RingOp.refused {op : RingOp} (hlocks : op.locks = true) {out : Nat × List UInt8}
    (h : op.code.Refused ringLock out) : out = (0, []) := by
  have hcall : ∀ {site : RingFunction} {f : Bool → RingProgram (Nat × List UInt8)},
      f false = .ret (0, []) → (lockTake site >>= f).Refused ringLock out → out = (0, []) := by
    rintro site f hf (hret | ⟨c, next, r, hcode, hfailed, hend⟩)
    · cases hret
    · cases hcode
      obtain rfl : r = false := hfailed
      exact Program.ret.inj (hend.symm.trans hf)
  have hempty : (Program.ret (0, []) : RingProgram (Nat × List UInt8)).Refused ringLock out →
      out = (0, []) := by
    rintro (hret | ⟨c, next, r, hcode, -⟩)
    · exact (Program.ret.inj hret).symm
    · cases hcode
  cases op with
  | readN size => cases hlocks
  | usedSpace => exact hcall rfl h
  | freeSpace => exact hcall rfl h
  | writeN data =>
      simp only [RingOp.code, ringBufferWriteN] at h
      split at h
      · exact hempty h
      · exact hcall rfl h
  | writeExactN data =>
      simp only [RingOp.code, ringBufferWriteExactN] at h
      split at h
      · exact hempty h
      · exact hcall rfl h

section Threads

variable {ι : Type} [DecidableEq ι] [Fintype ι]

/-- The operations that take the lock. -/
abbrev LockedOp := {op : RingOp // op.locks = true}

/-- A step of threads that call only operations that take the lock, noted in the record. -/
abbrev lockedRingStep : PoolLabel ι Bool LockedOp →
    RingPool ι × Record ι LockedOp (Nat × List UInt8) →
    Option (RingPool ι × Record ι LockedOp (Nat × List UInt8)) :=
  recordedStep ringLock (fun interrupted c rb => rb.perform interrupted c) fun op => op.1.code

/-- In every run of threads that write to an initialised ring buffer and ask for its space, the
calls that got the lock have returned what a queue of `N - 1` bytes returns to them in the order
in which they ended; while no thread holds the lock the ring buffer holds the content of that
queue. The other calls have returned 0. -/
theorem ringBuffer_linearizable (N : Nat) (hpos : 1 ≤ N) (hN : N ≤ 2 ^ 63) (rb : RingBuffer)
    (s : RingPool ι × Record ι LockedOp (Nat × List UInt8))
    (hrun : Run lockedRingStep (fun _ _ => True) (ringPool ι rb N, {}) s) :
    let q := fifoCalls (s.2.locked.map fun call => call.1.1)
      (BoundedFifo.empty : BoundedFifo UInt8 (N - 1))
    s.2.locked.map Prod.snd = q.1 ∧
      ((∀ i, s.1.held i = false) → RingLayout N s.1.shared q.2.items) ∧
      ∀ e ∈ s.2.ended, e.locked = false → e.result = (0, []) := by
  have hlock : (ringBufferInitialize rb N true).2.lock = some 1 := by
    rw [ringBufferInitialize, if_neg (by omega)]
    rfl
  obtain ⟨rb', h⟩ := serialized_of_run ring_locking ringBuffer_counts hlock
    (fun op : LockedOp => op.1.code_oneSection op.2) hrun
  obtain ⟨hresults, hidle⟩ := serial_fifo h.serial hN (ringBufferInitialize_idle hpos rb)
  refine ⟨hresults, ?_, ?_⟩
  · intro hnone
    rw [h.resting hnone]
    exact hidle.1
  · intro e he hfree
    exact RingOp.refused e.job.2 (h.refused e he hfree)

theorem ring_endsAlone {N : Nat} {rb : RingBuffer} {q : BoundedFifo UInt8 (N - 1)} (hN : N ≤ 2 ^ 63)
    (hidle : RingIdle N rb q.items) :
    EndsAlone RingBuffer.handle (fun op : LockedOp => op.1.code) rb := by
  intro calls u hserial op
  obtain ⟨rb', hexec, -⟩ := RingOp.exec_code (serial_fifo hserial hN hidle).2 hN op.1
  exact ⟨_, rb', hexec⟩

/-- In every state that threads reach by calls on one ring buffer, the calls that have begun come to
their end in every order of their accesses, as long as no new ones begin. There is no state in which
threads wait for each other: where no thread can make its next access, even without interruptions,
every call has returned. -/
theorem ringBuffer_calls_end (N : Nat) (hpos : 1 ≤ N) (hN : N ≤ 2 ^ 63) (rb : RingBuffer)
    (s : RingPool ι × Record ι LockedOp (Nat × List UInt8))
    (hrun : Run lockedRingStep (fun _ _ => True) (ringPool ι rb N, {}) s) :
    Acc (Pool.Goes ringLock (fun interrupted c rb => RingBuffer.perform interrupted rb c)
        fun op : LockedOp => op.1.code) s.1 ∧
      ((∀ i, lockedRingStep (.call i false) s = none) → ∀ i, ∃ out, s.1.code i = .ret out) := by
  have hlock : (ringBufferInitialize rb N true).2.lock = some 1 := by
    rw [ringBufferInitialize, if_neg (by omega)]
    rfl
  have hanswers : ∀ c rb r rb', RingBuffer.handle c rb = (some r, rb') →
      (rb.perform false c).isSome := by
    intro c rb r rb' hanswer
    rw [RingBuffer.handle] at hanswer
    split at hanswer
    · next hperform => rw [hperform]; rfl
    · cases hanswer
  exact completes_of_run ring_locking ringBuffer_counts hlock
    (fun op : LockedOp => op.1.code_oneSection op.2) hanswers
    (ring_endsAlone hN (ringBufferInitialize_idle hpos rb)) hrun

end Threads

private def lockedWrite (data : List UInt8) : LockedOp := ⟨.writeN data, rfl⟩

/-- Two writers at once: the one that began second gets the lock first, and a third call, whose
wait is interrupted, writes nothing. -/
theorem ringBuffer_linearizable_two :
    ∃ s : RingPool (Fin 2) × Record (Fin 2) LockedOp (Nat × List UInt8),
      Run lockedRingStep (fun _ _ => True) (ringPool (Fin 2) ⟨[], 0, 0, 0, none⟩ 4, {}) s ∧
      s.2.locked = [(lockedWrite [2, 3], (2, [])), (lockedWrite [1, 7], (1, []))] ∧
      s.1.shared.buffer = [2, 3, 1, 0] ∧ s.2.locked.map Prod.snd = [(2, []), (1, [])] := by
  obtain ⟨s, hrun, hs⟩ : ∃ s, Run lockedRingStep (fun _ _ => True)
      (ringPool (Fin 2) ⟨[], 0, 0, 0, none⟩ 4, {}) s ∧
      (s.2.locked == [(lockedWrite [2, 3], (2, [])), (lockedWrite [1, 7], (1, []))] &&
        s.1.shared.buffer == [2, 3, 1, 0]) = true :=
    Run.exists_of_follow (fun _ _ => true)
      (.begin 0 (lockedWrite [1, 7]) :: .begin 1 (lockedWrite [2, 3]) ::
        List.replicate 13 (.call 1 false) ++ .begin 1 (lockedWrite [9]) :: .call 1 true ::
        List.replicate 13 (.call 0 false)) _ (fun _ _ _ => trivial) (by decide)
  simp only [Bool.and_eq_true, beq_iff_eq] at hs
  have h := (ringBuffer_linearizable 4 (by decide) (by decide) ⟨[], 0, 0, 0, none⟩ s hrun).1
  rw [hs.1] at h
  exact ⟨s, hrun, hs.1, hs.2, by rw [hs.1]; exact h.trans (by decide)⟩

/-- One thread is inside its section, and the other one cannot go on before it has left. -/
theorem ringBuffer_calls_end_two :
    ∃ s : RingPool (Fin 2) × Record (Fin 2) LockedOp (Nat × List UInt8),
      s.1.held 0 = true ∧ (lockedRingStep (.call 1 false) s).isNone ∧
      Acc (Pool.Goes ringLock (fun interrupted c rb => RingBuffer.perform interrupted rb c)
        fun op : LockedOp => op.1.code) s.1 := by
  obtain ⟨s, hrun, hs⟩ : ∃ s, Run lockedRingStep (fun _ _ => True)
      (ringPool (Fin 2) ⟨[], 0, 0, 0, none⟩ 4, {}) s ∧
      (s.1.held 0 && (lockedRingStep (.call 1 false) s).isNone) = true :=
    Run.exists_of_follow (fun _ _ => true)
      (.begin 0 (lockedWrite [1, 7]) :: .begin 1 (lockedWrite [2, 3]) ::
        List.replicate 5 (.call 0 false)) _ (fun _ _ _ => trivial) (by decide)
  rw [Bool.and_eq_true] at hs
  exact ⟨s, hs.1, hs.2, (ringBuffer_calls_end 4 (by decide) (by decide) ⟨[], 0, 0, 0, none⟩ s hrun).1⟩

end YaskawaComms.Logging
