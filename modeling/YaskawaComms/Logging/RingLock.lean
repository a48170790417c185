import YaskawaComms.Framework.LockDiscipline
import YaskawaComms.Logging.RingQueue

/-!
# The ring buffer lock

Any number of threads call the ring buffer operations on one buffer and are interleaved at every
load, store, copy and lock call. The exit of `ring_buffer_read_n` for an empty buffer gives the
lock although the function does not take it. As long as no call goes through that exit, the
semaphore value and the threads holding the lock add up to one.
-/

namespace YaskawaComms.Logging

open Program

def ringLock : LockUse ringSignature where
  acquires
    | ⟨_, .lockTake⟩, taken => taken
    | _, _ => false
  releases c := c.access = .lockGive
  guarded c := c.site = .writeInner

/-- The `lock_give` of `ring_buffer_read_n`, reached when the buffer is found empty. -/
def EmptyReadGive (c : RingCall) : Prop := c = ⟨.readN, .lockGive⟩

section Discipline

variable {α : Type} {post : α → Bool → Prop} {held : Bool} {site : RingFunction}

theorem disciplined_access {a : RingAccess} {next : a.Result → RingProgram α}
    (htake : ∀ r, ringLock.acquires ⟨site, a⟩ r = false) (hgive : ringLock.releases ⟨site, a⟩ = false)
    (hguarded : ringLock.guarded ⟨site, a⟩ = false ∨ held = true)
    (hnext : ∀ r, (next r).Disciplined ringLock EmptyReadGive post held) :
    (Program.call ⟨site, a⟩ next : RingProgram α).Disciplined ringLock EmptyReadGive post held := by
  refine Or.inr ⟨?_, fun r => ?_⟩
  · rw [hgive]
    rintro (hsite | hfalse)
    · rcases hguarded with hfree | hheld
      · rw [hfree] at hsite
        cases hsite
      · exact hheld
    · cases hfalse
  · have hafter : ringLock.after held ⟨site, a⟩ r = held := by
      simp [LockUse.after, htake, hgive]
    rw [htake, hafter]
    exact ⟨fun hfalse => (Bool.false_ne_true hfalse).elim, hnext r⟩

theorem disciplined_lockTake {f : Bool → RingProgram α}
    (hunguarded : ringLock.guarded ⟨site, .lockTake⟩ = false) (hheld : held = false)
    (htaken : (f true).Disciplined ringLock EmptyReadGive post true)
    (hfailed : (f false).Disciplined ringLock EmptyReadGive post false) :
    (lockTake site >>= f).Disciplined ringLock EmptyReadGive post held := by
  subst hheld
  refine Or.inr ⟨?_, fun r => ⟨fun _ => rfl, ?_⟩⟩
  · rw [hunguarded]
    rintro (hfalse | hfalse) <;> cases hfalse
  · cases r
    · exact hfailed
    · exact htaken

theorem disciplined_lockGive {f : Unit → RingProgram α} (hheld : held = true)
    (hnext : (f ()).Disciplined ringLock EmptyReadGive post false) :
    (lockGive site >>= f).Disciplined ringLock EmptyReadGive post held :=
  Or.inr ⟨fun _ => hheld, fun _ => ⟨by simp [ringLock], hnext⟩⟩

theorem freeSpaceInternal_disciplined (held : Bool) :
    ringBufferFreeSpaceInternal.Disciplined ringLock EmptyReadGive (fun _ h => h = held) held := by
  simp only [ringBufferFreeSpaceInternal, loadHead, loadTail, loadSize, call_bind, ret_bind,
    pure_eq_ret]
  refine disciplined_access (fun _ => rfl) rfl (.inl rfl) fun head => ?_
  refine disciplined_access (fun _ => rfl) rfl (.inl rfl) fun tail => ?_
  split
  · refine disciplined_access (fun _ => rfl) rfl (.inl rfl) fun _ => ?_
    exact disciplined_access (fun _ => rfl) rfl (.inl rfl) fun _ => rfl
  · exact disciplined_access (fun _ => rfl) rfl (.inl rfl) fun _ => rfl

theorem usedSpaceInner_disciplined (held : Bool) :
    ringBufferUsedSpaceInner.Disciplined ringLock EmptyReadGive (fun _ h => h = held) held := by
  simp only [ringBufferUsedSpaceInner, loadHead, loadTail, loadSize, call_bind, ret_bind,
    pure_eq_ret]
  refine disciplined_access (fun _ => rfl) rfl (.inl rfl) fun head => ?_
  refine disciplined_access (fun _ => rfl) rfl (.inl rfl) fun tail => ?_
  split
  · refine disciplined_access (fun _ => rfl) rfl (.inl rfl) fun _ => ?_
    exact disciplined_access (fun _ => rfl) rfl (.inl rfl) fun _ => rfl
  · refine disciplined_access (fun _ => rfl) rfl (.inl rfl) fun _ => ?_
    refine disciplined_access (fun _ => rfl) rfl (.inl rfl) fun _ => ?_
    exact disciplined_access (fun _ => rfl) rfl (.inl rfl) fun _ => rfl

theorem writeInner_disciplined (data : List UInt8) (size : Nat) :
    (ringBufferWriteInner data size).Disciplined ringLock EmptyReadGive (fun _ h => h = true)
      true := by
  simp only [ringBufferWriteInner, loadHead, loadSize, copyIn, storeHead, call_bind, ret_bind,
    pure_eq_ret]
  -- every access of the function is made with the lock held, whichever way the copies are split
  repeat' first
    | exact rfl
    | split
    | refine disciplined_access (fun _ => rfl) rfl (.inr rfl) fun _ => ?_

theorem usedSpace_disciplined :
    ringBufferUsedSpace.Disciplined ringLock EmptyReadGive (fun _ h => h = false) false := by
  refine disciplined_lockTake rfl rfl ?_ rfl
  refine (usedSpaceInner_disciplined true).bind fun n h hh => ?_
  subst hh
  exact disciplined_lockGive rfl rfl

theorem freeSpace_disciplined :
    ringBufferFreeSpace.Disciplined ringLock EmptyReadGive (fun _ h => h = false) false := by
  refine disciplined_lockTake rfl rfl ?_ rfl
  refine (freeSpaceInternal_disciplined true).bind fun n h hh => ?_
  subst hh
  exact disciplined_lockGive rfl rfl

theorem writeLocked_disciplined {site : RingFunction} (data : List UInt8) (n : Nat) :
    (if n = 0 then (do lockGive site; return 0)
      else (do let written ← ringBufferWriteInner data n; lockGive site; return written) :
        RingProgram Nat).Disciplined ringLock EmptyReadGive (fun _ h => h = false) true := by
  split
  · exact disciplined_lockGive rfl rfl
  · refine (writeInner_disciplined data n).bind fun written h hh => ?_
    exact disciplined_lockGive hh rfl

theorem writeN_disciplined (data : List UInt8) (size : Nat) :
    (ringBufferWriteN data size).Disciplined ringLock EmptyReadGive (fun _ h => h = false) false := by
  rw [ringBufferWriteN]
  split
  · rfl
  refine disciplined_lockTake rfl rfl ?_ rfl
  refine (freeSpaceInternal_disciplined true).bind fun freeSpace h hh => ?_
  subst hh
  exact writeLocked_disciplined data _

theorem writeExactN_disciplined (data : List UInt8) (size : Nat) :
    (ringBufferWriteExactN data size).Disciplined ringLock EmptyReadGive (fun _ h => h = false)
      false := by
  rw [ringBufferWriteExactN]
  split
  · rfl
  refine disciplined_lockTake rfl rfl ?_ rfl
  refine (freeSpaceInternal_disciplined true).bind fun freeSpace h hh => ?_
  subst hh
  exact writeLocked_disciplined data _

theorem readN_disciplined (size : Nat) :
    (ringBufferReadN size).Disciplined ringLock EmptyReadGive (fun _ h => h = false) false := by
  rw [ringBufferReadN]
  split
  · rfl
  refine (usedSpaceInner_disciplined false).bind fun usedSpace h hh => ?_
  subst hh
  simp only [lockGive, loadTail, loadSize, copyOut, storeTail, call_bind, ret_bind, pure_eq_ret]
  repeat' first
    | exact rfl
    | exact Or.inl rfl
    | split
    | refine disciplined_access (fun _ => rfl) rfl (.inl rfl) fun _ => ?_

end Discipline

theorem RingOp.code_disciplined (op : RingOp) :
    op.code.Disciplined ringLock EmptyReadGive (fun _ h => h = false) false := by
  cases op with
  | writeN data => exact (writeN_disciplined data _).bind fun _ _ h => h
  | writeExactN data => exact (writeExactN_disciplined data _).bind fun _ _ h => h
  | readN size => exact readN_disciplined size
  | usedSpace => exact usedSpace_disciplined.bind fun _ _ h => h
  | freeSpace => exact freeSpace_disciplined.bind fun _ _ h => h

section Threads

variable {ι : Type} [DecidableEq ι]

abbrev RingPool (ι : Type) := Pool ringSignature ι RingBuffer (Nat × List UInt8)

/-- One step: a thread makes its next access, its wait for the lock possibly interrupted, or an
idle thread enters an operation. -/
def ringStep : PoolLabel ι Bool RingOp → RingPool ι → Option (RingPool ι) :=
  Pool.step ringLock (fun interrupted c rb => rb.perform interrupted c) RingOp.code

/-- Idle threads on a ring buffer that has just been initialised. -/
def ringPool (ι : Type) (rb : RingBuffer) (size : Nat) : RingPool ι :=
  ⟨(ringBufferInitialize rb size true).2, fun _ => .ret (0, []), fun _ => false⟩

theorem ringBuffer_counts :
    Pool.Counts ringLock (fun interrupted c rb => RingBuffer.perform interrupted rb c)
      RingBuffer.lock := by
  rintro interrupted ⟨site, a⟩ rb r rb' v hperform hv
  cases a with
  | lockTake =>
      simp only [RingBuffer.perform, hv] at hperform
      split at hperform
      · simp only [Option.some.injEq, Prod.mk.injEq] at hperform
        obtain ⟨rfl, rfl⟩ := hperform
        exact ⟨by simp [ringLock], v, hv, by simp [ringLock]⟩
      · split at hperform
        · simp at hperform
        · next hpos =>
            simp only [Option.some.injEq, Prod.mk.injEq] at hperform
            obtain ⟨rfl, rfl⟩ := hperform
            refine ⟨by simp [ringLock], v - 1, rfl, ?_⟩
            simp only [ringLock, Bool.toNat_true]
            simp
            omega
  | lockGive =>
      obtain ⟨-, rfl⟩ := Prod.mk.inj (Option.some.inj hperform)
      exact ⟨by simp [ringLock], v + 1, by simp [hv], by simp [ringLock]⟩
  | _ =>
      obtain ⟨-, rfl⟩ := Prod.mk.inj (Option.some.inj hperform)
      exact ⟨by simp [ringLock], v, hv, by simp [ringLock]⟩

variable [Fintype ι]

omit [DecidableEq ι] in
theorem ringPool_balanced (rb : RingBuffer) {size : Nat} (hsize : 1 ≤ size) :
    Pool.Balanced ringLock EmptyReadGive RingBuffer.lock 1 (ringPool ι rb size) := by
  refine ⟨fun _ => rfl, 1, ?_, ?_⟩
  · rw [ringPool, ringBufferInitialize, if_neg (by omega)]
    rfl
  · simp [Pool.holders, ringPool]

/-- In every run in which no call gives the lock at the exit for an empty read, the semaphore
value and the threads between take and give add up to one, and no two threads are inside
`ring_buffer_write_inner`. -/
theorem ringPool_exclusive (rb : RingBuffer) (size : Nat) (hsize : 1 ≤ size)
    (s : RingPool ι)
    (hrun : Run ringStep (Pool.Avoids EmptyReadGive) (ringPool ι rb size) s) :
    (∃ v, s.shared.lock = some v ∧ v + s.holders = 1) ∧
      ∀ i j c d, (s.code i).nextCall = some c → (s.code j).nextCall = some d →
        c.site = .writeInner → d.site = .writeInner → i = j := by
  have h := (ringPool_balanced rb hsize).run ringBuffer_counts RingOp.code_disciplined hrun
  refine ⟨h.sum, fun i j c d hi hj hc hd => ?_⟩
  refine h.exclusive hi hj (by simp [ringLock, hc]) (by simp [ringLock, hd]) ?_ ?_
  · rintro rfl
    simp at hc
  · rintro rfl
    simp at hd

end Threads

private def enterWith (i : Fin 2) (op : RingOp) : List (PoolLabel (Fin 2) Bool RingOp) :=
  .begin i op :: List.replicate 5 (.call i false)

/-- One writer inside the function while the other waits for the lock. -/
theorem ringPool_exclusive_writer :
    ∃ s, (s.code 0).nextCall = some ⟨.writeInner, .loadHead⟩ ∧
      Run ringStep (Pool.Avoids EmptyReadGive) (ringPool (Fin 2) ⟨[], 0, 0, 0, none⟩ 4) s ∧
      ∃ v, s.shared.lock = some v ∧ v + s.holders = 1 := by
  let check : RingPool (Fin 2) → PoolLabel (Fin 2) Bool RingOp → Bool
    | s, .call i _ => (s.code i).nextCall != some ⟨.readN, .lockGive⟩
    | _, .begin _ _ => true
  have hcheck : ∀ s label, check s label = true → Pool.Avoids EmptyReadGive s label := by
    rintro s (⟨i, _⟩ | ⟨_, _⟩) hcheck
    · rintro c hc rfl
      simp [check, hc] at hcheck
    · trivial
  obtain ⟨s, hrun, hs⟩ : ∃ s, Run ringStep (Pool.Avoids EmptyReadGive)
      (ringPool (Fin 2) ⟨[], 0, 0, 0, none⟩ 4) s ∧
      ((s.code 0).nextCall == some ⟨.writeInner, .loadHead⟩) = true :=
    Run.exists_of_follow check (enterWith 0 (.writeN [1]) ++ [.begin 1 (.writeN [2])]) _ hcheck
      (by decide)
  exact ⟨s, beq_iff_eq.mp hs, hrun, (ringPool_exclusive _ 4 (by decide) s hrun).1⟩

/-- A read of the empty buffer raises the semaphore to two; then two writers go in together. -/
theorem ringPool_two_writers :
    ∃ s, Run ringStep (fun _ _ => True) (ringPool (Fin 2) ⟨[], 0, 0, 0, none⟩ 4) s ∧
      (¬ ∃ v, s.shared.lock = some v ∧ v + s.holders = 1) ∧
      (s.code 0).nextCall = some ⟨.writeInner, .loadHead⟩ ∧
      (s.code 1).nextCall = some ⟨.writeInner, .loadHead⟩ := by
  obtain ⟨s, hrun, hs⟩ : ∃ s, Run ringStep (fun _ _ => True)
      (ringPool (Fin 2) ⟨[], 0, 0, 0, none⟩ 4) s ∧
      (s.shared.lock == some 0 && s.holders == 2 &&
        (s.code 0).nextCall == some ⟨.writeInner, .loadHead⟩ &&
        (s.code 1).nextCall == some ⟨.writeInner, .loadHead⟩) = true :=
    Run.exists_of_follow (fun _ _ => true)
      (enterWith 0 (.readN 1) ++ enterWith 0 (.writeN [1]) ++ enterWith 1 (.writeN [2])) _
      (fun _ _ _ => trivial) (by decide)
  simp only [Bool.and_eq_true, beq_iff_eq] at hs
  obtain ⟨⟨⟨hlock, hholders⟩, hzero⟩, hone⟩ := hs
  refine ⟨s, hrun, ?_, hzero, hone⟩
  rintro ⟨v, hv, hsum⟩
  rw [hlock, Option.some.injEq] at hv
  omega

end YaskawaComms.Logging
