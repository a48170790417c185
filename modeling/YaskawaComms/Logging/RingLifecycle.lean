import YaskawaComms.Logging.RingArithmetic
import YaskawaComms.Logging.RingExchange

/-!
# The life of a ring buffer

A ring buffer is initialised, used, destroyed and initialised again, in any order. It is live, with
both indices inside the buffer and a lock that is there, or it has no lock and equal indices. Every
step of every operation is defined in either state.
-/

namespace YaskawaComms.Logging

open Program

/-- `lock_destroy`. -/
def lockDestroy (lock : Option Nat) : Int := if lock = none then -1 else 0

/-- The caller's array, which has been cleared, is no part of the structure any more. -/
def ringBufferDestroy (rb : RingBuffer) : Int × RingBuffer :=
  (if rb.lock ≠ none then lockDestroy rb.lock else 0, ⟨[], 0, 0, 0, none⟩)

inductive RingLife where
  /-- On an array of this size; the lock may not be created. -/
  | init (size : Nat) (created : Bool)
  | destroy
  /-- The wait for the lock may be interrupted. -/
  | call (op : RingOp) (interrupted : Bool)
  deriving DecidableEq

namespace RingLife

def apply (life : RingLife) (rb : RingBuffer) : Option RingBuffer :=
  match life with
  | .init size created => some (ringBufferInitialize rb size created).2
  | .destroy => some (ringBufferDestroy rb).2
  | .call op interrupted =>
      match op.code.exec (RingBuffer.answer interrupted) rb with
      | (some _, rb') => some rb'
      | (none, _) => none

/-- Whether the last initialisation had a lock and nothing has been destroyed since. -/
def note (life : RingLife) (_ : RingBuffer) (alive : Bool) : Bool :=
  match life with
  | .init size created => if size = 0 then alive else created
  | .destroy => false
  | .call _ _ => alive

/-- No array is larger than half of what `size_t` can count. -/
def Fits : RingLife → Prop
  | .init size _ => size ≤ 2 ^ 63
  | .destroy | .call _ _ => True

instance : DecidablePred Fits
  | .init _ _ => inferInstanceAs (Decidable (_ ≤ _))
  | .destroy | .call _ _ => inferInstanceAs (Decidable True)

end RingLife

structure RingBuffer.Bounded (rb : RingBuffer) : Prop extends rb.Valid where
  small : rb.size ≤ 2 ^ 63

structure RingBuffer.Live (rb : RingBuffer) : Prop extends rb.Bounded where
  lock : ∃ value, rb.lock = some (value + 1)

/-- Every step of the program is defined, it comes to its end and the ring buffer is live then. -/
def StaysLive {α : Type} (interrupted : Bool) (rb : RingBuffer) (p : StepProgram α) : Prop :=
  ∃ out rb', p.exec (RingStep.checked interrupted) rb = (some out, rb') ∧ rb'.Live

section Bounded

variable {α : Type} {interrupted : Bool} {site : RingFunction} {rb : RingBuffer}

theorem RingBuffer.Bounded.with_lock (h : rb.Bounded) (lock : Option Nat) :
    RingBuffer.Bounded { rb with lock := lock } :=
  ⟨⟨h.length, h.head_lt, h.tail_lt⟩, h.small⟩

theorem RingBuffer.Bounded.with_head (h : rb.Bounded) (n : Nat) :
    RingBuffer.Bounded { rb with head := n % rb.size } :=
  ⟨⟨h.length, Nat.mod_lt _ (Nat.zero_lt_of_lt h.head_lt), h.tail_lt⟩, h.small⟩

theorem RingBuffer.Bounded.with_tail (h : rb.Bounded) (n : Nat) :
    RingBuffer.Bounded { rb with tail := n % rb.size } :=
  ⟨⟨h.length, h.head_lt, Nat.mod_lt _ (Nat.zero_lt_of_lt h.head_lt)⟩, h.small⟩

theorem RingBuffer.Bounded.with_block (h : rb.Bounded) {start : Nat} {block : List UInt8}
    (hstop : start + block.length ≤ rb.size) :
    RingBuffer.Bounded { rb with buffer := overwrite rb.buffer start block } := by
  refine ⟨⟨?_, h.head_lt, h.tail_lt⟩, h.small⟩
  show (overwrite rb.buffer start block).length = rb.size
  rw [overwrite_length _ _ _ (by rw [h.length]; exact hstop), h.length]

namespace Stepwise

theorem staysLive_ret (h : rb.Live) (a : α) : StaysLive interrupted rb (.ret a) :=
  ⟨a, rb, rfl, h⟩

theorem staysLive_lockTake (h : rb.Live) {f : Bool → StepProgram α}
    (hnot : StaysLive interrupted rb (f false))
    (htaken : ∀ value, StaysLive interrupted { rb with lock := some value } (f true)) :
    StaysLive interrupted rb (lockTake site >>= f) := by
  obtain ⟨value, hlock⟩ := h.lock
  rw [StaysLive, exec_lockTake site rb hlock]
  cases interrupted with
  | true => exact hnot
  | false => exact htaken value

theorem staysLive_lockGive (h : rb.Bounded) {value : Nat} (hlock : rb.lock = some value) (a : α) :
    StaysLive interrupted rb (lockGive site >>= fun _ => .ret a) := by
  refine ⟨a, _, exec_lockGive site rb _, h.with_lock _, value, ?_⟩
  show rb.lock.map (· + 1) = some (value + 1)
  rw [hlock, Option.map_some]

theorem staysLive_freeSpaceInternal (h : rb.Bounded) {f : Nat → StepProgram α}
    (hf : ∀ free < rb.size, StaysLive interrupted rb (f free)) :
    StaysLive interrupted rb (ringBufferFreeSpaceInternal >>= f) := by
  have hhead := h.head_lt
  have htail := h.tail_lt
  have hsmall := h.small
  rw [StaysLive]
  by_cases hle : rb.tail ≤ rb.head
  · simp only [ringBufferFreeSpaceInternal, Program.bind_assoc, exec_loadHead, exec_loadTail,
      if_pos hle, exec_loadSize]
    rw [exec_sub _ hle (by omega), exec_sub _ (by omega) (by omega),
      exec_sub _ (by omega) (by omega)]
    exact hf _ (by omega)
  · simp only [ringBufferFreeSpaceInternal, Program.bind_assoc, exec_loadHead, exec_loadTail,
      if_neg hle]
    rw [exec_sub _ (by omega) (by omega), exec_sub _ (by omega) (by omega)]
    exact hf _ (by omega)

theorem staysLive_usedSpaceInner (h : rb.Bounded) {f : Nat → StepProgram α}
    (hf : ∀ used < rb.size, StaysLive interrupted rb (f used)) :
    StaysLive interrupted rb (ringBufferUsedSpaceInner >>= f) := by
  have hhead := h.head_lt
  have htail := h.tail_lt
  have hsmall := h.small
  rw [StaysLive]
  by_cases hle : rb.tail ≤ rb.head
  · simp only [ringBufferUsedSpaceInner, Program.bind_assoc, exec_loadHead, exec_loadTail,
      if_pos hle]
    rw [exec_sub _ hle (by omega)]
    exact hf _ (by omega)
  · simp only [ringBufferUsedSpaceInner, Program.bind_assoc, exec_loadHead, exec_loadTail,
      if_neg hle, exec_loadSize]
    rw [exec_sub _ (by omega) (by omega), exec_add _ (by omega)]
    exact hf _ (by omega)

theorem staysLive_copyIn (h : rb.Bounded) {start : Nat} {block : List UInt8}
    {f : Unit → StepProgram α} (hstart : start < rb.size)
    (hstop : start + block.length ≤ rb.size)
    (hf : ∀ rb', rb'.Bounded → rb'.size = rb.size → rb'.lock = rb.lock →
      StaysLive interrupted rb' (f ())) :
    StaysLive interrupted rb (copyIn site start block >>= f) := by
  rw [StaysLive, exec_copyIn site rb hstart hstop]
  exact hf _ (h.with_block hstop) rfl rfl

theorem staysLive_moveHead (h : rb.Bounded) {n : Nat} (hn : n ≤ rb.size) {p : StepProgram α}
    (hp : ∀ rb', rb'.Bounded → rb'.lock = rb.lock → StaysLive interrupted rb' p) :
    StaysLive interrupted rb (do
      let head ← loadHead .writeInner
      let stop ← add head n
      let rbSize ← loadSize .writeInner
      storeHead .writeInner (← mod stop rbSize)
      p) := by
  have hhead := h.head_lt
  have hsmall := h.small
  rw [StaysLive, exec_loadHead, exec_add _ (by omega), exec_loadSize, exec_mod _ (by omega),
    exec_storeHead]
  exact hp _ (h.with_head _) rfl

theorem staysLive_writeInner (h : rb.Bounded) {data : List UInt8} {n : Nat} (hn : n < rb.size)
    {f : Nat → StepProgram α}
    (hf : ∀ rb', rb'.Bounded → rb'.lock = rb.lock → StaysLive interrupted rb' (f n)) :
    StaysLive interrupted rb (ringBufferWriteInner data n >>= f) := by
  have hhead := h.head_lt
  have hsmall := h.small
  simp only [StaysLive, ringBufferWriteInner, Program.bind_assoc, exec_loadHead]
  rw [exec_add _ (by omega), exec_loadSize]
  split
  · next hwrap =>
      -- up to the end of the buffer, then from its start
      have hrest : rb.size - rb.head < n := by omega
      simp only [Program.bind_assoc, exec_loadSize, exec_loadHead]
      rw [exec_sub _ hhead.le (by omega), exec_loadHead]
      apply staysLive_copyIn h hhead
      · rw [List.length_take]
        omega
      · intro rb₁ h₁ hsize₁ hlock₁
        rw [StaysLive, if_pos hrest, Program.bind_assoc, exec_sub _ hrest.le (by omega),
          Program.bind_assoc]
        apply staysLive_copyIn h₁ (Nat.zero_lt_of_lt h₁.head_lt)
        · rw [List.length_take]
          omega
        · intro rb₂ h₂ hsize₂ hlock₂
          simp only [Program.bind_assoc, pure_bind]
          apply staysLive_moveHead h₂ (by omega)
          intro rb' h' hlock'
          exact hf rb' h' (hlock'.trans (hlock₂.trans hlock₁))
  · next hfits =>
      simp only [Program.bind_assoc, exec_loadHead]
      apply staysLive_copyIn h hhead
      · rw [List.length_take]
        omega
      · intro rb₁ h₁ hsize₁ hlock₁
        simp only [if_neg (Nat.lt_irrefl n), Program.bind_assoc, pure_bind]
        apply staysLive_moveHead h₁ (by omega)
        intro rb' h' hlock'
        exact hf rb' h' (hlock'.trans hlock₁)

theorem staysLive_moveTail (h : rb.Live) {n : Nat} (hn : n ≤ rb.size) (a : α) :
    StaysLive interrupted rb (do
      let tail ← loadTail .readN
      let stop ← add tail n
      let rbSize ← loadSize .readN
      storeTail .readN (← mod stop rbSize)
      .ret a) := by
  have htail := h.tail_lt
  have hsmall := h.small
  rw [StaysLive, exec_loadTail, exec_add _ (by omega), exec_loadSize, exec_mod _ (by omega),
    exec_storeTail]
  exact staysLive_ret ⟨h.with_tail _, h.lock⟩ a

theorem staysLive_readN (h : rb.Live) (size : Nat) :
    StaysLive interrupted rb (ringBufferReadN size) := by
  unfold ringBufferReadN
  split
  · exact staysLive_ret h _
  · apply staysLive_usedSpaceInner h.toBounded
    intro used hused
    dsimp only
    generalize hn : (if size ≤ used then size else used) = n
    have hle : n ≤ used := by split at hn <;> omega
    split
    · obtain ⟨value, hlock⟩ := h.lock
      exact staysLive_lockGive h.toBounded hlock _
    · have htail := h.tail_lt
      have hsmall := h.small
      rw [StaysLive]
      rw [exec_loadTail, exec_add _ (by omega), exec_loadSize]
      split
      · next hwrap =>
          have hrest : rb.size - rb.tail < n := by omega
          rw [exec_loadSize, exec_loadTail, exec_sub _ htail.le (by omega), exec_loadTail,
            exec_copyOut _ _ htail (by omega), if_pos hrest, exec_sub _ hrest.le (by omega),
            exec_copyOut _ _ (Nat.zero_lt_of_lt htail) (by omega)]
          exact staysLive_moveTail h (by omega) _
      · next hfits =>
          rw [exec_loadTail, exec_copyOut _ _ htail (by omega), if_neg (Nat.lt_irrefl n)]
          exact staysLive_moveTail h (by omega) _

theorem staysLive_write (h : rb.Live) (data : List UInt8) (count : Nat → Nat)
    (hcount : ∀ free, count free ≤ free) :
    StaysLive interrupted rb (do
      if !(← lockTake site) then
        return 0
      let freeSpace ← ringBufferFreeSpaceInternal
      let bytesToWrite := count freeSpace
      if bytesToWrite = 0 then
        lockGive site
        return 0
      let written ← ringBufferWriteInner data bytesToWrite
      lockGive site
      return written) := by
  apply staysLive_lockTake h
  · exact staysLive_ret h 0
  · intro value
    apply staysLive_freeSpaceInternal (h.with_lock _)
    intro free hfree
    have hle := hcount free
    dsimp only
    split
    · exact staysLive_lockGive (h.with_lock _) rfl 0
    · apply staysLive_writeInner (h.with_lock _) (hle.trans_lt hfree)
      intro rb' h' hlock'
      exact staysLive_lockGive h' hlock' _

theorem staysLive_space (h : rb.Live) {space : StepProgram Nat}
    (hspace : ∀ {rb : RingBuffer} {f : Nat → StepProgram Nat}, rb.Bounded →
      (∀ n, StaysLive interrupted rb (f n)) → StaysLive interrupted rb (space >>= f)) :
    StaysLive interrupted rb (do
      if !(← lockTake site) then
        return 0
      let n ← space
      lockGive site
      return n) := by
  apply staysLive_lockTake h
  · exact staysLive_ret h 0
  · intro value
    apply hspace (h.with_lock _)
    intro n
    exact staysLive_lockGive (h.with_lock _) rfl n

theorem staysLive_writeN (h : rb.Live) (data : List UInt8) (size : Nat) :
    StaysLive interrupted rb (ringBufferWriteN data size) := by
  unfold ringBufferWriteN
  split
  · exact staysLive_ret h 0
  · apply staysLive_write h data fun free => if size ≤ free then size else free
    intro free
    split <;> omega

theorem staysLive_writeExactN (h : rb.Live) (data : List UInt8) (size : Nat) :
    StaysLive interrupted rb (ringBufferWriteExactN data size) := by
  unfold ringBufferWriteExactN
  split
  · exact staysLive_ret h 0
  · apply staysLive_write h data fun free => if size ≤ free then size else 0
    intro free
    split <;> omega

end Stepwise

theorem StaysLive.map {β : Type} {p : StepProgram α} (h : StaysLive interrupted rb p) (g : α → β) :
    StaysLive interrupted rb (p >>= fun a => .ret (g a)) := by
  obtain ⟨out, rb', hp, hlive⟩ := h
  exact ⟨g out, rb', exec_bind_some hp, hlive⟩

theorem RingBuffer.Live.steps (h : rb.Live) (op : RingOp) : StaysLive interrupted rb op.steps := by
  cases op with
  | writeN data => exact (Stepwise.staysLive_writeN h data _).map _
  | writeExactN data => exact (Stepwise.staysLive_writeExactN h data _).map _
  | readN size => exact Stepwise.staysLive_readN h size
  | usedSpace =>
      apply StaysLive.map
      apply Stepwise.staysLive_space h
      intro rb f hbounded hf
      exact Stepwise.staysLive_usedSpaceInner hbounded fun used _ => hf used
  | freeSpace =>
      apply StaysLive.map
      apply Stepwise.staysLive_space h
      intro rb f hbounded hf
      exact Stepwise.staysLive_freeSpaceInternal hbounded fun free _ => hf free

end Bounded

structure RingBuffer.Dead (rb : RingBuffer) : Prop where
  lock : rb.lock = none
  head : rb.head = 0
  tail : rb.tail = 0

section Dead

variable {interrupted : Bool} {site : RingFunction} {rb : RingBuffer}

namespace Stepwise

theorem exec_unlocked (h : rb.lock = none) (p : StepProgram Nat) :
    (do if !(← lockTake site) then return 0 else p : StepProgram Nat).exec
      (RingStep.checked interrupted) rb = (some 0, rb) :=
  exec_lockTake_null site rb h _

theorem exec_readN_dead (h : rb.Dead) (size : Nat) :
    (ringBufferReadN size).exec (RingStep.checked interrupted) rb = (some (0, []), rb) := by
  unfold ringBufferReadN
  split
  · rfl
  · have hle : rb.tail ≤ rb.head := by rw [h.tail, h.head]
    simp only [ringBufferUsedSpaceInner, Program.bind_assoc, exec_loadHead, exec_loadTail,
      if_pos hle]
    rw [h.head, h.tail, exec_sub _ (Nat.le_refl 0) (by omega), if_pos (by simp), exec_lockGive,
      h.lock, Option.map_none, ← h.lock]
    rfl

end Stepwise

theorem RingBuffer.Dead.steps (h : rb.Dead) (op : RingOp) :
    op.steps.exec (RingStep.checked interrupted) rb = (some (0, []), rb) := by
  cases op with
  | writeN data =>
      apply exec_bind_some
      unfold Stepwise.ringBufferWriteN
      split
      · rfl
      · exact Stepwise.exec_unlocked h.lock _
  | writeExactN data =>
      apply exec_bind_some
      unfold Stepwise.ringBufferWriteExactN
      split
      · rfl
      · exact Stepwise.exec_unlocked h.lock _
  | readN size => exact Stepwise.exec_readN_dead h size
  | usedSpace => exact exec_bind_some (Stepwise.exec_unlocked h.lock _)
  | freeSpace => exact exec_bind_some (Stepwise.exec_unlocked h.lock _)

end Dead

/-- One step, with record of whether the ring buffer is alive. -/
def lifeStep : RingLife → RingBuffer × Bool → Option (RingBuffer × Bool) :=
  noting RingLife.apply RingLife.note

structure Settled (s : RingBuffer × Bool) : Prop where
  live : s.2 = true → s.1.Live
  dead : s.2 = false → s.1.Dead

theorem settled_init (rb : RingBuffer) {size : Nat} (created : Bool) (hpos : 1 ≤ size)
    (hsize : size ≤ 2 ^ 63) : Settled ((ringBufferInitialize rb size created).2, created) := by
  have hne : size ≠ 0 := by omega
  simp only [ringBufferInitialize, if_neg hne]
  constructor
  · rintro rfl
    exact ⟨⟨⟨List.length_replicate, hpos, hpos⟩, hsize⟩, 0, rfl⟩
  · rintro rfl
    exact ⟨rfl, rfl, rfl⟩

theorem settled_destroy (rb : RingBuffer) : Settled ((ringBufferDestroy rb).2, false) := by
  constructor
  · intro h
    cases h
  · intro _
    exact ⟨rfl, rfl, rfl⟩

namespace Settled

variable {s t : RingBuffer × Bool}

theorem steps (h : Settled s) (op : RingOp) (interrupted : Bool) :
    ∃ out rb', op.steps.exec (RingStep.checked interrupted) s.1 = (some out, rb') ∧
      Settled (rb', s.2) := by
  obtain ⟨rb, alive⟩ := s
  cases alive with
  | true =>
      obtain ⟨out, rb', hexec, hlive⟩ := (h.live rfl).steps op
      refine ⟨out, rb', hexec, fun _ => hlive, ?_⟩
      intro hdead
      cases hdead
  | false => exact ⟨(0, []), rb, (h.dead rfl).steps op, h⟩

theorem step {life : RingLife} (h : Settled s) (hfits : life.Fits)
    (htaken : lifeStep life s = some t) : Settled t := by
  obtain ⟨happly, hnote⟩ := noting_eq_some htaken
  obtain ⟨rb', alive⟩ := t
  cases life with
  | init size created =>
      cases happly
      by_cases hzero : size = 0
      · rw [RingLife.note, if_pos hzero] at hnote
        obtain rfl : alive = s.2 := hnote
        rw [ringBufferInitialize, if_pos hzero]
        exact h
      · rw [RingLife.note, if_neg hzero] at hnote
        obtain rfl : alive = created := hnote
        exact settled_init s.1 alive (Nat.pos_of_ne_zero hzero) hfits
  | destroy =>
      cases happly
      cases hnote
      exact settled_destroy s.1
  | call op interrupted =>
      obtain ⟨out, rb, hexec, hsettled⟩ := h.steps op interrupted
      rw [RingLife.apply, RingOp.exec_of_steps hexec] at happly
      cases happly
      cases hnote
      exact hsettled

end Settled

/-- Whatever is done with an initialised ring buffer, it is live as long as it has a lock; without
one, calls return `0` and change nothing. The steps of every call are defined in both cases. -/
theorem ringBuffer_life (rb : RingBuffer) {size : Nat} (created : Bool) (hpos : 1 ≤ size)
    (hsize : size ≤ 2 ^ 63) {s : RingBuffer × Bool}
    (hrun : Run lifeStep (fun _ life => life.Fits)
      ((ringBufferInitialize rb size created).2, created) s) :
    (s.2 = true → s.1.Live) ∧
    (s.2 = false → s.1.Dead ∧ ∀ (op : RingOp) (interrupted : Bool),
      op.code.exec (RingBuffer.answer interrupted) s.1 = (some (0, []), s.1)) ∧
    ∀ (op : RingOp) (interrupted : Bool), ∃ out rb',
      op.steps.exec (RingStep.checked interrupted) s.1 = (some out, rb') ∧
      op.code.exec (RingBuffer.answer interrupted) s.1 = (some out, rb') := by
  have h : Settled s := hrun.invariant (settled_init rb created hpos hsize)
    fun _ _ _ hsettled hfits htaken => hsettled.step hfits htaken
  refine ⟨h.live, ?_, ?_⟩
  · intro hdead
    refine ⟨h.dead hdead, ?_⟩
    intro op interrupted
    exact RingOp.exec_of_steps ((h.dead hdead).steps op)
  · intro op interrupted
    obtain ⟨out, rb', hexec, _⟩ := h.steps op interrupted
    exact ⟨out, rb', hexec, RingOp.exec_of_steps hexec⟩

/-- Destroyed, initialised without a lock and initialised again, with calls in between. -/
theorem ringBuffer_life_again :
    ∃ s, Run lifeStep (fun _ life => life.Fits)
        ((ringBufferInitialize ⟨[], 0, 0, 0, none⟩ 4 true).2, true) s ∧
      s.1 = ⟨[7, 8, 0], 3, 2, 0, some 1⟩ ∧ s.1.Live := by
  obtain ⟨s, hrun, hs⟩ : ∃ s, Run lifeStep (fun _ life => life.Fits)
      ((ringBufferInitialize ⟨[], 0, 0, 0, none⟩ 4 true).2, true) s ∧
      (s.1 == ⟨[7, 8, 0], 3, 2, 0, some 1⟩ && s.2) = true :=
    Run.exists_of_follow (fun _ life => decide life.Fits)
      [.call (.writeN [1, 2, 3]) false, .call (.readN 2) false, .call (.writeN [4, 5]) false,
        .call .freeSpace true, .destroy, .call (.writeN [6]) false, .init 2 false,
        .call (.readN 1) false, .init 3 true, .call (.writeExactN [7, 8]) false] _
      (fun _ _ h => of_decide_eq_true h) (by decide)
  simp only [Bool.and_eq_true, beq_iff_eq] at hs
  exact ⟨s, hrun, hs.1, (ringBuffer_life _ true (by decide) (by decide) hrun).1 hs.2⟩

end YaskawaComms.Logging
