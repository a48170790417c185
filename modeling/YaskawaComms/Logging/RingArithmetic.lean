import YaskawaComms.Framework.Interpretation
import YaskawaComms.Logging.RingBuffer

/-!
# The arithmetic of the ring buffer operations

The operations once more, with each addition, subtraction and modulo of `size_t` values as a step
of its own beside the accesses. What a step stands for gives the operations back. A step is defined
if the operands allow it: no sum or difference wraps, nothing is divided by zero, and a copy stays
inside the buffer.
-/

namespace YaskawaComms.Logging

open Program

inductive RingStep where
  | access (c : RingCall)
  | add (a b : Nat)
  | sub (a b : Nat)
  | mod (a b : Nat)
  deriving DecidableEq

abbrev RingStep.Result : RingStep → Type
  | .access c => c.access.Result
  | .add _ _ | .sub _ _ | .mod _ _ => Nat

abbrev stepSignature : Signature := ⟨RingStep, RingStep.Result⟩

abbrev StepProgram := Program stepSignature

namespace Stepwise

section Accesses

variable (site : RingFunction)

def lockTake : StepProgram Bool := .call (.access ⟨site, .lockTake⟩) .ret
def lockGive : StepProgram Unit := .call (.access ⟨site, .lockGive⟩) .ret
def loadSize : StepProgram Nat := .call (.access ⟨site, .loadSize⟩) .ret
def loadHead : StepProgram Nat := .call (.access ⟨site, .loadHead⟩) .ret
def loadTail : StepProgram Nat := .call (.access ⟨site, .loadTail⟩) .ret
def storeHead (value : Nat) : StepProgram Unit := .call (.access ⟨site, .storeHead value⟩) .ret
def storeTail (value : Nat) : StepProgram Unit := .call (.access ⟨site, .storeTail value⟩) .ret
def copyIn (start : Nat) (block : List UInt8) : StepProgram Unit :=
  .call (.access ⟨site, .copyIn start block⟩) .ret
def copyOut (start count : Nat) : StepProgram (List UInt8) :=
  .call (.access ⟨site, .copyOut start count⟩) .ret

end Accesses

def add (a b : Nat) : StepProgram Nat := .call (.add a b) .ret
def sub (a b : Nat) : StepProgram Nat := .call (.sub a b) .ret
def mod (a b : Nat) : StepProgram Nat := .call (.mod a b) .ret

def ringBufferFreeSpaceInternal : StepProgram Nat := do
  let head ← loadHead .freeSpaceInternal
  if (← loadTail .freeSpaceInternal) ≤ head then
    let size ← loadSize .freeSpaceInternal
    let tail ← loadTail .freeSpaceInternal
    sub (← sub size (← sub head tail)) 1
  else
    let tail ← loadTail .freeSpaceInternal
    sub (← sub tail head) 1

def ringBufferFreeSpace : StepProgram Nat := do
  if !(← lockTake .freeSpace) then
    return 0
  let freeSpace ← ringBufferFreeSpaceInternal
  lockGive .freeSpace
  return freeSpace

def ringBufferUsedSpaceInner : StepProgram Nat := do
  let head ← loadHead .usedSpaceInner
  if (← loadTail .usedSpaceInner) ≤ head then
    let head ← loadHead .usedSpaceInner
    let tail ← loadTail .usedSpaceInner
    sub head tail
  else
    let size ← loadSize .usedSpaceInner
    let tail ← loadTail .usedSpaceInner
    let head ← loadHead .usedSpaceInner
    add (← sub size tail) head

def ringBufferUsedSpace : StepProgram Nat := do
  if !(← lockTake .usedSpace) then
    return 0
  let usedSpace ← ringBufferUsedSpaceInner
  lockGive .usedSpace
  return usedSpace

def ringBufferWriteInner (data : List UInt8) (size : Nat) : StepProgram Nat := do
  let mut firstChunk := size
  let head ← loadHead .writeInner
  let stop ← add head size
  if (← loadSize .writeInner) < stop then
    let rbSize ← loadSize .writeInner
    let head ← loadHead .writeInner
    firstChunk ← sub rbSize head
  let head ← loadHead .writeInner
  copyIn .writeInner head (data.take firstChunk)
  if firstChunk < size then
    copyIn .writeInner 0 ((data.drop firstChunk).take (← sub size firstChunk))
  let head ← loadHead .writeInner
  let stop ← add head size
  let rbSize ← loadSize .writeInner
  storeHead .writeInner (← mod stop rbSize)
  return size

def ringBufferWriteExactN (data : List UInt8) (size : Nat) : StepProgram Nat := do
  if size = 0 then
    return 0
  if !(← lockTake .writeExactN) then
    return 0
  let freeSpace ← ringBufferFreeSpaceInternal
  let bytesToWrite := if size ≤ freeSpace then size else 0
  if bytesToWrite = 0 then
    lockGive .writeExactN
    return 0
  let written ← ringBufferWriteInner data bytesToWrite
  lockGive .writeExactN
  return written

def ringBufferWriteN (data : List UInt8) (size : Nat) : StepProgram Nat := do
  if size = 0 then
    return 0
  if !(← lockTake .writeN) then
    return 0
  let freeSpace ← ringBufferFreeSpaceInternal
  let bytesToWrite := if size ≤ freeSpace then size else freeSpace
  if bytesToWrite = 0 then
    lockGive .writeN
    return 0
  let written ← ringBufferWriteInner data bytesToWrite
  lockGive .writeN
  return written

def ringBufferReadN (size : Nat) : StepProgram (Nat × List UInt8) := do
  if size = 0 then
    return (0, [])
  -- lock_take is commented out in the source
  let usedSpace ← ringBufferUsedSpaceInner
  let bytesToRead := if size ≤ usedSpace then size else usedSpace
  if bytesToRead = 0 then
    lockGive .readN
    return (0, [])
  let mut firstChunk := bytesToRead
  let tail ← loadTail .readN
  let stop ← add tail bytesToRead
  if (← loadSize .readN) < stop then
    let rbSize ← loadSize .readN
    let tail ← loadTail .readN
    firstChunk ← sub rbSize tail
  let tail ← loadTail .readN
  let mut data ← copyOut .readN tail firstChunk
  if firstChunk < bytesToRead then
    let wrapped ← copyOut .readN 0 (← sub bytesToRead firstChunk)
    data := data ++ wrapped
  let tail ← loadTail .readN
  let stop ← add tail bytesToRead
  let rbSize ← loadSize .readN
  storeTail .readN (← mod stop rbSize)
  return (bytesToRead, data)

end Stepwise

/-- A call of the interface, step by step. -/
def RingOp.steps : RingOp → StepProgram (Nat × List UInt8)
  | .writeN data => do return (← Stepwise.ringBufferWriteN data data.length, [])
  | .writeExactN data => do return (← Stepwise.ringBufferWriteExactN data data.length, [])
  | .readN size => Stepwise.ringBufferReadN size
  | .usedSpace => do return (← Stepwise.ringBufferUsedSpace, [])
  | .freeSpace => do return (← Stepwise.ringBufferFreeSpace, [])

def RingStep.code : (c : RingStep) → RingProgram c.Result
  | .access c => .call c .ret
  | .add a b => .ret (addSize a b)
  | .sub a b => .ret (subSize a b)
  | .mod a b => .ret (a % b)

namespace Stepwise

theorem interpret_freeSpaceInternal :
    ringBufferFreeSpaceInternal.interpret RingStep.code = Logging.ringBufferFreeSpaceInternal := by
  simp [ringBufferFreeSpaceInternal, Logging.ringBufferFreeSpaceInternal, RingStep.code, sub,
    loadHead, loadTail, loadSize, Logging.loadHead, Logging.loadTail, Logging.loadSize]

theorem interpret_freeSpace :
    ringBufferFreeSpace.interpret RingStep.code = Logging.ringBufferFreeSpace := by
  simp [ringBufferFreeSpace, Logging.ringBufferFreeSpace, RingStep.code, interpret_freeSpaceInternal,
    lockTake, lockGive, Logging.lockTake, Logging.lockGive]

theorem interpret_usedSpaceInner :
    ringBufferUsedSpaceInner.interpret RingStep.code = Logging.ringBufferUsedSpaceInner := by
  simp [ringBufferUsedSpaceInner, Logging.ringBufferUsedSpaceInner, RingStep.code, add, sub,
    loadHead, loadTail, loadSize, Logging.loadHead, Logging.loadTail, Logging.loadSize]

theorem interpret_usedSpace :
    ringBufferUsedSpace.interpret RingStep.code = Logging.ringBufferUsedSpace := by
  simp [ringBufferUsedSpace, Logging.ringBufferUsedSpace, RingStep.code, interpret_usedSpaceInner,
    lockTake, lockGive, Logging.lockTake, Logging.lockGive]

theorem interpret_writeInner (data : List UInt8) (size : Nat) :
    (ringBufferWriteInner data size).interpret RingStep.code =
      Logging.ringBufferWriteInner data size := by
  simp [ringBufferWriteInner, Logging.ringBufferWriteInner, RingStep.code, add, sub, mod, loadHead,
    loadSize, copyIn, storeHead, Logging.loadHead, Logging.loadSize, Logging.copyIn, Logging.storeHead]

theorem interpret_writeN (data : List UInt8) (size : Nat) :
    (ringBufferWriteN data size).interpret RingStep.code = Logging.ringBufferWriteN data size := by
  simp [ringBufferWriteN, Logging.ringBufferWriteN, RingStep.code, interpret_freeSpaceInternal,
    interpret_writeInner, lockTake, lockGive, Logging.lockTake, Logging.lockGive]

theorem interpret_writeExactN (data : List UInt8) (size : Nat) :
    (ringBufferWriteExactN data size).interpret RingStep.code =
      Logging.ringBufferWriteExactN data size := by
  simp [ringBufferWriteExactN, Logging.ringBufferWriteExactN, RingStep.code,
    interpret_freeSpaceInternal, interpret_writeInner, lockTake, lockGive, Logging.lockTake,
    Logging.lockGive]

theorem interpret_readN (size : Nat) :
    (ringBufferReadN size).interpret RingStep.code = Logging.ringBufferReadN size := by
  simp [ringBufferReadN, Logging.ringBufferReadN, RingStep.code, interpret_usedSpaceInner, add, sub,
    mod, loadTail, loadSize, copyOut, storeTail, lockGive, Logging.loadTail, Logging.loadSize,
    Logging.copyOut, Logging.storeTail, Logging.lockGive]

end Stepwise

theorem RingOp.interpret_steps (op : RingOp) : op.steps.interpret RingStep.code = op.code := by
  cases op with
  | writeN data => simp [steps, code, Stepwise.interpret_writeN]
  | writeExactN data => simp [steps, code, Stepwise.interpret_writeExactN]
  | readN size => exact Stepwise.interpret_readN size
  | usedSpace => simp [steps, code, Stepwise.interpret_usedSpace]
  | freeSpace => simp [steps, code, Stepwise.interpret_freeSpace]

/-- The part of the buffer that a copy touches, as its start and its length. -/
def RingAccess.extent : RingAccess → Option (Nat × Nat)
  | .copyIn start block => some (start, block.length)
  | .copyOut start count => some (start, count)
  | _ => none

def RingStep.Defined : RingStep → RingBuffer → Prop
  | .access c, rb =>
      ∀ extent ∈ c.access.extent, extent.1 < rb.size ∧ extent.1 + extent.2 ≤ rb.size
  | .add a b, _ => a + b < 2 ^ 64
  | .sub a b, _ => b ≤ a
  | .mod _ b, _ => b ≠ 0

instance : ∀ (c : stepSignature.Call) (rb : RingBuffer), Decidable (RingStep.Defined c rb)
  | .access c, rb => inferInstanceAs (Decidable (∀ extent ∈ c.access.extent,
      extent.1 < rb.size ∧ extent.1 + extent.2 ≤ rb.size))
  | .add _ _, _ => inferInstanceAs (Decidable (_ < _))
  | .sub _ _, _ => inferInstanceAs (Decidable (_ ≤ _))
  | .mod _ _, _ => inferInstanceAs (Decidable (_ ≠ _))

/-- The calls of a caller whose wait for the lock may be interrupted. -/
def RingBuffer.answer (interrupted : Bool) (c : ringSignature.Call) (rb : RingBuffer) :
    Option (ringSignature.Result c) × RingBuffer :=
  match rb.perform interrupted c with
  | some (r, rb') => (some r, rb')
  | none => (none, rb)

def RingStep.answer (interrupted : Bool) (c : stepSignature.Call) (rb : RingBuffer) :
    Option (stepSignature.Result c) × RingBuffer :=
  match c with
  | .access c => rb.answer interrupted c
  | .add a b => (some (addSize a b), rb)
  | .sub a b => (some (subSize a b), rb)
  | .mod a b => (some (a % b), rb)

/-- The handler that stops at a step that is not defined. -/
def RingStep.checked (interrupted : Bool) (c : stepSignature.Call) (rb : RingBuffer) :
    Option (stepSignature.Result c) × RingBuffer :=
  guarded RingStep.Defined (RingStep.answer interrupted) c rb

theorem RingOp.exec_of_steps {op : RingOp} {interrupted : Bool} {rb rb' : RingBuffer}
    {out : Nat × List UInt8} (h : op.steps.exec (RingStep.checked interrupted) rb = (some out, rb')) :
    op.code.exec (RingBuffer.answer interrupted) rb = (some out, rb') := by
  rw [← op.interpret_steps]
  apply exec_interpret _ h
  intro c s r s' hchecked
  have hanswer := (guarded_eq_some.mp hchecked).2
  cases c with
  | access c => exact exec_call_some hanswer
  | add a b => exact hanswer
  | sub a b => exact hanswer
  | mod a b => exact hanswer

namespace Stepwise

section Checked

variable {α : Type} {interrupted : Bool} (site : RingFunction) (rb : RingBuffer)

@[simp] theorem exec_loadSize (f : Nat → StepProgram α) :
    (loadSize site >>= f).exec (RingStep.checked interrupted) rb =
      (f rb.size).exec (RingStep.checked interrupted) rb :=
  exec_call_some rfl

@[simp] theorem exec_loadHead (f : Nat → StepProgram α) :
    (loadHead site >>= f).exec (RingStep.checked interrupted) rb =
      (f rb.head).exec (RingStep.checked interrupted) rb :=
  exec_call_some rfl

@[simp] theorem exec_loadTail (f : Nat → StepProgram α) :
    (loadTail site >>= f).exec (RingStep.checked interrupted) rb =
      (f rb.tail).exec (RingStep.checked interrupted) rb :=
  exec_call_some rfl

@[simp] theorem exec_storeHead (value : Nat) (f : Unit → StepProgram α) :
    (storeHead site value >>= f).exec (RingStep.checked interrupted) rb =
      (f ()).exec (RingStep.checked interrupted) { rb with head := value } :=
  exec_call_some rfl

@[simp] theorem exec_storeTail (value : Nat) (f : Unit → StepProgram α) :
    (storeTail site value >>= f).exec (RingStep.checked interrupted) rb =
      (f ()).exec (RingStep.checked interrupted) { rb with tail := value } :=
  exec_call_some rfl

@[simp] theorem exec_lockGive (f : Unit → StepProgram α) :
    (lockGive site >>= f).exec (RingStep.checked interrupted) rb =
      (f ()).exec (RingStep.checked interrupted) { rb with lock := rb.lock.map (· + 1) } :=
  exec_call_some rfl

theorem exec_copyIn {start : Nat} {block : List UInt8} (hstart : start < rb.size)
    (hstop : start + block.length ≤ rb.size) (f : Unit → StepProgram α) :
    (copyIn site start block >>= f).exec (RingStep.checked interrupted) rb =
      (f ()).exec (RingStep.checked interrupted)
        { rb with buffer := overwrite rb.buffer start block } := by
  apply exec_call_some
  apply guarded_eq_some.mpr
  refine ⟨?_, rfl⟩
  rintro extent ⟨⟩
  exact ⟨hstart, hstop⟩

theorem exec_copyOut {start count : Nat} (hstart : start < rb.size) (hstop : start + count ≤ rb.size)
    (f : List UInt8 → StepProgram α) :
    (copyOut site start count >>= f).exec (RingStep.checked interrupted) rb =
      (f ((rb.buffer.drop start).take count)).exec (RingStep.checked interrupted) rb := by
  apply exec_call_some
  apply guarded_eq_some.mpr
  refine ⟨?_, rfl⟩
  rintro extent ⟨⟩
  exact ⟨hstart, hstop⟩

theorem checked_lockTake {taken : Bool} {rb' : RingBuffer}
    (h : rb.perform interrupted ⟨site, .lockTake⟩ = some (taken, rb')) :
    RingStep.checked interrupted (.access ⟨site, .lockTake⟩) rb = (some taken, rb') := by
  apply guarded_eq_some.mpr
  constructor
  · intro extent hextent
    cases hextent
  · simp only [RingStep.answer, RingBuffer.answer, h]

theorem exec_lockTake {value : Nat} (h : rb.lock = some (value + 1)) (f : Bool → StepProgram α) :
    (lockTake site >>= f).exec (RingStep.checked interrupted) rb =
      if interrupted then (f false).exec (RingStep.checked interrupted) rb
      else (f true).exec (RingStep.checked interrupted) { rb with lock := some value } := by
  cases interrupted with
  | true => exact exec_call_some (checked_lockTake site rb (by simp [RingBuffer.perform, h]))
  | false => exact exec_call_some (checked_lockTake site rb (by simp [RingBuffer.perform, h]))

theorem exec_lockTake_null (h : rb.lock = none) (f : Bool → StepProgram α) :
    (lockTake site >>= f).exec (RingStep.checked interrupted) rb =
      (f false).exec (RingStep.checked interrupted) rb :=
  exec_call_some (checked_lockTake site rb (by simp [RingBuffer.perform, h]))

theorem exec_add {a b : Nat} (h : a + b < 2 ^ 64) (f : Nat → StepProgram α) :
    (add a b >>= f).exec (RingStep.checked interrupted) rb =
      (f (a + b)).exec (RingStep.checked interrupted) rb := by
  rw [← addSize_eq h]
  exact exec_call_some (guarded_eq_some.mpr ⟨h, rfl⟩)

theorem exec_sub {a b : Nat} (hle : b ≤ a) (ha : a < 2 ^ 64) (f : Nat → StepProgram α) :
    (sub a b >>= f).exec (RingStep.checked interrupted) rb =
      (f (a - b)).exec (RingStep.checked interrupted) rb := by
  rw [← subSize_eq hle ha]
  exact exec_call_some (guarded_eq_some.mpr ⟨hle, rfl⟩)

theorem exec_mod {a b : Nat} (h : b ≠ 0) (f : Nat → StepProgram α) :
    (mod a b >>= f).exec (RingStep.checked interrupted) rb =
      (f (a % b)).exec (RingStep.checked interrupted) rb :=
  exec_call_some (guarded_eq_some.mpr ⟨h, rfl⟩)

end Checked

end Stepwise

end YaskawaComms.Logging
