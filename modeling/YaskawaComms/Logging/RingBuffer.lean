import YaskawaComms.Framework.Program
import YaskawaComms.Framework.Fifo
import Mathlib.Algebra.Group.Nat.Defs

/-!
# The ring buffer operations

The operations of the log ring buffer, as programs over the memory accesses and the lock calls
they make. Every load and store of a field, every copy and every lock call is one call; it is
tagged with the function that contains it. Buffer objects and data pointers are valid.
-/

namespace YaskawaComms.Logging

/-- `size_t` arithmetic wraps at `2^64`. -/
def addSize (a b : Nat) : Nat := (a + b) % 2 ^ 64

def subSize (a b : Nat) : Nat := (a + 2 ^ 64 - b) % 2 ^ 64

theorem addSize_eq {a b : Nat} (h : a + b < 2 ^ 64) : addSize a b = a + b :=
  Nat.mod_eq_of_lt h

theorem subSize_eq {a b : Nat} (hb : b ≤ a) (ha : a < 2 ^ 64) : subSize a b = a - b := by
  have h : a + 2 ^ 64 - b = (a - b) + 2 ^ 64 := by omega
  rw [subSize, h, Nat.add_mod_right, Nat.mod_eq_of_lt (by omega)]

inductive RingFunction where
  | freeSpaceInternal | freeSpace | usedSpaceInner | usedSpace
  | writeInner | writeExactN | writeN | readN
  deriving DecidableEq

inductive RingAccess where
  | lockTake | lockGive
  | loadSize | loadHead | loadTail
  | storeHead (value : Nat) | storeTail (value : Nat)
  /-- `memcpy` of a block into the buffer at a position, and out of it. -/
  | copyIn (start : Nat) (block : List UInt8)
  | copyOut (start count : Nat)
  deriving DecidableEq

abbrev RingAccess.Result : RingAccess → Type
  | .lockTake => Bool
  | .loadSize | .loadHead | .loadTail => Nat
  | .copyOut _ _ => List UInt8
  | .lockGive | .storeHead _ | .storeTail _ | .copyIn _ _ => Unit

/-- An access together with the function whose body contains it. -/
structure RingCall where
  site : RingFunction
  access : RingAccess
  deriving DecidableEq

abbrev ringSignature : Signature := ⟨RingCall, fun c => c.access.Result⟩

abbrev RingProgram := Program ringSignature

section Accesses

variable (site : RingFunction)

def lockTake : RingProgram Bool := .call ⟨site, .lockTake⟩ .ret
def lockGive : RingProgram Unit := .call ⟨site, .lockGive⟩ .ret
def loadSize : RingProgram Nat := .call ⟨site, .loadSize⟩ .ret
def loadHead : RingProgram Nat := .call ⟨site, .loadHead⟩ .ret
def loadTail : RingProgram Nat := .call ⟨site, .loadTail⟩ .ret
def storeHead (value : Nat) : RingProgram Unit := .call ⟨site, .storeHead value⟩ .ret
def storeTail (value : Nat) : RingProgram Unit := .call ⟨site, .storeTail value⟩ .ret
def copyIn (start : Nat) (block : List UInt8) : RingProgram Unit :=
  .call ⟨site, .copyIn start block⟩ .ret
def copyOut (start count : Nat) : RingProgram (List UInt8) :=
  .call ⟨site, .copyOut start count⟩ .ret

end Accesses

def ringBufferFreeSpaceInternal : RingProgram Nat := do
  let head ← loadHead .freeSpaceInternal
  if (← loadTail .freeSpaceInternal) ≤ head then
    let size ← loadSize .freeSpaceInternal
    let tail ← loadTail .freeSpaceInternal
    return subSize (subSize size (subSize head tail)) 1
  else
    let tail ← loadTail .freeSpaceInternal
    return subSize (subSize tail head) 1

def ringBufferFreeSpace : RingProgram Nat := do
  if !(← lockTake .freeSpace) then
    return 0
  let freeSpace ← ringBufferFreeSpaceInternal
  lockGive .freeSpace
  return freeSpace

def ringBufferUsedSpaceInner : RingProgram Nat := do
  let head ← loadHead .usedSpaceInner
  if (← loadTail .usedSpaceInner) ≤ head then
    let head ← loadHead .usedSpaceInner
    let tail ← loadTail .usedSpaceInner
    return subSize head tail
  else
    let size ← loadSize .usedSpaceInner
    let tail ← loadTail .usedSpaceInner
    let head ← loadHead .usedSpaceInner
    return addSize (subSize size tail) head

def ringBufferUsedSpace : RingProgram Nat := do
  if !(← lockTake .usedSpace) then
    return 0
  let usedSpace ← ringBufferUsedSpaceInner
  lockGive .usedSpace
  return usedSpace

/-- `data` points to at least `size` bytes. -/
def ringBufferWriteInner (data : List UInt8) (size : Nat) : RingProgram Nat := do
  let mut firstChunk := size
  let head ← loadHead .writeInner
  if (← loadSize .writeInner) < addSize head size then
    let rbSize ← loadSize .writeInner
    let head ← loadHead .writeInner
    firstChunk := subSize rbSize head
  let head ← loadHead .writeInner
  copyIn .writeInner head (data.take firstChunk)
  if firstChunk < size then
    copyIn .writeInner 0 ((data.drop firstChunk).take (subSize size firstChunk))
  let head ← loadHead .writeInner
  let rbSize ← loadSize .writeInner
  storeHead .writeInner (addSize head size % rbSize)
  return size

def ringBufferWriteExactN (data : List UInt8) (size : Nat) : RingProgram Nat := do
  if size = 0 then
    return 0
  if !(← lockTake .writeExactN) then
    return 0
  let freeSpace ← ringBufferFreeSpaceInternal
  let bytesToWrite := if size ≤ freeSpace then size else 0
  if bytesToWrite = 0 then
    lockGive .writeExactN
    return 0
  let written ← ringBufferWriteInner data bytesToWrite
  lockGive .writeExactN
  return written

def ringBufferWriteN (data : List UInt8) (size : Nat) : RingProgram Nat := do
  if size = 0 then
    return 0
  if !(← lockTake .writeN) then
    return 0
  let freeSpace ← ringBufferFreeSpaceInternal
  let bytesToWrite := if size ≤ freeSpace then size else freeSpace
  if bytesToWrite = 0 then
    lockGive .writeN
    return 0
  let written ← ringBufferWriteInner data bytesToWrite
  lockGive .writeN
  return written

/-- The second component is what the call stores in the caller's buffer. -/
def ringBufferReadN (size : Nat) : RingProgram (Nat × List UInt8) := do
  if size = 0 then
    return (0, [])
  -- lock_take is commented out in the source
  let usedSpace ← ringBufferUsedSpaceInner
  let bytesToRead := if size ≤ usedSpace then size else usedSpace
  if bytesToRead = 0 then
    lockGive .readN
    return (0, [])
  let mut firstChunk := bytesToRead
  let tail ← loadTail .readN
  if (← loadSize .readN) < addSize tail bytesToRead then
    let rbSize ← loadSize .readN
    let tail ← loadTail .readN
    firstChunk := subSize rbSize tail
  let tail ← loadTail .readN
  let mut data ← copyOut .readN tail firstChunk
  if firstChunk < bytesToRead then
    let wrapped ← copyOut .readN 0 (subSize bytesToRead firstChunk)
    data := data ++ wrapped
  let tail ← loadTail .readN
  let rbSize ← loadSize .readN
  storeTail .readN (addSize tail bytesToRead % rbSize)
  return (bytesToRead, data)

/-- One call of the ring buffer's interface. -/
inductive RingOp where
  | writeN (data : List UInt8)
  | writeExactN (data : List UInt8)
  | readN (size : Nat)
  | usedSpace
  | freeSpace
  deriving DecidableEq

/-- The call's return value, with the bytes that a read hands over. -/
def RingOp.code : RingOp → RingProgram (Nat × List UInt8)
  | .writeN data => do return (← ringBufferWriteN data data.length, [])
  | .writeExactN data => do return (← ringBufferWriteExactN data data.length, [])
  | .readN size => ringBufferReadN size
  | .usedSpace => do return (← ringBufferUsedSpace, [])
  | .freeSpace => do return (← ringBufferFreeSpace, [])

structure RingBuffer where
  buffer : List UInt8
  size : Nat
  head : Nat
  tail : Nat
  /-- The value of the semaphore that `lock` points to, if it points to one. -/
  lock : Option Nat
  deriving DecidableEq

/-- `lock_create`, whose allocation or `sem_init` may fail. -/
def lockCreate (created : Bool) : Option Nat := if created then some 1 else none

def ringBufferInitialize (rb : RingBuffer) (size : Nat) (created : Bool) : Int × RingBuffer :=
  if size = 0 then
    (-1, rb)
  else
    let lock := lockCreate created
    (if lock = none then -1 else 0, ⟨List.replicate size 0, size, 0, 0, lock⟩)

/-- The effect of one access. `lock_take` has no outcome while the semaphore is `0`, unless the
wait is interrupted. -/
def RingBuffer.perform (interrupted : Bool) (rb : RingBuffer) :
    (c : RingCall) → Option (c.access.Result × RingBuffer)
  | ⟨_, .lockTake⟩ =>
      match rb.lock with
      | none => some (false, rb)
      | some value =>
          if interrupted then some (false, rb)
          else if value = 0 then none
          else some (true, { rb with lock := some (value - 1) })
  | ⟨_, .lockGive⟩ => some ((), { rb with lock := rb.lock.map (· + 1) })
  | ⟨_, .loadSize⟩ => some (rb.size, rb)
  | ⟨_, .loadHead⟩ => some (rb.head, rb)
  | ⟨_, .loadTail⟩ => some (rb.tail, rb)
  | ⟨_, .storeHead value⟩ => some ((), { rb with head := value })
  | ⟨_, .storeTail value⟩ => some ((), { rb with tail := value })
  | ⟨_, .copyIn start block⟩ => some ((), { rb with buffer := overwrite rb.buffer start block })
  | ⟨_, .copyOut start count⟩ => some ((rb.buffer.drop start).take count, rb)

/-- The handler of calls that are made one after another. -/
def RingBuffer.handle (c : ringSignature.Call) (rb : RingBuffer) :
    Option (ringSignature.Result c) × RingBuffer :=
  match rb.perform false c with
  | some (r, rb') => (some r, rb')
  | none => (none, rb)

end YaskawaComms.Logging
