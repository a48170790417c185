import YaskawaComms.Protocol.MoveGoalLayout

/-!
# Copies of move goals

`move_goal_deep_copy` reads two sizes from the source, one of them located by the other, and copies
as many bytes as they announce.
-/

namespace YaskawaComms.Protocol

open Program

/-- Loads from the source and the copy into the destination. -/
inductive CopyCall where
  | load (range : ByteRange)
  | memcpy (dest src n : Nat)
  deriving DecidableEq

abbrev copySignature : Signature :=
  ⟨CopyCall, fun c => match c with
    | .load _ => Nat
    | .memcpy _ _ _ => Unit⟩

abbrev CopyProgram := Program copySignature

/-- A piece of code that reads the source. -/
def fromSource {α : Type} : PayloadProgram α → CopyProgram α
  | .ret a => .ret a
  | .call range next => .call (.load range) fun n => fromSource (next n)

def memcpy (dest src n : Nat) : CopyProgram Unit := .call (.memcpy dest src n) .ret

/-- The pointers are offsets into their buffers, or `none` for `NULL`. -/
def moveGoalDeepCopy (src destBuffer : Option Nat) (destSize : UInt32) : CopyProgram (Option Nat) :=
  match src, destBuffer with
  | some src, some dest => do
      let toleranceSize ← fromSource (moveGoalGetToleranceSizePtr src >>= load32)
      let requiredSize := uint32 (moveGoalCalcSize (← fromSource (trajectorySize src)) toleranceSize)
      if destSize.toNat < requiredSize then
        return none
      memcpy dest src requiredSize
      -- logged
      let _ ← fromSource (trajectorySize src)
      return some dest
  | _, _ => return none

/-- The state is the destination's memory; it does not overlap the source. -/
def copyHandle (source : Nat → UInt8) (c : copySignature.Call) (memory : Nat → UInt8) :
    Option (copySignature.Result c) × (Nat → UInt8) :=
  match c with
  | .load range => (some (loadLE source range), memory)
  | .memcpy dest src n =>
      (some (), fun i => if dest ≤ i ∧ i < dest + n then source (src + (i - dest)) else memory i)

/-- What `move_goal_deep_copy` returns and what it leaves in the destination. -/
def deepCopied (source dest : Nat → UInt8) (destSize : UInt32) :
    Option (Option Nat) × (Nat → UInt8) :=
  (moveGoalDeepCopy (some 0) (some 0) destSize).exec (copyHandle source) dest

section Execution

variable {α β : Type} {source memory : Nat → UInt8}

theorem exec_fromSource {p : PayloadProgram α} {a : α} {reads : List ByteRange}
    (h : (p.exec (payloadHandle source) reads).1 = some a) :
    (fromSource p).exec (copyHandle source) memory = (some a, memory) := by
  induction p generalizing reads with
  | ret b =>
      obtain rfl : b = a := Option.some.inj h
      rfl
  | call range next ih =>
      have hanswer : payloadHandle source range reads =
        (some (loadLE source range), reads ++ [range]) := rfl
      rw [exec_call_some hanswer] at h
      have hcopied : copyHandle source (.load range) memory = (some (loadLE source range), memory) := rfl
      rw [fromSource, exec_call_some hcopied]
      exact ih _ h

theorem exec_fromSource_bind {p : PayloadProgram α} {a : α} {f : α → CopyProgram β}
    (h : payloadResult source p = some a) :
    (fromSource p >>= f).exec (copyHandle source) memory =
      (f a).exec (copyHandle source) memory :=
  exec_bind_some (exec_fromSource h)

/-- The first bytes of one memory, followed by the rest of another one. -/
def splice (n : Nat) (source dest : Nat → UInt8) (i : Nat) : UInt8 :=
  if i < n then source i else dest i

theorem splice_below {n i : Nat} {source dest : Nat → UInt8} (h : i < n) :
    splice n source dest i = source i := if_pos h

theorem splice_above {n i : Nat} {source dest : Nat → UInt8} (h : n ≤ i) :
    splice n source dest i = dest i := if_neg (Nat.not_lt.mpr h)

theorem deepCopied_eq (source dest : Nat → UInt8) (destSize : UInt32) :
    deepCopied source dest destSize =
      let n := uint32 (16 + 264 * trajectoryCount source + 256 * toleranceCount source)
      if destSize.toNat < n then (some none, dest)
      else (some (some 0), splice n source dest) := by
  have htrajectory : payloadResult source (trajectorySize 0) = some (trajectoryCount source) := rfl
  unfold deepCopied moveGoalDeepCopy
  dsimp only
  rw [exec_fromSource_bind payloadResult_toleranceSize, exec_fromSource_bind htrajectory,
    moveGoalCalcSize_eq (trajectoryCount_lt source) (toleranceCount_lt source), exec_ite]
  unfold memcpy
  rw [call_bind, exec_call_some (r := ()) rfl, ret_bind, exec_fromSource_bind htrajectory]
  simp only [Nat.zero_le, true_and, Nat.zero_add, Nat.sub_zero]
  rfl

end Execution

/-- The access macros read the same in both buffers. -/
structure ReadsAlike (data source : Nat → UInt8) : Prop where
  axes : payloadResult data (numberOfAxesControlled 0) = payloadResult source (numberOfAxesControlled 0)
  group : payloadResult data (groupIndex 0) = payloadResult source (groupIndex 0)
  trajectorySize : payloadResult data (trajectorySize 0) = payloadResult source (trajectorySize 0)
  trajectory : ∀ i, i < trajectoryCount source →
    TrajectoryPoint.layout.decode (window data
      (moveGoalGetTrajectory 0 + i * sizeofTrajectoryPoint) sizeofTrajectoryPoint) =
    TrajectoryPoint.layout.decode (window source
      (moveGoalGetTrajectory 0 + i * sizeofTrajectoryPoint) sizeofTrajectoryPoint)
  toleranceSize : payloadResult data (moveGoalGetToleranceSizePtr 0 >>= load32) =
    payloadResult source (moveGoalGetToleranceSizePtr 0 >>= load32)
  tolerances : ∃ start, payloadResult data (moveGoalGetTolerance 0) = some start ∧
    payloadResult source (moveGoalGetTolerance 0) = some start ∧
    ∀ i, i < toleranceCount source →
      Tolerance.layout.decode (window data (start + i * sizeofTolerance) sizeofTolerance) =
      Tolerance.layout.decode (window source (start + i * sizeofTolerance) sizeofTolerance)

section Agreement

variable {data source : Nat → UInt8} {n start width : Nat}

theorem window_congr (hagree : ∀ i, i < n → data i = source i) (hend : start + width ≤ n) :
    window data start width = window source start width := by
  apply List.map_congr_left
  intro i hi
  have hlt := List.mem_range.mp hi
  exact hagree (start + i) (by omega)

theorem loadLE_congr (hagree : ∀ i, i < n → data i = source i) (hend : start + width ≤ n) :
    loadLE data ⟨start, width⟩ = loadLE source ⟨start, width⟩ :=
  congrArg ofLittleEndian (window_congr hagree hend)

theorem counts_congr
    (hagree : ∀ i, i < 16 + 264 * trajectoryCount source + 256 * toleranceCount source →
      data i = source i) :
    trajectoryCount data = trajectoryCount source ∧ toleranceCount data = toleranceCount source := by
  have htrajectory : trajectoryCount data = trajectoryCount source :=
    loadLE_congr hagree (by omega)
  refine ⟨htrajectory, ?_⟩
  rw [toleranceCount, htrajectory]
  exact loadLE_congr hagree (by omega)

theorem WellFormedMoveGoal.congr {size : Nat} (hwell : WellFormedMoveGoal source size)
    (hagree : ∀ i, i < 16 + 264 * trajectoryCount source + 256 * toleranceCount source →
      data i = source i)
    (hn : 16 + 264 * trajectoryCount source + 256 * toleranceCount source ≤ n) :
    WellFormedMoveGoal data n := by
  obtain ⟨htrajectory, htolerance⟩ := counts_congr hagree
  constructor
  · omega
  · rw [htrajectory]
    exact hwell.points
  · omega
  · rw [htrajectory, htolerance]
    exact hwell.matching
  · omega

theorem readsAlike
    (hagree : ∀ i, i < 16 + 264 * trajectoryCount source + 256 * toleranceCount source →
      data i = source i) : ReadsAlike data source := by
  obtain ⟨htrajectory, htolerance⟩ := counts_congr hagree
  constructor
  · exact congrArg some (loadLE_congr hagree (by omega))
  · exact congrArg some (loadLE_congr hagree (by omega))
  · exact congrArg some htrajectory
  · intro i hi
    unfold moveGoalGetTrajectory sizeofMoveGoalPayload sizeofTrajectoryPoint
    rw [window_congr hagree (by omega)]
  · rw [payloadResult_toleranceSize, payloadResult_toleranceSize, htolerance]
  · refine ⟨12 + 264 * trajectoryCount source + 4, ?_, payloadResult_tolerance, ?_⟩
    · rw [payloadResult_tolerance, htrajectory]
    · intro i hi
      unfold sizeofTolerance
      rw [window_congr hagree (by omega)]

end Agreement

/-- The destination holds a usable copy, and the rest of it is as before. -/
structure CopiedInto (source dest : Nat → UInt8) (destSize : UInt32) (n : Nat)
    (out : Option (Option Nat) × (Nat → UInt8)) : Prop where
  returned : out.1 = some (some 0)
  copied : ∀ i, i < n → out.2 i = source i
  untouched : ∀ i, n ≤ i → out.2 i = dest i
  accepted : (validateMoveGoal out.2 destSize).1 = some (some 0)
  alike : ReadsAlike out.2 source

theorem copiedInto_splice {source dest : Nat → UInt8} {size n : Nat} {destSize : UInt32}
    (hwell : WellFormedMoveGoal source size)
    (hn : 16 + 264 * trajectoryCount source + 256 * toleranceCount source = n)
    (hfits : n ≤ destSize.toNat) :
    CopiedInto source dest destSize n (some (some 0), splice n source dest) := by
  have hcopied : ∀ i, i < n → splice n source dest i = source i := fun i hi => splice_below hi
  have huntouched : ∀ i, n ≤ i → splice n source dest i = dest i := fun i hi => splice_above hi
  generalize splice n source dest = memory at hcopied huntouched
  subst hn
  exact ⟨rfl, hcopied, huntouched, (hwell.congr hcopied hfits).validated, readsAlike hcopied⟩

/-- A well-formed move goal is copied completely, or, exactly if it does not fit, not at all. -/
theorem moveGoalDeepCopy_copies {source : Nat → UInt8} {size : Nat}
    (hwell : WellFormedMoveGoal source size) (hsize : size < 2 ^ 32) (dest : Nat → UInt8)
    (destSize : UInt32) :
    let n := moveGoalCalcSize (trajectoryCount source) (toleranceCount source)
    (destSize.toNat < n → deepCopied source dest destSize = (some none, dest)) ∧
      (n ≤ destSize.toNat →
        CopiedInto source dest destSize n (deepCopied source dest destSize)) := by
  intro n
  have hn : 16 + 264 * trajectoryCount source + 256 * toleranceCount source = n :=
    (moveGoalCalcSize_eq (trajectoryCount_lt source) (toleranceCount_lt source)).symm
  have hcut : uint32 n = n := by
    have htotal := hwell.tolerances
    exact uint32_eq (by omega)
  rw [deepCopied_eq, hn, hcut]
  dsimp only
  constructor
  · intro hsmall
    rw [if_pos hsmall]
  · intro hfits
    rw [if_neg (Nat.not_lt.mpr hfits)]
    exact copiedInto_splice hwell hn hfits

/-- One point and no tolerance, copied into a buffer of 300 bytes. -/
theorem moveGoalDeepCopy_copies_one :
    let source : Nat → UInt8 := fun i => if i = 8 then 1 else 0
    CopiedInto source (fun _ => 7) 300 280 (deepCopied source (fun _ => 7) 300) := by
  intro source
  have hwell : WellFormedMoveGoal source 280 := ⟨by decide, by decide, by decide, by decide, by decide⟩
  have hn : moveGoalCalcSize (trajectoryCount source) (toleranceCount source) = 280 := by decide
  have hcopied := (moveGoalDeepCopy_copies hwell (by decide) (fun _ => 7) 300).2
  simp only [hn] at hcopied
  exact hcopied (by decide)

end YaskawaComms.Protocol
