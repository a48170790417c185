import YaskawaComms.Framework.Program
import YaskawaComms.Protocol.Wire

/-!
# Move goal payloads

The validator of variable-length move goals. The payload is the memory from the payload pointer
on; a load of that memory is a call, so an execution lists every byte range it reads. Lengths are
computed as in the source: products and sums in `size_t`, then cut to `uint32_t`.
-/

namespace YaskawaComms.Protocol

open Program

def sizeT (n : Nat) : Nat := n % 2 ^ 64
def uint32 (n : Nat) : Nat := n % 2 ^ 32

theorem sizeT_eq {n : Nat} (h : n < 2 ^ 64) : sizeT n = n := Nat.mod_eq_of_lt h
theorem uint32_eq {n : Nat} (h : n < 2 ^ 32) : uint32 n = n := Nat.mod_eq_of_lt h

/-- A range of bytes, counted from the payload pointer. -/
structure ByteRange where
  offset : Nat
  width : Nat
  deriving DecidableEq

def ByteRange.within (r : ByteRange) (size : Nat) : Prop := r.offset + r.width ≤ size

/-- Loads of little-endian numbers from the payload. -/
abbrev payloadSignature : Signature := ⟨ByteRange, fun _ => Nat⟩

abbrev PayloadProgram := Program payloadSignature

def load32 (offset : Nat) : PayloadProgram Nat := .call ⟨offset, 4⟩ .ret

section Fields

def numberOfAxesControlled (goal : Nat) : PayloadProgram Nat := load32 goal
def groupIndex (goal : Nat) : PayloadProgram Nat := load32 (goal + 4)
def trajectorySize (goal : Nat) : PayloadProgram Nat := load32 (goal + 8)

def moveGoalGetToleranceSizePtr (goal : Nat) : PayloadProgram Nat := do
  return sizeT (goal + sizeofMoveGoalPayload + sizeT ((← trajectorySize goal) * sizeofTrajectoryPoint))

def moveGoalCalcSize (trajSize tolSize : Nat) : Nat :=
  sizeT (sizeofMoveGoalPayload + sizeT (trajSize * sizeofTrajectoryPoint) + 4 +
    sizeT (tolSize * sizeofTolerance))

end Fields

/-- The comparison with `trajectory_size` is made only for a non-zero tolerance size. -/
def toleranceMismatch (goal toleranceSize : Nat) : PayloadProgram Bool :=
  if toleranceSize ≠ 0 then do
    return toleranceSize ≠ (← trajectorySize goal)
  else
    return false

/-- The result is the goal pointer, an offset from the payload pointer, or `none` for `NULL`. -/
def moveGoalFromPayload (size : UInt32) : PayloadProgram (Option Nat) := do
  if size.toNat < sizeofMoveGoalPayload then
    return none
  let goal := 0
  -- logged
  let _ ← numberOfAxesControlled goal
  let _ ← groupIndex goal
  let _ ← trajectorySize goal
  if (← trajectorySize goal) = 0 then
    return none
  let sizeToTolSize := uint32 (sizeT (sizeofMoveGoalPayload +
    sizeT ((← trajectorySize goal) * sizeofTrajectoryPoint)))
  if size.toNat < sizeT (sizeToTolSize + 4) then
    return none
  let toleranceSizePtr ← moveGoalGetToleranceSizePtr goal
  let toleranceSize ← load32 toleranceSizePtr
  if ← toleranceMismatch goal toleranceSize then
    let _ ← trajectorySize goal
    return none
  let requiredSize := uint32 (moveGoalCalcSize (← trajectorySize goal) toleranceSize)
  if size.toNat < requiredSize then
    let _ ← trajectorySize goal
    return none
  let _ ← numberOfAxesControlled goal
  let _ ← groupIndex goal
  let _ ← trajectorySize goal
  return some goal

section Execution

variable (data : Nat → UInt8)

def loadLE (r : ByteRange) : Nat :=
  ofLittleEndian ((List.range r.width).map fun i => data (r.offset + i))

/-- The payload answers every load; the state lists the ranges loaded so far. -/
def payloadHandle (r : payloadSignature.Call) (reads : List ByteRange) :
    Option (payloadSignature.Result r) × List ByteRange :=
  (some (loadLE data r), reads ++ [r])

@[simp] theorem exec_load32 {α : Type} (offset : Nat) (f : Nat → PayloadProgram α)
    (reads : List ByteRange) :
    (load32 offset >>= f).exec (payloadHandle data) reads =
      (f (loadLE data ⟨offset, 4⟩)).exec (payloadHandle data) (reads ++ [⟨offset, 4⟩]) :=
  exec_call_some rfl

theorem loadLE_lt (offset : Nat) : loadLE data ⟨offset, 4⟩ < 2 ^ 32 := by
  have h := ofLittleEndian_lt ((List.range 4).map fun i => data (offset + i))
  rw [List.length_map, List.length_range] at h
  exact h.trans_eq (by norm_num)

/-- What the validator returns and reads on a payload of `size` bytes. -/
def validateMoveGoal (size : UInt32) : Option (Option Nat) × List ByteRange :=
  (moveGoalFromPayload size).exec (payloadHandle data) []

def trajectoryCount : Nat := loadLE data ⟨8, 4⟩

/-- The number stored right after the trajectory, at its place in unbounded arithmetic. -/
def toleranceCount : Nat := loadLE data ⟨12 + 264 * trajectoryCount data, 4⟩

/-- The documented wire format of a move goal in the first `size` bytes. -/
structure WellFormedMoveGoal (size : Nat) : Prop where
  header : 12 ≤ size
  points : 1 ≤ trajectoryCount data
  trajectory : 12 + 264 * trajectoryCount data + 4 ≤ size
  matching : toleranceCount data = 0 ∨ toleranceCount data = trajectoryCount data
  tolerances : 12 + 264 * trajectoryCount data + 4 + 256 * toleranceCount data ≤ size

/-- The validator accepts exactly the well-formed payloads and stays inside the payload. -/
def ValidatesMoveGoal (size : UInt32) : Prop :=
  ((∃ goal, (validateMoveGoal data size).1 = some (some goal)) ↔
    WellFormedMoveGoal data size.toNat) ∧
  ∀ r ∈ (validateMoveGoal data size).2, r.within size.toNat

/-- A payload that reaches the length tests must not wrap the two lengths cut to `uint32_t`. -/
def LengthsFit (size : UInt32) : Prop :=
  12 ≤ size.toNat → 1 ≤ trajectoryCount data →
    (12 + 264 * trajectoryCount data) % 2 ^ 32 + 4 ≤ size.toNat →
    12 + 264 * trajectoryCount data < 2 ^ 32 ∧
      (toleranceCount data = trajectoryCount data → 16 + 520 * trajectoryCount data < 2 ^ 32)

theorem exec_toleranceMismatch {α : Type} (toleranceSize : Nat) (f : Bool → PayloadProgram α)
    (reads : List ByteRange) :
    (toleranceMismatch 0 toleranceSize >>= f).exec (payloadHandle data) reads =
      (f (toleranceSize ≠ 0 ∧ toleranceSize ≠ trajectoryCount data)).exec (payloadHandle data)
        (reads ++ if toleranceSize ≠ 0 then [⟨8, 4⟩] else []) := by
  by_cases hzero : toleranceSize = 0
  · simp [toleranceMismatch, hzero]
  · simp [toleranceMismatch, hzero, trajectorySize, trajectoryCount]

theorem trajectoryCount_lt : trajectoryCount data < 2 ^ 32 := loadLE_lt data 8
theorem toleranceCount_lt : toleranceCount data < 2 ^ 32 := loadLE_lt data _

theorem validateMoveGoal_eq (size : UInt32) :
    validateMoveGoal data size =
      let T := trajectoryCount data
      let tol := toleranceCount data
      let field : ByteRange := ⟨8, 4⟩
      let tests := [⟨0, 4⟩, ⟨4, 4⟩, field, field]
      let compared := if tol ≠ 0 then [field] else []
      let tolerance := tests ++ [field, field, ⟨12 + 264 * T, 4⟩] ++ compared
      if size.toNat < 12 then (some none, [])
      else if T = 0 then (some none, tests)
      else if size.toNat < (12 + 264 * T) % 2 ^ 32 + 4 then (some none, tests ++ [field])
      else if tol ≠ 0 ∧ tol ≠ T then (some none, tolerance ++ [field])
      else if size.toNat < (16 + 264 * T + 256 * tol) % 2 ^ 32 then
        (some none, tolerance ++ [field, field])
      else (some (some 0), tolerance ++ [field, ⟨0, 4⟩, ⟨4, 4⟩, field]) := by
  have hT := trajectoryCount_lt data
  have htol := toleranceCount_lt data
  have hpoints : sizeT (trajectoryCount data * 264) = 264 * trajectoryCount data := by
    rw [sizeT_eq (by omega), Nat.mul_comm]
  have hpieces : sizeT (toleranceCount data * 256) = 256 * toleranceCount data := by
    rw [sizeT_eq (by omega), Nat.mul_comm]
  have hprefix : sizeT (12 + 264 * trajectoryCount data) = 12 + 264 * trajectoryCount data :=
    sizeT_eq (by omega)
  have hcut : sizeT ((12 + 264 * trajectoryCount data) % 2 ^ 32 + 4) =
      (12 + 264 * trajectoryCount data) % 2 ^ 32 + 4 := sizeT_eq (by omega)
  have hall : sizeT (12 + 264 * trajectoryCount data + 4 + 256 * toleranceCount data) =
      16 + 264 * trajectoryCount data + 256 * toleranceCount data := by
    rw [sizeT_eq (by omega)]
    omega
  have hfield : loadLE data ⟨8, 4⟩ = trajectoryCount data := rfl
  have htolerance : loadLE data ⟨12 + 264 * trajectoryCount data, 4⟩ = toleranceCount data := rfl
  unfold validateMoveGoal moveGoalFromPayload
  simp only [numberOfAxesControlled, groupIndex, trajectorySize, moveGoalGetToleranceSizePtr,
    moveGoalCalcSize, sizeofMoveGoalPayload, sizeofTrajectoryPoint, sizeofTolerance, uint32,
    pure_eq_ret, exec_ite, exec_ret, bind_assoc, ret_bind, exec_load32, zero_add,
    exec_toleranceMismatch, decide_eq_true_eq, hpoints, hpieces, hprefix, hfield, htolerance, hcut,
    hall, List.nil_append, List.cons_append, List.append_assoc]

theorem validateMoveGoal_accepts_iff (size : UInt32) :
    (∃ goal, (validateMoveGoal data size).1 = some (some goal)) ↔
      12 ≤ size.toNat ∧ trajectoryCount data ≠ 0 ∧
        (12 + 264 * trajectoryCount data) % 2 ^ 32 + 4 ≤ size.toNat ∧
        (toleranceCount data = 0 ∨ toleranceCount data = trajectoryCount data) ∧
        (16 + 264 * trajectoryCount data + 256 * toleranceCount data) % 2 ^ 32 ≤ size.toNat := by
  rw [validateMoveGoal_eq]
  dsimp only
  split_ifs with hheader hpoints hprefix hmatch hrequired <;> simp <;> omega

theorem WellFormedMoveGoal.validated {size : UInt32} (h : WellFormedMoveGoal data size.toNat) :
    (validateMoveGoal data size).1 = some (some 0) := by
  have hsize := size.toNat_lt
  have hpoints := h.points
  have hmatching := h.matching
  have htrajectory := h.trajectory
  have htolerances := h.tolerances
  have hfixed : (12 + 264 * trajectoryCount data) % 2 ^ 32 = 12 + 264 * trajectoryCount data :=
    Nat.mod_eq_of_lt (by omega)
  have hall : (16 + 264 * trajectoryCount data + 256 * toleranceCount data) % 2 ^ 32 =
      16 + 264 * trajectoryCount data + 256 * toleranceCount data := Nat.mod_eq_of_lt (by omega)
  rw [validateMoveGoal_eq]
  dsimp only
  rw [hfixed, hall, if_neg (Nat.not_lt.mpr h.header), if_neg (by omega), if_neg (by omega),
    if_neg (by omega), if_neg (by omega)]

theorem validateMoveGoal_reads_iff (size : UInt32) :
    (∀ r ∈ (validateMoveGoal data size).2, r.within size.toNat) ↔
      (12 ≤ size.toNat → trajectoryCount data ≠ 0 →
        (12 + 264 * trajectoryCount data) % 2 ^ 32 + 4 ≤ size.toNat →
        12 + 264 * trajectoryCount data + 4 ≤ size.toNat) := by
  rw [validateMoveGoal_eq]
  dsimp only
  split_ifs with hheader hpoints hprefix hmatch hrequired <;> simp [ByteRange.within] <;> omega

theorem moveGoalFromPayload_correct_iff (size : UInt32) :
    ValidatesMoveGoal data size ↔ LengthsFit data size := by
  have hsize := size.toNat_lt
  have hT := trajectoryCount_lt data
  have htol := toleranceCount_lt data
  have hwell : WellFormedMoveGoal data size.toNat ↔
      12 ≤ size.toNat ∧ 1 ≤ trajectoryCount data ∧
        12 + 264 * trajectoryCount data + 4 ≤ size.toNat ∧
        (toleranceCount data = 0 ∨ toleranceCount data = trajectoryCount data) ∧
        12 + 264 * trajectoryCount data + 4 + 256 * toleranceCount data ≤ size.toNat :=
    ⟨fun h => ⟨h.header, h.points, h.trajectory, h.matching, h.tolerances⟩,
      fun ⟨hheader, hpoints, htraj, hmatch, htols⟩ => ⟨hheader, hpoints, htraj, hmatch, htols⟩⟩
  rw [ValidatesMoveGoal, validateMoveGoal_accepts_iff, validateMoveGoal_reads_iff, hwell, LengthsFit]
  generalize trajectoryCount data = T at *
  generalize toleranceCount data = tol at *
  generalize size.toNat = n at *
  constructor
  · rintro ⟨haccept, hreads⟩ hheader hpoints hprefix
    have htraj := hreads hheader (by omega) hprefix
    refine ⟨by omega, fun hmatch => ?_⟩
    by_contra hwrap
    -- the wrapped length is not above the checked prefix, so the payload is accepted
    have hlow : (16 + 264 * T + 256 * tol) % 2 ^ 32 ≤ n := by
      subst hmatch
      have hmod : (16 + 264 * tol + 256 * tol) % 2 ^ 32 = 16 + 520 * tol - 2 ^ 32 := by omega
      omega
    have hall := haccept.mp ⟨hheader, by omega, hprefix, Or.inr hmatch, hlow⟩
    omega
  · intro hfit
    constructor
    · constructor
      · rintro ⟨hheader, hpoints, hprefix, hmatch, hlow⟩
        have h := hfit hheader (by omega) hprefix
        omega
      · rintro ⟨hheader, hpoints, htraj, hmatch, hall⟩
        refine ⟨hheader, by omega, by omega, hmatch, by omega⟩
    · intro hheader hpoints hprefix
      have h := hfit hheader (by omega) hprefix
      omega

/-- A payload that announces 16268816 points, whose length is 140 in 32 bits. -/
def wrappedMoveGoal (i : Nat) : UInt8 := [0, 0, 0, 0, 0, 0, 0, 0, 0x10, 0x3e, 0xf8].getD i 0

/-- Its first 200 bytes are accepted, and the tolerance count is read far behind them. -/
theorem moveGoalFromPayload_wraps :
    (validateMoveGoal wrappedMoveGoal 200).1 = some (some 0) ∧
      ⟨4294967436, 4⟩ ∈ (validateMoveGoal wrappedMoveGoal 200).2 ∧
      ¬ ValidatesMoveGoal wrappedMoveGoal 200 := by
  have hread : ⟨4294967436, 4⟩ ∈ (validateMoveGoal wrappedMoveGoal 200).2 := by decide
  refine ⟨by decide, hread, fun h => ?_⟩
  have hwithin := h.2 _ hread
  simp [ByteRange.within] at hwithin

end Execution

end YaskawaComms.Protocol
