import YaskawaComms.Framework.Codec
import YaskawaComms.Protocol.MoveGoal

/-!
# Move goals on the wire

What a client sends for a move goal, and what the access macros find in it.
-/

namespace YaskawaComms.Protocol

open Program

def numberOfDof : Nat := 8

/-- `double[NUMBER_OF_DOF]`; a number is its bit pattern. -/
abbrev JointValues := Vector UInt64 numberOfDof

def jointValues : Codec JointValues := Codec.uint64.array numberOfDof

structure Duration where
  sec : UInt32
  nanos : UInt32
  deriving DecidableEq

def Duration.layout : Codec Duration :=
  (Codec.uint32.pair Codec.uint32).map (fun p => ⟨p.1, p.2⟩) (fun d => (d.sec, d.nanos)) fun _ => rfl

structure TrajectoryPoint where
  positions : JointValues
  velocities : JointValues
  accelerations : JointValues
  torque : JointValues
  timeFromStart : Duration
  deriving DecidableEq

def TrajectoryPoint.layout : Codec TrajectoryPoint :=
  (jointValues.pair (jointValues.pair (jointValues.pair (jointValues.pair Duration.layout)))).map
    (fun p => ⟨p.1, p.2.1, p.2.2.1, p.2.2.2.1, p.2.2.2.2⟩)
    (fun p => (p.positions, p.velocities, p.accelerations, p.torque, p.timeFromStart)) fun _ => rfl

structure Tolerance where
  positions : JointValues
  velocities : JointValues
  accelerations : JointValues
  torque : JointValues
  deriving DecidableEq

def Tolerance.layout : Codec Tolerance :=
  (jointValues.pair (jointValues.pair (jointValues.pair jointValues))).map
    (fun p => ⟨p.1, p.2.1, p.2.2.1, p.2.2.2⟩)
    (fun p => (p.positions, p.velocities, p.accelerations, p.torque)) fun _ => rfl

theorem TrajectoryPoint.layout_size : TrajectoryPoint.layout.size = sizeofTrajectoryPoint := rfl

theorem Tolerance.layout_size : Tolerance.layout.size = sizeofTolerance := rfl

/-- A move goal with at least one point and a tolerance for none or all of them. -/
structure MoveGoal where
  numberOfAxesControlled : UInt32
  groupIndex : UInt32
  trajectory : List TrajectoryPoint
  tolerances : List Tolerance
  points : 1 ≤ trajectory.length
  matching : tolerances.length = 0 ∨ tolerances.length = trajectory.length

/-- The documented wire format. -/
def MoveGoal.payload (goal : MoveGoal) : List UInt8 :=
  littleEndian 4 goal.numberOfAxesControlled.toNat ++ littleEndian 4 goal.groupIndex.toNat ++
    littleEndian 4 goal.trajectory.length ++ TrajectoryPoint.layout.encodeAll goal.trajectory ++
    littleEndian 4 goal.tolerances.length ++ Tolerance.layout.encodeAll goal.tolerances

section Macros

def moveGoalGetTrajectory (goal : Nat) : Nat := goal + sizeofMoveGoalPayload

def moveGoalGetTolerance (goal : Nat) : PayloadProgram Nat := do
  return (← moveGoalGetToleranceSizePtr goal) + 4

end Macros

/-- What a piece of code returns that reads the payload. -/
def payloadResult {α : Type} (data : Nat → UInt8) (p : PayloadProgram α) : Option α :=
  (p.exec (payloadHandle data) []).1

/-- The goal at a pointer into the payload reads as this goal, field by field and macro by macro. -/
structure ReadsGoal (data : Nat → UInt8) (pointer : Nat) (goal : MoveGoal) : Prop where
  axes : payloadResult data (numberOfAxesControlled pointer) = some goal.numberOfAxesControlled.toNat
  group : payloadResult data (groupIndex pointer) = some goal.groupIndex.toNat
  trajectorySize : payloadResult data (trajectorySize pointer) = some goal.trajectory.length
  trajectory : ∀ i point, goal.trajectory[i]? = some point →
    TrajectoryPoint.layout.decode (window data
      (moveGoalGetTrajectory pointer + i * sizeofTrajectoryPoint) sizeofTrajectoryPoint) = point
  toleranceSize : payloadResult data (moveGoalGetToleranceSizePtr pointer >>= load32) =
    some goal.tolerances.length
  tolerances : ∃ start, payloadResult data (moveGoalGetTolerance pointer) = some start ∧
    ∀ i tolerance, goal.tolerances[i]? = some tolerance →
      Tolerance.layout.decode (window data (start + i * sizeofTolerance) sizeofTolerance) = tolerance

section Payload

variable {goal : MoveGoal} {data : Nat → UInt8}

theorem MoveGoal.payload_length (goal : MoveGoal) :
    goal.payload.length = 16 + 264 * goal.trajectory.length + 256 * goal.tolerances.length := by
  simp only [payload, List.length_append, littleEndian_length, Codec.encodeAll_length,
    TrajectoryPoint.layout_size, Tolerance.layout_size, sizeofTrajectoryPoint, sizeofTolerance]
  omega

theorem MoveGoal.tolerances_le (goal : MoveGoal) : goal.tolerances.length ≤ goal.trajectory.length := by
  rcases goal.matching with hnone | hall
  · omega
  · omega

theorem moveGoalCalcSize_eq {trajSize tolSize : Nat} (htraj : trajSize < 2 ^ 32)
    (htol : tolSize < 2 ^ 32) :
    moveGoalCalcSize trajSize tolSize = 16 + 264 * trajSize + 256 * tolSize := by
  unfold moveGoalCalcSize sizeofMoveGoalPayload sizeofTrajectoryPoint sizeofTolerance
  rw [sizeT_eq (n := trajSize * 264) (by omega), sizeT_eq (n := tolSize * 256) (by omega),
    sizeT_eq (by omega)]
  omega

theorem exec_moveGoalGetToleranceSizePtr {α : Type} (f : Nat → PayloadProgram α)
    (reads : List ByteRange) :
    (moveGoalGetToleranceSizePtr 0 >>= f).exec (payloadHandle data) reads =
      (f (12 + 264 * trajectoryCount data)).exec (payloadHandle data) (reads ++ [⟨8, 4⟩]) := by
  have hlt := trajectoryCount_lt data
  have hpointer : sizeT (0 + sizeofMoveGoalPayload +
      sizeT (trajectoryCount data * sizeofTrajectoryPoint)) = 12 + 264 * trajectoryCount data := by
    unfold sizeofMoveGoalPayload sizeofTrajectoryPoint
    rw [sizeT_eq (n := trajectoryCount data * 264) (by omega), sizeT_eq (by omega)]
    omega
  have hfield : loadLE data ⟨0 + 8, 4⟩ = trajectoryCount data := rfl
  unfold moveGoalGetToleranceSizePtr trajectorySize
  rw [Program.bind_assoc, exec_load32, hfield, pure_eq_ret, ret_bind, hpointer]

theorem payloadResult_toleranceSize :
    payloadResult data (moveGoalGetToleranceSizePtr 0 >>= load32) = some (toleranceCount data) := by
  rw [payloadResult, exec_moveGoalGetToleranceSizePtr]
  rfl

theorem payloadResult_tolerance :
    payloadResult data (moveGoalGetTolerance 0) = some (12 + 264 * trajectoryCount data + 4) := by
  rw [payloadResult, moveGoalGetTolerance, exec_moveGoalGetToleranceSizePtr]
  rfl

/-- The parts of the payload, at their places in memory. -/
structure MoveGoal.Placed (goal : MoveGoal) (data : Nat → UInt8) : Prop where
  axes : loadLE data ⟨0, 4⟩ = goal.numberOfAxesControlled.toNat
  group : loadLE data ⟨4, 4⟩ = goal.groupIndex.toNat
  trajectoryCount : trajectoryCount data = goal.trajectory.length
  trajectory : HoldsBytes data 12 (TrajectoryPoint.layout.encodeAll goal.trajectory)
  toleranceCount : toleranceCount data = goal.tolerances.length
  tolerances : HoldsBytes data (16 + 264 * goal.trajectory.length)
    (Tolerance.layout.encodeAll goal.tolerances)

theorem MoveGoal.placed (hsize : goal.payload.length < 2 ^ 32)
    (h : HoldsBytes data 0 goal.payload) : goal.Placed data := by
  have hle := goal.tolerances_le
  rw [goal.payload_length] at hsize
  rw [payload] at h
  simp only [holdsBytes_append, List.length_append, littleEndian_length, Codec.encodeAll_length,
    TrajectoryPoint.layout_size, sizeofTrajectoryPoint] at h
  obtain ⟨⟨⟨⟨⟨haxes, hgroup⟩, hcount⟩, htrajectory⟩, htolCount⟩, htolerances⟩ := h
  have hpoints : trajectoryCount data = goal.trajectory.length := hcount.number (by omega)
  constructor
  · exact haxes.number goal.numberOfAxesControlled.toNat_lt
  · exact hgroup.number goal.groupIndex.toNat_lt
  · exact hpoints
  · exact htrajectory
  · rw [toleranceCount, hpoints, show 12 + 264 * goal.trajectory.length =
      0 + (4 + 4 + 4 + goal.trajectory.length * 264) by omega]
    exact htolCount.number (by omega)
  · rw [show 16 + 264 * goal.trajectory.length =
      0 + (4 + 4 + 4 + goal.trajectory.length * 264 + 4) by omega]
    exact htolerances

theorem MoveGoal.validated (hsize : goal.payload.length < 2 ^ 32)
    (h : HoldsBytes data 0 goal.payload) :
    (validateMoveGoal data (UInt32.ofNat goal.payload.length)).1 = some (some 0) := by
  have hplaced := goal.placed hsize h
  have hlength : (UInt32.ofNat goal.payload.length).toNat =
      16 + 264 * goal.trajectory.length + 256 * goal.tolerances.length := by
    rw [UInt32.toNat_ofNat_of_lt' hsize, goal.payload_length]
  apply WellFormedMoveGoal.validated
  rw [hlength]
  constructor
  · omega
  · rw [hplaced.trajectoryCount]
    exact goal.points
  · rw [hplaced.trajectoryCount]
    omega
  · rw [hplaced.trajectoryCount, hplaced.toleranceCount]
    exact goal.matching
  · rw [hplaced.trajectoryCount, hplaced.toleranceCount]
    omega

theorem MoveGoal.readsGoal (hsize : goal.payload.length < 2 ^ 32)
    (h : HoldsBytes data 0 goal.payload) : ReadsGoal data 0 goal := by
  have hplaced := goal.placed hsize h
  constructor
  · exact congrArg some hplaced.axes
  · exact congrArg some hplaced.group
  · exact congrArg some hplaced.trajectoryCount
  · intro i point hpoint
    exact (hplaced.trajectory.element hpoint).decode
  · rw [payloadResult_toleranceSize, hplaced.toleranceCount]
  · refine ⟨16 + 264 * goal.trajectory.length, ?_, ?_⟩
    · rw [payloadResult_tolerance, hplaced.trajectoryCount]
      exact congrArg some (by omega)
    · intro i tolerance htolerance
      exact (hplaced.tolerances.element htolerance).decode

end Payload

end YaskawaComms.Protocol
