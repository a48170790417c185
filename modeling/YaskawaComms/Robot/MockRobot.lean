import YaskawaComms.Framework.Outcomes
import YaskawaComms.Logging.LogPipeline
import YaskawaComms.Protocol.MoveGoalCopy
import YaskawaComms.Server.Status

/-!
# The mock robot

The robot behind the example server: groups of axes that follow one goal each. The simulated joint
values, which only the position messages carry, are left out.
-/

namespace YaskawaComms.Robot

open Protocol Program Server Logging

def maxGroups : Nat := 5
def maxAxes : Nat := 8
def maxAlarmCount : Nat := 16

def groupTypeRobot : UInt8 := 0
def groupTypeBase : UInt8 := 1

def axisTypeRotary : UInt8 := 0
def axisTypeLinear : UInt8 := 1
def axisTypeInvalid : UInt8 := 2

/-- `goal_state_t`. -/
inductive GoalState where
  | pending
  | active
  | succeeded
  | cancelled
  | aborted
  deriving DecidableEq

def GoalState.value : GoalState → UInt8
  | .pending => 0
  | .active => 1
  | .succeeded => 2
  | .cancelled => 3
  | .aborted => 4

/-- Two's complement. -/
def signed32 (n : Nat) : Int := (BitVec.ofNat 32 n).toInt
def signed64 (n : UInt64) : Int := n.toBitVec.toInt

/-- The bytes of an `int32_t`. -/
def bytes32 (n : Int) : List UInt8 := littleEndian 4 (n % 2 ^ 32).toNat

/-- The bits of the double `1.0`. -/
def doubleOne : UInt64 := 0x3ff0000000000000

/-- `stored_trajectory_buffer` with its size; the memory from the buffer's pointer on. -/
structure StoredTrajectory where
  block : Nat
  size : Nat
  memory : Nat → UInt8

/-- `mock_group_state_t`. -/
structure MockGroupState where
  trajectoryActive : Bool
  inMotion : Bool
  storedTrajectory : Option StoredTrajectory
  currentGoalId : Int
  currentGoalState : GoalState
  currentGoalProgress : UInt64
  goalStartTime : Int
  groupType : UInt8
  numAxes : UInt8
  axisTypes : List UInt8
  baseAxisMotion : List UInt8

/-- `mock_robot_t`; there are as many groups as `num_groups` says. -/
structure MockRobot where
  groups : List MockGroupState
  servoPowerOn : Bool
  lastHeartbeat : Int
  connectionCount : UInt32
  disconnectionCount : UInt32
  commandCount : UInt32
  hasErrorInfo : Bool
  lastErrorMessage : List UInt8
  mode : Int
  motionMode : UInt8
  eStopped : Bool
  drivesPowered : Bool
  motionPossible : Bool
  inError : Bool
  errorCodes : List Int
  errorCount : Nat

def initGroup (groupType numAxes : UInt8) : MockGroupState where
  trajectoryActive := false
  inMotion := false
  storedTrajectory := none
  currentGoalId := 0
  currentGoalState := .pending
  currentGoalProgress := 0
  goalStartTime := 0
  groupType := groupType
  numAxes := numAxes
  axisTypes := (List.range maxAxes).map fun i =>
    if i < numAxes.toNat then
      if groupType = groupTypeBase then axisTypeLinear else axisTypeRotary
    else axisTypeInvalid
  baseAxisMotion := (List.range maxAxes).map fun i =>
    if i < numAxes.toNat ∧ groupType = groupTypeBase then UInt8.ofNat i else 0xff

/-- `mock_robot_init_multi`, with the type and the number of axes of each group. -/
def mockRobotInitMulti (groups : List (UInt8 × UInt8)) : MockRobot where
  groups := (groups.take maxGroups).map fun (groupType, numAxes) => initGroup groupType numAxes
  servoPowerOn := false
  lastHeartbeat := 0
  connectionCount := 0
  disconnectionCount := 0
  commandCount := 0
  hasErrorInfo := false
  lastErrorMessage := []
  mode := 1
  motionMode := 0
  eStopped := false
  drivesPowered := false
  motionPossible := false
  inError := false
  errorCodes := List.replicate (maxAlarmCount + 1) 0
  errorCount := 0

def mockRobotInit : MockRobot := mockRobotInitMulti [(groupTypeRobot, 6)]

/-- A goal that is being followed or still to be. -/
def MockGroupState.hasActiveGoal (grp : MockGroupState) : Bool :=
  grp.currentGoalId ≠ 0 ∧ (grp.currentGoalState = .active ∨ grp.currentGoalState = .pending)

/-- What stopping does to a group. -/
def MockGroupState.stop (grp : MockGroupState) : MockGroupState :=
  { grp with
    inMotion := false
    trajectoryActive := false
    currentGoalState := if grp.hasActiveGoal then .aborted else grp.currentGoalState }

def MockGroupState.store (grp : MockGroupState) (stored : Option StoredTrajectory) : MockGroupState :=
  { grp with storedTrajectory := stored }

/-- What accepting a goal that has been stored does to a group. -/
def MockGroupState.follow (grp : MockGroupState) (goalId now : Int) : MockGroupState :=
  { grp with
    currentGoalId := goalId
    currentGoalState := .active
    currentGoalProgress := 0
    goalStartTime := now
    trajectoryActive := true
    inMotion := true }

/-- What cancelling its goal does to a group. -/
def MockGroupState.cancel (grp : MockGroupState) : MockGroupState :=
  { grp with
    currentGoalState := .cancelled
    inMotion := false
    trajectoryActive := false }

/-- What reaching its goal does to a group. -/
def MockGroupState.succeed (grp : MockGroupState) : MockGroupState :=
  { grp with
    currentGoalProgress := doubleOne
    currentGoalState := .succeeded
    inMotion := false
    trajectoryActive := false }

namespace MockRobot

def modifyGroup (robot : MockRobot) (i : Nat) (f : MockGroupState → MockGroupState) : MockRobot :=
  { robot with groups := robot.groups.modify i f }

/-- The index of the first group with this goal. -/
def findGroupWithGoal (robot : MockRobot) (goalId : Int) : Option Nat :=
  robot.groups.findIdx? fun grp => grp.currentGoalId = goalId

def setErrorInfo (robot : MockRobot) (errorMessage : String) : MockRobot :=
  { robot with
    hasErrorInfo := true
    lastErrorMessage := (asciiBytes errorMessage).take 255 }

def setError (robot : MockRobot) (code : Int) : MockRobot :=
  { robot with
    inError := true
    errorCodes := robot.errorCodes.set 0 code
    errorCount := 1 }

end MockRobot

def mockRobotStartTrajectory (robot : MockRobot) : Int × MockRobot :=
  if robot.servoPowerOn then
    (0, robot.modifyGroup 0 fun grp => { grp with trajectoryActive := true, inMotion := true })
  else
    (-1, (robot.setErrorInfo
      ("Cannot start trajectory: servo power must be enabled first. Use TURN_SERVO_POWER_ON " ++
        "command to enable servo power.")).setError 100)

def mockRobotHeartbeat (robot : MockRobot) (timestamp : Int) : Int × MockRobot :=
  (0, { robot with lastHeartbeat := timestamp })

def mockRobotTestErrorCommand (robot : MockRobot) : Int × MockRobot :=
  (-42, (robot.setErrorInfo
    ("Test error command executed. This command is designed to always fail for testing purposes. " ++
      "Error details: simulated fault condition in axis controller #3.")).setError 42)

/-- The text put into the caller's buffer, which is empty before. -/
def mockRobotGetErrorInfo (robot : MockRobot) (bufferSize : Nat) : List UInt8 × MockRobot :=
  if !robot.hasErrorInfo then ([], robot)
  else
    (robot.lastErrorMessage.take (bufferSize - 1),
      { robot with hasErrorInfo := false, lastErrorMessage := [] })

def mockRobotResetErrors (robot : MockRobot) : Int × MockRobot :=
  (0, { robot with
    inError := false
    errorCount := 0
    hasErrorInfo := false
    lastErrorMessage := []
    errorCodes := List.replicate (maxAlarmCount + 1) 0 })

def mockRobotSetMotionMode (robot : MockRobot) (motionMode : UInt8) : Int × MockRobot :=
  (0, { robot with motionMode := motionMode })

def mockRobotIsInMotion (robot : MockRobot) : UInt8 :=
  if robot.groups.any (·.inMotion) then 1 else 0

def mockRobotStopMotion (robot : MockRobot) : UInt8 × MockRobot :=
  let moves (grp : MockGroupState) : Bool := grp.inMotion || grp.hasActiveGoal
  (if robot.groups.any moves then 1 else 0,
    { robot with groups := robot.groups.map fun grp => if moves grp then grp.stop else grp })

def mockRobotStopGroup (robot : MockRobot) (groupIndex : Int) : UInt8 × MockRobot :=
  if groupIndex < 0 ∨ (robot.groups.length : Int) ≤ groupIndex then (0, robot)
  else (1, robot.modifyGroup groupIndex.toNat MockGroupState.stop)

def mockRobotCancelGoal (robot : MockRobot) (goalId : Int) : Int × MockRobot :=
  match robot.findGroupWithGoal goalId with
  | none => (-1, robot)
  | some i =>
      match robot.groups[i]? with
      | none => (-1, robot)
      | some grp =>
          if grp.currentGoalState ≠ .pending ∧ grp.currentGoalState ≠ .active then (-1, robot)
          else (0, robot.modifyGroup i MockGroupState.cancel)

def mockRobotOnConnection (robot : MockRobot) : MockRobot :=
  { robot with connectionCount := robot.connectionCount + 1 }

def mockRobotOnDisconnection (robot : MockRobot) : MockRobot :=
  (mockRobotStopMotion { robot with disconnectionCount := robot.disconnectionCount + 1 }).2

/-- Bit N is set if group N is moving. -/
def motionBits : List MockGroupState → Nat
  | [] => 0
  | grp :: groups => (if grp.inMotion then 1 else 0) + 2 * motionBits groups

def mockRobotGetRobotStatus (robot : MockRobot) (timestamp : UInt64) : RobotStatusPayload where
  bytes := littleEndian 8 timestamp.toNat ++ bytes32 robot.mode ++
    [if robot.eStopped then 1 else 0, if robot.drivesPowered then 1 else 0,
      if robot.motionPossible then 1 else 0, UInt8.ofNat (motionBits robot.groups),
      if robot.inError then 1 else 0] ++
    (List.range (maxAlarmCount + 1)).flatMap (fun i =>
      bytes32 (if i < robot.errorCount then robot.errorCodes.getD i 0 else 0)) ++
    bytes32 robot.errorCount
  length := by
    simp only [List.length_append, List.length_flatMap, bytes32, littleEndian_length, List.length_cons,
      List.length_nil]
    rfl

/-- A goal id that `rand` gives in the end: not zero and not negative. -/
structure GoalId where
  value : Int
  pos : 0 < value
  lt : value < 2 ^ 31

/-- The calls of the server library, with what else the robot asks for. -/
inductive RobotCall where
  | server (c : ServerCall)
  /-- The loop that calls `rand` until the number is not zero. -/
  | goalId
  /-- `clock_gettime(CLOCK_MONOTONIC)` in milliseconds. -/
  | monotonicMs
  /-- The double `(double) elapsed / 1000.0`. -/
  | seconds (elapsed : Int)
  /-- No call of the code: what a new block contains. -/
  | fresh

abbrev robotSignature : Signature :=
  ⟨RobotCall, fun c => match c with
    | .server c => c.Result
    | .goalId => GoalId
    | .monotonicMs => Int
    | .seconds _ => UInt64
    | .fresh => Nat → UInt8⟩

abbrev RobotProgram := Program robotSignature

/-- Code of the server library. -/
def fromServer {α : Type} (p : ServerProgram α) : RobotProgram α :=
  p.interpret fun c => .call (.server c) .ret

def mockRobotPowerOn (robot : MockRobot) : RobotProgram (Int × MockRobot) := do
  let now ← .call .monotonicMs .ret
  return (0, { robot with
    servoPowerOn := true
    drivesPowered := true
    motionPossible := true
    lastHeartbeat := now })

/-- `*MOVE_GOAL_GET_TOLERANCE_SIZE_PTR(goal)` and `MOVE_GOAL_CALC_SIZE` of the two sizes. -/
def moveGoalSize (goal : Nat → UInt8) : Nat :=
  moveGoalCalcSize (trajectoryCount goal) (toleranceCount goal)

def freeTrajectory (grp : MockGroupState) : RobotProgram Unit :=
  match grp.storedTrajectory with
  | some stored => fromServer (platformFree stored.block)
  | none => pure ()

/-- What `mock_robot_accept_goal` does to keep a goal. -/
def storeTrajectory (grp : MockGroupState) (goal : Nat → UInt8) :
    RobotProgram (Bool × MockGroupState) := do
  let requiredSize := UInt32.ofNat (moveGoalSize goal)
  freeTrajectory grp
  let some block ← fromServer (platformMalloc requiredSize.toNat)
    | return (false, grp.store none)
  match deepCopied goal (← .call .fresh .ret) requiredSize with
  | (some (some _), memory) =>
      return (true, grp.store (some ⟨block, requiredSize.toNat, memory⟩))
  | _ =>
      fromServer (platformFree block)
      return (false, grp.store none)

def groupIndexOf (goal : Nat → UInt8) : Nat := loadLE goal ⟨4, 4⟩

def mockRobotEchoTrajectory (robot : MockRobot) (groupIndex : Nat) : Option StoredTrajectory :=
  robot.groups[groupIndex]? >>= MockGroupState.storedTrajectory

def mockRobotAcceptGoal (robot : MockRobot) (goal : Nat → UInt8) : RobotProgram (Int × MockRobot) := do
  if !robot.servoPowerOn then
    return (-1, robot)
  let i := groupIndexOf goal
  let some grp := robot.groups[i]? | return (-1, robot)
  if grp.hasActiveGoal then
    return (-1, robot)
  let (stored, grp) ← storeTrajectory grp goal
  if !stored then
    return (-1, robot.modifyGroup i fun _ => grp)
  let goalId ← .call .goalId .ret
  let now ← fromServer getTimestampMs
  return (goalId.value, robot.modifyGroup i fun _ => grp.follow goalId.value (signed64 now))

/-- `mock_robot_get_goal_status` on a payload with these contents; the fields that it does not set
keep what was there. -/
def mockRobotGetGoalStatus (robot : MockRobot) (goalId : Int) (status : List UInt8) :
    RobotProgram (Option (List UInt8)) := do
  let some i := robot.findGroupWithGoal goalId | return none
  let some grp := robot.groups[i]? | return none
  let now ← fromServer getTimestampMs
  return some (bytes32 grp.currentGoalId ++ (status.drop 4).take 4 ++
    littleEndian 8 grp.currentGoalProgress.toNat ++ littleEndian 8 now.toNat ++
    (status.drop 24).take 4 ++ [grp.currentGoalState.value] ++ status.drop 29)

/-- One round of the loop in `mock_robot_update_goal_progress`. The quotient is at least `1.0`
exactly from 1000 milliseconds on. -/
def updateGroupProgress (grp : MockGroupState) : RobotProgram MockGroupState := do
  if grp.currentGoalId = 0 ∨ grp.currentGoalState ≠ .active then
    return grp
  let elapsed := signed64 (← fromServer getTimestampMs) - grp.goalStartTime
  let progress ← .call (.seconds elapsed) .ret
  if 1000 ≤ elapsed then
    return grp.succeed
  return { grp with currentGoalProgress := progress }

def updateGroups : List MockGroupState → RobotProgram (List MockGroupState)
  | [] => return []
  | grp :: groups => do
      let grp ← updateGroupProgress grp
      return grp :: (← updateGroups groups)

def mockRobotUpdateGoalProgress (robot : MockRobot) : RobotProgram MockRobot := do
  return { robot with groups := ← updateGroups robot.groups }

end YaskawaComms.Robot
