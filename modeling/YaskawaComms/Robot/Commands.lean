import YaskawaComms.Robot.MockRobot
import YaskawaComms.Server.MoveGoals
import YaskawaComms.Server.RoundTrips

/-!
# The callbacks of the mock robot

`handle_command` and `get_error_info` as the mock robot implements them. A payload is the memory from
its pointer on.
-/

namespace YaskawaComms.Robot

open Protocol Program Server Logging

def msgTestTrajectoryCommand : UInt8 := 0x01
def msgTurnServoPowerOn : UInt8 := 0x02
def msgHeartbeat : UInt8 := 0x03
def msgTestErrorCommand : UInt8 := 0x07
def msgErrorInfo : UInt8 := 0x09
def msgResetErrors : UInt8 := 0x0c
def msgEchoTrajectory : UInt8 := 0x0e
def msgSetMotionMode : UInt8 := 0x0f
def msgIsInMotion : UInt8 := 0x10
def msgStopMotion : UInt8 := 0x11
def msgGoalAccepted : UInt8 := 0x12
def msgGoalStatus : UInt8 := 0x13
def msgCancelGoal : UInt8 := 0x14
def msgGetGoalStatus : UInt8 := 0x15
def msgCheckGroup : UInt8 := 0x19
def msgGetCapabilities : UInt8 := 0x1a
def msgCapabilities : UInt8 := 0x1b

def groupIdAll : Int := -1

def sizeofGoalAcceptedPayload : Nat := 16
def sizeofGoalStatusPayload : Nat := 157
def sizeofCapabilitiesPayload : Nat := 378

/-- `MSG_ERR_RESPONSE(err)` with an `int`: the payload is its four bytes. -/
def errResponse (err : Int) : RobotProgram (Option ResponseContext) := do
  let ctx ← fromServer (allocateResponseContext 4 msgError)
  return ctx.map fun ctx => ctx.fill (bytes32 err)

/-- `MSG_OK_RESPONSE()`, or `MSG_ERR_RESPONSE(err)` for an error. -/
def resultResponse (err : Int) : RobotProgram (Option ResponseContext) :=
  if err ≠ 0 then errResponse err else fromServer msgOkResponse

/-- Allocate a response, then write its payload. -/
def payloadResponse (size : Nat) (type : UInt8) (write : RobotProgram (List UInt8)) :
    RobotProgram (Option ResponseContext) := do
  let some ctx ← fromServer (allocateResponseContext (UInt32.ofNat size) type) | errResponse (-1)
  return some (ctx.fill (← write))

/-- The four bytes of a payload as an `int32_t`. -/
def payloadInt32 (payload : Nat → UInt8) : Int := signed32 (loadLE payload ⟨0, 4⟩)

def handleMoveGoal (robot : MockRobot) (header : ProtocolHeader) (payload : Nat → UInt8) :
    RobotProgram (Option ResponseContext × MockRobot) := do
  match (validateMoveGoal payload header.payloadLength).1 with
  | some (some _) =>
      let (goalId, robot) ← mockRobotAcceptGoal robot payload
      if goalId < 0 then
        return (← errResponse goalId, robot)
      let answer ← payloadResponse sizeofGoalAcceptedPayload msgGoalAccepted do
        let now ← fromServer getTimestampMs
        return bytes32 goalId ++ littleEndian 4 (trajectoryCount payload) ++ littleEndian 8 now.toNat
      return (answer, robot)
  | _ => return (← errResponse (-1), robot)

/-- The trajectory of group 0. -/
def handleEchoTrajectory (robot : MockRobot) : RobotProgram (Option ResponseContext) :=
  match mockRobotEchoTrajectory robot 0 with
  | none => errResponse (-1)
  | some stored =>
      let responseSize := moveGoalSize stored.memory
      payloadResponse responseSize msgEchoTrajectory (pure (window stored.memory 0 responseSize))

def handleStopMotion (robot : MockRobot) (payload : Nat → UInt8) :
    RobotProgram (Option ResponseContext × MockRobot) := do
  let groupId := payloadInt32 payload
  let (stopped, robot) :=
    if groupId = groupIdAll then mockRobotStopMotion robot else mockRobotStopGroup robot groupId
  return (← payloadResponse 1 msgStopMotion (pure [stopped]), robot)

def handleGetGoalStatus (robot : MockRobot) (payload : Nat → UInt8) :
    RobotProgram (Option ResponseContext) := do
  let some ctx ← fromServer
      (allocateResponseContext (UInt32.ofNat sizeofGoalStatusPayload) msgGoalStatus)
    | errResponse (-1)
  let block ← .call .fresh .ret
  match ← mockRobotGetGoalStatus robot (payloadInt32 payload) (window block 0 sizeofGoalStatusPayload) with
  | some status => return some (ctx.fill status)
  | none =>
      fromServer (freeCommandResponseContext ctx)
      errResponse (-1)

/-- `group_capability_t` of the group with this index. -/
def groupCapability (i : Nat) (grp : MockGroupState) : List UInt8 :=
  [UInt8.ofNat i, grp.groupType, UInt8.ofNat i, grp.numAxes] ++ grp.axisTypes ++ grp.baseAxisMotion ++
    bytes32 4000

/-- `capabilities_payload_t`, cleared before it is filled. -/
def capabilities (robot : MockRobot) : List UInt8 :=
  let described := [protocolVersion, UInt8.ofNat robot.groups.length] ++
    ((robot.groups.take maxGroups).zipIdx.flatMap fun (grp, i) => groupCapability i grp)
  (described ++ List.replicate sizeofCapabilitiesPayload 0).take sizeofCapabilitiesPayload

def handleGetCapabilities (robot : MockRobot) : RobotProgram (Option ResponseContext) := do
  let ctx ← fromServer
    (allocateResponseContext (UInt32.ofNat sizeofCapabilitiesPayload) msgCapabilities)
  return ctx.map fun ctx => ctx.fill (capabilities robot)

/-- The switch in `mock_robot_handle_command`: the answer to a message, with the robot after it. -/
def switchCommand (robot : MockRobot) (header : ProtocolHeader) (payload : Nat → UInt8) :
    RobotProgram (Option ResponseContext × MockRobot) := do
  let type := header.messageType
  if type = msgTestTrajectoryCommand then
    let (err, robot) := mockRobotStartTrajectory robot
    return (← resultResponse err, robot)
  else if type = msgTurnServoPowerOn then
    let (err, robot) ← mockRobotPowerOn robot
    return (← resultResponse err, robot)
  else if type = msgHeartbeat then
    let (err, robot) := mockRobotHeartbeat robot (signed64 (← fromServer getTimestampMs))
    return (← resultResponse err, robot)
  else if type = msgTestErrorCommand then
    let (err, robot) := mockRobotTestErrorCommand robot
    return (← resultResponse err, robot)
  else if type = msgResetErrors then
    let (err, robot) := mockRobotResetErrors robot
    return (← resultResponse err, robot)
  else if type = msgMoveGoal then
    handleMoveGoal robot header payload
  else if type = msgEchoTrajectory then
    return (← handleEchoTrajectory robot, robot)
  else if type = msgSetMotionMode then
    if header.payloadLength ≠ 1 then
      return (← errResponse (-1), robot)
    let (err, robot) := mockRobotSetMotionMode robot (payload 0)
    return (← resultResponse err, robot)
  else if type = msgIsInMotion then
    if header.payloadLength ≠ 0 then
      return (← errResponse (-1), robot)
    return (← payloadResponse 1 msgIsInMotion (pure [mockRobotIsInMotion robot]), robot)
  else if type = msgStopMotion then
    if header.payloadLength ≠ 4 then
      return (← errResponse (-1), robot)
    handleStopMotion robot payload
  else if type = msgCancelGoal then
    if header.payloadLength ≠ 4 then
      return (← errResponse (-1), robot)
    let (err, robot) := mockRobotCancelGoal robot (payloadInt32 payload)
    return (← resultResponse err, robot)
  else if type = msgGetGoalStatus then
    if header.payloadLength ≠ 4 then
      return (← errResponse (-1), robot)
    return (← handleGetGoalStatus robot payload, robot)
  else if type = msgCheckGroup then
    if header.payloadLength ≠ 4 then
      return (← errResponse (-1), robot)
    let known : UInt8 := if payloadInt32 payload < (robot.groups.length : Int) then 1 else 0
    return (← payloadResponse 1 msgCheckGroup (pure [known]), robot)
  else if type = msgGetCapabilities then
    return (← handleGetCapabilities robot, robot)
  else
    return (← errResponse (-1), robot)

def mockRobotHandleCommand (robot : MockRobot) (header : ProtocolHeader) (payload : Nat → UInt8) :
    RobotProgram (Option ResponseContext × MockRobot) :=
  switchCommand { robot with commandCount := robot.commandCount + 1 } header payload

/-- `mock_robot_get_error_info_callback`. -/
def mockRobotGetErrorInfoCallback (robot : MockRobot) :
    RobotProgram (Option ResponseContext × MockRobot) := do
  let (text, robot) := mockRobotGetErrorInfo robot 512
  if text = [] then
    return (← fromServer msgOkResponse, robot)
  let ctx ← fromServer (allocateResponseContext (UInt32.ofNat sizeofErrorPayload) msgErrorInfo)
  return (ctx.map fun ctx => ctx.fill (ErrorPayload.bytes ⟨-1, text.take 127⟩), robot)

end YaskawaComms.Robot
