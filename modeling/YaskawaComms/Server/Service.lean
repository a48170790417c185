import YaskawaComms.Server.Calls
import YaskawaComms.Protocol.MoveGoal

/-!
# The server code

The two server threads, one round of their loops at a time, and the functions of the application
interface. Arguments of a call are evaluated from left to right.
-/

namespace YaskawaComms.Server

open Protocol Program

def maxTrajectoryPoints : Nat := 200

/-- Move goal with 200 trajectory and 200 tolerance points. -/
def maxPayloadSize : Nat := moveGoalCalcSize maxTrajectoryPoints maxTrajectoryPoints

def msgOk : UInt8 := 0x05
def msgError : UInt8 := 0x06
def msgGetErrorInfo : UInt8 := 0x08
def msgRegisterUdpPort : UInt8 := 0x0b

section Calls

def load (field : CtxField) : ServerProgram Int := .call (.load field) .ret
def store (field : CtxField) (value : Int) : ServerProgram Unit := .call (.store field value) .ret
def loadConnected : ServerProgram Bool := .call .loadConnected .ret
def loadSocket : ServerProgram Int := .call .loadSocket .ret
def storeLastCommand (value : Int) : ServerProgram Unit := .call (.storeLastCommand value) .ret
def addClient (socket : Int) (addr : SockAddr) : ServerProgram Int :=
  .call (.addClient socket addr) .ret
def removeClient : ServerProgram Unit := .call .removeClient .ret
def registerUdpPort (port : UInt16) : ServerProgram Unit := .call (.registerUdpPort port) .ret
def judgeIdle (now : Int) : ServerProgram Bool := .call (.judgeIdle now) .ret
def stopClient : ServerProgram Unit := .call .stopClient .ret
def time : ServerProgram Int := .call .time .ret
def getTimestampMs : ServerProgram UInt64 := .call .getTimestampMs .ret
def platformSelect (nfds : Int) (fds : List Int) : ServerProgram (Except Errno (List Int)) :=
  .call (.select nfds fds) .ret
def platformAccept (fd : Int) : ServerProgram (Int × SockAddr) := .call (.accept fd) .ret
def platformSocket : ServerProgram Int := .call .socket .ret
def platformBind (fd : Int) (port : UInt16) : ServerProgram Int := .call (.bind fd port) .ret
def platformListen (fd : Int) : ServerProgram Int := .call (.listen fd) .ret
def platformShutdown (fd : Int) : ServerProgram Unit := .call (.shutdown fd) .ret
def platformClose (fd : Int) : ServerProgram Unit := .call (.close fd) .ret
def readHeader (fd : Int) : ServerProgram (Int × ProtocolHeader) := .call (.readHeader fd) .ret
def platformRecv (fd : Int) (len : Nat) : ServerProgram Received := .call (.recv fd len) .ret
def platformSend (fd : Int) (bytes : List UInt8) : ServerProgram Int := .call (.send fd bytes) .ret
def platformMalloc (len : Nat) : ServerProgram (Option Nat) := .call (.malloc len) .ret
def platformFree (block : Nat) : ServerProgram Unit := .call (.free block) .ret
def handleCommand (header : ProtocolHeader) (payload : List UInt8) :
    ServerProgram (Option ResponseContext) := .call (.handleCommand header payload) .ret
def getErrorInfo : ServerProgram (Option ResponseContext) := .call .getErrorInfo .ret
def lockDestroy : ServerProgram Unit := .call .lockDestroy .ret
def pthreadCreate (function : ThreadFunction) : ServerProgram (Except (Option Nat) Int) :=
  .call (.pthreadCreate function) .ret
def pthreadJoin (thread : Int) : ServerProgram Unit := .call (.pthreadJoin thread) .ret
def dispatched (header : ProtocolHeader) (payload : List UInt8) : ServerProgram Unit :=
  .call (.dispatched header payload) .ret
def rejected (header : ProtocolHeader) : ServerProgram Unit := .call (.rejected header) .ret
def nullContext {α : Type} : ServerProgram α := .call .nullContext Empty.elim

end Calls

/-- The size of `command_response_context_t`, two pointers. -/
def sizeofCommandResponseContext : Nat := 16

/-- The content of a new payload buffer is not determined; every caller overwrites it. -/
def allocateResponseContext (length : UInt32) (type : UInt8) :
    ServerProgram (Option ResponseContext) := do
  let some block ← platformMalloc sizeofCommandResponseContext | return none
  let some headerBlock ← platformMalloc sizeofProtocolHeader
    | do
      platformFree block
      return none
  let header : ProtocolHeader :=
    { magicNumber := protocolMagicNumber
      payloadLength := length
      version := protocolVersion
      messageType := type
      timestampMs := ← getTimestampMs }
  if 0 < length then
    let some payload ← platformMalloc length.toNat
      | do
        platformFree headerBlock
        platformFree block
        return none
    return some ⟨block, headerBlock, header, some (payload, List.replicate length.toNat 0)⟩
  return some ⟨block, headerBlock, header, none⟩

def freeCommandResponseContext (ctx : ResponseContext) : ServerProgram Unit := do
  match ctx.payload with
  | some (payload, _) => platformFree payload
  | none => pure ()
  platformFree ctx.headerBlock
  platformFree ctx.block

/-- `MSG_OK_RESPONSE()`. -/
def msgOkResponse : ServerProgram (Option ResponseContext) := allocateResponseContext 0 msgOk

/-- `error_payload_t` with the text padded by zeros. -/
structure ErrorPayload where
  errorCode : Int
  message : List UInt8

def ErrorPayload.bytes (err : ErrorPayload) : List UInt8 :=
  littleEndian 4 (err.errorCode % 2 ^ 32).toNat ++
    (err.message ++ List.replicate 128 0).take 128

/-- `MSG_ERR_RESPONSE(err)`. -/
def msgErrResponse (err : ErrorPayload) : ServerProgram (Option ResponseContext) := do
  let ctx ← allocateResponseContext (UInt32.ofNat sizeofErrorPayload) msgError
  return ctx.map fun ctx =>
    { ctx with payload := ctx.payload.map fun (block, _) => (block, err.bytes) }

/-- `MSG_ERR_RESPONSE_INT(val)`. -/
def msgErrResponseInt (val : Int) : ServerProgram (Option ResponseContext) :=
  msgErrResponse ⟨val, []⟩

/-- The counts of the two sends are added as `unsigned long`. -/
def sendCommandResponseContext (socket : Int) : Option ResponseContext → ServerProgram Int
  | none => nullContext
  | some ctx => do
      let mut sent ← platformSend socket ctx.header.bytes
      if let some (_, bytes) := ctx.payload then
        if ctx.header.payloadLength ≠ 0 then
          sent := sent + (← platformSend socket (bytes.take ctx.header.payloadLength.toNat))
      freeCommandResponseContext ctx
      return if (sent - (sizeofProtocolHeader + ctx.header.payloadLength.toNat : Nat)) % 2 ^ 64 = 0
        then 0 else -1

/-- `send_command_response_context(ctx->client.socket, …)`. C leaves open which argument comes first;
here the socket is loaded before the context is made. -/
def respond (context : ServerProgram (Option ResponseContext)) : ServerProgram Int := do
  let socket ← loadSocket
  sendCommandResponseContext socket (← context)

/-- The payload loop with a bound on its rounds. The result `none` is `read_failed`. -/
def receivePayload (length : Nat) : Nat → List UInt8 → ServerProgram (Option (List UInt8))
  | 0, payload => return some payload
  | rounds + 1, payload => do
      if payload.length < length then
        let received ← platformRecv (← loadSocket) (length - payload.length)
        match received with
        | none => return none
        | some [] => return none
        | some bytes => receivePayload length rounds (payload ++ bytes)
      else
        return some payload

/-- The text of the error sent to a client with another protocol version. -/
def versionMismatchMessage (client : UInt8) : List UInt8 :=
  s!"protocol version mismatch: client={client.toNat} server={protocolVersion.toNat}".toList.map
    fun c => UInt8.ofNat c.toNat

/-- A registration that the policy rejects: answer, free the payload and drop the client. -/
def rejectRegistration (err : ErrorPayload) (payloadBlock : Nat) : ServerProgram Unit := do
  let _ ← respond (msgErrResponse err)
  platformFree payloadBlock
  removeClient

/-- `COMMS_VERSION_MISMATCH` decides about the version in a payload of at least two bytes: the
error to reject the registration with, if any. -/
def versionError (policy : VersionMismatch) (payload : List UInt8) : Option ErrorPayload :=
  match policy with
  | .ignore | .warn => none
  | .reject =>
      if sizeofUdpPortRegistrationV2Payload ≤ payload.length then
        let client := payload.getD 2 0
        if client ≠ protocolVersion then some ⟨-1, versionMismatchMessage client⟩ else none
      else some ⟨-1, []⟩

def udpPort (payload : List UInt8) : UInt16 := UInt16.ofNat (ofLittleEndian (payload.take 2))

/-- Whether the payload buffer is still to be freed. -/
def handleRegistration (cfg : ServerConfig) (payloadBlock : Nat) (payload : List UInt8) :
    ServerProgram Bool := do
  if payload.length < sizeofUdpPortRegistrationPayload then
    let _ ← respond (msgErrResponseInt (-1))
    return true
  if let some err := versionError cfg.versionMismatch payload then
    rejectRegistration err payloadBlock
    return false
  if 0 < udpPort payload then
    registerUdpPort (udpPort payload)
    let _ ← respond msgOkResponse
    return true
  let _ ← respond (msgErrResponseInt (-1))
  return true

/-- The answer of a callback, or an error where there is none. -/
def respondWith (configured : Bool) (callback : ServerProgram (Option ResponseContext)) :
    ServerProgram Unit := do
  if configured then
    match ← callback with
    | some rsp =>
        let _ ← respond (pure (some rsp))
        return
    | none => pure ()
  let _ ← respond (msgErrResponseInt (-1))

/-- A message whose payload has been read. -/
def handlePayload (cfg : ServerConfig) (header : ProtocolHeader) (payloadBlock : Nat)
    (payload : List UInt8) : ServerProgram Unit := do
  storeLastCommand (← time)
  if header.messageType = msgRegisterUdpPort then
    if ← handleRegistration cfg payloadBlock payload then
      platformFree payloadBlock
  else
    if header.messageType = msgGetErrorInfo then
      respondWith cfg.getErrorInfo getErrorInfo
    else
      respondWith cfg.handleCommand (handleCommand header payload)
    platformFree payloadBlock

/-- A message whose header has been read. -/
def handleMessage (cfg : ServerConfig) (header : ProtocolHeader) : ServerProgram Unit := do
  if header.payloadLength.toNat ≤ maxPayloadSize then
    match ← platformMalloc header.payloadLength.toNat with
    | none =>
        rejected header
        let _ ← respond (msgErrResponseInt (-1))
    | some payloadBlock =>
        match ← receivePayload header.payloadLength.toNat header.payloadLength.toNat [] with
        | none =>
            platformFree payloadBlock
            removeClient
        | some payload =>
            dispatched header payload
            handlePayload cfg header payloadBlock payload
  else
    rejected header
    let _ ← respond (msgErrResponseInt (-1))

/-- How a round of a thread's loop ends. -/
inductive Round where
  | again
  | finished
  deriving DecidableEq

/-- The sockets to wait for, with the largest of them. -/
def watchClient (listener nfd : Int) : ServerProgram (Int × List Int) := do
  if ← loadConnected then
    if 0 ≤ (← loadSocket) then
      let client ← loadSocket
      let nfd ← if nfd < (← loadSocket) then loadSocket else pure nfd
      return (nfd, [listener, client])
  return (nfd, [listener])

def acceptClient : ServerProgram Unit := do
  let (clientSocket, clientAddr) ← platformAccept (← load .tcpSocket)
  if 0 ≤ clientSocket then
    if (← addClient clientSocket clientAddr) ≠ 0 then
      platformClose clientSocket

def serviceClient (cfg : ServerConfig) : ServerProgram Unit := do
  let (bytesRead, header) ← readHeader (← loadSocket)
  if bytesRead ≤ 0 then
    removeClient
  else if bytesRead = sizeofProtocolHeader then
    handleMessage cfg header

/-- A round of `tcp_thread_func`. -/
def tcpThreadFunc (cfg : ServerConfig) : ServerProgram Round := do
  if (← load .running) = 0 then
    return .finished
  let listener ← load .tcpSocket
  let (nfd, fds) ← watchClient listener (← load .tcpSocket)
  match ← platformSelect (nfd + 1) fds with
  | .error errno =>
      if errno = .eIntr then
        return .again
      if errno = .eBadF then
        if ← loadConnected then
          removeClient
        return .again
      return .finished
  | .ok readFds =>
      if readFds = [] then
        return .again
      if (← load .tcpSocket) ∈ readFds then
        acceptClient
      if ← loadConnected then
        if (← loadSocket) ∈ readFds then
          serviceClient cfg
      return .again

/-- A round of `timeout_thread_func`. -/
def timeoutThreadFunc : ServerProgram Round := do
  if (← load .running) = 0 then
    return .finished
  let now ← time
  if ← judgeIdle now then
    removeClient
  return .again

/-- The block that `robot_protocol_create` allocates for the server. -/
def serverBlock : Nat := 0

/-- The state that `robot_protocol_create` leaves behind when it succeeds. -/
def robotProtocolCreate : Shared where
  ctx := ⟨-1, -1, 0, 0, 0, .cleared⟩
  clock := 0
  generation := 0
  heap := ⟨1, [serverBlock], false⟩
  events := []

/-- Create a thread whose identifier `pthread_create` stores; its result is not looked at. -/
def startThread (function : ThreadFunction) (field : CtxField) : ServerProgram Unit := do
  match ← pthreadCreate function with
  | .ok thread => store field thread
  | .error (some left) => store field left
  | .error none => pure ()

def robotProtocolStart (cfg : ServerConfig) : ServerProgram Int := do
  store .tcpSocket (← platformSocket)
  if (← load .tcpSocket) < 0 then
    return -1
  if (← platformBind (← load .tcpSocket) cfg.tcpPort) < 0 then
    platformClose (← load .tcpSocket)
    return -1
  if (← platformListen (← load .tcpSocket)) < 0 then
    platformClose (← load .tcpSocket)
    return -1
  store .udpSocket (← platformSocket)
  if (← load .udpSocket) < 0 then
    platformClose (← load .tcpSocket)
    return -1
  if (← platformBind (← load .udpSocket) cfg.udpPort) < 0 then
    platformClose (← load .tcpSocket)
    platformClose (← load .udpSocket)
    return -1
  store .running 1
  startThread .tcp .tcpThread
  startThread .timeout .timeoutThread
  return 0

/-- Wait for a thread and forget it. -/
def joinThread (field : CtxField) : ServerProgram Unit := do
  if (← load field) ≠ 0 then
    pthreadJoin (← load field)
    store field 0

/-- Close a socket of the server and forget it. -/
def closeSocket (field : CtxField) : ServerProgram Unit := do
  if 0 ≤ (← load field) then
    platformClose (← load field)
    store field (-1)

def robotProtocolStop : ServerProgram Unit := do
  store .running 0
  if 0 ≤ (← load .tcpSocket) then
    platformShutdown (← load .tcpSocket)
  joinThread .tcpThread
  joinThread .timeoutThread
  stopClient
  closeSocket .tcpSocket
  closeSocket .udpSocket

/-- The lock of a server that has been created exists. -/
def robotProtocolDestroy : ServerProgram Unit := do
  robotProtocolStop
  lockDestroy
  platformFree serverBlock

/-- A server that does not exist is not running. -/
def robotProtocolIsRunning : Option ServerCtx → Int
  | some ctx => ctx.running
  | none => 0

end YaskawaComms.Server
