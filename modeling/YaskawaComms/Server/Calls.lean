import YaskawaComms.Framework.Program
import YaskawaComms.Protocol.Transport
import YaskawaComms.Protocol.Wire

/-!
# The server's state and its calls

Everything the server code does to its surroundings: accesses of the server context outside the
lock, the regions between `lock_take` and `lock_give` on `client_mutex` as one call each, the
platform functions and the callbacks. What the platform and the callbacks answer is chosen from
outside; `perform` says what a call does to the shared state. Accesses that only serve a log line
are left out.
-/

namespace YaskawaComms.Server

open Protocol Program

structure SockAddr where
  address : UInt32
  port : UInt16
  deriving DecidableEq

/-- `client_info_t`; the text in `peerIp` is given by its address, the empty text by `none`. -/
structure ClientInfo where
  socket : Int
  addr : SockAddr
  lastCommand : Int
  connected : Bool
  peerIp : Option UInt32
  peerPort : UInt16
  registeredUdpPort : UInt16
  udpPortRegistered : Bool
  deriving DecidableEq

/-- The record after `memset` with zero. -/
def ClientInfo.cleared : ClientInfo := ⟨0, ⟨0, 0⟩, 0, false, none, 0, 0, false⟩

/-- `robot_server_ctx_t`, apart from its lock and configuration; thread 0 is no thread. -/
structure ServerCtx where
  tcpSocket : Int
  udpSocket : Int
  running : Int
  tcpThread : Int
  timeoutThread : Int
  client : ClientInfo
  deriving DecidableEq

/-- `COMMS_VERSION_MISMATCH`. -/
inductive VersionMismatch where
  | ignore
  | warn
  | reject
  deriving DecidableEq

/-- `robot_server_config_t`; of the callbacks, which are configured. -/
structure ServerConfig where
  tcpPort : UInt16
  udpPort : UInt16
  connectionTimeoutMs : UInt32
  onConnection : Bool
  onDisconnection : Bool
  handleCommand : Bool
  getErrorInfo : Bool
  versionMismatch : VersionMismatch

/-- A server with nothing configured. -/
def plainConfig : ServerConfig :=
  { tcpPort := 11000
    udpPort := 11001
    connectionTimeoutMs := 5000
    onConnection := false
    onDisconnection := false
    handleCommand := false
    getErrorInfo := false
    versionMismatch := .ignore }

/-- A server whose application handles commands. -/
def commandConfig : ServerConfig := { plainConfig with handleCommand := true }

/-- A `command_response_context_t` with the blocks it is made of. -/
structure ResponseContext where
  block : Nat
  headerBlock : Nat
  header : ProtocolHeader
  payload : Option (Nat × List UInt8)
  deriving DecidableEq

/-- The fields of the context that do not belong to the client's record; the lock does not cover
them. -/
inductive CtxField where
  | tcpSocket
  | udpSocket
  | running
  | tcpThread
  | timeoutThread
  deriving DecidableEq

inductive ThreadFunction where
  | tcp
  | timeout
  deriving DecidableEq

inductive ServerCall where
  | load (field : CtxField)
  | store (field : CtxField) (value : Int)
  /-- The accesses to the client's record outside the lock. -/
  | loadConnected
  | loadSocket
  | storeLastCommand (value : Int)
  | addClient (socket : Int) (addr : SockAddr)
  | removeClient
  | registerUdpPort (port : UInt16)
  | judgeIdle (now : Int)
  | stopClient
  | time
  | getTimestampMs
  | select (nfds : Int) (fds : List Int)
  | accept (fd : Int)
  | socket
  | bind (fd : Int) (port : UInt16)
  | listen (fd : Int)
  | shutdown (fd : Int)
  | close (fd : Int)
  | readHeader (fd : Int)
  | recv (fd : Int) (len : Nat)
  | send (fd : Int) (bytes : List UInt8)
  | malloc (len : Nat)
  | free (block : Nat)
  | lockDestroy
  | handleCommand (header : ProtocolHeader) (payload : List UInt8)
  | getErrorInfo
  | pthreadCreate (function : ThreadFunction)
  | pthreadJoin (thread : Int)
  /-- No call of the code: the message has been read and is about to be handled. -/
  | dispatched (header : ProtocolHeader) (payload : List UInt8)
  /-- No call of the code: the payload of this header is not going to be read. -/
  | rejected (header : ProtocolHeader)
  /-- A null response context is dereferenced. -/
  | nullContext
  deriving DecidableEq

abbrev ServerCall.Result : ServerCall → Type
  | .load _ | .loadSocket | .addClient _ _ | .time | .socket | .bind _ _ | .listen _ | .send _ _ => Int
  | .loadConnected | .judgeIdle _ => Bool
  | .getTimestampMs => UInt64
  | .select _ _ => Except Errno (List Int)
  | .accept _ => Int × SockAddr
  | .readHeader _ => Int × ProtocolHeader
  | .recv _ _ => Received
  | .malloc _ => Option Nat
  | .handleCommand _ _ | .getErrorInfo => Option ResponseContext
  | .pthreadCreate _ => Except (Option Nat) Int
  | .nullContext => Empty
  | .store _ _ | .storeLastCommand _ | .removeClient | .registerUdpPort _ | .stopClient | .shutdown _ | .close _ | .free _
  | .lockDestroy | .pthreadJoin _ | .dispatched _ _ | .rejected _ => Unit

abbrev serverSignature : Signature := ⟨ServerCall, ServerCall.Result⟩

abbrev ServerProgram := Program serverSignature

/-- What has happened, as far as it can be observed from outside. -/
inductive Event where
  | onConnection (ip : Option UInt32) (port : UInt16)
  | onDisconnection (ip : Option UInt32) (port : UInt16)
  | closed (fd : Int)
  | shutDown (fd : Int)
  | sent (fd : Int) (bytes : List UInt8)
  | dispatched (header : ProtocolHeader) (payload : List UInt8)
  | rejected (header : ProtocolHeader)
  deriving DecidableEq

/-- The callbacks about connections. -/
def Event.isCallback : Event → Bool
  | .onConnection _ _ | .onDisconnection _ _ => true
  | _ => false

/-- The blocks in use; a new block gets a new number. It is `corrupted` once something else than
a block in use has been freed. -/
structure Heap where
  next : Nat
  live : List Nat
  corrupted : Bool
  deriving DecidableEq

def Heap.alloc (h : Heap) : Nat × Heap :=
  (h.next, { h with next := h.next + 1, live := h.next :: h.live })

def Heap.free (h : Heap) (block : Nat) : Heap :=
  if block ∈ h.live then { h with live := h.live.erase block } else { h with corrupted := true }

/-- The state that threads share. `generation` counts the connections accepted so far and the
clock is in milliseconds. -/
structure Shared where
  ctx : ServerCtx
  clock : Nat
  generation : Nat
  heap : Heap
  events : List Event
  deriving DecidableEq

/-- A response built by a callback. -/
structure Reply where
  header : ProtocolHeader
  payload : Option (List UInt8)
  deriving DecidableEq

/-- The answers of the platform and of the callbacks to whatever call comes next. A `pthread_create`
that fails creates nothing, and leaves the identifier alone or leaves anything in it. -/
structure Answers where
  select : Except Errno (List Int) := .ok []
  accepted : Int × SockAddr := (-1, ⟨0, 0⟩)
  header : Int × ProtocolHeader := (-1, .ofBytes [])
  received : Received := none
  sent : Int := -1
  allocates : Bool := true
  timestamp : UInt64 := 0
  reply : Option Reply := none
  descriptor : Int := -1
  result : Int := 0
  thread : Except (Option Nat) Int := .error none

namespace ServerCtx

def get (ctx : ServerCtx) : CtxField → Int
  | .tcpSocket => ctx.tcpSocket
  | .udpSocket => ctx.udpSocket
  | .running => ctx.running
  | .tcpThread => ctx.tcpThread
  | .timeoutThread => ctx.timeoutThread

def set (ctx : ServerCtx) (value : Int) : CtxField → ServerCtx
  | .tcpSocket => { ctx with tcpSocket := value }
  | .udpSocket => { ctx with udpSocket := value }
  | .running => { ctx with running := value }
  | .tcpThread => { ctx with tcpThread := value }
  | .timeoutThread => { ctx with timeoutThread := value }

@[simp] theorem set_client (ctx : ServerCtx) (value : Int) (field : CtxField) :
    (ctx.set value field).client = ctx.client := by
  cases field <;> rfl

end ServerCtx

namespace Shared

def time (s : Shared) : Int := s.clock / 1000

def record (s : Shared) (events : List Event) : Shared := { s with events := s.events ++ events }

def setClient (s : Shared) (client : ClientInfo) : Shared := { s with ctx.client := client }

/-- The locked region of `add_client`. -/
def addClient (cfg : ServerConfig) (s : Shared) (socket : Int) (addr : SockAddr) : Int × Shared :=
  if s.ctx.client.connected then (-1, s)
  else
    let client : ClientInfo :=
      { socket := socket
        addr := addr
        lastCommand := s.time
        connected := true
        peerPort := addr.port
        registeredUdpPort := 0
        udpPortRegistered := false
        peerIp := some addr.address }
    let s := { s.setClient client with generation := s.generation + 1 }
    (0, s.record (if cfg.onConnection then [.onConnection client.peerIp client.peerPort] else []))

/-- The locked region of `remove_client`. -/
def removeClient (cfg : ServerConfig) (s : Shared) : Shared :=
  if s.ctx.client.connected then
    let client := s.ctx.client
    let announced :=
      if cfg.onDisconnection then [.onDisconnection client.peerIp client.peerPort] else []
    (s.record (announced ++ [.closed client.socket])).setClient .cleared
  else s

/-- The locked region of the UDP port registration. -/
def registerUdpPort (s : Shared) (port : UInt16) : Shared :=
  s.setClient { s.ctx.client with registeredUdpPort := port, udpPortRegistered := true }

/-- The first locked region of `timeout_thread_func`: the client is idle. The comparison in
seconds, `difftime(now, last_command) > connection_timeout_ms / 1000.0`, is made in exact
milliseconds. -/
def judgeIdle (cfg : ServerConfig) (s : Shared) (now : Int) : Bool :=
  s.ctx.client.connected &&
    decide ((cfg.connectionTimeoutMs.toNat : Int) < 1000 * (now - s.ctx.client.lastCommand))

/-- The locked region of `robot_protocol_stop`. -/
def stopClient (s : Shared) : Shared :=
  if s.ctx.client.connected then
    (s.record [.closed s.ctx.client.socket]).setClient .cleared
  else s

section Client

variable {cfg : ServerConfig} {s : Shared} {socket : Int} {addr : SockAddr}

theorem addClient_second (h : s.ctx.client.connected = true) :
    s.addClient cfg socket addr = (-1, s) :=
  if_pos h

theorem addClient_first (h : s.ctx.client.connected = false) :
    (s.addClient cfg socket addr).1 = 0 ∧
      (s.addClient cfg socket addr).2.generation = s.generation + 1 := by
  rw [addClient, h, if_neg Bool.false_ne_true]
  exact ⟨rfl, rfl⟩

theorem addClient_client (h : s.ctx.client.connected = false) :
    (s.addClient cfg socket addr).2.ctx.client =
      ⟨socket, addr, s.time, true, some addr.address, addr.port, 0, false⟩ := by
  rw [addClient, h, if_neg Bool.false_ne_true]
  rfl

theorem addClient_clock : (s.addClient cfg socket addr).2.clock = s.clock := by
  unfold addClient
  split <;> rfl

theorem removeClient_absent (h : s.ctx.client.connected = false) : s.removeClient cfg = s := by
  rw [removeClient, h, if_neg Bool.false_ne_true]

theorem removeClient_client (h : s.ctx.client.connected = true) :
    (s.removeClient cfg).ctx.client = .cleared := by
  rw [removeClient, if_pos h]
  rfl

theorem removeClient_clock : (s.removeClient cfg).clock = s.clock := by
  unfold removeClient
  split <;> rfl

theorem stopClient_absent (h : s.ctx.client.connected = false) : s.stopClient = s := by
  rw [stopClient, h, if_neg Bool.false_ne_true]

theorem stopClient_client (h : s.ctx.client.connected = true) : s.stopClient.ctx.client = .cleared := by
  rw [stopClient, if_pos h]
  rfl

theorem stopClient_clock : s.stopClient.clock = s.clock := by
  unfold stopClient
  split <;> rfl

end Client

/-- The context of a callback's reply is made of blocks that the callback allocates. -/
def reply (s : Shared) : Option Reply → Option ResponseContext × Shared
  | none => (none, s)
  | some r =>
      let (block, heap) := s.heap.alloc
      let (headerBlock, heap) := heap.alloc
      match r.payload with
      | none => (some ⟨block, headerBlock, r.header, none⟩, { s with heap := heap })
      | some bytes =>
          let (payloadBlock, heap) := heap.alloc
          (some ⟨block, headerBlock, r.header, some (payloadBlock, bytes)⟩, { s with heap := heap })

theorem reply_heap (s : Shared) (r : Option Reply) : ∃ heap, (s.reply r).2 = { s with heap := heap } := by
  cases r with
  | none => exact ⟨s.heap, rfl⟩
  | some r => cases hpayload : r.payload <;> exact ⟨_, by rw [reply, hpayload]⟩

/-- What a call returns and does. A descriptor that is not the connected client's delivers no
header. Nothing comes after a null dereference. -/
def perform (cfg : ServerConfig) (a : Answers) :
    (c : ServerCall) → Shared → Option (c.Result × Shared)
  | .load field, s => some (s.ctx.get field, s)
  | .store field value, s => some ((), { s with ctx := s.ctx.set value field })
  | .loadConnected, s => some (s.ctx.client.connected, s)
  | .loadSocket, s => some (s.ctx.client.socket, s)
  | .storeLastCommand value, s => some ((), { s with ctx.client.lastCommand := value })
  | .addClient socket addr, s => some (s.addClient cfg socket addr)
  | .removeClient, s => some ((), s.removeClient cfg)
  | .registerUdpPort port, s => some ((), s.registerUdpPort port)
  | .judgeIdle now, s => some (s.judgeIdle cfg now, s)
  | .stopClient, s => some ((), s.stopClient)
  | .time, s => some (s.time, s)
  | .getTimestampMs, s => some (a.timestamp, s)
  | .select nfds fds, s =>
      some (a.select.map fun ready => ready.filter fun fd => fd < nfds ∧ fd ∈ fds, s)
  | .accept _, s => some (a.accepted, s)
  | .socket, s => some (a.descriptor, s)
  | .bind _ _, s => some (a.result, s)
  | .listen _, s => some (a.result, s)
  | .shutdown fd, s => some ((), s.record [.shutDown fd])
  | .close fd, s => some ((), s.record [.closed fd])
  | .readHeader fd, s =>
      if s.ctx.client.connected ∧ fd = s.ctx.client.socket then some (a.header, s)
      else some ((-1, .ofBytes []), s)
  | .recv _ len, s => some (a.received.map (·.take len), s)
  | .send fd bytes, s =>
      let count := min a.sent bytes.length
      some (if count < 0 then (-1, s) else (count, s.record [.sent fd (bytes.take count.toNat)]))
  | .malloc _, s =>
      some (if a.allocates then (some s.heap.alloc.1, { s with heap := s.heap.alloc.2 }) else (none, s))
  | .free block, s => some ((), { s with heap := s.heap.free block })
  | .lockDestroy, s => some ((), s)
  | .handleCommand _ _, s => some (s.reply a.reply)
  | .getErrorInfo, s => some (s.reply a.reply)
  | .pthreadCreate _, s => some (a.thread, s)
  | .pthreadJoin _, s => some ((), s)
  | .dispatched header payload, s => some ((), s.record [.dispatched header payload])
  | .rejected header, s => some ((), s.record [.rejected header])
  | .nullContext, _ => none

/-- A step that leaves the client's record alone and announces nothing. -/
structure Quiet (s s' : Shared) : Prop where
  client : s'.ctx.client = s.ctx.client
  clock : s'.clock = s.clock
  generation : s'.generation = s.generation
  events : ∃ more, s'.events = s.events ++ more ∧ ∀ e ∈ more, e.isCallback = false

theorem Quiet.unrecorded {s s' : Shared} (client : s'.ctx.client = s.ctx.client)
    (clock : s'.clock = s.clock) (generation : s'.generation = s.generation)
    (events : s'.events = s.events) : Quiet s s' :=
  ⟨client, clock, generation, [], by rw [events, List.append_nil], nofun⟩

theorem Quiet.refl (s : Shared) : Quiet s s := .unrecorded rfl rfl rfl rfl

theorem Quiet.record (s : Shared) {event : Event} (h : event.isCallback = false) :
    Quiet s (s.record [event]) := by
  refine ⟨rfl, rfl, rfl, [event], rfl, ?_⟩
  intro e he
  rw [List.mem_singleton.mp he]
  exact h

/-- What a call does to the client's record. -/
inductive Effect (cfg : ServerConfig) (s : Shared) : ServerCall → Shared → Prop where
  | quiet {c : ServerCall} {s' : Shared} (h : Quiet s s') : Effect cfg s c s'
  | added {socket : Int} {addr : SockAddr} (h : s.ctx.client.connected = false) :
      Effect cfg s (.addClient socket addr) (s.addClient cfg socket addr).2
  | removed (h : s.ctx.client.connected = true) : Effect cfg s .removeClient (s.removeClient cfg)
  | stopped (h : s.ctx.client.connected = true) : Effect cfg s .stopClient s.stopClient
  | commanded (value : Int) :
      Effect cfg s (.storeLastCommand value) { s with ctx.client.lastCommand := value }
  | registered (port : UInt16) : Effect cfg s (.registerUdpPort port) (s.registerUdpPort port)

theorem effect_of_perform {cfg : ServerConfig} {a : Answers} {c : ServerCall} {s s' : Shared}
    {r : c.Result} (h : s.perform cfg a c = some (r, s')) : Effect cfg s c s' := by
  have hreply : ∀ (reply : Option Reply) {out : Option ResponseContext × Shared},
      s.reply reply = out → Quiet s out.2 := by
    intro reply out hout
    obtain ⟨heap, hheap⟩ := s.reply_heap reply
    rw [← hout, hheap]
    exact .unrecorded rfl rfl rfl rfl
  cases c with
  | addClient socket addr =>
      have hout : (s.addClient cfg socket addr).2 = s' := congrArg Prod.snd (Option.some.inj h)
      cases hconnected : s.ctx.client.connected with
      | false =>
          rw [← hout]
          exact .added hconnected
      | true =>
          rw [addClient_second hconnected] at hout
          rw [← hout]
          exact .quiet (.refl s)
  | removeClient =>
      cases h
      cases hconnected : s.ctx.client.connected with
      | true => exact .removed hconnected
      | false =>
          rw [removeClient_absent hconnected]
          exact .quiet (.refl s)
  | stopClient =>
      cases h
      cases hconnected : s.ctx.client.connected with
      | true => exact .stopped hconnected
      | false =>
          rw [stopClient_absent hconnected]
          exact .quiet (.refl s)
  | storeLastCommand value =>
      cases h
      exact .commanded value
  | registerUdpPort port =>
      cases h
      exact .registered port
  | store field value =>
      cases h
      exact .quiet (.unrecorded (ServerCtx.set_client _ _ _) rfl rfl rfl)
  | send fd bytes =>
      simp only [perform] at h
      split at h
      · cases h
        exact .quiet (.refl s)
      · cases h
        exact .quiet (.record s rfl)
  | malloc len =>
      simp only [perform] at h
      split at h
      · cases h
        exact .quiet (.unrecorded rfl rfl rfl rfl)
      · cases h
        exact .quiet (.refl s)
  | readHeader fd =>
      simp only [perform] at h
      split at h
      · cases h
        exact .quiet (.refl s)
      · cases h
        exact .quiet (.refl s)
  | free block =>
      cases h
      exact .quiet (.unrecorded rfl rfl rfl rfl)
  | handleCommand header payload => exact .quiet (hreply a.reply (Option.some.inj h))
  | getErrorInfo => exact .quiet (hreply a.reply (Option.some.inj h))
  | shutdown fd =>
      cases h
      exact .quiet (.record s rfl)
  | close fd =>
      cases h
      exact .quiet (.record s rfl)
  | dispatched header payload =>
      cases h
      exact .quiet (.record s rfl)
  | rejected header =>
      cases h
      exact .quiet (.record s rfl)
  | nullContext => exact r.elim
  | _ =>
      cases h
      exact .quiet (.refl s)

end Shared

end YaskawaComms.Server
