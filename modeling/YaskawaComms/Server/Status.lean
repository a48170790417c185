import YaskawaComms.Server.Histories
import YaskawaComms.Server.Ownership
import YaskawaComms.Server.Walk

/-!
# Status messages

Status is sent by UDP to the address of the client and the port that it has registered. The sending
functions read the client's record field by field, without the lock. What they read belongs together
as long as no client is removed in the meantime.
-/

namespace YaskawaComms.Server

open Protocol Program

def msgRobotPositionVelocityTorque : UInt8 := 0x04
def msgRobotStatus : UInt8 := 0x0a

def sizeofStatusPayload : Nat := 267
def sizeofRobotStatusPayload : Nat := 89

/-- A packed structure of this size; it is only copied. -/
structure Packed (size : Nat) where
  bytes : List UInt8
  length : bytes.length = size

/-- `status_payload_t` and `robot_status_payload_t`. -/
abbrev StatusPayload := Packed sizeofStatusPayload
abbrev RobotStatusPayload := Packed sizeofRobotStatusPayload

/-- The calls of the sending functions: each access to the context by itself, the clock and the
platform. -/
inductive SenderCall where
  | loadConnected
  | loadUdpPortRegistered
  | getTimestampMs
  | loadAddr
  | loadRegisteredUdpPort
  | loadUdpSocket
  | sendto (fd : Int) (buffer : List UInt8) (addr : SockAddr)

abbrev SenderCall.Result : SenderCall → Type
  | .loadConnected | .loadUdpPortRegistered => Bool
  | .getTimestampMs => UInt64
  | .loadAddr => SockAddr
  | .loadRegisteredUdpPort => UInt16
  | .loadUdpSocket | .sendto _ _ _ => Int

abbrev senderSignature : Signature := ⟨SenderCall, SenderCall.Result⟩

abbrev SenderProgram := Program senderSignature

namespace SenderProgram

def loadConnected : SenderProgram Bool := .call .loadConnected .ret
def loadUdpPortRegistered : SenderProgram Bool := .call .loadUdpPortRegistered .ret
def getTimestampMs : SenderProgram UInt64 := .call .getTimestampMs .ret
def loadAddr : SenderProgram SockAddr := .call .loadAddr .ret
def loadRegisteredUdpPort : SenderProgram UInt16 := .call .loadRegisteredUdpPort .ret
def loadUdpSocket : SenderProgram Int := .call .loadUdpSocket .ret
def platformSendto (fd : Int) (buffer : List UInt8) (addr : SockAddr) : SenderProgram Int :=
  .call (.sendto fd buffer addr) .ret

end SenderProgram

/-- Send a message with this payload; there is none for a null pointer. -/
def sendStatus {size : Nat} (type : UInt8) (status : Option (Packed size)) : SenderProgram Int := do
  let some payload := status | return -1
  if !(← SenderProgram.loadConnected) then
    return -1
  if !(← SenderProgram.loadUdpPortRegistered) then
    return 0
  let header : ProtocolHeader :=
    { magicNumber := protocolMagicNumber
      version := protocolVersion
      messageType := type
      timestampMs := ← SenderProgram.getTimestampMs
      payloadLength := UInt32.ofNat size }
  let addr ← SenderProgram.loadAddr
  let port ← SenderProgram.loadRegisteredUdpPort
  let fd ← SenderProgram.loadUdpSocket
  if 0 < (← SenderProgram.platformSendto fd (header.bytes ++ payload.bytes) { addr with port := port }) then
    return 1
  return 0

def robotProtocolSendPositionVelocityTorque (status : Option StatusPayload) : SenderProgram Int :=
  sendStatus msgRobotPositionVelocityTorque status

def robotProtocolSendRobotStatus (status : Option RobotStatusPayload) : SenderProgram Int :=
  sendStatus msgRobotStatus status

/-- A call of one of the sending functions. -/
inductive Report where
  | positionVelocityTorque (status : Option StatusPayload)
  | robotStatus (status : Option RobotStatusPayload)

def Report.code : Report → SenderProgram Int
  | .positionVelocityTorque status => robotProtocolSendPositionVelocityTorque status
  | .robotStatus status => robotProtocolSendRobotStatus status

structure Broadcast where
  server : System
  sender : SenderProgram Int

/-- A step: of the server, the start of a call of a sending function, or the next access or call of
that function. -/
inductive BroadcastMove where
  | server (move : Move)
  | send (report : Report)
  | sender (timestamp : UInt64) (sent : Int)

/-- What a call of the sender returns; it writes nothing. -/
def Shared.read (s : Shared) (timestamp : UInt64) (sent : Int) : (c : SenderCall) → c.Result
  | .loadConnected => s.ctx.client.connected
  | .loadUdpPortRegistered => s.ctx.client.udpPortRegistered
  | .getTimestampMs => timestamp
  | .loadAddr => s.ctx.client.addr
  | .loadRegisteredUdpPort => s.ctx.client.registeredUdpPort
  | .loadUdpSocket => s.ctx.udpSocket
  | .sendto _ _ _ => sent

namespace Broadcast

def created : Broadcast := ⟨System.created, .ret 0⟩

def step (cfg : ServerConfig) : BroadcastMove → Broadcast → Option Broadcast
  | .server move, s => (s.server.step cfg move).map fun server => { s with server := server }
  | .send report, s =>
      match s.sender with
      | .ret _ => if s.server.alive then some { s with sender := report.code } else none
      | .call _ _ => none
  | .sender timestamp sent, s =>
      match s.sender with
      | .ret _ => none
      | .call c next => some { s with sender := next (s.server.shared.read timestamp sent c) }

end Broadcast

/-- The address of every connection and the ports that it has registered, by the number of the
connection. The sender is `reading` from when it has found a registered port until it has read it. -/
structure Registry where
  address : Nat → Option UInt32
  ports : Nat → List UInt16
  reading : Bool
  datagrams : List SockAddr

/-- The connection whose message a thread handles. -/
def System.serving (s : System) : Move → Option Nat
  | .worker index _ => s.workers[index]?.bind Worker.serving
  | _ => none

namespace Registry

def empty : Registry := ⟨fun _ => none, fun _ => [], false, []⟩

/-- The port goes to the connection with this address. -/
def Owns (r : Registry) (addr : SockAddr) : Prop :=
  ∃ connection, r.address connection = some addr.address ∧ addr.port ∈ r.ports connection ∧ addr.port ≠ 0

def connect (r : Registry) (connection : Nat) (address : UInt32) : Registry :=
  { r with address := Function.update r.address connection (some address) }

def register (r : Registry) (connection : Nat) (port : UInt16) : Registry :=
  { r with ports := Function.update r.ports connection (port :: r.ports connection) }

def noteServer (s : System) (serving : Option Nat) (r : Registry) : Called → Registry
  | ⟨.addClient _ addr, added⟩ =>
      if added = 0 then r.connect (s.shared.generation + 1) addr.address else r
  | ⟨.registerUdpPort port, _⟩ =>
      match serving with
      | some connection => r.register connection port
      | none => r
  | _ => r

def noteSender (s : Shared) (r : Registry) : SenderCall → Registry
  | .loadUdpPortRegistered => { r with reading := s.ctx.client.udpPortRegistered }
  | .loadRegisteredUdpPort => { r with reading := false }
  | .sendto _ _ addr => { r with datagrams := addr :: r.datagrams }
  | _ => r

def note (cfg : ServerConfig) : BroadcastMove → Broadcast → Registry → Registry
  | .server move, s, r =>
      match s.server.called cfg move with
      | some made => r.noteServer s.server (s.server.serving move) made
      | none => r
  | .send _, _, r => r
  | .sender _ _, s, r =>
      match s.sender with
      | .ret _ => r
      | .call c _ => r.noteSender s.server.shared c

end Registry

/-- The system with its registry. -/
abbrev Broadcast.registering (cfg : ServerConfig) :
    BroadcastMove → Broadcast × Registry → Option (Broadcast × Registry) :=
  noting (Broadcast.step cfg) (Registry.note cfg)

/-- Calls that take the client away. -/
def ServerCall.removes : ServerCall → Bool
  | .removeClient | .stopClient => true
  | _ => false

/-- A step that disturbs neither the sender nor a registration: no client is removed while the sender
is reading its record, and a port is registered while the connection that asks for it is the client. -/
structure Broadcast.Undisturbed (cfg : ServerConfig) (t : Broadcast × Registry) (move : BroadcastMove) :
    Prop where
  removes : ∀ m made, move = .server m → t.1.server.called cfg m = some made → made.1.removes = true →
    t.1.server.shared.ctx.client.connected = true → t.2.reading = false
  registers : ∀ m port r, move = .server m → t.1.server.called cfg m = some ⟨.registerUdpPort port, r⟩ →
    t.1.server.shared.ctx.client.connected = true ∧
      t.1.server.serving m = some t.1.server.shared.generation

section Server

/-- Only a port that is not zero is registered. -/
def registers : Monitor serverSignature Unit where
  good _ c := match c with
    | .registerUdpPort port => port ≠ 0
    | _ => True
  allowed _ _ _ := True
  next _ _ _ := ()

def ServerCall.isRegistration : ServerCall → Bool
  | .registerUdpPort _ => true
  | _ => false

theorem registers_passes {c : ServerCall} (hc : c.isRegistration = false) :
    Passes registers (fun _ => True) c := by
  intro _ _
  cases c with
  | registerUdpPort port => cases hc
  | _ => exact ⟨trivial, fun _ => rfl⟩

theorem registers_rule : ServiceRule registers (fun _ => True) (fun _ => True) where
  ordinary c hc := by
    apply registers_passes
    cases c <;> first | rfl | cases hc
  registers port hport _ _ := by
    refine ⟨?_, fun _ => rfl⟩
    rintro rfl
    exact absurd hport (by decide)
  built _ _ := trivial
  sends _ ctx _ := sendCommandResponseContext_walks (fun _ => registers_passes rfl)
    (fun _ => registers_passes rfl) (registers_passes rfl) ctx
  handles _ _ _ _ := ⟨trivial, fun _ _ => ⟨trivial, fun _ _ => trivial⟩⟩
  informs _ _ := ⟨trivial, fun _ _ => ⟨trivial, fun _ _ => trivial⟩⟩
  accepts := acceptClient_walks (registers_passes rfl) (fun _ => registers_passes rfl)
    (fun _ _ => registers_passes rfl) fun _ => registers_passes rfl

theorem round_registers (cfg : ServerConfig) (function : ThreadFunction) :
    (function.round cfg).Obeys registers (fun _ _ => True) () := by
  cases function with
  | tcp =>
      exact (registers_rule.tcpThreadFunc (registers_passes rfl) (fun _ _ => registers_passes rfl) cfg ()
        trivial).mono fun _ _ _ => trivial
  | timeout =>
      exact (registers_rule.timeoutThreadFunc (registers_passes rfl) (fun _ => registers_passes rfl) ()
        trivial).mono fun _ _ _ => trivial

end Server

section Sender

/-- What the sender has read of the destination. -/
inductive Aim where
  | none
  | found
  | addressed (addr : SockAddr)
  | ready (addr : SockAddr)

/-- The destination is made of one address and one port, read after the port was found registered. -/
def aiming : Monitor senderSignature Aim where
  good aim c := match c with
    | .loadAddr => aim = .found
    | .loadRegisteredUdpPort => ∃ addr, aim = .addressed addr
    | .sendto _ _ addr => aim = .ready addr
    | .loadUdpPortRegistered => aim = .none
    | _ => True
  allowed _ _ _ := True
  next aim c := match c with
    | .loadUdpPortRegistered => fun registered => if registered then .found else .none
    | .loadAddr => fun addr => .addressed addr
    | .loadRegisteredUdpPort => fun port => match aim with
        | .addressed addr => .ready { addr with port := port }
        | _ => aim
    | _ => fun _ => aim

/-- Whether the sender is going to read more of the destination. -/
def Aim.reads : Aim → Bool
  | .found | .addressed _ => true
  | _ => false

theorem sendStatus_aiming {size : Nat} (type : UInt8) (status : Option (Packed size)) :
    (sendStatus type status).Obeys aiming (fun _ aim => aim.reads = false) .none := by
  cases status with
  | none => rfl
  | some payload =>
      unfold sendStatus
      apply obeys_keep trivial (fun _ => rfl)
      intro connected _
      apply obeys_ite
      · intro _
        rfl
      · intro _
        apply obeys_call rfl
        intro registered _
        cases registered with
        | false => rfl
        | true =>
            apply obeys_keep trivial (fun _ => rfl)
            intro timestamp _
            apply obeys_call rfl
            intro addr _
            refine ⟨⟨addr, rfl⟩, fun port _ => ?_⟩
            refine ⟨trivial, fun fd _ => ?_⟩
            refine ⟨rfl, fun sent _ => ?_⟩
            apply obeys_ite
            · intro _
              rfl
            · intro _
              rfl

theorem Report.code_aiming (report : Report) :
    report.code.Obeys aiming (fun _ aim => aim.reads = false) .none := by
  cases report with
  | positionVelocityTorque status => exact sendStatus_aiming _ status
  | robotStatus status => exact sendStatus_aiming _ status

end Sender

/-- What the registry says about the client's record. -/
structure Registry.Records (r : Registry) (s : Shared) : Prop where
  fresh : ∀ connection, s.generation < connection → r.address connection = none
  connected : s.ctx.client.connected = true →
    r.address s.generation = some s.ctx.client.addr.address
  registered : s.ctx.client.udpPortRegistered = true → s.ctx.client.connected = true ∧
    s.ctx.client.registeredUdpPort ∈ r.ports s.generation ∧ s.ctx.client.registeredUdpPort ≠ 0

/-- What has been read agrees with the record, or with the registry once it is complete. -/
def Aim.Agrees (r : Registry) (s : Shared) : Aim → Prop
  | .none => True
  | .found => s.ctx.client.udpPortRegistered = true
  | .addressed addr => s.ctx.client.udpPortRegistered = true ∧ addr.address = s.ctx.client.addr.address
  | .ready addr => r.Owns addr

/-- Nothing that the registry says is taken back. -/
structure Registry.Extends (r' r : Registry) : Prop where
  address : ∀ connection address, r.address connection = some address →
    r'.address connection = some address
  ports : ∀ connection, r.ports connection ⊆ r'.ports connection
  reading : r'.reading = r.reading
  datagrams : r'.datagrams = r.datagrams

section Registry

variable {r r' : Registry} {s s' : Shared}

theorem Registry.Extends.refl (r : Registry) : r.Extends r :=
  ⟨fun _ _ h => h, fun _ => List.Subset.refl _, rfl, rfl⟩

theorem Registry.Extends.owns (h : r'.Extends r) {addr : SockAddr} (howns : r.Owns addr) :
    r'.Owns addr := by
  obtain ⟨connection, haddress, hport, hzero⟩ := howns
  exact ⟨connection, h.address _ _ haddress, h.ports _ hport, hzero⟩

/-- The record stays a registered client's with its address. -/
def KeepsClient (s s' : Shared) : Prop :=
  s.ctx.client.udpPortRegistered = true →
    s'.ctx.client.udpPortRegistered = true ∧ s'.ctx.client.addr.address = s.ctx.client.addr.address

theorem Aim.Agrees.step {aim : Aim} (h : aim.Agrees r s) (hextends : r'.Extends r)
    (hkeeps : aim.reads = true → KeepsClient s s') : aim.Agrees r' s' := by
  cases aim with
  | none => trivial
  | found => exact (hkeeps rfl h).1
  | addressed addr =>
      obtain ⟨hregistered, haddress⟩ := h
      obtain ⟨hstill, hsame⟩ := hkeeps rfl hregistered
      exact ⟨hstill, haddress.trans hsame.symm⟩
  | ready addr => exact hextends.owns h

theorem Registry.Records.same (h : r.Records s) (hgeneration : s'.generation = s.generation)
    (hconnected : s'.ctx.client.connected = s.ctx.client.connected)
    (haddr : s'.ctx.client.addr = s.ctx.client.addr)
    (hregistered : s'.ctx.client.udpPortRegistered = s.ctx.client.udpPortRegistered)
    (hport : s'.ctx.client.registeredUdpPort = s.ctx.client.registeredUdpPort) :
    r.Records s' ∧ KeepsClient s s' := by
  refine ⟨⟨?_, ?_, ?_⟩, fun hset => ⟨hregistered.trans hset, congrArg _ haddr⟩⟩
  · rw [hgeneration]
    exact h.fresh
  · rw [hconnected, hgeneration, haddr]
    exact h.connected
  · rw [hregistered, hconnected, hport, hgeneration]
    exact h.registered

theorem Registry.Records.removed (h : r.Records s) (hgeneration : s'.generation = s.generation)
    (hclient : s'.ctx.client = .cleared) : r.Records s' := by
  refine ⟨?_, ?_, ?_⟩
  · rw [hgeneration]
    exact h.fresh
  · rw [hclient]
    exact nofun
  · rw [hclient]
    exact nofun

/-- Somebody connects. -/
theorem Registry.Records.added {cfg : ServerConfig} (h : r.Records s) (socket : Int) (addr : SockAddr)
    (hnone : s.ctx.client.connected = false) :
    (r.connect (s.generation + 1) addr.address).Records (s.addClient cfg socket addr).2 ∧
      (r.connect (s.generation + 1) addr.address).Extends r ∧
      KeepsClient s (s.addClient cfg socket addr).2 := by
  have hupdate : (r.connect (s.generation + 1) addr.address).address =
      Function.update r.address (s.generation + 1) (some addr.address) := rfl
  have hgeneration : (s.addClient cfg socket addr).2.generation = s.generation + 1 :=
    (Shared.addClient_first hnone).2
  have haddr : (s.addClient cfg socket addr).2.ctx.client.addr = addr := by
    rw [Shared.addClient_client hnone]
  have hregistered : (s.addClient cfg socket addr).2.ctx.client.udpPortRegistered = false := by
    rw [Shared.addClient_client hnone]
  refine ⟨⟨?_, ?_, ?_⟩, ⟨?_, fun _ => List.Subset.refl _, rfl, rfl⟩, ?_⟩
  · rw [hgeneration]
    intro connection hlater
    rw [hupdate, Function.update_of_ne (by omega)]
    exact h.fresh connection (by omega)
  · intro _
    rw [hupdate, hgeneration, haddr, Function.update_self]
  · rw [hregistered]
    exact nofun
  · intro connection address hsome
    rw [hupdate, Function.update_of_ne _, hsome]
    rintro rfl
    rw [h.fresh _ (Nat.lt_succ_self _)] at hsome
    cases hsome
  · intro hset
    rw [(h.registered hset).1] at hnone
    cases hnone

theorem Registry.Records.registers (h : r.Records s) {port : UInt16} (hport : port ≠ 0)
    (hconnected : s.ctx.client.connected = true) :
    (r.register s.generation port).Records (s.registerUdpPort port) ∧
      (r.register s.generation port).Extends r ∧ KeepsClient s (s.registerUdpPort port) := by
  have hupdate : (r.register s.generation port).ports =
      Function.update r.ports s.generation (port :: r.ports s.generation) := rfl
  refine ⟨⟨h.fresh, h.connected, ?_⟩, ⟨fun _ _ hsome => hsome, ?_, rfl, rfl⟩, fun _ => ⟨rfl, rfl⟩⟩
  · intro _
    refine ⟨hconnected, ?_, hport⟩
    show port ∈ (r.register s.generation port).ports s.generation
    rw [hupdate, Function.update_self]
    exact List.mem_cons_self
  · intro connection
    by_cases hcurrent : connection = s.generation
    · rw [hupdate, hcurrent, Function.update_self]
      exact List.subset_cons_self _ _
    · rw [hupdate, Function.update_of_ne hcurrent]
      exact List.Subset.refl _

/-- A call of the server, with what it adds to the registry. -/
theorem Registry.Records.call {cfg : ServerConfig} {a : Answers} {c : ServerCall} {result : c.Result}
    {system : System} (h : r.Records system.shared) (serving : Option Nat)
    (hperform : system.shared.perform cfg a c = some (result, s'))
    (hzero : ∀ port, c = .registerUdpPort port → port ≠ 0)
    (hserving : c.isRegistration = true → system.shared.ctx.client.connected = true ∧
      serving = some system.shared.generation) :
    (r.noteServer system serving ⟨c, result⟩).Records s' ∧
      (r.noteServer system serving ⟨c, result⟩).Extends r ∧
      ((c.removes = true → system.shared.ctx.client.connected = false) →
        KeepsClient system.shared s') := by
  cases c with
  | addClient socket addr =>
      have hout : system.shared.addClient cfg socket addr = (result, s') := Option.some.inj hperform
      cases hconnected : system.shared.ctx.client.connected with
      | true =>
          rw [Shared.addClient_second hconnected] at hout
          cases hout
          exact ⟨h, .refl r, fun _ hset => ⟨hset, rfl⟩⟩
      | false =>
          have hresult : result = 0 :=
            (congrArg Prod.fst hout).symm.trans (Shared.addClient_first hconnected).1
          have hs : (system.shared.addClient cfg socket addr).2 = s' := congrArg Prod.snd hout
          rw [Registry.noteServer, if_pos hresult, ← hs]
          obtain ⟨hrecords, hextends, hkeeps⟩ :
            Registry.Records _ (system.shared.addClient cfg socket addr).2 ∧ _ :=
              h.added socket addr hconnected
          exact ⟨hrecords, hextends, fun _ => hkeeps⟩
  | registerUdpPort port =>
      obtain ⟨hconnected, rfl⟩ := hserving rfl
      cases hperform
      obtain ⟨hrecords, hextends, hkeeps⟩ := h.registers (hzero port rfl) hconnected
      exact ⟨hrecords, hextends, fun _ => hkeeps⟩
  | removeClient =>
      cases hperform
      cases hconnected : system.shared.ctx.client.connected with
      | true =>
          refine ⟨h.removed ?_ (Shared.removeClient_client hconnected), .refl r, fun hnone => nomatch hnone rfl⟩
          rw [Shared.removeClient, if_pos hconnected]
          rfl
      | false =>
          rw [Shared.removeClient_absent hconnected]
          exact ⟨h, .refl r, fun _ hset => ⟨hset, rfl⟩⟩
  | stopClient =>
      cases hperform
      cases hconnected : system.shared.ctx.client.connected with
      | true =>
          refine ⟨h.removed ?_ (Shared.stopClient_client hconnected), .refl r, fun hnone => nomatch hnone rfl⟩
          rw [Shared.stopClient, if_pos hconnected]
          rfl
      | false =>
          rw [Shared.stopClient_absent hconnected]
          exact ⟨h, .refl r, fun _ hset => ⟨hset, rfl⟩⟩
  | storeLastCommand value =>
      cases hperform
      exact ⟨⟨h.fresh, h.connected, h.registered⟩, .refl r, fun _ hset => ⟨hset, rfl⟩⟩
  | _ =>
      cases Shared.effect_of_perform hperform with
      | quiet hquiet =>
          have hsame := h.same hquiet.generation (congrArg _ hquiet.client) (congrArg _ hquiet.client)
            (congrArg _ hquiet.client) (congrArg _ hquiet.client)
          exact ⟨hsame.1, .refl r, fun _ => hsame.2⟩

end Registry

/-- Everybody keeps to the rules, and what has been read of the client's record is true. -/
structure Truthful (t : Broadcast × Registry) (aim : Aim) : Prop where
  app : t.1.server.app.Obeys application (fun _ _ => True) ()
  workers : ∀ (j : Nat) w, t.1.server.workers[j]? = some w →
    w.code.Obeys registers (fun _ _ => True) ()
  sender : t.1.sender.Obeys aiming (fun _ aim => aim.reads = false) aim
  reading : t.2.reading = aim.reads
  records : t.2.Records t.1.server.shared
  agrees : aim.Agrees t.2 t.1.server.shared
  datagrams : ∀ addr ∈ t.2.datagrams, t.2.Owns addr

section Step

variable {cfg : ServerConfig} {t t' : Broadcast × Registry} {aim : Aim}

theorem truthful_created : Truthful (Broadcast.created, Registry.empty) .none :=
  ⟨trivial, nofun, rfl, rfl, ⟨fun _ _ => rfl, nofun, nofun⟩, trivial, nofun⟩

theorem Truthful.server {system : System} {r : Registry} (h : Truthful t aim)
    (happ : system.app.Obeys application (fun _ _ => True) ())
    (hworkers : ∀ (j : Nat) w, system.workers[j]? = some w → w.code.Obeys registers (fun _ _ => True) ())
    (hrecords : r.Records system.shared) (hextends : r.Extends t.2)
    (hkeeps : aim.reads = true → KeepsClient t.1.server.shared system.shared) :
    Truthful ({ t.1 with server := system }, r) aim := by
  refine ⟨happ, hworkers, h.sender, hextends.reading.trans h.reading, hrecords,
    h.agrees.step hextends hkeeps, ?_⟩
  rw [hextends.datagrams]
  exact fun addr haddr => hextends.owns (h.datagrams addr haddr)

theorem Truthful.silent {system : System} (h : Truthful t aim)
    (happ : system.app.Obeys application (fun _ _ => True) ())
    (hworkers : ∀ (j : Nat) w, system.workers[j]? = some w → w.code.Obeys registers (fun _ _ => True) ())
    (hclient : system.shared.ctx.client = t.1.server.shared.ctx.client)
    (hgeneration : system.shared.generation = t.1.server.shared.generation) :
    Truthful ({ t.1 with server := system }, t.2) aim := by
  obtain ⟨hrecords, hkeeps⟩ := h.records.same hgeneration (congrArg _ hclient) (congrArg _ hclient)
    (congrArg _ hclient) (congrArg _ hclient)
  exact h.server happ hworkers hrecords (.refl _) fun _ => hkeeps

/-- A step of the server. -/
theorem Truthful.server_step {move : Move} {system : System} (h : Truthful t aim)
    (hundisturbed : Broadcast.Undisturbed cfg t (.server move))
    (hstep : t.1.server.step cfg move = some system) :
    Truthful ({ t.1 with server := system }, Registry.note cfg (.server move) t.1 t.2) aim := by
  have hmakes := System.makes_of_step hstep
  generalize hcalled : t.1.server.called cfg move = made at hmakes
  have hnote : ∀ c, t.1.server.called cfg move = some c → Registry.note cfg (.server move) t.1 t.2 =
      t.2.noteServer t.1.server (t.1.server.serving move) c := by
    intro c hc
    simp only [Registry.note, hc]
  have hnone : t.1.server.called cfg move = none → Registry.note cfg (.server move) t.1 t.2 = t.2 := by
    intro hc
    simp only [Registry.note, hc]
  have happlication : ∀ {c : ServerCall} {next : c.Result → ServerProgram Unit},
      t.1.server.app = .call c next → application.good () c ∧
        ∀ r, (next r).Obeys application (fun _ _ => True) () := by
    intro c next happ
    have hobeys := h.app
    rw [happ] at hobeys
    exact ⟨hobeys.1, fun r => hobeys.2 r trivial⟩
  have hremoves : ∀ made, t.1.server.called cfg move = some made → aim.reads = true →
      made.1.removes = true → t.1.server.shared.ctx.client.connected = false := by
    intro made hmade hreads hremoves
    rw [← h.reading] at hreads
    by_contra hconnected
    rw [hundisturbed.removes move made rfl hmade hremoves (Bool.eq_true_of_not_eq_false hconnected)]
      at hreads
    cases hreads
  have hset : ∀ {index : Nat} {w' : Worker}, w'.code.Obeys registers (fun _ _ => True) () →
      ∀ (j : Nat) w, (t.1.server.workers.set index w')[j]? = some w →
        w.code.Obeys registers (fun _ _ => True) () := by
    intro index w' hobeys j w hw
    rcases System.worker_of_set hw with ⟨-, rfl⟩ | ⟨-, hold⟩
    · exact hobeys
    · exact h.workers j w hold
  cases hmakes with
  | job hidle halive =>
      rw [hnone hcalled]
      exact h.silent (Job.code_obeys _) h.workers rfl rfl
  | @created a function next happ =>
      rw [hnote _ hcalled]
      refine h.silent ((happlication happ).2 _) ?_ rfl rfl
      intro j w hw
      rcases System.worker_of_append hw with hold | ⟨-, rfl⟩
      · exact h.workers j w hold
      · exact round_registers cfg function
  | notCreated left happ =>
      rw [hnote _ hcalled]
      exact h.silent ((happlication happ).2 _) h.workers rfl rfl
  | joined happ hfinished =>
      rw [hnote _ hcalled]
      exact h.silent ((happlication happ).2 _) h.workers rfl rfl
  | @app a c next r shared happ hthread hperform =>
      rw [hnote _ hcalled]
      obtain ⟨hgood, hnext⟩ := happlication happ
      have hregistration : ∀ port, c ≠ .registerUdpPort port := by
        rintro port rfl
        exact hgood
      obtain ⟨hrecords, hextends, hkeeps⟩ := h.records.call _ hperform
        (fun port hport => absurd hport (hregistration port)) (fun hc => by
          cases c with
          | registerUdpPort port => exact absurd rfl (hregistration port)
          | _ => cases hc)
      exact h.server (hnext r) h.workers hrecords hextends
        fun hreads => hkeeps (hremoves _ hcalled hreads)
  | again hworker hcode =>
      rw [hnone hcalled]
      exact h.silent h.app (hset (round_registers cfg _)) rfl rfl
  | @worker index a w c next r shared hworker hcode hperform =>
      rw [hnote _ hcalled]
      have hobeys := h.workers index w hworker
      rw [hcode] at hobeys
      obtain ⟨hrecords, hextends, hkeeps⟩ := h.records.call
        (t.1.server.serving (.worker index a)) hperform
        (fun port hport => by
          subst hport
          exact hobeys.1)
        (fun hc => by
          cases c with
          | registerUdpPort port => exact hundisturbed.registers _ port r rfl hcalled
          | _ => cases hc)
      exact h.server h.app (hset (hobeys.2 r trivial)) hrecords hextends
        fun hreads => hkeeps (hremoves _ hcalled hreads)
  | reading hworker hcode =>
      rw [hnone hcalled]
      exact h.silent h.app h.workers rfl rfl
  | tick ms =>
      rw [hnone hcalled]
      exact h.silent h.app h.workers rfl rfl

/-- An access or a call of the sender. -/
theorem Truthful.sender_step {timestamp : UInt64} {sent : Int} {c : SenderCall}
    {next : c.Result → SenderProgram Int} (h : Truthful t aim) (hsender : t.1.sender = .call c next) :
    Truthful ({ t.1 with sender := next (t.1.server.shared.read timestamp sent c) },
        t.2.noteSender t.1.server.shared c)
      (aiming.next aim c (t.1.server.shared.read timestamp sent c)) := by
  have hobeys := h.sender
  rw [hsender] at hobeys
  obtain ⟨hgood, hnext⟩ := hobeys
  have hmore := hnext (t.1.server.shared.read timestamp sent c) trivial
  cases c with
  | loadUdpPortRegistered =>
      have hrecords := h.records
      refine ⟨h.app, h.workers, hmore, ?_, ⟨hrecords.fresh, hrecords.connected, hrecords.registered⟩, ?_,
        h.datagrams⟩
      · show t.1.server.shared.ctx.client.udpPortRegistered = _
        cases hregistered : t.1.server.shared.ctx.client.udpPortRegistered with
        | true => simp [aiming, Shared.read, hregistered, Aim.reads]
        | false => simp [aiming, Shared.read, hregistered, Aim.reads]
      · cases hregistered : t.1.server.shared.ctx.client.udpPortRegistered with
        | true => simp [aiming, Shared.read, hregistered, Aim.Agrees]
        | false => simp [aiming, Shared.read, hregistered, Aim.Agrees]
  | loadAddr =>
      obtain rfl : aim = .found := hgood
      exact ⟨h.app, h.workers, hmore, h.reading, h.records, ⟨h.agrees, rfl⟩, h.datagrams⟩
  | loadRegisteredUdpPort =>
      obtain ⟨addr, rfl⟩ := hgood
      obtain ⟨hregistered, haddress⟩ := h.agrees
      obtain ⟨hconnected, hport, hzero⟩ := h.records.registered hregistered
      have howns : t.2.Owns { addr with port := t.1.server.shared.ctx.client.registeredUdpPort } := by
        refine ⟨t.1.server.shared.generation, ?_, hport, hzero⟩
        rw [h.records.connected hconnected, haddress]
      exact ⟨h.app, h.workers, hmore, rfl, ⟨h.records.fresh, h.records.connected, h.records.registered⟩,
        howns, h.datagrams⟩
  | sendto fd buffer addr =>
      obtain rfl : aim = .ready addr := hgood
      have howns : t.2.Owns addr := h.agrees
      refine ⟨h.app, h.workers, hmore, h.reading,
        ⟨h.records.fresh, h.records.connected, h.records.registered⟩, howns, ?_⟩
      intro other hother
      rcases List.mem_cons.mp hother with rfl | hold
      · exact howns
      · exact h.datagrams other hold
  | _ => exact ⟨h.app, h.workers, hmore, h.reading, h.records, h.agrees, h.datagrams⟩

theorem truthful_step {move : BroadcastMove} (h : Truthful t aim)
    (hundisturbed : Broadcast.Undisturbed cfg t move)
    (hstep : Broadcast.registering cfg move t = some t') : ∃ aim', Truthful t' aim' := by
  obtain ⟨hstep, hregistry⟩ := noting_eq_some hstep
  obtain ⟨s', r'⟩ := t'
  obtain rfl : r' = _ := hregistry
  cases move with
  | server move =>
      obtain ⟨system, hsystem, hs'⟩ := Option.map_eq_some_iff.mp hstep
      obtain rfl : _ = s' := hs'
      exact ⟨aim, h.server_step hundisturbed hsystem⟩
  | send report =>
      simp only [Broadcast.step] at hstep
      split at hstep
      · next result hidle =>
          split at hstep
          · cases hstep
            have hdone := h.sender
            rw [hidle] at hdone
            exact ⟨.none, h.app, h.workers, report.code_aiming, h.reading.trans hdone, h.records, trivial,
              h.datagrams⟩
          · cases hstep
      · cases hstep
  | sender timestamp sent =>
      simp only [Broadcast.step] at hstep
      split at hstep
      · cases hstep
      · next c next hsender =>
          cases hstep
          have hnote : Registry.note cfg (.sender timestamp sent) t.1 t.2 =
              t.2.noteSender t.1.server.shared c := by
            simp only [Registry.note, hsender]
          rw [hnote]
          exact ⟨_, h.sender_step hsender⟩

/-- Every datagram is addressed to one connection: its address, with a port other than zero that it has
registered. -/
theorem datagrams_of_run
    (hrun : Run (Broadcast.registering cfg) (Broadcast.Undisturbed cfg)
      (Broadcast.created, Registry.empty) t) : ∀ addr ∈ t.2.datagrams, t.2.Owns addr := by
  have hinv : ∃ aim, Truthful t aim := by
    apply hrun.invariant ⟨_, truthful_created⟩
    rintro _ _ _ ⟨_, h⟩ hundisturbed hstep
    exact truthful_step h hundisturbed hstep
  obtain ⟨_, h⟩ := hinv
  exact h.datagrams

end Step

section Examples

/-- A step in which no client is removed and a port is registered by the client. -/
def Broadcast.undisturbedCheck (cfg : ServerConfig) (t : Broadcast × Registry) : BroadcastMove → Bool
  | .server move =>
      match t.1.server.called cfg move with
      | some ⟨.registerUdpPort _, _⟩ => t.1.server.shared.ctx.client.connected &&
          decide (t.1.server.serving move = some t.1.server.shared.generation)
      | some made => !made.1.removes
      | none => true
  | _ => true

theorem undisturbed_of_check {cfg : ServerConfig} {t : Broadcast × Registry} {move : BroadcastMove}
    (h : Broadcast.undisturbedCheck cfg t move = true) : Broadcast.Undisturbed cfg t move := by
  constructor
  · rintro m ⟨c, r⟩ rfl hcalled hremoves _
    rw [Broadcast.undisturbedCheck, hcalled] at h
    cases c with
    | removeClient => cases h
    | stopClient => cases h
    | _ => cases hremoves
  · rintro m port r rfl hcalled
    rw [Broadcast.undisturbedCheck, hcalled] at h
    obtain ⟨hconnected, hserving⟩ := Bool.and_eq_true_iff.mp h
    exact ⟨hconnected, of_decide_eq_true hserving⟩

def restingStatus : StatusPayload := ⟨List.replicate sizeofStatusPayload 0, List.length_replicate⟩

/-- A client connects and registers port 0x1234, and the application starts to send its status. -/
def registeredMoves : List BroadcastMove :=
  (startMoves ++ acceptMoves ++ List.replicate 30 (Move.worker 0
    { select := .ok [7]
      header := (sizeofProtocolHeader, headerOf 2 msgRegisterUdpPort)
      received := some [0x34, 0x12] })).map .server ++
    [.send (.positionVelocityTorque (some restingStatus))]

theorem datagrams_registered : ∃ t : Broadcast × Registry,
    t.2.datagrams = [⟨1, 0x1234⟩] ∧ ∀ addr ∈ t.2.datagrams, t.2.Owns addr := by
  obtain ⟨t, hrun, hend⟩ := Run.exists_of_follow
    (fun (t : Broadcast × Registry) move => Broadcast.undisturbedCheck plainConfig t move)
    (registeredMoves ++ List.replicate 7 (.sender 0 1))
    (fun t : Broadcast × Registry => decide (t.2.datagrams = [⟨1, 0x1234⟩]))
    (fun _ _ hcheck => undisturbed_of_check hcheck)
    (by decide +kernel : (Run.follow (Broadcast.registering plainConfig) _ _
      (Broadcast.created, Registry.empty)).any _ = true)
  exact ⟨t, of_decide_eq_true hend, datagrams_of_run hrun⟩

/-- The timeout thread removes the client after its address has been read and before its port is: the
datagram goes to port 0. -/
theorem datagram_to_port_zero : ∃ t : Broadcast × Registry,
    Run (Broadcast.registering plainConfig) (fun _ _ => True) (Broadcast.created, Registry.empty) t ∧
      ∃ addr ∈ t.2.datagrams, ¬ t.2.Owns addr := by
  obtain ⟨t, hrun, hend⟩ := Run.exists_of_follow (fun _ _ => true)
    (registeredMoves ++ List.replicate 4 (.sender 0 1) ++
      (.tick 6000 :: List.replicate 4 (.worker 1 {})).map .server ++ List.replicate 3 (.sender 0 1))
    (fun t : Broadcast × Registry => decide ((⟨1, 0⟩ : SockAddr) ∈ t.2.datagrams))
    (fun _ _ _ => trivial)
    (by decide +kernel : (Run.follow (Broadcast.registering plainConfig) _ _
      (Broadcast.created, Registry.empty)).any _ = true)
  refine ⟨t, hrun, ⟨1, 0⟩, of_decide_eq_true hend, ?_⟩
  rintro ⟨_, _, _, hzero⟩
  exact hzero rfl

end Examples

end YaskawaComms.Server
