import YaskawaComms.Server.Responses
import YaskawaComms.Server.Roles

/-!
# UDP port registration

The registered port of a client is a function of the messages that the client has sent on its
connection: the port of the last registration that the server accepts.
-/

namespace YaskawaComms.Server

open Protocol Program

/-- A message of the client; `allocated` tells whether there was memory for its payload. -/
structure Message where
  header : ProtocolHeader
  payload : List UInt8
  allocated : Bool
  deriving DecidableEq

/-- The registration of a port, as the protocol has it: at least two bytes and a port, and with the
rejecting policy a third byte with the right version. -/
def Message.Registers (policy : VersionMismatch) (m : Message) : Prop :=
  m.header.messageType = msgRegisterUdpPort ∧
    sizeofUdpPortRegistrationPayload ≤ m.payload.length ∧ udpPort m.payload ≠ 0 ∧
    (policy = .reject → sizeofUdpPortRegistrationV2Payload ≤ m.payload.length ∧
      m.payload.getD 2 0 = protocolVersion)

instance (policy : VersionMismatch) (m : Message) : Decidable (m.Registers policy) :=
  inferInstanceAs (Decidable (_ ∧ _ ∧ _ ∧ _))

/-- The server reads the payload of a message if it is not too long and there is memory for it. -/
def Message.Accepted (m : Message) : Prop :=
  m.header.payloadLength.toNat ≤ maxPayloadSize ∧ m.allocated = true

instance (m : Message) : Decidable m.Accepted := inferInstanceAs (Decidable (_ ∧ _))

/-- The port of the last message that meets a condition. -/
def lastPort (p : Message → Prop) [DecidablePred p] (sent : List Message) : Option UInt16 :=
  (sent.filter fun m => p m).getLast?.map fun m => udpPort m.payload

theorem lastPort_append (p : Message → Prop) [DecidablePred p] (sent : List Message) (m : Message) :
    lastPort p (sent ++ [m]) = if p m then some (udpPort m.payload) else lastPort p sent := by
  by_cases hp : p m
  · simp [lastPort, List.filter_append, hp]
  · simp [lastPort, List.filter_append, hp]

/-- What the server keeps about the registration: nothing without a client. -/
def Shared.Registration (s : Shared) (port : Option UInt16) : Prop :=
  if s.ctx.client.connected then
    s.ctx.client.udpPortRegistered = port.isSome ∧ s.ctx.client.registeredUdpPort = port.getD 0
  else s.ctx.client = .cleared

/-- One thing that happens, handled as one step. -/
inductive Action where
  /-- Somebody connects; `accepted` in the answers is the new socket with its address. -/
  | connect (answers : Answers)
  /-- A header has been read; `transport` holds what the client has sent after it. -/
  | message (env : Environment) (header : ProtocolHeader) (transport : Transport)
      (mallocs : List Bool)
  /-- The TCP thread finds the connection gone. -/
  | disconnect
  /-- The timeout thread looks after the client. -/
  | timeout
  | stop
  | tick (ms : Nat)

/-- A handler that gives the same answers to all calls. -/
def Shared.answer (cfg : ServerConfig) (a : Answers) (c : ServerCall) (s : Shared) :
    Option c.Result × Shared :=
  match s.perform cfg a c with
  | some (r, s') => (some r, s')
  | none => (none, s)

theorem perform_of_answer {cfg : ServerConfig} {a : Answers} {c : ServerCall} {s s' : Shared}
    {r : c.Result} (h : s.answer cfg a c = (some r, s')) : s.perform cfg a c = some (r, s') := by
  unfold Shared.answer at h
  split at h
  · next hperform =>
      cases h
      exact hperform
  · cases h

/-- Run a piece of code to its end. -/
def Shared.run {α : Type} (cfg : ServerConfig) (a : Answers) (p : ServerProgram α) (s : Shared) :
    Option Shared :=
  match p.exec (Shared.answer cfg a) s with
  | (some _, s') => some s'
  | (none, _) => none

theorem exec_of_run {α : Type} {cfg : ServerConfig} {a : Answers} {p : ServerProgram α}
    {s s' : Shared} (h : s.run cfg a p = some s') :
    ∃ done, p.exec (Shared.answer cfg a) s = (some done, s') := by
  unfold Shared.run at h
  split at h
  · next done _ hexec =>
      cases h
      exact ⟨done, hexec⟩
  · cases h

/-- The server with the messages that the client has sent on its connection. -/
structure Session where
  shared : Shared
  sent : List Message

/-- A step; without a value it does not come to its end. -/
def Session.step (cfg : ServerConfig) : Action → Session → Option Session
  | .connect a, s => (s.shared.run cfg a acceptClient).map fun shared =>
      ⟨shared, if shared.generation = s.shared.generation then s.sent else []⟩
  | .message env header transport mallocs, s =>
      if s.shared.ctx.client.connected then
        match (handleMessage cfg header).exec (World.handle cfg env) ⟨s.shared, transport, mallocs⟩ with
        | (some (), w) =>
            some ⟨w.shared, s.sent ++
              [⟨header, transport.stream.take header.payloadLength.toNat, mallocs.headD true⟩]⟩
        | (none, _) => none
      else none
  | .disconnect, s => (s.shared.run cfg {} removeClient).map fun shared => ⟨shared, s.sent⟩
  | .timeout, s => (s.shared.run cfg {} timeoutThreadFunc).map fun shared => ⟨shared, s.sent⟩
  | .stop, s => (s.shared.run cfg {} robotProtocolStop).map fun shared => ⟨shared, s.sent⟩
  | .tick ms, s => some ⟨{ s.shared with clock := s.shared.clock + ms }, s.sent⟩

/-- The port registered by the messages of the connection. -/
def Session.port (cfg : ServerConfig) (s : Session) : Option UInt16 :=
  lastPort (fun m => m.Registers cfg.versionMismatch ∧ m.Accepted) s.sent

section Message

variable {cfg : ServerConfig} {env : Environment} {w w' : World}

/-- The server's decision about a payload is the one of the protocol. -/
theorem registersPort_iff (payload : List UInt8) :
    RegistersPort cfg payload ↔
      sizeofUdpPortRegistrationPayload ≤ payload.length ∧ udpPort payload ≠ 0 ∧
        (cfg.versionMismatch = .reject → sizeofUdpPortRegistrationV2Payload ≤ payload.length ∧
          payload.getD 2 0 = protocolVersion) := by
  have hport : 0 < udpPort payload ↔ udpPort payload ≠ 0 := UInt16.pos_iff_ne_zero
  rw [RegistersPort, hport, and_comm (a := versionError _ _ = none)]
  apply and_congr_right
  intro _
  apply and_congr_right
  intro _
  cases cfg.versionMismatch with
  | ignore =>
      refine iff_of_true rfl ?_
      intro hreject
      cases hreject
  | warn =>
      refine iff_of_true rfl ?_
      intro hreject
      cases hreject
  | reject =>
      simp only [versionError, forall_const]
      split
      · next hlong =>
          by_cases hversion : payload.getD 2 0 = protocolVersion
          · rw [if_neg (not_not_intro hversion)]
            exact iff_of_true rfl ⟨hlong, hversion⟩
          · rw [if_pos hversion]
            exact iff_of_false (Option.some_ne_none _) fun h => hversion h.2
      · next hshort => exact iff_of_false (Option.some_ne_none _) fun h => hshort h.1

theorem respondError_record {err : ErrorPayload}
    (hexec : (respond (msgErrResponse err) >>= fun _ => .ret ()).exec (World.handle cfg env) w =
      (some (), w'))
    (hconnected : w.shared.ctx.client.connected = true) :
    ∃ lastCommand, w'.shared.ctx.client = { w.shared.ctx.client with lastCommand := lastCommand } := by
  have hobeys : (respond (msgErrResponse err) >>= fun _ => Program.ret ()).Obeys
      (answering env false w.shared.ctx.client.socket)
      (fun _ m' => m'.removed = false ∧ m'.port = none) .none := by
    apply (respondError_answering rfl err).bind
    rintro _ _ rfl
    exact ⟨rfl, rfl⟩
  obtain ⟨m, ⟨hremoved, hport⟩, hholds⟩ := hobeys.exec
    (fun _ _ _ _ _ hgood hinv hhandle => hinv.call hconnected hgood hhandle) (holds_start nofun) hexec
  obtain ⟨lastCommand, hclient⟩ := hholds.kept hremoved
  rw [Outcome.record, hport] at hclient
  exact ⟨lastCommand, hclient⟩

/-- A message registers its port if it is an accepted registration, and changes nothing else about
the registration unless the client is removed. -/
theorem handleMessage_record {header : ProtocolHeader}
    (hconnected : w.shared.ctx.client.connected = true)
    (hexec : (handleMessage cfg header).exec (World.handle cfg env) w = (some (), w')) :
    let m : Message :=
      ⟨header, w.transport.stream.take header.payloadLength.toNat, w.mallocs.headD true⟩
    let client := w.shared.ctx.client
    w'.shared.ctx.client = .cleared ∨ ∃ lastCommand, w'.shared.ctx.client =
      { (if m.Registers cfg.versionMismatch ∧ m.Accepted then
          { client with registeredUdpPort := udpPort m.payload, udpPortRegistered := true }
        else client) with lastCommand := lastCommand } := by
  intro m client
  rw [← bind_pure (handleMessage cfg header)] at hexec
  by_cases hsize : header.payloadLength.toNat ≤ maxPayloadSize
  · cases hmalloc : w.mallocs.headD true with
    | false =>
        rw [exec_handleMessage_rejected hsize hmalloc] at hexec
        obtain ⟨lastCommand, hclient⟩ := respondError_record hexec hconnected
        refine Or.inr ⟨lastCommand, ?_⟩
        rw [if_neg fun h => Bool.false_ne_true (hmalloc.symm.trans h.2.2)]
        exact hclient
    | true =>
        by_cases hstream : header.payloadLength.toNat ≤ w.transport.stream.length
        · rw [exec_handleMessage hsize hmalloc hstream, bind_pure] at hexec
          obtain ⟨o, hanswered, hholds, _⟩ := handlePayload_answered hexec hconnected
            fun h : false = true => absurd h Bool.false_ne_true
          cases hremoved : o.removed with
          | true => exact Or.inl (hholds.gone hremoved)
          | false =>
              obtain ⟨lastCommand, hclient⟩ := hholds.kept hremoved
              refine Or.inr ⟨lastCommand, ?_⟩
              have haccepted : m.Accepted := ⟨hsize, hmalloc⟩
              have hregisters : (m.Registers cfg.versionMismatch ∧ m.Accepted) ↔
                  header.messageType = msgRegisterUdpPort ∧ RegistersPort cfg m.payload := by
                rw [and_iff_left haccepted, registersPort_iff]
                rfl
              have hport := hanswered.port
              rw [hclient, Outcome.record, hport]
              by_cases h : header.messageType = msgRegisterUdpPort ∧ RegistersPort cfg m.payload
              · rw [if_pos h, if_pos (hregisters.mpr h)]
                rfl
              · rw [if_neg h, if_neg (mt hregisters.mp h)]
                rfl
        · have hshort : _ ∨ ∃ v, (handleMessage cfg header >>= pure).exec (World.handle cfg env) w = _ ∧ _ :=
            exec_handleMessage_short hsize hmalloc (Nat.lt_of_not_le hstream) pure
          rcases hshort with ⟨v, hnone⟩ | ⟨v, hsome, _, heap, hshared⟩
          · rw [hnone] at hexec
            cases hexec
          · rw [hsome] at hexec
            cases hexec
            refine Or.inl ?_
            rw [hshared]
            exact Shared.removeClient_client hconnected
  · rw [exec_handleMessage_oversized hsize] at hexec
    obtain ⟨lastCommand, hclient⟩ := respondError_record hexec hconnected
    refine Or.inr ⟨lastCommand, ?_⟩
    rw [if_neg fun h => hsize h.2.1]
    exact hclient

end Message

section Step

variable {cfg : ServerConfig} {s s' : Session}

/-- A call that leaves the client's record as it is or clears it. -/
def ServerCall.releases : ServerCall → Bool
  | .addClient _ _ | .storeLastCommand _ | .registerUdpPort _ => false
  | _ => true

theorem Shared.Effect.releases {c : ServerCall} {s s' : Shared} (h : Shared.Effect cfg s c s')
    (hc : c.releases = true) : s'.ctx.client = s.ctx.client ∨ s'.ctx.client = .cleared := by
  cases h with
  | quiet hquiet => exact Or.inl hquiet.client
  | removed hconnected => exact Or.inr (Shared.removeClient_client hconnected)
  | stopped hconnected => exact Or.inr (Shared.stopClient_client hconnected)
  | added hconnected => cases hc
  | commanded value => cases hc
  | registered port => cases hc

theorem Shared.run_releases {α M : Type} {mon : Monitor serverSignature M} {post : α → M → Prop} {m : M}
    {p : ServerProgram α} {a : Answers} {s s' : Shared} (hobeys : p.Obeys mon post m)
    (hallowed : ∀ m c r, mon.allowed m c r) (hgood : ∀ m c, mon.good m c → c.releases = true)
    (hrun : s.run cfg a p = some s') : s'.ctx.client = s.ctx.client ∨ s'.ctx.client = .cleared := by
  have hreleased : ∀ m c (v : Shared) r (v' : Shared), mon.good m c →
      v.ctx.client = s.ctx.client ∨ v.ctx.client = .cleared →
      v.answer cfg a c = (some r, v') →
      mon.allowed m c r ∧ (v'.ctx.client = s.ctx.client ∨ v'.ctx.client = .cleared) := by
    intro m c v r v' hc hv hanswer
    refine ⟨hallowed m c r, ?_⟩
    rcases (Shared.effect_of_perform (perform_of_answer hanswer)).releases (hgood m c hc) with hsame | hcleared
    · rw [hsame]
      exact hv
    · exact Or.inr hcleared
  obtain ⟨done, hexec⟩ := exec_of_run hrun
  obtain ⟨_, _, hend⟩ := hobeys.exec hreleased (Or.inl rfl) hexec
  exact hend

theorem timeoutRole_releases (m : TimeoutPhase) (c : ServerCall) (h : timeoutRole.good m c) :
    c.releases = true := by
  cases c <;> first | rfl | exact h.elim

theorem operating_releases (m : Unit) (c : ServerCall) (h : operating.good m c) :
    c.releases = true := by
  cases c <;> first | rfl | exact h.elim

theorem acceptClient_run (s : Shared) (a : Answers) :
    s.run cfg a acceptClient = some (
      if 0 ≤ a.accepted.1 then
        let out := s.addClient cfg a.accepted.1 a.accepted.2
        if out.1 ≠ 0 then out.2.record [.closed a.accepted.1] else out.2
      else s) := by
  have hload : ∀ f : Int → ServerProgram Unit, (load .tcpSocket >>= f).exec (Shared.answer cfg a) s =
      (f s.ctx.tcpSocket).exec (Shared.answer cfg a) s := fun _ => exec_call_some rfl
  have haccept : ∀ fd (f : Int × SockAddr → ServerProgram Unit), (platformAccept fd >>= f).exec
      (Shared.answer cfg a) s = (f a.accepted).exec (Shared.answer cfg a) s :=
    fun _ _ => exec_call_some rfl
  have hadd : ∀ f : Int → ServerProgram Unit, (addClient a.accepted.1 a.accepted.2 >>= f).exec
      (Shared.answer cfg a) s = (f (s.addClient cfg a.accepted.1 a.accepted.2).1).exec
        (Shared.answer cfg a) (s.addClient cfg a.accepted.1 a.accepted.2).2 :=
    fun _ => exec_call_some rfl
  unfold Shared.run acceptClient
  rw [hload, haccept]
  dsimp only
  by_cases hsocket : 0 ≤ a.accepted.1
  · rw [if_pos hsocket, if_pos hsocket, hadd]
    by_cases hrejected : (s.addClient cfg a.accepted.1 a.accepted.2).1 ≠ 0
    · rw [if_pos hrejected, if_pos hrejected]
      rfl
    · rw [if_neg hrejected, if_neg hrejected]
      rfl
  · rw [if_neg hsocket, if_neg hsocket]
    rfl

/-- The record agrees with the messages of the connection. -/
def Session.Agrees (cfg : ServerConfig) (s : Session) : Prop := s.shared.Registration (s.port cfg)

theorem Session.Agrees.released {shared : Shared} (h : s.Agrees cfg)
    (hreleased : shared.ctx.client = s.shared.ctx.client ∨ shared.ctx.client = .cleared) :
    Session.Agrees cfg ⟨shared, s.sent⟩ := by
  unfold Session.Agrees Shared.Registration at h ⊢
  rcases hreleased with hsame | hcleared
  · rw [hsame]
    exact h
  · rw [hcleared]
    exact rfl

theorem Session.Agrees.connect (h : s.Agrees cfg) {a : Answers} {shared : Shared}
    (hrun : s.shared.run cfg a acceptClient = some shared) :
    Session.Agrees cfg ⟨shared, if shared.generation = s.shared.generation then s.sent else []⟩ := by
  rw [acceptClient_run] at hrun
  cases hrun
  by_cases hsocket : 0 ≤ a.accepted.1
  · rw [if_pos hsocket]
    cases hconnected : s.shared.ctx.client.connected with
    | true =>
        rw [Shared.addClient_second hconnected]
        dsimp only
        have hsame : (s.shared.record [.closed a.accepted.1]).generation = s.shared.generation := rfl
        rw [if_pos (by decide), if_pos hsame]
        exact h.released (Or.inl rfl)
    | false =>
        have hresult : (s.shared.addClient cfg a.accepted.1 a.accepted.2).1 = 0 :=
          (Shared.addClient_first hconnected).1
        have hnew : (s.shared.addClient cfg a.accepted.1 a.accepted.2).2.generation ≠
            s.shared.generation := by
          rw [(Shared.addClient_first hconnected).2]
          exact Nat.succ_ne_self _
        dsimp only
        rw [if_neg (not_not_intro hresult), if_neg hnew]
        show Shared.Registration _ _
        rw [Shared.Registration, Shared.addClient_client hconnected]
        exact ⟨rfl, rfl⟩
  · rw [if_neg hsocket, if_pos rfl]
    exact h

theorem Session.Agrees.message (h : s.Agrees cfg) {env : Environment} {header : ProtocolHeader}
    {transport : Transport} {mallocs : List Bool} {w : World}
    (hconnected : s.shared.ctx.client.connected = true)
    (hexec : (handleMessage cfg header).exec (World.handle cfg env) ⟨s.shared, transport, mallocs⟩ =
      (some (), w)) :
    Session.Agrees cfg ⟨w.shared, s.sent ++
      [⟨header, transport.stream.take header.payloadLength.toNat, mallocs.headD true⟩]⟩ := by
  unfold Session.Agrees Shared.Registration at h ⊢
  rw [if_pos hconnected] at h
  rcases handleMessage_record (by exact hconnected) hexec with hcleared | ⟨lastCommand, hclient⟩
  · rw [hcleared]
    exact rfl
  · rw [Session.port, lastPort_append, hclient]
    split
    · exact ⟨rfl, rfl⟩
    · exact h

theorem Session.Agrees.step {action : Action} (h : s.Agrees cfg)
    (hstep : s.step cfg action = some s') : s'.Agrees cfg := by
  cases action with
  | connect a =>
      obtain ⟨shared, hrun, rfl⟩ := Option.map_eq_some_iff.mp hstep
      exact h.connect hrun
  | message env header transport mallocs =>
      simp only [Session.step] at hstep
      split at hstep
      · next hconnected =>
          split at hstep
          · next w hexec =>
              cases hstep
              exact h.message hconnected hexec
          · cases hstep
      · cases hstep
  | disconnect =>
      simp only [Session.step] at hstep
      obtain ⟨shared, hrun, rfl⟩ := Option.map_eq_some_iff.mp hstep
      have hobeys : removeClient.Obeys timeoutRole (fun _ _ => True) ⟨none, true⟩ :=
        ⟨rfl, fun _ _ => trivial⟩
      exact h.released (Shared.run_releases hobeys (fun _ _ _ => trivial) timeoutRole_releases hrun)
  | timeout =>
      obtain ⟨shared, hrun, rfl⟩ := Option.map_eq_some_iff.mp hstep
      exact h.released
        (Shared.run_releases timeoutThreadFunc_obeys (fun _ _ _ => trivial) timeoutRole_releases hrun)
  | stop =>
      obtain ⟨shared, hrun, rfl⟩ := Option.map_eq_some_iff.mp hstep
      exact h.released
        (Shared.run_releases robotProtocolStop_obeys (fun _ _ _ => trivial) operating_releases hrun)
  | tick ms =>
      cases hstep
      exact h

/-- In every run from a server without a client, the registration is the one of the last registering
message that the client has sent on its connection, and there is none without such a message. -/
theorem registration_of_run {start : Shared} (hstart : start.ctx.client = .cleared)
    (hrun : Run (fun action s => Session.step cfg action s) (fun _ _ => True) ⟨start, []⟩ s) :
    s.shared.Registration (s.port cfg) := by
  have hagrees : Session.Agrees cfg ⟨start, []⟩ := by
    unfold Session.Agrees Shared.Registration
    rw [hstart]
    exact rfl
  exact hrun.invariant hagrees fun _ _ _ h _ hstep => Session.Agrees.step h hstep

end Step

section Examples

def connectAction : Action := .connect { accepted := (7, ⟨1, 2⟩) }

/-- A registration of the port 0x1234 with this length. -/
def registerAction (length : UInt32) (payload : List UInt8) : Action :=
  .message plainEnvironment (headerOf length msgRegisterUdpPort) (quiet payload) []

theorem registration_registered : ∃ s : Session, s.shared.ctx.client.registeredUdpPort = 0x1234 ∧
    s.shared.Registration (s.port plainConfig) := by
  obtain ⟨s, hrun, hport⟩ := Run.exists_of_follow (fun (_ : Session) (_ : Action) => true)
    [connectAction, registerAction 2 [0x34, 0x12]]
    (fun s : Session => s.shared.ctx.client.registeredUdpPort = 0x1234) (fun _ _ _ => trivial)
    (by decide +kernel : (Run.follow (fun action s => Session.step plainConfig action s) _ _
      ⟨robotProtocolCreate, []⟩).any _ = true)
  exact ⟨s, of_decide_eq_true hport, registration_of_run rfl hrun⟩

/-- A payload that is one byte too long. -/
def longPayload : List UInt8 := List.replicate (maxPayloadSize + 1) 1

/-- A registration that is too long to be read, though it has everything else. -/
theorem registration_unread : ∃ s : Session,
    Run (fun action s => Session.step plainConfig action s) (fun _ _ => True)
      ⟨robotProtocolCreate, []⟩ s ∧
      ¬ s.shared.Registration (lastPort (fun m => m.Registers plainConfig.versionMismatch) s.sent) := by
  let header := headerOf (UInt32.ofNat (maxPayloadSize + 1)) msgRegisterUdpPort
  have hlength : header.payloadLength.toNat = maxPayloadSize + 1 := by decide
  obtain ⟨s, hconnect, hconnected, hplain, hsent⟩ : ∃ s,
      Session.step plainConfig connectAction ⟨robotProtocolCreate, []⟩ = some s ∧
        s.shared.ctx.client.connected = true ∧ s.shared.ctx.client.udpPortRegistered = false ∧
        s.sent = [] := ⟨_, rfl, rfl, rfl, rfl⟩
  let rejecting : World := ⟨s.shared.record [.rejected header], quiet longPayload, []⟩
  have hstart : Handled rejecting true false rejecting := Handled.start hconnected fun _ => rfl
  have hobeys : (respond (msgErrResponseInt (-1)) >>= fun _ => .ret ()).Obeys
      (handling true false rejecting.shared.ctx.client.socket) (fun _ _ => True) false :=
    (respondError_obeys (-1)).bind fun _ _ _ => trivial
  obtain ⟨_, w, hrespond⟩ : ∃ u w, (respond (msgErrResponseInt (-1)) >>= fun _ => .ret ()).exec
      (World.handle plainConfig plainEnvironment) rejecting = (some u, w) := hstart.completes hobeys
  have hexec : (handleMessage plainConfig header).exec (World.handle plainConfig plainEnvironment)
      ⟨s.shared, quiet longPayload, []⟩ = (some (), w) := by
    rw [← bind_pure (handleMessage plainConfig header),
      exec_handleMessage_oversized (by rw [hlength]; omega)]
    exact hrespond
  obtain ⟨lastCommand, hclient⟩ := respondError_record hrespond hconnected
  let m : Message := ⟨header, longPayload.take header.payloadLength.toNat, true⟩
  have hmessage : Session.step plainConfig
      (registerAction (UInt32.ofNat (maxPayloadSize + 1)) longPayload) s = some ⟨w.shared, s.sent ++ [m]⟩ := by
    simp only [Session.step, registerAction]
    rw [if_pos hconnected, hexec]
    rfl
  have hpayload : m.payload = List.replicate (maxPayloadSize + 1) 1 := by
    simp only [m, longPayload, hlength, List.take_replicate, Nat.min_self]
  have hregisters : m.Registers plainConfig.versionMismatch := by
    refine ⟨rfl, ?_, ?_, nofun⟩
    · rw [hpayload, List.length_replicate]
      decide
    · rw [hpayload, udpPort, List.take_replicate]
      decide
  refine ⟨_, .next _ (.next _ .start trivial hconnect) trivial hmessage, ?_⟩
  have hstays : w.shared.ctx.client.connected = true ∧ w.shared.ctx.client.udpPortRegistered = false := by
    rw [hclient]
    exact ⟨hconnected, hplain⟩
  rw [hsent, lastPort_append, if_pos hregisters, Shared.Registration, if_pos hstays.1, hstays.2]
  exact fun h => Bool.false_ne_true h.1

end Examples

end YaskawaComms.Server
