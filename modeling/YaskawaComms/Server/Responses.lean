import YaskawaComms.Server.Fragmentation

/-!
# Requests and responses

What the server says to a message that has been read: at most one call of `handle_command`, then one
response.
-/

namespace YaskawaComms.Server

open Protocol Program

/-- The response that a context stands for. -/
def ResponseContext.reply (ctx : ResponseContext) : Reply := ⟨ctx.header, ctx.payload.map Prod.snd⟩

/-- A response as `allocate_response_context` makes it. -/
structure Reply.Built (r : Reply) : Prop where
  magic : r.header.magicNumber = protocolMagicNumber
  version : r.header.version = protocolVersion
  payload : r.payload = none ↔ r.header.payloadLength = 0
  length : ∀ bytes, r.payload = some bytes → bytes.length = r.header.payloadLength.toNat

/-- The calls that send a response. -/
def Reply.sends (socket : Int) (r : Reply) : List ServerCall :=
  .send socket r.header.bytes ::
    match r.payload with
    | some bytes =>
        if r.header.payloadLength ≠ 0 then
          [.send socket (bytes.take r.header.payloadLength.toNat)]
        else []
    | none => []

section Expected

variable (cfg : ServerConfig) (env : Environment)

def serverHeader (length : UInt32) (type : UInt8) : ProtocolHeader where
  magicNumber := protocolMagicNumber
  version := protocolVersion
  messageType := type
  timestampMs := env.timestamp
  payloadLength := length

def okReply : Reply := ⟨serverHeader env 0 msgOk, none⟩

def errorReply (err : ErrorPayload) : Reply :=
  ⟨serverHeader env (UInt32.ofNat sizeofErrorPayload) msgError, some err.bytes⟩

/-- The error that a registration which is not accepted is answered with. -/
def registrationError (payload : List UInt8) : ErrorPayload :=
  if payload.length < sizeofUdpPortRegistrationPayload then ⟨-1, []⟩
  else (versionError cfg.versionMismatch payload).getD ⟨-1, []⟩

/-- The answer of the callback for a message, if there is one. -/
def callbackReply (header : ProtocolHeader) (payload : List UInt8) : Option Reply :=
  if header.messageType = msgGetErrorInfo then
    if cfg.getErrorInfo then env.getErrorInfo else none
  else if cfg.handleCommand then env.handleCommand header payload else none

def response (header : ProtocolHeader) (payload : List UInt8) : Reply :=
  if header.messageType = msgRegisterUdpPort then
    if RegistersPort cfg payload then okReply env else errorReply env (registrationError cfg payload)
  else (callbackReply cfg env header payload).getD (errorReply env ⟨-1, []⟩)

/-- A registration that is accepted, or a message that a callback has a response to. -/
def Grants (header : ProtocolHeader) (payload : List UInt8) : Prop :=
  if header.messageType = msgRegisterUdpPort then RegistersPort cfg payload
  else callbackReply cfg env header payload ≠ none

/-- The calls of `handle_command` for a message. -/
def commands (header : ProtocolHeader) (payload : List UInt8) : List ServerCall :=
  if header.messageType = msgRegisterUdpPort then []
  else if header.messageType = msgGetErrorInfo then []
  else if cfg.handleCommand then [.handleCommand header payload]
  else []

/-- All that is said to a message. -/
def exchange (socket : Int) (header : ProtocolHeader) (payload : List UInt8) : List ServerCall :=
  commands cfg header payload ++ (response cfg env header payload).sends socket

theorem registrationError_code (payload : List UInt8) :
    (registrationError cfg payload).errorCode = -1 := by
  unfold registrationError versionError
  split
  · rfl
  · split
    · rfl
    · rfl
    · split
      · dsimp only
        split <;> rfl
      · rfl

theorem response_refused {header : ProtocolHeader} {payload : List UInt8}
    (h : ¬ Grants cfg env header payload) :
    ∃ err : ErrorPayload, err.errorCode = -1 ∧ response cfg env header payload = errorReply env err := by
  unfold Grants at h
  unfold response
  split
  · next htype =>
      rw [if_pos htype] at h
      rw [if_neg h]
      exact ⟨_, registrationError_code cfg payload, rfl⟩
  · next htype =>
      rw [if_neg htype, ne_eq, Decidable.not_not] at h
      rw [h]
      exact ⟨⟨-1, []⟩, rfl, rfl⟩

end Expected

/-- What handling a message has led to so far: the calls of `send` and `handle_command`, the port
registered last, and whether the client has been removed. -/
structure Outcome where
  said : List ServerCall
  port : Option UInt16
  removed : Bool

/-- The calls of handling a message that has been read, and what they lead to. -/
def answering (env : Environment) (reliable : Bool) (socket : Int) :
    Monitor serverSignature Outcome where
  good m c := match c with
    | .loadSocket | .storeLastCommand _ | .registerUdpPort _ | .removeClient => m.removed = false
    | .time | .getTimestampMs | .malloc _ | .free _ | .send _ _ | .handleCommand _ _ | .getErrorInfo =>
        True
    | .nullContext => reliable = false
    | _ => False
  allowed _ c := match c with
    | .loadSocket => fun fd => fd = socket
    | .getTimestampMs => fun timestamp => timestamp = env.timestamp
    | .malloc _ => fun block => reliable = true → block ≠ none
    | .handleCommand header payload => fun ctx =>
        ctx.map ResponseContext.reply = env.handleCommand header payload
    | .getErrorInfo => fun ctx => ctx.map ResponseContext.reply = env.getErrorInfo
    | _ => fun _ => True
  next m c := match c with
    | .send fd bytes => fun _ => { m with said := m.said ++ [.send fd bytes] }
    | .handleCommand header payload => fun _ =>
        { m with said := m.said ++ [.handleCommand header payload] }
    | .registerUdpPort port => fun _ => { m with port := some port }
    | .removeClient => fun _ => { m with removed := true }
    | _ => fun _ => m

def Outcome.say (m : Outcome) (calls : List ServerCall) : Outcome := { m with said := m.said ++ calls }

section Contexts

variable {env : Environment} {reliable : Bool} {socket : Int} {m : Outcome}

@[simp] theorem answering_send (fd : Int) (bytes : List UInt8) (sent : Int) :
    (answering env reliable socket).next m (.send fd bytes) sent = m.say [.send fd bytes] := rfl

@[simp] theorem Outcome.say_nil : m.say [] = m := by rw [say, List.append_nil]

@[simp] theorem Outcome.say_say (calls more : List ServerCall) :
    (m.say calls).say more = m.say (calls ++ more) := by
  rw [say, say, say, List.append_assoc]

/-- The context of this response, which is there when allocations are reliable. -/
def Stands (reliable : Bool) (r : Reply) (m : Outcome) (ctx : Option ResponseContext) (m' : Outcome) :
    Prop :=
  m' = m ∧ (reliable = true → ctx ≠ none) ∧ ∀ c, ctx = some c → c.reply = r

theorem allocateResponseContext_answering (length : UInt32) (type : UInt8) :
    (allocateResponseContext length type).Obeys (answering env reliable socket)
      (Stands reliable
        ⟨serverHeader env length type, if 0 < length then some (List.replicate length.toNat 0) else none⟩
        m) m := by
  unfold allocateResponseContext
  apply obeys_keep trivial (fun _ => rfl)
  intro block hblock
  cases block with
  | none => exact ⟨rfl, fun h => absurd rfl (hblock h), nofun⟩
  | some block =>
      apply obeys_keep trivial (fun _ => rfl)
      intro headerBlock hheader
      cases headerBlock with
      | none =>
          apply obeys_keep trivial (fun _ => rfl)
          intro _ _
          exact ⟨rfl, fun h => absurd rfl (hheader h), nofun⟩
      | some headerBlock =>
          apply obeys_keep trivial (fun _ => rfl)
          intro timestamp htimestamp
          have htime : timestamp = env.timestamp := htimestamp
          dsimp only
          split
          · apply obeys_keep trivial (fun _ => rfl)
            intro payload hpayload
            cases payload with
            | none =>
                apply obeys_keep trivial (fun _ => rfl)
                intro _ _
                apply obeys_keep trivial (fun _ => rfl)
                intro _ _
                exact ⟨rfl, fun h => absurd rfl (hpayload h), nofun⟩
            | some payload =>
                refine ⟨rfl, fun _ => nofun, ?_⟩
                intro c hc
                cases hc
                rw [htime]
                rfl
          · refine ⟨rfl, fun _ => nofun, ?_⟩
            intro c hc
            cases hc
            rw [htime]
            rfl

theorem msgErrResponse_answering (err : ErrorPayload) :
    (msgErrResponse err).Obeys (answering env reliable socket)
      (Stands reliable (errorReply env err) m) m := by
  unfold msgErrResponse
  apply (allocateResponseContext_answering _ _).bind
  rintro ctx m' ⟨rfl, hpresent, hreply⟩
  refine ⟨rfl, fun h => by simpa using hpresent h, ?_⟩
  intro c hc
  obtain ⟨c', hc', rfl⟩ := Option.map_eq_some_iff.mp hc
  have hc'' := hreply c' hc'
  have hpositive : 0 < UInt32.ofNat sizeofErrorPayload := by decide
  rw [ResponseContext.reply, if_pos hpositive, Reply.mk.injEq] at hc''
  obtain ⟨hheader, hpayload⟩ := hc''
  obtain ⟨buffer, hbuffer, _⟩ := Option.map_eq_some_iff.mp hpayload
  simp [ResponseContext.reply, errorReply, hheader, hbuffer]

theorem sendCommandResponseContext_answering {r : Reply} {ctx : Option ResponseContext}
    (hctx : reliable = true → ctx ≠ none) (hreply : ∀ c, ctx = some c → c.reply = r) :
    (sendCommandResponseContext socket ctx).Obeys (answering env reliable socket)
      (fun _ m' => m' = m.say (r.sends socket)) m := by
  cases ctx with
  | none =>
      refine ⟨?_, nofun⟩
      cases reliable with
      | false => rfl
      | true => exact absurd rfl (hctx rfl)
  | some ctx =>
      obtain rfl := hreply ctx rfl
      have hfree : ∀ (sent : Int) (m : Outcome), (freeCommandResponseContext ctx >>= fun _ =>
          pure (if (sent - (sizeofProtocolHeader + ctx.header.payloadLength.toNat : Nat)) % 2 ^ 64 = 0
            then 0 else (-1 : Int))).Obeys (answering env reliable socket)
          (fun _ m' => m' = m) m := by
        intro sent m
        unfold freeCommandResponseContext
        cases ctx.payload with
        | none => exact ⟨trivial, fun _ _ => ⟨trivial, fun _ _ => rfl⟩⟩
        | some payload => exact ⟨trivial, fun _ _ => ⟨trivial, fun _ _ => ⟨trivial, fun _ _ => rfl⟩⟩⟩
      unfold sendCommandResponseContext
      refine ⟨trivial, fun sent _ => ?_⟩
      cases hpayload : ctx.payload with
      | none =>
          apply (hfree _ _).mono
          rintro _ _ rfl
          simp [Reply.sends, ResponseContext.reply, hpayload]
      | some payload =>
          by_cases hlength : ctx.header.payloadLength ≠ 0
          · simp only [if_pos hlength]
            refine ⟨trivial, fun more _ => ?_⟩
            apply (hfree _ _).mono
            rintro _ _ rfl
            simp [Reply.sends, ResponseContext.reply, hpayload, hlength]
          · simp only [if_neg hlength]
            apply (hfree _ _).mono
            rintro _ _ rfl
            simp [Reply.sends, ResponseContext.reply, hpayload, not_not.mp hlength]

theorem respond_answering {context : ServerProgram (Option ResponseContext)} {r : Reply}
    (hremoved : m.removed = false)
    (hcontext : context.Obeys (answering env reliable socket) (Stands reliable r m) m) :
    (respond context).Obeys (answering env reliable socket)
      (fun _ m' => m' = m.say (r.sends socket)) m := by
  unfold respond
  refine obeys_keep hremoved (fun _ => rfl) ?_
  intro fd hfd
  obtain rfl : fd = socket := hfd
  apply hcontext.bind
  rintro ctx m' ⟨rfl, hpresent, hreply⟩
  exact sendCommandResponseContext_answering hpresent hreply

theorem respondError_answering (hremoved : m.removed = false) (err : ErrorPayload) :
    (respond (msgErrResponse err)).Obeys (answering env reliable socket)
      (fun _ m' => m' = m.say ((errorReply env err).sends socket)) m :=
  respond_answering hremoved (msgErrResponse_answering err)

end Contexts

section Message

variable {cfg : ServerConfig} {env : Environment} {reliable : Bool} {socket : Int} {m : Outcome}

/-- What a registration comes to. -/
def Registered (cfg : ServerConfig) (env : Environment) (socket : Int) (payload : List UInt8)
    (m m' : Outcome) : Prop :=
  m'.said = m.said ++ (if RegistersPort cfg payload then okReply env
    else errorReply env (registrationError cfg payload)).sends socket ∧
  m'.port = (if RegistersPort cfg payload then some (udpPort payload) else m.port) ∧
  (m'.removed = true ↔ sizeofUdpPortRegistrationPayload ≤ payload.length ∧
    versionError cfg.versionMismatch payload ≠ none)

theorem handleRegistration_answering (hremoved : m.removed = false) (payloadBlock : Nat)
    (payload : List UInt8) :
    (handleRegistration cfg payloadBlock payload).Obeys (answering env reliable socket)
      (fun _ m' => Registered cfg env socket payload m m') m := by
  unfold handleRegistration
  split
  · next hshort =>
      have hno : ¬ RegistersPort cfg payload := fun h => absurd h.1 (by omega)
      apply (respondError_answering hremoved _).bind
      rintro _ _ rfl
      refine ⟨?_, ?_, ?_⟩
      · rw [if_neg hno, registrationError, if_pos hshort]
        rfl
      · rw [if_neg hno]
        rfl
      · exact iff_of_false (by simp [Outcome.say, hremoved]) fun h => absurd h.1 (by omega)
  · next hlong =>
      split
      · next err herr =>
          have hno : ¬ RegistersPort cfg payload := fun h => by simp [h.2.1] at herr
          unfold rejectRegistration
          rw [Program.bind_assoc]
          apply (respondError_answering hremoved _).bind
          rintro _ _ rfl
          refine ⟨trivial, fun _ _ => ⟨hremoved, fun _ _ => ⟨?_, ?_, ?_⟩⟩⟩
          · rw [if_neg hno, registrationError, if_neg hlong, herr]
            rfl
          · rw [if_neg hno]
            rfl
          · exact iff_of_true rfl ⟨by omega, by simp [herr]⟩
      · next herr =>
          have hversion : versionError cfg.versionMismatch payload = none := by
            cases hcase : versionError cfg.versionMismatch payload with
            | none => rfl
            | some err => exact absurd hcase (herr err)
          have hkept : ¬ (sizeofUdpPortRegistrationPayload ≤ payload.length ∧
              versionError cfg.versionMismatch payload ≠ none) := fun h => h.2 hversion
          split
          · next hport =>
              have hyes : RegistersPort cfg payload := ⟨by omega, hversion, hport⟩
              apply obeys_call hremoved
              intro _ _
              apply (respond_answering (m := { m with port := some (udpPort payload) })
                (r := okReply env) hremoved (allocateResponseContext_answering _ _)).bind
              rintro _ _ rfl
              refine ⟨?_, ?_, ?_⟩
              · rw [if_pos hyes]
                rfl
              · rw [if_pos hyes]
                rfl
              · exact iff_of_false (by simp [Outcome.say, hremoved]) hkept
          · next hport =>
              have hno : ¬ RegistersPort cfg payload := fun h => hport h.2.2
              apply (respondError_answering hremoved _).bind
              rintro _ _ rfl
              refine ⟨?_, ?_, ?_⟩
              · rw [if_neg hno, registrationError, if_neg hlong, hversion]
                rfl
              · rw [if_neg hno]
                rfl
              · exact iff_of_false (by simp [Outcome.say, hremoved]) hkept

/-- The response to a message that is no registration: the callback's if it gives one. -/
theorem respondWith_answering {configured : Bool} {reply : Option Reply} {calls : List ServerCall}
    {callback : ServerProgram (Option ResponseContext)} (hremoved : m.removed = false)
    (hcallback : callback.Obeys (answering env reliable socket)
      (fun ctx m' => m' = m.say calls ∧ ctx.map ResponseContext.reply = reply) m) :
    (respondWith configured callback).Obeys (answering env reliable socket)
      (fun _ m' => m' = m.say ((if configured then calls else []) ++
        (((if configured then reply else none).getD (errorReply env ⟨-1, []⟩)).sends socket))) m := by
  unfold respondWith
  split
  · next hconfigured =>
      apply hcallback.bind
      rintro ctx m' ⟨rfl, hreply⟩
      cases ctx with
      | none =>
          obtain rfl : none = reply := hreply
          apply (respondError_answering (m := m.say calls) hremoved _).bind
          rintro _ _ rfl
          show (m.say calls).say _ = m.say _
          simp [Outcome.say]
      | some rsp =>
          obtain rfl : some rsp.reply = reply := hreply
          have hstands : (pure (some rsp) : ServerProgram (Option ResponseContext)).Obeys
              (answering env reliable socket) (Stands reliable rsp.reply (m.say calls))
              (m.say calls) := by
            refine ⟨rfl, fun _ => nofun, ?_⟩
            intro c hc
            cases hc
            rfl
          apply (respond_answering (m := m.say calls) hremoved hstands).bind
          rintro _ _ rfl
          show (m.say calls).say _ = m.say _
          simp [Outcome.say]
  · next hconfigured =>
      apply (respondError_answering hremoved _).bind
      rintro _ _ rfl
      rfl

/-- What a message comes to. -/
structure Answered (cfg : ServerConfig) (env : Environment) (socket : Int) (header : ProtocolHeader)
    (payload : List UInt8) (m m' : Outcome) : Prop where
  said : m'.said = m.said ++ exchange cfg env socket header payload
  port : m'.port =
    if header.messageType = msgRegisterUdpPort ∧ RegistersPort cfg payload then some (udpPort payload)
    else m.port
  removed : m'.removed = true ↔ Rejects cfg header payload

theorem handlePayload_answering (hremoved : m.removed = false) (header : ProtocolHeader)
    (payloadBlock : Nat) (payload : List UInt8) :
    (handlePayload cfg header payloadBlock payload).Obeys (answering env reliable socket)
      (fun _ m' => Answered cfg env socket header payload m m') m := by
  have hfree : ∀ m', Answered cfg env socket header payload m m' →
      (platformFree payloadBlock).Obeys (answering env reliable socket)
        (fun _ m' => Answered cfg env socket header payload m m') m' :=
    fun _ h => ⟨trivial, fun _ _ => h⟩
  unfold handlePayload
  apply obeys_keep trivial (fun _ => rfl)
  intro now _
  refine obeys_keep hremoved (fun _ => rfl) ?_
  intro _ _
  by_cases hregister : header.messageType = msgRegisterUdpPort
  · rw [if_pos hregister]
    apply (handleRegistration_answering hremoved payloadBlock payload).bind
    rintro kept m' ⟨hsaid, hport, hgone⟩
    have hanswered : Answered cfg env socket header payload m m' := by
      constructor
      · rw [hsaid, exchange, commands, if_pos hregister, response, if_pos hregister, List.nil_append]
      · simp only [hport, hregister, true_and]
      · rw [hgone, Rejects]
        exact (and_iff_right hregister).symm
    split
    · exact hfree m' hanswered
    · exact hanswered
  · rw [if_neg hregister]
    have hother : ∀ m', m' = m.say (exchange cfg env socket header payload) →
        Answered cfg env socket header payload m m' := by
      rintro _ rfl
      refine ⟨rfl, ?_, ?_⟩
      · rw [if_neg fun h => hregister h.1]
        rfl
      · exact iff_of_false (by simp [Outcome.say, hremoved]) fun h => hregister h.1
    by_cases hinfo : header.messageType = msgGetErrorInfo
    · have hcallback : getErrorInfo.Obeys (answering env reliable socket)
          (fun ctx m' => m' = m.say [] ∧ ctx.map ResponseContext.reply = env.getErrorInfo) m :=
        ⟨trivial, fun ctx hctx => ⟨Outcome.say_nil.symm, hctx⟩⟩
      rw [if_pos hinfo]
      apply (respondWith_answering hremoved hcallback).bind
      intro _ m' hm'
      apply hfree m' (hother m' _)
      rw [hm', exchange, commands, if_neg hregister, if_pos hinfo, response, if_neg hregister,
        callbackReply, if_pos hinfo, ite_self]
    · have hcallback : (handleCommand header payload).Obeys (answering env reliable socket)
          (fun ctx m' => m' = m.say [.handleCommand header payload] ∧
            ctx.map ResponseContext.reply = env.handleCommand header payload) m :=
        ⟨trivial, fun ctx hctx => ⟨rfl, hctx⟩⟩
      rw [if_neg hinfo]
      apply (respondWith_answering hremoved hcallback).bind
      intro _ m' hm'
      apply hfree m' (hother m' _)
      rw [hm', exchange, commands, if_neg hregister, if_neg hinfo, response, if_neg hregister,
        callbackReply, if_neg hinfo]

end Message

/-- The client's record with the port that has been registered. -/
def Outcome.record (m : Outcome) (client : ClientInfo) : ClientInfo :=
  match m.port with
  | some port => { client with registeredUdpPort := port, udpPortRegistered := true }
  | none => client

@[simp] theorem Outcome.record_socket (m : Outcome) (client : ClientInfo) :
    (m.record client).socket = client.socket := by
  unfold record
  split <;> rfl

@[simp] theorem Outcome.record_connected (m : Outcome) (client : ClientInfo) :
    (m.record client).connected = client.connected := by
  unfold record
  split <;> rfl

/-- The world while a message from this client is handled. -/
structure Holds (reliable : Bool) (client : ClientInfo) (m : Outcome) (w : World) : Prop where
  mallocs : reliable = true → w.mallocs = []
  kept : m.removed = false →
    ∃ lastCommand, w.shared.ctx.client = { m.record client with lastCommand := lastCommand }
  gone : m.removed = true → w.shared.ctx.client = .cleared

section Execution

variable {cfg : ServerConfig} {env : Environment} {reliable : Bool} {client : ClientInfo}
  {m : Outcome} {w w' : World}

theorem reply_reply (s : Shared) (r : Option Reply) :
    (s.reply r).1.map ResponseContext.reply = r := by
  cases r with
  | none => rfl
  | some r =>
      obtain ⟨header, payload⟩ := r
      cases payload <;> rfl

theorem Holds.call (hconnected : client.connected = true) (h : Holds reliable client m w)
    {c : ServerCall} (hgood : (answering env reliable client.socket).good m c) {r : c.Result}
    (hhandle : w.handle cfg env c = (some r, w')) :
    (answering env reliable client.socket).allowed m c r ∧
      Holds reliable client ((answering env reliable client.socket).next m c r) w' := by
  cases c with
  | loadSocket =>
      cases hhandle
      obtain ⟨lastCommand, hclient⟩ := h.kept hgood
      refine ⟨?_, h⟩
      show w.shared.ctx.client.socket = client.socket
      rw [hclient, Outcome.record_socket]
  | storeLastCommand value =>
      cases hhandle
      obtain ⟨lastCommand, hclient⟩ := h.kept hgood
      refine ⟨trivial, h.mallocs, fun _ => ⟨value, ?_⟩, fun hgone => nomatch hgood.symm.trans hgone⟩
      show { w.shared.ctx.client with lastCommand := value } = _
      rw [hclient]
      rfl
  | registerUdpPort port =>
      cases hhandle
      obtain ⟨lastCommand, hclient⟩ := h.kept hgood
      refine ⟨trivial, h.mallocs, fun _ => ⟨lastCommand, ?_⟩,
        fun hgone => nomatch hgood.symm.trans hgone⟩
      show { w.shared.ctx.client with registeredUdpPort := port, udpPortRegistered := true } = _
      rw [hclient]
      unfold Outcome.record
      split <;> rfl
  | removeClient =>
      cases hhandle
      obtain ⟨lastCommand, hclient⟩ := h.kept hgood
      have hthere : w.shared.ctx.client.connected = true := by
        rw [hclient]
        simpa using hconnected
      refine ⟨trivial, h.mallocs, nofun, fun _ => ?_⟩
      show (w.shared.removeClient cfg).ctx.client = .cleared
      exact Shared.removeClient_client hthere
  | time =>
      cases hhandle
      exact ⟨trivial, h⟩
  | getTimestampMs =>
      cases hhandle
      exact ⟨rfl, h⟩
  | malloc len =>
      have hrest : reliable = true → w.mallocs.tail = [] := fun hr => by rw [h.mallocs hr]; rfl
      by_cases hnext : w.mallocs.headD true = true
      · simp only [World.handle, World.answer, Shared.perform, hnext, if_true] at hhandle
        cases hhandle
        exact ⟨fun _ => Option.some_ne_none _, { h with mallocs := hrest }⟩
      · simp only [World.handle, World.answer, Shared.perform, hnext] at hhandle
        cases hhandle
        refine ⟨fun hr => ?_, { h with mallocs := hrest }⟩
        rw [h.mallocs hr] at hnext
        exact absurd rfl hnext
  | free block =>
      cases hhandle
      exact ⟨trivial, { h with }⟩
  | send fd bytes =>
      refine ⟨trivial, ?_⟩
      simp only [World.handle, World.answer, Shared.perform] at hhandle
      split at hhandle <;> cases hhandle <;> exact { h with }
  | handleCommand header payload =>
      obtain ⟨heap, hheap⟩ := w.shared.reply_heap (env.handleCommand header payload)
      have hreply := reply_reply w.shared (env.handleCommand header payload)
      simp only [World.handle, World.answer, Shared.perform] at hhandle
      cases hhandle
      refine ⟨hreply, ?_⟩
      rw [hheap]
      exact { h with }
  | getErrorInfo =>
      obtain ⟨heap, hheap⟩ := w.shared.reply_heap env.getErrorInfo
      have hreply := reply_reply w.shared env.getErrorInfo
      simp only [World.handle, World.answer, Shared.perform] at hhandle
      cases hhandle
      refine ⟨hreply, ?_⟩
      rw [hheap]
      exact { h with }
  | nullContext => exact r.elim
  | _ => exact hgood.elim

/-- Before a message nothing has happened. -/
def Outcome.none : Outcome := ⟨[], .none, false⟩

theorem holds_start (hmallocs : reliable = true → w.mallocs = []) :
    Holds reliable w.shared.ctx.client .none w :=
  ⟨hmallocs, fun _ => ⟨w.shared.ctx.client.lastCommand, rfl⟩, nofun⟩

/-- The calls of a conversation among others. -/
def ServerCall.speaks : ServerCall → Bool
  | .send _ _ | .handleCommand _ _ => true
  | _ => false

def spoken (calls : List ((c : ServerCall) × c.Result)) : List ServerCall :=
  (calls.map (·.1)).filter ServerCall.speaks

theorem spoken_append (calls more : List ((c : ServerCall) × c.Result)) :
    spoken (calls ++ more) = spoken calls ++ spoken more := by
  rw [spoken, List.map_append, List.filter_append, spoken, spoken]

theorem spoken_silent {calls : List ((c : ServerCall) × c.Result)}
    (h : ∀ call ∈ calls, call.1.speaks = false) : spoken calls = [] := by
  apply List.filter_eq_nil_iff.mpr
  intro c hc
  obtain ⟨call, hcall, rfl⟩ := List.mem_map.mp hc
  rw [h call hcall]
  exact Bool.false_ne_true

theorem answering_after (calls : List ((c : ServerCall) × c.Result)) (m : Outcome) (socket : Int) :
    ((answering env reliable socket).after m calls).said = m.said ++ spoken calls := by
  induction calls generalizing m with
  | nil => exact (List.append_nil _).symm
  | cons call calls ih =>
      obtain ⟨c, r⟩ := call
      have hnext : ((answering env reliable socket).next m c r).said = m.said ++ spoken [⟨c, r⟩] := by
        cases c with
        | send fd bytes => rfl
        | handleCommand header payload => rfl
        | _ => exact (List.append_nil _).symm
      show ((answering env reliable socket).after ((answering env reliable socket).next m c r) calls).said = _
      rw [ih, hnext, List.append_assoc, ← spoken_append, List.singleton_append]

theorem handlePayload_answered {header : ProtocolHeader} {block : Nat} {payload : List UInt8}
    (hexec : (handlePayload cfg header block payload).exec (World.handle cfg env) w = (some (), w'))
    (hconnected : w.shared.ctx.client.connected = true)
    (hmallocs : reliable = true → w.mallocs = []) :
    ∃ m, Answered cfg env w.shared.ctx.client.socket header payload .none m ∧
      Holds reliable w.shared.ctx.client m w' ∧
      m.said = spoken ((handlePayload cfg header block payload).trace (World.handle cfg env) w) := by
  have hobeys : (handlePayload cfg header block payload).Obeys
      (answering env reliable w.shared.ctx.client.socket)
      (fun _ m' => Answered cfg env w.shared.ctx.client.socket header payload .none m') .none :=
    handlePayload_answering rfl header block payload
  obtain ⟨hanswered, hholds⟩ := hobeys.after
    (fun _ _ _ _ _ hgood hinv hhandle => hinv.call hconnected hgood hhandle)
    (holds_start hmallocs) hexec
  exact ⟨_, hanswered, hholds, answering_after _ _ _⟩

end Execution

end YaskawaComms.Server
