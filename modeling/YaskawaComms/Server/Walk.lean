import YaskawaComms.Server.Service

/-!
# Walking through the service loop

A rule about the service loop concerns few of its calls: accepting a connection, sending, the
callbacks. The rule is shown for these, and the rest of the loop is walked through here.
-/

namespace YaskawaComms.Server

open Protocol Program

/-- A payload of the announced length, or none if that is zero. -/
structure ResponseContext.Built (ctx : ResponseContext) : Prop where
  payload : ctx.payload = none ↔ ctx.header.payloadLength = 0
  length : ∀ block bytes, ctx.payload = some (block, bytes) →
    bytes.length = ctx.header.payloadLength.toNat

section Walks

variable {α β M : Type} {mon : Monitor serverSignature M} {I : M → Prop}

/-- From a state in `I`, the rule is obeyed, and it ends in such a state with such a result. -/
def Walks (mon : Monitor serverSignature M) (I : M → Prop) (post : α → Prop) (p : ServerProgram α) :
    Prop :=
  ∀ m, I m → p.Obeys mon (fun a m' => I m' ∧ post a) m

/-- The rule does not care about this call. -/
def Passes (mon : Monitor serverSignature M) (I : M → Prop) (c : ServerCall) : Prop :=
  ∀ m, I m → mon.good m c ∧ ∀ r, mon.next m c r = m

theorem walks_pure {post : α → Prop} {a : α} (h : post a) : Walks mon I post (pure a) :=
  fun _ hm => ⟨hm, h⟩

theorem Walks.bind {post : α → Prop} {post' : β → Prop} {p : ServerProgram α}
    {f : α → ServerProgram β} (hp : Walks mon I post p) (hf : ∀ a, post a → Walks mon I post' (f a)) :
    Walks mon I post' (p >>= f) := by
  intro m hm
  apply (hp m hm).bind
  intro a m' h
  exact hf a h.2 m' h.1

theorem Passes.walks {c : ServerCall} {post : α → Prop} {f : c.Result → ServerProgram α}
    (hc : Passes mon I c) (hf : ∀ r, Walks mon I post (f r)) :
    Walks mon I post (Program.call c .ret >>= f) := by
  intro m hm
  apply obeys_keep (hc m hm).1 (hc m hm).2
  intro r _
  exact hf r m hm

theorem walks_ite {P : Prop} [Decidable P] {post : α → Prop} {p q : ServerProgram α}
    (hp : P → Walks mon I post p) (hq : ¬ P → Walks mon I post q) :
    Walks mon I post (if P then p else q) := by
  split
  · next h => exact hp h
  · next h => exact hq h

theorem freeCommandResponseContext_walks (hfree : ∀ block, Passes mon I (.free block))
    (ctx : ResponseContext) : Walks mon I (fun _ => True) (freeCommandResponseContext ctx) := by
  have hblocks : Walks mon I (fun _ => True) (platformFree ctx.headerBlock >>= fun _ =>
      platformFree ctx.block >>= fun _ => pure ()) := by
    apply (hfree _).walks
    intro _
    apply (hfree _).walks
    intro _
    exact walks_pure trivial
  rw [bind_pure] at hblocks
  unfold freeCommandResponseContext
  split
  · apply (hfree _).walks
    intro _
    exact hblocks
  · exact hblocks

theorem sendCommandResponseContext_walks {socket : Int}
    (hsend : ∀ bytes, Passes mon I (.send socket bytes)) (hfree : ∀ block, Passes mon I (.free block))
    (hnull : Passes mon I .nullContext) (ctx : Option ResponseContext) :
    Walks mon I (fun _ => True) (sendCommandResponseContext socket ctx) := by
  cases ctx with
  | none => exact fun m hm => ⟨(hnull m hm).1, nofun⟩
  | some ctx =>
      have hend : ∀ sent : Int, Walks mon I (fun _ => True)
          (freeCommandResponseContext ctx >>= fun _ => pure (if (sent - (sizeofProtocolHeader +
            ctx.header.payloadLength.toNat : Nat)) % 2 ^ 64 = 0 then 0 else (-1 : Int))) :=
        fun sent => (freeCommandResponseContext_walks hfree ctx).bind fun _ _ => walks_pure trivial
      unfold sendCommandResponseContext
      apply (hsend _).walks
      intro sent
      split
      · apply walks_ite
        · intro _
          apply (hsend _).walks
          intro more
          exact hend _
        · intro _
          exact hend _
      · exact hend _

theorem acceptClient_walks (hload : Passes mon I (.load .tcpSocket))
    (haccept : ∀ fd, Passes mon I (.accept fd)) (hadd : ∀ fd addr, Passes mon I (.addClient fd addr))
    (hclose : ∀ fd, Passes mon I (.close fd)) : Walks mon I (fun _ => True) acceptClient := by
  have hrejected : ∀ fd, Walks mon I (fun _ => True) (platformClose fd >>= pure) := by
    intro fd
    apply (hclose fd).walks
    intro _
    exact walks_pure trivial
  simp only [bind_pure] at hrejected
  unfold acceptClient
  apply hload.walks
  intro listener
  apply (haccept _).walks
  intro accepted
  apply walks_ite
  · intro _
    apply (hadd _ _).walks
    intro added
    exact walks_ite (fun _ => hrejected _) fun _ => walks_pure trivial
  · intro _
    exact walks_pure trivial

end Walks

/-- The calls by which an answer is prepared and cleared away. -/
def ServerCall.prepares : ServerCall → Bool
  | .loadSocket | .getTimestampMs | .malloc _ | .free _ => true
  | _ => false

/-- What a rule about answers has to say: it tells which contexts can be sent. -/
structure AnswerRule {M : Type} (mon : Monitor serverSignature M) (I : M → Prop)
    (sendable : ResponseContext → Prop) : Prop where
  prepares : ∀ c : ServerCall, c.prepares = true → Passes mon I c
  built : ∀ ctx, ctx.Built → sendable ctx
  sends : ∀ socket ctx, (∀ c, ctx = some c → sendable c) →
    Walks mon I (fun _ => True) (sendCommandResponseContext socket ctx)

namespace AnswerRule

variable {M : Type} {mon : Monitor serverSignature M} {I : M → Prop}
  {sendable : ResponseContext → Prop}

theorem allocateResponseContext (h : AnswerRule mon I sendable) (length : UInt32) (type : UInt8) :
    Walks mon I (fun ctx => ∀ c, ctx = some c → c.Built ∧ c.header.payloadLength = length)
      (allocateResponseContext length type) := by
  unfold Server.allocateResponseContext
  apply (h.prepares _ rfl).walks
  intro block
  cases block with
  | none => exact walks_pure nofun
  | some block =>
      apply (h.prepares _ rfl).walks
      intro headerBlock
      cases headerBlock with
      | none =>
          apply (h.prepares _ rfl).walks
          intro _
          exact walks_pure nofun
      | some headerBlock =>
          apply (h.prepares _ rfl).walks
          intro timestamp
          dsimp only
          apply walks_ite
          · intro hlength
            apply (h.prepares _ rfl).walks
            intro payload
            cases payload with
            | none =>
                apply (h.prepares _ rfl).walks
                intro _
                apply (h.prepares _ rfl).walks
                intro _
                exact walks_pure nofun
            | some payload =>
                apply walks_pure
                rintro _ ⟨⟩
                refine ⟨⟨iff_of_false nofun ?_, ?_⟩, rfl⟩
                · exact UInt32.pos_iff_ne_zero.mp hlength
                · rintro _ _ ⟨⟩
                  exact List.length_replicate
          · intro hlength
            apply walks_pure
            rintro _ ⟨⟩
            refine ⟨⟨iff_of_true rfl ?_, nofun⟩, rfl⟩
            exact Decidable.byContradiction fun hne => hlength (UInt32.pos_iff_ne_zero.mpr hne)

theorem msgErrResponse (h : AnswerRule mon I sendable) (err : ErrorPayload) :
    Walks mon I (fun ctx => ∀ c, ctx = some c → sendable c) (msgErrResponse err) := by
  unfold Server.msgErrResponse
  apply (h.allocateResponseContext _ _).bind
  intro ctx hctx
  apply walks_pure
  intro c hc
  obtain ⟨c, rfl, rfl⟩ := Option.map_eq_some_iff.mp hc
  obtain ⟨hbuilt, hlength⟩ := hctx c rfl
  apply h.built
  refine ⟨by simpa using hbuilt.payload, ?_⟩
  intro block bytes hpayload
  obtain ⟨⟨block', old⟩, _, hbytes⟩ := Option.map_eq_some_iff.mp hpayload
  cases hbytes
  rw [show _ = UInt32.ofNat sizeofErrorPayload from hlength, ErrorPayload.bytes, List.length_append,
    littleEndian_length, List.length_take, List.length_append, List.length_replicate]
  rw [Nat.min_eq_left (by omega)]
  rfl

theorem respond (h : AnswerRule mon I sendable) {context : ServerProgram (Option ResponseContext)}
    (hcontext : Walks mon I (fun ctx => ∀ c, ctx = some c → sendable c) context) :
    Walks mon I (fun _ => True) (respond context) := by
  unfold Server.respond
  apply (h.prepares _ rfl).walks
  intro socket
  apply hcontext.bind
  intro ctx hctx
  exact h.sends socket ctx hctx

theorem respondError (h : AnswerRule mon I sendable) (val : Int) :
    Walks mon I (fun _ => True) (Server.respond (msgErrResponseInt val)) :=
  h.respond (h.msgErrResponse _)

theorem respondOk (h : AnswerRule mon I sendable) :
    Walks mon I (fun _ => True) (Server.respond msgOkResponse) := by
  apply h.respond
  intro m hm
  apply (h.allocateResponseContext _ _ m hm).mono
  intro ctx m' hctx
  exact ⟨hctx.1, fun c hc => h.built c (hctx.2 c hc).1⟩

theorem respondWith (h : AnswerRule mon I sendable) (configured : Bool)
    {callback : ServerProgram (Option ResponseContext)}
    (hcallback : Walks mon I (fun ctx => ∀ c, ctx = some c → sendable c) callback) :
    Walks mon I (fun _ => True) (respondWith configured callback) := by
  have herror : Walks mon I (fun _ => True) (Server.respond (msgErrResponseInt (-1)) >>= fun _ => pure ()) :=
    (h.respondError (-1)).bind fun _ _ => walks_pure trivial
  unfold Server.respondWith
  split
  · apply hcallback.bind
    intro ctx hctx
    cases ctx with
    | none => exact herror
    | some ctx =>
        apply (h.respond (walks_pure hctx)).bind
        intro _ _
        exact walks_pure trivial
  · exact herror

end AnswerRule

/-- The calls of handling a message that has been read, apart from callbacks and sending. -/
def ServerCall.treats : ServerCall → Bool
  | .loadSocket | .storeLastCommand _ | .removeClient | .time | .getTimestampMs | .malloc _ | .free _ => true
  | _ => false

/-- What a rule about a registration with this payload has to say. -/
structure RegistrationRule {M : Type} (mon : Monitor serverSignature M) (I : M → Prop)
    (sendable : ResponseContext → Prop) (payload : List UInt8) : Prop where
  treats : ∀ c : ServerCall, c.treats = true → Passes mon I c
  registers : 0 < udpPort payload → Passes mon I (.registerUdpPort (udpPort payload))
  built : ∀ ctx, ctx.Built → sendable ctx
  sends : ∀ socket ctx, (∀ c, ctx = some c → sendable c) →
    Walks mon I (fun _ => True) (sendCommandResponseContext socket ctx)

/-- What a rule about the handling of this message has to say. -/
structure MessageRule {M : Type} (mon : Monitor serverSignature M) (I : M → Prop)
    (sendable : ResponseContext → Prop) (header : ProtocolHeader) (payload : List UInt8) : Prop
    extends RegistrationRule mon I sendable payload where
  handles : Walks mon I (fun ctx => ∀ c, ctx = some c → sendable c) (handleCommand header payload)
  informs : Walks mon I (fun ctx => ∀ c, ctx = some c → sendable c) getErrorInfo

namespace RegistrationRule

variable {M : Type} {mon : Monitor serverSignature M} {I : M → Prop}
  {sendable : ResponseContext → Prop} {payload : List UInt8}

theorem answering (h : RegistrationRule mon I sendable payload) : AnswerRule mon I sendable where
  prepares c hc := by
    apply h.treats
    cases c <;> first | rfl | cases hc
  built := h.built
  sends := h.sends

theorem rejectRegistration (h : RegistrationRule mon I sendable payload) (err : ErrorPayload)
    (payloadBlock : Nat) : Walks mon I (fun _ => True) (rejectRegistration err payloadBlock) := by
  unfold Server.rejectRegistration
  apply (h.answering.respond (h.answering.msgErrResponse err)).bind
  intro _ _
  apply (h.treats _ rfl).walks
  intro _ m hm
  obtain ⟨hgood, hkeeps⟩ := h.treats .removeClient rfl m hm
  refine ⟨hgood, ?_⟩
  intro r _
  rw [hkeeps r]
  exact ⟨hm, trivial⟩

theorem handleRegistration (h : RegistrationRule mon I sendable payload) (cfg : ServerConfig)
    (payloadBlock : Nat) :
    Walks mon I (fun _ => True) (handleRegistration cfg payloadBlock payload) := by
  have herror : Walks mon I (fun _ => True) (respond (msgErrResponseInt (-1)) >>= fun _ => pure true) :=
    (h.answering.respondError (-1)).bind fun _ _ => walks_pure trivial
  unfold Server.handleRegistration
  apply walks_ite
  · intro _
    exact herror
  · intro _
    split
    · next err _ =>
        apply (h.rejectRegistration err payloadBlock).bind
        intro _ _
        exact walks_pure trivial
    · apply walks_ite
      · intro hport
        apply (h.registers hport).walks
        intro _
        exact h.answering.respondOk.bind fun _ _ => walks_pure trivial
      · intro _
        exact herror

end RegistrationRule

namespace MessageRule

variable {M : Type} {mon : Monitor serverSignature M} {I : M → Prop}
  {sendable : ResponseContext → Prop} {header : ProtocolHeader} {payload : List UInt8}

theorem handlePayload (h : MessageRule mon I sendable header payload) (cfg : ServerConfig)
    (payloadBlock : Nat) :
    Walks mon I (fun _ => True) (handlePayload cfg header payloadBlock payload) := by
  have hfree : Walks mon I (fun _ => True) (platformFree payloadBlock) := by
    rw [← bind_pure (platformFree payloadBlock)]
    apply (h.treats _ rfl).walks
    intro _
    exact walks_pure trivial
  unfold Server.handlePayload
  apply (h.treats _ rfl).walks
  intro now
  apply (h.treats _ rfl).walks
  intro _
  apply walks_ite
  · intro _
    apply (h.handleRegistration cfg payloadBlock).bind
    intro kept _
    exact walks_ite (fun _ => hfree) fun _ => walks_pure trivial
  · intro _
    apply walks_ite
    · intro _
      exact (h.answering.respondWith _ h.informs).bind fun _ _ => hfree
    · intro _
      exact (h.answering.respondWith _ h.handles).bind fun _ _ => hfree

end MessageRule

/-- The calls of the service loop that are not about a connection, a callback or sending. -/
def ServerCall.ordinary : ServerCall → Bool
  | .load field => field ≠ .running
  | .loadConnected | .loadSocket | .storeLastCommand _ | .removeClient | .time | .getTimestampMs
  | .readHeader _ | .recv _ _ | .malloc _ | .free _ | .dispatched _ _ | .rejected _ => true
  | _ => false

/-- What a rule about the service loop has to say. -/
structure ServiceRule {M : Type} (mon : Monitor serverSignature M) (I : M → Prop)
    (sendable : ResponseContext → Prop) : Prop where
  ordinary : ∀ c : ServerCall, c.ordinary = true → Passes mon I c
  registers : ∀ port, 0 < port → Passes mon I (.registerUdpPort port)
  built : ∀ ctx, ctx.Built → sendable ctx
  sends : ∀ socket ctx, (∀ c, ctx = some c → sendable c) →
    Walks mon I (fun _ => True) (sendCommandResponseContext socket ctx)
  handles : ∀ header payload,
    Walks mon I (fun ctx => ∀ c, ctx = some c → sendable c) (handleCommand header payload)
  informs : Walks mon I (fun ctx => ∀ c, ctx = some c → sendable c) getErrorInfo
  accepts : Walks mon I (fun _ => True) acceptClient

namespace ServiceRule

variable {M : Type} {mon : Monitor serverSignature M} {I : M → Prop}
  {sendable : ResponseContext → Prop}

theorem message (h : ServiceRule mon I sendable) (header : ProtocolHeader) (payload : List UInt8) :
    MessageRule mon I sendable header payload where
  treats c hc := by
    apply h.ordinary
    cases c <;> first | rfl | cases hc
  registers := h.registers _
  built := h.built
  sends := h.sends
  handles := h.handles header payload
  informs := h.informs

theorem answering (h : ServiceRule mon I sendable) : AnswerRule mon I sendable :=
  (h.message (.ofBytes []) []).answering

theorem receivePayload (h : ServiceRule mon I sendable) (length rounds : Nat) (payload : List UInt8) :
    Walks mon I (fun _ => True) (receivePayload length rounds payload) := by
  induction rounds generalizing payload with
  | zero => exact walks_pure trivial
  | succ rounds ih =>
      unfold Server.receivePayload
      apply walks_ite
      · intro _
        apply (h.ordinary _ rfl).walks
        intro fd
        apply (h.ordinary _ rfl).walks
        intro received
        match received with
        | none => exact walks_pure trivial
        | some [] => exact walks_pure trivial
        | some (b :: rest) => exact ih _
      · intro _
        exact walks_pure trivial

theorem handleMessage (h : ServiceRule mon I sendable) (cfg : ServerConfig) (header : ProtocolHeader) :
    Walks mon I (fun _ => True) (handleMessage cfg header) := by
  have hreject : Walks mon I (fun _ => True) (rejected header >>= fun _ =>
      respond (msgErrResponseInt (-1)) >>= fun _ => pure ()) := by
    apply (h.ordinary _ rfl).walks
    intro _
    exact (h.answering.respondError (-1)).bind fun _ _ => walks_pure trivial
  have hremove : Walks mon I (fun _ => True) (removeClient >>= pure) := by
    apply (h.ordinary _ rfl).walks
    intro _
    exact walks_pure trivial
  rw [bind_pure removeClient] at hremove
  unfold Server.handleMessage
  apply walks_ite
  · intro _
    apply (h.ordinary _ rfl).walks
    intro block
    cases block with
    | none => exact hreject
    | some payloadBlock =>
        apply (h.receivePayload _ _ _).bind
        intro payload _
        cases payload with
        | none =>
            apply (h.ordinary _ rfl).walks
            intro _
            exact hremove
        | some payload =>
            apply (h.ordinary _ rfl).walks
            intro _
            exact (h.message header payload).handlePayload cfg payloadBlock
  · intro _
    exact hreject

theorem serviceClient (h : ServiceRule mon I sendable) (cfg : ServerConfig) :
    Walks mon I (fun _ => True) (serviceClient cfg) := by
  have hremove : Walks mon I (fun _ => True) (removeClient >>= pure) := by
    apply (h.ordinary _ rfl).walks
    intro _
    exact walks_pure trivial
  rw [bind_pure removeClient] at hremove
  unfold Server.serviceClient
  apply (h.ordinary _ rfl).walks
  intro socket
  apply (h.ordinary _ rfl).walks
  intro result
  dsimp only
  apply walks_ite
  · intro _
    exact hremove
  · intro _
    apply walks_ite
    · intro _
      exact h.handleMessage cfg result.2
    · intro _
      exact walks_pure trivial

end ServiceRule

/-- The TCP thread gives up for such a failure of `select`. -/
def Quits : Except Errno (List Int) → Prop
  | .error errno => errno ≠ .eIntr ∧ errno ≠ .eBadF
  | .ok _ => False

/-- The rest of a round. -/
def afterSelect (cfg : ServerConfig) : Except Errno (List Int) → ServerProgram Round
  | .error errno => do
      if errno = .eIntr then
        return .again
      if errno = .eBadF then
        if ← loadConnected then
          removeClient
        return .again
      return .finished
  | .ok readFds => do
      if readFds = [] then
        return .again
      if (← load .tcpSocket) ∈ readFds then
        acceptClient
      if ← loadConnected then
        if (← loadSocket) ∈ readFds then
          serviceClient cfg
      return .again

theorem tcpThreadFunc_eq (cfg : ServerConfig) :
    tcpThreadFunc cfg = (load .running >>= fun running =>
      if running = 0 then pure .finished
      else load .tcpSocket >>= fun listener => load .tcpSocket >>= fun nfd =>
        watchClient listener nfd >>= fun watched =>
          platformSelect (watched.1 + 1) watched.2 >>= afterSelect cfg) := by
  unfold tcpThreadFunc
  apply bind_congr
  intro running
  apply congrArg (ite _ _)
  apply bind_congr
  intro listener
  apply bind_congr
  intro nfd
  apply bind_congr
  intro watched
  apply bind_congr
  intro ready
  cases ready with
  | error errno => rfl
  | ok readFds => rfl

/-- The calls by which the loop looks at the server's state, and by which it drops a client. -/
def ServerCall.looks : ServerCall → Bool
  | .load field => field ≠ .running
  | .loadConnected | .loadSocket | .removeClient => true
  | _ => false

/-- What a rule about a round of the loop has to say: it is shown for what the loop does. -/
structure LoopRule {M : Type} (mon : Monitor serverSignature M) (I : M → Prop) (cfg : ServerConfig) :
    Prop where
  looks : ∀ c : ServerCall, c.looks = true → Passes mon I c
  accepts : Walks mon I (fun _ => True) acceptClient
  services : Walks mon I (fun _ => True) (serviceClient cfg)

namespace LoopRule

variable {M : Type} {mon : Monitor serverSignature M} {I : M → Prop} {cfg : ServerConfig}

theorem watchClient (h : LoopRule mon I cfg) (listener nfd : Int) :
    Walks mon I (fun _ => True) (watchClient listener nfd) := by
  unfold Server.watchClient
  apply (h.looks _ rfl).walks
  intro connected
  apply walks_ite
  · intro _
    apply (h.looks _ rfl).walks
    intro socket
    apply walks_ite
    · intro _
      apply (h.looks _ rfl).walks
      intro client
      apply (h.looks _ rfl).walks
      intro larger
      apply walks_ite
      · intro _
        apply (h.looks _ rfl).walks
        intro nfd'
        exact walks_pure trivial
      · intro _
        exact walks_pure trivial
    · intro _
      exact walks_pure trivial
  · intro _
    exact walks_pure trivial

theorem afterSelect (h : LoopRule mon I cfg) (ready : Except Errno (List Int)) :
    Walks mon I (fun round => round = .finished ↔ Quits ready) (Server.afterSelect cfg ready) := by
  have hagain : ∀ ready, ¬ Quits ready → Walks mon I (fun round => round = .finished ↔ Quits ready)
      (pure Round.again) :=
    fun ready hready => walks_pure (iff_of_false nofun hready)
  cases ready with
  | error errno =>
      unfold Server.afterSelect
      apply walks_ite
      · intro hintr
        exact hagain _ fun hquits => hquits.1 hintr
      · intro hintr
        apply walks_ite
        · intro hbadf
          have hstays : ¬ Quits (.error errno) := fun hquits => hquits.2 hbadf
          apply (h.looks _ rfl).walks
          intro connected
          apply walks_ite
          · intro _
            apply (h.looks _ rfl).walks
            intro _
            exact hagain _ hstays
          · intro _
            exact hagain _ hstays
        · intro hbadf
          exact walks_pure (iff_of_true rfl ⟨hintr, hbadf⟩)
  | ok readFds =>
      have hstays : ¬ Quits (.ok readFds) := id
      have hservice : Walks mon I (fun round : Round => round = .finished ↔ Quits (.ok readFds))
          (loadConnected >>= fun connected =>
            if connected then
              loadSocket >>= fun socket =>
                if socket ∈ readFds then Server.serviceClient cfg >>= fun _ => pure .again
                else pure .again
            else pure .again) := by
        apply (h.looks _ rfl).walks
        intro connected
        apply walks_ite
        · intro _
          apply (h.looks _ rfl).walks
          intro socket
          apply walks_ite
          · intro _
            exact h.services.bind fun _ _ => hagain _ hstays
          · intro _
            exact hagain _ hstays
        · intro _
          exact hagain _ hstays
      unfold Server.afterSelect
      apply walks_ite
      · intro _
        exact hagain _ hstays
      · intro _
        apply (h.looks _ rfl).walks
        intro listener
        apply walks_ite
        · intro _
          exact h.accepts.bind fun _ _ => hservice
        · intro _
          exact hservice

theorem tcpThreadFunc (h : LoopRule mon I cfg) (hrunning : Passes mon I (.load .running))
    (hselect : ∀ nfds fds, Passes mon I (.select nfds fds)) :
    Walks mon I (fun _ => True) (tcpThreadFunc cfg) := by
  rw [tcpThreadFunc_eq]
  apply hrunning.walks
  intro running
  apply walks_ite
  · intro _
    exact walks_pure trivial
  · intro _
    apply (h.looks _ rfl).walks
    intro listener
    apply (h.looks _ rfl).walks
    intro nfd
    apply (h.watchClient listener nfd).bind
    intro watched _
    apply (hselect _ _).walks
    intro ready m hm
    apply (h.afterSelect ready m hm).mono
    intro _ m' hround
    exact ⟨hround.1, trivial⟩

end LoopRule

namespace ServiceRule

variable {M : Type} {mon : Monitor serverSignature M} {I : M → Prop}
  {sendable : ResponseContext → Prop}

theorem loop (h : ServiceRule mon I sendable) (cfg : ServerConfig) : LoopRule mon I cfg where
  looks c hc := by
    apply h.ordinary
    cases c <;> first | exact hc | rfl
  accepts := h.accepts
  services := h.serviceClient cfg

theorem tcpThreadFunc (h : ServiceRule mon I sendable) (hrunning : Passes mon I (.load .running))
    (hselect : ∀ nfds fds, Passes mon I (.select nfds fds)) (cfg : ServerConfig) :
    Walks mon I (fun _ => True) (tcpThreadFunc cfg) :=
  (h.loop cfg).tcpThreadFunc hrunning hselect

theorem timeoutThreadFunc (h : ServiceRule mon I sendable) (hrunning : Passes mon I (.load .running))
    (hjudge : ∀ now, Passes mon I (.judgeIdle now)) :
    Walks mon I (fun _ => True) timeoutThreadFunc := by
  unfold Server.timeoutThreadFunc
  apply hrunning.walks
  intro running
  apply walks_ite
  · intro _
    exact walks_pure trivial
  · intro _
    apply (h.ordinary _ rfl).walks
    intro now
    apply (hjudge now).walks
    intro idle
    apply walks_ite
    · intro _
      apply (h.ordinary _ rfl).walks
      intro _
      exact walks_pure trivial
    · intro _
      exact walks_pure trivial

end ServiceRule

end YaskawaComms.Server
