import YaskawaComms.Server.Responses

/-!
# Failing allocations

Which allocations a response needs. A round of the service loop gets to a null response context
exactly if one of the allocations for a response that the server itself builds fails; otherwise it
comes to its end, or waits for the rest of a payload.
-/

namespace YaskawaComms.Server

open Protocol Program

variable {cfg : ServerConfig} {env : Environment} {w : World}

/-- The next allocations succeed. -/
def Granted (blocks : Nat) (mallocs : List Bool) : Prop := ∀ granted ∈ mallocs.take blocks, granted = true

instance (blocks : Nat) (mallocs : List Bool) : Decidable (Granted blocks mallocs) :=
  inferInstanceAs (Decidable (∀ granted ∈ mallocs.take blocks, granted = true))

theorem granted_zero (mallocs : List Bool) : Granted 0 mallocs := by simp [Granted]

theorem granted_succ (blocks : Nat) (mallocs : List Bool) :
    Granted (blocks + 1) mallocs ↔ mallocs.headD true = true ∧ Granted blocks mallocs.tail := by
  cases mallocs with
  | nil => simp [Granted]
  | cons granted mallocs => simp [Granted]

/-- A response of this payload length consists of so many blocks. -/
def contextBlocks (length : UInt32) : Nat := if 0 < length then 3 else 2

/-- The blocks that the server allocates for its response to a message that has been read: the
context of a callback's response is there already. -/
def responseBlocks (cfg : ServerConfig) (env : Environment) (header : ProtocolHeader)
    (payload : List UInt8) : Nat :=
  if header.messageType = msgRegisterUdpPort then
    if RegistersPort cfg payload then contextBlocks 0 else contextBlocks (UInt32.ofNat sizeofErrorPayload)
  else if (callbackReply cfg env header payload).isSome then 0
  else contextBlocks (UInt32.ofNat sizeofErrorPayload)

/-- If a message with this header is answered, the allocations for the response succeed. The payload
buffer comes first; without it the message is answered with an error. -/
def ResponseGranted (cfg : ServerConfig) (env : Environment) (header : ProtocolHeader)
    (stream : List UInt8) (mallocs : List Bool) : Prop :=
  let length := header.payloadLength.toNat
  if length ≤ maxPayloadSize then
    if mallocs.headD true = true then
      length ≤ stream.length → Granted (responseBlocks cfg env header (stream.take length)) mallocs.tail
    else Granted (contextBlocks (UInt32.ofNat sizeofErrorPayload)) mallocs.tail
  else Granted (contextBlocks (UInt32.ofNat sizeofErrorPayload)) mallocs

instance (cfg : ServerConfig) (env : Environment) (header : ProtocolHeader) (stream : List UInt8)
    (mallocs : List Bool) : Decidable (ResponseGranted cfg env header stream mallocs) := by
  delta ResponseGranted
  infer_instance

/-- The round never sends a null context, and the thread goes on serving: the round comes to its end,
or waits for the rest of a payload. -/
structure World.GoesOn (cfg : ServerConfig) (env : Environment) (w : World) : Prop where
  built : (tcpThreadFunc cfg).stuckAt (World.handle cfg env) w ≠ some .nullContext
  serves : (w.service cfg env).1 = some .again ∨
    ∃ fd len, (tcpThreadFunc cfg).stuckAt (World.handle cfg env) w = some (.recv fd len)

section Calls

variable {α : Type}

@[simp] theorem exec_getTimestampMs (f : UInt64 → ServerProgram α) :
    (getTimestampMs >>= f).exec (World.handle cfg env) w =
      (f env.timestamp).exec (World.handle cfg env) w :=
  exec_call_some rfl

theorem handle_none {c : ServerCall} {w' : World} (h : w.handle cfg env c = (none, w')) :
    (∃ fd len, c = .recv fd len) ∨ c = .nullContext := by
  cases c with
  | recv fd len => exact Or.inl ⟨fd, len, rfl⟩
  | nullContext => exact Or.inr rfl
  | readHeader fd =>
      simp only [World.handle, World.answer, Shared.perform] at h
      split at h
      · next hnone => split at hnone <;> cases hnone
      · cases h
  | _ => simp [World.handle, World.answer, Shared.perform] at h

end Calls

section Contexts

/-- A context is there exactly if all its blocks are. -/
theorem exec_allocateResponseContext (length : UInt32) (type : UInt8) (w : World) :
    ∃ ctx w', (allocateResponseContext length type).exec (World.handle cfg env) w = (some ctx, w') ∧
      (ctx = none ↔ ¬ Granted (contextBlocks length) w.mallocs) := by
  have hblocks : Granted (contextBlocks length) w.mallocs ↔ w.mallocs.headD true = true ∧
      w.mallocs.tail.headD true = true ∧ (0 < length → w.mallocs.tail.tail.headD true = true) := by
    by_cases hlength : 0 < length
    · rw [contextBlocks, if_pos hlength, granted_succ, granted_succ, granted_succ]
      simp [granted_zero, hlength]
    · rw [contextBlocks, if_neg hlength, granted_succ, granted_succ]
      simp [granted_zero, hlength]
  rw [hblocks]
  unfold allocateResponseContext
  by_cases hblock : w.mallocs.headD true = true
  · rw [exec_malloc_some _ hblock]
    dsimp only
    by_cases hheader : w.mallocs.tail.headD true = true
    · rw [exec_malloc_some _ hheader]
      simp only [exec_getTimestampMs]
      by_cases hlength : 0 < length
      · rw [if_pos hlength]
        by_cases hpayload : w.mallocs.tail.tail.headD true = true
        · rw [exec_malloc_some _ hpayload]
          exact ⟨_, _, rfl, iff_of_false nofun fun h => h ⟨hblock, hheader, fun _ => hpayload⟩⟩
        · rw [exec_malloc_none _ (by simpa using hpayload)]
          simp only [exec_free]
          exact ⟨_, _, rfl, iff_of_true rfl fun h => hpayload (h.2.2 hlength)⟩
      · rw [if_neg hlength]
        exact ⟨_, _, rfl, iff_of_false nofun fun h => h ⟨hblock, hheader, fun h => absurd h hlength⟩⟩
    · rw [exec_malloc_none _ (by simpa using hheader)]
      simp only [exec_free]
      exact ⟨_, _, rfl, iff_of_true rfl fun h => hheader h.2.1⟩
  · rw [exec_malloc_none _ (by simpa using hblock)]
    exact ⟨_, _, rfl, iff_of_true rfl fun h => hblock h.1⟩

theorem exec_msgErrResponse (err : ErrorPayload) (w : World) :
    ∃ ctx w', (msgErrResponse err).exec (World.handle cfg env) w = (some ctx, w') ∧
      (ctx = none ↔ ¬ Granted (contextBlocks (UInt32.ofNat sizeofErrorPayload)) w.mallocs) := by
  obtain ⟨ctx, w', hexec, hctx⟩ : ∃ ctx w',
      (allocateResponseContext (UInt32.ofNat sizeofErrorPayload) msgError).exec (World.handle cfg env) w =
        (some ctx, w') ∧ _ := exec_allocateResponseContext _ _ w
  refine ⟨_, w', exec_bind_some hexec, ?_⟩
  rw [← hctx, Option.map_eq_none_iff]

/-- Whatever the world, the program comes to its end. -/
def Completes {α : Type} (cfg : ServerConfig) (env : Environment) (p : ServerProgram α) : Prop :=
  ∀ w, ∃ a w', p.exec (World.handle cfg env) w = (some a, w')

theorem completes_ret {α : Type} (a : α) : Completes cfg env (.ret a) := fun w => ⟨a, w, rfl⟩

theorem Completes.bind {α β : Type} {p : ServerProgram α} {f : α → ServerProgram β}
    (hp : Completes cfg env p) (hf : ∀ a, Completes cfg env (f a)) : Completes cfg env (p >>= f) := by
  intro w
  obtain ⟨a, w', hexec⟩ := hp w
  obtain ⟨b, w'', hrest⟩ := hf a w'
  exact ⟨b, w'', by rw [exec_bind_some hexec, hrest]⟩

theorem Completes.stuckAt {α : Type} {p : ServerProgram α} (hp : Completes cfg env p) (w : World) :
    p.stuckAt (World.handle cfg env) w = none := by
  rcases exec_or_stuckAt p w with ⟨_, _, _, hstuck⟩ | ⟨_, _, _, hnone, _⟩
  · exact hstuck
  · obtain ⟨a, w', hexec⟩ := hp w
    rw [hexec] at hnone
    cases hnone

theorem completes_platformFree (block : Nat) : Completes cfg env (platformFree block) :=
  fun _ => ⟨_, _, rfl⟩

theorem completes_removeClient : Completes cfg env removeClient := fun _ => ⟨_, _, rfl⟩

theorem completes_platformSend (fd : Int) (bytes : List UInt8) :
    Completes cfg env (platformSend fd bytes) := by
  intro w
  obtain ⟨count, shared, hperform⟩ : ∃ count shared,
      w.shared.perform cfg { sent := env.sent bytes } (.send fd bytes) = some (count, shared) :=
    ⟨_, _, rfl⟩
  refine ⟨count, { w with shared := shared }, exec_call_some ?_⟩
  simp only [World.handle, World.answer, hperform]

theorem completes_sendCommandResponseContext (socket : Int) (ctx : ResponseContext) :
    Completes cfg env (sendCommandResponseContext socket (some ctx)) := by
  have hfree : Completes cfg env (freeCommandResponseContext ctx) := by
    unfold freeCommandResponseContext
    have hblocks : Completes cfg env (platformFree ctx.headerBlock >>= fun _ =>
        platformFree ctx.block) :=
      (completes_platformFree _).bind fun _ => completes_platformFree _
    split
    · exact (completes_platformFree _).bind fun _ => hblocks
    · exact hblocks
  have hend : ∀ sent : Int, Completes cfg env (freeCommandResponseContext ctx >>= fun _ =>
      pure (if (sent - (sizeofProtocolHeader + ctx.header.payloadLength.toNat : Nat)) % 2 ^ 64 = 0
        then 0 else (-1 : Int))) := fun _ => hfree.bind fun _ => completes_ret _
  unfold sendCommandResponseContext
  apply (completes_platformSend _ _).bind
  intro sent
  split
  · split
    · exact (completes_platformSend _ _).bind fun _ => hend _
    · exact hend _
  · exact hend _

theorem respond_stuckAt {α : Type} {context : ServerProgram (Option ResponseContext)}
    {ctx : Option ResponseContext} {w' : World}
    (hexec : context.exec (World.handle cfg env) w = (some ctx, w')) {f : Int → ServerProgram α}
    (hf : ∀ sent, Completes cfg env (f sent)) :
    (respond context >>= f).stuckAt (World.handle cfg env) w = some .nullContext ↔ ctx = none := by
  have hload : loadSocket.exec (World.handle cfg env) w = (some w.shared.ctx.client.socket, w) := rfl
  unfold respond
  rw [bind_assoc, stuckAt_bind_some hload, bind_assoc, stuckAt_bind_some hexec]
  cases ctx with
  | none => exact iff_of_true rfl rfl
  | some ctx =>
      have hcompletes : Completes cfg env
          (sendCommandResponseContext w.shared.ctx.client.socket (some ctx) >>= f) :=
        (completes_sendCommandResponseContext _ ctx).bind hf
      rw [hcompletes.stuckAt]
      exact iff_of_false nofun nofun

theorem respondError_stuckAt {α : Type} (err : ErrorPayload) (w : World)
    {f : Int → ServerProgram α} (hf : ∀ sent, Completes cfg env (f sent)) :
    (respond (msgErrResponse err) >>= f).stuckAt (World.handle cfg env) w = some .nullContext ↔
      ¬ Granted (contextBlocks (UInt32.ofNat sizeofErrorPayload)) w.mallocs := by
  obtain ⟨ctx, w', hexec, hctx⟩ : ∃ ctx w',
      (msgErrResponse err).exec (World.handle cfg env) w = (some ctx, w') ∧ _ :=
    exec_msgErrResponse err w
  rw [respond_stuckAt hexec hf, hctx]

end Contexts

section Message

theorem handleRegistration_stuckAt {α : Type} (block : Nat) (payload : List UInt8) (w : World)
    {f : Bool → ServerProgram α} (hf : ∀ kept, Completes cfg env (f kept)) :
    (handleRegistration cfg block payload >>= f).stuckAt (World.handle cfg env) w = some .nullContext ↔
      ¬ Granted (if RegistersPort cfg payload then contextBlocks 0
        else contextBlocks (UInt32.ofNat sizeofErrorPayload)) w.mallocs := by
  have hkept : ∀ sent : Int, Completes cfg env (pure true >>= f) := fun _ => hf true
  unfold handleRegistration
  split
  · next hshort =>
      rw [if_neg fun h : RegistersPort cfg payload => absurd h.1 (by omega), bind_assoc]
      exact respondError_stuckAt _ w hkept
  · next hlong =>
      split
      · next err herr =>
          have hno : ¬ RegistersPort cfg payload := fun h => by simp [h.2.1] at herr
          rw [if_neg hno, bind_assoc, rejectRegistration, bind_assoc]
          exact respondError_stuckAt _ w fun _ => ((completes_platformFree _).bind fun _ =>
            completes_removeClient).bind fun _ => hf false
      · next herr =>
          have hversion : versionError cfg.versionMismatch payload = none := by
            cases hcase : versionError cfg.versionMismatch payload with
            | none => rfl
            | some err => exact absurd hcase (herr err)
          by_cases hport : 0 < udpPort payload
          · have hregister : (registerUdpPort (udpPort payload)).exec (World.handle cfg env) w =
                (some (), { w with shared := w.shared.registerUdpPort (udpPort payload) }) := rfl
            have hregisters : RegistersPort cfg payload := ⟨by omega, hversion, hport⟩
            rw [if_pos hport, if_pos hregisters, bind_assoc, stuckAt_bind_some hregister, bind_assoc]
            obtain ⟨ctx, w', hexec, hctx⟩ : ∃ ctx w', msgOkResponse.exec (World.handle cfg env)
                { w with shared := w.shared.registerUdpPort (udpPort payload) } = (some ctx, w') ∧ _ :=
              exec_allocateResponseContext _ _ _
            rw [respond_stuckAt hexec hkept, hctx]
          · rw [if_neg hport, if_neg fun h : RegistersPort cfg payload => hport h.2.2, bind_assoc]
            exact respondError_stuckAt _ w hkept

/-- A configured callback answers, or the server answers in its place. -/
theorem respondWith_stuckAt {α : Type} (configured : Bool) {reply : Option Reply}
    {callback : ServerProgram (Option ResponseContext)} {ctx : Option ResponseContext} {w' : World}
    (hcallback : callback.exec (World.handle cfg env) w = (some ctx, w'))
    (hctx : ctx.isSome = reply.isSome) (hmallocs : w'.mallocs = w.mallocs)
    {f : Unit → ServerProgram α} (hf : ∀ u, Completes cfg env (f u)) :
    (respondWith configured callback >>= f).stuckAt (World.handle cfg env) w = some .nullContext ↔
      ¬ Granted (if (if configured then reply else none).isSome then 0
        else contextBlocks (UInt32.ofNat sizeofErrorPayload)) w.mallocs := by
  have hend : ∀ sent : Int, Completes cfg env (pure () >>= f) := fun _ => hf ()
  unfold respondWith
  by_cases hconfigured : configured = true
  · rw [if_pos hconfigured, if_pos hconfigured, ← hctx, bind_assoc, stuckAt_bind_some hcallback]
    cases ctx with
    | none =>
        rw [← hmallocs]
        dsimp only
        rw [bind_assoc]
        exact respondError_stuckAt _ w' hend
    | some rsp =>
        have hresponse : (pure (some rsp) : ServerProgram (Option ResponseContext)).exec
            (World.handle cfg env) w' = (some (some rsp), w') := rfl
        rw [← hmallocs]
        dsimp only
        rw [bind_assoc]
        apply iff_of_false
        · exact fun h => nomatch (respond_stuckAt hresponse hend).mp h
        · exact fun h => h (granted_zero _)
  · rw [if_neg hconfigured, if_neg hconfigured]
    dsimp only
    rw [bind_assoc]
    exact respondError_stuckAt _ w hend

theorem exec_reply (reply : Option Reply) (w : World) : ∃ ctx shared,
    w.shared.reply reply = (ctx, shared) ∧ ctx.isSome = reply.isSome := by
  cases reply with
  | none => exact ⟨none, w.shared, rfl, rfl⟩
  | some r =>
      rw [Shared.reply]
      cases hpayload : r.payload <;> exact ⟨_, _, rfl, rfl⟩

theorem handlePayload_stuckAt {α : Type} (header : ProtocolHeader) (block : Nat)
    (payload : List UInt8) (w : World) {f : Unit → ServerProgram α}
    (hf : ∀ u, Completes cfg env (f u)) :
    (handlePayload cfg header block payload >>= f).stuckAt (World.handle cfg env) w =
        some .nullContext ↔
      ¬ Granted (responseBlocks cfg env header payload) w.mallocs := by
  have hfree : ∀ u : Unit, Completes cfg env (platformFree block >>= f) :=
    fun _ => (completes_platformFree _).bind hf
  have htime : time.exec (World.handle cfg env) w = (some w.shared.time, w) := rfl
  have hstore : (storeLastCommand w.shared.time).exec (World.handle cfg env) w =
      (some (), { w with shared.ctx.client.lastCommand := w.shared.time }) := rfl
  unfold handlePayload responseBlocks
  rw [bind_assoc, stuckAt_bind_some htime, bind_assoc, stuckAt_bind_some hstore]
  by_cases hregister : header.messageType = msgRegisterUdpPort
  · rw [if_pos hregister, if_pos hregister, bind_assoc]
    refine handleRegistration_stuckAt block payload _ ?_
    intro kept
    cases kept with
    | true => exact hfree ()
    | false => exact hf ()
  · rw [if_neg hregister, if_neg hregister]
    by_cases hinfo : header.messageType = msgGetErrorInfo
    · obtain ⟨ctx, shared, hreply, hctx⟩ := exec_reply env.getErrorInfo
        { w with shared.ctx.client.lastCommand := w.shared.time }
      have hcallback : getErrorInfo.exec (World.handle cfg env)
          { w with shared.ctx.client.lastCommand := w.shared.time } =
            (some ctx, { w with shared := shared }) := by
        apply exec_call_some
        simp only [World.handle, World.answer, Shared.perform, hreply]
      rw [if_pos hinfo, bind_assoc]
      rw [callbackReply, if_pos hinfo]
      exact respondWith_stuckAt _ hcallback hctx rfl hfree
    · obtain ⟨ctx, shared, hreply, hctx⟩ := exec_reply (env.handleCommand header payload)
        { w with shared.ctx.client.lastCommand := w.shared.time }
      have hcallback : (handleCommand header payload).exec (World.handle cfg env)
          { w with shared.ctx.client.lastCommand := w.shared.time } =
            (some ctx, { w with shared := shared }) := by
        apply exec_call_some
        simp only [World.handle, World.answer, Shared.perform, hreply]
      rw [if_neg hinfo, bind_assoc]
      rw [callbackReply, if_neg hinfo]
      exact respondWith_stuckAt _ hcallback hctx rfl hfree

theorem receivePayload_stuckAt (length rounds : Nat) (payload : List UInt8) (w : World) :
    (receivePayload length rounds payload).stuckAt (World.handle cfg env) w ≠ some .nullContext := by
  induction rounds generalizing payload w with
  | zero => exact (Option.some_ne_none _).symm
  | succ rounds ih =>
      have hload : loadSocket.exec (World.handle cfg env) w = (some w.shared.ctx.client.socket, w) := rfl
      rw [receivePayload]
      split
      · rw [stuckAt_bind_some hload]
        cases hrecv : (World.handle cfg env (.recv w.shared.ctx.client.socket (length - payload.length)) w) with
        | mk answer w' =>
            cases answer with
            | none =>
                unfold platformRecv
                rw [call_bind, stuckAt_call_none hrecv]
                intro hcall
                cases hcall
            | some received =>
                unfold platformRecv
                rw [call_bind, stuckAt_call_some hrecv, ret_bind]
                cases received with
                | none => exact (Option.some_ne_none _).symm
                | some bytes =>
                    cases bytes with
                    | nil => exact (Option.some_ne_none _).symm
                    | cons b rest => exact ih _ _
      · exact (Option.some_ne_none _).symm

theorem rejected_stuckAt (header : ProtocolHeader) (w : World) :
    ((rejected header >>= fun _ => respond (msgErrResponseInt (-1)) >>= fun _ => pure ()) >>=
        fun _ => .ret Round.again).stuckAt (World.handle cfg env) w = some .nullContext ↔
      ¬ Granted (contextBlocks (UInt32.ofNat sizeofErrorPayload)) w.mallocs := by
  have hrejected : (rejected header).exec (World.handle cfg env) w =
      (some (), { w with shared := w.shared.record [.rejected header] }) := rfl
  rw [Program.bind_assoc, stuckAt_bind_some hrejected, Program.bind_assoc]
  exact respondError_stuckAt _ _ fun _ => completes_ret _

/-- The part of `handleMessage` that has a buffer for the payload. -/
theorem received_stuckAt (header : ProtocolHeader) (block : Nat) (w : World)
    {f : Option (List UInt8) → ServerProgram Unit} (hnone : Completes cfg env (f none))
    (hsome : ∀ payload, f (some payload) =
      dispatched header payload >>= fun _ => handlePayload cfg header block payload) :
    ((receivePayload header.payloadLength.toNat header.payloadLength.toNat [] >>= f) >>=
        fun _ => .ret Round.again).stuckAt (World.handle cfg env) w = some .nullContext ↔
      ¬ (header.payloadLength.toNat ≤ w.transport.stream.length → Granted
        (responseBlocks cfg env header (w.transport.stream.take header.payloadLength.toNat))
        w.mallocs) := by
  have hend : ∀ u : Unit, Completes cfg env (.ret Round.again) := fun _ => completes_ret _
  rw [Program.bind_assoc]
  by_cases hstream : header.payloadLength.toNat ≤ w.transport.stream.length
  · obtain ⟨u, hread, hmallocs⟩ : ∃ u : World,
        (receivePayload header.payloadLength.toNat header.payloadLength.toNat [] >>=
          Program.ret).exec (World.handle cfg env) w =
          (some (some (w.transport.stream.take header.payloadLength.toNat)), u) ∧
        u.mallocs = w.mallocs :=
      ⟨_, exec_receivePayload (by simp) (by simpa using hstream) Program.ret, rfl⟩
    have hdispatched : ∀ payload, (dispatched header payload).exec (World.handle cfg env) u =
        (some (), { u with shared := u.shared.record [.dispatched header payload] }) := fun _ => rfl
    rw [show _ >>= Program.ret = _ from bind_pure _] at hread
    rw [stuckAt_bind_some hread, hsome, Program.bind_assoc, stuckAt_bind_some (hdispatched _),
      handlePayload_stuckAt header _ _ _ hend, ← hmallocs]
    exact not_congr ⟨fun h _ => h, fun h => h hstream⟩
  · apply iff_of_false _ (not_not_intro fun h => absurd h hstream)
    have hshort : (∃ w', (receivePayload header.payloadLength.toNat header.payloadLength.toNat
          []).exec (World.handle cfg env) w = (none, w')) ∨
        ∃ transport, (receivePayload header.payloadLength.toNat header.payloadLength.toNat
          []).exec (World.handle cfg env) w = (some none, { w with transport := transport }) :=
      receivePayload_short (by simp) (by simpa using hstream)
    rcases hshort with ⟨w', hexec⟩ | ⟨transport, hexec⟩
    · rw [stuckAt_bind_none hexec]
      exact receivePayload_stuckAt _ _ _ w
    · rw [stuckAt_bind_some hexec, (hnone.bind hend).stuckAt]
      exact (Option.some_ne_none _).symm

theorem handleMessage_stuckAt (header : ProtocolHeader) (w : World) :
    (handleMessage cfg header >>= fun _ => .ret Round.again).stuckAt (World.handle cfg env) w =
        some .nullContext ↔
      ¬ ResponseGranted cfg env header w.transport.stream w.mallocs := by
  unfold handleMessage ResponseGranted
  dsimp only
  by_cases hsize : header.payloadLength.toNat ≤ maxPayloadSize
  · rw [if_pos hsize, if_pos hsize, bind_assoc]
    by_cases hmalloc : w.mallocs.headD true = true
    · let v : World :=
        { w with
          shared := { w.shared with heap := w.shared.heap.alloc.2 }
          mallocs := w.mallocs.tail }
      have hblock : (platformMalloc header.payloadLength.toNat).exec (World.handle cfg env) w =
          (some (some w.shared.heap.alloc.1), v) := exec_malloc_some _ hmalloc .ret
      rw [if_pos hmalloc, stuckAt_bind_some hblock]
      exact received_stuckAt header _ v
        ((completes_platformFree _).bind fun _ => completes_removeClient) fun _ => rfl
    · have hblock : (platformMalloc header.payloadLength.toNat).exec (World.handle cfg env) w =
          (some none, { w with mallocs := w.mallocs.tail }) :=
        exec_malloc_none _ (by simpa using hmalloc) .ret
      rw [if_neg hmalloc, stuckAt_bind_some hblock]
      exact rejected_stuckAt header _
  · rw [if_neg hsize, if_neg hsize]
    exact rejected_stuckAt header w

end Message

section Round

theorem service_stuckAt (hw : w.Serving) :
    (tcpThreadFunc cfg).stuckAt (World.handle cfg env) w = some .nullContext ↔
      (Protocol.readHeader env.memory w.transport).ret = sizeofProtocolHeader ∧
        ¬ ResponseGranted cfg env (Protocol.readHeader env.memory w.transport).header.value
          (Protocol.readHeader env.memory w.transport).transport.stream w.mallocs := by
  let result := Protocol.readHeader env.memory w.transport
  have hend : Completes cfg env (.ret Round.again) := completes_ret _
  have hload : loadSocket.exec (World.handle cfg env) w = (some w.shared.ctx.client.socket, w) := rfl
  have hread : (readHeader w.shared.ctx.client.socket).exec (World.handle cfg env) w =
      (some (result.ret, result.header.value), { w with transport := result.transport }) :=
    exec_readHeader hw.connected rfl .ret
  obtain ⟨_, hleads, _⟩ : Watching cfg env w _ _ := service_watching hw
  rw [hleads.stuckAt_eq, serviceClient, Program.bind_assoc, stuckAt_bind_some hload, Program.bind_assoc,
    stuckAt_bind_some hread]
  dsimp only
  by_cases hlost : result.ret ≤ 0
  · rw [if_pos hlost, (completes_removeClient.bind fun _ => hend).stuckAt]
    apply iff_of_false (Option.some_ne_none _).symm
    rintro ⟨hret, -⟩
    rw [show result.ret = sizeofProtocolHeader from hret] at hlost
    exact absurd hlost (by decide)
  · rw [if_neg hlost]
    by_cases hwhole : result.ret = sizeofProtocolHeader
    · rw [if_pos hwhole, handleMessage_stuckAt]
      exact (and_iff_right hwhole).symm
    · rw [if_neg hwhole]
      exact iff_of_false (Option.some_ne_none _).symm fun h => hwhole h.1

/-- The service loop never sends a null context, and goes on, exactly if for each message that is
answered the allocations for the response succeed. -/
theorem service_goesOn_iff (hw : w.Serving) :
    w.GoesOn cfg env ↔
      let result := Protocol.readHeader env.memory w.transport
      result.ret = sizeofProtocolHeader →
        ResponseGranted cfg env result.header.value result.transport.stream w.mallocs := by
  dsimp only
  rw [← not_and_not_right, ← service_stuckAt hw]
  constructor
  · exact fun h => h.built
  · intro hbuilt
    refine ⟨hbuilt, ?_⟩
    rcases exec_or_stuckAt (tcpThreadFunc cfg) w with ⟨round, w', hexec, _⟩ | ⟨c, _, _, _, hstuck, hnone⟩
    · left
      have hservice : w.service cfg env = (some round, w') := hexec
      rw [hservice]
      rw [service_serving hw] at hservice
      cases hclient : (serviceClient cfg).exec (World.handle cfg env) w with
      | mk done v =>
          cases done with
          | none =>
              rw [exec_bind_none hclient] at hservice
              cases hservice
          | some _ =>
              rw [exec_bind_some hclient] at hservice
              cases hservice
              rfl
    · rcases handle_none hnone with ⟨fd, len, rfl⟩ | rfl
      · exact Or.inr ⟨fd, len, hstuck⟩
      · exact absurd hstuck hbuilt

end Round

section Examples

/-- A heartbeat has arrived. -/
def heartbeatWorld (mallocs : List Bool) : World := worldOf (quiet heartbeat.bytes) mallocs

theorem heartbeatWorld_readHeader (mallocs : List Bool) :
    let result := Protocol.readHeader plainEnvironment.memory (heartbeatWorld mallocs).transport
    result.ret = sizeofProtocolHeader ∧ result.header.value = heartbeat.header ∧
      result.transport = quiet [] :=
  readHeader_whole plainEnvironment.memory heartbeat ⟨Nat.le_refl _, nofun⟩ (List.append_nil _).symm

theorem heartbeat_goesOn :
    (heartbeatWorld [true, true, true, true, false]).GoesOn plainConfig plainEnvironment := by
  refine (service_goesOn_iff (worldOf_serving _ _)).mpr ?_
  obtain ⟨_, hheader, htransport⟩ := heartbeatWorld_readHeader [true, true, true, true, false]
  intro result _
  rw [show result.header.value = _ from hheader, show result.transport = _ from htransport]
  decide

/-- There is no memory for the response to a heartbeat. -/
theorem heartbeat_nullContext :
    (heartbeatWorld [true, false]).Serving ∧
      ¬ (heartbeatWorld [true, false]).GoesOn plainConfig plainEnvironment := by
  refine ⟨worldOf_serving _ _, fun h => h.built ?_⟩
  obtain ⟨hret, hheader, htransport⟩ := heartbeatWorld_readHeader [true, false]
  apply (service_stuckAt (worldOf_serving _ _)).mpr
  refine ⟨hret, ?_⟩
  have hgranted : ¬ ResponseGranted plainConfig plainEnvironment heartbeat.header [] [true, false] := by
    decide
  rwa [← hheader, ← show (quiet []).stream = [] from rfl, ← htransport] at hgranted

end Examples

end YaskawaComms.Server
