import YaskawaComms.Server.Decoding

/-!
# Round trips

What the server sends in a conversation, read by the code with which it reads messages itself: the
responses to the frames, in order and unchanged.
-/

namespace YaskawaComms.Server

open Protocol Program

/-- What is read if this response is sent. -/
def Reply.message (r : Reply) : ProtocolHeader × List UInt8 := (r.header, r.payload.getD [])

/-- The callbacks return no response that is larger than a message may be. -/
structure Environment.Bounded (env : Environment) : Prop where
  handleCommand : ∀ header payload r, env.handleCommand header payload = some r →
    r.header.payloadLength.toNat ≤ maxPayloadSize
  getErrorInfo : ∀ r, env.getErrorInfo = some r → r.header.payloadLength.toNat ≤ maxPayloadSize

/-- The frames up to the first one for which the server drops the client. -/
def answered (cfg : ServerConfig) : List Frame → List Frame
  | [] => []
  | f :: frames => if Rejects cfg f.header f.payload then [f] else f :: answered cfg frames

section RoundTrips

variable {cfg : ServerConfig} {env : Environment}

theorem response_bounded (henv : env.Bounded) (header : ProtocolHeader) (payload : List UInt8) :
    (response cfg env header payload).header.payloadLength.toNat ≤ maxPayloadSize := by
  have hok : (okReply env).header.payloadLength.toNat ≤ maxPayloadSize :=
    (by decide : (0 : UInt32).toNat ≤ maxPayloadSize)
  have herror : ∀ err, (errorReply env err).header.payloadLength.toNat ≤ maxPayloadSize := by
    intro _
    exact (by decide : (UInt32.ofNat sizeofErrorPayload).toNat ≤ maxPayloadSize)
  unfold response
  split
  · split
    · exact hok
    · exact herror _
  · cases hreply : callbackReply cfg env header payload with
    | none => exact herror _
    | some r =>
        unfold callbackReply at hreply
        split at hreply
        · split at hreply
          · exact henv.getErrorInfo r hreply
          · cases hreply
        · split at hreply
          · exact henv.handleCommand header payload r hreply
          · cases hreply

/-- A response is a frame. -/
def Reply.Built.frame {r : Reply} (h : r.Built) : Frame where
  header := r.header
  payload := r.payload.getD []
  magic := h.magic
  length := by
    cases hpayload : r.payload with
    | none =>
        rw [h.payload.mp hpayload]
        rfl
    | some bytes => exact h.length bytes hpayload

theorem exchange_buffer {socket : Int} {header : ProtocolHeader} {payload : List UInt8}
    (h : (response cfg env header payload).Built) :
    (exchange cfg env socket header payload).flatMap ServerCall.buffer =
      (response cfg env header payload).bytes := by
  have hcommands : (commands cfg header payload).flatMap ServerCall.buffer = [] := by
    unfold commands
    split
    · rfl
    · split
      · rfl
      · split
        · rfl
        · rfl
  rw [exchange, List.flatMap_append, hcommands, List.nil_append]
  exact h.sends_bytes socket

theorem Arrives.answered {cuts : List Cut} {frames : List Frame} {envs : List Environment}
    {handled : List (Environment × Frame)} (h : Arrives cfg cuts frames envs handled) :
    handled.map Prod.snd = answered cfg frames := by
  induction h with
  | finished => rfl
  | waits _ ih => exact ih
  | kept _ keeps _ ih =>
      rw [List.map_cons, ih, Server.answered, if_neg keeps]
  | dropped _ drops =>
      rw [List.map_singleton, Server.answered, if_pos drops]

theorem Arrives.sublist {cuts : List Cut} {frames : List Frame} {envs : List Environment}
    {handled : List (Environment × Frame)} (h : Arrives cfg cuts frames envs handled) :
    (handled.map Prod.fst).Sublist envs := by
  induction h with
  | finished => exact .slnil
  | waits _ ih => exact ih.cons _
  | kept _ _ _ ih => exact ih.cons_cons _
  | dropped _ _ => exact (List.nil_sublist _).cons_cons _

/-- A response that can be read when it has been sent. -/
structure Reply.Readable (r : Reply) : Prop where
  built : r.Built
  bounded : r.header.payloadLength.toNat ≤ maxPayloadSize

theorem responses_frames (cfg : ServerConfig) {handled : List (Environment × Frame)} (socket : Int)
    (h : ∀ e ∈ handled, (response cfg e.1 e.2.header e.2.payload).Readable) :
    ∃ replies : List Frame,
      messages replies =
        handled.map (fun (env, f) => (response cfg env f.header f.payload).message) ∧
      encode replies = (handled.flatMap fun (env, f) =>
        exchange cfg env socket f.header f.payload).flatMap ServerCall.buffer ∧
      ∀ f ∈ replies, f.header.payloadLength.toNat ≤ maxPayloadSize := by
  induction handled with
  | nil => exact ⟨[], rfl, rfl, List.forall_mem_nil _⟩
  | cons e handled ih =>
      obtain ⟨env, f⟩ := e
      have hreadable : (response cfg env f.header f.payload).Readable := h _ List.mem_cons_self
      obtain ⟨replies, hmessages, hencode, hsizes⟩ := ih fun e he => h e (List.mem_cons_of_mem _ he)
      refine ⟨hreadable.built.frame :: replies, ?_, ?_,
        List.forall_mem_cons.mpr ⟨hreadable.bounded, hsizes⟩⟩
      · rw [messages, List.map_cons, ← messages, hmessages]
        rfl
      · rw [encode_cons, hencode, List.flatMap_cons, List.flatMap_append,
          exchange_buffer hreadable.built]
        rfl

theorem converse_decodes {w : World} {frames : List Frame} {rest : List UInt8}
    {envs : List Environment} {handled : List (Environment × Frame)} (hw : w.Serving)
    (hmallocs : w.mallocs = []) (hstream : w.transport.stream = encode frames ++ rest)
    (hsizes : ∀ f ∈ frames, f.header.payloadLength.toNat ≤ maxPayloadSize)
    (harrives : Arrives cfg w.transport.cuts frames envs handled)
    (h : ∀ e ∈ handled, (response cfg e.1 e.2.header e.2.payload).Readable) :
    ∃ replies : List Frame,
      messages replies =
        handled.map (fun (env, f) => (response cfg env f.header f.payload).message) ∧
      Decodes ((World.converse cfg envs w).1.flatMap ServerCall.buffer) replies := by
  obtain ⟨replies, hmessages, hencode, hreplies⟩ : ∃ replies : List Frame, _ ∧ _ ∧ _ :=
    responses_frames cfg w.shared.ctx.client.socket h
  refine ⟨replies, hmessages, ?_⟩
  rw [converse_exchanges hw hmallocs hstream hsizes harrives, ← hencode]
  exact decodes_encode hreplies

/-- Every frame that arrives is answered, whenever it arrives, until the server drops the client; and
whoever reads what was sent reads these responses, in order, and nothing else. -/
theorem requests_answered {w : World} {frames : List Frame} {rest : List UInt8} (hw : w.Serving)
    (hmallocs : w.mallocs = []) (hstream : w.transport.stream = encode frames ++ rest)
    (hsizes : ∀ f ∈ frames, f.header.payloadLength.toNat ≤ maxPayloadSize)
    (hwhole : HeadersWhole frames w.transport.cuts) (envs : Nat → Environment)
    (hbuilds : ∀ n, (envs n).Builds) (hbounded : ∀ n, (envs n).Bounded) :
    ∃ (n : Nat) (handled : List (Environment × Frame)),
      let rounds := (List.range n).map envs
      handled.map Prod.snd = answered cfg frames ∧ (handled.map Prod.fst).Sublist rounds ∧
        ∃ replies : List Frame,
          messages replies =
            handled.map (fun (env, f) => (response cfg env f.header f.payload).message) ∧
          Decodes ((World.converse cfg rounds w).1.flatMap ServerCall.buffer) replies := by
  obtain ⟨n, handled, harrives⟩ : ∃ n handled, Arrives cfg _ frames ((List.range n).map envs) handled :=
    arrives_of_headersWhole hwhole envs
  refine ⟨n, handled, harrives.answered, harrives.sublist, ?_⟩
  apply converse_decodes hw hmallocs hstream hsizes harrives
  intro e he
  obtain ⟨i, _, hi⟩ := List.mem_map.mp (harrives.mem e he)
  rw [← hi]
  exact ⟨response_built (hbuilds i) _ _, response_bounded (hbounded i) _ _⟩

/-- The command is not there yet when the first round begins, and its payload arrives in two pieces; the
last frame comes after the client has been dropped. -/
theorem requests_answered_registering :
    let w := worldOf { quiet (encode registeringFrames) with cuts := [.wouldBlock, .upTo 17, .upTo 1, .upTo 1] } []
    ∃ (n : Nat) (handled : List (Environment × Frame)),
      let rounds := (List.range n).map fun _ => respondingEnvironment
      handled.map Prod.snd = registeringFrames.take 4 ∧ (handled.map Prod.fst).Sublist rounds ∧
        ∃ replies : List Frame,
          messages replies =
            handled.map (fun (env, f) => (response strictConfig env f.header f.payload).message) ∧
          Decodes ((World.converse strictConfig rounds w).1.flatMap ServerCall.buffer) replies := by
  intro w
  have hwhole : HeadersWhole registeringFrames [.wouldBlock, .upTo 17, .upTo 1, .upTo 1] := by
    simp [HeadersWhole, Transport.awake, registeringFrames, stopAll, registration, payloadCuts]
  have hbounded : respondingEnvironment.Bounded := by
    refine ⟨?_, ?_⟩
    · intro header payload r hreply
      obtain rfl : twoBytes = r := Option.some.inj hreply
      decide
    · intro r hreply
      cases hreply
  have hstream : w.transport.stream = encode registeringFrames ++ [] := (List.append_nil _).symm
  have hanswered : registeringFrames.take 4 = answered strictConfig registeringFrames := rfl
  rw [hanswered]
  exact requests_answered (worldOf_serving _ _) rfl hstream (by decide) hwhole _
    (fun _ => respondingEnvironment_builds) (fun _ => hbounded)

end RoundTrips

end YaskawaComms.Server
