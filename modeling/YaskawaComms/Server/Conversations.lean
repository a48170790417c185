import YaskawaComms.Server.Responses

/-!
# Conversations

A conversation is made of one exchange for each frame, in order, until a frame makes the server drop
the client.
-/

namespace YaskawaComms.Server

open Protocol Program

/-- The calls before a message is answered. -/
def silent : Monitor serverSignature Unit where
  good _ c := c.speaks = false
  allowed _ _ _ := True
  next _ _ _ := ()

theorem receivePayload_silent (length rounds : Nat) (payload : List UInt8) :
    (receivePayload length rounds payload).Obeys silent (fun _ _ => True) () := by
  induction rounds generalizing payload with
  | zero => trivial
  | succ rounds ih =>
      unfold receivePayload
      apply obeys_ite
      · intro _
        apply obeys_keep rfl (fun _ => rfl)
        intro fd _
        apply obeys_keep rfl (fun _ => rfl)
        intro received _
        cases received with
        | none => trivial
        | some bytes =>
            cases bytes with
            | nil => trivial
            | cons b rest => exact ih _
      · intro _
        trivial

/-- Execution goes on at another point, and until then nothing is said. -/
def Silently {α : Type} (cfg : ServerConfig) (env : Environment) (p : ServerProgram α) (w : World)
    (q : ServerProgram α) (v : World) : Prop :=
  ∃ calls, Leads (World.handle cfg env) p w calls q v ∧ spoken calls = []

section Silently

variable {α β : Type} {cfg : ServerConfig} {env : Environment} {w v u : World} {q : ServerProgram β}

theorem Silently.refl : Silently cfg env q w q w := ⟨[], .refl, rfl⟩

theorem Silently.trans {p r : ServerProgram β} (h : Silently cfg env p w q v)
    (h' : Silently cfg env q v r u) : Silently cfg env p w r u := by
  obtain ⟨calls, hleads, hcalls⟩ := h
  obtain ⟨more, hmore, hsilent⟩ := h'
  exact ⟨calls ++ more, hleads.trans hmore, by rw [spoken_append, hcalls, hsilent]; rfl⟩

theorem Watching.silently {p : ServerProgram β} (h : Watching cfg env w p q) :
    Silently cfg env p w q w := by
  obtain ⟨calls, hleads, hcalls⟩ := h
  refine ⟨calls, hleads, spoken_silent ?_⟩
  intro call hcall
  have hwatches := hcalls call hcall
  obtain ⟨c, r⟩ := call
  cases c <;> first | rfl | cases hwatches

theorem silently_exec {p : ServerProgram α} {f : α → ServerProgram β} {a : α}
    (hexec : p.exec (World.handle cfg env) w = (some a, v))
    (hsilent : p.Obeys silent (fun _ _ => True) ()) (rest : Silently cfg env (f a) v q u) :
    Silently cfg env (p >>= f) w q u := by
  refine Silently.trans ⟨_, leads_of_exec hexec, spoken_silent ?_⟩ rest
  intro call hcall
  obtain ⟨_, hgood⟩ := hsilent.trace_good (fun _ _ _ => trivial) call hcall
  exact hgood

theorem silently_call {c : ServerCall} {r : c.Result} {f : c.Result → ServerProgram β}
    (hsilent : c.speaks = false) (answer : w.handle cfg env c = (some r, v))
    (rest : Silently cfg env (f r) v q u) : Silently cfg env (Program.call c .ret >>= f) w q u :=
  silently_exec (exec_call_some answer) ⟨hsilent, fun _ _ => trivial⟩ rest

end Silently

section Conversation

variable {cfg : ServerConfig} {env : Environment} {w w' : World} {f : Frame} {rest : List UInt8}

/-- The round gets to handling the next frame without a word. -/
theorem silently_frame (hw : w.Serving) (hwhole : w.transport.WholeWindow 0)
    (hstream : w.transport.stream = f.bytes ++ rest)
    (hsize : f.header.payloadLength.toNat ≤ maxPayloadSize) (hmalloc : w.mallocs.headD true = true) :
    Silently cfg env (tcpThreadFunc cfg) w
      (handlePayload cfg f.header w.shared.heap.next f.payload >>= fun _ => .ret .again)
      (w.readFrame f rest) := by
  have hstream' : w.transport.stream = f.header.bytes ++ (f.payload ++ rest) := by
    rw [hstream, Frame.bytes, List.append_assoc]
  obtain ⟨hret, hheader, htransport⟩ := readHeader_whole env.memory f hwhole hstream'
  have htake : (f.payload ++ rest).take f.header.payloadLength.toNat = f.payload :=
    List.take_left' f.length
  have hdrop : (f.payload ++ rest).drop f.header.payloadLength.toNat = rest :=
    List.drop_left' f.length
  have hread : (readHeader w.shared.ctx.client.socket).exec (World.handle cfg env) w =
      (some ((Protocol.readHeader env.memory w.transport).ret,
        (Protocol.readHeader env.memory w.transport).header.value),
        { w with transport := (Protocol.readHeader env.memory w.transport).transport }) :=
    exec_readHeader hw.connected rfl .ret
  rw [hret, hheader, htransport] at hread
  have hmore : (w.readHeader (f.payload ++ rest)).mallocs.headD true = true := hmalloc
  have hblock : (platformMalloc f.header.payloadLength.toNat).exec (World.handle cfg env)
      (w.readHeader (f.payload ++ rest)) = _ := exec_malloc_some _ hmore .ret
  let read := receivePayload f.header.payloadLength.toNat f.header.payloadLength.toNat []
  let v : World :=
    { w.readHeader (f.payload ++ rest) with
      shared := { w.shared with heap := w.shared.heap.alloc.2 }
      mallocs := w.mallocs.tail }
  have hreceive : (read >>= Program.ret).exec (World.handle cfg env) v = _ :=
    exec_receivePayload (by simp) (by simp [v, World.readHeader, f.length]) .ret
  rw [show read >>= Program.ret = read from bind_pure read, List.nil_append, List.length_nil,
    Nat.sub_zero, show v.transport.stream = f.payload ++ rest from rfl, htake, hdrop] at hreceive
  apply (service_watching hw).silently.trans
  unfold serviceClient
  simp only [Program.bind_assoc]
  apply silently_call rfl rfl
  apply silently_exec hread ⟨rfl, fun _ _ => trivial⟩
  dsimp only
  rw [if_neg (by decide), if_pos rfl, handleMessage, if_pos hsize, Program.bind_assoc]
  apply silently_exec hblock ⟨rfl, fun _ _ => trivial⟩
  dsimp only
  rw [Program.bind_assoc]
  apply silently_exec hreceive (receivePayload_silent _ _ _)
  dsimp only
  rw [Program.bind_assoc]
  apply silently_call rfl rfl
  rw [World.readFrame, ← f.length]
  exact .refl

theorem silently_waits {cuts : List Cut} (hw : w.Serving) (hcuts : w.transport.cuts = .wouldBlock :: cuts) :
    Silently cfg env (tcpThreadFunc cfg) w (.ret .again)
      { w with transport := { w.transport with cuts := cuts, errno := .eAgain } } := by
  obtain ⟨hret, htransport⟩ := readHeader_wouldBlock env.memory hcuts
  have hread : (readHeader w.shared.ctx.client.socket).exec (World.handle cfg env) w =
      (some ((Protocol.readHeader env.memory w.transport).ret,
        (Protocol.readHeader env.memory w.transport).header.value),
        { w with transport := (Protocol.readHeader env.memory w.transport).transport }) :=
    exec_readHeader hw.connected rfl .ret
  rw [hret, htransport] at hread
  apply (service_watching hw).silently.trans
  unfold serviceClient
  simp only [Program.bind_assoc]
  apply silently_call rfl rfl
  apply silently_exec hread ⟨rfl, fun _ _ => trivial⟩
  dsimp only
  rw [if_neg (by decide), if_neg (by decide)]
  exact .refl

theorem silently_idle (hrunning : w.shared.ctx.running ≠ 0)
    (hconnected : w.shared.ctx.client.connected = false) :
    Silently cfg env (tcpThreadFunc cfg) w (.ret .again) w := by
  have hselect : ∀ nfds fds, w.handle cfg env (.select nfds fds) = (some (.ok []), w) := by
    intro nfds fds
    simp [World.handle, World.answer, Shared.perform, hconnected, Except.map]
  unfold tcpThreadFunc watchClient
  apply silently_call rfl rfl
  rw [ServerCtx.get, if_neg hrunning]
  apply silently_call rfl rfl
  apply silently_call rfl rfl
  rw [Program.bind_assoc]
  apply silently_call rfl rfl
  rw [hconnected]
  apply silently_call rfl (hselect _ _)
  exact .refl

/-- What is said in these rounds, each in its environment, and the world after them. -/
def World.converse (cfg : ServerConfig) : List Environment → World → List ServerCall × World
  | [], w => ([], w)
  | env :: envs, w =>
      let calls := spoken ((tcpThreadFunc cfg).trace (World.handle cfg env) w)
      match w.service cfg env with
      | (some .again, w') =>
          let (more, last) := converse cfg envs w'
          (calls ++ more, last)
      | (_, w') => (calls, w')

theorem converse_silently {envs : List Environment}
    (h : Silently cfg env (tcpThreadFunc cfg) w (.ret .again) w') :
    World.converse cfg (env :: envs) w = World.converse cfg envs w' := by
  obtain ⟨calls, hleads, hcalls⟩ := h
  have hservice : w.service cfg env = (some .again, w') := hleads.exec_eq
  rw [World.converse, hservice, hleads.trace_eq, trace_ret, List.append_nil, hcalls]
  rfl

theorem converse_disconnected (hrunning : w.shared.ctx.running ≠ 0)
    (hconnected : w.shared.ctx.client.connected = false) (envs : List Environment) :
    World.converse cfg envs w = ([], w) := by
  induction envs with
  | nil => rfl
  | cons env envs ih => rw [converse_silently (silently_idle hrunning hconnected), ih]

/-- The next header arrives whole. -/
def HeaderWhole (cuts : List Cut) : Prop := ∀ cut, cuts.head? = some cut → ∃ n, 17 ≤ n ∧ cut = .upTo n

theorem wholeWindow_of_headerWhole {t : Transport} (hwhole : HeaderWhole t.cuts)
    (hstream : t.stream = f.bytes ++ rest) : t.WholeWindow 0 := by
  refine ⟨?_, fun cut hcut => hwhole cut ?_⟩
  · rw [hstream, List.length_append, f.bytes_length, Frame.size]
    omega
  · rwa [List.head?_eq_getElem?]

/-- Which frames are handled in which of these rounds: every round finds either no header yet or the
whole header of the next frame, until the client is dropped. -/
inductive Arrives (cfg : ServerConfig) :
    List Cut → List Frame → List Environment → List (Environment × Frame) → Prop where
  | finished {cuts : List Cut} : Arrives cfg cuts [] [] []
  | waits {cuts : List Cut} {frames : List Frame} {env : Environment} {envs : List Environment}
      {handled : List (Environment × Frame)} (later : Arrives cfg cuts frames envs handled) :
      Arrives cfg (.wouldBlock :: cuts) frames (env :: envs) handled
  | kept {cuts : List Cut} {f : Frame} {frames : List Frame} {env : Environment}
      {envs : List Environment} {handled : List (Environment × Frame)} (whole : HeaderWhole cuts)
      (keeps : ¬ Rejects cfg f.header f.payload)
      (later : Arrives cfg (payloadCuts f.payload.length cuts.tail) frames envs handled) :
      Arrives cfg cuts (f :: frames) (env :: envs) ((env, f) :: handled)
  | dropped {cuts : List Cut} {f : Frame} {frames : List Frame} {env : Environment}
      {envs : List Environment} (whole : HeaderWhole cuts) (drops : Rejects cfg f.header f.payload) :
      Arrives cfg cuts (f :: frames) (env :: envs) [(env, f)]

/-- A round that handles a frame says what is to be said to it. -/
theorem converse_frame {envs : List Environment} (hw : w.Serving) (hmallocs : w.mallocs = [])
    (hwhole : HeaderWhole w.transport.cuts) (hstream : w.transport.stream = f.bytes ++ rest)
    (hsize : f.header.payloadLength.toNat ≤ maxPayloadSize) :
    ∃ w' removed, (removed = true ↔ Rejects cfg f.header f.payload) ∧
      Handled (w.readFrame f rest) true removed w' ∧
      (World.converse cfg (env :: envs) w).1 =
        exchange cfg env w.shared.ctx.client.socket f.header f.payload ++
          (World.converse cfg envs w').1 := by
  have hwindow := wholeWindow_of_headerWhole hwhole hstream
  have hmalloc : w.mallocs.headD true = true := by rw [hmallocs]; rfl
  obtain ⟨w', removed, hservice, hrejects, hhandled⟩ : ∃ w' removed,
      w.service cfg env = (some .again, w') ∧ (removed = true ↔ Rejects cfg f.header f.payload) ∧
        Handled (w.readFrame f rest) true removed w' :=
    service_frame_completes hw hwindow hstream hsize hmallocs
  refine ⟨w', removed, hrejects, hhandled, ?_⟩
  let p := handlePayload cfg f.header w.shared.heap.next f.payload
  obtain ⟨calls, hleads, hcalls⟩ : Silently cfg env (tcpThreadFunc cfg) w (p >>= fun _ => .ret .again)
      (w.readFrame f rest) := silently_frame hw hwindow hstream hsize hmalloc
  have hexec : (p >>= fun _ => .ret Round.again).exec (World.handle cfg env) (w.readFrame f rest) =
      (some .again, w') := hleads.exec_eq.symm.trans hservice
  have hhandle : p.exec (World.handle cfg env) (w.readFrame f rest) = (some (), w') := by
    cases hp : p.exec (World.handle cfg env) (w.readFrame f rest) with
    | mk done v =>
        cases done with
        | none =>
            rw [exec_bind_none hp] at hexec
            cases hexec
        | some _ =>
            rw [exec_bind_some hp] at hexec
            cases hexec
            rfl
  have hconnected : (w.readFrame f rest).shared.ctx.client.connected = true := hw.connected
  have hempty : (w.readFrame f rest).mallocs = [] := by
    simp [World.readFrame, World.read, hmallocs]
  obtain ⟨m, hanswered, _, hsaid⟩ :=
    handlePayload_answered hhandle hconnected (fun _ : true = true => hempty)
  have htrace : spoken ((tcpThreadFunc cfg).trace (World.handle cfg env) w) =
      exchange cfg env w.shared.ctx.client.socket f.header f.payload := by
    rw [hleads.trace_eq, spoken_append, hcalls, trace_bind_some hhandle, trace_ret, List.append_nil,
      List.nil_append]
    exact hsaid.symm.trans hanswered.said
  rw [World.converse, hservice, htrace]

/-- What is said to the frames that are handled. -/
theorem converse_exchanges {frames : List Frame} {envs : List Environment}
    {handled : List (Environment × Frame)} (hw : w.Serving) (hmallocs : w.mallocs = [])
    (hstream : w.transport.stream = encode frames ++ rest)
    (hsizes : ∀ f ∈ frames, f.header.payloadLength.toNat ≤ maxPayloadSize)
    (harrives : Arrives cfg w.transport.cuts frames envs handled) :
    (World.converse cfg envs w).1 = handled.flatMap fun (env, f) =>
      exchange cfg env w.shared.ctx.client.socket f.header f.payload := by
  generalize hcuts : w.transport.cuts = cuts at harrives
  induction harrives generalizing w with
  | finished => rfl
  | waits _ ih =>
      rw [converse_silently (silently_waits hw hcuts)]
      exact ih (w := { w with transport := { w.transport with cuts := _, errno := .eAgain } })
        ⟨hw.running, hw.connected, hw.socket, hw.listener⟩ hmallocs hstream hsizes rfl
  | @kept _ f frames env envs _ whole keeps _ ih =>
      rw [← hcuts] at whole
      rw [encode_cons, List.append_assoc] at hstream
      obtain ⟨w', removed, hrejects, hhandled, hsaid⟩ : ∃ w' removed, _ ∧ Handled _ true removed w' ∧ _ :=
        converse_frame hw hmallocs whole hstream (hsizes f List.mem_cons_self)
      cases removed with
      | true => exact absurd (hrejects.mp rfl) keeps
      | false =>
          have hread : (w.readFrame f (encode frames ++ rest)).Serving :=
            ⟨hw.running, hw.connected, hw.socket, hw.listener⟩
          have hserving := hhandled.serving hread hhandled.connected
          have hmore := ih hserving (hhandled.mallocs rfl) (by rw [hhandled.transport]; rfl)
            (fun g hg => hsizes g (List.mem_cons_of_mem _ hg))
            (by rw [hhandled.transport, ← hcuts]; rfl)
          rw [hsaid, hmore, hhandled.socket rfl, List.flatMap_cons]
          rfl
  | @dropped _ f frames env envs whole drops =>
      rw [← hcuts] at whole
      rw [encode_cons, List.append_assoc] at hstream
      obtain ⟨w', removed, hrejects, hhandled, hsaid⟩ : ∃ w' removed, _ ∧ Handled _ true removed w' ∧ _ :=
        converse_frame hw hmallocs whole hstream (hsizes f List.mem_cons_self)
      obtain rfl := hrejects.mpr drops
      have hrunning : w'.shared.ctx.running ≠ 0 := by
        rw [hhandled.running]
        exact hw.running
      rw [hsaid, converse_disconnected hrunning hhandled.connected, List.flatMap_singleton,
        List.append_nil]

end Conversation

section Responses

variable {cfg : ServerConfig} {env : Environment}

/-- The bytes of a response. -/
def Reply.bytes (r : Reply) : List UInt8 := r.header.bytes ++ r.payload.getD []

/-- The bytes that a call sends. -/
def ServerCall.buffer : ServerCall → List UInt8
  | .send _ bytes => bytes
  | _ => []

/-- The callbacks return contexts that `allocate_response_context` has made, or none. -/
structure Environment.Builds (env : Environment) : Prop where
  handleCommand : ∀ header payload r, env.handleCommand header payload = some r → r.Built
  getErrorInfo : ∀ r, env.getErrorInfo = some r → r.Built

theorem ErrorPayload.bytes_length (err : ErrorPayload) : err.bytes.length = sizeofErrorPayload := by
  rw [bytes, List.length_append, littleEndian_length, List.length_take, List.length_append,
    List.length_replicate, sizeofErrorPayload]
  omega

theorem okReply_built : (okReply env).Built := ⟨rfl, rfl, iff_of_true rfl rfl, nofun⟩

theorem errorReply_built (err : ErrorPayload) : (errorReply env err).Built := by
  refine ⟨rfl, rfl, iff_of_false nofun (by decide : UInt32.ofNat sizeofErrorPayload ≠ 0), ?_⟩
  intro bytes hbytes
  cases hbytes
  rw [err.bytes_length]
  rfl

theorem response_built (henv : env.Builds) (header : ProtocolHeader) (payload : List UInt8) :
    (response cfg env header payload).Built := by
  unfold response
  split
  · split
    · exact okReply_built
    · exact errorReply_built _
  · cases hreply : callbackReply cfg env header payload with
    | none => exact errorReply_built _
    | some r =>
        unfold callbackReply at hreply
        split at hreply
        · split at hreply
          · exact henv.getErrorInfo r hreply
          · cases hreply
        · split at hreply
          · exact henv.handleCommand header payload r hreply
          · cases hreply

theorem Reply.Built.sends_bytes {r : Reply} (h : r.Built) (socket : Int) :
    (r.sends socket).flatMap ServerCall.buffer = r.bytes := by
  rw [Reply.sends, List.flatMap_cons, Reply.bytes]
  cases hpayload : r.payload with
  | none => rfl
  | some bytes =>
      have hlength : r.header.payloadLength ≠ 0 := by
        intro hzero
        rw [h.payload.mpr hzero] at hpayload
        cases hpayload
      dsimp only
      rw [if_pos hlength, List.flatMap_singleton, ← h.length bytes hpayload, List.take_length]
      rfl

theorem Arrives.mem {cuts : List Cut} {frames : List Frame} {envs : List Environment}
    {handled : List (Environment × Frame)} (h : Arrives cfg cuts frames envs handled) :
    ∀ e ∈ handled, e.1 ∈ envs := by
  induction h with
  | finished => exact nofun
  | waits _ ih =>
      intro e he
      exact List.mem_cons_of_mem _ (ih e he)
  | kept _ _ _ ih =>
      intro e he
      rcases List.mem_cons.mp he with rfl | he
      · exact List.mem_cons_self
      · exact List.mem_cons_of_mem _ (ih e he)
  | dropped _ _ =>
      intro e he
      rw [List.mem_singleton.mp he]
      exact List.mem_cons_self

/-- The server says to each frame what is to be said to it, in order: one response, after one call of
`handle_command` for a command, until a frame makes it drop the client. Every response is sent in
full, those of callbacks unchanged; where there is nothing to answer with, it is the error -1. -/
theorem converse_responses {w : World} {frames : List Frame} {rest : List UInt8}
    {envs : List Environment} {handled : List (Environment × Frame)} (hw : w.Serving)
    (hmallocs : w.mallocs = []) (hstream : w.transport.stream = encode frames ++ rest)
    (hsizes : ∀ f ∈ frames, f.header.payloadLength.toNat ≤ maxPayloadSize)
    (henvs : ∀ env ∈ envs, env.Builds)
    (harrives : Arrives cfg w.transport.cuts frames envs handled) :
    let socket := w.shared.ctx.client.socket
    (World.converse cfg envs w).1 =
        handled.flatMap (fun (env, f) => commands cfg f.header f.payload ++
          (response cfg env f.header f.payload).sends socket) ∧
      ∀ e ∈ handled, let r := response cfg e.1 e.2.header e.2.payload
        (r.sends socket).flatMap ServerCall.buffer = r.bytes ∧
          (¬ Grants cfg e.1 e.2.header e.2.payload →
            ∃ err : ErrorPayload, err.errorCode = -1 ∧ r = errorReply e.1 err) := by
  refine ⟨converse_exchanges hw hmallocs hstream hsizes harrives, ?_⟩
  intro e he
  refine ⟨(response_built (henvs e.1 (harrives.mem e he)) _ _).sends_bytes _, ?_⟩
  exact response_refused cfg e.1

/-- Commands are answered with two bytes, and registrations of other versions are rejected. -/
def strictConfig : ServerConfig := { commandConfig with versionMismatch := .reject }

def twoBytes : Reply := ⟨headerOf 2 0x40, some [1, 2]⟩

def respondingEnvironment : Environment := { plainEnvironment with handleCommand := fun _ _ => some twoBytes }

def stopAll : Frame := ⟨headerOf 4 0x11, [0xff, 0xff, 0xff, 0xff], rfl, rfl⟩

def registration (payload : List UInt8) (length : UInt32) (h : payload.length = length.toNat) : Frame :=
  ⟨headerOf length msgRegisterUdpPort, payload, rfl, h⟩

/-- A command, a registration, one that is too short, one of an old version, and another command. -/
def registeringFrames : List Frame :=
  [stopAll, registration [0x10, 0x27, protocolVersion] 3 rfl, registration [0x10] 1 rfl,
    registration [0x11, 0x27, 1] 3 rfl, heartbeat]

theorem respondingEnvironment_builds : respondingEnvironment.Builds := by
  refine ⟨?_, ?_⟩
  · intro header payload r hreply
    obtain rfl : twoBytes = r := Option.some.inj hreply
    refine ⟨rfl, rfl, iff_of_false nofun (by decide : (2 : UInt32) ≠ 0), ?_⟩
    intro bytes hbytes
    cases hbytes
    rfl
  · intro r hreply
    cases hreply

theorem registeringFrames_answered :
    (World.converse strictConfig (.replicate 5 respondingEnvironment)
        (worldOf (quiet (encode registeringFrames)) [])).1 =
      [.handleCommand stopAll.header stopAll.payload] ++ twoBytes.sends 7 ++
        (okReply plainEnvironment).sends 7 ++ (errorReply plainEnvironment ⟨-1, []⟩).sends 7 ++
        (errorReply plainEnvironment ⟨-1, versionMismatchMessage 1⟩).sends 7 := by
  have hwhole : HeaderWhole [] := by
    intro cut hcut
    cases hcut
  have henvs : ∀ env ∈ List.replicate 5 respondingEnvironment, env.Builds := by
    intro env henv
    rw [List.eq_of_mem_replicate henv]
    exact respondingEnvironment_builds
  have hstream : (worldOf (quiet (encode registeringFrames)) []).transport.stream =
      encode registeringFrames ++ [] := (List.append_nil _).symm
  have harrives : Arrives strictConfig [] registeringFrames (.replicate 5 respondingEnvironment)
      ((registeringFrames.take 4).map fun f => (respondingEnvironment, f)) :=
    .kept hwhole (by decide) (.kept hwhole (by decide) (.kept hwhole (by decide)
      (.dropped hwhole (by decide))))
  have hresponses := (converse_responses (worldOf_serving _ _) rfl hstream (by decide) henvs harrives).1
  exact hresponses

theorem arrives_cons {cuts : List Cut} {f : Frame} {frames : List Frame}
    (hwhole : HeaderWhole cuts) (envs : Nat → Environment)
    (hlater : ∃ n handled, Arrives cfg (payloadCuts f.payload.length cuts.tail) frames
      ((List.range n).map (envs ∘ Nat.succ)) handled) :
    ∃ n handled, Arrives cfg cuts (f :: frames) ((List.range n).map envs) handled := by
  by_cases hdrops : Rejects cfg f.header f.payload
  · exact ⟨1, _, .dropped hwhole hdrops⟩
  · obtain ⟨n, handled, harrives⟩ := hlater
    refine ⟨n + 1, (envs 0, f) :: handled, ?_⟩
    rw [List.range_succ_eq_map, List.map_cons, List.map_map]
    exact .kept hwhole hdrops harrives

theorem arrives_of_headersWhole {frames : List Frame} {cuts : List Cut}
    (h : HeadersWhole frames cuts) (envs : Nat → Environment) :
    ∃ n handled, Arrives cfg cuts frames ((List.range n).map envs) handled := by
  induction frames generalizing cuts envs with
  | nil => exact ⟨0, [], .finished⟩
  | cons f frames ih =>
      obtain ⟨hheader, hlater⟩ := h
      induction cuts generalizing envs with
      | nil =>
          have hwhole : HeaderWhole [] := by
            intro cut hcut
            cases hcut
          exact arrives_cons hwhole envs (ih hlater _)
      | cons cut cuts ihCuts =>
          cases cut with
          | wouldBlock =>
              obtain ⟨n, handled, harrives⟩ := ihCuts (envs ∘ Nat.succ) hheader hlater
              refine ⟨n + 1, handled, ?_⟩
              rw [List.range_succ_eq_map, List.map_cons, List.map_map]
              exact .waits harrives
          | upTo k =>
              have hwhole : HeaderWhole (.upTo k :: cuts) := by
                intro cut hcut
                cases hcut
                exact ⟨k, hheader k rfl, rfl⟩
              exact arrives_cons hwhole envs (ih hlater _)

end Responses

end YaskawaComms.Server
