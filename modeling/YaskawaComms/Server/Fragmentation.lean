import YaskawaComms.Server.Rounds

/-!
# Independence of the fragmentation

Which cuttings of the stream leave the dispatched messages alone. A receive call that gets only a
part of a header loses it, and bytes that are lost are missing in the end: the dispatched messages
together are never longer than what the client has sent.
-/

namespace YaskawaComms.Server

open Protocol Program

def Event.message? : Event → Option (ProtocolHeader × List UInt8)
  | .dispatched header payload => some (header, payload)
  | _ => none

/-- The messages dispatched so far. -/
def World.dispatched (w : World) : List (ProtocolHeader × List UInt8) :=
  w.outcomes.filterMap Event.message?

def messages (frames : List Frame) : List (ProtocolHeader × List UInt8) :=
  frames.map fun f => (f.header, f.payload)

/-- The bytes that messages take in a stream. -/
def messageBytes (ms : List (ProtocolHeader × List UInt8)) : Nat :=
  (ms.map fun m => sizeofProtocolHeader + m.2.length).sum

theorem messageBytes_append (ms ms' : List (ProtocolHeader × List UInt8)) :
    messageBytes (ms ++ ms') = messageBytes ms + messageBytes ms' := by
  rw [messageBytes, List.map_append, List.sum_append]
  rfl

theorem messageBytes_messages (frames : List Frame) :
    messageBytes (messages frames) = (encode frames).length := by
  rw [encode_length, messageBytes, messages, List.map_map]
  rfl

/-- The bytes that are still to be read and those of the messages so far. -/
def World.account (w : World) : Nat := w.transport.stream.length + messageBytes w.dispatched

theorem World.dispatched_record (w : World) (transport : Transport) (mallocs : List Bool)
    (heap : Heap) (header : ProtocolHeader) (payload : List UInt8) :
    World.dispatched ⟨{ w.shared with heap := heap }.record [.dispatched header payload], transport,
      mallocs⟩ = w.dispatched ++ [(header, payload)] := by
  simp only [dispatched, outcomes, Shared.record, List.filter_append, List.filterMap_append]
  rfl

theorem World.dispatched_rejected (w : World) (transport : Transport) (mallocs : List Bool)
    (header : ProtocolHeader) :
    World.dispatched ⟨w.shared.record [.rejected header], transport, mallocs⟩ = w.dispatched := by
  simp only [dispatched, outcomes, Shared.record, List.filter_append, List.filterMap_append]
  exact List.append_nil _

/-- A server that is not stuck, with memory for all allocations. -/
structure Steady (w : World) : Prop where
  running : w.shared.ctx.running ≠ 0
  serving : w.shared.ctx.client.connected = true → w.Serving
  mallocs : w.mallocs = []

variable {cfg : ServerConfig} {env : Environment} {w w' v : World}

theorem World.Serving.steady (hw : w.Serving) (hmallocs : w.mallocs = []) : Steady w :=
  ⟨hw.running, fun _ => hw, hmallocs⟩

theorem Handled.steady {removed : Bool} (hv : v.Serving) (h : Handled v true removed w') :
    Steady w' := by
  refine ⟨?_, h.serving hv, h.mallocs rfl⟩
  rw [h.running]
  exact hv.running

theorem Handled.dispatched {reliable removed : Bool} (h : Handled v reliable removed w') :
    w'.dispatched = v.dispatched := by
  rw [World.dispatched, h.outcomes, World.dispatched]

theorem Dropped.dispatched (h : Dropped v w') : w'.dispatched = v.dispatched := by
  rw [World.dispatched, h.outcomes, World.dispatched]

theorem Dropped.steady (h : Dropped v w') (hrunning : v.shared.ctx.running ≠ 0)
    (hmallocs : w'.mallocs = []) : Steady w' := by
  refine ⟨?_, ?_, hmallocs⟩
  · rw [h.running]
    exact hrunning
  · intro hconnected
    rw [h.connected] at hconnected
    cases hconnected

/-- What a round leaves behind. -/
structure Spends (limit : Nat) (result : Option Round × World) : Prop where
  account : result.2.account ≤ limit
  steady : result.1 = some .again → Steady result.2

theorem Spends.mono {limit limit' : Nat} {result : Option Round × World} (h : Spends limit result)
    (hle : limit ≤ limit') : Spends limit' result :=
  ⟨Nat.le_trans h.account hle, h.steady⟩

theorem Dropped.spends {limit : Nat} (h : Dropped v w') (hv : v.Serving) (hmallocs : w'.mallocs = [])
    (haccount : w'.transport.stream.length + messageBytes v.dispatched ≤ limit) :
    Spends limit (some .again, w') := by
  refine ⟨?_, fun _ => h.steady hv.running hmallocs⟩
  rwa [World.account, h.dispatched]

theorem spends_handling {α : Type} {p : ServerProgram α} {post : α → Bool → Prop} (hv : v.Serving)
    (hmallocs : v.mallocs = [])
    (hp : p.Obeys (handling true false v.shared.ctx.client.socket) post false) :
    Spends v.account ((p >>= fun _ => .ret .again).exec (World.handle cfg env) v) := by
  have hstart : Handled v true false v := Handled.start hv.connected fun _ => hmallocs
  obtain ⟨a, w', hexec⟩ : ∃ a w', p.exec (World.handle cfg env) v = (some a, w') :=
    hstart.completes hp
  obtain ⟨removed, -, hhandled⟩ := hstart.exec hp hexec
  rw [exec_bind_some hexec]
  refine ⟨?_, fun _ => hhandled.steady hv⟩
  rw [exec_ret, World.account, hhandled.transport, hhandled.dispatched, World.account]

/-- A message has no more bytes than its header and what is taken from the stream. -/
theorem spends_handleMessage (hv : v.Serving) (hmallocs : v.mallocs = []) (header : ProtocolHeader) :
    Spends (v.account + sizeofProtocolHeader)
      ((handleMessage cfg header >>= fun _ => .ret .again).exec (World.handle cfg env) v) := by
  have hmalloc : v.mallocs.headD true = true := by rw [hmallocs]; rfl
  have htail : v.mallocs.tail = [] := by rw [hmallocs]; rfl
  by_cases hsize : header.payloadLength.toNat ≤ maxPayloadSize
  · rw [handleMessage, if_pos hsize]
    simp only [bind_assoc]
    rw [exec_malloc_some _ hmalloc]
    dsimp only
    let v' : World :=
      { v with
        shared := { v.shared with heap := v.shared.heap.alloc.2 }
        mallocs := v.mallocs.tail }
    obtain ⟨received, transport, hexec, hle, htakes⟩ :=
      receivePayload_takes cfg env header.payloadLength.toNat header.payloadLength.toNat [] v'
    rw [bind_assoc]
    cases received with
    | none =>
        rw [exec_bind_none hexec]
        have haccount : World.account { v' with transport := transport } ≤ v.account :=
          Nat.add_le_add_right hle _
        refine ⟨Nat.le_trans haccount (Nat.le_add_right _ _), ?_⟩
        intro hround
        cases hround
    | some payload =>
        rw [exec_bind_some hexec]
        cases payload with
        | none =>
            simp only [bind_assoc, exec_free, exec_removeClient]
            have hdropped := dropped_removeClient cfg
              { v' with shared := { v'.shared with heap := v'.shared.heap.free v.shared.heap.alloc.1 } }
              transport v'.mallocs
            have haccount : transport.stream.length + messageBytes v.dispatched ≤ v.account :=
              Nat.add_le_add_right hle _
            refine Dropped.spends (v := v) ⟨hdropped.running, hdropped.outcomes, hdropped.connected⟩ hv
              htail ?_
            exact Nat.le_trans haccount (Nat.le_add_right _ _)
        | some payload =>
            simp only [bind_assoc, exec_dispatched]
            let u : World :=
              { v' with shared := v'.shared.record [.dispatched header payload], transport := transport }
            have hu : u.Serving := ⟨hv.running, hv.connected, hv.socket, hv.listener⟩
            have hspends : Spends u.account
                ((handlePayload cfg header v.shared.heap.alloc.1 payload >>= fun _ => .ret .again).exec
                  (World.handle cfg env) u) :=
              spends_handling hu htail (handlePayload_obeys cfg header _ payload)
            apply hspends.mono
            have htaken := htakes payload rfl
            have hmessage : messageBytes [(header, payload)] = sizeofProtocolHeader + payload.length :=
              List.sum_singleton
            have haccount : u.account = transport.stream.length +
                (messageBytes v.dispatched + (sizeofProtocolHeader + payload.length)) := by
              rw [World.account, World.dispatched_record, messageBytes_append, hmessage]
            rw [haccount, World.account]
            simp only [v', List.length_nil] at htaken
            omega
  · rw [exec_handleMessage_oversized hsize]
    let u : World := { v with shared := v.shared.record [.rejected header] }
    have hu : u.Serving := ⟨hv.running, hv.connected, hv.socket, hv.listener⟩
    have hspends : Spends u.account
        ((respond (msgErrResponseInt (-1)) >>= fun _ => .ret .again).exec (World.handle cfg env) u) :=
      spends_handling hu hmallocs (respondError_obeys (-1))
    have haccount : u.account = v.account := by
      rw [World.account, World.account, World.dispatched_rejected]
    apply hspends.mono
    rw [haccount]
    exact Nat.le_add_right _ _

theorem spends_service (hw : Steady w) : Spends w.account (w.service cfg env) := by
  cases hconnected : w.shared.ctx.client.connected with
  | false =>
      rw [service_idle hw.running hconnected]
      exact ⟨Nat.le_refl _, fun _ => hw⟩
  | true =>
      have hserving := hw.serving hconnected
      have hle := readHeader_le env.memory w.transport
      rw [service_header hserving]
      dsimp only
      split
      · apply (dropped_removeClient cfg w _ _).spends hserving hw.mallocs
        exact Nat.add_le_add_right hle _
      · split
        · next hret =>
            let v : World :=
              { w with transport := (Protocol.readHeader env.memory w.transport).transport }
            have hv : v.Serving := ⟨hserving.running, hserving.connected, hserving.socket,
              hserving.listener⟩
            apply (spends_handleMessage (v := v) hv hw.mallocs _).mono
            have hheader : v.transport.stream.length + sizeofProtocolHeader ≤
                w.transport.stream.length := readHeader_consumes env.memory w.transport hret
            have hdispatched : v.dispatched = w.dispatched := rfl
            rw [World.account, World.account, hdispatched]
            omega
        · refine ⟨Nat.add_le_add_right hle _, ?_⟩
          intro _
          refine ⟨hw.running, ?_, hw.mallocs⟩
          intro _
          exact ⟨hserving.running, hserving.connected, hserving.socket, hserving.listener⟩

theorem serve_account (hw : Steady w) (n : Nat) : (w.serve cfg env n).account ≤ w.account := by
  induction n generalizing w with
  | zero => exact Nat.le_refl _
  | succ n ih =>
      have hspends : Spends w.account (w.service cfg env) := spends_service hw
      unfold World.serve
      split
      · next w' hservice =>
          rw [hservice] at hspends
          exact Nat.le_trans (ih (hspends.steady rfl)) hspends.account
      · next round w' _ hservice =>
          rw [hservice] at hspends
          exact hspends.account

/-- Every receive call for the header of a frame that gets something gets all of it. -/
def HeadersWhole : List Frame → List Cut → Prop
  | [], _ => True
  | f :: frames, cuts =>
      (∀ n, (Transport.awake cuts).head? = some (.upTo n) → 17 ≤ n) ∧
        HeadersWhole frames (payloadCuts f.payload.length (Transport.awake cuts).tail)

/-- Only the last frame may be a registration whose rejection ends the connection. -/
def OnlyLastRejected (cfg : ServerConfig) : List Frame → Prop
  | [] => True
  | f :: frames => (Rejects cfg f.header f.payload → frames = []) ∧ OnlyLastRejected cfg frames

/-- In the end exactly these messages have been dispatched. -/
def Delivers (cfg : ServerConfig) (env : Environment) (w : World)
    (ms : List (ProtocolHeader × List UInt8)) : Prop :=
  ∃ N, ∀ n, N ≤ n → (w.serve cfg env n).dispatched = ms

section Delivers

variable {ms : List (ProtocolHeader × List UInt8)}

theorem delivers_service (h : w.service cfg env = (some .again, w')) :
    Delivers cfg env w ms ↔ Delivers cfg env w' ms := by
  constructor
  · intro hw
    obtain ⟨N, hN⟩ := hw
    refine ⟨N, ?_⟩
    intro n hn
    rw [← World.serve_succ n h]
    exact hN (n + 1) (by omega)
  · intro hw'
    obtain ⟨N, hN⟩ := hw'
    refine ⟨N + 1, ?_⟩
    intro n hn
    cases n with
    | zero => omega
    | succ n =>
        rw [World.serve_succ n h]
        exact hN n (by omega)

theorem delivers_quiet (h : ∀ n, (w.serve cfg env n).dispatched = w.dispatched) :
    Delivers cfg env w ms ↔ w.dispatched = ms := by
  constructor
  · intro hw
    obtain ⟨N, hN⟩ := hw
    rw [← hN N (Nat.le_refl _), h]
  · intro hms
    refine ⟨0, ?_⟩
    intro n _
    rw [h, hms]

theorem not_delivers (hw : Steady w) (h : w.account < messageBytes ms) :
    ¬ Delivers cfg env w ms := by
  intro hdelivers
  obtain ⟨N, hN⟩ := hdelivers
  have haccount : (w.serve cfg env N).account ≤ w.account := serve_account hw N
  rw [World.account, hN N (Nat.le_refl _)] at haccount
  omega

end Delivers

theorem serve_disconnected (hrunning : w.shared.ctx.running ≠ 0)
    (hconnected : w.shared.ctx.client.connected = false) (n : Nat) : w.serve cfg env n = w := by
  induction n with
  | zero => rfl
  | succ n ih => rw [World.serve_succ n (service_idle hrunning hconnected), ih]

theorem serve_nothing (hw : w.Serving) (hstream : w.transport.stream = []) (n : Nat) :
    (w.serve cfg env n).dispatched = w.dispatched := by
  induction n generalizing w with
  | zero => rfl
  | succ n ih =>
      obtain ⟨hret, hempty⟩ := readHeader_nothing env.memory hstream
      let transport := (Protocol.readHeader env.memory w.transport).transport
      rcases hret with hone | hminus
      · let v : World := { w with transport := transport }
        have hservice : w.service cfg env = (some .again, v) := by
          rw [service_header hw]
          dsimp only
          rw [if_neg (by rw [hone]; decide), if_neg (by rw [hone]; decide)]
        have hv : v.Serving := ⟨hw.running, hw.connected, hw.socket, hw.listener⟩
        have hrest : (v.serve cfg env n).dispatched = v.dispatched := ih hv hempty
        rw [World.serve_succ n hservice, hrest]
        rfl
      · have hservice : w.service cfg env =
            (some .again, ⟨w.shared.removeClient cfg, transport, w.mallocs⟩) := by
          rw [service_header hw]
          dsimp only
          rw [if_pos (by rw [hminus]; decide)]
        have hdropped := dropped_removeClient cfg w transport w.mallocs
        have hrunning := hw.running
        rw [← hdropped.running] at hrunning
        rw [World.serve_succ n hservice, serve_disconnected hrunning hdropped.connected]
        exact hdropped.dispatched

theorem awake_head (cuts : List Cut) : (Transport.awake cuts).head? ≠ some .wouldBlock := by
  induction cuts with
  | nil => exact nofun
  | cons cut cuts ih =>
      cases cut with
      | wouldBlock => exact ih
      | upTo n => exact nofun

/-- The world when something has arrived. -/
def World.awake (w : World) (errno : Errno) : World :=
  { w with transport := { w.transport with cuts := Transport.awake w.transport.cuts, errno := errno } }

theorem delivers_awake (hw : w.Serving) : ∃ errno, ∀ ms,
    Delivers cfg env w ms ↔ Delivers cfg env (w.awake errno) ms := by
  obtain ⟨shared, ⟨stream, cuts, ending, errno⟩, mallocs⟩ := w
  induction cuts generalizing errno with
  | nil => exact ⟨errno, fun _ => Iff.rfl⟩
  | cons cut cuts ih =>
      cases cut with
      | upTo n => exact ⟨errno, fun _ => Iff.rfl⟩
      | wouldBlock =>
          have hnext : World.Serving ⟨shared, ⟨stream, cuts, ending, .eAgain⟩, mallocs⟩ :=
            ⟨hw.running, hw.connected, hw.socket, hw.listener⟩
          obtain ⟨last, hlast⟩ := ih .eAgain hnext
          refine ⟨last, ?_⟩
          intro ms
          have hservice : World.service cfg env ⟨shared, ⟨stream, .wouldBlock :: cuts, ending, errno⟩,
              mallocs⟩ = (some .again, ⟨shared, ⟨stream, cuts, ending, .eAgain⟩, mallocs⟩) := by
            have hread := readHeader_wouldBlock env.memory
              (t := ⟨stream, .wouldBlock :: cuts, ending, errno⟩) rfl
            rw [service_header hw]
            dsimp only
            rw [if_neg (by rw [hread.1]; decide), if_neg (by rw [hread.1]; decide), hread.2]
          rw [delivers_service hservice, hlast ms]
          rfl

section Frame

variable {f : Frame} {rest : List Frame}

theorem not_delivers_partial (hw : w.Serving) (hmallocs : w.mallocs = [])
    (hstream : w.transport.stream = encode (f :: rest)) {n : Nat}
    (hcut : w.transport.cuts.head? = some (.upTo n)) (hn : n < 17) :
    ¬ Delivers cfg env w (w.dispatched ++ messages (f :: rest)) := by
  obtain ⟨cuts, hcuts⟩ := List.head?_eq_some_iff.mp hcut
  have hlength : sizeofProtocolHeader ≤ w.transport.stream.length := by
    rw [hstream, encode_cons, List.length_append, f.bytes_length, Frame.size]
    omega
  obtain ⟨hret, htransport⟩ := readHeader_partial env.memory hcuts hn hlength
  let v : World :=
    { w with transport :=
      { w.transport with stream := w.transport.stream.drop (n + 1), cuts := cuts } }
  have hservice : w.service cfg env = (some .again, v) := by
    have hsize : sizeofProtocolHeader = 18 := rfl
    rw [service_header hw]
    dsimp only
    rw [if_neg (by rw [hret]; omega), if_neg (by rw [hret]; omega), htransport]
  have hv : v.Serving := ⟨hw.running, hw.connected, hw.socket, hw.listener⟩
  have hshort : v.account < messageBytes (w.dispatched ++ messages (f :: rest)) := by
    have hdispatched : v.dispatched = w.dispatched := rfl
    have hdrop : v.transport.stream.length = w.transport.stream.length - (n + 1) :=
      List.length_drop
    have hpositive : 0 < sizeofProtocolHeader := by decide
    rw [World.account, messageBytes_append, messageBytes_messages, ← hstream, hdispatched, hdrop]
    omega
  rw [delivers_service hservice]
  exact not_delivers (hv.steady hmallocs) hshort

theorem wholeWindow_awake (errno : Errno) (hstream : w.transport.stream = encode (f :: rest))
    (hheader : ∀ n, (Transport.awake w.transport.cuts).head? = some (.upTo n) → 17 ≤ n) :
    (w.awake errno).transport.WholeWindow 0 := by
  constructor
  · have hlength : (w.awake errno).transport.stream.length = f.size + (encode rest).length := by
      rw [World.awake, hstream, encode_cons, List.length_append, f.bytes_length]
    rw [hlength, Frame.size]
    omega
  · intro cut hcut
    have hhead : (Transport.awake w.transport.cuts).head? = some cut := by
      rw [List.head?_eq_getElem?]
      exact hcut
    cases cut with
    | wouldBlock => exact absurd hhead (awake_head _)
    | upTo n => exact ⟨n, hheader n hhead, rfl⟩

/-- What becomes of a connection once a whole frame has been handled. -/
theorem delivers_frame {removed : Bool} (hv : v.Serving) (hrest : v.transport.stream = encode rest)
    (hrejects : removed = true ↔ Rejects cfg f.header f.payload) (h : Handled v true removed w')
    (ih : w'.Serving → w'.transport.stream = encode rest →
      (Delivers cfg env w' (w'.dispatched ++ messages rest) ↔
        HeadersWhole rest w'.transport.cuts ∧ OnlyLastRejected cfg rest)) :
    Delivers cfg env w' (w'.dispatched ++ messages rest) ↔
      HeadersWhole rest w'.transport.cuts ∧
        (Rejects cfg f.header f.payload → rest = []) ∧ OnlyLastRejected cfg rest := by
  cases removed with
  | true =>
      have hreject := hrejects.mp rfl
      have hgone : ∀ n, (w'.serve cfg env n).dispatched = w'.dispatched := by
        intro n
        rw [serve_disconnected (h.steady hv).running h.connected]
      rw [delivers_quiet hgone, List.self_eq_append_right, messages, List.map_eq_nil_iff]
      constructor
      · intro hnil
        subst hnil
        exact ⟨trivial, fun _ => rfl, trivial⟩
      · intro hconditions
        exact hconditions.2.1 hreject
  | false =>
      have hkeeps : ¬ Rejects cfg f.header f.payload := by
        intro hreject
        cases hrejects.mpr hreject
      have hstream : w'.transport.stream = encode rest := by rw [h.transport, hrest]
      rw [ih (h.serving hv h.connected) hstream]
      constructor
      · intro hconditions
        exact ⟨hconditions.1, fun hreject => absurd hreject hkeeps, hconditions.2⟩
      · intro hconditions
        exact ⟨hconditions.1, hconditions.2.2⟩

end Frame

/-- The dispatched messages are the frames that the client has sent exactly if every header arrives
whole and no frame before the last makes the server drop the client. -/
theorem delivers_iff {frames : List Frame} (hw : w.Serving) (hmallocs : w.mallocs = [])
    (hstream : w.transport.stream = encode frames)
    (hsizes : ∀ f ∈ frames, f.header.payloadLength.toNat ≤ maxPayloadSize) :
    Delivers cfg env w (w.dispatched ++ messages frames) ↔
      HeadersWhole frames w.transport.cuts ∧ OnlyLastRejected cfg frames := by
  induction frames generalizing w with
  | nil =>
      apply iff_of_true
      · rw [delivers_quiet (serve_nothing hw hstream)]
        exact (List.append_nil _).symm
      · exact ⟨trivial, trivial⟩
  | cons f rest ih =>
      obtain ⟨errno, hawake⟩ : ∃ errno, ∀ ms,
          Delivers cfg env w ms ↔ Delivers cfg env (w.awake errno) ms := delivers_awake hw
      have hv : (w.awake errno).Serving := ⟨hw.running, hw.connected, hw.socket, hw.listener⟩
      rw [hawake, HeadersWhole, OnlyLastRejected]
      by_cases hpartial : ∃ n, (Transport.awake w.transport.cuts).head? = some (.upTo n) ∧ n < 17
      · obtain ⟨n, hcut, hn⟩ := hpartial
        apply iff_of_false
        · exact not_delivers_partial (w := w.awake errno) hv hmallocs hstream hcut hn
        · intro h
          have hle := h.1.1 n hcut
          omega
      · have hheader : ∀ n, (Transport.awake w.transport.cuts).head? = some (.upTo n) → 17 ≤ n := by
          intro n hcut
          by_contra hn
          exact hpartial ⟨n, hcut, by omega⟩
        have hwhole := wholeWindow_awake errno hstream hheader
        obtain ⟨w', removed, hservice, hrejects, hhandled⟩ : ∃ w' removed,
            (w.awake errno).service cfg env = (some .again, w') ∧
              (removed = true ↔ Rejects cfg f.header f.payload) ∧
              Handled ((w.awake errno).readFrame f (encode rest)) true removed w' :=
          service_frame_completes hv hwhole hstream (hsizes f List.mem_cons_self) hmallocs
        have hread : ((w.awake errno).readFrame f (encode rest)).Serving :=
          ⟨hw.running, hw.connected, hw.socket, hw.listener⟩
        have hdispatched : w'.dispatched = w.dispatched ++ [(f.header, f.payload)] := by
          rw [hhandled.dispatched, World.readFrame, World.read, World.dispatched_record]
          rfl
        have hmessages : w.dispatched ++ messages (f :: rest) = w'.dispatched ++ messages rest := by
          rw [hdispatched, List.append_assoc]
          rfl
        have hcuts : w'.transport.cuts =
            payloadCuts f.payload.length (Transport.awake w.transport.cuts).tail := by
          rw [hhandled.transport]
          rfl
        have hrest := delivers_frame hread rfl hrejects hhandled fun hserving hstream' =>
          ih hserving (hhandled.mallocs rfl) hstream'
            fun g hg => hsizes g (List.mem_cons_of_mem _ hg)
        rw [delivers_service hservice, hmessages, hrest, hcuts]
        exact ⟨fun h => ⟨⟨hheader, h.1⟩, h.2⟩, fun h => ⟨h.1.2, h.2⟩⟩

/-- Two frames on a connection that is cut up. -/
def twoFrames (cuts : List Cut) : World :=
  worldOf { quiet (encode [heartbeat, stopMotion]) with cuts := cuts } []

theorem twoFrames_delivered :
    Delivers plainConfig plainEnvironment (twoFrames [.wouldBlock, .upTo 40])
      (messages [heartbeat, stopMotion]) := by
  have hwhole : HeadersWhole [heartbeat, stopMotion] [.wouldBlock, .upTo 40] := by
    simp [HeadersWhole, Transport.awake, heartbeat, payloadCuts]
  have hkept : OnlyLastRejected plainConfig [heartbeat, stopMotion] := by
    simp [OnlyLastRejected, Rejects, versionError, plainConfig]
  exact (delivers_iff (w := twoFrames [.wouldBlock, .upTo 40]) (worldOf_serving _ _) rfl rfl
    (by decide)).mpr ⟨hwhole, hkept⟩

/-- Five bytes of a header arrive first, and not both frames are dispatched in the end. -/
theorem twoFrames_garbled :
    (twoFrames [.upTo 4]).Serving ∧
      (twoFrames [.upTo 4]).transport.stream = encode [heartbeat, stopMotion] ∧
      ¬ Delivers plainConfig plainEnvironment (twoFrames [.upTo 4])
        (messages [heartbeat, stopMotion]) :=
  ⟨worldOf_serving _ _, rfl, not_delivers_partial (w := twoFrames [.upTo 4]) (worldOf_serving _ _) rfl
    rfl rfl (by decide)⟩

end YaskawaComms.Server
