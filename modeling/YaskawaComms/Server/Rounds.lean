import YaskawaComms.Server.Handling
import YaskawaComms.Server.World
import YaskawaComms.Protocol.Framing

/-!
# One round of the service loop

What a round makes of the next frame: which bytes it takes, what it dispatches or rejects, and
whether the client stays.
-/

namespace YaskawaComms.Server

open Protocol Program

variable {cfg : ServerConfig} {env : Environment} {w w' : World}

/-- What handling a message leaves alone. -/
structure Handled (w : World) (reliable removed : Bool) (w' : World) : Prop where
  transport : w'.transport = w.transport
  outcomes : w'.outcomes = w.outcomes
  running : w'.shared.ctx.running = w.shared.ctx.running
  listener : w'.shared.ctx.tcpSocket = w.shared.ctx.tcpSocket
  connected : w'.shared.ctx.client.connected = !removed
  socket : removed = false → w'.shared.ctx.client.socket = w.shared.ctx.client.socket
  mallocs : reliable = true → w'.mallocs = []

theorem filter_outcomes {events more : List Event} (h : ∀ e ∈ more, e.isOutcome = false) :
    (events ++ more).filter Event.isOutcome = events.filter Event.isOutcome := by
  rw [List.filter_append]
  have hnone : more.filter Event.isOutcome = [] := by
    apply List.filter_eq_nil_iff.mpr
    intro e he
    simp [h e he]
  rw [hnone, List.append_nil]

theorem Handled.removeClient {reliable removed : Bool} {v : World} (h : Handled w reliable removed v) :
    Handled w reliable true { v with shared := v.shared.removeClient cfg } := by
  unfold Shared.removeClient
  split
  · refine { h with outcomes := ?_, connected := rfl, socket := nofun }
    rw [← h.outcomes]
    apply filter_outcomes
    intro e he
    rcases List.mem_append.mp he with hannounced | hclosed
    · split at hannounced
      · rw [List.mem_singleton.mp hannounced]
        rfl
      · cases hannounced
    · rw [List.mem_singleton.mp hclosed]
      rfl
  · next hconnected =>
      refine { h with connected := ?_, socket := nofun }
      simpa using hconnected

/-- A call of handling a message is answered as its monitor allows. -/
theorem Handled.call {reliable removed : Bool} {v v' : World} (h : Handled w reliable removed v)
    {c : ServerCall} (hgood : (handling reliable false w.shared.ctx.client.socket).good removed c)
    {r : c.Result} (hhandle : v.handle cfg env c = (some r, v')) :
    (handling reliable false w.shared.ctx.client.socket).allowed removed c r ∧
      Handled w reliable ((handling reliable false w.shared.ctx.client.socket).next removed c r) v' := by
  cases c with
  | load field =>
      cases hhandle
      exact ⟨trivial, h⟩
  | loadSocket =>
      cases hhandle
      exact ⟨h.socket, h⟩
  | storeLastCommand value =>
      cases hhandle
      exact ⟨trivial, { h with }⟩
  | removeClient =>
      cases hhandle
      exact ⟨trivial, h.removeClient⟩
  | registerUdpPort port =>
      cases hhandle
      exact ⟨trivial, { h with }⟩
  | time =>
      cases hhandle
      exact ⟨trivial, h⟩
  | getTimestampMs =>
      cases hhandle
      exact ⟨trivial, h⟩
  | send fd bytes =>
      refine ⟨trivial, ?_⟩
      simp only [World.handle, World.answer, Shared.perform] at hhandle
      split at hhandle
      · cases hhandle
        exact h
      · cases hhandle
        refine { h with outcomes := ?_ }
        rw [← h.outcomes]
        apply filter_outcomes
        intro e he
        rw [List.mem_singleton.mp he]
        rfl
  | malloc len =>
      have hrest : reliable = true → v.mallocs.tail = [] := fun hr => by rw [h.mallocs hr]; rfl
      by_cases hnext : v.mallocs.headD true = true
      · simp only [World.handle, World.answer, Shared.perform, hnext, if_true] at hhandle
        cases hhandle
        exact ⟨fun _ => Option.some_ne_none _, { h with mallocs := hrest }⟩
      · simp only [World.handle, World.answer, Shared.perform, hnext] at hhandle
        cases hhandle
        refine ⟨fun hr => ?_, { h with mallocs := hrest }⟩
        rw [h.mallocs hr] at hnext
        exact absurd rfl hnext
  | free block =>
      cases hhandle
      exact ⟨trivial, { h with }⟩
  | handleCommand header payload =>
      obtain ⟨heap, hheap⟩ := v.shared.reply_heap (env.handleCommand header payload)
      simp only [World.handle, World.answer, Shared.perform, hheap] at hhandle
      cases hhandle
      exact ⟨trivial, { h with }⟩
  | getErrorInfo =>
      obtain ⟨heap, hheap⟩ := v.shared.reply_heap env.getErrorInfo
      simp only [World.handle, World.answer, Shared.perform, hheap] at hhandle
      cases hhandle
      exact ⟨trivial, { h with }⟩
  | recv fd len => exact absurd hgood.1 Bool.false_ne_true
  | dispatched header payload => exact absurd hgood Bool.false_ne_true
  | rejected header => exact absurd hgood Bool.false_ne_true
  | nullContext => exact r.elim
  | _ => exact hgood.elim

theorem Handled.answered {removed : Bool} {v : World} {c : ServerCall}
    (hgood : (handling true false w.shared.ctx.client.socket).good removed c) :
    ∃ r v', v.handle cfg env c = (some r, v') := by
  cases c with
  | recv fd len => exact absurd hgood.1 Bool.false_ne_true
  | nullContext => exact absurd hgood Bool.false_ne_true.symm
  | readHeader fd => exact hgood.elim
  | _ => exact ⟨_, _, rfl⟩

theorem Handled.start {reliable : Bool} (hconnected : w.shared.ctx.client.connected = true)
    (hmallocs : reliable = true → w.mallocs = []) : Handled w reliable false w :=
  ⟨rfl, rfl, rfl, rfl, hconnected, fun _ => rfl, hmallocs⟩

theorem Handled.serving {reliable removed : Bool} {v : World} (hw : w.Serving)
    (h : Handled w reliable removed v) (hconnected : v.shared.ctx.client.connected = true) :
    v.Serving := by
  have hstays : removed = false := by
    have hc := h.connected
    rw [hconnected] at hc
    simpa using hc.symm
  have hsocket := h.socket hstays
  refine ⟨?_, hconnected, ?_, ?_⟩
  · rw [h.running]
    exact hw.running
  · rw [hsocket]
    exact hw.socket
  · rw [h.listener, hsocket]
    exact hw.listener

section Exec

variable {α : Type} {p : ServerProgram α} {reliable : Bool} {post : α → Bool → Prop}

theorem Handled.exec (h : Handled w reliable false w)
    (hp : p.Obeys (handling reliable false w.shared.ctx.client.socket) post false) {a : α}
    (hexec : p.exec (World.handle cfg env) w = (some a, w')) :
    ∃ removed, post a removed ∧ Handled w reliable removed w' :=
  hp.exec (fun _ _ _ _ _ hgood hinv hhandle => hinv.call hgood hhandle) h hexec

theorem Handled.completes (h : Handled w true false w)
    (hp : p.Obeys (handling true false w.shared.ctx.client.socket) post false) :
    ∃ a w', p.exec (World.handle cfg env) w = (some a, w') := by
  have hcall : ∀ removed c v,
      (handling true false w.shared.ctx.client.socket).good removed c → Handled w true removed v →
        ∃ r v', v.handle cfg env c = (some r, v') ∧
          (handling true false w.shared.ctx.client.socket).allowed removed c r ∧
          Handled w true ((handling true false w.shared.ctx.client.socket).next removed c r) v' := by
    intro removed c v hgood hinv
    obtain ⟨r, v', hhandle⟩ : ∃ r v', v.handle cfg env c = (some r, v') := Handled.answered hgood
    exact ⟨r, v', hhandle, hinv.call hgood hhandle⟩
  exact hp.completes hcall h

end Exec

/-- A payload that is there is read completely and exactly. -/
theorem exec_receivePayload {α : Type} {length rounds : Nat} {payload : List UInt8}
    (hrounds : length ≤ payload.length + rounds)
    (hstream : length ≤ payload.length + w.transport.stream.length)
    (f : Option (List UInt8) → ServerProgram α) :
    (receivePayload length rounds payload >>= f).exec (World.handle cfg env) w =
      (f (some (payload ++ w.transport.stream.take (length - payload.length)))).exec
        (World.handle cfg env)
        { w with transport :=
          { w.transport with
            stream := w.transport.stream.drop (length - payload.length)
            cuts := payloadCuts (length - payload.length) w.transport.cuts } } := by
  induction rounds generalizing payload w with
  | zero =>
      have hdone : length - payload.length = 0 := by omega
      rw [hdone, payloadCuts_zero, receivePayload, List.take_zero, List.append_nil, List.drop_zero]
      rfl
  | succ rounds ih =>
      rw [receivePayload]
      by_cases hmore : payload.length < length
      · have hne : w.transport.stream ≠ [] := by
          intro hnil
          rw [hnil, List.length_nil] at hstream
          omega
        obtain ⟨n, cuts, hpos, hle, hrecv, hcuts⟩ :=
          w.transport.recvWaitAll_some hne (by omega : 0 < length - payload.length)
        have hbytes : (w.transport.stream.take n).take (length - payload.length) =
            w.transport.stream.take n := by
          rw [List.take_take, Nat.min_eq_right hle]
        have hcount : (w.transport.stream.take n).length = n := by
          rw [List.length_take]
          omega
        have hleft : length - (payload ++ w.transport.stream.take n).length =
            length - payload.length - n := by
          rw [List.length_append, hcount]
          omega
        have htotal : n + (length - payload.length - n) = length - payload.length := by omega
        rw [if_pos hmore]
        simp only [bind_assoc, exec_loadSocket]
        rw [exec_recv _ hrecv, Option.map_some, hbytes]
        cases htake : w.transport.stream.take n with
        | nil =>
            rw [htake, List.length_nil] at hcount
            omega
        | cons b bytes =>
            dsimp only
            rw [← htake, ih (by rw [List.length_append, hcount]; omega)
              (by rw [List.length_append, hcount, List.length_drop]; omega), hleft, hcuts,
              List.append_assoc, ← List.take_add, List.drop_drop, htotal]
      · have hdone : length - payload.length = 0 := by omega
        rw [if_neg hmore, hdone, payloadCuts_zero, List.take_zero, List.append_nil, List.drop_zero]
        rfl

/-- A payload that is not there in full is never complete: the call waits for ever or fails. -/
theorem receivePayload_short {length rounds : Nat} {payload : List UInt8}
    (hrounds : length ≤ payload.length + rounds)
    (hshort : payload.length + w.transport.stream.length < length) :
    (∃ w', (receivePayload length rounds payload).exec (World.handle cfg env) w = (none, w')) ∨
      ∃ transport, (receivePayload length rounds payload).exec (World.handle cfg env) w =
        (some none, { w with transport := transport }) := by
  induction rounds generalizing payload w with
  | zero => omega
  | succ rounds ih =>
      rw [receivePayload, if_pos (by omega)]
      simp only [exec_loadSocket]
      cases hrecv : w.transport.recvWaitAll (length - payload.length) with
      | none =>
          refine Or.inl ⟨w, exec_call_none ?_⟩
          simp [World.handle, World.answer, hrecv]
      | some result =>
          obtain ⟨received, transport⟩ := result
          rw [exec_recv _ hrecv]
          cases received with
          | none => exact Or.inr ⟨transport, rfl⟩
          | some bytes =>
              obtain ⟨htake, hdrop, hle⟩ := Transport.recvWaitAll_bytes hrecv
              rw [Option.map_some, List.take_of_length_le hle]
              cases hbytes : bytes with
              | nil => exact Or.inr ⟨transport, rfl⟩
              | cons b rest =>
                  have hcount := congrArg List.length htake
                  rw [List.length_take] at hcount
                  have hpos : 0 < bytes.length := by rw [hbytes, List.length_cons]; omega
                  dsimp only
                  rw [← hbytes]
                  exact ih (by rw [List.length_append]; omega)
                    (by rw [List.length_append, hdrop, List.length_drop]; omega)

/-- However the call ends, it has taken at least the bytes that it returns from the stream. -/
theorem receivePayload_takes (cfg : ServerConfig) (env : Environment) (length rounds : Nat)
    (payload : List UInt8) (w : World) :
    ∃ received transport,
      (receivePayload length rounds payload).exec (World.handle cfg env) w =
        (received, { w with transport := transport }) ∧
      transport.stream.length ≤ w.transport.stream.length ∧
      ∀ bytes, received = some (some bytes) →
        transport.stream.length + bytes.length ≤ w.transport.stream.length + payload.length := by
  induction rounds generalizing payload w with
  | zero =>
      refine ⟨_, w.transport, rfl, Nat.le_refl _, ?_⟩
      intro bytes hbytes
      cases hbytes
      exact Nat.le_refl _
  | succ rounds ih =>
      rw [receivePayload]
      split
      · simp only [exec_loadSocket]
        cases hrecv : w.transport.recvWaitAll (length - payload.length) with
        | none =>
            refine ⟨none, w.transport, exec_call_none ?_, Nat.le_refl _, ?_⟩
            · simp [World.handle, World.answer, hrecv]
            · intro bytes hbytes
              cases hbytes
        | some result =>
            obtain ⟨received, transport⟩ := result
            have hle := Transport.recvWaitAll_le hrecv
            rw [exec_recv _ hrecv]
            cases received with
            | none =>
                refine ⟨some none, transport, rfl, hle, ?_⟩
                intro bytes hbytes
                cases hbytes
            | some bytes =>
                have htake := Transport.recvWaitAll_length hrecv
                have hall := (Transport.recvWaitAll_bytes hrecv).2.2
                rw [Option.map_some, List.take_of_length_le hall]
                cases hbytes : bytes with
                | nil =>
                    refine ⟨some none, transport, rfl, hle, ?_⟩
                    intro bytes hbytes
                    cases hbytes
                | cons b more =>
                    obtain ⟨received, last, hexec, hless, hmore⟩ :=
                      ih (payload ++ bytes) { w with transport := transport }
                    dsimp only at hless hmore ⊢
                    rw [← hbytes]
                    refine ⟨received, last, hexec, by omega, ?_⟩
                    intro all hall
                    have hcount := hmore all hall
                    rw [List.length_append] at hcount
                    omega
      · refine ⟨_, w.transport, rfl, Nat.le_refl _, ?_⟩
        intro bytes hbytes
        cases hbytes
        exact Nat.le_refl _

theorem service_header (hw : w.Serving) :
    w.service cfg env =
      let result := Protocol.readHeader env.memory w.transport
      let w' := { w with transport := result.transport }
      if result.ret ≤ 0 then
        (some .again, { w' with shared := w.shared.removeClient cfg })
      else if result.ret = sizeofProtocolHeader then
        (handleMessage cfg result.header.value >>= fun _ => .ret .again).exec
          (World.handle cfg env) w'
      else (some .again, w') := by
  rw [service_serving hw, serviceClient]
  simp only [bind_assoc, exec_loadSocket]
  rw [exec_readHeader hw.connected rfl]
  dsimp only
  split
  · rfl
  · split <;> rfl

section Message

variable {α : Type} {header : ProtocolHeader}

/-- The world when the payload of an accepted message has been read. -/
def World.read (w : World) (header : ProtocolHeader) (payload : List UInt8) (transport : Transport) :
    World where
  shared := { w.shared with heap := w.shared.heap.alloc.2 }.record [.dispatched header payload]
  transport := transport
  mallocs := w.mallocs.tail

theorem exec_handleMessage (hsize : header.payloadLength.toNat ≤ maxPayloadSize)
    (hmalloc : w.mallocs.headD true = true)
    (hstream : header.payloadLength.toNat ≤ w.transport.stream.length)
    (f : Unit → ServerProgram α) :
    (handleMessage cfg header >>= f).exec (World.handle cfg env) w =
      (handlePayload cfg header w.shared.heap.next
          (w.transport.stream.take header.payloadLength.toNat) >>= f).exec (World.handle cfg env)
        (w.read header (w.transport.stream.take header.payloadLength.toNat)
          { w.transport with
            stream := w.transport.stream.drop header.payloadLength.toNat
            cuts := payloadCuts header.payloadLength.toNat w.transport.cuts }) := by
  rw [handleMessage, if_pos hsize]
  simp only [bind_assoc]
  rw [exec_malloc_some _ hmalloc]
  dsimp only
  rw [bind_assoc, exec_receivePayload (by simp) (by simpa using hstream)]
  simp only [bind_assoc, exec_dispatched, List.nil_append, List.length_nil, Nat.sub_zero]
  rfl

theorem exec_handleMessage_rejected (hsize : header.payloadLength.toNat ≤ maxPayloadSize)
    (hmalloc : w.mallocs.headD true = false) (f : Unit → ServerProgram α) :
    (handleMessage cfg header >>= f).exec (World.handle cfg env) w =
      (respond (msgErrResponseInt (-1)) >>= fun _ => f ()).exec (World.handle cfg env)
        { w with shared := w.shared.record [.rejected header], mallocs := w.mallocs.tail } := by
  rw [handleMessage, if_pos hsize]
  simp only [bind_assoc]
  rw [exec_malloc_none _ hmalloc]
  simp only [bind_assoc, exec_rejected]
  rfl

theorem exec_handleMessage_oversized (hsize : ¬ header.payloadLength.toNat ≤ maxPayloadSize)
    (f : Unit → ServerProgram α) :
    (handleMessage cfg header >>= f).exec (World.handle cfg env) w =
      (respond (msgErrResponseInt (-1)) >>= fun _ => f ()).exec (World.handle cfg env)
        { w with shared := w.shared.record [.rejected header] } := by
  rw [handleMessage, if_neg hsize]
  simp only [bind_assoc, exec_rejected]
  rfl

/-- What is left of a world whose client has been removed. -/
structure Dropped (w w' : World) : Prop where
  running : w'.shared.ctx.running = w.shared.ctx.running
  outcomes : w'.outcomes = w.outcomes
  connected : w'.shared.ctx.client.connected = false

theorem dropped_removeClient (cfg : ServerConfig) (w : World) (transport : Transport) (mallocs : List Bool) :
    Dropped w ⟨w.shared.removeClient cfg, transport, mallocs⟩ := by
  cases hconnected : w.shared.ctx.client.connected with
  | true =>
      have h : Handled w false true { w with shared := w.shared.removeClient cfg } :=
        Handled.removeClient (Handled.start hconnected (fun h => absurd h Bool.false_ne_true))
      exact ⟨h.running, h.outcomes, h.connected⟩
  | false =>
      rw [Shared.removeClient_absent hconnected]
      exact ⟨rfl, rfl, hconnected⟩

/-- A message that is cut off is waited for, or its client is removed. -/
theorem exec_handleMessage_short (hsize : header.payloadLength.toNat ≤ maxPayloadSize)
    (hmalloc : w.mallocs.headD true = true)
    (hshort : w.transport.stream.length < header.payloadLength.toNat)
    (f : Unit → ServerProgram α) :
    (∃ w', (handleMessage cfg header >>= f).exec (World.handle cfg env) w = (none, w')) ∨
      ∃ w', (handleMessage cfg header >>= f).exec (World.handle cfg env) w =
        (f ()).exec (World.handle cfg env) w' ∧ Dropped w w' ∧
        ∃ heap, w'.shared = Shared.removeClient cfg { w.shared with heap := heap } := by
  rw [handleMessage, if_pos hsize]
  simp only [bind_assoc]
  rw [exec_malloc_some _ hmalloc]
  dsimp only
  let read := receivePayload header.payloadLength.toNat header.payloadLength.toNat []
  let v : World :=
    { w with
      shared := { w.shared with heap := w.shared.heap.alloc.2 }
      mallocs := w.mallocs.tail }
  have hread : (∃ w', read.exec (World.handle cfg env) v = (none, w')) ∨
      ∃ transport, read.exec (World.handle cfg env) v =
        (some none, { v with transport := transport }) :=
    receivePayload_short (by simp) (by simpa [v] using hshort)
  rcases hread with ⟨w', hexec⟩ | ⟨transport, hexec⟩
  · exact Or.inl ⟨w', by rw [bind_assoc, exec_bind_none hexec]⟩
  · refine Or.inr ?_
    rw [bind_assoc, exec_bind_some hexec]
    simp only [bind_assoc, exec_free, exec_removeClient]
    have hdropped := dropped_removeClient cfg
      { v with shared := { v.shared with heap := v.shared.heap.free w.shared.heap.alloc.1 } }
      transport v.mallocs
    exact ⟨_, rfl, ⟨hdropped.running, hdropped.outcomes, hdropped.connected⟩, _, rfl⟩

end Message

section Frame

variable {f : Frame} {rest : List UInt8}

/-- The world when the next header has been read. -/
def World.readHeader (w : World) (rest : List UInt8) : World :=
  { w with transport := { w.transport with stream := rest, cuts := w.transport.cuts.tail } }

theorem service_whole (hw : w.Serving) (hwhole : w.transport.WholeWindow 0)
    (hstream : w.transport.stream = f.header.bytes ++ rest) :
    w.service cfg env =
      (handleMessage cfg f.header >>= fun _ => .ret .again).exec (World.handle cfg env)
        (w.readHeader rest) := by
  obtain ⟨hret, hheader, htransport⟩ := readHeader_whole env.memory f hwhole hstream
  rw [service_header hw]
  dsimp only
  rw [if_neg (by rw [hret]; decide), if_pos hret, hheader, htransport, World.readHeader]

/-- The world when the next frame has been read. -/
def World.readFrame (w : World) (f : Frame) (rest : List UInt8) : World :=
  w.read f.header f.payload
    { w.transport with
      stream := rest
      cuts := payloadCuts f.payload.length w.transport.cuts.tail }

theorem World.readFrame_outcomes (w : World) (f : Frame) (rest : List UInt8) :
    (w.readFrame f rest).outcomes = w.outcomes ++ [.dispatched f.header f.payload] := by
  simp [outcomes, readFrame, read, Shared.record, Event.isOutcome]

theorem service_frame (hw : w.Serving) (hwhole : w.transport.WholeWindow 0)
    (hstream : w.transport.stream = f.bytes ++ rest)
    (hsize : f.header.payloadLength.toNat ≤ maxPayloadSize)
    (hmalloc : w.mallocs.headD true = true) :
    w.service cfg env =
      (handlePayload cfg f.header w.shared.heap.next f.payload >>= fun _ => .ret .again).exec
        (World.handle cfg env) (w.readFrame f rest) := by
  rw [Frame.bytes, List.append_assoc] at hstream
  have htake : (f.payload ++ rest).take f.header.payloadLength.toNat = f.payload :=
    List.take_left' f.length
  have hdrop : (f.payload ++ rest).drop f.header.payloadLength.toNat = rest :=
    List.drop_left' f.length
  rw [service_whole hw hwhole hstream, exec_handleMessage (w := w.readHeader (f.payload ++ rest))
    hsize hmalloc (by simp [World.readHeader, f.length])]
  simp only [World.readHeader]
  rw [htake, hdrop, World.readFrame, f.length]
  rfl

theorem handlePayload_round_obeys {reliable : Bool} {socket : Int} (block : Nat) :
    (handlePayload cfg f.header block f.payload >>= fun _ => Program.ret Round.again).Obeys
      (handling reliable false socket)
      (fun round removed => round = .again ∧ (removed = true ↔ Rejects cfg f.header f.payload))
      false :=
  (handlePayload_obeys cfg f.header block f.payload).bind fun _ _ h => ⟨rfl, h⟩

theorem service_frame_handled (hw : w.Serving) (hwhole : w.transport.WholeWindow 0)
    (hstream : w.transport.stream = f.bytes ++ rest)
    (hsize : f.header.payloadLength.toNat ≤ maxPayloadSize)
    (hmalloc : w.mallocs.headD true = true) {round : Round}
    (hservice : w.service cfg env = (some round, w')) :
    ∃ removed, (round = .again ∧ (removed = true ↔ Rejects cfg f.header f.payload)) ∧
      Handled (w.readFrame f rest) false removed w' := by
  rw [service_frame hw hwhole hstream hsize hmalloc] at hservice
  have hstart : Handled (w.readFrame f rest) false false (w.readFrame f rest) :=
    Handled.start hw.connected nofun
  exact hstart.exec (handlePayload_round_obeys _) hservice

theorem service_frame_completes (hw : w.Serving) (hwhole : w.transport.WholeWindow 0)
    (hstream : w.transport.stream = f.bytes ++ rest)
    (hsize : f.header.payloadLength.toNat ≤ maxPayloadSize) (hmallocs : w.mallocs = []) :
    ∃ w' removed, w.service cfg env = (some .again, w') ∧
      (removed = true ↔ Rejects cfg f.header f.payload) ∧
      Handled (w.readFrame f rest) true removed w' := by
  have hmalloc : w.mallocs.headD true = true := by rw [hmallocs]; rfl
  have hstart : Handled (w.readFrame f rest) true false (w.readFrame f rest) := by
    refine Handled.start (w := w.readFrame f rest) hw.connected ?_
    intro _
    simp [World.readFrame, World.read, hmallocs]
  rw [service_frame hw hwhole hstream hsize hmalloc]
  obtain ⟨round, w', hexec⟩ : ∃ round w',
      (handlePayload cfg f.header w.shared.heap.next f.payload >>= fun _ => .ret Round.again).exec
        (World.handle cfg env) (w.readFrame f rest) = (some round, w') :=
    hstart.completes (handlePayload_round_obeys _)
  obtain ⟨removed, ⟨rfl, hrejects⟩, hhandled⟩ := hstart.exec (handlePayload_round_obeys _) hexec
  exact ⟨w', removed, hexec, hrejects, hhandled⟩

end Frame

end YaskawaComms.Server
