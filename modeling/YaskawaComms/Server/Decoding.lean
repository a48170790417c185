import YaskawaComms.Framework.Outcomes
import YaskawaComms.Server.Conversations
import YaskawaComms.Server.Status

/-!
# What is sent can be read

The responses and the datagrams of the server, read by the code with which it reads messages itself:
`read_header`, then the payload loop.
-/

namespace YaskawaComms.Server

open Protocol Program

/-- Read the next message; a header alone is rejected for its payload's length. -/
def readMessage (fd : Int) : ServerProgram (Option (ProtocolHeader × List UInt8)) := do
  let (bytesRead, header) ← readHeader fd
  if bytesRead = sizeofProtocolHeader ∧ header.payloadLength.toNat ≤ maxPayloadSize then
    let payload ← receivePayload header.payloadLength.toNat header.payloadLength.toNat []
    return payload.map fun payload => (header, payload)
  return none

/-- Read messages one after the other, at most so many. -/
def readMessages (fd : Int) : Nat → ServerProgram (List (ProtocolHeader × List UInt8))
  | 0 => return []
  | n + 1 => do
      let some message ← readMessage fd | return []
      return message :: (← readMessages fd n)

/-- Every header is there as a whole when it is read. -/
def HeadersAvailable : List Frame → List Cut → Prop
  | [], _ => True
  | f :: frames, cuts =>
      HeaderWhole cuts ∧ HeadersAvailable frames (payloadCuts f.payload.length cuts.tail)

/-- Read from the client's connection, these bytes are the messages of these frames; whatever follows
them is left. -/
def Decodes (bytes : List UInt8) (frames : List Frame) : Prop :=
  ∀ (cfg : ServerConfig) (env : Environment) (w : World) (rest : List UInt8),
    w.shared.ctx.client.connected = true → w.transport.stream = bytes ++ rest →
    HeadersAvailable frames w.transport.cuts →
    ∃ cuts, (readMessages w.shared.ctx.client.socket frames.length).exec (World.handle cfg env) w =
      (some (messages frames),
        { w with transport := { w.transport with stream := rest, cuts := cuts } })

section Reading

variable {cfg : ServerConfig} {env : Environment} {w : World} {f : Frame} {rest : List UInt8}

theorem exec_readMessage (hconnected : w.shared.ctx.client.connected = true)
    (hwhole : HeaderWhole w.transport.cuts) (hstream : w.transport.stream = f.bytes ++ rest)
    (hsize : f.header.payloadLength.toNat ≤ maxPayloadSize) :
    (readMessage w.shared.ctx.client.socket).exec (World.handle cfg env) w =
      (some (some (f.header, f.payload)),
        { w with transport :=
          { w.transport with
            stream := rest
            cuts := payloadCuts f.payload.length w.transport.cuts.tail } }) := by
  have hwindow := wholeWindow_of_headerWhole hwhole hstream
  rw [Frame.bytes, List.append_assoc] at hstream
  obtain ⟨hret, hheader, htransport⟩ := readHeader_whole env.memory f hwindow hstream
  have htake : (f.payload ++ rest).take f.payload.length = f.payload := List.take_left
  have hdrop : (f.payload ++ rest).drop f.payload.length = rest := List.drop_left
  have hpayload : f.payload.length ≤ ([] : List UInt8).length + (f.payload ++ rest).length := by
    rw [List.length_nil, List.length_append]
    omega
  unfold readMessage
  rw [exec_readHeader hconnected rfl]
  dsimp only
  rw [hret, hheader, htransport, if_pos ⟨rfl, hsize⟩, ← f.length]
  rw [exec_receivePayload (by simp) hpayload]
  simp only [List.nil_append, List.length_nil, Nat.sub_zero, htake, hdrop]
  rfl

theorem decodes_encode {frames : List Frame}
    (hsizes : ∀ f ∈ frames, f.header.payloadLength.toNat ≤ maxPayloadSize) :
    Decodes (encode frames) frames := by
  intro cfg env w rest hconnected hstream hwhole
  induction frames generalizing w with
  | nil =>
      refine ⟨w.transport.cuts, ?_⟩
      have hrest : w.transport.stream = rest := hstream
      rw [← hrest]
      rfl
  | cons f frames ih =>
      have hfirst : w.transport.stream = f.bytes ++ (encode frames ++ rest) := by
        rw [hstream, encode_cons, List.append_assoc]
      have hread : (readMessage w.shared.ctx.client.socket).exec (World.handle cfg env) w = _ :=
        exec_readMessage hconnected hwhole.1 hfirst (hsizes f List.mem_cons_self)
      obtain ⟨cuts, hexec⟩ := ih (w := { w with transport :=
          { w.transport with
            stream := encode frames ++ rest
            cuts := payloadCuts f.payload.length w.transport.cuts.tail } })
        (fun g hg => hsizes g (List.mem_cons_of_mem _ hg)) hconnected rfl hwhole.2
      refine ⟨cuts, ?_⟩
      rw [List.length_cons, readMessages, exec_bind_some hread]
      dsimp only at hexec ⊢
      rw [exec_bind_some hexec]
      rfl

end Reading

/-- A response to be sent; every payload up to the largest one a client may send. -/
structure Response where
  messageType : UInt8
  payload : List UInt8
  size : payload.length ≤ maxPayloadSize

theorem maxPayloadSize_lt : maxPayloadSize < 2 ^ 32 := by decide

theorem Response.toNat_length (r : Response) : (UInt32.ofNat r.payload.length).toNat = r.payload.length := by
  have hlt := Nat.lt_of_le_of_lt r.size maxPayloadSize_lt
  rw [UInt32.toNat_ofNat', Nat.mod_eq_of_lt hlt]

/-- The message that a response is, if sent at this time. -/
def Response.frame (r : Response) (timestamp : UInt64) : Frame where
  header :=
    { magicNumber := protocolMagicNumber
      version := protocolVersion
      messageType := r.messageType
      timestampMs := timestamp
      payloadLength := UInt32.ofNat r.payload.length }
  payload := r.payload
  magic := rfl
  length := r.toNat_length.symm

theorem Response.frame_size (r : Response) (timestamp : UInt64) :
    (r.frame timestamp).header.payloadLength.toNat ≤ maxPayloadSize := by
  have hlength : (r.frame timestamp).header.payloadLength.toNat = r.payload.length := r.toNat_length
  rw [hlength]
  exact r.size

/-- The caller of `allocate_response_context` writes the payload. -/
def ResponseContext.fill (ctx : ResponseContext) (payload : List UInt8) : ResponseContext :=
  { ctx with payload := ctx.payload.map fun (block, _) => (block, payload) }

def sendResponse (socket : Int) (r : Response) : ServerProgram Int := do
  let ctx ← allocateResponseContext (UInt32.ofNat r.payload.length) r.messageType
  sendCommandResponseContext socket (ctx.map fun ctx => ctx.fill r.payload)

def sendResponses (socket : Int) : List Response → ServerProgram Unit
  | [] => return
  | r :: rs => do
      let _ ← sendResponse socket r
      sendResponses socket rs

/-- The bytes sent so far, and the times asked for. -/
structure Emission where
  sent : List UInt8
  timestamps : List UInt64

/-- Sending where the contexts are allocated and all bytes are sent. -/
def emitting : Monitor serverSignature Emission where
  good _ c := match c with
    | .nullContext => False
    | _ => True
  allowed _ c := match c with
    | .malloc _ => fun block => block ≠ none
    | .send _ bytes => fun sent => sent = bytes.length
    | _ => fun _ => True
  next m c := match c with
    | .getTimestampMs => fun timestamp => { m with timestamps := m.timestamps ++ [timestamp] }
    | .send _ bytes => fun sent => { m with sent := m.sent ++ bytes.take sent.toNat }
    | _ => fun _ => m

section Sending

variable {α : Type} {m : Emission}

theorem freeCommandResponseContext_emitting (ctx : ResponseContext) :
    (freeCommandResponseContext ctx).Obeys emitting (fun _ m' => m' = m) m := by
  have hwalk : Walks emitting (fun m' => m' = m) (fun _ => True) (freeCommandResponseContext ctx) :=
    freeCommandResponseContext_walks (fun _ _ _ => ⟨trivial, fun _ => rfl⟩) ctx
  exact (hwalk m rfl).mono fun _ _ h => h.1

/-- A context with its payload is sent as its header and its payload. -/
theorem sendCommandResponseContext_emitting {socket : Int} {ctx : ResponseContext}
    (hctx : ctx.Built) :
    (sendCommandResponseContext socket (some ctx)).Obeys emitting
      (fun _ m' => m' = { m with sent := m.sent ++ ctx.reply.bytes }) m := by
  have hcount : ∀ (m : Emission) (bytes : List UInt8) (sent : Int),
      emitting.allowed m (.send socket bytes) sent →
      emitting.next m (.send socket bytes) sent = { m with sent := m.sent ++ bytes } := by
    intro m bytes sent hsent
    have hall : sent = bytes.length := hsent
    simp [emitting, hall]
  have hend : ∀ (sent : Int) (m' : Emission), (freeCommandResponseContext ctx >>= fun _ =>
      pure (if (sent - (sizeofProtocolHeader + ctx.header.payloadLength.toNat : Nat)) % 2 ^ 64 = 0
        then 0 else (-1 : Int))).Obeys emitting (fun _ m'' => m'' = m') m' := by
    intro sent m'
    exact (freeCommandResponseContext_emitting ctx).bind fun _ _ h => h
  unfold sendCommandResponseContext
  apply obeys_call trivial
  intro sent hsent
  rw [hcount m _ sent hsent]
  cases hpayload : ctx.payload with
  | none =>
      have hbytes : ctx.reply.bytes = ctx.header.bytes := by
        simp [Reply.bytes, ResponseContext.reply, hpayload]
      rw [hbytes]
      exact hend _ _
  | some payload =>
      obtain ⟨block, bytes⟩ := payload
      have hlength : ctx.header.payloadLength ≠ 0 := by
        intro hzero
        rw [hctx.payload.mpr hzero] at hpayload
        cases hpayload
      have htake : bytes.take ctx.header.payloadLength.toNat = bytes := by
        rw [← hctx.length block bytes hpayload, List.take_length]
      have hbytes : ctx.reply.bytes = ctx.header.bytes ++ bytes := by
        simp [Reply.bytes, ResponseContext.reply, hpayload]
      dsimp only
      rw [if_pos hlength, htake, hbytes]
      apply obeys_call trivial
      intro more hmore
      rw [hcount _ _ more hmore, List.append_assoc]
      exact hend _ _

theorem allocateResponseContext_emitting (length : UInt32) (type : UInt8) :
    (allocateResponseContext length type).Obeys emitting
      (fun ctx m' => ∃ c timestamp, ctx = some c ∧ m' = { m with timestamps := m.timestamps ++ [timestamp] } ∧
        c.header = ⟨protocolMagicNumber, protocolVersion, type, timestamp, length⟩ ∧
        (c.payload = none ↔ length = 0)) m := by
  unfold allocateResponseContext
  apply obeys_keep trivial (fun _ => rfl)
  intro block hblock
  cases block with
  | none => exact absurd rfl hblock
  | some block =>
      apply obeys_keep trivial (fun _ => rfl)
      intro headerBlock hheader
      cases headerBlock with
      | none => exact absurd rfl hheader
      | some headerBlock =>
          apply obeys_call trivial
          intro timestamp _
          dsimp only
          split
          · next hlength =>
              have hne : length ≠ 0 := UInt32.pos_iff_ne_zero.mp hlength
              apply obeys_keep trivial (fun _ => rfl)
              intro payload hpayload
              cases payload with
              | none => exact absurd rfl hpayload
              | some payload => exact ⟨_, timestamp, rfl, rfl, rfl, iff_of_false nofun hne⟩
          · next hlength =>
              have hzero : length = 0 :=
                Decidable.byContradiction fun hne => hlength (UInt32.pos_iff_ne_zero.mpr hne)
              exact ⟨_, timestamp, rfl, rfl, rfl, iff_of_true rfl hzero⟩

theorem sendResponse_emitting (socket : Int) (r : Response) :
    (sendResponse socket r).Obeys emitting
      (fun _ m' => ∃ timestamp, m' = ⟨m.sent ++ (r.frame timestamp).bytes, m.timestamps ++ [timestamp]⟩)
      m := by
  unfold sendResponse
  apply (allocateResponseContext_emitting _ _).bind
  rintro _ _ ⟨ctx, timestamp, rfl, rfl, hheader, hnone⟩
  have hpayload : (ctx.fill r.payload).payload = none ↔ UInt32.ofNat r.payload.length = 0 := by
    rw [← hnone, ResponseContext.fill, Option.map_eq_none_iff]
  have hlength : (ctx.fill r.payload).header.payloadLength = UInt32.ofNat r.payload.length := by
    rw [ResponseContext.fill, hheader]
  have hbuilt : (ctx.fill r.payload).Built := by
    rw [← hlength] at hpayload
    refine ⟨hpayload, ?_⟩
    intro block bytes hsome
    rw [hlength, r.toNat_length]
    obtain ⟨_, _, hbytes⟩ := Option.map_eq_some_iff.mp hsome
    cases hbytes
    rfl
  have hbytes : (ctx.fill r.payload).reply.bytes = (r.frame timestamp).bytes := by
    have hempty : UInt32.ofNat r.payload.length = 0 → r.payload = [] := by
      intro hzero
      have htoNat := r.toNat_length
      rw [hzero] at htoNat
      exact List.length_eq_zero_iff.mp htoNat.symm
    have hframe : (r.frame timestamp).bytes = ctx.header.bytes ++ r.payload := by
      rw [Frame.bytes, hheader]
      rfl
    rw [hframe]
    cases hctx : ctx.payload with
    | none =>
        rw [hempty (hnone.mp hctx)]
        simp [Reply.bytes, ResponseContext.reply, ResponseContext.fill, hctx]
    | some payload => simp [Reply.bytes, ResponseContext.reply, ResponseContext.fill, hctx]
  rw [Option.map_some]
  apply (sendCommandResponseContext_emitting hbuilt).mono
  rintro _ _ rfl
  exact ⟨timestamp, by rw [hbytes]⟩

theorem sendResponses_emitting (socket : Int) (rs : List Response) :
    (sendResponses socket rs).Obeys emitting
      (fun _ m' => ∃ timestamps, timestamps.length = rs.length ∧
        m' = ⟨m.sent ++ encode (List.zipWith Response.frame rs timestamps),
          m.timestamps ++ timestamps⟩) m := by
  induction rs generalizing m with
  | nil => exact ⟨[], rfl, by simp⟩
  | cons r rs ih =>
      apply (sendResponse_emitting socket r).bind
      rintro _ _ ⟨timestamp, rfl⟩
      apply ih.mono
      rintro _ _ ⟨timestamps, hlength, rfl⟩
      refine ⟨timestamp :: timestamps, by rw [List.length_cons, List.length_cons, hlength], ?_⟩
      simp only [List.zipWith_cons_cons, encode_cons, List.append_assoc, List.singleton_append]

end Sending

/-- A status is sent like a response of this type. -/
def Packed.response {size : Nat} (status : Packed size) (type : UInt8) (h : size ≤ maxPayloadSize) :
    Response :=
  ⟨type, status.bytes, by rw [status.length]; exact h⟩

theorem Packed.response_bytes {size : Nat} (status : Packed size) (type : UInt8)
    (h : size ≤ maxPayloadSize) (timestamp : UInt64) :
    ((status.response type h).frame timestamp).bytes = ProtocolHeader.bytes
      ⟨protocolMagicNumber, protocolVersion, type, timestamp, UInt32.ofNat size⟩ ++ status.bytes := by
  simp [Frame.bytes, Response.frame, Packed.response, status.length]

/-- What a sending function has done: the times that it has asked for, and its datagrams. -/
structure Transmission where
  timestamps : List UInt64
  datagrams : List (List UInt8)

/-- The calls of a sending function that finds a client connected or not, and its port registered or
not. -/
def transmitting (connected registered : Bool) : Monitor senderSignature Transmission where
  good _ _ := True
  allowed _ c := match c with
    | .loadConnected => fun found => found = connected
    | .loadUdpPortRegistered => fun found => found = registered
    | _ => fun _ => True
  next m c := match c with
    | .getTimestampMs => fun timestamp => { m with timestamps := m.timestamps ++ [timestamp] }
    | .sendto _ buffer _ => fun _ => { m with datagrams := m.datagrams ++ [buffer] }
    | _ => fun _ => m

/-- For a client with a registered port there is one datagram, the message of this response at the time
asked for; otherwise there is none. -/
def Transmits (connected registered : Bool) (r : Response) (m : Transmission) : Prop :=
  if connected && registered then
    ∃ timestamp buffer, m = ⟨[timestamp], [buffer]⟩ ∧ Decodes buffer [r.frame timestamp]
  else m = ⟨[], []⟩

theorem sendStatus_transmits {size : Nat} (type : UInt8) (status : Packed size) (h : size ≤ maxPayloadSize)
    (connected registered : Bool) :
    (sendStatus type (some status)).Obeys (transmitting connected registered)
      (fun _ m => Transmits connected registered (status.response type h) m) ⟨[], []⟩ := by
  have hsent : ∀ timestamp, Decodes (ProtocolHeader.bytes
      ⟨protocolMagicNumber, protocolVersion, type, timestamp, UInt32.ofNat size⟩ ++ status.bytes)
      [(status.response type h).frame timestamp] := by
    intro timestamp
    have hsizes : ∀ f ∈ [(status.response type h).frame timestamp],
        f.header.payloadLength.toNat ≤ maxPayloadSize := by
      intro f hf
      rw [List.mem_singleton.mp hf]
      exact Response.frame_size _ _
    have hdecodes := decodes_encode hsizes
    rwa [encode_cons, encode_nil, List.append_nil, status.response_bytes] at hdecodes
  unfold sendStatus
  apply obeys_keep trivial (fun _ => rfl)
  intro found hfound
  obtain rfl : connected = found := Eq.symm hfound
  cases connected with
  | false => exact rfl
  | true =>
      apply obeys_keep trivial (fun _ => rfl)
      intro found hfound
      obtain rfl : registered = found := Eq.symm hfound
      cases registered with
      | false => exact rfl
      | true =>
          apply obeys_call trivial
          intro timestamp _
          apply obeys_keep trivial (fun _ => rfl)
          intro addr _
          apply obeys_keep trivial (fun _ => rfl)
          intro port _
          apply obeys_keep trivial (fun _ => rfl)
          intro fd _
          apply obeys_call trivial
          intro sent _
          apply obeys_ite
          · intro _
            exact ⟨timestamp, _, rfl, hsent timestamp⟩
          · intro _
            exact ⟨timestamp, _, rfl, hsent timestamp⟩

/-- The responses sent one after the other decode to what was to be sent; and so does the one datagram
of a sending function that finds a client with a registered port. -/
theorem emitted_decodes :
    (∀ socket rs, (sendResponses socket rs).Obeys emitting
      (fun _ m => m.timestamps.length = rs.length ∧
        Decodes m.sent (List.zipWith Response.frame rs m.timestamps)) ⟨[], []⟩) ∧
    (∀ (status : StatusPayload) connected registered,
      (robotProtocolSendPositionVelocityTorque (some status)).Obeys (transmitting connected registered)
        (fun _ m => Transmits connected registered
          (status.response msgRobotPositionVelocityTorque (by decide)) m) ⟨[], []⟩) ∧
    (∀ (status : RobotStatusPayload) connected registered,
      (robotProtocolSendRobotStatus (some status)).Obeys (transmitting connected registered)
        (fun _ m => Transmits connected registered (status.response msgRobotStatus (by decide)) m)
        ⟨[], []⟩) := by
  refine ⟨?_, fun status => sendStatus_transmits _ status _, fun status => sendStatus_transmits _ status _⟩
  intro socket rs
  apply (sendResponses_emitting socket rs).mono
  rintro _ _ ⟨timestamps, hlength, rfl⟩
  refine ⟨by simpa using hlength, ?_⟩
  apply decodes_encode
  intro f hf
  obtain ⟨i, hi, rfl⟩ := List.mem_iff_getElem.mp hf
  rw [List.getElem_zipWith]
  exact Response.frame_size _ _

/-- A response without a payload and one with three bytes, and a status of 267 bytes. -/
theorem emitted_decodes_three :
    let ok : Response := ⟨msgOk, [], by decide⟩
    let error : Response := ⟨msgError, [0x52, 0x41, 0x49], by decide⟩
    let status : StatusPayload := ⟨List.replicate 267 0x52, List.length_replicate⟩
    let message := status.response msgRobotPositionVelocityTorque (by decide)
    (sendResponses 7 [ok, error]).Returns emitting ⟨[], []⟩ ()
        ⟨(ok.frame 5).bytes ++ (error.frame 6).bytes, [5, 6]⟩ ∧
      Decodes ((ok.frame 5).bytes ++ (error.frame 6).bytes) [ok.frame 5, error.frame 6] ∧
      (robotProtocolSendPositionVelocityTorque (some status)).Returns (transmitting true true) ⟨[], []⟩ 1
        ⟨[9], [(message.frame 9).bytes]⟩ ∧
      Decodes (message.frame 9).bytes [message.frame 9] := by
  intro ok error status message
  obtain ⟨hresponses, hstatus, -⟩ := emitted_decodes
  have hcount : ∀ h : ProtocolHeader, (18 : Int) = h.bytes.length := by
    intro h
    rw [h.bytes_length]
    rfl
  have htake : ∀ h : ProtocolHeader, h.bytes.take 18 = h.bytes := by
    intro h
    exact List.take_of_length_le (Nat.le_of_eq h.bytes_length)
  have hsent : (sendResponses 7 [ok, error]).Returns emitting ⟨[], []⟩ ()
      ⟨(ok.frame 5).bytes ++ (error.frame 6).bytes, [5, 6]⟩ := by
    refine ⟨some 0, nofun, some 1, nofun, (5 : UInt64), trivial, (18 : Int), hcount _, (), trivial,
      (), trivial, ?_⟩
    refine ⟨some 2, nofun, some 3, nofun, (6 : UInt64), trivial, some 4, nofun, (18 : Int), hcount _,
      (3 : Int), rfl, ?_⟩
    refine ⟨(), trivial, (), trivial, (), trivial, rfl, ?_⟩
    simp [emitting, Frame.bytes, Response.frame, ResponseContext.fill, htake, ok, error]
  have hpath : (robotProtocolSendPositionVelocityTorque (some status)).Returns (transmitting true true)
      ⟨[], []⟩ 1 ⟨[9], [(message.frame 9).bytes]⟩ := by
    rw [status.response_bytes]
    exact ⟨true, rfl, true, rfl, (9 : UInt64), trivial, (⟨1, 0⟩ : SockAddr), trivial, (5000 : UInt16), trivial,
      (4 : Int), trivial, (285 : Int), trivial, rfl, rfl⟩
  obtain ⟨timestamp, buffer, hone, hdecodes⟩ := (hstatus status true true).returns hpath
  cases hone
  exact ⟨hsent, ((hresponses 7 _).returns hsent).2, hpath, hdecodes⟩

end YaskawaComms.Server
