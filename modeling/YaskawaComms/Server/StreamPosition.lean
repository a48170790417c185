import Mathlib.Data.List.Forall2
import YaskawaComms.Server.Rounds

/-!
# The position in the stream

After every round of the service loop, the unread bytes of a connection start at the start of a
frame, as long as no frame with a payload is rejected and every header arrives whole.
-/

namespace YaskawaComms.Server

open Protocol Program

/-- What became of a frame. -/
def Accounts (f : Frame) (e : Event) : Prop :=
  e = .dispatched f.header f.payload ∨ e = .rejected f.header

/-- The outcomes so far are those of the first frames, one for each, and what is still to be read
are the other frames, unless the connection has been dropped. -/
def AtFrame (frames : List Frame) (tail : List UInt8) (w : World) : Prop :=
  ∃ handled rest, frames = handled ++ rest ∧ List.Forall₂ Accounts handled w.outcomes ∧
    (w.shared.ctx.client.connected = true → w.transport.stream = encode rest ++ tail)

/-- The beginning of a frame that is not there in full. -/
def Unfinished (tail : List UInt8) : Prop :=
  ∃ f : Frame, tail <+: f.bytes ∧ tail.length < f.size

/-- The payload that a header announces will be read. -/
def World.PayloadReadable (w : World) (header : ProtocolHeader) : Prop :=
  header.payloadLength.toNat = 0 ∨
    (header.payloadLength.toNat ≤ maxPayloadSize ∧ w.mallocs.headD true = true)

/-- A completed round of the service loop, or a removal by the timeout thread between rounds. -/
inductive Turn where
  | service (env : Environment)
  | timeout

def World.step (cfg : ServerConfig) : Turn → World → Option World
  | .service env, w =>
      match w.service cfg env with
      | (some .again, w') => some w'
      | _ => none
  | .timeout, w => some { w with shared := w.shared.removeClient cfg }

/-- When a round comes, the next header has not arrived, or it arrives whole and its payload will be
read. -/
def World.FrameReadable (w : World) : Turn → Prop
  | .service _ => w.shared.ctx.client.connected = true →
      w.transport.stream = [] ∨ w.transport.cuts.head? = some .wouldBlock ∨
        (w.transport.WholeWindow 0 ∧
          w.PayloadReadable (ProtocolHeader.ofBytes (w.transport.stream.take sizeofProtocolHeader)))
  | .timeout => True

variable {cfg : ServerConfig} {env : Environment} {frames : List Frame} {tail : List UInt8}
  {w w' : World}

/-- The server runs, and its position is the start of a frame. -/
structure Framed (frames : List Frame) (tail : List UInt8) (w : World) : Prop where
  running : w.shared.ctx.running ≠ 0
  serving : w.shared.ctx.client.connected = true → w.Serving
  position : AtFrame frames tail w

theorem Framed.of_handled {v : World} {handled rest : List Frame} {removed : Bool}
    (hv : v.Serving) (hframes : frames = handled ++ rest)
    (houtcomes : List.Forall₂ Accounts handled v.outcomes)
    (hstream : v.transport.stream = encode rest ++ tail) (h : Handled v false removed w) :
    Framed frames tail w := by
  have hrunning : w.shared.ctx.running ≠ 0 := by rw [h.running]; exact hv.running
  refine ⟨hrunning, h.serving hv, handled, rest, hframes, by rwa [h.outcomes], ?_⟩
  intro _
  rw [h.transport, hstream]

theorem Framed.dropped (h : Framed frames tail w) (hdropped : Dropped w w') :
    Framed frames tail w' := by
  obtain ⟨handled, rest, hframes, houtcomes, -⟩ := h.position
  have hgone : ¬ w'.shared.ctx.client.connected = true := by simp [hdropped.connected]
  refine ⟨?_, fun hconnected => absurd hconnected hgone, handled, rest, hframes, ?_,
    fun hconnected => absurd hconnected hgone⟩
  · rw [hdropped.running]
    exact h.running
  · rwa [hdropped.outcomes]

theorem Framed.unread (h : Framed frames tail w) (transport : Transport)
    (hstream : transport.stream = w.transport.stream) :
    Framed frames tail { w with transport := transport } := by
  obtain ⟨handled, rest, hframes, houtcomes, hposition⟩ := h.position
  refine ⟨h.running, ?_, handled, rest, hframes, houtcomes, ?_⟩
  · intro hconnected
    have hw := h.serving hconnected
    exact ⟨hw.running, hw.connected, hw.socket, hw.listener⟩
  · intro hconnected
    rw [hstream]
    exact hposition hconnected

theorem Unfinished.header (h : Unfinished tail) (hlength : sizeofProtocolHeader ≤ tail.length) :
    ∃ (f : Frame) (part : List UInt8), tail = f.header.bytes ++ part ∧
      part.length < f.header.payloadLength.toNat := by
  obtain ⟨f, hprefix, hshort⟩ := h
  have hheader := f.header.bytes_length
  refine ⟨f, f.payload.take (tail.length - sizeofProtocolHeader), ?_, ?_⟩
  · rw [List.prefix_iff_eq_take.mp hprefix, Frame.bytes, List.take_append,
      List.take_of_length_le (by omega), hheader]
    simp
  · rw [List.length_take]
    rw [Frame.size, f.length] at hshort
    rw [f.length]
    omega

section Round

variable {round : Round}

theorem Framed.nothing (h : Framed frames tail w) (hw : w.Serving) (hempty : w.transport.stream = [])
    (hservice : w.service cfg env = (some round, w')) : Framed frames tail w' := by
  obtain ⟨hret, hnone⟩ := readHeader_nothing env.memory hempty
  rw [service_header hw] at hservice
  dsimp only at hservice
  rcases hret with hone | hminus
  · rw [if_neg (by rw [hone]; decide), if_neg (by rw [hone]; decide)] at hservice
    cases hservice
    exact h.unread _ (by rw [hnone, hempty])
  · rw [if_pos (by rw [hminus]; decide)] at hservice
    cases hservice
    exact h.dropped (dropped_removeClient cfg w _ _)

theorem Framed.blocked (h : Framed frames tail w) (hw : w.Serving)
    (hblock : w.transport.cuts.head? = some .wouldBlock)
    (hservice : w.service cfg env = (some round, w')) : Framed frames tail w' := by
  obtain ⟨cuts, hcuts⟩ := List.head?_eq_some_iff.mp hblock
  obtain ⟨hret, htransport⟩ := readHeader_wouldBlock env.memory hcuts
  rw [service_header hw] at hservice
  dsimp only at hservice
  rw [if_neg (by rw [hret]; decide), if_neg (by rw [hret]; decide)] at hservice
  cases hservice
  exact h.unread _ (by rw [htransport])

/-- The next frame is there in full. -/
theorem Framed.frame {f : Frame} {handled rest : List Frame} (hw : w.Serving)
    (hframes : frames = handled ++ f :: rest)
    (houtcomes : List.Forall₂ Accounts handled w.outcomes)
    (hstream : w.transport.stream = f.bytes ++ (encode rest ++ tail))
    (hwhole : w.transport.WholeWindow 0) (hpayload : w.PayloadReadable f.header)
    (hservice : w.service cfg env = (some round, w')) : Framed frames tail w' := by
  have hhandled : frames = (handled ++ [f]) ++ rest := by simp [hframes]
  have hsize : f.header.payloadLength.toNat ≤ maxPayloadSize := by
    rcases hpayload with hzero | ⟨hle, -⟩ <;> omega
  cases hmalloc : w.mallocs.headD true with
  | true =>
      obtain ⟨removed, -, hh⟩ := service_frame_handled hw hwhole hstream hsize hmalloc hservice
      have hserving : (w.readFrame f (encode rest ++ tail)).Serving :=
        ⟨hw.running, hw.connected, hw.socket, hw.listener⟩
      apply Framed.of_handled hserving hhandled _ rfl hh
      rw [World.readFrame_outcomes]
      exact List.rel_append houtcomes (.cons (.inl rfl) .nil)
  | false =>
      have hzero : f.header.payloadLength.toNat = 0 := by
        rcases hpayload with hzero | ⟨-, htrue⟩
        · exact hzero
        · rw [hmalloc] at htrue
          cases htrue
      have hpayload : f.payload = [] := List.eq_nil_of_length_eq_zero (f.length.trans hzero)
      rw [Frame.bytes, hpayload, List.append_nil] at hstream
      let v : World :=
        { w.readHeader (encode rest ++ tail) with
          shared := w.shared.record [.rejected f.header]
          mallocs := w.mallocs.tail }
      have hstart : Handled v false false v :=
        Handled.start (w := v) hw.connected fun hfalse => absurd hfalse Bool.false_ne_true
      rw [service_whole hw hwhole hstream,
        exec_handleMessage_rejected (w := w.readHeader (encode rest ++ tail)) hsize hmalloc] at hservice
      have hobeys : (respond (msgErrResponseInt (-1)) >>= fun _ => Program.ret Round.again).Obeys
          (handling false false w.shared.ctx.client.socket) (fun _ m => m = false) false :=
        (respondError_obeys (-1)).bind fun _ _ hm => hm
      obtain ⟨removed, -, hh⟩ := hstart.exec hobeys hservice
      have hserving : v.Serving := ⟨hw.running, hw.connected, hw.socket, hw.listener⟩
      apply Framed.of_handled hserving hhandled _ rfl hh
      have hmore : v.outcomes = w.outcomes ++ [.rejected f.header] := by
        simp [v, World.outcomes, Shared.record, Event.isOutcome]
      rw [hmore]
      exact List.rel_append houtcomes (.cons (.inr rfl) .nil)

theorem Framed.unfinished (h : Framed frames tail w) (hw : w.Serving) (htail : Unfinished tail)
    (hstream : w.transport.stream = tail) (hwhole : w.transport.WholeWindow 0)
    (hpayload : w.PayloadReadable (ProtocolHeader.ofBytes (tail.take sizeofProtocolHeader)))
    (hservice : w.service cfg env = (some round, w')) : Framed frames tail w' := by
  have hlength : sizeofProtocolHeader ≤ tail.length := by
    have hle := hwhole.1
    rw [hstream] at hle
    omega
  obtain ⟨f, part, htake, hpart⟩ := htail.header hlength
  rw [htake, List.take_left' f.header.bytes_length, ProtocolHeader.ofBytes_bytes] at hpayload
  rcases hpayload with hzero | ⟨hsize, hmalloc⟩
  · omega
  · rw [service_whole hw hwhole (by rw [hstream, htake])] at hservice
    let handled : ServerProgram Round := handleMessage cfg f.header >>= fun _ => .ret .again
    have hshort : (∃ v, handled.exec (World.handle cfg env) (w.readHeader part) = (none, v)) ∨
        ∃ v, handled.exec (World.handle cfg env) (w.readHeader part) =
          (some .again, v) ∧ Dropped (w.readHeader part) v :=
      (exec_handleMessage_short (w := w.readHeader part) hsize hmalloc hpart _).imp_right
        fun ⟨v, hexec, hdropped, _⟩ => ⟨v, hexec, hdropped⟩
    rcases hshort with ⟨v, hnone⟩ | ⟨v, hsome, hdropped⟩
    · rw [hnone] at hservice
      cases hservice
    · rw [hsome] at hservice
      cases hservice
      exact h.dropped ⟨hdropped.running, hdropped.outcomes, hdropped.connected⟩

end Round

/-- A step under the condition keeps the position. -/
theorem Framed.step (h : Framed frames tail w) (htail : Unfinished tail) {turn : Turn}
    (hreadable : w.FrameReadable turn) (hstep : w.step cfg turn = some w') : Framed frames tail w' := by
  cases turn with
  | timeout =>
      cases hstep
      exact h.dropped (dropped_removeClient cfg w _ _)
  | service env =>
      cases hconnected : w.shared.ctx.client.connected with
      | false =>
          rw [World.step, service_idle h.running hconnected] at hstep
          cases hstep
          exact h
      | true =>
          have hservice : w.service cfg env = (some .again, w') := by
            simp only [World.step] at hstep
            split at hstep
            · next v hv =>
                cases hstep
                exact hv
            · cases hstep
          have hw := h.serving hconnected
          obtain ⟨handled, rest, hframes, houtcomes, hposition⟩ := h.position
          have hstream := hposition hconnected
          rcases hreadable hconnected with hempty | hblock | ⟨hwhole, hpayload⟩
          · exact h.nothing hw hempty hservice
          · exact h.blocked hw hblock hservice
          · cases rest with
            | nil =>
                rw [encode_nil, List.nil_append] at hstream
                rw [hstream] at hpayload
                exact h.unfinished hw htail hstream hwhole hpayload hservice
            | cons f rest =>
                rw [encode_cons, List.append_assoc] at hstream
                have hheader : ProtocolHeader.ofBytes (w.transport.stream.take sizeofProtocolHeader) =
                    f.header := by
                  rw [hstream, Frame.bytes, List.append_assoc,
                    List.take_left' f.header.bytes_length, ProtocolHeader.ofBytes_bytes]
                rw [hheader] at hpayload
                exact Framed.frame hw hframes houtcomes hstream hwhole hpayload hservice

/-- In every run under the condition, each frame gets one outcome, in the order of the stream, and
reading goes on at the next frame. -/
theorem atFrame_of_run {w₀ : World} (hw : w₀.Serving) (houtcomes : w₀.outcomes = [])
    (hstream : w₀.transport.stream = encode frames ++ tail) (htail : Unfinished tail)
    (hrun : Run (World.step cfg) World.FrameReadable w₀ w) : AtFrame frames tail w := by
  have hstart : Framed frames tail w₀ := by
    refine ⟨hw.running, fun _ => hw, [], frames, rfl, ?_, fun _ => hstream⟩
    rw [houtcomes]
    exact .nil
  have hframed := hrun.invariant hstart fun _ _ _ h hreadable hstep => h.step htail hreadable hstep
  exact hframed.position

/-- A frame that is too long, with a message in its payload. -/
def oversized : Frame where
  header := headerOf (UInt32.ofNat (maxPayloadSize + 1)) 0x02
  payload := stopMotion.bytes ++ List.replicate (maxPayloadSize + 1 - sizeofProtocolHeader) 0
  magic := rfl
  length := by
    have hstop : stopMotion.bytes.length = sizeofProtocolHeader := rfl
    have hlength : (headerOf (UInt32.ofNat (maxPayloadSize + 1)) 0x02).payloadLength.toNat =
        maxPayloadSize + 1 := by decide
    have hle : sizeofProtocolHeader ≤ maxPayloadSize := by decide
    rw [List.length_append, hstop, List.length_replicate, hlength]
    omega

/-- A message with another one in its payload. -/
def enveloped : Frame := ⟨headerOf 18 0x02, stopMotion.bytes, rfl, rfl⟩

/-- The payload of the first frame arrives in three pieces and is read; the second frame follows, and the
first byte of a third one. -/
theorem atFrame_enveloped :
    let stream := encode [enveloped, heartbeat] ++ [0x52]
    let w₀ := worldOf { quiet stream with cuts := [.upTo 40, .upTo 4, .wouldBlock, .upTo 6] } []
    let w := World.serve plainConfig plainEnvironment 2 w₀
    AtFrame [enveloped, heartbeat] [0x52] w ∧
      w.outcomes = [.dispatched enveloped.header stopMotion.bytes, .dispatched heartbeat.header []] ∧
      w.shared.ctx.client.connected = true ∧ w.transport.stream = [0x52] := by
  intro stream w₀ w
  have hkeeps : ∀ f ∈ [enveloped, heartbeat], ¬ Rejects plainConfig f.header f.payload := by
    simp [Rejects, enveloped, heartbeat, headerOf, msgRegisterUdpPort]
  have hstream : w₀.transport.stream = enveloped.bytes ++ (heartbeat.bytes ++ [0x52]) := by
    simp [w₀, worldOf, quiet, stream, encode_cons]
  have hserving : w₀.Serving := worldOf_serving _ _
  have hwhole : w₀.transport.WholeWindow 0 := by
    refine ⟨by decide, ?_⟩
    rintro _ ⟨⟩
    exact ⟨40, by decide, rfl⟩
  obtain ⟨w₁, removed₁, hfirst, hremoved₁, hone⟩ : ∃ w₁ removed, w₀.service plainConfig
      plainEnvironment = (some .again, w₁) ∧ (removed = true ↔ _) ∧ Handled _ true removed w₁ :=
    service_frame_completes hserving hwhole hstream (by decide) rfl
  have hstays₁ : removed₁ = false :=
    Bool.eq_false_iff.mpr fun h => hkeeps enveloped (by simp) (hremoved₁.mp h)
  subst hstays₁
  have htransport : w₁.transport = quiet (heartbeat.bytes ++ [0x52]) := hone.transport
  have hserving₁ : w₁.Serving := by
    apply hone.serving _ hone.connected
    exact ⟨hserving.running, hserving.connected, hserving.socket, hserving.listener⟩
  have hwhole₁ : w₁.transport.WholeWindow 0 := by
    rw [htransport]
    refine ⟨by decide, ?_⟩
    intro cut hcut
    cases hcut
  obtain ⟨w₂, removed₂, hsecond, hremoved₂, htwo⟩ : ∃ w₂ removed, w₁.service plainConfig
      plainEnvironment = (some .again, w₂) ∧ (removed = true ↔ _) ∧ Handled _ true removed w₂ :=
    service_frame_completes (f := heartbeat) hserving₁ hwhole₁ (by rw [htransport]; rfl) (by decide)
      (hone.mallocs rfl)
  have hstays₂ : removed₂ = false :=
    Bool.eq_false_iff.mpr fun h => hkeeps heartbeat (by simp) (hremoved₂.mp h)
  subst hstays₂
  have hw : w = w₂ := by
    show World.serve plainConfig plainEnvironment 2 w₀ = _
    rw [World.serve_succ 1 hfirst, World.serve_succ 0 hsecond]
    rfl
  have hread : w₀.FrameReadable (.service plainEnvironment) :=
    fun _ => .inr (.inr ⟨hwhole, .inr ⟨by decide, rfl⟩⟩)
  have hnext : w₁.FrameReadable (.service plainEnvironment) := by
    intro _
    refine .inr (.inr ⟨hwhole₁, .inl ?_⟩)
    rw [htransport]
    decide
  have hrun : Run (World.step plainConfig) World.FrameReadable w₀ w₂ := by
    refine .next (.service plainEnvironment) (.next (.service plainEnvironment) .start hread ?_) hnext ?_
    · rw [World.step, hfirst]
    · rw [World.step, hsecond]
  rw [hw]
  refine ⟨atFrame_of_run hserving rfl rfl ⟨heartbeat, by decide, by decide⟩ hrun, ?_, htwo.connected, ?_⟩
  · rw [htwo.outcomes, World.readFrame_outcomes, hone.outcomes, World.readFrame_outcomes]
    rfl
  · rw [htwo.transport]
    rfl

/-- The payload of one rejected frame is served as another message. -/
theorem oversized_payload_dispatched :
    let w := worldOf (quiet (oversized.bytes.take 36)) []
    w.Serving ∧ w.outcomes = [] ∧
      (World.serve plainConfig plainEnvironment 2 w).outcomes =
        [.rejected oversized.header, .dispatched stopMotion.header stopMotion.payload] := by
  have htake : oversized.bytes.take 36 = oversized.header.bytes ++ stopMotion.bytes := by
    have hlength : (oversized.header.bytes ++ stopMotion.bytes).length = 36 := rfl
    have happend : oversized.bytes = oversized.header.bytes ++ stopMotion.bytes ++
        List.replicate (maxPayloadSize + 1 - sizeofProtocolHeader) 0 := by
      rw [List.append_assoc]
      rfl
    rw [happend]
    exact List.take_left' hlength
  dsimp only
  rw [htake]
  exact ⟨worldOf_serving _ _, rfl, by decide +kernel⟩

end YaskawaComms.Server
