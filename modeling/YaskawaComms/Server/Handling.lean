import YaskawaComms.Server.Service

/-!
# Handling a message

What the code that runs once a header has been read can do: it uses the client's socket and record
only until it removes the client, and it removes the client exactly when a payload cannot be read
or a registration is rejected.
-/

namespace YaskawaComms.Server

open Protocol Program

/-- The calls of handling a message from the client on `socket`. The state tells whether the client
has been removed. `reading` covers the time before the message is complete; when allocations are
`reliable`, no response is missing. -/
def handling (reliable reading : Bool) (socket : Int) : Monitor serverSignature Bool where
  good removed c := match c with
    | .load _ | .loadSocket | .removeClient | .time | .getTimestampMs | .malloc _ | .free _ | .handleCommand _ _
    | .getErrorInfo => True
    | .storeLastCommand _ | .registerUdpPort _ => removed = false
    | .send fd _ => fd = socket ∧ removed = false
    | .recv fd _ => reading = true ∧ fd = socket ∧ removed = false
    | .dispatched _ _ | .rejected _ => reading = true
    | .nullContext => reliable = false
    | _ => False
  allowed removed c := match c with
    | .malloc _ => fun r => reliable = true → r ≠ none
    | .loadSocket => fun r => removed = false → r = socket
    | _ => fun _ => True
  next removed c _ := match c with
    | .removeClient => true
    | _ => removed

/-- The registration of a message that the version policy rejects. -/
def Rejects (cfg : ServerConfig) (header : ProtocolHeader) (payload : List UInt8) : Prop :=
  header.messageType = msgRegisterUdpPort ∧
    sizeofUdpPortRegistrationPayload ≤ payload.length ∧
    versionError cfg.versionMismatch payload ≠ none

/-- The payload of a registration that is answered with `MSG_OK`. -/
def RegistersPort (cfg : ServerConfig) (payload : List UInt8) : Prop :=
  sizeofUdpPortRegistrationPayload ≤ payload.length ∧
    versionError cfg.versionMismatch payload = none ∧ 0 < udpPort payload

instance (cfg : ServerConfig) (header : ProtocolHeader) (payload : List UInt8) :
    Decidable (Rejects cfg header payload) :=
  inferInstanceAs (Decidable (_ ∧ _ ∧ ¬ _))

instance (cfg : ServerConfig) (payload : List UInt8) : Decidable (RegistersPort cfg payload) :=
  inferInstanceAs (Decidable (_ ∧ _ ∧ _))

section Responses

variable {α : Type} {reliable reading removed : Bool} {socket : Int}

/-- A context that is there when allocations are reliable. -/
def Present (reliable removed : Bool) (ctx : Option ResponseContext) (m : Bool) : Prop :=
  m = removed ∧ (reliable = true → ctx ≠ none)

theorem allocateResponseContext_obeys (length : UInt32) (type : UInt8) :
    (allocateResponseContext length type).Obeys (handling reliable reading socket)
      (Present reliable removed) removed := by
  unfold allocateResponseContext
  apply obeys_keep trivial (fun _ => rfl)
  intro block hblock
  cases block with
  | none => exact ⟨rfl, fun h => absurd rfl (hblock h)⟩
  | some block =>
      apply obeys_keep trivial (fun _ => rfl)
      intro headerBlock hheader
      cases headerBlock with
      | none =>
          apply obeys_keep trivial (fun _ => rfl)
          intro _ _
          exact ⟨rfl, fun h => absurd rfl (hheader h)⟩
      | some headerBlock =>
          apply obeys_keep trivial (fun _ => rfl)
          intro timestamp _
          dsimp only
          split
          · apply obeys_keep trivial (fun _ => rfl)
            intro payload hpayload
            cases payload with
            | none =>
                apply obeys_keep trivial (fun _ => rfl)
                intro _ _
                apply obeys_keep trivial (fun _ => rfl)
                intro _ _
                exact ⟨rfl, fun h => absurd rfl (hpayload h)⟩
            | some payload => exact ⟨rfl, fun _ => nofun⟩
          · exact ⟨rfl, fun _ => nofun⟩

theorem msgErrResponse_obeys (err : ErrorPayload) :
    (msgErrResponse err).Obeys (handling reliable reading socket) (Present reliable removed)
      removed := by
  unfold msgErrResponse
  apply (allocateResponseContext_obeys _ _).bind
  intro ctx m hctx
  refine ⟨hctx.1, fun h => ?_⟩
  simpa using hctx.2 h

theorem freeCommandResponseContext_obeys (ctx : ResponseContext) :
    (freeCommandResponseContext ctx).Obeys (handling reliable reading socket)
      (fun _ m => m = removed) removed := by
  have hblocks : (platformFree ctx.headerBlock >>= fun _ => platformFree ctx.block).Obeys
      (handling reliable reading socket) (fun _ m => m = removed) removed := by
    apply obeys_keep trivial (fun _ => rfl)
    intro _ _
    exact ⟨trivial, fun _ _ => rfl⟩
  unfold freeCommandResponseContext
  cases ctx.payload with
  | none => exact hblocks
  | some payload =>
      apply obeys_keep trivial (fun _ => rfl)
      intro _ _
      exact hblocks

theorem sendCommandResponseContext_obeys {ctx : Option ResponseContext}
    (hctx : reliable = true → ctx ≠ none) :
    (sendCommandResponseContext socket ctx).Obeys (handling reliable reading socket)
      (fun _ m => m = false) false := by
  cases ctx with
  | none =>
      refine ⟨?_, nofun⟩
      cases reliable with
      | false => rfl
      | true => exact absurd rfl (hctx rfl)
  | some ctx =>
      have hfree : ∀ sent : Int, (freeCommandResponseContext ctx >>= fun _ =>
          pure (if (sent - (sizeofProtocolHeader + ctx.header.payloadLength.toNat : Nat)) % 2 ^ 64 = 0
            then 0 else (-1 : Int))).Obeys (handling reliable reading socket)
          (fun _ m => m = false) false := by
        intro sent
        apply (freeCommandResponseContext_obeys ctx).bind
        intro _ m hm
        exact hm
      unfold sendCommandResponseContext
      refine obeys_keep ⟨rfl, rfl⟩ (fun _ => rfl) ?_
      intro sent _
      split
      · split
        · refine obeys_keep ⟨rfl, rfl⟩ (fun _ => rfl) ?_
          intro more _
          exact hfree _
        · exact hfree _
      · exact hfree _

theorem respond_obeys {context : ServerProgram (Option ResponseContext)}
    (hcontext : context.Obeys (handling reliable reading socket) (Present reliable false) false) :
    (respond context).Obeys (handling reliable reading socket) (fun _ m => m = false) false := by
  unfold respond
  apply obeys_keep trivial (fun _ => rfl)
  intro fd hfd
  obtain rfl : fd = socket := hfd rfl
  apply hcontext.bind
  intro ctx m hctx
  rw [hctx.1]
  exact sendCommandResponseContext_obeys hctx.2

theorem respondError_obeys (val : Int) :
    (respond (msgErrResponseInt val)).Obeys (handling reliable reading socket)
      (fun _ m => m = false) false :=
  respond_obeys (msgErrResponse_obeys _)

end Responses

section Message

variable {reliable reading : Bool} {socket : Int}

theorem rejectRegistration_obeys (err : ErrorPayload) (payloadBlock : Nat) :
    (rejectRegistration err payloadBlock).Obeys (handling reliable reading socket)
      (fun _ m => m = true) false := by
  unfold rejectRegistration
  apply (respond_obeys (msgErrResponse_obeys err)).bind
  intro _ m hm
  rw [hm]
  apply obeys_keep trivial (fun _ => rfl)
  intro _ _
  exact ⟨trivial, fun _ _ => rfl⟩

/-- The client has been removed exactly when the payload has been freed already. -/
theorem handleRegistration_obeys (cfg : ServerConfig) (payloadBlock : Nat) (payload : List UInt8) :
    (handleRegistration cfg payloadBlock payload).Obeys (handling reliable reading socket)
      (fun kept m => m = !kept ∧ (m = true ↔ sizeofUdpPortRegistrationPayload ≤ payload.length ∧
        versionError cfg.versionMismatch payload ≠ none)) false := by
  have hkept : ∀ {α : Type} {p : ServerProgram α},
      p.Obeys (handling reliable reading socket) (fun _ m => m = false) false →
      ¬ (sizeofUdpPortRegistrationPayload ≤ payload.length ∧
        versionError cfg.versionMismatch payload ≠ none) →
      (p >>= fun _ => pure true).Obeys (handling reliable reading socket)
        (fun kept m => m = !kept ∧ (m = true ↔ sizeofUdpPortRegistrationPayload ≤ payload.length ∧
          versionError cfg.versionMismatch payload ≠ none)) false := by
    intro α p hp hno
    apply hp.bind
    intro _ m hm
    rw [hm]
    exact ⟨rfl, iff_of_false Bool.false_ne_true hno⟩
  unfold handleRegistration
  split
  · next hshort =>
      apply hkept (respondError_obeys (-1))
      intro hlong
      omega
  · next hlong =>
      split
      · next err herr =>
          apply (rejectRegistration_obeys err payloadBlock).bind
          intro _ m hm
          rw [hm]
          exact ⟨rfl, iff_of_true rfl ⟨by omega, by simp [herr]⟩⟩
      · next herr =>
          have hno : ¬ (sizeofUdpPortRegistrationPayload ≤ payload.length ∧
              versionError cfg.versionMismatch payload ≠ none) := by
            intro h
            obtain ⟨err, hsome⟩ := Option.ne_none_iff_exists'.mp h.2
            exact herr err hsome
          split
          · apply obeys_keep rfl (fun _ => rfl)
            intro _ _
            exact hkept (respond_obeys (allocateResponseContext_obeys _ _)) hno
          · exact hkept (respondError_obeys (-1)) hno

theorem respondWith_obeys (configured : Bool) {callback : ServerProgram (Option ResponseContext)}
    (hcallback : callback.Obeys (handling reliable reading socket) (fun _ m => m = false) false) :
    (respondWith configured callback).Obeys (handling reliable reading socket)
      (fun _ m => m = false) false := by
  have herror : (respond (msgErrResponseInt (-1)) >>= fun _ => pure ()).Obeys
      (handling reliable reading socket) (fun _ m => m = false) false :=
    (respondError_obeys (-1)).bind fun _ _ hm => hm
  unfold respondWith
  split
  · apply hcallback.bind
    intro rsp m hm
    rw [hm]
    cases rsp with
    | none => exact herror
    | some rsp =>
        have hpresent : (pure (some rsp) : ServerProgram (Option ResponseContext)).Obeys
            (handling reliable reading socket) (Present reliable false) false :=
          ⟨rfl, fun _ => nofun⟩
        exact (respond_obeys hpresent).bind fun _ _ hm => hm
  · exact herror

/-- Handling a complete message removes the client exactly when it rejects a registration. -/
theorem handlePayload_obeys (cfg : ServerConfig) (header : ProtocolHeader) (payloadBlock : Nat)
    (payload : List UInt8) :
    (handlePayload cfg header payloadBlock payload).Obeys (handling reliable reading socket)
      (fun _ m => m = true ↔ Rejects cfg header payload) false := by
  unfold handlePayload
  apply obeys_keep trivial (fun _ => rfl)
  intro now _
  apply obeys_keep rfl (fun _ => rfl)
  intro _ _
  split
  · next htype =>
      apply (handleRegistration_obeys cfg payloadBlock payload).bind
      intro kept m hm
      have hrejects : m = true ↔ Rejects cfg header payload := by
        rw [hm.2, Rejects]
        exact (and_iff_right htype).symm
      split
      · exact ⟨trivial, fun _ _ => hrejects⟩
      · exact hrejects
  · next htype =>
      have hrejects : false = true ↔ Rejects cfg header payload :=
        iff_of_false Bool.false_ne_true fun h => htype h.1
      have hfree : ∀ m, m = false → (platformFree payloadBlock).Obeys
          (handling reliable reading socket) (fun _ m => m = true ↔ Rejects cfg header payload) m := by
        intro m hm
        rw [hm]
        exact ⟨trivial, fun _ _ => hrejects⟩
      split
      · have hcallback : getErrorInfo.Obeys (handling reliable reading socket)
            (fun _ m => m = false) false := ⟨trivial, fun _ _ => rfl⟩
        exact (respondWith_obeys _ hcallback).bind fun _ => hfree
      · have hcallback : (handleCommand header payload).Obeys (handling reliable reading socket)
            (fun _ m => m = false) false := ⟨trivial, fun _ _ => rfl⟩
        exact (respondWith_obeys _ hcallback).bind fun _ => hfree

theorem receivePayload_obeys (length rounds : Nat) (payload : List UInt8) :
    (receivePayload length rounds payload).Obeys (handling reliable true socket)
      (fun _ m => m = false) false := by
  induction rounds generalizing payload with
  | zero => rfl
  | succ rounds ih =>
      unfold receivePayload
      split
      · apply obeys_keep trivial (fun _ => rfl)
        intro fd hfd
        obtain rfl : fd = socket := hfd rfl
        refine obeys_keep ⟨rfl, rfl, rfl⟩ (fun _ => rfl) ?_
        intro received _
        split
        · rfl
        · rfl
        · exact ih _
      · rfl

theorem handleMessage_obeys (cfg : ServerConfig) (header : ProtocolHeader) :
    (handleMessage cfg header).Obeys (handling false true socket) (fun _ _ => True) false := by
  have hreject : (rejected header >>= fun _ => respond (msgErrResponseInt (-1)) >>= fun _ =>
      pure ()).Obeys (handling false true socket) (fun _ _ => True) false := by
    apply obeys_keep rfl (fun _ => rfl)
    intro _ _
    exact (respondError_obeys (-1)).bind fun _ _ _ => trivial
  unfold handleMessage
  split
  · apply obeys_keep trivial (fun _ => rfl)
    intro block _
    cases block with
    | none => exact hreject
    | some payloadBlock =>
        apply (receivePayload_obeys _ _ _).bind
        intro payload m hm
        rw [hm]
        cases payload with
        | none =>
            apply obeys_keep trivial (fun _ => rfl)
            intro _ _
            exact ⟨trivial, fun _ _ => trivial⟩
        | some payload =>
            apply obeys_keep rfl (fun _ => rfl)
            intro _ _
            exact (handlePayload_obeys cfg header payloadBlock payload).mono fun _ _ _ => trivial
  · exact hreject

end Message

end YaskawaComms.Server
