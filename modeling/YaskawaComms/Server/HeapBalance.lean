import YaskawaComms.Framework.HeapUse
import YaskawaComms.Server.Walk
import YaskawaComms.Server.World

/-!
# The heap balance of a round

Which blocks a round of the TCP thread has in its hands: every block that it allocates, or gets from
a callback, is freed once before the round ends, and no other block is freed.
-/

namespace YaskawaComms.Server

open Protocol Program

/-- The blocks of a context, in the order in which they are freed. -/
def ResponseContext.blocks (ctx : ResponseContext) : List Nat :=
  (ctx.payload.map Prod.fst).toList ++ [ctx.headerBlock, ctx.block]

/-- The blocks that a context pointer hands over. -/
def contextBlocks? (ctx : Option ResponseContext) : List Nat := ctx.elim [] ResponseContext.blocks

/-- What the calls do to the heap: an allocation, or the context of a callback, brings new blocks; a
block is freed that is live, and has been got and not been freed since. -/
def heapUse : Monitor serverSignature (HeapUse Nat) where
  good m c := match c with
    | .free block => m.Owes block
    | _ => True
  allowed m c := match c with
    | .malloc _ => fun block => m.Fresh block.toList
    | .handleCommand _ _ | .getErrorInfo => fun ctx => m.Fresh (contextBlocks? ctx)
    | _ => fun _ => True
  next m c := match c with
    | .malloc _ => fun block => m.get block.toList
    | .handleCommand _ _ | .getErrorInfo => fun ctx => m.get (contextBlocks? ctx)
    | .free block => fun _ => m.free block
    | _ => fun _ => m

/-- From these blocks in its hands, the program comes to the ones that go with its result. -/
def Balances {α : Type} (live : Finset Nat) (owned : List Nat) (left : α → List Nat)
    (p : ServerProgram α) : Prop :=
  ∀ m : HeapUse Nat, m.Holds live owned → p.Obeys heapUse (fun a m' => m'.Holds live (left a)) m

section Rules

variable {α β : Type} {live : Finset Nat} {owned : List Nat} {left : α → List Nat}
  {left' : β → List Nat}

theorem balances_pure {a : α} (h : owned = left a) : Balances live owned left (pure a) := by
  intro m hm
  rw [h] at hm
  exact hm

theorem Balances.bind {p : ServerProgram α} {f : α → ServerProgram β} (hp : Balances live owned left p)
    (hf : ∀ a, Balances live (left a) left' (f a)) : Balances live owned left' (p >>= f) :=
  fun m hm => (hp m hm).bind fun a m' hm' => hf a m' hm'

theorem balances_ite {P : Prop} [Decidable P] {p q : ServerProgram α}
    (hp : P → Balances live owned left p) (hq : ¬ P → Balances live owned left q) :
    Balances live owned left (if P then p else q) := by
  split
  · next h => exact hp h
  · next h => exact hq h

/-- The calls that have nothing to do with the heap. -/
def ServerCall.heapless : ServerCall → Bool
  | .malloc _ | .free _ | .handleCommand _ _ | .getErrorInfo => false
  | _ => true

theorem heapUse_passes {c : ServerCall} (hc : c.heapless = true) {I : HeapUse Nat → Prop} :
    Passes heapUse I c := by
  intro m _
  cases c with
  | malloc len => cases hc
  | free block => cases hc
  | handleCommand header payload => cases hc
  | getErrorInfo => cases hc
  | _ => exact ⟨trivial, fun _ => rfl⟩

theorem balances_call {c : ServerCall} (hc : c.heapless = true) {f : c.Result → ServerProgram α}
    (hf : ∀ r, Balances live owned left (f r)) :
    Balances live owned left (Program.call c .ret >>= f) := by
  intro m hm
  obtain ⟨hgood, hkeeps⟩ := heapUse_passes hc (I := fun _ => True) m trivial
  apply obeys_keep hgood hkeeps
  intro r _
  exact hf r m hm

theorem balances_malloc {len : Nat} {f : Option Nat → ServerProgram α}
    (hnone : Balances live owned left (f none))
    (hsome : ∀ block, Balances live (block :: owned) left (f (some block))) :
    Balances live owned left (platformMalloc len >>= f) := by
  intro m hm
  apply obeys_call trivial
  intro r hr
  cases r with
  | none =>
      have hnext := hm.get hr
      exact hnone _ hnext
  | some block =>
      have hnext := hm.get hr
      exact hsome block _ hnext

theorem balances_free {block : Nat} {rest : List Nat} {f : Unit → ServerProgram α}
    (hf : Balances live rest left (f ())) :
    Balances live (block :: rest) left (platformFree block >>= f) := by
  intro m hm
  apply obeys_call hm.owes
  intro _ _
  exact hf _ hm.free

theorem balances_platformFree {block : Nat} {rest : List Nat} :
    Balances live (block :: rest) (fun _ => rest) (platformFree block) := by
  intro m hm
  exact ⟨hm.owes, fun _ _ => hm.free⟩

end Rules

section Responses

variable {α : Type} {live : Finset Nat} {owned : List Nat}

theorem allocateResponseContext_balances (length : UInt32) (type : UInt8) :
    Balances live owned (fun ctx => contextBlocks? ctx ++ owned) (allocateResponseContext length type) := by
  unfold allocateResponseContext
  apply balances_malloc
  · exact balances_pure rfl
  · intro block
    apply balances_malloc
    · apply balances_free
      exact balances_pure rfl
    · intro headerBlock
      apply balances_call rfl
      intro timestamp
      dsimp only
      apply balances_ite
      · intro _
        apply balances_malloc
        · apply balances_free
          apply balances_free
          exact balances_pure rfl
        · intro payload
          exact balances_pure rfl
      · intro _
        exact balances_pure rfl

theorem msgErrResponse_balances (err : ErrorPayload) :
    Balances live owned (fun ctx => contextBlocks? ctx ++ owned) (msgErrResponse err) := by
  unfold msgErrResponse
  apply (allocateResponseContext_balances _ _).bind
  intro ctx
  apply balances_pure
  cases ctx with
  | none => rfl
  | some ctx =>
      simp only [contextBlocks?, Option.map_some, Option.elim_some, ResponseContext.blocks,
        Option.map_map]
      rfl

theorem freeCommandResponseContext_balances (ctx : ResponseContext) :
    Balances live (ctx.blocks ++ owned) (fun _ => owned) (freeCommandResponseContext ctx) := by
  unfold freeCommandResponseContext ResponseContext.blocks
  cases ctx.payload with
  | none =>
      apply balances_free
      exact balances_platformFree
  | some payload =>
      apply balances_free
      apply balances_free
      exact balances_platformFree

theorem sendCommandResponseContext_balances (socket : Int) (ctx : Option ResponseContext) :
    Balances live (contextBlocks? ctx ++ owned) (fun _ => owned)
      (sendCommandResponseContext socket ctx) := by
  cases ctx with
  | none => exact fun _ _ => ⟨trivial, nofun⟩
  | some ctx =>
      have hend : ∀ sent : Int, Balances live (ctx.blocks ++ owned) (fun _ => owned)
          (freeCommandResponseContext ctx >>= fun _ => pure (if (sent - (sizeofProtocolHeader +
            ctx.header.payloadLength.toNat : Nat)) % 2 ^ 64 = 0 then 0 else (-1 : Int))) :=
        fun sent => (freeCommandResponseContext_balances ctx).bind fun _ => balances_pure rfl
      unfold sendCommandResponseContext
      apply balances_call rfl
      intro sent
      split
      · apply balances_ite
        · intro _
          apply balances_call rfl
          intro more
          exact hend _
        · intro _
          exact hend _
      · exact hend _

theorem respond_balances {context : ServerProgram (Option ResponseContext)} {owned' : List Nat}
    (hcontext : Balances live owned' (fun ctx => contextBlocks? ctx ++ owned) context) :
    Balances live owned' (fun _ => owned) (respond context) := by
  unfold respond
  apply balances_call rfl
  intro socket
  apply hcontext.bind
  intro ctx
  exact sendCommandResponseContext_balances socket ctx

theorem respondError_balances (val : Int) :
    Balances live owned (fun _ => owned) (respond (msgErrResponseInt val)) :=
  respond_balances (msgErrResponse_balances _)

theorem respondWith_balances (configured : Bool) {callback : ServerProgram (Option ResponseContext)}
    (hcallback : Balances live owned (fun ctx => contextBlocks? ctx ++ owned) callback) :
    Balances live owned (fun _ => owned) (respondWith configured callback) := by
  have herror : Balances live owned (fun _ => owned)
      (respond (msgErrResponseInt (-1)) >>= fun _ => pure ()) :=
    (respondError_balances (-1)).bind fun _ => balances_pure rfl
  unfold respondWith
  apply balances_ite
  · intro _
    apply hcallback.bind
    intro rsp
    cases rsp with
    | none => exact herror
    | some rsp =>
        have hcontext : Balances live (rsp.blocks ++ owned) (fun ctx => contextBlocks? ctx ++ owned)
            (pure (some rsp)) := balances_pure rfl
        exact (respond_balances hcontext).bind fun _ => balances_pure rfl
  · intro _
    exact herror

theorem handleCommand_balances (header : ProtocolHeader) (payload : List UInt8) :
    Balances live owned (fun ctx => contextBlocks? ctx ++ owned) (handleCommand header payload) :=
  fun _ hm => ⟨trivial, fun _ hfresh => hm.get hfresh⟩

theorem getErrorInfo_balances :
    Balances live owned (fun ctx => contextBlocks? ctx ++ owned) getErrorInfo :=
  fun _ hm => ⟨trivial, fun _ hfresh => hm.get hfresh⟩

end Responses

section Messages

variable {live : Finset Nat} {owned : List Nat}

theorem rejectRegistration_balances (err : ErrorPayload) (payloadBlock : Nat) :
    Balances live (payloadBlock :: owned) (fun _ => owned) (rejectRegistration err payloadBlock) := by
  unfold rejectRegistration
  apply (respond_balances (msgErrResponse_balances err)).bind
  intro _
  apply balances_free
  rw [← bind_pure removeClient]
  apply balances_call rfl
  intro _
  exact balances_pure rfl

theorem handleRegistration_balances (cfg : ServerConfig) (payloadBlock : Nat) (payload : List UInt8) :
    Balances live (payloadBlock :: owned) (fun kept => if kept then payloadBlock :: owned else owned)
      (handleRegistration cfg payloadBlock payload) := by
  have hkept : ∀ {p : ServerProgram Int},
      Balances live (payloadBlock :: owned) (fun _ => payloadBlock :: owned) p →
      Balances live (payloadBlock :: owned) (fun kept => if kept then payloadBlock :: owned else owned)
        (p >>= fun _ => pure true) :=
    fun hp => hp.bind fun _ => balances_pure rfl
  unfold handleRegistration
  apply balances_ite
  · intro _
    exact hkept (respondError_balances (-1))
  · intro _
    split
    · next err _ =>
        apply (rejectRegistration_balances err payloadBlock).bind
        intro _
        exact balances_pure rfl
    · apply balances_ite
      · intro _
        apply balances_call rfl
        intro _
        exact hkept (respond_balances (allocateResponseContext_balances _ _))
      · intro _
        exact hkept (respondError_balances (-1))

theorem handlePayload_balances (cfg : ServerConfig) (header : ProtocolHeader) (payloadBlock : Nat)
    (payload : List UInt8) :
    Balances live (payloadBlock :: owned) (fun _ => owned)
      (handlePayload cfg header payloadBlock payload) := by
  unfold handlePayload
  apply balances_call rfl
  intro now
  apply balances_call rfl
  intro _
  apply balances_ite
  · intro _
    apply (handleRegistration_balances cfg payloadBlock payload).bind
    intro kept
    cases kept with
    | true => exact balances_platformFree
    | false => exact balances_pure rfl
  · intro _
    apply balances_ite
    · intro _
      exact (respondWith_balances _ getErrorInfo_balances).bind fun _ => balances_platformFree
    · intro _
      exact (respondWith_balances _ (handleCommand_balances header payload)).bind fun _ =>
        balances_platformFree

theorem receivePayload_balances (length rounds : Nat) (payload : List UInt8) :
    Balances live owned (fun _ => owned) (receivePayload length rounds payload) := by
  induction rounds generalizing payload with
  | zero => exact balances_pure rfl
  | succ rounds ih =>
      unfold receivePayload
      apply balances_ite
      · intro _
        apply balances_call rfl
        intro fd
        apply balances_call rfl
        intro received
        cases received with
        | none => exact balances_pure rfl
        | some bytes =>
            cases bytes with
            | nil => exact balances_pure rfl
            | cons b rest => exact ih _
      · intro _
        exact balances_pure rfl

theorem handleMessage_balances (cfg : ServerConfig) (header : ProtocolHeader) :
    Balances live owned (fun _ => owned) (handleMessage cfg header) := by
  have hreject : Balances live owned (fun _ => owned) (rejected header >>= fun _ =>
      respond (msgErrResponseInt (-1)) >>= fun _ => pure ()) := by
    apply balances_call rfl
    intro _
    exact (respondError_balances (-1)).bind fun _ => balances_pure rfl
  unfold handleMessage
  apply balances_ite
  · intro _
    apply balances_malloc
    · exact hreject
    · intro payloadBlock
      apply (receivePayload_balances _ _ _).bind
      intro payload
      cases payload with
      | none =>
          apply balances_free
          rw [← bind_pure removeClient]
          apply balances_call rfl
          intro _
          exact balances_pure rfl
      | some payload =>
          apply balances_call rfl
          intro _
          exact handlePayload_balances cfg header payloadBlock payload
  · intro _
    exact hreject

theorem serviceClient_balances (cfg : ServerConfig) :
    Balances live owned (fun _ => owned) (serviceClient cfg) := by
  unfold serviceClient
  apply balances_call rfl
  intro socket
  apply balances_call rfl
  intro result
  dsimp only
  apply balances_ite
  · intro _
    rw [← bind_pure removeClient]
    apply balances_call rfl
    intro _
    exact balances_pure rfl
  · intro _
    apply balances_ite
    · intro _
      exact handleMessage_balances cfg result.2
    · intro _
      exact balances_pure rfl

end Messages

theorem heapUse_rule (cfg : ServerConfig) (live : Finset Nat) :
    LoopRule heapUse (fun m => m.Holds live []) cfg where
  looks c hc := by
    apply heapUse_passes
    cases c <;> first | rfl | cases hc
  accepts := acceptClient_walks (heapUse_passes rfl) (fun _ => heapUse_passes rfl)
    (fun _ _ => heapUse_passes rfl) fun _ => heapUse_passes rfl
  services m hm := (serviceClient_balances cfg m hm).mono fun _ _ h => ⟨h, trivial⟩

theorem tcpThreadFunc_holds (cfg : ServerConfig) (live : Finset Nat) :
    (tcpThreadFunc cfg).Obeys heapUse (fun _ m => m.Holds live []) ⟨live, [], []⟩ :=
  ((heapUse_rule cfg live).tcpThreadFunc (heapUse_passes rfl) (fun _ _ => heapUse_passes rfl) _
    (HeapUse.holds_nothing live)).mono fun _ _ h => h.1

/-- A round that runs to its end has freed every block that it has got exactly once, and no other, and
leaves the live blocks as they were. -/
theorem tcpThreadFunc_balances (cfg : ServerConfig) (live : Finset Nat) :
    (tcpThreadFunc cfg).Obeys heapUse (fun _ m => m.freed.Perm m.got ∧ m.live = live)
      ⟨live, [], []⟩ :=
  (tcpThreadFunc_holds cfg live).mono fun _ _ h => h.settled

/-- The live blocks are different and have old numbers, and nothing else has been freed. -/
structure Heap.Sound (h : Heap) : Prop where
  distinct : h.live.Nodup
  old : ∀ b ∈ h.live, b < h.next
  intact : h.corrupted = false

/-- The heap is sound, and these are its live blocks. -/
def Heap.Agrees (m : HeapUse Nat) (h : Heap) : Prop := h.Sound ∧ m.live = h.live.toFinset

section World

variable {cfg : ServerConfig} {env : Environment} {m : HeapUse Nat} {h : Heap} {w w' : World}

theorem Heap.Agrees.grow (hm : h.Agrees m) (n : Nat) (blocks : List Nat) (hdistinct : blocks.Nodup)
    (hnew : ∀ b ∈ blocks, h.next ≤ b ∧ b < n) (hnext : h.next ≤ n) :
    m.Fresh blocks ∧ Heap.Agrees (m.get blocks) { h with next := n, live := blocks ++ h.live } := by
  obtain ⟨hsound, hlive⟩ := hm
  have hapart : ∀ b ∈ blocks, b ∉ h.live := by
    intro b hb hmem
    have hold := hsound.old b hmem
    have hle := (hnew b hb).1
    omega
  refine ⟨⟨hdistinct, ?_⟩, ⟨?_, ?_, hsound.intact⟩, ?_⟩
  · intro b hb
    rw [hlive, List.mem_toFinset]
    exact hapart b hb
  · exact List.Nodup.append hdistinct hsound.distinct hapart
  · intro b hb
    rcases List.mem_append.mp hb with hb | hb
    · exact (hnew b hb).2
    · exact Nat.lt_of_lt_of_le (hsound.old b hb) hnext
  · rw [HeapUse.get, hlive, List.toFinset_append, Finset.union_comm]

theorem Heap.Agrees.alloc (hm : h.Agrees m) :
    m.Fresh [h.alloc.1] ∧ h.alloc.2.Agrees (m.get [h.alloc.1]) :=
  hm.grow _ [h.next] (List.nodup_singleton _) (by simp) (Nat.le_succ _)

theorem Heap.Agrees.free (hm : h.Agrees m) {block : Nat} (howes : m.Owes block) :
    (h.free block).Agrees (m.free block) := by
  obtain ⟨hsound, hlive⟩ := hm
  have hmem : block ∈ h.live := by
    rw [← List.mem_toFinset, ← hlive]
    exact howes.1
  rw [Heap.free, if_pos hmem]
  refine ⟨⟨hsound.distinct.erase block, ?_, hsound.intact⟩, ?_⟩
  · intro b hb
    exact hsound.old b (List.mem_of_mem_erase hb)
  · ext b
    rw [HeapUse.free, hlive, Finset.mem_erase, List.mem_toFinset, List.mem_toFinset,
      hsound.distinct.mem_erase_iff]

theorem Heap.Agrees.reply {s : Shared} (hm : s.heap.Agrees m) (r : Option Reply) :
    m.Fresh (contextBlocks? (s.reply r).1) ∧
      (s.reply r).2.heap.Agrees (m.get (contextBlocks? (s.reply r).1)) := by
  cases r with
  | none => exact hm.grow _ [] List.nodup_nil (List.forall_mem_nil _) (Nat.le_refl _)
  | some r =>
      cases hpayload : r.payload with
      | none =>
          rw [Shared.reply, hpayload]
          exact hm.grow (s.heap.next + 2) [s.heap.next + 1, s.heap.next] (by simp) (by simp) (by omega)
      | some bytes =>
          rw [Shared.reply, hpayload]
          exact hm.grow (s.heap.next + 3) [s.heap.next + 2, s.heap.next + 1, s.heap.next] (by simp)
            (by simp) (by omega)

/-- The other calls leave the heap alone. -/
theorem perform_heap {a : Answers} {s s' : Shared} {c : ServerCall} {r : c.Result} (hc : c.heapless = true)
    (hperform : s.perform cfg a c = some (r, s')) : s'.heap = s.heap := by
  cases c with
  | addClient socket addr =>
      have hout : (s.addClient cfg socket addr).2 = s' := congrArg Prod.snd (Option.some.inj hperform)
      rw [← hout]
      unfold Shared.addClient
      split <;> rfl
  | removeClient =>
      cases hperform
      unfold Shared.removeClient
      split <;> rfl
  | stopClient =>
      cases hperform
      unfold Shared.stopClient
      split <;> rfl
  | readHeader fd =>
      simp only [Shared.perform] at hperform
      split at hperform <;> cases hperform <;> rfl
  | send fd bytes =>
      simp only [Shared.perform] at hperform
      split at hperform <;> cases hperform <;> rfl
  | nullContext => exact r.elim
  | malloc len => cases hc
  | free block => cases hc
  | handleCommand header payload => cases hc
  | getErrorInfo => cases hc
  | _ =>
      cases hperform
      rfl

theorem handle_heap {c : ServerCall} {r : c.Result} (hc : c.heapless = true)
    (hhandle : w.handle cfg env c = (some r, w')) : w'.shared.heap = w.shared.heap := by
  have hanswer : ∀ a v, w.answer env c = some (a, v) → v.shared = w.shared := by
    intro a v h
    cases c with
    | recv fd len =>
        obtain ⟨_, _, hout⟩ := Option.map_eq_some_iff.mp h
        cases hout
        rfl
    | _ =>
        cases h
        rfl
  unfold World.handle at hhandle
  split at hhandle
  · cases hhandle
  · next a v h =>
      split at hhandle
      · cases hhandle
      · next result shared hperform =>
          cases hhandle
          rw [← hanswer a v h]
          exact perform_heap hc hperform

/-- The world's heap follows the use of it. -/
theorem Heap.Agrees.call {c : ServerCall} {r : c.Result} (hm : w.shared.heap.Agrees m)
    (hgood : heapUse.good m c) (hhandle : w.handle cfg env c = (some r, w')) :
    heapUse.allowed m c r ∧ w'.shared.heap.Agrees (heapUse.next m c r) := by
  cases hc : c.heapless with
  | true =>
      have hheap := handle_heap hc hhandle
      cases c with
      | malloc len => cases hc
      | free block => cases hc
      | handleCommand header payload => cases hc
      | getErrorInfo => cases hc
      | _ =>
          refine ⟨trivial, ?_⟩
          rw [hheap]
          exact hm
  | false =>
      cases c with
      | malloc len =>
          by_cases hnext : w.mallocs.headD true = true
          · simp only [World.handle, World.answer, Shared.perform, hnext, if_true] at hhandle
            cases hhandle
            exact hm.alloc
          · simp only [World.handle, World.answer, Shared.perform, hnext] at hhandle
            cases hhandle
            exact hm.grow _ [] List.nodup_nil (List.forall_mem_nil _) (Nat.le_refl _)
      | free block =>
          cases hhandle
          exact ⟨trivial, hm.free hgood⟩
      | handleCommand header payload =>
          cases hhandle
          exact hm.reply _
      | getErrorInfo =>
          cases hhandle
          exact hm.reply _
      | _ => cases hc

theorem service_heap {round : Round} (hsound : w.shared.heap.Sound)
    (hservice : w.service cfg env = (some round, w')) :
    w'.shared.heap.Sound ∧ w'.shared.heap.live.toFinset = w.shared.heap.live.toFinset := by
  have hcall : ∀ (m : HeapUse Nat) (c : ServerCall) (v : World) (r : c.Result) (v' : World),
      heapUse.good m c → v.shared.heap.Agrees m → v.handle cfg env c = (some r, v') →
      heapUse.allowed m c r ∧ v'.shared.heap.Agrees (heapUse.next m c r) :=
    fun _ _ _ _ _ hgood hm hhandle => hm.call hgood hhandle
  obtain ⟨m, hholds, hagrees⟩ := (tcpThreadFunc_holds cfg w.shared.heap.live.toFinset).exec hcall
    ⟨hsound, rfl⟩ hservice
  exact ⟨hagrees.1, by rw [← hagrees.2, hholds.settled.2]⟩

end World

end YaskawaComms.Server
