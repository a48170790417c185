import YaskawaComms.Server.HeapBalance
import YaskawaComms.Server.Histories

/-!
# The heap of a running server

All threads of a server use one heap. Each has only the blocks of its own round in its hands, so the
heap stays sound in every interleaving, and what is live between rounds is the server alone.
-/

namespace YaskawaComms.Server

open Protocol Program

section Call

variable {cfg : ServerConfig} {a : Answers} {c : ServerCall} {r : c.Result} {s s' : Shared}
  {ι : Type} [DecidableEq ι] {use : ι → HeapUse Nat} {base : Finset Nat} {i : ι}

theorem Heap.Sound.grow (h : s.heap.Sound) (hshares : HeapUse.Shares s.heap.live.toFinset base use)
    (n : Nat) (blocks : List Nat) (hdistinct : blocks.Nodup)
    (hnew : ∀ b ∈ blocks, s.heap.next ≤ b ∧ b < n) (hnext : s.heap.next ≤ n) :
    (use i).Fresh blocks ∧
      Heap.Sound { s.heap with next := n, live := blocks ++ s.heap.live } ∧
      HeapUse.Shares (blocks ++ s.heap.live).toFinset base
        (Function.update use i ((use i).get blocks)) := by
  have hagrees : s.heap.Agrees ⟨s.heap.live.toFinset, [], []⟩ := ⟨h, rfl⟩
  obtain ⟨hfresh, hsound, -⟩ := hagrees.grow n blocks hdistinct hnew hnext
  refine ⟨hshares.fresh hdistinct hfresh.2 i, hsound, ?_⟩
  rw [List.toFinset_append, Finset.union_comm]
  exact hshares.get hfresh.2

theorem Heap.Sound.reply (h : s.heap.Sound) (hshares : HeapUse.Shares s.heap.live.toFinset base use)
    (reply : Option Reply) : (use i).Fresh (contextBlocks? (s.reply reply).1) ∧
      (s.reply reply).2.heap.Sound ∧ HeapUse.Shares (s.reply reply).2.heap.live.toFinset base
        (Function.update use i ((use i).get (contextBlocks? (s.reply reply).1))) := by
  cases reply with
  | none => exact h.grow hshares _ [] List.nodup_nil (List.forall_mem_nil _) (Nat.le_refl _)
  | some reply =>
      cases hpayload : reply.payload with
      | none =>
          rw [Shared.reply, hpayload]
          exact h.grow hshares (s.heap.next + 2) [s.heap.next + 1, s.heap.next] (by simp) (by simp)
            (by omega)
      | some bytes =>
          rw [Shared.reply, hpayload]
          exact h.grow hshares (s.heap.next + 3) [s.heap.next + 2, s.heap.next + 1, s.heap.next]
            (by simp) (by simp) (by omega)

/-- A call of one user of the heap. -/
theorem Heap.Sound.call (h : s.heap.Sound) (hshares : HeapUse.Shares s.heap.live.toFinset base use)
    (hgood : heapUse.good (use i) c) (hperform : s.perform cfg a c = some (r, s')) :
    heapUse.allowed (use i) c r ∧ s'.heap.Sound ∧ HeapUse.Shares s'.heap.live.toFinset base
      (Function.update use i (heapUse.next (use i) c r)) := by
  cases hc : c.heapless with
  | true =>
      rw [perform_heap hc hperform]
      cases c with
      | malloc len => cases hc
      | free block => cases hc
      | handleCommand header payload => cases hc
      | getErrorInfo => cases hc
      | _ =>
          refine ⟨trivial, h, ?_⟩
          show HeapUse.Shares _ _ (Function.update use i (use i))
          rw [Function.update_eq_self]
          exact hshares
  | false =>
      cases c with
      | malloc len =>
          simp only [Shared.perform] at hperform
          split at hperform
          · cases hperform
            exact h.grow hshares _ [s.heap.next] (List.nodup_singleton _) (by simp) (Nat.le_succ _)
          · cases hperform
            exact h.grow hshares _ [] List.nodup_nil (List.forall_mem_nil _) (Nat.le_refl _)
      | free block =>
          cases hperform
          have hmem : block ∈ s.heap.live := List.mem_toFinset.mp (hshares.sub i block hgood.1)
          have hagrees : s.heap.Agrees ⟨s.heap.live.toFinset, [block], []⟩ := ⟨h, rfl⟩
          obtain ⟨hsound, hlive⟩ := hagrees.free ⟨List.mem_toFinset.mpr hmem, by simp⟩
          refine ⟨trivial, hsound, ?_⟩
          rw [← hlive]
          exact hshares.free hgood.1
      | handleCommand header payload =>
          have hout : s.reply a.reply = (r, s') := Option.some.inj hperform
          have hreply := @Heap.Sound.reply _ _ _ _ _ i h hshares a.reply
          rw [hout] at hreply
          exact hreply
      | getErrorInfo =>
          have hout : s.reply a.reply = (r, s') := Option.some.inj hperform
          have hreply := @Heap.Sound.reply _ _ _ _ _ i h hshares a.reply
          rw [hout] at hreply
          exact hreply
      | _ => cases hc

end Call

section Step

variable {cfg : ServerConfig} {s s' : System} {use : Option Nat → HeapUse Nat} {move : Move}

theorem round_balances (cfg : ServerConfig) (function : ThreadFunction) :
    Balances ∅ [] (fun _ => []) (function.round cfg) := by
  cases function with
  | tcp =>
      intro m hm
      exact ((heapUse_rule cfg ∅).tcpThreadFunc (heapUse_passes rfl) (fun _ _ => heapUse_passes rfl) m
        hm).mono fun _ _ h => h.1
  | timeout =>
      show Balances ∅ [] _ timeoutThreadFunc
      unfold timeoutThreadFunc
      apply balances_call rfl
      intro running
      apply balances_ite
      · intro _
        exact balances_pure rfl
      · intro _
        apply balances_call rfl
        intro now
        apply balances_call rfl
        intro idle
        apply balances_ite
        · intro _
          apply balances_call rfl
          intro _
          exact balances_pure rfl
        · intro _
          exact balances_pure rfl

/-- The application makes its calls while it has the server, and frees nothing else. -/
def owning : Monitor serverSignature (HeapUse Nat) where
  good m c := m.Holds ∅ [serverBlock] ∧ (c.heapless = true ∨ c = .free serverBlock)
  allowed _ _ _ := True
  next := heapUse.next

theorem heapless_of_operating {c : ServerCall} (h : operating.good () c) : c.heapless = true := by
  cases c with
  | malloc len => exact h.elim
  | free block => exact h.elim
  | handleCommand header payload => exact h.elim
  | getErrorInfo => exact h.elim
  | _ => rfl

theorem owning_of_operating {α : Type} {p : ServerProgram α} {m : HeapUse Nat}
    (hp : p.Obeys operating (fun _ _ => True) ()) (hm : m.Holds ∅ [serverBlock]) :
    p.Obeys owning (fun _ m' => m' = m) m := by
  induction p with
  | ret a => rfl
  | call c next ih =>
      have hheapless := heapless_of_operating hp.1
      have hpass := heapUse_passes hheapless (I := fun _ => True) m trivial
      refine ⟨⟨hm, Or.inl hheapless⟩, fun r _ => ?_⟩
      rw [show owning.next m c r = m from hpass.2 r]
      exact ih r (hp.2 r trivial)

/-- The blocks in the hands of the application, between two calls of its interface. -/
def ownBlocks (alive : Bool) : List Nat := if alive then [serverBlock] else []

theorem Job.code_owning (cfg : ServerConfig) (job : Job) {m : HeapUse Nat}
    (hm : m.Holds ∅ [serverBlock]) :
    (job.code cfg).Obeys owning (fun _ m' => m'.Holds ∅ (ownBlocks (job ≠ .destroy))) m := by
  have hstop := owning_of_operating robotProtocolStop_obeys hm
  cases job with
  | start =>
      apply (owning_of_operating (robotProtocolStart_obeys cfg) hm).bind
      rintro _ _ rfl
      exact hm
  | stop =>
      apply hstop.mono
      rintro _ _ rfl
      exact hm
  | destroy =>
      apply hstop.bind
      rintro _ _ rfl
      exact ⟨⟨hm, Or.inl rfl⟩, fun _ _ => ⟨⟨hm, Or.inr rfl⟩, fun _ _ => hm.free⟩⟩

/-- The application has the server, and each thread has the blocks of its round. -/
structure Divided (s : System) (use : Option Nat → HeapUse Nat) : Prop where
  sound : s.shared.heap.Sound
  shares : HeapUse.Shares s.shared.heap.live.toFinset ∅ use
  app : s.app.Obeys owning (fun _ m => m.Holds ∅ (ownBlocks s.alive)) (use none)
  code : ∀ (j : Nat) w, s.workers[j]? = some w →
    w.code.Obeys heapUse (fun _ m => m.Holds ∅ []) (use (some j))
  absent : ∀ j, s.workers[j]? = none → use (some j) = ⟨∅, [], []⟩

/-- The application has created the server. -/
def createdUse : Option Nat → HeapUse Nat
  | none => ⟨{serverBlock}, [serverBlock], []⟩
  | some _ => ⟨∅, [], []⟩

theorem divided_created : Divided System.created createdUse := by
  have hlive : System.created.shared.heap.live.toFinset = (createdUse none).live := rfl
  refine ⟨⟨by decide, by decide, rfl⟩, ⟨?_, ?_, ?_⟩, ?_, nofun, fun _ _ => rfl⟩
  · rintro (_ | i) (_ | j) hij
    · exact absurd rfl hij
    · exact Finset.disjoint_empty_right _
    · exact Finset.disjoint_empty_left _
    · exact Finset.disjoint_empty_left _
  · intro i
    exact Finset.disjoint_empty_left _
  · intro b
    rw [hlive]
    constructor
    · intro hb
      exact Or.inr ⟨none, hb⟩
    · rintro (hb | ⟨_ | j, hj⟩)
      · cases hb
      · exact hj
      · cases hj
  · exact ⟨List.nodup_singleton _, fun _ _ => Finset.notMem_empty _, rfl, List.Perm.refl _⟩

theorem Divided.app_next {c : ServerCall} {next : c.Result → ServerProgram Unit} (h : Divided s use)
    (happ : s.app = .call c next) : owning.good (use none) c ∧
      ∀ r, (next r).Obeys owning (fun _ m => m.Holds ∅ (ownBlocks s.alive))
        (heapUse.next (use none) c r) := by
  have hobeys := h.app
  rw [happ] at hobeys
  exact ⟨hobeys.1, fun r => hobeys.2 r trivial⟩

theorem Divided.applies {app : ServerProgram Unit} {alive : Bool} (h : Divided s use)
    (happ : app.Obeys owning (fun _ m => m.Holds ∅ (ownBlocks alive)) (use none)) :
    Divided { s with app := app, alive := alive } use :=
  ⟨h.sound, h.shares, happ, h.code, h.absent⟩

theorem Divided.created (cfg : ServerConfig) (function : ThreadFunction) (h : Divided s use) :
    Divided { s with workers := s.workers ++ [.fresh cfg function] } use := by
  refine ⟨h.sound, h.shares, h.app, ?_, ?_⟩
  · intro j w hw
    rcases System.worker_of_append hw with hold | ⟨hnew, rfl⟩
    · exact h.code j w hold
    · rw [h.absent j hnew]
      exact round_balances cfg function _ (HeapUse.holds_nothing ∅)
  · intro j hj
    apply h.absent j
    rw [List.getElem?_eq_none_iff] at hj ⊢
    rw [List.length_append] at hj
    omega

theorem Divided.between {j : Nat} {w : Worker} {round : Round} (h : Divided s use)
    (hw : s.workers[j]? = some w) (hcode : w.code = .ret round) : (use (some j)).live = ∅ := by
  have hholds := h.code j w hw
  rw [hcode] at hholds
  exact hholds.settled.2

/-- The server can be used, or is still being destroyed. -/
def System.Exists (s : System) : Prop := s.alive = true ∨ s.app ≠ .ret ()

theorem Divided.server (h : Divided s use) :
    (s.Exists → (use none).live = {serverBlock}) ∧ (¬ s.Exists → (use none).live = ∅) := by
  have hobeys := h.app
  cases happ : s.app with
  | ret u =>
      rw [happ] at hobeys
      have hholds : (use none).live = ∅ ∪ (ownBlocks s.alive).toFinset := hobeys.live
      rw [hholds]
      constructor
      · rintro (halive | hbusy)
        · rw [halive]
          rfl
        · exact absurd happ hbusy
      · intro hnone
        rw [Bool.eq_false_iff.mpr fun halive => hnone (Or.inl halive)]
        rfl
  | call c next =>
      rw [happ] at hobeys
      have hholds : (use none).live = ∅ ∪ [serverBlock].toFinset := hobeys.1.1.live
      refine ⟨fun _ => hholds, fun hnone => ?_⟩
      exact absurd (Or.inr fun hidle => by rw [happ] at hidle; cases hidle) hnone

theorem Divided.job {job : Job} {u : Unit} (h : Divided s use) (hidle : s.app = .ret u)
    (halive : s.alive = true) :
    Divided { s with app := job.code cfg, alive := job ≠ .destroy } use := by
  have hholds := h.app
  rw [hidle, halive] at hholds
  exact h.applies (job.code_owning cfg hholds)

theorem Divided.application {a : Answers} {c : ServerCall} {next : c.Result → ServerProgram Unit}
    {r : c.Result} {shared : Shared} (h : Divided s use) (happ : s.app = .call c next)
    (hperform : s.shared.perform cfg a c = some (r, shared)) :
    Divided { s with app := next r, shared := shared }
      (Function.update use none (heapUse.next (use none) c r)) := by
  obtain ⟨⟨hholds, hcall⟩, hnext⟩ := h.app_next happ
  have hgood : heapUse.good (use none) c := by
    rcases hcall with hheapless | rfl
    · exact (heapUse_passes hheapless (I := fun _ => True) _ trivial).1
    · exact hholds.owes
  obtain ⟨-, hsound, hshares⟩ := h.sound.call h.shares hgood hperform
  refine ⟨hsound, hshares, ?_, ?_, ?_⟩
  · rw [Function.update_self]
    exact hnext r
  · intro j w hw
    rw [Function.update_of_ne (Option.some_ne_none j)]
    exact h.code j w hw
  · intro j hj
    rw [Function.update_of_ne (Option.some_ne_none j)]
    exact h.absent j hj

theorem Divided.replace {index : Nat} {w w' : Worker} {shared : Shared} {m : HeapUse Nat}
    (h : Divided s use) (hworker : s.workers[index]? = some w) (hsound : shared.heap.Sound)
    (hshares : HeapUse.Shares shared.heap.live.toFinset ∅ (Function.update use (some index) m))
    (hcode : w'.code.Obeys heapUse (fun _ m => m.Holds ∅ []) m) :
    Divided { s with workers := s.workers.set index w', shared := shared }
      (Function.update use (some index) m) := by
  refine ⟨hsound, hshares, ?_, ?_, ?_⟩
  · rw [Function.update_of_ne (Option.some_ne_none index).symm]
    exact h.app
  · intro j v hv
    rcases System.worker_of_set hv with ⟨rfl, rfl⟩ | ⟨hne, hold⟩
    · rw [Function.update_self]
      exact hcode
    · rw [Function.update_of_ne (by simpa using hne)]
      exact h.code j v hold
  · intro j hj
    rw [List.getElem?_eq_none_iff, List.length_set, ← List.getElem?_eq_none_iff] at hj
    have hne : j ≠ index := by
      rintro rfl
      rw [hworker] at hj
      cases hj
    rw [Function.update_of_ne (by simpa using hne)]
    exact h.absent j hj

theorem divided_step (h : Divided s use) (hstep : s.step cfg move = some s') :
    ∃ use', Divided s' use' := by
  have hmakes := System.makes_of_step hstep
  generalize s.called cfg move = made at hmakes
  cases hmakes with
  | job hidle halive => exact ⟨use, h.job hidle halive⟩
  | @created a function next happ =>
      have hcreated := h.created cfg function
      exact ⟨use, hcreated.applies ((h.app_next happ).2 _)⟩
  | notCreated left happ => exact ⟨use, h.applies ((h.app_next happ).2 _)⟩
  | joined happ hfinished => exact ⟨use, h.applies ((h.app_next happ).2 ())⟩
  | app happ hthread hperform => exact ⟨_, h.application happ hperform⟩
  | @again index a w hworker hcode =>
      have hobeys := h.code index w hworker
      rw [hcode] at hobeys
      refine ⟨_, h.replace (m := use (some index)) hworker h.sound ?_
        (round_balances cfg w.function _ hobeys)⟩
      rw [Function.update_eq_self]
      exact h.shares
  | worker hworker hcode hperform =>
      have hobeys := h.code _ _ hworker
      rw [hcode] at hobeys
      obtain ⟨hallowed, hsound, hshares⟩ := h.sound.call h.shares hobeys.1 hperform
      exact ⟨_, h.replace hworker hsound hshares (hobeys.2 _ hallowed)⟩
  | reading hworker hcode => exact ⟨use, h⟩
  | tick ms => exact ⟨use, h.sound, h.shares, h.app, h.code, h.absent⟩

/-- In every interleaving of the application and the threads, no block is freed twice or without having
been allocated, and the server is allocated as long as it exists: until the last call of a destroy.
Whenever no thread is inside a round, in particular once all threads have ended, nothing else is. -/
theorem heap_of_run (hrun : Run (System.step cfg) (fun _ _ => True) System.created s) :
    s.shared.heap.Sound ∧ (s.Exists → serverBlock ∈ s.shared.heap.live) ∧
      ((∀ w ∈ s.workers, w.code.value ≠ none) →
        (s.Exists → s.shared.heap.live = [serverBlock]) ∧ (¬ s.Exists → s.shared.heap.live = [])) := by
  have hinvariant : ∃ use, Divided s use := by
    apply hrun.invariant ⟨_, divided_created⟩
    rintro s move s' ⟨use, h⟩ - hstep
    exact divided_step h hstep
  obtain ⟨use, h⟩ := hinvariant
  obtain ⟨hexists, hgone⟩ := h.server
  refine ⟨h.sound, fun hserver => ?_, fun hbetween => ?_⟩
  · rw [← List.mem_toFinset, h.shares.whole]
    exact Or.inr ⟨none, by rw [hexists hserver]; exact Finset.mem_singleton_self _⟩
  -- without blocks of the threads, the heap is what the application has
  have hwhole : s.shared.heap.live.toFinset = (use none).live := by
    ext b
    rw [h.shares.whole]
    constructor
    · rintro (hb | ⟨_ | j, hj⟩)
      · cases hb
      · exact hj
      · cases hw : s.workers[j]? with
        | none =>
            rw [h.absent j hw] at hj
            cases hj
        | some w =>
            have hvalue := hbetween w (List.mem_of_getElem? hw)
            obtain ⟨round, hround⟩ := Option.ne_none_iff_exists'.mp hvalue
            rw [h.between hw (value_eq_some.mp hround)] at hj
            cases hj
    · intro hb
      exact Or.inr ⟨none, hb⟩
  have hperm : ∀ blocks : List Nat, blocks.Nodup → (use none).live = blocks.toFinset →
      s.shared.heap.live.Perm blocks := by
    intro blocks hdistinct hblocks
    exact List.perm_of_nodup_nodup_toFinset_eq h.sound.distinct hdistinct (hwhole.trans hblocks)
  constructor
  · intro hserver
    exact List.perm_singleton.mp (hperm [serverBlock] (List.nodup_singleton _) (hexists hserver))
  · intro hnone
    exact (hperm [] List.nodup_nil (hgone hnone)).eq_nil

end Step

/-- A client is accepted and disconnects, and the server is stopped, and then destroyed. -/
theorem heap_of_run_serving :
    (∃ s : System, s.shared.generation = 1 ∧ s.workers.length = 2 ∧ s.alive = true ∧
      s.shared.heap.live = [serverBlock]) ∧
    ∃ s : System, s.shared.generation = 1 ∧ s.workers.length = 2 ∧ s.alive = false ∧
      s.shared.heap.live = [] := by
  constructor
  · obtain ⟨s, hrun, hend⟩ := Run.exists_of_follow (fun (_ : System) _ => true)
      (startMoves ++ acceptMoves ++ closeMoves ++ stopMoves)
      (fun s : System => decide (s.shared.generation = 1) && decide (s.workers.length = 2) && s.alive &&
        s.workers.all fun w => w.code.value.isSome)
      (fun _ _ _ => trivial)
      (by decide +kernel : (Run.follow (System.step plainConfig) _ _ System.created).any _ = true)
    simp only [Bool.and_eq_true, decide_eq_true_eq, List.all_eq_true, Option.isSome_iff_ne_none] at hend
    obtain ⟨⟨⟨hclient, hthreads⟩, halive⟩, hbetween⟩ := hend
    obtain ⟨hserver, -⟩ := (heap_of_run hrun).2.2 hbetween
    exact ⟨s, hclient, hthreads, halive, hserver (Or.inl halive)⟩
  · obtain ⟨s, hrun, hend⟩ := Run.exists_of_follow (fun (_ : System) _ => true)
      (startMoves ++ acceptMoves ++ closeMoves ++ stopMoves ++ .job .destroy ::
        List.replicate 9 (.app {}))
      (fun s : System => decide (s.shared.generation = 1) && decide (s.workers.length = 2) &&
        !s.alive && decide (s.app.value = some ()) && s.workers.all fun w => w.code.value.isSome)
      (fun _ _ _ => trivial)
      (by decide +kernel : (Run.follow (System.step plainConfig) _ _ System.created).any _ = true)
    simp only [Bool.and_eq_true, decide_eq_true_eq, Bool.not_eq_true', List.all_eq_true,
      Option.isSome_iff_ne_none] at hend
    obtain ⟨⟨⟨⟨hclient, hthreads⟩, halive⟩, hidle⟩, hbetween⟩ := hend
    obtain ⟨-, hnone⟩ := (heap_of_run hrun).2.2 hbetween
    refine ⟨s, hclient, hthreads, halive, hnone ?_⟩
    rintro (hstill | hbusy)
    · rw [halive] at hstill
      cases hstill
    · exact hbusy (value_eq_some.mp hidle)

end YaskawaComms.Server
