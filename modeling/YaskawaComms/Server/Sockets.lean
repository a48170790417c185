import YaskawaComms.Server.Ledger
import YaskawaComms.Server.Walk

/-!
# Who closes what

The application shuts down and closes the sockets that it has opened, and a thread closes what it has
accepted unless it gives it to the client's record.
-/

namespace YaskawaComms.Server

open Protocol Program

section Application

/-- What the application knows: the fields of the context, which only it writes, and its sockets. -/
structure Holdings where
  ctx : ServerCtx
  held : Finset Int

/-- The application shuts down and closes the sockets that it has. -/
def holding : Monitor serverSignature Holdings where
  good m c := match c with
    | .load _ | .store _ _ | .socket | .bind _ _ | .listen _ | .pthreadCreate _ | .pthreadJoin _
    | .stopClient | .lockDestroy | .free _ => True
    | .shutdown fd | .close fd => fd ∈ m.held
    | _ => False
  allowed m c := match c with
    | .load field => fun value => value = m.ctx.get field
    | .socket => fun fd => fd ∉ m.held
    | _ => fun _ => True
  next m c := match c with
    | .store field value => fun _ => { m with ctx := m.ctx.set value field }
    | .socket => fun fd => if 0 ≤ fd then { m with held := insert fd m.held } else m
    | .close fd => fun _ => { m with held := m.held.erase fd }
    | _ => fun _ => m

/-- Between two calls of the interface: a running server has its two sockets and one that is not
running has none. -/
structure Holdings.Settled (m : Holdings) : Prop where
  stopped : m.ctx.running = 0 → m.held = ∅
  running : m.ctx.running ≠ 0 → 0 ≤ m.ctx.tcpSocket ∧ 0 ≤ m.ctx.udpSocket ∧
    m.ctx.tcpSocket ≠ m.ctx.udpSocket ∧ m.held = {m.ctx.tcpSocket, m.ctx.udpSocket}

variable {α : Type} {post : α → Holdings → Prop} {m : Holdings}

theorem holding_load {field : CtxField} {f : Int → ServerProgram α}
    (h : (f (m.ctx.get field)).Obeys holding post m) : (load field >>= f).Obeys holding post m := by
  apply obeys_keep trivial (fun _ => rfl)
  rintro _ rfl
  exact h

theorem holding_store {field : CtxField} {value : Int} {f : Unit → ServerProgram α}
    (h : (f ()).Obeys holding post { m with ctx := m.ctx.set value field }) :
    (store field value >>= f).Obeys holding post m :=
  ⟨trivial, fun _ _ => h⟩

theorem holding_close {fd : Int} {f : Unit → ServerProgram α} (hfd : fd ∈ m.held)
    (h : (f ()).Obeys holding post { m with held := m.held.erase fd }) :
    (platformClose fd >>= f).Obeys holding post m :=
  ⟨hfd, fun _ _ => h⟩

theorem holding_socket {field : CtxField} {f g : ServerProgram α} (hfield : field = .tcpSocket ∨ field = .udpSocket)
    (hfailed : ∀ fd < 0, f.Obeys holding post { m with ctx := m.ctx.set fd field })
    (hopened : ∀ fd, 0 ≤ fd → fd ∉ m.held →
      g.Obeys holding post ⟨m.ctx.set fd field, insert fd m.held⟩) :
    (platformSocket >>= fun fd => store field fd >>= fun _ => load field >>= fun fd =>
      if fd < 0 then f else g).Obeys holding post m := by
  have hget : ∀ fd, (m.ctx.set fd field).get field = fd := by
    intro fd
    rcases hfield with rfl | rfl
    · rfl
    · rfl
  refine ⟨trivial, fun fd hfresh => ?_⟩
  apply holding_store
  apply holding_load
  rcases Int.lt_or_le fd 0 with hneg | hpos
  · rw [show holding.next m .socket fd = m from if_neg (Int.not_le.mpr hneg), hget, if_pos hneg]
    exact hfailed fd hneg
  · rw [show holding.next m .socket fd = { m with held := insert fd m.held } from if_pos hpos, hget,
      if_neg (Int.not_lt.mpr hpos)]
    exact hopened fd hpos hfresh

/-- Threads change nothing about the sockets. -/
def Holdings.SameSockets (m m' : Holdings) : Prop :=
  m'.held = m.held ∧ m'.ctx.tcpSocket = m.ctx.tcpSocket ∧ m'.ctx.udpSocket = m.ctx.udpSocket ∧
    m'.ctx.running = m.ctx.running

theorem startThread_holding (function : ThreadFunction) {field : CtxField}
    (hfield : field = .tcpThread ∨ field = .timeoutThread) :
    (startThread function field).Obeys holding (fun _ m' => m.SameSockets m') m := by
  refine ⟨trivial, ?_⟩
  intro thread _
  have hstored : ∀ value : Int, (store field value).Obeys holding (fun _ m' => m.SameSockets m') m := by
    intro value
    refine ⟨trivial, fun _ _ => ?_⟩
    rcases hfield with rfl | rfl
    · exact ⟨rfl, rfl, rfl, rfl⟩
    · exact ⟨rfl, rfl, rfl, rfl⟩
  cases thread with
  | ok thread => exact hstored thread
  | error left =>
      cases left with
      | none => exact ⟨rfl, rfl, rfl, rfl⟩
      | some left => exact hstored left

theorem joinThread_holding {field : CtxField} (hfield : field = .tcpThread ∨ field = .timeoutThread) :
    (joinThread field).Obeys holding (fun _ m' => m.SameSockets m') m := by
  unfold joinThread
  apply holding_load
  apply obeys_ite
  · intro _
    apply holding_load
    apply obeys_keep trivial (fun _ => rfl)
    intro _ _
    refine ⟨trivial, fun _ _ => ?_⟩
    rcases hfield with rfl | rfl
    · exact ⟨rfl, rfl, rfl, rfl⟩
    · exact ⟨rfl, rfl, rfl, rfl⟩
  · intro _
    exact ⟨rfl, rfl, rfl, rfl⟩

theorem robotProtocolStart_holding (cfg : ServerConfig) (hrunning : m.ctx.running = 0)
    (hheld : m.held = ∅) :
    (robotProtocolStart cfg).Obeys holding (fun _ m' => m'.Settled) m := by
  have hsettled : ∀ m' : Holdings, m'.ctx.running = 0 → m'.held = ∅ → m'.Settled :=
    fun m' hctx hnone => ⟨fun _ => hnone, fun hne => absurd hctx hne⟩
  obtain ⟨ctx, held⟩ := m
  obtain rfl : held = ∅ := hheld
  unfold robotProtocolStart
  apply holding_socket (Or.inl rfl)
  · intro fd _
    exact hsettled _ hrunning rfl
  intro tcp htcp _
  rw [insert_empty_eq]
  have hclose : ∀ ctx : ServerCtx, ctx.running = 0 → ctx.tcpSocket = tcp → ∀ v : Int,
      (load .tcpSocket >>= fun fd => platformClose fd >>= fun _ => pure v).Obeys holding
        (fun _ m' => m'.Settled) ⟨ctx, {tcp}⟩ := by
    rintro ctx hctx rfl v
    apply holding_load
    apply holding_close (Finset.mem_singleton_self _)
    exact hsettled _ hctx (Finset.erase_singleton _)
  apply holding_load
  apply obeys_keep trivial (fun _ => rfl)
  intro bound _
  apply obeys_ite
  · intro _
    exact hclose _ (by exact hrunning) rfl _
  intro _
  apply holding_load
  apply obeys_keep trivial (fun _ => rfl)
  intro listening _
  apply obeys_ite
  · intro _
    exact hclose _ (by exact hrunning) rfl _
  intro _
  apply holding_socket (Or.inr rfl)
  · intro fd _
    exact hclose _ (by exact hrunning) rfl _
  intro udp hudp hnew
  have hne : udp ≠ tcp := fun h => hnew (Finset.mem_singleton.mpr h)
  have hboth : ((insert udp {tcp} : Finset Int).erase tcp).erase udp = ∅ := by
    rw [Finset.erase_insert_of_ne hne, Finset.erase_singleton, insert_empty_eq, Finset.erase_singleton]
  apply holding_load
  apply obeys_keep trivial (fun _ => rfl)
  intro bound _
  apply obeys_ite
  · intro _
    apply holding_load
    apply holding_close (Finset.mem_insert_of_mem (Finset.mem_singleton_self tcp))
    apply holding_load
    apply holding_close (Finset.mem_erase_of_ne_of_mem hne (Finset.mem_insert_self udp {tcp}))
    exact hsettled _ hrunning hboth
  intro _
  apply holding_store
  apply (startThread_holding .tcp (Or.inl rfl)).bind
  rintro _ m₁ ⟨hheld₁, htcp₁, hudp₁, hrunning₁⟩
  apply (startThread_holding .timeout (Or.inr rfl)).bind
  rintro _ m₂ ⟨hheld₂, htcp₂, hudp₂, hrunning₂⟩
  constructor
  · intro hzero
    rw [hrunning₂, hrunning₁] at hzero
    cases hzero
  · intro _
    rw [hheld₂, hheld₁, htcp₂, htcp₁, hudp₂, hudp₁]
    exact ⟨htcp, hudp, hne.symm, Finset.pair_comm udp tcp⟩

theorem closeSocket_holding {field : CtxField}
    (hheld : 0 ≤ m.ctx.get field → m.ctx.get field ∈ m.held) :
    (closeSocket field).Obeys holding (fun _ m' => m' = if 0 ≤ m.ctx.get field then
      ⟨m.ctx.set (-1) field, m.held.erase (m.ctx.get field)⟩ else m) m := by
  unfold closeSocket
  apply holding_load
  apply obeys_ite
  · intro hopen
    apply holding_load
    apply holding_close (hheld hopen)
    refine ⟨trivial, fun _ _ => ?_⟩
    rw [if_pos hopen]
    rfl
  · intro hclosed
    rw [if_neg hclosed]
    rfl

/-- The sockets that a stop can close: those of a running server, or none. -/
def Holdings.Closable (m : Holdings) : Prop :=
  (0 ≤ m.ctx.tcpSocket ∧ 0 ≤ m.ctx.udpSocket ∧ m.ctx.tcpSocket ≠ m.ctx.udpSocket ∧
    m.held = {m.ctx.tcpSocket, m.ctx.udpSocket}) ∨
  (m.ctx.tcpSocket < 0 ∧ m.ctx.udpSocket < 0 ∧ m.held = ∅)

theorem Holdings.SameSockets.closable {m' : Holdings} (h : m.SameSockets m') (hm : m.Closable) :
    m'.Closable := by
  obtain ⟨hheld, htcp, hudp, _⟩ := h
  rw [Closable, hheld, htcp, hudp]
  exact hm

theorem closeSockets_holding (hrunning : m.ctx.running = 0) (hclosable : m.Closable) :
    (closeSocket .tcpSocket >>= fun _ => closeSocket .udpSocket).Obeys holding
      (fun _ m' => m'.ctx.running = 0 ∧ m'.held = ∅) m := by
  rcases hclosable with ⟨htcp, hudp, hne, hheld⟩ | ⟨htcp, hudp, hheld⟩
  · have hfirst : m.ctx.get .tcpSocket ∈ m.held := by
      rw [hheld]
      exact Finset.mem_insert_self _ _
    have hleft : m.held.erase m.ctx.tcpSocket = {m.ctx.udpSocket} := by
      rw [hheld, Finset.erase_insert_eq_erase, Finset.erase_eq_of_notMem]
      rw [Finset.mem_singleton]
      exact hne
    apply (closeSocket_holding fun _ => hfirst).bind
    rintro _ _ rfl
    rw [if_pos (show 0 ≤ m.ctx.get .tcpSocket from htcp)]
    have hsecond : m.ctx.udpSocket ∈ m.held.erase m.ctx.tcpSocket := by
      rw [hleft]
      exact Finset.mem_singleton_self _
    apply (closeSocket_holding fun _ => hsecond).mono
    rintro _ _ rfl
    rw [if_pos (by exact hudp)]
    refine ⟨hrunning, ?_⟩
    show (m.held.erase m.ctx.tcpSocket).erase m.ctx.udpSocket = ∅
    rw [hleft, Finset.erase_singleton]
  · have hnoTcp : ¬ 0 ≤ m.ctx.get .tcpSocket := Int.not_le.mpr htcp
    have hnoUdp : ¬ 0 ≤ m.ctx.get .udpSocket := Int.not_le.mpr hudp
    apply (closeSocket_holding fun hopen => absurd hopen hnoTcp).bind
    rintro _ _ rfl
    rw [if_neg hnoTcp]
    apply (closeSocket_holding fun hopen => absurd hopen hnoUdp).mono
    rintro _ _ rfl
    rw [if_neg hnoUdp]
    exact ⟨hrunning, hheld⟩

/-- A stop closes what a running server has. -/
theorem robotProtocolStop_holding (hsettled : m.Settled)
    (hsound : m.ctx.running ≠ 0 ∨ (m.ctx.tcpSocket < 0 ∧ m.ctx.udpSocket < 0)) :
    robotProtocolStop.Obeys holding (fun _ m' => m'.ctx.running = 0 ∧ m'.held = ∅) m := by
  have hclosable : m.Closable := by
    by_cases hrunning : m.ctx.running = 0
    · obtain ⟨htcp, hudp⟩ := hsound.resolve_left (not_not_intro hrunning)
      exact Or.inr ⟨htcp, hudp, hsettled.stopped hrunning⟩
    · exact Or.inl (hsettled.running hrunning)
  have hend : ∀ m₀ : Holdings, m₀.ctx.running = 0 → m₀.Closable →
      (joinThread .tcpThread >>= fun _ => joinThread .timeoutThread >>= fun _ => stopClient >>= fun _ =>
        closeSocket .tcpSocket >>= fun _ => closeSocket .udpSocket).Obeys holding
        (fun _ m' => m'.ctx.running = 0 ∧ m'.held = ∅) m₀ := by
    intro m₀ hrunning₀ hclosable₀
    apply (joinThread_holding (Or.inl rfl)).bind
    intro _ m₁ hsame₁
    apply (joinThread_holding (Or.inr rfl)).bind
    intro _ m₂ hsame₂
    apply obeys_keep trivial (fun _ => rfl)
    intro _ _
    apply closeSockets_holding _ (hsame₂.closable (hsame₁.closable hclosable₀))
    rw [hsame₂.2.2.2, hsame₁.2.2.2, hrunning₀]
  unfold robotProtocolStop
  apply holding_store
  apply holding_load
  apply obeys_ite
  · intro hopen
    apply holding_load
    have hheld : m.ctx.tcpSocket ∈ m.held := by
      rcases hclosable with ⟨_, _, _, hheld⟩ | ⟨htcp, _⟩
      · rw [hheld]
        exact Finset.mem_insert_self _ _
      · exact absurd htcp (Int.not_lt.mpr hopen)
    apply obeys_keep hheld (fun _ => rfl)
    intro _ _
    exact hend _ rfl hclosable
  · intro _
    exact hend _ rfl hclosable

theorem robotProtocolDestroy_holding (hsettled : m.Settled)
    (hsound : m.ctx.running ≠ 0 ∨ (m.ctx.tcpSocket < 0 ∧ m.ctx.udpSocket < 0)) :
    robotProtocolDestroy.Obeys holding (fun _ m' => m'.ctx.running = 0 ∧ m'.held = ∅) m := by
  unfold robotProtocolDestroy
  apply (robotProtocolStop_holding hsettled hsound).bind
  intro _ m' hstopped
  exact ⟨trivial, fun _ _ => ⟨trivial, fun _ _ => hstopped⟩⟩

end Application

section Threads

variable {cfg : ServerConfig}

/-- A thread closes what it has accepted, unless it gives it to the client's record. The state is the
descriptor that it has accepted. -/
def accepting : Monitor serverSignature (Option Int) where
  good m c := match c with
    | .store _ _ | .stopClient | .socket | .bind _ _ | .listen _ | .shutdown _ | .pthreadCreate _
    | .pthreadJoin _ | .lockDestroy => False
    | .accept _ => m = none
    | .addClient fd _ | .close fd => m = some fd
    | _ => True
  allowed _ _ _ := True
  next m c := match c with
    | .accept _ => fun result => if 0 ≤ result.1 then some result.1 else none
    | .addClient _ _ => fun result => if result = 0 then none else m
    | .close _ => fun _ => none
    | _ => fun _ => m

theorem acceptClient_accepting :
    Walks accepting (fun m => m = none) (fun _ => True) acceptClient := by
  rintro _ rfl
  unfold acceptClient
  apply obeys_keep trivial (fun _ => rfl)
  intro listener _
  apply obeys_call rfl
  intro accepted _
  have haccepted : accepting.next none (.accept listener) accepted =
      if 0 ≤ accepted.1 then some accepted.1 else none := rfl
  rw [haccepted]
  apply obeys_ite
  · intro hsocket
    rw [if_pos hsocket]
    apply obeys_call rfl
    intro added _
    have hadded : accepting.next (some accepted.1) (.addClient accepted.1 accepted.2) added =
        if added = 0 then none else some accepted.1 := rfl
    rw [hadded]
    apply obeys_ite
    · intro hrejected
      rw [if_neg hrejected]
      exact ⟨rfl, fun _ _ => ⟨rfl, trivial⟩⟩
    · intro hkept
      rw [if_pos (not_not.mp hkept)]
      exact ⟨rfl, trivial⟩
  · intro hnone
    rw [if_neg hnone]
    exact ⟨rfl, trivial⟩

theorem accepting_rule : ServiceRule accepting (fun m => m = none) (fun _ => True) where
  ordinary c hc m _ := by
    cases c with
    | load field => exact ⟨trivial, fun _ => rfl⟩
    | _ => first | exact ⟨trivial, fun _ => rfl⟩ | cases hc
  registers _ _ _ _ := ⟨trivial, fun _ => rfl⟩
  built _ _ := trivial
  sends _ ctx _ := sendCommandResponseContext_walks (fun _ _ _ => ⟨trivial, fun _ => rfl⟩)
    (fun _ _ _ => ⟨trivial, fun _ => rfl⟩) (fun _ _ => ⟨trivial, fun _ => rfl⟩) ctx
  handles _ _ m hm := ⟨trivial, fun _ _ => ⟨hm, fun _ _ => trivial⟩⟩
  informs m hm := ⟨trivial, fun _ _ => ⟨hm, fun _ _ => trivial⟩⟩
  accepts := acceptClient_accepting

theorem round_accepting (function : ThreadFunction) :
    (function.round cfg).Obeys accepting (fun _ m => m = none) none := by
  cases function with
  | tcp =>
      apply (accepting_rule.tcpThreadFunc (fun _ _ => ⟨trivial, fun _ => rfl⟩)
        (fun _ _ _ _ => ⟨trivial, fun _ => rfl⟩) cfg none rfl).mono
      intro _ _ h
      exact h.1
  | timeout =>
      apply (accepting_rule.timeoutThreadFunc (fun _ _ => ⟨trivial, fun _ => rfl⟩)
        (fun _ _ _ => ⟨trivial, fun _ => rfl⟩) none rfl).mono
      intro _ _ h
      exact h.1

end Threads

end YaskawaComms.Server
