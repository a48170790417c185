import YaskawaComms.Server.Sockets

/-!
# Descriptors

Every descriptor in use has one owner: the application that has opened it, the thread that has
accepted it, or the connected client. It is closed once, by its owner or with the client's record.
-/

namespace YaskawaComms.Server

open Protocol Program

/-- Every open connection belongs to the client or to the thread that has accepted it. -/
structure Owners (client : ClientInfo) (accepted : Nat → Option Int) (clients : Finset Int) : Prop where
  mem_iff : ∀ fd, fd ∈ clients ↔
    (client.connected = true ∧ fd = client.socket) ∨ ∃ j, accepted j = some fd
  alone : client.connected = true → ∀ j, accepted j ≠ some client.socket
  distinct : ∀ i j fd, accepted i = some fd → accepted j = some fd → i = j

namespace Owners

variable {client client' : ClientInfo} {accepted : Nat → Option Int} {clients : Finset Int}
  {j : Nat} {fd : Int}

theorem congr (h : Owners client accepted clients) (hconnected : client'.connected = client.connected)
    (hsocket : client'.socket = client.socket) : Owners client' accepted clients := by
  refine ⟨?_, ?_, h.distinct⟩
  · rw [hconnected, hsocket]
    exact h.mem_iff
  · rw [hconnected, hsocket]
    exact h.alone

theorem accept (h : Owners client accepted clients) (hfree : accepted j = none) (hnew : fd ∉ clients) :
    Owners client (Function.update accepted j (some fd)) (insert fd clients) := by
  have hnobody : ∀ i, accepted i ≠ some fd := fun i hi => hnew ((h.mem_iff fd).mpr (Or.inr ⟨i, hi⟩))
  have hother : ∀ i fd', fd' ≠ fd → (Function.update accepted j (some fd) i = some fd' ↔
      accepted i = some fd') := by
    intro i fd' hne
    by_cases hij : i = j
    · subst hij
      rw [Function.update_self, hfree]
      exact iff_of_false (fun heq => hne (Option.some.inj heq).symm) nofun
    · rw [Function.update_of_ne hij]
  constructor
  · intro fd'
    rw [Finset.mem_insert]
    by_cases hne : fd' = fd
    · exact iff_of_true (Or.inl hne) (Or.inr ⟨j, by rw [Function.update_self, hne]⟩)
    · simp only [hother _ _ hne, h.mem_iff, or_iff_right hne]
  · intro hconnected i hi
    have hne : client.socket ≠ fd := fun heq => hnew ((h.mem_iff fd).mpr (Or.inl ⟨hconnected, heq.symm⟩))
    exact h.alone hconnected i ((hother i _ hne).mp hi)
  · intro i k fd' hi hk
    by_cases hne : fd' = fd
    · have hj : ∀ i, Function.update accepted j (some fd) i = some fd' → i = j := by
        intro i hi
        by_contra hij
        rw [Function.update_of_ne hij, hne] at hi
        exact hnobody i hi
      rw [hj i hi, hj k hk]
    · exact h.distinct i k fd' ((hother i _ hne).mp hi) ((hother k _ hne).mp hk)

theorem update_none_iff {i : Nat} {fd' : Int} : Function.update accepted j none i = some fd' ↔
    i ≠ j ∧ accepted i = some fd' := by
  by_cases hij : i = j
  · rw [hij, Function.update_self]
    exact iff_of_false nofun fun h => h.1 rfl
  · rw [Function.update_of_ne hij, and_iff_right hij]

theorem give (h : Owners client accepted clients) (hnobody : client.connected = false)
    (hmine : accepted j = some fd) (hconnected : client'.connected = true)
    (hsocket : client'.socket = fd) : Owners client' (Function.update accepted j none) clients := by
  constructor
  · intro fd'
    rw [h.mem_iff, hnobody, hconnected, hsocket]
    simp only [update_none_iff, Bool.false_eq_true, false_and, false_or, true_and]
    constructor
    · rintro ⟨i, hi⟩
      by_cases hij : i = j
      · rw [hij, hmine] at hi
        exact Or.inl (Option.some.inj hi).symm
      · exact Or.inr ⟨i, hij, hi⟩
    · rintro (rfl | ⟨i, _, hi⟩)
      · exact ⟨j, hmine⟩
      · exact ⟨i, hi⟩
  · intro _ i hi
    rw [update_none_iff, hsocket] at hi
    exact hi.1 (h.distinct i j fd hi.2 hmine)
  · intro i k fd' hi hk
    exact h.distinct i k fd' (update_none_iff.mp hi).2 (update_none_iff.mp hk).2

theorem close (h : Owners client accepted clients) (hmine : accepted j = some fd) :
    Owners client (Function.update accepted j none) (clients.erase fd) := by
  constructor
  · intro fd'
    rw [Finset.mem_erase, h.mem_iff]
    simp only [update_none_iff]
    constructor
    · rintro ⟨hne, hclient | ⟨i, hi⟩⟩
      · exact Or.inl hclient
      · refine Or.inr ⟨i, ?_, hi⟩
        rintro rfl
        exact hne (Option.some.inj (hi.symm.trans hmine))
    · rintro (⟨hconnected, rfl⟩ | ⟨i, hij, hi⟩)
      · refine ⟨?_, Or.inl ⟨hconnected, rfl⟩⟩
        rintro rfl
        exact h.alone hconnected j hmine
      · refine ⟨?_, Or.inr ⟨i, hi⟩⟩
        rintro rfl
        exact hij (h.distinct i j _ hi hmine)
  · intro hconnected i hi
    exact h.alone hconnected i (update_none_iff.mp hi).2
  · intro i k fd' hi hk
    exact h.distinct i k fd' (update_none_iff.mp hi).2 (update_none_iff.mp hk).2

theorem remove (h : Owners client accepted clients) (hconnected : client.connected = true)
    (hcleared : client'.connected = false) : Owners client' accepted (clients.erase client.socket) := by
  constructor
  · intro fd'
    rw [Finset.mem_erase, h.mem_iff, hcleared]
    constructor
    · rintro ⟨hne, ⟨_, heq⟩ | hthread⟩
      · exact absurd heq hne
      · exact Or.inr hthread
    · rintro (⟨hfalse, _⟩ | ⟨i, hi⟩)
      · cases hfalse
      · refine ⟨?_, Or.inr ⟨i, hi⟩⟩
        rintro rfl
        exact h.alone hconnected i hi
  · intro htrue
    rw [hcleared] at htrue
    cases htrue
  · exact h.distinct

end Owners

/-- The ledger agrees with what everybody has. -/
structure Accounted (t : System × Ledger) (m : Holdings) (accepted : Nat → Option Int) : Prop where
  app : t.1.app.Obeys holding
    (fun _ m' => m'.Settled ∧ (t.1.alive = false → m'.held = ∅)) m
  fields : ∀ field, t.1.shared.ctx.get field = m.ctx.get field
  workers : ∀ (j : Nat) w, t.1.workers[j]? = some w →
    w.code.Obeys accepting (fun _ mine => mine = none) (accepted j)
  absent : ∀ j : Nat, t.1.workers[j]? = none → accepted j = none
  sockets : t.2.sockets = m.held
  owners : Owners t.1.shared.ctx.client accepted t.2.clients
  apart : ∀ fd ∈ t.2.clients, fd ∉ t.2.sockets
  sound : t.2.astray = false

section Step

variable {cfg : ServerConfig} {t t' : System × Ledger} {m : Holdings} {accepted : Nat → Option Int}
  {move : Move}

theorem Job.code_holding (job : Job) (hsettled : m.Settled)
    (hstart : job = .start → m.ctx.running = 0)
    (hstop : job ≠ .start → m.ctx.running ≠ 0 ∨ (m.ctx.tcpSocket < 0 ∧ m.ctx.udpSocket < 0)) :
    (job.code cfg).Obeys holding (fun _ m' => m'.Settled ∧ (job = .destroy → m'.held = ∅)) m := by
  have hclosed : ∀ m' : Holdings, m'.ctx.running = 0 ∧ m'.held = ∅ →
      m'.Settled ∧ (job = .destroy → m'.held = ∅) :=
    fun _ ⟨hzero, hnone⟩ => ⟨⟨fun _ => hnone, fun hne => absurd hzero hne⟩, fun _ => hnone⟩
  cases job with
  | start =>
      have hrunning := hstart rfl
      apply (robotProtocolStart_holding cfg hrunning (hsettled.stopped hrunning)).bind
      intro _ m' hsettled'
      exact ⟨hsettled', nofun⟩
  | stop => exact (robotProtocolStop_holding hsettled (hstop nofun)).mono fun _ m' => hclosed m'
  | destroy => exact (robotProtocolDestroy_holding hsettled (hstop nofun)).mono fun _ m' => hclosed m'

theorem Accounted.app_next {c : ServerCall} {next : c.Result → ServerProgram Unit}
    (h : Accounted t m accepted) (happ : t.1.app = .call c next) :
    holding.good m c ∧ ∀ r, holding.allowed m c r → (next r).Obeys holding
      (fun _ m' => m'.Settled ∧ (t.1.alive = false → m'.held = ∅)) (holding.next m c r) := by
  have hobeys := h.app
  rw [happ] at hobeys
  exact hobeys

theorem Accounted.app_step {c : ServerCall} {next : c.Result → ServerProgram Unit} {r : c.Result}
    {shared : Shared} {l : Ledger} {m' : Holdings} (h : Accounted t m accepted)
    (happ : t.1.app = .call c next) (hallowed : holding.allowed m c r)
    (hnext : holding.next m c r = m')
    (hfields : ∀ field, shared.ctx.get field = m'.ctx.get field) (hsockets : l.sockets = m'.held)
    (howners : Owners shared.ctx.client accepted l.clients)
    (hapart : ∀ fd ∈ l.clients, fd ∉ l.sockets) (hsound : l.astray = false) :
    Accounted ({ t.1 with app := next r, shared := shared }, l) m' accepted := by
  have hobeys := (h.app_next happ).2 r hallowed
  rw [hnext] at hobeys
  exact ⟨hobeys, hfields, h.workers, h.absent, hsockets, howners, hapart, hsound⟩

theorem Accounted.opens {fd : Int} {next : Int → ServerProgram Unit} (h : Accounted t m accepted)
    (happ : t.1.app = .call .socket next) (hfresh : ¬ t.2.Uses fd) :
    Accounted ({ t.1 with app := next fd }, Ledger.note t.1 ⟨.socket, fd⟩ t.2)
      (holding.next m .socket fd) accepted := by
  have hnew : fd ∉ m.held := by
    rw [← h.sockets]
    exact fun hold => hfresh (Or.inl hold)
  by_cases hopen : 0 ≤ fd
  · have hnote : Ledger.note t.1 ⟨.socket, fd⟩ t.2 =
        { t.2 with sockets := insert fd t.2.sockets } := if_pos hopen
    have hheld : holding.next m .socket fd = { m with held := insert fd m.held } := if_pos hopen
    rw [hnote, hheld]
    refine h.app_step happ hnew hheld h.fields (congrArg (insert fd) h.sockets) h.owners ?_ h.sound
    intro other hother hsocket
    rcases Finset.mem_insert.mp hsocket with rfl | hold
    · exact hfresh (Or.inr hother)
    · exact h.apart other hother hold
  · have hnote : Ledger.note t.1 ⟨.socket, fd⟩ t.2 = t.2 := if_neg hopen
    have hheld : holding.next m .socket fd = m := if_neg hopen
    rw [hnote, hheld]
    exact h.app_step happ hnew hheld h.fields h.sockets h.owners h.apart h.sound

theorem Accounted.stops {shared : Shared} {next : Unit → ServerProgram Unit}
    (h : Accounted t m accepted) (happ : t.1.app = .call .stopClient next)
    (hfields : ∀ field, shared.ctx.get field = m.ctx.get field)
    (hshared : t.1.shared.stopClient = shared) :
    Accounted ({ t.1 with app := next (), shared := shared }, Ledger.note t.1 ⟨.stopClient, ()⟩ t.2)
      m accepted := by
  subst hshared
  cases hconnected : t.1.shared.ctx.client.connected with
  | true =>
      have hclient : t.1.shared.ctx.client.socket ∈ t.2.clients :=
        (h.owners.mem_iff _).mpr (Or.inl ⟨hconnected, rfl⟩)
      have hnote : Ledger.note t.1 ⟨.stopClient, ()⟩ t.2 = { t.2 with
          clients := t.2.clients.erase t.1.shared.ctx.client.socket, swept := true } := by
        simp only [Ledger.note]
        rw [if_pos hconnected, Ledger.close_client (h.apart _ hclient) hclient]
      rw [hnote]
      refine h.app_step happ trivial rfl hfields h.sockets ?_ ?_ h.sound
      · apply h.owners.remove hconnected
        rw [Shared.stopClient_client hconnected]
        rfl
      · intro fd hfd
        exact h.apart fd (Finset.mem_of_mem_erase hfd)
  | false =>
      have hnote : Ledger.note t.1 ⟨.stopClient, ()⟩ t.2 = { t.2 with swept := true } := by
        simp only [Ledger.note]
        rw [hconnected, if_neg Bool.false_ne_true]
      rw [hnote]
      refine h.app_step happ trivial rfl hfields h.sockets ?_ h.apart h.sound
      rw [Shared.stopClient_absent hconnected]
      exact h.owners

/-- A call of the application. -/
theorem Accounted.application {a : Answers} {c : ServerCall} {next : c.Result → ServerProgram Unit}
    {r : c.Result} {shared : Shared} (h : Accounted t m accepted)
    (happ : t.1.app = .call c next) (hthread : c.isThread = false)
    (hperform : t.1.shared.perform cfg a c = some (r, shared)) (hfresh : t.2.Fresh ⟨c, r⟩) :
    Accounted ({ t.1 with app := next r, shared := shared }, Ledger.note t.1 ⟨c, r⟩ t.2)
      (holding.next m c r) accepted := by
  have hgood := (h.app_next happ).1
  cases c with
  | load field =>
      cases hperform
      exact h.app_step happ (h.fields field) rfl h.fields h.sockets h.owners h.apart h.sound
  | store field value =>
      cases hperform
      have hclient : (t.1.shared.ctx.set value field).client = t.1.shared.ctx.client :=
        ServerCtx.set_client _ _ _
      refine h.app_step happ trivial rfl ?_ h.sockets
        (h.owners.congr (congrArg _ hclient) (congrArg _ hclient)) h.apart h.sound
      intro other
      show (t.1.shared.ctx.set value field).get other = (m.ctx.set value field).get other
      rw [ServerCtx.get_set, ServerCtx.get_set, h.fields other]
  | socket =>
      cases hperform
      exact h.opens happ hfresh
  | bind fd port =>
      cases hperform
      exact h.app_step happ trivial rfl h.fields h.sockets h.owners h.apart h.sound
  | listen fd =>
      cases hperform
      exact h.app_step happ trivial rfl h.fields h.sockets h.owners h.apart h.sound
  | shutdown fd =>
      cases hperform
      have huses : t.2.Uses fd := by
        refine Or.inl ?_
        rw [h.sockets]
        exact hgood
      have hnote : Ledger.note t.1 ⟨.shutdown fd, ()⟩ t.2 = t.2 := if_pos huses
      rw [hnote]
      exact h.app_step happ trivial rfl h.fields h.sockets h.owners h.apart h.sound
  | close fd =>
      cases hperform
      have hmine : fd ∈ t.2.sockets := by
        rw [h.sockets]
        exact hgood
      have hnote : Ledger.note t.1 ⟨.close fd, ()⟩ t.2 =
          { t.2 with sockets := t.2.sockets.erase fd } := Ledger.close_socket hmine
      rw [hnote]
      refine h.app_step happ trivial rfl h.fields (congrArg (·.erase fd) h.sockets) h.owners ?_ h.sound
      intro other hother hsocket
      exact h.apart other hother (Finset.mem_of_mem_erase hsocket)
  | stopClient =>
      have hfields := Shared.get_of_perform hperform nofun
      cases hperform
      exact h.stops happ (fun field => (hfields field).trans (h.fields field)) rfl
  | lockDestroy =>
      cases hperform
      exact h.app_step happ trivial rfl h.fields h.sockets h.owners h.apart h.sound
  | free block =>
      cases hperform
      exact h.app_step happ trivial rfl h.fields h.sockets h.owners h.apart h.sound
  | pthreadCreate function => cases hthread
  | pthreadJoin thread => cases hthread
  | _ => exact hgood.elim

/-- What a thread's call has to leave: the same sockets, and every connection in use with its
owner. -/
structure Owned (t : System × Ledger) (client : ClientInfo) (accepted : Nat → Option Int)
    (l : Ledger) : Prop where
  sockets : l.sockets = t.2.sockets
  owners : Owners client accepted l.clients
  apart : ∀ fd ∈ l.clients, fd ∉ t.2.sockets
  sound : l.astray = false

theorem Accounted.thread_step {index : Nat} {w : Worker} {c : ServerCall}
    {next : c.Result → ServerProgram Round} {r : c.Result} {shared : Shared} {l : Ledger}
    (h : Accounted t m accepted) (hworker : t.1.workers[index]? = some w)
    (hcode : w.code = .call c next)
    (hfields : ∀ field, shared.ctx.get field = t.1.shared.ctx.get field)
    (howned : Owned t shared.ctx.client
      (Function.update accepted index (accepting.next (accepted index) c r)) l) :
    Accounted
      ({ t.1 with
        workers := t.1.workers.set index { w.mark t.1.shared c r with code := next r }
        shared := shared }, l)
      m (Function.update accepted index (accepting.next (accepted index) c r)) := by
  have hobeys := h.workers index w hworker
  rw [hcode] at hobeys
  refine ⟨h.app, fun field => (hfields field).trans (h.fields field), ?_, ?_,
    howned.sockets.trans h.sockets, howned.owners, ?_, howned.sound⟩
  · intro j w' hw'
    rcases System.worker_of_set hw' with ⟨rfl, rfl⟩ | ⟨hindex, hold⟩
    · rw [Function.update_self]
      exact hobeys.2 r trivial
    · rw [Function.update_of_ne hindex]
      exact h.workers j w' hold
  · intro j hj
    rw [List.getElem?_eq_none_iff, List.length_set, ← List.getElem?_eq_none_iff] at hj
    have hindex : j ≠ index := by
      rintro rfl
      rw [hworker] at hj
      cases hj
    rw [Function.update_of_ne hindex]
    exact h.absent j hj
  · intro fd hfd
    rw [howned.sockets]
    exact howned.apart fd hfd

namespace Accounted

variable {index : Nat} {client : ClientInfo} {mine : Option Int}

theorem keeps (h : Accounted t m accepted) (hmine : mine = accepted index)
    (hconnected : client.connected = t.1.shared.ctx.client.connected)
    (hsocket : client.socket = t.1.shared.ctx.client.socket) :
    Owned t client (Function.update accepted index mine) t.2 := by
  rw [hmine, Function.update_eq_self]
  exact ⟨rfl, h.owners.congr hconnected hsocket, h.apart, h.sound⟩

theorem accepts {listener : Int} {result : Int × SockAddr} (h : Accounted t m accepted)
    (hnone : accepted index = none) (hfresh : t.2.Fresh ⟨.accept listener, result⟩) :
    Owned t t.1.shared.ctx.client
      (Function.update accepted index
        (accepting.next (accepted index) (.accept listener) result))
      (Ledger.note t.1 ⟨.accept listener, result⟩ t.2) := by
  by_cases hsocket : 0 ≤ result.1
  · have hmine : accepting.next (accepted index) (.accept listener) result = some result.1 :=
      if_pos hsocket
    have hnote : Ledger.note t.1 ⟨.accept listener, result⟩ t.2 =
        { t.2 with clients := insert result.1 t.2.clients } := if_pos hsocket
    rw [hmine, hnote]
    refine ⟨rfl, h.owners.accept hnone fun hold => hfresh (Or.inr hold), ?_, h.sound⟩
    intro fd hfd
    rcases Finset.mem_insert.mp hfd with rfl | hold
    · exact fun hmine => hfresh (Or.inl hmine)
    · exact h.apart fd hold
  · have hmine : accepting.next (accepted index) (.accept listener) result = none := if_neg hsocket
    have hnote : Ledger.note t.1 ⟨.accept listener, result⟩ t.2 = t.2 := if_neg hsocket
    rw [hnote]
    exact h.keeps (hmine.trans hnone.symm) rfl rfl

theorem adds {fd added : Int} {addr : SockAddr} {shared : Shared} (h : Accounted t m accepted)
    (hmine : accepted index = some fd) (hout : t.1.shared.addClient cfg fd addr = (added, shared)) :
    Owned t shared.ctx.client
      (Function.update accepted index (accepting.next (accepted index) (.addClient fd addr) added))
      t.2 := by
  have hgiven : accepting.next (accepted index) (.addClient fd addr) added =
      if added = 0 then none else accepted index := rfl
  rw [hgiven]
  cases hconnected : t.1.shared.ctx.client.connected with
  | true =>
      rw [Shared.addClient_second hconnected] at hout
      cases hout
      exact h.keeps (if_neg (by decide)) rfl rfl
  | false =>
      have hadded : (t.1.shared.addClient cfg fd addr).2.ctx.client = _ :=
        Shared.addClient_client hconnected
      obtain rfl : added = 0 :=
        (congrArg Prod.fst hout).symm.trans (Shared.addClient_first hconnected).1
      rw [hout] at hadded
      rw [if_pos rfl]
      exact ⟨rfl, h.owners.give hconnected hmine (congrArg _ hadded) (congrArg _ hadded), h.apart,
        h.sound⟩

theorem closes {fd : Int} (h : Accounted t m accepted) (hfd : fd ∈ t.2.clients)
    (howners : Owners client (Function.update accepted index mine) (t.2.clients.erase fd)) :
    Owned t client (Function.update accepted index mine) (t.2.close fd) := by
  rw [Ledger.close_client (h.apart fd hfd) hfd]
  refine ⟨rfl, howners, ?_, h.sound⟩
  intro other hother
  exact h.apart other (Finset.mem_of_mem_erase hother)

theorem removes (h : Accounted t m accepted) :
    Owned t (t.1.shared.removeClient cfg).ctx.client (Function.update accepted index (accepted index))
      (Ledger.note t.1 ⟨.removeClient, ()⟩ t.2) := by
  cases hconnected : t.1.shared.ctx.client.connected with
  | true =>
      have hnote : Ledger.note t.1 ⟨.removeClient, ()⟩ t.2 =
          t.2.close t.1.shared.ctx.client.socket := if_pos hconnected
      rw [hnote]
      apply h.closes ((h.owners.mem_iff _).mpr (Or.inl ⟨hconnected, rfl⟩))
      rw [Function.update_eq_self]
      apply h.owners.remove hconnected
      rw [Shared.removeClient_client hconnected]
      rfl
  | false =>
      have hnote : Ledger.note t.1 ⟨.removeClient, ()⟩ t.2 = t.2 :=
        if_neg (by rw [hconnected]; exact Bool.false_ne_true)
      rw [hnote, Shared.removeClient_absent hconnected]
      exact h.keeps rfl rfl rfl

/-- A call of a thread. -/
theorem thread {a : Answers} {w : Worker} {c : ServerCall}
    {next : c.Result → ServerProgram Round} {r : c.Result} {shared : Shared}
    (h : Accounted t m accepted) (hworker : t.1.workers[index]? = some w)
    (hcode : w.code = .call c next) (hperform : t.1.shared.perform cfg a c = some (r, shared))
    (hfresh : t.2.Fresh ⟨c, r⟩) :
    Accounted
      ({ t.1 with
        workers := t.1.workers.set index { w.mark t.1.shared c r with code := next r }
        shared := shared }, Ledger.note t.1 ⟨c, r⟩ t.2)
      m (Function.update accepted index (accepting.next (accepted index) c r)) := by
  have hobeys := h.workers index w hworker
  rw [hcode] at hobeys
  have hgood := hobeys.1
  apply h.thread_step hworker hcode
  · apply Shared.get_of_perform hperform
    rintro field value rfl
    exact hgood
  cases c with
  | accept listener =>
      cases hperform
      exact h.accepts hgood hfresh
  | addClient fd addr => exact h.adds hgood (Option.some.inj hperform)
  | close fd =>
      cases hperform
      exact h.closes ((h.owners.mem_iff fd).mpr (Or.inr ⟨index, hgood⟩)) (h.owners.close hgood)
  | removeClient =>
      cases hperform
      exact h.removes
  | storeLastCommand value =>
      cases hperform
      exact h.keeps rfl rfl rfl
  | registerUdpPort port =>
      cases hperform
      exact h.keeps rfl rfl rfl
  | store field value => exact hgood.elim
  | stopClient => exact hgood.elim
  | socket => exact hgood.elim
  | bind fd port => exact hgood.elim
  | listen fd => exact hgood.elim
  | shutdown fd => exact hgood.elim
  | pthreadCreate function => exact hgood.elim
  | pthreadJoin thread => exact hgood.elim
  | _ =>
      cases Shared.effect_of_perform hperform with
      | quiet hquiet => exact h.keeps rfl (congrArg _ hquiet.client) (congrArg _ hquiet.client)

end Accounted

theorem accounted_created :
    Accounted (System.created, Ledger.empty) ⟨robotProtocolCreate.ctx, ∅⟩ fun _ => none := by
  refine ⟨⟨⟨fun _ => rfl, fun hne => absurd rfl hne⟩, nofun⟩, fun _ => rfl, nofun, fun _ _ => rfl, rfl,
    ⟨?_, nofun, nofun⟩, nofun, rfl⟩
  intro fd
  exact iff_of_false (Finset.notMem_empty fd) (by rintro (⟨hconnected, _⟩ | ⟨_, hthread⟩) <;> contradiction)

theorem Accounted.job {job : Job} {u : Unit} (h : Accounted t m accepted) (hidle : t.1.app = .ret u)
    (hstops : t.1.StopsSound (.job job)) :
    Accounted ({ t.1 with app := job.code cfg, alive := job ≠ .destroy }, t.2) m accepted := by
  have hsettled := h.app
  rw [hidle] at hsettled
  have hrunning : t.1.shared.ctx.running = m.ctx.running := h.fields .running
  have htcp : t.1.shared.ctx.tcpSocket = m.ctx.tcpSocket := h.fields .tcpSocket
  have hudp : t.1.shared.ctx.udpSocket = m.ctx.udpSocket := h.fields .udpSocket
  refine ⟨?_, h.fields, h.workers, h.absent, h.sockets, h.owners, h.apart, h.sound⟩
  have hcode : (job.code cfg).Obeys holding (fun _ m' => m'.Settled ∧ (job = .destroy → m'.held = ∅)) m := by
    apply job.code_holding hsettled.1
    · rintro rfl
      rw [← hrunning]
      exact hstops
    · intro hne
      rw [← hrunning, ← htcp, ← hudp]
      cases job with
      | start => exact absurd rfl hne
      | stop => exact hstops
      | destroy => exact hstops
  apply hcode.mono
  rintro _ m' ⟨hsettled', hdestroyed⟩
  refine ⟨hsettled', fun halive => hdestroyed ?_⟩
  by_contra hne
  rw [decide_eq_false_iff_not] at halive
  exact halive hne

theorem Accounted.workers_set {index : Nat} {w' : Worker} (h : Accounted t m accepted)
    (hobeys : w'.code.Obeys accepting (fun _ mine => mine = none) (accepted index)) :
    Accounted ({ t.1 with workers := t.1.workers.set index w' }, t.2) m accepted := by
  refine ⟨h.app, h.fields, ?_, ?_, h.sockets, h.owners, h.apart, h.sound⟩
  · intro j v hv
    rcases System.worker_of_set hv with ⟨rfl, rfl⟩ | ⟨-, hold⟩
    · exact hobeys
    · exact h.workers j v hold
  · intro j hj
    rw [List.getElem?_eq_none_iff, List.length_set, ← List.getElem?_eq_none_iff] at hj
    exact h.absent j hj

theorem accounted_step (h : Accounted t m accepted) (hproper : System.Proper cfg t move)
    (hstep : System.opening cfg move t = some t') : ∃ m' accepted', Accounted t' m' accepted' := by
  obtain ⟨made, hcalled, hmakes, hledger⟩ := System.makes_of_recording hstep
  obtain ⟨s', l'⟩ := t'
  obtain rfl : l' = _ := hledger
  generalize hs' : (s', System.noted Ledger.note t.1 t.2 made).1 = s'' at hmakes
  obtain rfl : s' = s'' := hs'
  have hquiet : ∀ {c : ServerCall} {next : c.Result → ServerProgram Unit} (r : c.Result) (l : Ledger),
      t.1.app = .call c next → holding.allowed m c r → holding.next m c r = m →
      l.sockets = t.2.sockets → l.clients = t.2.clients → l.astray = t.2.astray →
      Accounted ({ t.1 with app := next r }, l) m accepted := by
    intro c next r l happ hallowed hkeeps hsockets hclients hastray
    have hnext := (h.app_next happ).2 r hallowed
    rw [hkeeps] at hnext
    refine ⟨hnext, h.fields, h.workers, h.absent, hsockets.trans h.sockets, ?_, ?_, hastray.trans h.sound⟩
    · rw [hclients]
      exact h.owners
    · rw [hclients, hsockets]
      exact h.apart
  cases hmakes with
  | job hidle halive => exact ⟨m, accepted, h.job hidle hproper.stops⟩
  | created happ =>
      refine ⟨m, accepted, ?_⟩
      have hmore := hquiet (Except.ok (t.1.workers.length + 1)) { t.2 with swept := false } happ trivial rfl
        rfl rfl rfl
      refine ⟨hmore.app, hmore.fields, ?_, ?_, hmore.sockets, hmore.owners, hmore.apart, hmore.sound⟩
      · intro j w hw
        rcases System.worker_of_append hw with hold | ⟨hnew, rfl⟩
        · exact h.workers j w hold
        · rw [h.absent j hnew]
          exact round_accepting _
      · intro j hj
        rw [List.getElem?_eq_none_iff, List.length_append] at hj
        exact h.absent j (List.getElem?_eq_none_iff.mpr (by omega))
  | notCreated left happ =>
      exact ⟨m, accepted, hquiet _ _ happ trivial rfl rfl rfl rfl⟩
  | joined happ hfinished => exact ⟨m, accepted, hquiet () _ happ trivial rfl rfl rfl rfl⟩
  | app happ hthread hperform =>
      exact ⟨_, accepted, h.application happ hthread hperform (hproper.fresh _ hcalled)⟩
  | again hworker hcode =>
      refine ⟨m, accepted, h.workers_set ?_⟩
      have hnone := h.workers _ _ hworker
      rw [hcode] at hnone
      rw [show accepted _ = none from hnone]
      exact round_accepting _
  | worker hworker hcode hperform =>
      exact ⟨m, _, h.thread hworker hcode hperform (hproper.fresh _ hcalled)⟩
  | reading hworker hcode => exact ⟨m, accepted, h⟩
  | tick ms =>
      refine ⟨m, accepted, h.app, fun field => ?_, h.workers, h.absent, h.sockets, h.owners, h.apart, h.sound⟩
      exact h.fields field

theorem accounted_of_run
    (hrun : Run (System.opening cfg) (System.Proper cfg) (System.created, Ledger.empty) t) :
    ∃ m accepted, Accounted t m accepted := by
  apply hrun.invariant ⟨_, _, accounted_created⟩
  rintro _ _ _ ⟨_, _, h⟩ hproper hstep
  exact accounted_step h hproper hstep

/-- Nothing is shut down or closed that is not in use, and while the server does not run, all its
sockets are closed: every socket that a start has opened has been closed once. -/
theorem descriptors_of_run
    (hrun : Run (System.opening cfg) (System.Proper cfg) (System.created, Ledger.empty) t) :
    t.2.astray = false ∧
      (t.1.app = .ret () → t.1.alive = false ∨ t.1.shared.ctx.running = 0 → t.2.sockets = ∅) := by
  obtain ⟨m, accepted, h⟩ := accounted_of_run hrun
  refine ⟨h.sound, ?_⟩
  intro hidle hover
  have hsettled := h.app
  rw [hidle] at hsettled
  rw [h.sockets]
  rcases hover with hdestroyed | hzero
  · exact hsettled.2 hdestroyed
  · apply hsettled.1.stopped
    rw [← hzero]
    exact (h.fields .running).symm

/-- From the clean-up of a stop on there is no client and no thread. -/
def Swept (t : System × Ledger) : Prop :=
  t.2.swept = true → t.1.shared.ctx.client.connected = false ∧ ∀ w ∈ t.1.workers, w.finished = true

/-- The threads have ended when a stop cleans up. -/
def System.Joined (s : System) (move : Move) : Prop :=
  s.nextCall move = some .stopClient → ∀ w ∈ s.workers, w.finished = true

theorem Ledger.note_swept {s : System} {c : ServerCall} {r : c.Result} {l : Ledger}
    (h : (Ledger.note s ⟨c, r⟩ l).swept = true) : c = .stopClient ∨ l.swept = true := by
  have hclose : ∀ fd, (l.close fd).swept = l.swept := by
    intro fd
    unfold Ledger.close
    split
    · rfl
    · split <;> rfl
  cases c with
  | stopClient => exact Or.inl rfl
  | socket =>
      simp only [Ledger.note] at h
      split at h <;> exact Or.inr h
  | accept fd =>
      simp only [Ledger.note] at h
      split at h <;> exact Or.inr h
  | close fd => exact Or.inr ((hclose fd).symm.trans h)
  | shutdown fd =>
      simp only [Ledger.note] at h
      split at h <;> exact Or.inr h
  | removeClient =>
      simp only [Ledger.note] at h
      split at h
      · exact Or.inr ((hclose _).symm.trans h)
      · exact Or.inr h
  | pthreadCreate function => cases h
  | _ => exact Or.inr h

theorem finished_call {w : Worker} {c : ServerCall} {next : c.Result → ServerProgram Round}
    (hcode : w.code = .call c next) : w.finished = false := by
  rw [Worker.finished, hcode]

theorem swept_step (hswept : Swept t) (h : Accounted t m accepted) (hjoined : t.1.Joined move)
    (hstep : System.opening cfg move t = some t') : Swept t' := by
  obtain ⟨made, hcalled, hmakes, hledger⟩ := System.makes_of_recording hstep
  obtain ⟨s', l'⟩ := t'
  obtain rfl : l' = _ := hledger
  generalize hs' : (s', System.noted Ledger.note t.1 t.2 made).1 = s'' at hmakes
  obtain rfl : s' = s'' := hs'
  have hrunning : ∀ {index : Nat} {w : Worker}, t.1.workers[index]? = some w → w.finished = false →
      t.2.swept ≠ true := by
    intro index w hworker hfinished hold
    have hdone := (hswept hold).2 w (List.mem_of_getElem? hworker)
    rw [hfinished] at hdone
    cases hdone
  intro hnow
  cases hmakes with
  | job hidle halive => exact hswept hnow
  | created happ => cases hnow
  | notCreated left happ => cases hnow
  | joined happ hfinished => exact hswept hnow
  | app happ hthread hperform =>
      have hgood := (h.app_next happ).1
      rcases Ledger.note_swept hnow with rfl | hold
      · refine ⟨?_, hjoined (System.nextCall_app happ)⟩
        cases hperform
        unfold Shared.stopClient
        split
        · rfl
        · next hnone => exact Bool.eq_false_iff.mpr hnone
      · obtain ⟨hnobody, hdone⟩ := hswept hold
        refine ⟨?_, hdone⟩
        cases Shared.effect_of_perform hperform with
        | quiet hquiet =>
            rw [hquiet.client]
            exact hnobody
        | added hconnected => exact hgood.elim
        | removed hconnected => exact hgood.elim
        | stopped hconnected =>
            rw [hnobody] at hconnected
            cases hconnected
        | commanded value => exact hnobody
        | registered port => exact hnobody
  | again hworker hcode => exact absurd hnow (hrunning hworker (by rw [Worker.finished, hcode]))
  | worker hworker hcode hperform =>
      have hobeys := h.workers _ _ hworker
      rw [hcode] at hobeys
      rcases Ledger.note_swept hnow with rfl | hold
      · exact hobeys.1.elim
      · exact absurd hold (hrunning hworker (finished_call hcode))
  | reading hworker hcode => exact hswept hnow
  | tick ms => exact hswept hnow

/-- The steps by which somebody who connects is dealt with. -/
def ServerCall.attempts : ServerCall → Bool
  | .accept _ | .addClient _ _ | .close _ => true
  | _ => false

/-- Nothing is closed that is not in use, the connected client's socket is in use, and when a stop has
cleaned up, every accepted connection has been closed; an attempt to connect leaves the record of a
connected client as it is. -/
theorem clients_of_run
    (hrun : Run (System.opening cfg) (fun t move => System.Proper cfg t move ∧ t.1.Joined move)
      (System.created, Ledger.empty) t) :
    t.2.astray = false ∧
      (t.1.shared.ctx.client.connected = true → t.1.shared.ctx.client.socket ∈ t.2.clients) ∧
      (t.2.swept = true → t.2.clients = ∅) ∧
      ∀ move s', t.1.step cfg move = some s' → t.1.shared.ctx.client.connected = true →
        (t.1.nextCall move).any ServerCall.attempts = true →
          s'.shared.ctx.client = t.1.shared.ctx.client := by
  have hinv : (∃ m accepted, Accounted t m accepted) ∧ Swept t := by
    apply hrun.invariant ⟨⟨_, _, accounted_created⟩, nofun⟩
    rintro _ _ _ ⟨⟨_, _, h⟩, hswept⟩ ⟨hproper, hjoined⟩ hstep
    exact ⟨accounted_step h hproper hstep, swept_step hswept h hjoined hstep⟩
  obtain ⟨⟨m, accepted, h⟩, hswept⟩ := hinv
  refine ⟨h.sound, fun hconnected => (h.owners.mem_iff _).mpr (Or.inl ⟨hconnected, rfl⟩), ?_, ?_⟩
  · intro hnow
    obtain ⟨hnobody, hdone⟩ := hswept hnow
    apply Finset.eq_empty_of_forall_notMem
    intro fd hfd
    rcases (h.owners.mem_iff fd).mp hfd with ⟨hconnected, _⟩ | ⟨j, hj⟩
    · rw [hnobody] at hconnected
      cases hconnected
    · cases hworker : t.1.workers[j]? with
      | none =>
          rw [h.absent j hworker] at hj
          cases hj
      | some w =>
          have hobeys := h.workers j w hworker
          have hfinished := hdone w (List.mem_of_getElem? hworker)
          unfold Worker.finished at hfinished
          split at hfinished
          · next hcode =>
              rw [hcode] at hobeys
              rw [show accepted j = none from hobeys] at hj
              cases hj
          · cases hfinished
  · intro move s' hstep hconnected hattempt
    have hclient : ∀ {c : ServerCall} {shared : Shared}, t.1.nextCall move = some c →
        Shared.Effect cfg t.1.shared c shared → shared.ctx.client = t.1.shared.ctx.client := by
      intro c shared hcall heffect
      rw [hcall] at hattempt
      cases heffect with
      | quiet hquiet => exact hquiet.client
      | added hnone =>
          rw [hconnected] at hnone
          cases hnone
      | removed _ => cases hattempt
      | stopped _ => cases hattempt
      | commanded _ => cases hattempt
      | registered _ => cases hattempt
    cases System.taken_of_step hstep with
    | job job => rfl
    | silent r happ => rfl
    | spawned r function happ => rfl
    | app happ hperform =>
        exact hclient (System.nextCall_app happ) (Shared.effect_of_perform hperform)
    | again hworker hcode => rfl
    | worker hworker hcode hperform =>
        exact hclient (System.nextCall_worker hworker hcode) (Shared.effect_of_perform hperform)
    | reading index => rfl
    | tick ms => rfl

end Step

section Examples

instance (l : Ledger) (made : Called) : Decidable (l.Fresh made) :=
  match made with
  | ⟨c, r⟩ => by
      unfold Ledger.Fresh
      split <;> infer_instance

/-- The platform's promise about a step. -/
def System.freshCheck (cfg : ServerConfig) (t : System × Ledger) (move : Move) : Bool :=
  (t.1.called cfg move).all fun made => decide (t.2.Fresh made)

theorem fresh_of_check {t : System × Ledger} {move : Move}
    (h : System.freshCheck plainConfig t move = true) :
    ∀ made, t.1.called plainConfig move = some made → t.2.Fresh made := by
  intro made hmade
  rw [System.freshCheck, hmade] at h
  exact of_decide_eq_true h

def System.isIdle (s : System) : Bool :=
  match s.app with
  | .ret _ => true
  | .call _ _ => false

theorem System.idle_of_isIdle {s : System} (h : s.isIdle = true) : s.app = .ret () := by
  unfold System.isIdle at h
  split at h
  · next happ => exact happ
  · cases h

/-- Destroying a server that has been stopped. -/
def destroyMoves : List Move := .job .destroy :: List.replicate 9 (.app {})

/-- A server is started, stopped and destroyed. -/
theorem descriptors_destroyed : ∃ t : System × Ledger,
    t.1.alive = false ∧ t.2.astray = false ∧ t.2.sockets = ∅ := by
  obtain ⟨t, hrun, hend⟩ := Run.exists_of_follow
    (fun (t : System × Ledger) move => System.freshCheck plainConfig t move && decide (t.1.StopsSound move))
    (startMoves ++ stopMoves ++ destroyMoves)
    (fun t : System × Ledger => !t.1.alive && t.1.isIdle)
    (fun t move hcheck => (⟨fresh_of_check (Bool.and_eq_true_iff.mp hcheck).1,
      of_decide_eq_true (Bool.and_eq_true_iff.mp hcheck).2⟩ : System.Proper plainConfig t move))
    (by decide +kernel : (Run.follow (System.opening plainConfig) _ _
      (System.created, Ledger.empty)).any _ = true)
  obtain ⟨halive, hidle⟩ := Bool.and_eq_true_iff.mp hend
  have hover : t.1.alive = false := by simpa using halive
  obtain ⟨hastray, hsockets⟩ := descriptors_of_run hrun
  exact ⟨t, hover, hastray, hsockets (System.idle_of_isIdle hidle) (Or.inl hover)⟩

/-- A start fails to bind its socket and closes it, and the server is destroyed: the socket is shut
down and closed once more. -/
theorem failed_start_closed_again : ∃ t : System × Ledger,
    Run (System.opening plainConfig)
      (fun t move => (∀ made, t.1.called plainConfig move = some made → t.2.Fresh made) ∧
        (move = .job .start → t.1.shared.ctx.running = 0)) (System.created, Ledger.empty) t ∧
      t.2.astray = true := by
  obtain ⟨t, hrun, hend⟩ := Run.exists_of_follow
    (fun (t : System × Ledger) move => System.freshCheck plainConfig t move &&
      decide (t.1.shared.ctx.running = 0))
    (.job .start :: List.replicate 7 (.app { descriptor := 4, result := -1 }) ++
      .job .destroy :: List.replicate 4 (.app {}))
    (fun t : System × Ledger => t.2.astray)
    (fun t move hcheck => (⟨fresh_of_check (Bool.and_eq_true_iff.mp hcheck).1,
      fun _ => of_decide_eq_true (Bool.and_eq_true_iff.mp hcheck).2⟩ :
        (∀ made, t.1.called plainConfig move = some made → t.2.Fresh made) ∧
          (move = .job .start → t.1.shared.ctx.running = 0)))
    (by decide +kernel : (Run.follow (System.opening plainConfig) _ _
      (System.created, Ledger.empty)).any _ = true)
  exact ⟨t, hrun, hend⟩

/-- A client is served until the server is stopped. -/
theorem clients_released : ∃ t : System × Ledger,
    t.2.swept = true ∧ t.2.astray = false ∧ t.2.clients = ∅ := by
  obtain ⟨t, hrun, hend⟩ := Run.exists_of_follow
    (fun (t : System × Ledger) move => System.freshCheck plainConfig t move &&
      decide (t.1.StopsSound move) && (decide (t.1.nextCall move ≠ some .stopClient) ||
        t.1.workers.all Worker.finished))
    (startMoves ++ acceptMoves ++ stopMoves)
    (fun t : System × Ledger => t.2.swept)
    (fun t move hcheck => by
      obtain ⟨hproper, hjoined⟩ := Bool.and_eq_true_iff.mp hcheck
      refine (⟨⟨fresh_of_check (Bool.and_eq_true_iff.mp hproper).1,
        of_decide_eq_true (Bool.and_eq_true_iff.mp hproper).2⟩, ?_⟩ :
          System.Proper plainConfig t move ∧ t.1.Joined move)
      intro hstop
      rcases (Bool.or_eq_true _ _).mp hjoined with hother | hall
      · exact absurd hstop (of_decide_eq_true hother)
      · exact List.all_eq_true.mp hall)
    (by decide +kernel : (Run.follow (System.opening plainConfig) _ _
      (System.created, Ledger.empty)).any _ = true)
  obtain ⟨hastray, _, hclients, _⟩ := clients_of_run hrun
  exact ⟨t, hend, hastray, hclients hend⟩

end Examples

end YaskawaComms.Server
