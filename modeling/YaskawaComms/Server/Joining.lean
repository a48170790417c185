import YaskawaComms.Server.Descriptors
import YaskawaComms.Server.Running

/-!
# Stopping waits for the threads

A start stores the identifiers of the threads that it creates, and a stop joins what is stored. As
long as the server is started only when it is not running, no identifier is lost: when a stop
cleans up, and after a stop or a destroy has returned, every thread has ended.
-/

namespace YaskawaComms.Server

open Protocol Program

section Application

/-- What the application knows: the fields of the context, a thread that it has created without
having stored its identifier, the threads that it has joined, and whether the client has been
released since it created a thread. -/
structure Handles where
  ctx : ServerCtx
  pending : Option Int
  joined : List Int
  released : Bool

/-- No thread is lost with this identifier. -/
def Handles.Forgettable (m : Handles) (thread : Int) : Prop := thread = 0 ∨ thread ∈ m.joined

def CtxField.isThread : CtxField → Bool
  | .tcpThread | .timeoutThread => true
  | _ => false

/-- An identifier is overwritten only once its thread has been joined, and the client is released,
the lock ended and the server freed only once no identifier is left. -/
def joining : Monitor serverSignature Handles where
  good m c := match c with
    | .load _ | .socket | .bind _ _ | .listen _ | .shutdown _ | .close _ | .pthreadJoin _ => True
    | .store field value => field.isThread = true →
        m.Forgettable (m.ctx.get field) ∧ ∀ thread, m.pending = some thread → thread = value
    | .pthreadCreate _ => m.pending = none
    | .stopClient | .lockDestroy | .free _ =>
        m.pending = none ∧ m.ctx.tcpThread = 0 ∧ m.ctx.timeoutThread = 0
    | _ => False
  allowed m c := match c with
    | .load field => fun value => value = m.ctx.get field
    | _ => fun _ => True
  next m c := match c with
    | .store field value => fun _ =>
        { m with
          ctx := m.ctx.set value field
          pending := if field.isThread then none else m.pending }
    | .pthreadCreate _ => fun thread => { m with pending := thread.toOption, released := false }
    | .pthreadJoin thread => fun _ => { m with joined := thread :: m.joined }
    | .stopClient => fun _ => { m with released := true }
    | _ => fun _ => m

/-- Between two calls of the interface: every identifier is stored, and of a server that is not
running none is left. -/
structure Handles.Settled (m : Handles) : Prop where
  stored : m.pending = none
  stopped : m.ctx.running = 0 → m.released = true ∧ m.ctx.tcpThread = 0 ∧ m.ctx.timeoutThread = 0

variable {α : Type} {post : α → Handles → Prop} {m : Handles}

theorem joining_load {field : CtxField} {f : Int → ServerProgram α}
    (h : (f (m.ctx.get field)).Obeys joining post m) : (load field >>= f).Obeys joining post m := by
  apply obeys_keep trivial (fun _ => rfl)
  rintro _ rfl
  exact h

theorem joining_store {field : CtxField} {value : Int} {f : Unit → ServerProgram α}
    (hfield : field.isThread = false)
    (h : (f ()).Obeys joining post { m with ctx := m.ctx.set value field }) :
    (store field value >>= f).Obeys joining post m := by
  refine ⟨fun hthread => ?_, fun _ _ => ?_⟩
  · rw [hfield] at hthread
    cases hthread
  · have hkept : joining.next m (.store field value) () = { m with ctx := m.ctx.set value field } := by
      simp [joining, hfield]
    exact hkept ▸ h

/-- The fields that neither a thread nor a socket call of a start changes. -/
def Handles.SameThreads (m m' : Handles) : Prop :=
  m'.pending = m.pending ∧ m'.released = m.released ∧ m'.ctx.tcpThread = m.ctx.tcpThread ∧
    m'.ctx.timeoutThread = m.ctx.timeoutThread ∧ m'.ctx.running = m.ctx.running

theorem startThread_joining (function : ThreadFunction) {field : CtxField}
    (hfield : field.isThread = true) (hpending : m.pending = none) (hfree : m.ctx.get field = 0) :
    (startThread function field).Obeys joining (fun _ m' => m'.pending = none ∧
      m'.ctx.running = m.ctx.running ∧ ∀ other, other ≠ field → m'.ctx.get other = m.ctx.get other)
      m := by
  have hstored : ∀ (m₀ : Handles) (value : Int), m₀.ctx = m.ctx →
      (∀ thread, m₀.pending = some thread → thread = value) →
      (store field value).Obeys joining (fun _ m' => m'.pending = none ∧
        m'.ctx.running = m.ctx.running ∧ ∀ other, other ≠ field → m'.ctx.get other = m.ctx.get other)
        m₀ := by
    intro m₀ value hctx hknown
    refine ⟨fun _ => ⟨Or.inl (hctx ▸ hfree), hknown⟩, fun _ _ => ⟨?_, ?_, ?_⟩⟩
    · simp [joining, hfield]
    · show (m₀.ctx.set value field).running = m.ctx.running
      rw [hctx]
      cases field <;> first | rfl | cases hfield
    · intro other hne
      show (m₀.ctx.set value field).get other = m.ctx.get other
      rw [ServerCtx.get_set, if_neg hne, hctx]
  refine ⟨hpending, fun thread _ => ?_⟩
  cases thread with
  | ok thread => exact hstored _ thread rfl fun _ h => (Option.some.inj h).symm
  | error left =>
      cases left with
      | none => exact ⟨rfl, rfl, fun _ _ => rfl⟩
      | some left => exact hstored _ left rfl nofun

theorem robotProtocolStart_joining (cfg : ServerConfig) (hsettled : m.Settled)
    (hrunning : m.ctx.running = 0) :
    (robotProtocolStart cfg).Obeys joining (fun _ m' => m'.Settled) m := by
  obtain ⟨hpending, hstopped⟩ := hsettled
  obtain ⟨hreleased, htcp, htimeout⟩ := hstopped hrunning
  obtain ⟨ctx, pending, joined, released⟩ := m
  obtain rfl : pending = none := hpending
  -- a start that fails has left the threads alone
  have hfailed : ∀ ctx' : ServerCtx, ctx'.running = 0 → ctx'.tcpThread = 0 → ctx'.timeoutThread = 0 →
      (⟨ctx', none, joined, released⟩ : Handles).Settled :=
    fun ctx' _ htcp' htimeout' => ⟨rfl, fun _ => ⟨hreleased, htcp', htimeout'⟩⟩
  have hclose : ∀ ctx' : ServerCtx, ctx'.running = 0 → ctx'.tcpThread = 0 → ctx'.timeoutThread = 0 →
      (load .tcpSocket >>= fun fd => platformClose fd >>= fun _ => pure (-1)).Obeys joining
        (fun (_ : Int) m' => m'.Settled) ⟨ctx', none, joined, released⟩ := by
    intro ctx' hrunning' htcp' htimeout'
    apply joining_load
    apply obeys_keep trivial (fun _ => rfl)
    intro _ _
    exact hfailed ctx' hrunning' htcp' htimeout'
  unfold robotProtocolStart
  apply obeys_keep trivial (fun _ => rfl)
  intro tcp _
  apply joining_store rfl
  apply joining_load
  apply obeys_ite
  · intro _
    exact hfailed _ hrunning htcp htimeout
  intro _
  apply joining_load
  apply obeys_keep trivial (fun _ => rfl)
  intro bound _
  apply obeys_ite
  · intro _
    exact hclose _ hrunning htcp htimeout
  intro _
  apply joining_load
  apply obeys_keep trivial (fun _ => rfl)
  intro listening _
  apply obeys_ite
  · intro _
    exact hclose _ hrunning htcp htimeout
  intro _
  apply obeys_keep trivial (fun _ => rfl)
  intro udp _
  apply joining_store rfl
  apply joining_load
  apply obeys_ite
  · intro _
    exact hclose _ hrunning htcp htimeout
  intro _
  apply joining_load
  apply obeys_keep trivial (fun _ => rfl)
  intro bound _
  apply obeys_ite
  · intro _
    apply joining_load
    apply obeys_keep trivial (fun _ => rfl)
    intro _ _
    apply joining_load
    apply obeys_keep trivial (fun _ => rfl)
    intro _ _
    exact hfailed _ hrunning htcp htimeout
  intro _
  apply joining_store rfl
  refine Obeys.bind (startThread_joining .tcp rfl rfl htcp) ?_
  rintro _ m₁ ⟨hpending₁, hrunning₁, hother₁⟩
  have htimeout₁ : m₁.ctx.get .timeoutThread = 0 := (hother₁ .timeoutThread nofun).trans htimeout
  apply (startThread_joining .timeout rfl hpending₁ htimeout₁).bind
  rintro _ m₂ ⟨hpending₂, hrunning₂, -⟩
  refine ⟨hpending₂, fun hzero => ?_⟩
  rw [hrunning₂, hrunning₁] at hzero
  cases hzero

theorem joinThread_joining {field : CtxField} (hfield : field.isThread = true)
    (hpending : m.pending = none) :
    (joinThread field).Obeys joining (fun _ m' => m'.pending = none ∧ m'.ctx.get field = 0 ∧
      ∀ other, other ≠ field → m'.ctx.get other = m.ctx.get other) m := by
  unfold joinThread
  apply joining_load
  apply obeys_ite
  · intro _
    apply joining_load
    refine ⟨trivial, fun _ _ => ⟨fun _ => ⟨Or.inr ?_, ?_⟩, fun _ _ => ⟨?_, ?_, ?_⟩⟩⟩
    · exact List.mem_cons_self
    · intro thread hthread
      rw [show m.pending = some thread from hthread] at hpending
      cases hpending
    · simp [joining, hfield]
    · show (m.ctx.set 0 field).get field = 0
      rw [ServerCtx.get_set, if_pos rfl]
    · intro other hne
      show (m.ctx.set 0 field).get other = m.ctx.get other
      rw [ServerCtx.get_set, if_neg hne]
  · intro hzero
    exact ⟨hpending, not_not.mp hzero, fun _ _ => rfl⟩

theorem closeSocket_joining {field : CtxField} (hfield : field = .tcpSocket ∨ field = .udpSocket) :
    (closeSocket field).Obeys joining (fun _ m' => m.SameThreads m') m := by
  unfold closeSocket
  apply joining_load
  apply obeys_ite
  · intro _
    apply joining_load
    apply obeys_keep trivial (fun _ => rfl)
    intro _ _
    rcases hfield with rfl | rfl
    · exact ⟨nofun, fun _ _ => ⟨rfl, rfl, rfl, rfl, rfl⟩⟩
    · exact ⟨nofun, fun _ _ => ⟨rfl, rfl, rfl, rfl, rfl⟩⟩
  · intro _
    exact ⟨rfl, rfl, rfl, rfl, rfl⟩

/-- A stop joins both threads before it releases the client. -/
theorem robotProtocolStop_joining (hpending : m.pending = none) :
    robotProtocolStop.Obeys joining (fun _ m' => m'.Settled ∧ m'.ctx.running = 0) m := by
  have hend : ∀ m₀ : Handles, m₀.pending = none → m₀.ctx.running = 0 →
      (joinThread .tcpThread >>= fun _ => joinThread .timeoutThread >>= fun _ => stopClient >>= fun _ =>
        closeSocket .tcpSocket >>= fun _ => closeSocket .udpSocket).Obeys joining
        (fun _ m' => m'.Settled ∧ m'.ctx.running = 0) m₀ := by
    intro m₀ hpending₀ hrunning₀
    apply (joinThread_joining rfl hpending₀).bind
    rintro _ m₁ ⟨hpending₁, htcp₁, hother₁⟩
    apply (joinThread_joining rfl hpending₁).bind
    rintro _ m₂ ⟨hpending₂, htimeout₂, hother₂⟩
    have htcp₂ : m₂.ctx.tcpThread = 0 := (hother₂ .tcpThread nofun).trans htcp₁
    have hrunning₂ : m₂.ctx.running = 0 :=
      (hother₂ .running nofun).trans ((hother₁ .running nofun).trans hrunning₀)
    refine ⟨⟨hpending₂, htcp₂, htimeout₂⟩, fun _ _ => ?_⟩
    apply (closeSocket_joining (Or.inl rfl)).bind
    rintro _ m₃ ⟨hpending₃, hreleased₃, htcp₃, htimeout₃, hrunning₃⟩
    apply (closeSocket_joining (Or.inr rfl)).mono
    rintro _ m₄ ⟨hpending₄, hreleased₄, htcp₄, htimeout₄, hrunning₄⟩
    refine ⟨⟨?_, fun _ => ⟨?_, ?_, ?_⟩⟩, ?_⟩
    · rw [hpending₄, hpending₃]
      exact hpending₂
    · rw [hreleased₄, hreleased₃]
      rfl
    · rw [htcp₄, htcp₃]
      exact htcp₂
    · rw [htimeout₄, htimeout₃]
      exact htimeout₂
    · rw [hrunning₄, hrunning₃]
      exact hrunning₂
  unfold robotProtocolStop
  apply joining_store rfl
  apply joining_load
  apply obeys_ite
  · intro _
    apply joining_load
    apply obeys_keep trivial (fun _ => rfl)
    intro _ _
    exact hend _ hpending rfl
  · intro _
    exact hend _ hpending rfl

theorem robotProtocolDestroy_joining (hpending : m.pending = none) :
    robotProtocolDestroy.Obeys joining (fun _ m' => m'.Settled ∧ m'.ctx.running = 0) m := by
  unfold robotProtocolDestroy
  apply (robotProtocolStop_joining hpending).bind
  rintro _ m' ⟨hsettled, hzero⟩
  obtain ⟨-, htcp, htimeout⟩ := hsettled.stopped hzero
  have hnone := hsettled.stored
  exact ⟨⟨hnone, htcp, htimeout⟩, fun _ _ => ⟨⟨hnone, htcp, htimeout⟩, fun _ _ => ⟨hsettled, hzero⟩⟩⟩

theorem Job.code_joining (cfg : ServerConfig) (job : Job) (hsettled : m.Settled)
    (hstart : job = .start → m.ctx.running = 0) :
    (job.code cfg).Obeys joining
      (fun _ m' => m'.Settled ∧ (job = .destroy → m'.ctx.running = 0)) m := by
  cases job with
  | start =>
      apply (robotProtocolStart_joining cfg hsettled (hstart rfl)).bind
      intro _ m' hsettled'
      exact ⟨hsettled', nofun⟩
  | stop => exact (robotProtocolStop_joining hsettled.stored).mono fun _ _ h => ⟨h.1, nofun⟩
  | destroy => exact (robotProtocolDestroy_joining hsettled.stored).mono fun _ _ h => ⟨h.1, fun _ => h.2⟩

end Application

section Step

/-- Every thread that has not ended is known by its identifier, and none is left once the client has
been released. -/
structure Attached (s : System) (m : Handles) : Prop where
  app : s.app.Obeys joining
    (fun _ m' => m'.Settled ∧ (s.alive = false → m'.ctx.running = 0)) m
  fields : ∀ field, s.shared.ctx.get field = m.ctx.get field
  code : ∀ (j : Nat) w, s.workers[j]? = some w → Stays false w.code
  known : ∀ (j : Nat) w, s.workers[j]? = some w → w.finished = true ∨
    (j + 1 : Int) = m.ctx.tcpThread ∨ (j + 1 : Int) = m.ctx.timeoutThread ∨ m.pending = some (j + 1 : Int)
  joined : ∀ thread ∈ m.joined, s.workers[(thread - 1).toNat]?.any Worker.finished = true
  released : m.released = true →
    s.shared.ctx.client.connected = false ∧ ∀ w ∈ s.workers, w.finished = true

/-- The server is started only when it is not running. -/
def System.StartsStopped (s : System) (move : Move) : Prop :=
  move = .job .start → s.shared.ctx.running = 0

theorem System.Proper.startsStopped {cfg : ServerConfig} {t : System × Ledger} {move : Move}
    (h : System.Proper cfg t move) : t.1.StartsStopped move := by
  rintro rfl
  exact h.stops

variable {cfg : ServerConfig} {s s' : System} {m : Handles} {move : Move}

theorem attached_created : Attached System.created ⟨robotProtocolCreate.ctx, none, [], true⟩ :=
  ⟨⟨⟨rfl, fun _ => ⟨rfl, rfl, rfl⟩⟩, nofun⟩, fun _ => rfl, nofun, nofun, nofun,
    fun _ => ⟨rfl, nofun⟩⟩

theorem Attached.job {job : Job} {u : Unit} (h : Attached s m) (hidle : s.app = .ret u)
    (hstart : s.StartsStopped (.job job)) :
    Attached { s with app := job.code cfg, alive := job ≠ .destroy } m := by
  have hsettled := h.app
  rw [hidle] at hsettled
  refine ⟨?_, h.fields, h.code, h.known, h.joined, h.released⟩
  have hrunning : job = .start → m.ctx.running = 0 := by
    rintro rfl
    exact (h.fields .running).symm.trans (hstart rfl)
  apply (job.code_joining cfg hsettled.1 hrunning).mono
  rintro _ m' ⟨hsettled', hdestroyed⟩
  refine ⟨hsettled', fun halive => hdestroyed ?_⟩
  by_contra hne
  rw [decide_eq_false_iff_not] at halive
  exact halive hne

theorem Attached.app_next {c : ServerCall} {next : c.Result → ServerProgram Unit}
    (h : Attached s m) (happ : s.app = .call c next) :
    joining.good m c ∧ ∀ r, joining.allowed m c r → (next r).Obeys joining
      (fun _ m' => m'.Settled ∧ (s.alive = false → m'.ctx.running = 0)) (joining.next m c r) := by
  have hobeys := h.app
  rw [happ] at hobeys
  exact hobeys

theorem Attached.created {function : ThreadFunction}
    {next : Except (Option Nat) Int → ServerProgram Unit}
    (h : Attached s m) (happ : s.app = .call (.pthreadCreate function) next) :
    Attached
      { s with
        app := next (.ok (s.workers.length + 1))
        workers := s.workers ++ [.fresh cfg function] }
      { m with pending := some (s.workers.length + 1), released := false } := by
  obtain ⟨hpending, hnext⟩ := h.app_next happ
  refine ⟨hnext (.ok (s.workers.length + 1)) trivial, h.fields, ?_, ?_, ?_, nofun⟩
  · intro j w hw
    rcases System.worker_of_append hw with hold | ⟨-, rfl⟩
    · exact h.code j w hold
    · exact stays_fresh function false
  · intro j w hw
    rcases System.worker_of_append hw with hold | ⟨hnew, rfl⟩
    · rcases h.known j w hold with hfinished | htcp | htimeout | hcreated
      · exact Or.inl hfinished
      · exact Or.inr (Or.inl htcp)
      · exact Or.inr (Or.inr (Or.inl htimeout))
      · rw [show m.pending = none from hpending] at hcreated
        cases hcreated
    · have hlast : j = s.workers.length := by
        have hlt := (List.getElem?_eq_some_iff.mp hw).1
        rw [List.length_append, List.length_singleton] at hlt
        have hle := List.getElem?_eq_none_iff.mp hnew
        omega
      exact Or.inr (Or.inr (Or.inr (by rw [hlast])))
  · intro thread hthread
    obtain ⟨w, hw, hfinished⟩ := (Option.any_eq_true _ _).mp (h.joined thread hthread)
    have hlt := (List.getElem?_eq_some_iff.mp hw).1
    rw [List.getElem?_append_left hlt, hw]
    exact hfinished

/-- A thread that has not ended is replaced. -/
theorem Attached.replace {index : Nat} {w w' : Worker} {shared : Shared} (h : Attached s m)
    (hworker : s.workers[index]? = some w) (hunfinished : w.finished = false)
    (hcode : Stays false w'.code)
    (hfields : ∀ field, shared.ctx.get field = s.shared.ctx.get field) :
    Attached { s with workers := s.workers.set index w', shared := shared } m := by
  have hbusy : ¬ ∀ w ∈ s.workers, w.finished = true := by
    intro hall
    have hfinished := hall w (List.mem_of_getElem? hworker)
    rw [hunfinished] at hfinished
    cases hfinished
  refine ⟨h.app, fun field => (hfields field).trans (h.fields field), ?_, ?_, ?_, ?_⟩
  · intro j v hv
    rcases System.worker_of_set hv with ⟨-, rfl⟩ | ⟨-, hold⟩
    · exact hcode
    · exact h.code j v hold
  · intro j v hv
    rcases System.worker_of_set hv with ⟨rfl, -⟩ | ⟨-, hold⟩
    · refine Or.inr ((h.known j w hworker).resolve_left ?_)
      rw [hunfinished]
      exact Bool.false_ne_true
    · exact h.known j v hold
  · intro thread hthread
    obtain ⟨v, hv, hfinished⟩ := (Option.any_eq_true _ _).mp (h.joined thread hthread)
    have hne : index ≠ (thread - 1).toNat := by
      rintro rfl
      rw [hworker, Option.some.injEq] at hv
      rw [← hv, hunfinished] at hfinished
      cases hfinished
    rw [List.getElem?_set_ne hne, hv]
    exact hfinished
  · intro hreleased
    exact absurd (h.released hreleased).2 hbusy

theorem Attached.all_finished (h : Attached s m)
    (hnone : m.pending = none ∧ m.ctx.tcpThread = 0 ∧ m.ctx.timeoutThread = 0) :
    ∀ w ∈ s.workers, w.finished = true := by
  intro w hw
  obtain ⟨j, hj⟩ := List.getElem?_of_mem hw
  obtain ⟨hpending, htcp, htimeout⟩ := hnone
  rcases h.known j w hj with hfinished | htcp' | htimeout' | hcreated
  · exact hfinished
  · omega
  · omega
  · rw [hpending] at hcreated
    cases hcreated

theorem Attached.forgets {j : Nat} {w : Worker} (h : Attached s m) (hw : s.workers[j]? = some w)
    (hforget : m.Forgettable (j + 1)) : w.finished = true := by
  rcases hforget with hzero | hjoined
  · omega
  · obtain ⟨v, hv, hfinished⟩ := (Option.any_eq_true _ _).mp (h.joined _ hjoined)
    have hindex : ((j : Int) + 1 - 1).toNat = j := by omega
    rw [hindex, hw, Option.some.injEq] at hv
    rw [hv]
    exact hfinished

theorem Attached.stores {field : CtxField} {value : Int} {j : Nat} {w : Worker} (h : Attached s m)
    (hgood : joining.good m (.store field value)) (hw : s.workers[j]? = some w) :
    w.finished = true ∨ (j + 1 : Int) = (m.ctx.set value field).tcpThread ∨
      (j + 1 : Int) = (m.ctx.set value field).timeoutThread ∨
      (if field.isThread then none else m.pending) = some (j + 1 : Int) := by
  have hknown := h.known j w hw
  cases field with
  | tcpThread =>
      obtain ⟨hforget, hvalue⟩ := hgood rfl
      rcases hknown with hfinished | htcp | htimeout | hcreated
      · exact Or.inl hfinished
      · exact Or.inl (h.forgets hw (htcp ▸ hforget))
      · exact Or.inr (Or.inr (Or.inl htimeout))
      · exact Or.inr (Or.inl (hvalue _ hcreated))
  | timeoutThread =>
      obtain ⟨hforget, hvalue⟩ := hgood rfl
      rcases hknown with hfinished | htcp | htimeout | hcreated
      · exact Or.inl hfinished
      · exact Or.inr (Or.inl htcp)
      · exact Or.inl (h.forgets hw (htimeout ▸ hforget))
      · exact Or.inr (Or.inr (Or.inl (hvalue _ hcreated)))
  | tcpSocket => exact hknown
  | udpSocket => exact hknown
  | running => exact hknown

theorem Attached.application {a : Answers} {c : ServerCall} {next : c.Result → ServerProgram Unit}
    {r : c.Result} {shared : Shared} (h : Attached s m) (happ : s.app = .call c next)
    (hthread : c.isThread = false) (hperform : s.shared.perform cfg a c = some (r, shared)) :
    Attached { s with app := next r, shared := shared } (joining.next m c r) := by
  obtain ⟨hgood, hnext⟩ := h.app_next happ
  -- calls that neither store a field nor touch the client
  have hquiet : joining.allowed m c r → joining.next m c r = m →
      (∀ field, shared.ctx.get field = s.shared.ctx.get field) →
      shared.ctx.client = s.shared.ctx.client →
      Attached { s with app := next r, shared := shared } (joining.next m c r) := by
    intro hallowed hsame hfields hclient
    have hobeys := hnext r hallowed
    rw [hsame] at hobeys ⊢
    refine ⟨hobeys, fun field => (hfields field).trans (h.fields field), h.code, h.known, h.joined, ?_⟩
    intro hreleased
    rw [hclient]
    exact h.released hreleased
  cases c with
  | load field =>
      cases hperform
      exact hquiet (h.fields field) rfl (fun _ => rfl) rfl
  | store field value =>
      cases hperform
      refine ⟨hnext () trivial, ?_, h.code, ?_, h.joined, ?_⟩
      · intro other
        show (s.shared.ctx.set value field).get other = (m.ctx.set value field).get other
        rw [ServerCtx.get_set, ServerCtx.get_set, h.fields other]
      · intro j w hw
        exact h.stores hgood hw
      · intro hreleased
        refine ⟨?_, (h.released hreleased).2⟩
        rw [ServerCtx.set_client]
        exact (h.released hreleased).1
  | stopClient =>
      have hfields := Shared.get_of_perform hperform nofun
      cases hperform
      refine ⟨hnext () trivial, fun field => (hfields field).trans (h.fields field), h.code, h.known,
        h.joined, fun _ => ⟨?_, h.all_finished hgood⟩⟩
      unfold Shared.stopClient
      split
      · rfl
      · next hnone => exact Bool.eq_false_iff.mpr hnone
  | pthreadCreate function => cases hthread
  | pthreadJoin thread => cases hthread
  | lockDestroy =>
      cases hperform
      exact hquiet trivial rfl (fun _ => rfl) rfl
  | free block =>
      cases hperform
      exact hquiet trivial rfl (fun _ => rfl) rfl
  | socket =>
      cases hperform
      exact hquiet trivial rfl (fun _ => rfl) rfl
  | bind fd port =>
      cases hperform
      exact hquiet trivial rfl (fun _ => rfl) rfl
  | listen fd =>
      cases hperform
      exact hquiet trivial rfl (fun _ => rfl) rfl
  | shutdown fd =>
      cases hperform
      exact hquiet trivial rfl (fun _ => rfl) rfl
  | close fd =>
      cases hperform
      exact hquiet trivial rfl (fun _ => rfl) rfl
  | _ => exact hgood.elim

theorem attached_step (h : Attached s m) (hstart : s.StartsStopped move)
    (hstep : s.step cfg move = some s') : ∃ m', Attached s' m' := by
  have hneither : ∀ {P : Prop}, false = true → P := fun hfalse => absurd hfalse Bool.false_ne_true
  have hmakes := System.makes_of_step hstep
  generalize s.called cfg move = made at hmakes
  cases hmakes with
  | job hidle halive => exact ⟨m, h.job hidle hstart⟩
  | created happ => exact ⟨_, h.created happ⟩
  | notCreated left happ =>
      obtain ⟨hpending, hnext⟩ := h.app_next happ
      refine ⟨_, hnext (.error left) trivial, h.fields, h.code, ?_, h.joined, hneither⟩
      intro j w hw
      have hknown := h.known j w hw
      rw [show m.pending = none from hpending] at hknown
      exact hknown
  | joined happ hfinished =>
      obtain ⟨-, hnext⟩ := h.app_next happ
      refine ⟨_, hnext () trivial, h.fields, h.code, h.known, ?_, h.released⟩
      intro thread hthread
      rcases List.mem_cons.mp hthread with rfl | hbefore
      · exact hfinished
      · exact h.joined thread hbefore
  | app happ hthread hperform => exact ⟨_, h.application happ hthread hperform⟩
  | again hworker hcode =>
      exact ⟨m, h.replace hworker (by rw [Worker.finished, hcode]) (stays_fresh _ false) fun _ => rfl⟩
  | @worker index a w c next r shared hworker hcode hperform =>
      have hstays := h.code _ _ hworker
      rw [hcode] at hstays
      refine ⟨m, h.replace hworker (finished_call hcode) (hstays.next hneither) ?_⟩
      apply Shared.get_of_perform hperform
      rintro field value rfl
      cases hstays.1
  | reading hworker hcode => exact ⟨m, h⟩
  | tick ms =>
      exact ⟨m, h.app, fun field => h.fields field, h.code, h.known, h.joined, h.released⟩

theorem System.step_worker_finished {s : System} (h : ∀ w ∈ s.workers, w.finished = true) (index : Nat)
    (a : Answers) : s.step cfg (.worker index a) = none := by
  simp only [System.step]
  cases hworker : s.workers[index]? with
  | none => rfl
  | some w =>
      have hfinished := h w (List.mem_of_getElem? hworker)
      unfold Worker.finished at hfinished
      split at hfinished
      · next hcode => simp only [Worker.step, hcode, Option.map_none]
      · cases hfinished

theorem Accounted.ended_accepts {t : System × Ledger} {held : Holdings} {accepted : Nat → Option Int}
    (h : Accounted t held accepted) (hfinished : ∀ w ∈ t.1.workers, w.finished = true) (j : Nat) :
    accepted j = none := by
  cases hworker : t.1.workers[j]? with
  | none => exact h.absent j hworker
  | some w =>
      have hobeys := h.workers j w hworker
      have hended := hfinished w (List.mem_of_getElem? hworker)
      unfold Worker.finished at hended
      split at hended
      · next hcode =>
          rw [hcode] at hobeys
          exact hobeys
      · cases hended

/-- The calls of a stop or a destroy that have to wait for the threads. -/
def ServerCall.cleansUp : ServerCall → Bool
  | .stopClient | .lockDestroy | .free _ => true
  | _ => false

theorem Attached.app_cleans_up {a : Answers} {c : ServerCall} (h : Attached s m)
    (hcall : s.nextCall (.app a) = some c) (hcleans : c.cleansUp = true) :
    ∀ w ∈ s.workers, w.finished = true := by
  cases happ : s.app with
  | ret u =>
      rw [System.nextCall, happ] at hcall
      cases hcall
  | call c' next =>
      rw [System.nextCall_app happ] at hcall
      obtain rfl := Option.some.inj hcall
      have hgood := (h.app_next happ).1
      cases c' with
      | stopClient => exact h.all_finished hgood
      | lockDestroy => exact h.all_finished hgood
      | free block => exact h.all_finished hgood
      | _ => cases hcleans

theorem Attached.cleans_up (h : Attached s m) : s.Joined move := by
  intro hstop
  cases move with
  | job job => cases hstop
  | reading index => cases hstop
  | tick ms => cases hstop
  | app a => exact h.app_cleans_up hstop rfl
  | worker index a =>
      cases hworker : s.workers[index]? with
      | none =>
          rw [System.nextCall, hworker] at hstop
          cases hstop
      | some w =>
          cases hcode : w.code with
          | ret round =>
              rw [System.nextCall, hworker, Option.map_some, hcode] at hstop
              cases hstop
          | call c next =>
              rw [System.nextCall_worker hworker hcode] at hstop
              have hstays := h.code index w hworker
              rw [hcode] at hstays
              obtain rfl : c = .stopClient := Option.some.inj hstop
              cases hstays.1

/-- The server has been stopped: there are no threads any more, and no client. -/
structure System.Over (cfg : ServerConfig) (s : System) : Prop where
  threads : ∀ index a, s.step cfg (.worker index a) = none
  reads : ∀ index, s.step cfg (.reading index) = none
  client : s.shared.ctx.client.connected = false

theorem Attached.over (cfg : ServerConfig) (h : Attached s m) (hidle : s.app = .ret ())
    (hstopped : s.alive = false ∨ s.shared.ctx.running = 0) :
    m.ctx.running = 0 ∧ (∀ w ∈ s.workers, w.finished = true) ∧ s.Over cfg := by
  have hsettled := h.app
  rw [hidle] at hsettled
  have hrunning : m.ctx.running = 0 := by
    rcases hstopped with hdestroyed | hzero
    · exact hsettled.2 hdestroyed
    · exact (h.fields .running).symm.trans hzero
  obtain ⟨hnobody, hfinished⟩ := h.released (hsettled.1.stopped hrunning).1
  refine ⟨hrunning, hfinished, System.step_worker_finished hfinished, ?_, hnobody⟩
  intro index
  simp only [System.step]
  split
  · next fd next hcode =>
      obtain ⟨w, hworker, hcode⟩ := Option.map_eq_some_iff.mp hcode
      have hended := hfinished w (List.mem_of_getElem? hworker)
      rw [finished_call hcode] at hended
      cases hended
  · rfl

/-- In every run in which the server is started only when it is not running: the client is released in
a stop, the lock ended and the server freed in a destroy, only when all threads have ended. When a stop
or a destroy has returned, and before the first start, no thread makes a step any more and there is no
client; a server that has been destroyed is not touched again. If moreover the platform hands out new
descriptors, and no stop or destroy comes after a start that has failed, then every descriptor that the
server has opened or accepted is closed by then. -/
theorem stopped_of_run {t : System × Ledger}
    (hrun : Run (System.opening cfg) (fun t move => t.1.StartsStopped move)
      (System.created, Ledger.empty) t) :
    (∀ move, t.1.Joined move) ∧
      (∀ a c, t.1.nextCall (.app a) = some c → c.cleansUp = true → ∀ w ∈ t.1.workers, w.finished = true) ∧
      (t.1.app = .ret () → t.1.alive = false ∨ t.1.shared.ctx.running = 0 → t.1.Over cfg ∧
        (Run (System.opening cfg) (System.Proper cfg) (System.created, Ledger.empty) t →
          t.2.sockets = ∅ ∧ t.2.clients = ∅)) ∧
      (t.1.app = .ret () → t.1.alive = false → ∀ move s', t.1.step cfg move = some s' →
        ∃ ms, move = .tick ms) := by
  have hinvariant : ∃ m, Attached t.1 m := by
    apply hrun.invariant ⟨_, attached_created⟩
    rintro t move t' ⟨m, hattached⟩ hstart hstep
    exact attached_step hattached hstart (noting_eq_some hstep).1
  obtain ⟨m, hattached⟩ := hinvariant
  refine ⟨fun _ => hattached.cleans_up, fun _ _ => hattached.app_cleans_up, ?_, ?_⟩
  · intro hidle hstopped
    obtain ⟨hrunning, hfinished, hover⟩ := hattached.over cfg hidle hstopped
    refine ⟨hover, fun hproper => ?_⟩
    obtain ⟨held, accepted, h⟩ := accounted_of_run hproper
    have hheld := h.app
    rw [hidle] at hheld
    constructor
    · rw [h.sockets]
      apply hheld.1.stopped
      exact (h.fields .running).symm.trans ((hattached.fields .running).trans hrunning)
    · apply Finset.eq_empty_of_forall_notMem
      intro fd hfd
      rcases (h.owners.mem_iff fd).mp hfd with ⟨hconnected, -⟩ | ⟨j, hj⟩
      · rw [hover.client] at hconnected
        cases hconnected
      · rw [h.ended_accepts hfinished j] at hj
        cases hj
  · intro hidle hdestroyed move s' hstep
    have hover : t.1.Over cfg := (hattached.over cfg hidle (Or.inl hdestroyed)).2.2
    cases move with
    | tick ms => exact ⟨ms, rfl⟩
    | job job =>
        simp only [System.step, hidle, hdestroyed] at hstep
        cases hstep
    | app a =>
        simp only [System.step, System.stepApp, hidle] at hstep
        cases hstep
    | worker index a =>
        rw [hover.threads index a] at hstep
        cases hstep
    | reading index =>
        rw [hover.reads index] at hstep
        cases hstep

end Step

/-- A client is served when the server is stopped and destroyed; and a server whose start has failed is
destroyed. -/
theorem stopped_of_run_destroyed :
    (∃ t : System × Ledger, t.1.alive = false ∧ t.1.workers.length = 2 ∧ t.1.shared.generation = 1 ∧
      t.1.Over plainConfig ∧ t.2.sockets = ∅ ∧ t.2.clients = ∅) ∧
    ∃ t : System × Ledger, t.1.alive = false ∧ t.2.astray = true ∧ t.1.Over plainConfig := by
  constructor
  · obtain ⟨t, hrun, hend⟩ := Run.exists_of_follow
      (fun (t : System × Ledger) move => System.freshCheck plainConfig t move && decide (t.1.StopsSound move))
      (startMoves ++ acceptMoves ++ stopMoves ++ destroyMoves)
      (fun t : System × Ledger => !t.1.alive && t.1.isIdle && decide (t.1.workers.length = 2) &&
        decide (t.1.shared.generation = 1))
      (fun t move hcheck => (⟨fresh_of_check (Bool.and_eq_true_iff.mp hcheck).1,
        of_decide_eq_true (Bool.and_eq_true_iff.mp hcheck).2⟩ : System.Proper plainConfig t move))
      (by decide +kernel : (Run.follow (System.opening plainConfig) _ _
        (System.created, Ledger.empty)).any _ = true)
    simp only [Bool.and_eq_true, decide_eq_true_eq, Bool.not_eq_true'] at hend
    obtain ⟨⟨⟨halive, hidle⟩, hthreads⟩, hclient⟩ := hend
    have hstarts := hrun.mono fun _ _ => System.Proper.startsStopped
    obtain ⟨hover, hclosed⟩ :=
      (stopped_of_run hstarts).2.2.1 (System.idle_of_isIdle hidle) (Or.inl halive)
    exact ⟨t, halive, hthreads, hclient, hover, hclosed hrun⟩
  · obtain ⟨t, hrun, hend⟩ := Run.exists_of_follow
      (fun (t : System × Ledger) (_ : Move) => decide (t.1.shared.ctx.running = 0))
      (.job .start :: List.replicate 7 (.app { descriptor := 4, result := -1 }) ++
        .job .destroy :: List.replicate 14 (.app {}))
      (fun t : System × Ledger => !t.1.alive && t.1.isIdle && t.2.astray)
      (fun t move hcheck => (fun _ => of_decide_eq_true hcheck : t.1.StartsStopped move))
      (by decide +kernel : (Run.follow (System.opening plainConfig) _ _
        (System.created, Ledger.empty)).any _ = true)
    simp only [Bool.and_eq_true, Bool.not_eq_true'] at hend
    obtain ⟨⟨halive, hidle⟩, hastray⟩ := hend
    obtain ⟨hover, -⟩ := (stopped_of_run hrun).2.2.1 (System.idle_of_isIdle hidle) (Or.inl halive)
    exact ⟨t, halive, hastray, hover⟩

end YaskawaComms.Server
