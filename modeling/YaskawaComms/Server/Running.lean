import YaskawaComms.Server.Histories
import YaskawaComms.Server.Walk

/-!
# The running flag

Only starting and stopping write the flag, and what it says about the two threads is up to the
platform: whether they are created at all, and whether `select` lets the TCP thread go on.
-/

namespace YaskawaComms.Server

open Protocol Program

/-- The last call of `robot_protocol_start`: what is left of it, the threads that it has created with
their indices, and whether a stop has been called since. -/
structure Startup where
  code : ServerProgram Int
  created : List (ThreadFunction × Nat)
  stopping : Bool

namespace Startup

/-- The server has not been started yet. -/
def none : Startup := ⟨.ret (-1), [], false⟩

/-- What a call of the application adds. -/
def noteCall (s : System) (made : Called) (u : Startup) : Startup :=
  { u with
    code := u.code.resume made
    created := match made with
      | ⟨.pthreadCreate function, .ok _⟩ => u.created ++ [(function, s.workers.length)]
      | _ => u.created }

def note (cfg : ServerConfig) : Move → System → Startup → Startup
  | .job .start, _, _ => ⟨robotProtocolStart cfg, [], false⟩
  | .job _, _, u => { u with stopping := true }
  | .app a, s, u => match s.called cfg (.app a) with
      | some made => u.noteCall s made
      | .none => u
  | _, _, u => u

end Startup

/-- The system with the last start. -/
abbrev System.starting (cfg : ServerConfig) : Move → System × Startup → Option (System × Startup) :=
  noting (System.step cfg) (Startup.note cfg)

/-- The platform does not let the server have a socket. -/
def Called.Refuses : Called → Prop
  | ⟨.socket, fd⟩ => fd < 0
  | ⟨.bind _ _, result⟩ => result < 0
  | ⟨.listen _, result⟩ => result < 0
  | _ => False

/-- A step in which the platform keeps the server going: threads are created when they are asked for,
a server that is running already is not refused its sockets by another start, and no failure of
`select` makes the TCP thread of the last start quit. -/
structure System.Sustained (cfg : ServerConfig) (t : System × Startup) (move : Move) : Prop where
  creates : ∀ function left, t.1.called cfg move ≠ some ⟨.pthreadCreate function, .error left⟩
  restarts : t.1.shared.ctx.running ≠ 0 → ∀ made, t.1.called cfg move = some made → ¬ made.Refuses
  serves : t.1.shared.ctx.running ≠ 0 → t.2.stopping = false → ∀ function index a,
    (function, index) ∈ t.2.created → move = .worker index a → ∀ nfds fds ready,
      t.1.called cfg move = some ⟨.select nfds fds, ready⟩ → ¬ Quits ready

section Application

/-- What the application knows: the fields of the context and the threads of the last start. -/
structure Interface where
  ctx : ServerCtx
  created : List ThreadFunction

/-- The server is not declared running once it has threads. -/
def interface : Monitor serverSignature Interface where
  good m c := match c with
    | .store .running value => value = 0 ∨ m.created = []
    | _ => True
  allowed m c := match c with
    | .load field => fun value => value = m.ctx.get field
    | .socket => fun fd => m.ctx.running ≠ 0 → 0 ≤ fd
    | .bind _ _ => fun result => m.ctx.running ≠ 0 → 0 ≤ result
    | .listen _ => fun result => m.ctx.running ≠ 0 → 0 ≤ result
    | .pthreadCreate _ => fun thread => thread.isOk = true
    | _ => fun _ => True
  next m c := match c with
    | .store field value => fun _ => { m with ctx := m.ctx.set value field }
    | .pthreadCreate function => fun thread =>
        if thread.isOk then { m with created := m.created ++ [function] } else m
    | _ => fun _ => m

/-- How a start ends: it returns zero, or declares the server running, only with both threads. -/
structure Interface.Started (m : Interface) (result : Int) : Prop where
  returned : result = 0 → ∀ function, function ∈ m.created
  running : m.ctx.running ≠ 0 → ∀ function, function ∈ m.created

variable {α : Type} {post : α → Interface → Prop} {m : Interface}

theorem interface_load {field : CtxField} {f : Int → ServerProgram α}
    (h : (f (m.ctx.get field)).Obeys interface post m) : (load field >>= f).Obeys interface post m := by
  apply obeys_keep trivial (fun _ => rfl)
  rintro _ rfl
  exact h

theorem interface_store {field : CtxField} {value : Int} {f : Unit → ServerProgram α}
    (hfield : field ≠ .running) (h : (f ()).Obeys interface post { m with ctx := m.ctx.set value field }) :
    (store field value >>= f).Obeys interface post m := by
  refine ⟨?_, fun _ _ => h⟩
  cases field with
  | running => exact absurd rfl hfield
  | _ => trivial

theorem interface_socket {field : CtxField} {f g : ServerProgram α}
    (hfield : field = .tcpSocket ∨ field = .udpSocket)
    (hfailed : ∀ fd, m.ctx.running = 0 → f.Obeys interface post { m with ctx := m.ctx.set fd field })
    (hopened : ∀ fd, g.Obeys interface post { m with ctx := m.ctx.set fd field }) :
    (platformSocket >>= fun fd => store field fd >>= fun _ => load field >>= fun fd =>
      if fd < 0 then f else g).Obeys interface post m := by
  have hstored : field ≠ .running := by
    rcases hfield with rfl | rfl
    · nofun
    · nofun
  refine ⟨trivial, fun fd hfd => ?_⟩
  apply interface_store hstored
  apply interface_load
  apply obeys_ite
  · intro hneg
    apply hfailed
    by_contra hrunning
    have hpos : 0 ≤ fd := hfd hrunning
    have hget : (m.ctx.set fd field).get field = fd := by rw [ServerCtx.get_set, if_pos rfl]
    exact absurd hpos (Int.not_le.mpr (hget ▸ hneg))
  · intro _
    exact hopened fd

theorem startThread_interface (function : ThreadFunction) {field : CtxField}
    (hfield : field = .tcpThread ∨ field = .timeoutThread) :
    (startThread function field).Obeys interface
      (fun _ m' => m'.created = m.created ++ [function]) m := by
  refine ⟨trivial, ?_⟩
  intro thread hthread
  cases thread with
  | error left => cases hthread
  | ok thread =>
      refine ⟨?_, fun _ _ => rfl⟩
      rcases hfield with rfl | rfl
      · trivial
      · trivial

theorem robotProtocolStart_interface (cfg : ServerConfig) (hnew : m.created = []) :
    (robotProtocolStart cfg).Obeys interface (fun result m' => m'.Started result) m := by
  have hfailed : ∀ ctx : ServerCtx, ctx.running = 0 → Interface.Started ⟨ctx, m.created⟩ (-1) :=
    fun ctx hrunning => ⟨nofun, fun hne => absurd hrunning hne⟩
  have hclose : ∀ ctx : ServerCtx, ctx.running = 0 →
      (load .tcpSocket >>= fun fd => platformClose fd >>= fun _ => pure (-1)).Obeys interface
        (fun result m' => m'.Started result) ⟨ctx, m.created⟩ := by
    intro ctx hrunning
    apply interface_load
    apply obeys_keep trivial (fun _ => rfl)
    intro _ _
    exact hfailed ctx hrunning
  have hzero : ∀ (ctx : ServerCtx) {result : Int}, result < 0 → (ctx.running ≠ 0 → 0 ≤ result) →
      ctx.running = 0 := by
    intro ctx result hneg hallowed
    by_contra hrunning
    exact absurd (hallowed hrunning) (Int.not_le.mpr hneg)
  unfold robotProtocolStart
  apply interface_socket (Or.inl rfl)
  · intro fd hrunning
    exact hfailed _ hrunning
  intro tcp
  apply interface_load
  apply obeys_keep trivial (fun _ => rfl)
  intro bound hbound
  apply obeys_ite
  · intro hneg
    exact hclose _ (hzero _ hneg hbound)
  intro _
  apply interface_load
  apply obeys_keep trivial (fun _ => rfl)
  intro listening hlistening
  apply obeys_ite
  · intro hneg
    exact hclose _ (hzero _ hneg hlistening)
  intro _
  apply interface_socket (Or.inr rfl)
  · intro fd hrunning
    exact hclose _ hrunning
  intro udp
  apply interface_load
  apply obeys_keep trivial (fun _ => rfl)
  intro bound hbound
  apply obeys_ite
  · intro hneg
    apply interface_load
    apply obeys_keep trivial (fun _ => rfl)
    intro _ _
    apply interface_load
    apply obeys_keep trivial (fun _ => rfl)
    intro _ _
    exact hfailed _ (hzero _ hneg hbound)
  intro _
  refine ⟨Or.inr hnew, fun _ _ => ?_⟩
  apply (startThread_interface .tcp (Or.inl rfl)).bind
  intro _ m₁ htcp
  apply (startThread_interface .timeout (Or.inr rfl)).bind
  intro _ m₂ htimeout
  have hboth : ∀ function, function ∈ m₂.created := by
    intro function
    rw [htimeout, htcp]
    cases function with
    | tcp => simp
    | timeout => simp
  exact ⟨fun _ => hboth, fun _ => hboth⟩

theorem joinThread_interface {field : CtxField} (hfield : field = .tcpThread ∨ field = .timeoutThread) :
    (joinThread field).Obeys interface (fun _ m' => m'.ctx.running = m.ctx.running) m := by
  unfold joinThread
  apply interface_load
  apply obeys_ite
  · intro _
    apply interface_load
    apply obeys_keep trivial (fun _ => rfl)
    intro _ _
    rcases hfield with rfl | rfl
    · exact ⟨trivial, fun _ _ => rfl⟩
    · exact ⟨trivial, fun _ _ => rfl⟩
  · intro _
    rfl

theorem closeSocket_interface {field : CtxField} (hfield : field = .tcpSocket ∨ field = .udpSocket) :
    (closeSocket field).Obeys interface (fun _ m' => m'.ctx.running = m.ctx.running) m := by
  unfold closeSocket
  apply interface_load
  apply obeys_ite
  · intro _
    apply interface_load
    apply obeys_keep trivial (fun _ => rfl)
    intro _ _
    rcases hfield with rfl | rfl
    · exact ⟨trivial, fun _ _ => rfl⟩
    · exact ⟨trivial, fun _ _ => rfl⟩
  · intro _
    rfl

theorem robotProtocolStop_interface :
    robotProtocolStop.Obeys interface (fun _ m' => m'.ctx.running = 0) m := by
  have hend : ∀ m₀ : Interface, m₀.ctx.running = 0 →
      (joinThread .tcpThread >>= fun _ => joinThread .timeoutThread >>= fun _ => stopClient >>= fun _ =>
        closeSocket .tcpSocket >>= fun _ => closeSocket .udpSocket).Obeys interface
        (fun _ m' => m'.ctx.running = 0) m₀ := by
    intro m₀ hzero
    apply (joinThread_interface (Or.inl rfl)).bind
    intro _ m₁ h₁
    apply (joinThread_interface (Or.inr rfl)).bind
    intro _ m₂ h₂
    apply obeys_keep trivial (fun _ => rfl)
    intro _ _
    apply (closeSocket_interface (Or.inl rfl)).bind
    intro _ m₃ h₃
    apply (closeSocket_interface (Or.inr rfl)).mono
    intro _ m₄ h₄
    rw [h₄, h₃, h₂, h₁, hzero]
  unfold robotProtocolStop
  refine ⟨Or.inl rfl, fun _ _ => ?_⟩
  apply interface_load
  apply obeys_ite
  · intro _
    apply interface_load
    apply obeys_keep trivial (fun _ => rfl)
    intro _ _
    exact hend _ rfl
  · intro _
    exact hend _ rfl

theorem robotProtocolDestroy_interface :
    robotProtocolDestroy.Obeys interface (fun _ m' => m'.ctx.running = 0) m := by
  unfold robotProtocolDestroy
  apply robotProtocolStop_interface.bind
  intro _ m' hzero
  exact ⟨trivial, fun _ _ => ⟨trivial, fun _ _ => hzero⟩⟩

end Application

section Threads

variable {cfg : ServerConfig}

/-- Calls on the server as a whole. -/
def ServerCall.manages : ServerCall → Bool
  | .store _ _ | .stopClient | .pthreadCreate _ | .pthreadJoin _ | .lockDestroy => true
  | _ => false

/-- A thread never writes the flag, nor does it start or stop the server. With `serving`, the server is
running and `select` lets the thread go on. -/
def staying : Monitor serverSignature Bool where
  good _ c := c.manages = false
  allowed serving c := match c with
    | .load .running => fun value => serving = true → value ≠ 0
    | .select _ _ => fun ready => serving = true → ¬ Quits ready
    | _ => fun _ => True
  next serving _ _ := serving

theorem staying_passes {serving : Bool} {c : ServerCall} (hc : c.manages = false) :
    Passes staying (fun m => m = serving) c :=
  fun _ _ => ⟨hc, fun _ => rfl⟩

theorem staying_rule (serving : Bool) :
    ServiceRule staying (fun m => m = serving) (fun _ => True) where
  ordinary c hc := by
    apply staying_passes
    cases c <;> first | rfl | cases hc
  registers _ _ := staying_passes rfl
  built _ _ := trivial
  sends _ ctx _ := sendCommandResponseContext_walks (fun _ => staying_passes rfl)
    (fun _ => staying_passes rfl) (staying_passes rfl) ctx
  handles _ _ m hm := ⟨rfl, fun _ _ => ⟨hm, fun _ _ => trivial⟩⟩
  informs m hm := ⟨rfl, fun _ _ => ⟨hm, fun _ _ => trivial⟩⟩
  accepts := acceptClient_walks (staying_passes rfl) (fun _ => staying_passes rfl)
    (fun _ _ => staying_passes rfl) fun _ => staying_passes rfl

/-- A thread of a running server stays in its loop as long as `select` lets it. -/
theorem round_staying (function : ThreadFunction) (serving : Bool) :
    (function.round cfg).Obeys staying (fun round m => m = serving ∧ (m = true → round = .again))
      serving := by
  have hstopped : ∀ {value : Int}, staying.allowed serving (.load .running) value → value = 0 →
      serving = true → Round.finished = .again :=
    fun hallowed hzero hserving => absurd hzero (hallowed hserving)
  cases function with
  | tcp =>
      show (tcpThreadFunc cfg).Obeys staying _ serving
      rw [tcpThreadFunc_eq]
      apply obeys_keep rfl (fun _ => rfl)
      intro running hrunning
      apply obeys_ite
      · intro hzero
        exact ⟨rfl, hstopped hrunning hzero⟩
      · intro _
        apply obeys_keep rfl (fun _ => rfl)
        intro listener _
        apply obeys_keep rfl (fun _ => rfl)
        intro nfd _
        apply (((staying_rule serving).loop cfg).watchClient listener nfd serving rfl).bind
        rintro watched _ ⟨rfl, _⟩
        apply obeys_keep rfl (fun _ => rfl)
        intro ready hready
        apply (((staying_rule _).loop cfg).afterSelect ready _ rfl).mono
        rintro round _ ⟨rfl, hround⟩
        refine ⟨rfl, fun hserving => ?_⟩
        cases round with
        | again => rfl
        | finished => exact absurd (hround.mp rfl) (hready hserving)
  | timeout =>
      show timeoutThreadFunc.Obeys staying _ serving
      unfold timeoutThreadFunc
      apply obeys_keep rfl (fun _ => rfl)
      intro running hrunning
      apply obeys_ite
      · intro hzero
        exact ⟨rfl, hstopped hrunning hzero⟩
      · intro _
        apply obeys_keep rfl (fun _ => rfl)
        intro now _
        apply obeys_keep rfl (fun _ => rfl)
        intro idle _
        apply obeys_ite
        · intro _
          exact ⟨rfl, fun _ _ => ⟨rfl, fun _ => rfl⟩⟩
        · intro _
          exact ⟨rfl, fun _ => rfl⟩

/-- What is left of a thread's round. -/
def Stays (serving : Bool) (code : ServerProgram Round) : Prop :=
  code.Obeys staying (fun round _ => serving = true → round = .again) serving

theorem stays_fresh (function : ThreadFunction) (serving : Bool) :
    Stays serving (Worker.fresh cfg function).code := by
  apply (round_staying function serving).mono
  rintro round _ ⟨rfl, hround⟩
  exact hround

theorem Stays.next {serving : Bool} {c : ServerCall} {next : c.Result → ServerProgram Round}
    (h : Stays serving (.call c next)) {r : c.Result}
    (hallowed : serving = true → staying.allowed true c r) : Stays serving (next r) := by
  apply h.2 r
  cases serving with
  | true => exact hallowed rfl
  | false =>
      cases c with
      | load field =>
          cases field with
          | running => exact nofun
          | _ => trivial
      | select nfds fds => exact nofun
      | _ => trivial

theorem Stays.not_finished {w : Worker} (h : Stays true w.code) : w.finished = false := by
  unfold Worker.finished
  split
  · next hcode =>
      rw [hcode] at h
      cases h rfl
  · rfl

end Threads

/-- The application is inside the last start, or in a call of a stop after it. -/
inductive Application (app : ServerProgram Unit) (u : Startup) (m : Interface) : Prop where
  | starting (hgoing : u.stopping = false) (happ : app = u.code >>= fun _ => pure ())
      (hcode : u.code.Obeys interface (fun result m' => m'.Started result) m) : Application app u m
  | stopping {result : Int} (hcode : u.code = .ret result)
      (hreturned : result = 0 → ∀ function, function ∈ m.created)
      (happ : app.Obeys interface (fun _ m' => m'.ctx.running = 0) m) : Application app u m

theorem Application.next {c : ServerCall} {next : c.Result → ServerProgram Unit} {u : Startup}
    {m : Interface} (h : Application (.call c next) u m) :
    interface.good m c ∧ ∀ r, interface.allowed m c r → ∀ s,
      Application (next r) (u.noteCall s ⟨c, r⟩) (interface.next m c r) := by
  cases h with
  | starting hgoing happ hcode =>
      cases hleft : u.code with
      | ret result =>
          rw [hleft] at happ
          cases happ
      | call c' next' =>
          rw [hleft] at happ hcode
          cases happ
          have hresume : ∀ r, u.code.resume ⟨c, r⟩ = next' r := by
            intro r
            rw [hleft, resume_call (S := serverSignature)]
          refine ⟨hcode.1, fun r hr s => .starting hgoing ?_ ?_⟩
          · show _ = u.code.resume ⟨c, r⟩ >>= _
            rw [hresume]
            rfl
          · show (u.code.resume ⟨c, r⟩).Obeys interface _ _
            rw [hresume]
            exact hcode.2 r hr
  | @stopping result hcode hreturned happ =>
      refine ⟨happ.1, fun r hr s => ?_⟩
      have hresume : (u.noteCall s ⟨c, r⟩).code = .ret result := by
        show u.code.resume ⟨c, r⟩ = .ret result
        rw [hcode]
        rfl
      refine .stopping hresume ?_ (happ.2 r hr)
      intro hzero function
      have hold := hreturned hzero function
      cases c with
      | pthreadCreate other =>
          simp only [interface]
          split
          · exact List.mem_append_left _ hold
          · exact hold
      | _ => exact hold

theorem Application.idle {u : Startup} {m : Interface} {a : Unit} (h : Application (.ret a) u m) :
    ∃ result, u.code = .ret result ∧ (result = 0 → ∀ function, function ∈ m.created) ∧
      (m.ctx.running ≠ 0 → u.stopping = false ∧ ∀ function, function ∈ m.created) := by
  cases h with
  | starting hgoing happ hcode =>
      cases hleft : u.code with
      | ret result =>
          rw [hleft] at hcode
          exact ⟨result, rfl, hcode.returned, fun hne => ⟨hgoing, hcode.running hne⟩⟩
      | call c next =>
          rw [hleft] at happ
          cases happ
  | stopping hcode hreturned happ => exact ⟨_, hcode, hreturned, fun hne => absurd happ hne⟩

/-- The threads of the last start stay in their loops while the server is declared running. -/
structure Supervised (t : System × Startup) (m : Interface) : Prop where
  fields : ∀ field, t.1.shared.ctx.get field = m.ctx.get field
  created : m.created = t.2.created.map Prod.fst
  app : Application t.1.app t.2 m
  workers : ∀ (j : Nat) w, t.1.workers[j]? = some w → Stays false w.code
  serving : t.1.shared.ctx.running ≠ 0 → t.2.stopping = false → ∀ function index,
    (function, index) ∈ t.2.created → ∃ w, t.1.workers[index]? = some w ∧ w.function = function ∧
      Stays true w.code

section Step

variable {cfg : ServerConfig} {t t' : System × Startup} {m : Interface} {move : Move}

theorem supervised_created : Supervised (System.created, Startup.none) ⟨robotProtocolCreate.ctx, []⟩ :=
  ⟨fun _ => rfl, rfl, .starting rfl rfl ⟨nofun, fun hne => absurd rfl hne⟩, nofun, fun hne => absurd rfl hne⟩

theorem Supervised.job {job : Job} {a : Unit} (h : Supervised t m) (hidle : t.1.app = .ret a) :
    ∃ m', Supervised ({ t.1 with app := job.code cfg, alive := job ≠ .destroy },
      Startup.note cfg (.job job) t.1 t.2) m' := by
  have happ := h.app
  rw [hidle] at happ
  obtain ⟨result, hcode, hreturned, _⟩ := happ.idle
  have hstop : ∀ {app : ServerProgram Unit}, app.Obeys interface (fun _ m' => m'.ctx.running = 0) m →
      Application app { t.2 with stopping := true } m := .stopping hcode hreturned
  cases job with
  | start =>
      refine ⟨⟨m.ctx, []⟩, h.fields, rfl, ?_, h.workers, fun _ _ _ _ => nofun⟩
      exact .starting rfl rfl (robotProtocolStart_interface cfg rfl)
  | stop => exact ⟨m, h.fields, h.created, hstop robotProtocolStop_interface, h.workers, fun _ => nofun⟩
  | destroy =>
      exact ⟨m, h.fields, h.created, hstop robotProtocolDestroy_interface, h.workers, fun _ => nofun⟩

theorem Supervised.allowed {a : Answers} {c : ServerCall} {r : c.Result} {shared : Shared}
    (h : Supervised t m) (hthread : c.isThread = false)
    (hperform : t.1.shared.perform cfg a c = some (r, shared))
    (hrestarts : t.1.shared.ctx.running ≠ 0 → ¬ Called.Refuses ⟨c, r⟩) : interface.allowed m c r := by
  have hrunning : t.1.shared.ctx.running = m.ctx.running := h.fields .running
  rw [hrunning] at hrestarts
  cases c with
  | load field =>
      cases hperform
      exact h.fields field
  | socket => exact fun hne => Int.not_lt.mp (hrestarts hne)
  | bind fd port => exact fun hne => Int.not_lt.mp (hrestarts hne)
  | listen fd => exact fun hne => Int.not_lt.mp (hrestarts hne)
  | pthreadCreate function => cases hthread
  | _ => trivial

theorem Supervised.application {a : Answers} {c : ServerCall} {next : c.Result → ServerProgram Unit}
    {r : c.Result} {shared : Shared} (h : Supervised t m) (happ : t.1.app = .call c next)
    (hthread : c.isThread = false) (hperform : t.1.shared.perform cfg a c = some (r, shared))
    (hrestarts : t.1.shared.ctx.running ≠ 0 → ¬ Called.Refuses ⟨c, r⟩) :
    Supervised ({ t.1 with app := next r, shared := shared }, t.2.noteCall t.1 ⟨c, r⟩)
      (interface.next m c r) := by
  have hphase := h.app
  rw [happ] at hphase
  obtain ⟨hgood, hnext⟩ := hphase.next
  have happ' := hnext r (h.allowed hthread hperform hrestarts) t.1
  have hcreated : (t.2.noteCall t.1 ⟨c, r⟩).created = t.2.created := by
    cases c with
    | pthreadCreate function => cases hthread
    | _ => rfl
  by_cases hstore : ∃ field value, c = .store field value
  · obtain ⟨field, value, rfl⟩ := hstore
    cases hperform
    refine ⟨fun other => ?_, ?_, happ', h.workers, ?_⟩
    · show (t.1.shared.ctx.set value field).get other = (m.ctx.set value field).get other
      rw [ServerCtx.get_set, ServerCtx.get_set, h.fields other]
    · rw [hcreated]
      exact h.created
    · rw [hcreated]
      intro hrunning hstopping function index hentry
      cases field with
      | running =>
          rcases hgood with hzero | hnone
          · exact absurd hzero hrunning
          · rw [h.created, List.map_eq_nil_iff] at hnone
            rw [hnone] at hentry
            cases hentry
      | _ => exact h.serving hrunning hstopping function index hentry
  · have hfields := Shared.get_of_perform hperform fun field value heq => hstore ⟨field, value, heq⟩
    have hkeeps : interface.next m c r = m := by
      cases c with
      | store field value => exact absurd ⟨field, value, rfl⟩ hstore
      | pthreadCreate function => cases hthread
      | _ => rfl
    rw [hkeeps] at happ' ⊢
    refine ⟨fun field => (hfields field).trans (h.fields field), ?_, happ', h.workers, ?_⟩
    · rw [hcreated]
      exact h.created
    · rw [hcreated]
      intro hrunning
      exact h.serving fun hzero => hrunning ((hfields .running).trans hzero)

theorem Supervised.spawned {function : ThreadFunction}
    {next : Except (Option Nat) Int → ServerProgram Unit}
    (h : Supervised t m) (happ : t.1.app = .call (.pthreadCreate function) next) :
    Supervised
      ({ t.1 with
        app := next (.ok (t.1.workers.length + 1))
        workers := t.1.workers ++ [.fresh cfg function] },
      t.2.noteCall t.1 ⟨.pthreadCreate function, .ok ((t.1.workers.length : Int) + 1)⟩)
      { m with created := m.created ++ [function] } := by
  have hphase := h.app
  rw [happ] at hphase
  have happ' := hphase.next.2 (.ok ((t.1.workers.length : Int) + 1)) rfl t.1
  have hnew : (t.1.workers ++ [Worker.fresh cfg function])[t.1.workers.length]? =
      some (.fresh cfg function) := List.getElem?_concat_length
  refine ⟨h.fields, ?_, happ', ?_, ?_⟩
  · show m.created ++ [function] = List.map Prod.fst (t.2.created ++ [(function, t.1.workers.length)])
    rw [List.map_append, h.created]
    rfl
  · intro j w hw
    rcases System.worker_of_append hw with hold | ⟨-, rfl⟩
    · exact h.workers j w hold
    · exact stays_fresh function false
  · intro hrunning hstopping function' index hentry
    rcases List.mem_append.mp hentry with hold | hlast
    · obtain ⟨w, hw, hstays⟩ := h.serving hrunning hstopping function' index hold
      exact ⟨w, by rw [List.getElem?_append_left (List.getElem?_eq_some_iff.mp hw).1, hw], hstays⟩
    · cases List.mem_singleton.mp hlast
      exact ⟨_, hnew, rfl, stays_fresh function true⟩

theorem Supervised.thread {index : Nat} {w w' : Worker} {shared : Shared} (h : Supervised t m)
    (hworker : t.1.workers[index]? = some w)
    (hfields : ∀ field, shared.ctx.get field = t.1.shared.ctx.get field)
    (hfunction : w'.function = w.function) (hstays : Stays false w.code → Stays false w'.code)
    (hserves : t.1.shared.ctx.running ≠ 0 → t.2.stopping = false →
      (w.function, index) ∈ t.2.created → Stays true w.code → Stays true w'.code) :
    Supervised ({ t.1 with workers := t.1.workers.set index w', shared := shared }, t.2) m := by
  obtain ⟨hindex, _⟩ := List.getElem?_eq_some_iff.mp hworker
  refine ⟨fun field => (hfields field).trans (h.fields field), h.created, h.app, ?_, ?_⟩
  · intro j v hv
    rcases System.worker_of_set hv with ⟨rfl, rfl⟩ | ⟨-, hold⟩
    · exact hstays (h.workers _ w hworker)
    · exact h.workers j v hold
  · intro hrunning hstopping function j hentry
    have hrunning' : t.1.shared.ctx.running ≠ 0 := fun hzero => hrunning ((hfields .running).trans hzero)
    obtain ⟨v, hv, hname, hserving⟩ := h.serving hrunning' hstopping function j hentry
    by_cases hj : index = j
    · subst hj
      obtain rfl : w = v := Option.some.inj (hworker.symm.trans hv)
      refine ⟨w', List.getElem?_set_self hindex, hfunction.trans hname, ?_⟩
      exact hserves hrunning' hstopping (hname ▸ hentry) hserving
    · exact ⟨v, by rw [List.getElem?_set_ne hj, hv], hname, hserving⟩

theorem supervised_step (h : Supervised t m) (hsustained : System.Sustained cfg t move)
    (hstep : System.starting cfg move t = some t') : ∃ m', Supervised t' m' := by
  obtain ⟨hstep, hstartup⟩ := noting_eq_some hstep
  obtain ⟨s', u'⟩ := t'
  obtain rfl : u' = _ := hstartup
  have hmakes := System.makes_of_step hstep
  generalize hmade : t.1.called cfg move = made at hmakes
  have hnote : ∀ {a : Answers} {made : Called}, t.1.called cfg (.app a) = some made →
      Startup.note cfg (.app a) t.1 t.2 = t.2.noteCall t.1 made := by
    intro a made hmade
    simp only [Startup.note, hmade]
  cases hmakes with
  | job hidle halive => exact h.job hidle
  | created happ =>
      rw [hnote hmade]
      exact ⟨_, h.spawned happ⟩
  | notCreated left happ => exact absurd hmade (hsustained.creates _ left)
  | joined happ hfinished =>
      rw [hnote hmade]
      have hphase := h.app
      rw [happ] at hphase
      exact ⟨m, h.fields, h.created, hphase.next.2 () trivial t.1, h.workers, h.serving⟩
  | app happ hthread hperform =>
      rw [hnote hmade]
      exact ⟨_, h.application happ hthread hperform fun hne => hsustained.restarts hne _ hmade⟩
  | again hworker hcode =>
      refine ⟨m, h.thread hworker (fun _ => rfl) rfl (fun _ => stays_fresh _ false) ?_⟩
      intro _ _ _ _
      exact stays_fresh _ true
  | @worker index a w c next r shared hworker hcode hperform =>
      have hmanages : c.manages = false := by
        have hobeys := h.workers index w hworker
        rw [hcode] at hobeys
        exact hobeys.1
      have hfields := Shared.get_of_perform hperform (by
        rintro field value rfl
        cases hmanages)
      refine ⟨m, h.thread hworker hfields (Worker.mark_function _ _ _ _) ?_ ?_⟩
      · intro hstays
        rw [hcode] at hstays
        exact hstays.next nofun
      · intro hrunning hstopping hentry hstays
        rw [hcode] at hstays
        apply hstays.next
        intro _
        cases c with
        | load field =>
            cases field with
            | running =>
                cases hperform
                exact fun _ => hrunning
            | _ => trivial
        | select nfds fds =>
            exact fun _ => hsustained.serves hrunning hstopping _ index a hentry rfl nfds fds r hmade
        | _ => trivial
  | reading hworker hcode => exact ⟨m, h⟩
  | tick ms => exact ⟨m, fun field => h.fields field, h.created, h.app, h.workers, h.serving⟩

/-- Between two calls of the interface, a server that is declared running has both threads of the last
start, and neither has left its loop; a start that returned zero has created both. -/
theorem running_of_run
    (hrun : Run (System.starting cfg) (System.Sustained cfg) (System.created, Startup.none) t) :
    (t.1.app.value = some () → robotProtocolIsRunning (some t.1.shared.ctx) ≠ 0 →
      ∀ function, ∃ index w, (function, index) ∈ t.2.created ∧ t.1.workers[index]? = some w ∧
        w.function = function ∧ w.finished = false) ∧
    (t.2.code.value = some 0 → ∀ function, ∃ index, (function, index) ∈ t.2.created) := by
  have hinv : ∃ m, Supervised t m := by
    apply hrun.invariant ⟨_, supervised_created⟩
    rintro _ _ _ ⟨_, h⟩ hsustained hstep
    exact supervised_step h hsustained hstep
  obtain ⟨m, h⟩ := hinv
  have hentry : ∀ function, function ∈ m.created → ∃ index, (function, index) ∈ t.2.created := by
    intro function hfunction
    rw [h.created] at hfunction
    obtain ⟨⟨_, index⟩, hmem, rfl⟩ := List.mem_map.mp hfunction
    exact ⟨index, hmem⟩
  constructor
  · intro hidle hrunning function
    have happ := h.app
    rw [value_eq_some.mp hidle] at happ
    obtain ⟨_, _, _, hrunning'⟩ := happ.idle
    obtain ⟨hgoing, hboth⟩ := hrunning' fun hzero => hrunning ((h.fields .running).trans hzero)
    obtain ⟨index, hmem⟩ := hentry function (hboth function)
    obtain ⟨w, hworker, hfunction, hstays⟩ := h.serving hrunning hgoing function index hmem
    exact ⟨index, w, hmem, hworker, hfunction, hstays.not_finished⟩
  · intro hzero function
    apply hentry
    rw [value_eq_some] at hzero
    cases h.app with
    | starting hgoing happ hcode =>
        rw [hzero] at hcode
        exact hcode.returned rfl function
    | stopping hcode hreturned happ =>
        apply hreturned
        exact Program.ret.inj (hcode.symm.trans hzero)

end Step

section Examples

/-- The platform lets the server have what it asks for, and `select` does not fail for good. -/
def Called.granted : Called → Bool
  | ⟨.pthreadCreate _, thread⟩ => thread.isOk
  | ⟨.socket, fd⟩ => 0 ≤ fd
  | ⟨.bind _ _, result⟩ => 0 ≤ result
  | ⟨.listen _, result⟩ => 0 ≤ result
  | ⟨.select _ _, .error errno⟩ => errno = .eIntr ∨ errno = .eBadF
  | _ => true

theorem sustained_of_granted {cfg : ServerConfig} {t : System × Startup} {move : Move}
    (h : (t.1.called cfg move).all Called.granted = true) : System.Sustained cfg t move := by
  have hmade : ∀ made, t.1.called cfg move = some made → made.granted = true := by
    intro made hmade
    rw [hmade] at h
    exact h
  constructor
  · intro function left hcreate
    cases hmade _ hcreate
  · rintro _ ⟨c, r⟩ hcalled hrefuses
    have hgranted := hmade _ hcalled
    cases c with
    | socket => exact absurd hrefuses (Int.not_lt.mpr (of_decide_eq_true hgranted))
    | bind fd port => exact absurd hrefuses (Int.not_lt.mpr (of_decide_eq_true hgranted))
    | listen fd => exact absurd hrefuses (Int.not_lt.mpr (of_decide_eq_true hgranted))
    | _ => exact hrefuses
  · intro _ _ function index a _ _ nfds fds ready hcalled hquits
    have hgranted := hmade _ hcalled
    cases ready with
    | ok readFds => exact hquits
    | error errno =>
        rcases of_decide_eq_true hgranted with hintr | hbadf
        · exact hquits.1 hintr
        · exact hquits.2 hbadf

/-- A server is started, and its TCP thread accepts a client. -/
theorem running_started : ∃ t : System × Startup, t.1.shared.ctx.client.connected = true ∧
    ∀ function, ∃ index w, (function, index) ∈ t.2.created ∧ t.1.workers[index]? = some w ∧
      w.function = function ∧ w.finished = false := by
  obtain ⟨t, hrun, hend⟩ := Run.exists_of_follow
    (fun (t : System × Startup) move => (t.1.called plainConfig move).all Called.granted)
    (startMoves ++ acceptMoves)
    (fun t : System × Startup => t.1.shared.ctx.client.connected && t.1.app.value.isSome &&
      decide (t.1.shared.ctx.running ≠ 0))
    (fun _ _ hcheck => sustained_of_granted hcheck)
    (by decide +kernel : (Run.follow (System.starting plainConfig) _ _
      (System.created, Startup.none)).any _ = true)
  simp only [Bool.and_eq_true, decide_eq_true_eq, Option.isSome_iff_exists] at hend
  obtain ⟨⟨hconnected, ⟨_, hidle⟩⟩, hrunning⟩ := hend
  exact ⟨t, hconnected, (running_of_run hrun).1 hidle hrunning⟩

/-- A start returns zero and declares the server running, without any thread; and a server is
declared running whose TCP thread has left its loop. -/
theorem declared_running_unserved :
    (∃ t : System × Startup,
      Run (System.starting plainConfig) (fun _ _ => True) (System.created, Startup.none) t ∧
        t.1.app.value = some () ∧ robotProtocolIsRunning (some t.1.shared.ctx) ≠ 0 ∧
        t.2.code.value = some 0 ∧ t.2.created = []) ∧
    ∃ t : System × Startup,
      Run (System.starting plainConfig) (fun _ _ => True) (System.created, Startup.none) t ∧
        t.1.app.value = some () ∧ robotProtocolIsRunning (some t.1.shared.ctx) ≠ 0 ∧
        ∃ index w, (.tcp, index) ∈ t.2.created ∧ t.1.workers[index]? = some w ∧ w.finished = true := by
  constructor
  · obtain ⟨t, hrun, hend⟩ := Run.exists_of_follow (fun _ _ => true)
      (.job .start :: List.replicate 7 (.app { descriptor := 4 }) ++
        List.replicate 8 (.app { descriptor := 5 }))
      (fun t : System × Startup => decide (t.1.app.value = some () ∧
        robotProtocolIsRunning (some t.1.shared.ctx) ≠ 0 ∧ t.2.code.value = some 0 ∧ t.2.created = []))
      (fun _ _ _ => trivial)
      (by decide +kernel : (Run.follow (System.starting plainConfig) _ _
        (System.created, Startup.none)).any _ = true)
    exact ⟨t, hrun, of_decide_eq_true hend⟩
  · obtain ⟨t, hrun, hend⟩ := Run.exists_of_follow (fun _ _ => true)
      (startMoves ++ List.replicate 5 (.worker 0 { select := .error (.other 12) }))
      (fun t : System × Startup => decide (t.1.app.value = some () ∧
        robotProtocolIsRunning (some t.1.shared.ctx) ≠ 0 ∧ (.tcp, 0) ∈ t.2.created) &&
        t.1.workers[0]?.any Worker.finished)
      (fun _ _ _ => trivial)
      (by decide +kernel : (Run.follow (System.starting plainConfig) _ _
        (System.created, Startup.none)).any _ = true)
    obtain ⟨hstate, hfinished⟩ := Bool.and_eq_true_iff.mp hend
    obtain ⟨hidle, hrunning, hcreated⟩ := of_decide_eq_true hstate
    obtain ⟨w, hworker, hfinished⟩ := (Option.any_eq_true _ _).mp hfinished
    exact ⟨t, hrun, hidle, hrunning, 0, w, hcreated, hworker, hfinished⟩

end Examples

end YaskawaComms.Server
