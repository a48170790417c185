import YaskawaComms.Framework.Descent
import YaskawaComms.Server.Joining

/-!
# A stop comes to its end

Once a stop has cleared the running flag, each thread has at most the rest of its round left, and
what a stop joins is always a thread that exists, if a `pthread_create` that fails leaves the identifier
alone. So the calls that the application and the threads
still make come to an end, in whatever order they are made, and they end only when the stop has
returned, unless a thread has crashed.
-/

namespace YaskawaComms.Server

open Protocol Program

section Application

/-- Calls that leave a stopping server stopping. -/
def ServerCall.Halts : ServerCall → Prop
  | .store .running value => value = 0
  | .pthreadCreate _ => False
  | _ => True

def halting : Monitor serverSignature Unit where
  good _ c := c.Halts
  allowed _ _ _ := True
  next _ _ _ := ()

theorem joinThread_halting {field : CtxField} (hfield : field.isThread = true) :
    (joinThread field).Obeys halting (fun _ _ => True) () := by
  unfold joinThread
  apply obeys_keep trivial (fun _ => rfl)
  intro _ _
  apply obeys_ite
  · intro _
    apply obeys_keep trivial (fun _ => rfl)
    intro _ _
    apply obeys_keep trivial (fun _ => rfl)
    intro _ _
    cases field with
    | running => cases hfield
    | _ => exact ⟨trivial, fun _ _ => trivial⟩
  · intro _
    trivial

theorem closeSocket_halting {field : CtxField} (hfield : field = .tcpSocket ∨ field = .udpSocket) :
    (closeSocket field).Obeys halting (fun _ _ => True) () := by
  unfold closeSocket
  apply obeys_keep trivial (fun _ => rfl)
  intro _ _
  apply obeys_ite
  · intro _
    apply obeys_keep trivial (fun _ => rfl)
    intro _ _
    apply obeys_keep trivial (fun _ => rfl)
    intro _ _
    rcases hfield with rfl | rfl
    · exact ⟨trivial, fun _ _ => trivial⟩
    · exact ⟨trivial, fun _ _ => trivial⟩
  · intro _
    trivial

theorem robotProtocolStop_halting : robotProtocolStop.Obeys halting (fun _ _ => True) () := by
  have hend : (joinThread .tcpThread >>= fun _ => joinThread .timeoutThread >>= fun _ => stopClient >>=
      fun _ => closeSocket .tcpSocket >>= fun _ => closeSocket .udpSocket).Obeys halting
      (fun _ _ => True) () := by
    apply (joinThread_halting rfl).bind
    intro _ _ _
    apply (joinThread_halting rfl).bind
    intro _ _ _
    apply obeys_keep trivial (fun _ => rfl)
    intro _ _
    apply (closeSocket_halting (Or.inl rfl)).bind
    intro _ _ _
    exact closeSocket_halting (Or.inr rfl)
  unfold robotProtocolStop
  apply obeys_keep rfl (fun _ => rfl)
  intro _ _
  apply obeys_keep trivial (fun _ => rfl)
  intro _ _
  apply obeys_ite
  · intro _
    apply obeys_keep trivial (fun _ => rfl)
    intro _ _
    apply obeys_keep trivial (fun _ => rfl)
    intro _ _
    exact hend
  · intro _
    exact hend

theorem robotProtocolDestroy_halting : robotProtocolDestroy.Obeys halting (fun _ _ => True) () := by
  unfold robotProtocolDestroy
  apply robotProtocolStop_halting.bind
  intro _ _ _
  exact ⟨trivial, fun _ _ => ⟨trivial, fun _ _ => trivial⟩⟩

/-- The fields of the context and the threads created so far. -/
structure Names where
  ctx : ServerCtx
  threads : List Int

/-- Only identifiers of threads are stored, and only what is stored is joined. -/
def naming : Monitor serverSignature Names where
  good m c := match c with
    | .store field value => field.isThread = true → value = 0 ∨ value ∈ m.threads
    | .pthreadJoin thread => thread ≠ 0 ∧ ∃ field, field.isThread = true ∧ thread = m.ctx.get field
    | .nullContext => False
    | _ => True
  allowed m c := match c with
    | .load field => fun value => value = m.ctx.get field
    | .pthreadCreate _ => fun thread => ∀ left, thread ≠ .error (some left)
    | _ => fun _ => True
  next m c := match c with
    | .store field value => fun _ => { m with ctx := m.ctx.set value field }
    | .pthreadCreate _ => fun thread => { m with threads := thread.toOption.toList ++ m.threads }
    | _ => fun _ => m

variable {α : Type} {post : α → Names → Prop} {m : Names}

theorem naming_load {field : CtxField} {f : Int → ServerProgram α}
    (h : (f (m.ctx.get field)).Obeys naming post m) : (load field >>= f).Obeys naming post m := by
  apply obeys_keep trivial (fun _ => rfl)
  rintro _ rfl
  exact h

theorem startThread_naming (function : ThreadFunction) (field : CtxField) :
    (startThread function field).Obeys naming (fun _ _ => True) m := by
  refine ⟨trivial, fun thread hleft => ?_⟩
  cases thread with
  | ok thread => exact ⟨fun _ => Or.inr List.mem_cons_self, fun _ _ => trivial⟩
  | error left =>
      cases left with
      | none => trivial
      | some left => exact absurd rfl (hleft left)

theorem closeSocket_naming {field : CtxField} (hfield : field.isThread = false) :
    (closeSocket field).Obeys naming (fun _ _ => True) m := by
  unfold closeSocket
  apply naming_load
  apply obeys_ite
  · intro _
    apply naming_load
    apply obeys_keep trivial (fun _ => rfl)
    intro _ _
    refine ⟨fun hthread => ?_, fun _ _ => trivial⟩
    rw [hfield] at hthread
    cases hthread
  · intro _
    trivial

theorem joinThread_naming {field : CtxField} (hfield : field.isThread = true) :
    (joinThread field).Obeys naming (fun _ _ => True) m := by
  unfold joinThread
  apply naming_load
  apply obeys_ite
  · intro hne
    apply naming_load
    refine ⟨⟨hne, field, hfield, rfl⟩, fun _ _ => ?_⟩
    exact ⟨fun _ => Or.inl rfl, fun _ _ => trivial⟩
  · intro _
    trivial

theorem robotProtocolStart_naming (cfg : ServerConfig) :
    (robotProtocolStart cfg).Obeys naming (fun _ _ => True) m := by
  have hclose : ∀ m₀ : Names, (load .tcpSocket >>= fun fd => platformClose fd >>= fun _ =>
      pure (-1 : Int)).Obeys naming (fun _ _ => True) m₀ := by
    intro m₀
    apply naming_load
    exact ⟨trivial, fun _ _ => trivial⟩
  unfold robotProtocolStart
  apply obeys_keep trivial (fun _ => rfl)
  intro tcp _
  refine ⟨nofun, fun _ _ => ?_⟩
  apply naming_load
  apply obeys_ite
  · intro _
    trivial
  intro _
  apply naming_load
  apply obeys_keep trivial (fun _ => rfl)
  intro bound _
  apply obeys_ite (fun _ => hclose _)
  intro _
  apply naming_load
  apply obeys_keep trivial (fun _ => rfl)
  intro listening _
  apply obeys_ite (fun _ => hclose _)
  intro _
  apply obeys_keep trivial (fun _ => rfl)
  intro udp _
  refine ⟨nofun, fun _ _ => ?_⟩
  apply naming_load
  apply obeys_ite (fun _ => hclose _)
  intro _
  apply naming_load
  apply obeys_keep trivial (fun _ => rfl)
  intro bound _
  apply obeys_ite
  · intro _
    apply naming_load
    apply obeys_keep trivial (fun _ => rfl)
    intro _ _
    apply naming_load
    exact ⟨trivial, fun _ _ => trivial⟩
  intro _
  refine ⟨nofun, fun _ _ => ?_⟩
  apply (startThread_naming .tcp .tcpThread).bind
  intro _ _ _
  apply (startThread_naming .timeout .timeoutThread).bind
  intro _ _ _
  trivial

theorem robotProtocolStop_naming : robotProtocolStop.Obeys naming (fun _ _ => True) m := by
  have hend : ∀ m₀ : Names, (joinThread .tcpThread >>= fun _ => joinThread .timeoutThread >>= fun _ =>
      stopClient >>= fun _ => closeSocket .tcpSocket >>= fun _ => closeSocket .udpSocket).Obeys naming
      (fun _ _ => True) m₀ := by
    intro m₀
    apply (joinThread_naming rfl).bind
    intro _ m₁ _
    apply (joinThread_naming rfl).bind
    intro _ m₂ _
    apply obeys_keep trivial (fun _ => rfl)
    intro _ _
    apply (closeSocket_naming rfl).bind
    intro _ m₃ _
    exact closeSocket_naming rfl
  unfold robotProtocolStop
  refine ⟨nofun, fun _ _ => ?_⟩
  apply naming_load
  apply obeys_ite
  · intro _
    apply naming_load
    apply obeys_keep trivial (fun _ => rfl)
    intro _ _
    exact hend _
  · intro _
    exact hend _

theorem robotProtocolDestroy_naming : robotProtocolDestroy.Obeys naming (fun _ _ => True) m := by
  unfold robotProtocolDestroy
  apply robotProtocolStop_naming.bind
  intro _ _ _
  exact ⟨trivial, fun _ _ => ⟨trivial, fun _ _ => trivial⟩⟩

theorem Job.code_naming (cfg : ServerConfig) (job : Job) :
    (job.code cfg).Obeys naming (fun _ _ => True) m := by
  cases job with
  | start =>
      apply (robotProtocolStart_naming cfg).bind
      intro _ _ _
      trivial
  | stop => exact robotProtocolStop_naming
  | destroy => exact robotProtocolDestroy_naming

end Application

section Threads

variable {cfg : ServerConfig} {w w' : Worker}

/-- A thread once it has taken a step of a server that is not running. -/
def Worker.After (cfg : ServerConfig) (w' w : Worker) : Prop :=
  ∃ a s s', s.ctx.running = 0 ∧ w.step cfg a s = some (w', s')

/-- The thread has dereferenced a null pointer. -/
def Worker.crashed (w : Worker) : Bool :=
  match w.code with
  | .call .nullContext _ => true
  | _ => false

theorem Worker.acc_of_finished (hcode : w.code = .ret .finished) : Acc (Worker.After cfg) w := by
  constructor
  rintro w' ⟨a, s, s', -, hstep⟩
  simp only [Worker.step, hcode] at hstep
  cases hstep

theorem Worker.after_fresh {function : ThreadFunction}
    (h : Worker.After cfg w' (.fresh cfg function)) : w'.code = .ret .finished := by
  obtain ⟨a, s, s', hzero, hstep⟩ := h
  cases function with
  | tcp =>
      cases hstep
      exact if_pos hzero
  | timeout =>
      cases hstep
      exact if_pos hzero

theorem Worker.acc_fresh (function : ThreadFunction) :
    Acc (Worker.After cfg) (.fresh cfg function) := by
  constructor
  intro w' h
  exact Worker.acc_of_finished (Worker.after_fresh h)

theorem Worker.after_wf : WellFounded (Worker.After cfg) := by
  constructor
  intro w
  generalize hcode : w.code = code
  induction code generalizing w with
  | ret round =>
      cases round with
      | finished => exact Worker.acc_of_finished hcode
      | again =>
          constructor
          rintro w' ⟨a, s, s', -, hstep⟩
          simp only [Worker.step, hcode] at hstep
          cases hstep
          exact Worker.acc_fresh w.function
  | call c next ih =>
      constructor
      rintro w' ⟨a, s, s', -, hstep⟩
      simp only [Worker.step, hcode] at hstep
      obtain ⟨⟨r, shared⟩, -, hout⟩ := Option.map_eq_some_iff.mp hstep
      cases hout
      exact ih r _ rfl

theorem Shared.nullContext_of_perform {s : Shared} {a : Answers} {c : ServerCall}
    (h : s.perform cfg a c = none) : c = .nullContext := by
  cases c with
  | nullContext => rfl
  | readHeader fd =>
      simp only [Shared.perform] at h
      split at h
      · cases h
      · cases h
  | _ => cases h

theorem Worker.stuck {a : Answers} {s : Shared} (h : w.step cfg a s = none) :
    w.finished = true ∨ w.crashed = true := by
  cases hcode : w.code with
  | ret round =>
      cases round with
      | finished =>
          left
          rw [Worker.finished, hcode]
      | again =>
          simp only [Worker.step, hcode] at h
          cases h
  | call c next =>
      simp only [Worker.step, hcode] at h
      obtain rfl := Shared.nullContext_of_perform (Option.map_eq_none_iff.mp h)
      right
      rw [Worker.crashed, hcode]

end Threads

section Step

/-- Each identifier that is stored names a thread. -/
structure Named (s : System) (m : Names) : Prop where
  app : s.app.Obeys naming (fun _ _ => True) m
  fields : ∀ field, s.shared.ctx.get field = m.ctx.get field
  stored : ∀ field, field.isThread = true → m.ctx.get field = 0 ∨ m.ctx.get field ∈ m.threads
  threads : ∀ thread ∈ m.threads, ∃ w, s.workers[(thread - 1).toNat]? = some w
  code : ∀ (j : Nat) w, s.workers[j]? = some w → Stays false w.code

variable {cfg : ServerConfig} {s s' : System} {m : Names} {move : Move}

theorem named_created : Named System.created ⟨robotProtocolCreate.ctx, []⟩ := by
  refine ⟨trivial, fun _ => rfl, ?_, nofun, nofun⟩
  intro field hfield
  cases field with
  | tcpThread => exact Or.inl rfl
  | timeoutThread => exact Or.inl rfl
  | _ => cases hfield

theorem Named.app_next {c : ServerCall} {next : c.Result → ServerProgram Unit} (h : Named s m)
    (happ : s.app = .call c next) : naming.good m c ∧
      ∀ r, naming.allowed m c r → (next r).Obeys naming (fun _ _ => True) (naming.next m c r) := by
  have hobeys := h.app
  rw [happ] at hobeys
  exact hobeys

theorem Named.replace {index : Nat} {w' : Worker} {shared : Shared} (h : Named s m)
    (hcode : Stays false w'.code) (hfields : ∀ field, shared.ctx.get field = s.shared.ctx.get field) :
    Named { s with workers := s.workers.set index w', shared := shared } m := by
  refine ⟨h.app, fun field => (hfields field).trans (h.fields field), h.stored, ?_, ?_⟩
  · intro thread hthread
    obtain ⟨w, hw⟩ := h.threads thread hthread
    obtain ⟨hlt, -⟩ := List.getElem?_eq_some_iff.mp hw
    rw [← List.length_set (i := index) (a := w')] at hlt
    exact ⟨_, List.getElem?_eq_getElem hlt⟩
  · intro j v hv
    rcases System.worker_of_set hv with ⟨-, rfl⟩ | ⟨-, hold⟩
    · exact hcode
    · exact h.code j v hold

theorem Named.application {a : Answers} {c : ServerCall} {next : c.Result → ServerProgram Unit}
    {r : c.Result} {shared : Shared} (h : Named s m) (happ : s.app = .call c next)
    (hthread : c.isThread = false) (hperform : s.shared.perform cfg a c = some (r, shared)) :
    Named { s with app := next r, shared := shared } (naming.next m c r) := by
  obtain ⟨hgood, hnext⟩ := h.app_next happ
  by_cases hstore : ∃ field value, c = .store field value
  · obtain ⟨field, value, rfl⟩ := hstore
    cases hperform
    refine ⟨hnext () trivial, ?_, ?_, h.threads, h.code⟩
    · intro other
      show (s.shared.ctx.set value field).get other = (m.ctx.set value field).get other
      rw [ServerCtx.get_set, ServerCtx.get_set, h.fields other]
    · intro other hother
      show (m.ctx.set value field).get other = 0 ∨ (m.ctx.set value field).get other ∈ m.threads
      rw [ServerCtx.get_set]
      split
      · next heq => exact hgood (heq ▸ hother)
      · exact h.stored other hother
  · have hfields := Shared.get_of_perform hperform fun field value heq => hstore ⟨field, value, heq⟩
    have hkeeps : naming.next m c r = m := by
      cases c with
      | store field value => exact absurd ⟨field, value, rfl⟩ hstore
      | pthreadCreate function => cases hthread
      | _ => rfl
    have hallowed : naming.allowed m c r := by
      cases c with
      | load field =>
          cases hperform
          exact h.fields field
      | pthreadCreate function => cases hthread
      | _ => trivial
    have hobeys := hnext r hallowed
    rw [hkeeps] at hobeys ⊢
    exact ⟨hobeys, fun field => (hfields field).trans (h.fields field), h.stored, h.threads, h.code⟩

theorem Named.created {function : ThreadFunction}
    {next : Except (Option Nat) Int → ServerProgram Unit}
    (h : Named s m) (happ : s.app = .call (.pthreadCreate function) next) :
    Named
      { s with
        app := next (.ok (s.workers.length + 1))
        workers := s.workers ++ [.fresh cfg function] }
      { m with threads := (s.workers.length + 1 : Int) :: m.threads } := by
  refine ⟨(h.app_next happ).2 (.ok (s.workers.length + 1)) nofun, h.fields, ?_, ?_, ?_⟩
  · intro field hfield
    rcases h.stored field hfield with hzero | hold
    · exact Or.inl hzero
    · exact Or.inr (List.mem_cons_of_mem _ hold)
  · intro thread hthread
    rcases List.mem_cons.mp hthread with rfl | hold
    · refine ⟨.fresh cfg function, ?_⟩
      rw [show ((s.workers.length : Int) + 1 - 1).toNat = s.workers.length by omega]
      exact List.getElem?_concat_length
    · obtain ⟨w, hw⟩ := h.threads thread hold
      refine ⟨w, ?_⟩
      rw [List.getElem?_append_left (List.getElem?_eq_some_iff.mp hw).1]
      exact hw
  · intro j w hw
    rcases System.worker_of_append hw with hold | ⟨-, rfl⟩
    · exact h.code j w hold
    · exact stays_fresh function false

/-- A `pthread_create` that fails leaves the identifier alone. -/
def System.LeavesAlone (cfg : ServerConfig) (s : System) (move : Move) : Prop :=
  ∀ function left, s.called cfg move ≠ some ⟨.pthreadCreate function, .error (some left)⟩

theorem named_step (h : Named s m) (halone : s.LeavesAlone cfg move) (hstep : s.step cfg move = some s') :
    ∃ m', Named s' m' := by
  have hmakes := System.makes_of_step hstep
  generalize hcalled : s.called cfg move = made at hmakes
  cases hmakes with
  | @job job _ hidle halive =>
      exact ⟨m, job.code_naming cfg, h.fields, h.stored, h.threads, h.code⟩
  | created happ => exact ⟨_, h.created happ⟩
  | @notCreated a function next left happ =>
      have hleft : ∀ other, (Except.error left : Except (Option Nat) Int) ≠ .error (some other) := by
        rintro other hsome
        cases hsome
        exact halone function other hcalled
      exact ⟨_, (h.app_next happ).2 _ hleft, h.fields, h.stored, h.threads, h.code⟩
  | joined happ hfinished =>
      exact ⟨m, (h.app_next happ).2 () trivial, h.fields, h.stored, h.threads, h.code⟩
  | app happ hthread hperform => exact ⟨_, h.application happ hthread hperform⟩
  | again hworker hcode => exact ⟨m, h.replace (stays_fresh _ false) fun _ => rfl⟩
  | worker hworker hcode hperform =>
      have hstays := h.code _ _ hworker
      rw [hcode] at hstays
      refine ⟨m, h.replace (hstays.next nofun) ?_⟩
      apply Shared.get_of_perform hperform
      rintro field value rfl
      cases hstays.1
  | reading hworker hcode => exact ⟨m, h⟩
  | tick ms => exact ⟨m, h.app, fun field => h.fields field, h.stored, h.threads, h.code⟩

/-- What is left of a stop after it has cleared the flag. -/
structure Stopping (s : System) (m : Names) : Prop where
  named : Named s m
  app : s.app.Obeys halting (fun _ _ => True) ()
  running : s.shared.ctx.running = 0

/-- A step of the application within its call, or of a thread. -/
def Move.isCall : Move → Bool
  | .app _ | .worker _ _ => true
  | _ => false

/-- What the application and the threads have left. -/
def System.remaining (s : System) : ServerProgram Unit × Multiset Worker := (s.app, s.workers)

/-- One of them has made a call. -/
def Further (cfg : ServerConfig) :
    ServerProgram Unit × Multiset Worker → ServerProgram Unit × Multiset Worker → Prop :=
  Prod.GameAdd Follows (Relation.CutExpand (Worker.After cfg))

/-- After some time, a call is made. -/
def System.Goes (cfg : ServerConfig) (s' s : System) : Prop :=
  ∃ ms move, move.isCall = true ∧
    ({ s with shared.clock := s.shared.clock + ms } : System).step cfg move = some s'

theorem Stopping.tick (h : Stopping s m) (ms : Nat) :
    Stopping { s with shared.clock := s.shared.clock + ms } m :=
  ⟨⟨h.named.app, fun field => h.named.fields field, h.named.stored, h.named.threads, h.named.code⟩,
    h.app, h.running⟩

theorem Stopping.app_next {c : ServerCall} {next : c.Result → ServerProgram Unit} (h : Stopping s m)
    (happ : s.app = .call c next) :
    c.Halts ∧ ∀ r, (next r).Obeys halting (fun _ _ => True) () := by
  have hobeys := h.app
  rw [happ] at hobeys
  exact ⟨hobeys.1, fun r => hobeys.2 r trivial⟩

theorem Stopping.leavesAlone (h : Stopping s m) (hstep : s.step cfg move = some s') :
    s.LeavesAlone cfg move := by
  intro function left hcalled
  have hmakes := System.makes_of_step hstep
  rw [hcalled] at hmakes
  cases hmakes with
  | notCreated left happ => exact (h.app_next happ).1
  | app happ hthread hperform => cases hthread
  | worker hworker hcode hperform =>
      have hstays := h.named.code _ _ hworker
      rw [hcode] at hstays
      cases hstays.1

/-- A call leaves the server stopping and takes the application or one of the threads further. -/
theorem stopping_step (h : Stopping s m) (hmove : move.isCall = true)
    (hstep : s.step cfg move = some s') :
    (∃ m', Stopping s' m') ∧ Further cfg s'.remaining s.remaining := by
  obtain ⟨m', hnamed⟩ := named_step h.named (h.leavesAlone hstep) hstep
  have hmakes := System.makes_of_step hstep
  generalize s.called cfg move = made at hmakes
  cases hmakes with
  | job hidle halive => cases hmove
  | reading hworker hcode => cases hmove
  | tick ms => cases hmove
  | created happ => exact (h.app_next happ).1.elim
  | notCreated left happ => exact (h.app_next happ).1.elim
  | @joined a thread next happ hfinished =>
      refine ⟨⟨m', hnamed, (h.app_next happ).2 (), h.running⟩, ?_⟩
      rw [System.remaining, System.remaining, happ]
      exact .fst (@Follows.call serverSignature Unit (.pthreadJoin thread) next ())
  | @app a c next r shared happ hthread hperform =>
      obtain ⟨hhalts, hnext⟩ := h.app_next happ
      refine ⟨⟨m', hnamed, hnext r, ?_⟩, ?_⟩
      · by_cases hstore : ∃ field value, c = .store field value
        · obtain ⟨field, value, rfl⟩ := hstore
          cases hperform
          cases field with
          | running => exact hhalts
          | _ => exact h.running
        · have hfields := Shared.get_of_perform hperform fun field value heq => hstore ⟨field, value, heq⟩
          exact (hfields .running).trans h.running
      · rw [System.remaining, System.remaining, happ]
        exact .fst (@Follows.call serverSignature Unit c next r)
  | @again index a w hworker hcode =>
      refine ⟨⟨m', hnamed, h.app, h.running⟩, .snd (cutExpand_set hworker ?_)⟩
      refine ⟨a, s.shared, s.shared, h.running, ?_⟩
      simp only [Worker.step, hcode]
  | @worker index a w c next r shared hworker hcode hperform =>
      refine ⟨⟨m', hnamed, h.app, ?_⟩, .snd (cutExpand_set hworker ?_)⟩
      · have hstays := h.named.code _ _ hworker
        rw [hcode] at hstays
        have hfields := Shared.get_of_perform hperform (by
          rintro field value rfl
          cases hstays.1)
        exact (hfields .running).trans h.running
      · refine ⟨a, s.shared, shared, h.running, ?_⟩
        simp only [Worker.step, hcode, hperform, Option.map_some]

theorem stopping_goes (h : Stopping s m) (hgoes : System.Goes cfg s' s) :
    (∃ m', Stopping s' m') ∧ Further cfg s'.remaining s.remaining := by
  obtain ⟨ms, move, hmove, hstep⟩ := hgoes
  obtain ⟨hstopping, hfurther⟩ := stopping_step (h.tick ms) hmove hstep
  exact ⟨hstopping, hfurther⟩

/-- Where no call can be made, the stop has returned and all threads have ended, unless one of them
has crashed. -/
theorem Stopping.ended (h : Stopping s m) (hstuck : ∀ s', ¬ System.Goes cfg s' s) :
    (s.app = .ret () ∧ ∀ w ∈ s.workers, w.finished = true) ∨ ∃ w ∈ s.workers, w.crashed = true := by
  by_cases hcrashed : ∃ w ∈ s.workers, w.crashed = true
  · exact Or.inr hcrashed
  left
  have hnone : ∀ move, move.isCall = true → s.step cfg move = none := by
    intro move hmove
    by_contra hsome
    obtain ⟨s', hs'⟩ := Option.ne_none_iff_exists'.mp hsome
    exact hstuck s' ⟨0, move, hmove, hs'⟩
  have hfinished : ∀ w ∈ s.workers, w.finished = true := by
    intro w hw
    obtain ⟨j, hj⟩ := List.getElem?_of_mem hw
    have hstep := hnone (.worker j {}) rfl
    simp only [System.step, hj] at hstep
    refine (Worker.stuck (Option.map_eq_none_iff.mp hstep)).resolve_right ?_
    intro hcrash
    exact hcrashed ⟨w, hw, hcrash⟩
  refine ⟨?_, hfinished⟩
  have hstep := hnone (.app {}) rfl
  cases happ : s.app with
  | ret u => rfl
  | call c next =>
      exfalso
      obtain ⟨hgood, -⟩ := h.named.app_next happ
      obtain ⟨hhalts, -⟩ := h.app_next happ
      simp only [System.step, System.stepApp, happ] at hstep
      split at hstep
      · cases ‹Program.call _ _ = Program.ret _›
      · next function next' heq =>
          cases heq
          exact hhalts
      · next thread next' heq =>
          cases heq
          obtain ⟨hne, field, hfield, rfl⟩ := hgood
          obtain ⟨w, hw⟩ := h.named.threads _ ((h.named.stored field hfield).resolve_left hne)
          rw [hw, if_pos] at hstep
          · cases hstep
          · exact hfinished w (List.mem_of_getElem? hw)
      · next c' next' _ _ heq =>
          cases heq
          obtain rfl := Shared.nullContext_of_perform (Option.map_eq_none_iff.mp hstep)
          exact hgood

/-- From the call of a stop on, the application only stops the server. -/
theorem halts_step {t t' : System × Startup}
    (h : t.2.stopping = true → t.1.app.Obeys halting (fun _ _ => True) ())
    (hstep : t.1.step cfg move = some t'.1) (hnote : t'.2 = Startup.note cfg move t.1 t.2) :
    t'.2.stopping = true → t'.1.app.Obeys halting (fun _ _ => True) () := by
  rw [hnote]
  obtain ⟨s', u'⟩ := t'
  have hnext : ∀ {a : Answers} {c : ServerCall} {next : c.Result → ServerProgram Unit},
      t.1.app = .call c next → (Startup.note cfg (.app a) t.1 t.2).stopping = true → ∀ r,
        (next r).Obeys halting (fun _ _ => True) () := by
    intro a c next happ hstopping r
    have hold : t.2.stopping = true := by
      rw [← hstopping]
      simp only [Startup.note]
      split <;> rfl
    have hobeys := h hold
    rw [happ] at hobeys
    exact hobeys.2 r trivial
  have hmakes := System.makes_of_step hstep
  generalize t.1.called cfg move = made at hmakes
  cases hmakes with
  | @job job _ hidle halive =>
      intro hstopping
      cases job with
      | start => cases hstopping
      | stop => exact robotProtocolStop_halting
      | destroy => exact robotProtocolDestroy_halting
  | created happ => exact fun hstopping => hnext happ hstopping _
  | notCreated left happ => exact fun hstopping => hnext happ hstopping _
  | joined happ hfinished => exact fun hstopping => hnext happ hstopping _
  | app happ hthread hperform => exact fun hstopping => hnext happ hstopping _
  | again hworker hcode => exact h
  | worker hworker hcode hperform => exact h
  | reading hworker hcode => exact h
  | tick ms => exact h

/-- In a stop that has cleared the running flag, the calls of the application and the threads come to
an end, in whatever order they are made, with whatever results and at whatever times, a `read_header`
being one call that returns. They end only where the stop has returned and all threads have ended, or
where a thread has crashed. -/
theorem shutdown_of_run {t : System × Startup}
    (hrun : Run (System.starting cfg) (fun t move => t.1.LeavesAlone cfg move)
      (System.created, Startup.none) t)
    (hstopping : t.2.stopping = true) (hzero : t.1.shared.ctx.running = 0) :
    Acc (System.Goes cfg) t.1 ∧
      ∀ s, Relation.ReflTransGen (fun s s' => System.Goes cfg s' s) t.1 s →
        (∀ s', ¬ System.Goes cfg s' s) →
        (s.app = .ret () ∧ ∀ w ∈ s.workers, w.finished = true) ∨ ∃ w ∈ s.workers, w.crashed = true := by
  have hinvariant : (∃ m, Named t.1 m) ∧
      (t.2.stopping = true → t.1.app.Obeys halting (fun _ _ => True) ()) := by
    apply hrun.invariant ⟨⟨_, named_created⟩, nofun⟩
    rintro t move t' ⟨⟨m, hnamed⟩, hhalts⟩ halone hstep
    obtain ⟨hstep, hnote⟩ := noting_eq_some hstep
    exact ⟨named_step hnamed halone hstep, halts_step hhalts hstep hnote⟩
  obtain ⟨⟨m, hnamed⟩, hhalts⟩ := hinvariant
  have hstop : ∃ m, Stopping t.1 m := ⟨m, hnamed, hhalts hstopping, hzero⟩
  have hgoes : ∀ s s', (∃ m, Stopping s m) → System.Goes cfg s' s →
      (∃ m, Stopping s' m) ∧ Further cfg s'.remaining s.remaining := by
    rintro s s' ⟨m, h⟩ hgoes
    exact stopping_goes h hgoes
  constructor
  · apply acc_of_measure hgoes hstop
    exact (follows_wf.apply t.1.app).prod_gameAdd (Worker.after_wf.cutExpand.apply t.1.workers)
  · intro s hreach
    have hstill : ∃ m, Stopping s m := by
      induction hreach with
      | refl => exact hstop
      | tail _ hnext ih => exact (hgoes _ _ ih hnext).1
    intro hstuck
    obtain ⟨m, h⟩ := hstill
    exact h.ended hstuck

end Step

theorem System.leavesAlone_of_granted {cfg : ServerConfig} {s : System} {move : Move}
    (h : (s.called cfg move).all Called.granted = true) : s.LeavesAlone cfg move := by
  intro function left hcalled
  rw [hcalled] at h
  cases h

/-- A stop is called while the TCP thread reads a header, the timeout thread is inside a round and a
client is connected. -/
theorem shutdown_of_run_serving : ∃ t : System × Startup, t.1.shared.ctx.client.connected = true ∧
    t.1.workers.map Worker.finished = [false, false] ∧ t.1.step plainConfig (.reading 0) = some t.1 ∧
    Acc (System.Goes plainConfig) t.1 ∧
    ∀ s, Relation.ReflTransGen (fun s s' => System.Goes plainConfig s' s) t.1 s →
      (∀ s', ¬ System.Goes plainConfig s' s) →
      (s.app = .ret () ∧ ∀ w ∈ s.workers, w.finished = true) ∨ ∃ w ∈ s.workers, w.crashed = true := by
  obtain ⟨t, hrun, hend⟩ := Run.exists_of_follow
    (fun (t : System × Startup) move => (t.1.called plainConfig move).all Called.granted)
    (startMoves ++ acceptMoves ++ List.replicate 13 (.worker 0 { select := .ok [7] }) ++
      [.reading 0, .worker 1 {}, .job .stop, .app {}])
    (fun t : System × Startup => t.1.shared.ctx.client.connected &&
      decide (t.1.workers.map Worker.finished = [false, false]) && t.2.stopping &&
      decide (t.1.shared.ctx.running = 0) && decide ((t.1.step plainConfig (.reading 0)).isSome))
    (fun _ _ hcheck => System.leavesAlone_of_granted hcheck)
    (by decide +kernel : (Run.follow (System.starting plainConfig) _ _
      (System.created, Startup.none)).any _ = true)
  simp only [Bool.and_eq_true, decide_eq_true_eq] at hend
  obtain ⟨⟨⟨⟨hconnected, hthreads⟩, hstopping⟩, hzero⟩, hreading⟩ := hend
  obtain ⟨s, hs⟩ := Option.isSome_iff_exists.mp hreading
  have hsame : s = t.1 := by
    have htaken := System.taken_of_step hs
    cases htaken
    rfl
  exact ⟨t, hconnected, hthreads, hsame ▸ hs, shutdown_of_run hrun hstopping hzero⟩

end YaskawaComms.Server
