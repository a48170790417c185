import YaskawaComms.Server.Threads

/-!
# Histories

Which call each step of the system makes and what it returns, so that a history of a run can be
kept and every step can be told apart by its call.
-/

namespace YaskawaComms.Server

open Protocol Program

/-- A call with its result. -/
abbrev Called := (c : ServerCall) × c.Result

/-- The calls about threads, which the system answers. -/
def ServerCall.isThread : ServerCall → Bool
  | .pthreadCreate _ | .pthreadJoin _ => true
  | _ => false

/-- Only a store changes a field of the context. -/
theorem Shared.get_of_perform {cfg : ServerConfig} {a : Answers} {c : ServerCall} {s s' : Shared}
    {r : c.Result} (h : s.perform cfg a c = some (r, s')) (hc : ∀ field value, c ≠ .store field value)
    (field : CtxField) : s'.ctx.get field = s.ctx.get field := by
  have hclient : ∀ client, ({ s.ctx with client := client } : ServerCtx).get field = s.ctx.get field := by
    intro client
    cases field <;> rfl
  have hreply : ∀ (reply : Option Reply) {out : Option ResponseContext × Shared},
      s.reply reply = out → out.2.ctx.get field = s.ctx.get field := by
    intro reply out hout
    obtain ⟨heap, hheap⟩ := s.reply_heap reply
    rw [← hout, hheap]
  cases c with
  | store field value => exact absurd rfl (hc field value)
  | addClient socket addr =>
      have hout : (s.addClient cfg socket addr).2 = s' := congrArg Prod.snd (Option.some.inj h)
      rw [← hout, addClient]
      split
      · rfl
      · exact hclient _
  | removeClient =>
      cases h
      rw [removeClient]
      split
      · exact hclient _
      · rfl
  | stopClient =>
      cases h
      rw [stopClient]
      split
      · exact hclient _
      · rfl
  | storeLastCommand value =>
      cases h
      exact hclient _
  | registerUdpPort port =>
      cases h
      exact hclient _
  | send fd bytes =>
      simp only [perform] at h
      split at h
      · cases h
        rfl
      · cases h
        rfl
  | malloc len =>
      simp only [perform] at h
      split at h
      · cases h
        rfl
      · cases h
        rfl
  | readHeader fd =>
      simp only [perform] at h
      split at h
      · cases h
        rfl
      · cases h
        rfl
  | handleCommand header payload => exact hreply a.reply (Option.some.inj h)
  | getErrorInfo => exact hreply a.reply (Option.some.inj h)
  | nullContext => exact r.elim
  | _ =>
      cases h
      rfl

theorem ServerCtx.get_set (ctx : ServerCtx) (value : Int) (field other : CtxField) :
    (ctx.set value field).get other = if other = field then value else ctx.get other := by
  cases field <;> cases other <;> rfl

namespace System

/-- The call that a step makes. -/
def called (cfg : ServerConfig) (s : System) : Move → Option Called
  | .app a => match s.app with
      | .ret _ => none
      | .call (.pthreadCreate function) _ =>
          some ⟨.pthreadCreate function, a.thread.map fun _ => (s.workers.length : Int) + 1⟩
      | .call (.pthreadJoin thread) _ => some ⟨.pthreadJoin thread, ()⟩
      | .call c _ => (s.shared.perform cfg a c).map fun out => ⟨c, out.1⟩
  | .worker index a => match (s.workers[index]?).map Worker.code with
      | some (.call c _) => (s.shared.perform cfg a c).map fun out => ⟨c, out.1⟩
      | _ => none
  | .job _ | .reading _ | .tick _ => none

/-- The effect of a step, by the call that it makes. -/
inductive Makes (cfg : ServerConfig) (s : System) : Move → Option Called → System → Prop where
  | job {job : Job} {u : Unit} (hidle : s.app = .ret u) (halive : s.alive = true) :
      Makes cfg s (.job job) none { s with app := job.code cfg, alive := job ≠ .destroy }
  | created {a : Answers} {function : ThreadFunction}
      {next : Except (Option Nat) Int → ServerProgram Unit}
      (happ : s.app = .call (.pthreadCreate function) next) :
      Makes cfg s (.app a) (some ⟨.pthreadCreate function, .ok ((s.workers.length : Int) + 1)⟩)
        { s with
          app := next (.ok (s.workers.length + 1))
          workers := s.workers ++ [.fresh cfg function] }
  | notCreated {a : Answers} {function : ThreadFunction}
      {next : Except (Option Nat) Int → ServerProgram Unit} (left : Option Nat)
      (happ : s.app = .call (.pthreadCreate function) next) :
      Makes cfg s (.app a) (some ⟨.pthreadCreate function, .error left⟩)
        { s with app := next (.error left) }
  | joined {a : Answers} {thread : Int} {next : Unit → ServerProgram Unit}
      (happ : s.app = .call (.pthreadJoin thread) next)
      (hfinished : s.workers[(thread - 1).toNat]?.any Worker.finished = true) :
      Makes cfg s (.app a) (some ⟨.pthreadJoin thread, ()⟩) { s with app := next () }
  | app {a : Answers} {c : ServerCall} {next : c.Result → ServerProgram Unit} {r : c.Result}
      {shared : Shared} (happ : s.app = .call c next) (hthread : c.isThread = false)
      (hperform : s.shared.perform cfg a c = some (r, shared)) :
      Makes cfg s (.app a) (some ⟨c, r⟩) { s with app := next r, shared := shared }
  | again {index : Nat} {a : Answers} {w : Worker} (hworker : s.workers[index]? = some w)
      (hcode : w.code = .ret .again) :
      Makes cfg s (.worker index a) none
        { s with workers := s.workers.set index (.fresh cfg w.function) }
  | worker {index : Nat} {a : Answers} {w : Worker} {c : ServerCall}
      {next : c.Result → ServerProgram Round} {r : c.Result} {shared : Shared}
      (hworker : s.workers[index]? = some w) (hcode : w.code = .call c next)
      (hperform : s.shared.perform cfg a c = some (r, shared)) :
      Makes cfg s (.worker index a) (some ⟨c, r⟩)
        { s with
          workers := s.workers.set index { w.mark s.shared c r with code := next r }
          shared := shared }
  | reading {index : Nat} {w : Worker} {fd : Int} {next : Int × ProtocolHeader → ServerProgram Round}
      (hworker : s.workers[index]? = some w) (hcode : w.code = .call (.readHeader fd) next) :
      Makes cfg s (.reading index) none s
  | tick (ms : Nat) : Makes cfg s (.tick ms) none { s with shared.clock := s.shared.clock + ms }

variable {cfg : ServerConfig} {s s' : System} {move : Move}

theorem called_app {a : Answers} {c : ServerCall} {next : c.Result → ServerProgram Unit}
    {r : c.Result} {shared : Shared} (happ : s.app = .call c next) (hthread : c.isThread = false)
    (hperform : s.shared.perform cfg a c = some (r, shared)) :
    s.called cfg (.app a) = some ⟨c, r⟩ := by
  unfold called
  rw [happ]
  cases c with
  | pthreadCreate function => cases hthread
  | pthreadJoin thread => cases hthread
  | _ => exact congrArg (Option.map _) hperform

theorem called_worker {index : Nat} {a : Answers} {w : Worker} {c : ServerCall}
    {next : c.Result → ServerProgram Round} {r : c.Result} {shared : Shared}
    (hworker : s.workers[index]? = some w) (hcode : w.code = .call c next)
    (hperform : s.shared.perform cfg a c = some (r, shared)) :
    s.called cfg (.worker index a) = some ⟨c, r⟩ := by
  simp only [called, hworker, Option.map_some, hcode, hperform]

theorem called_again {index : Nat} {w : Worker} (hworker : s.workers[index]? = some w)
    (hcode : w.code = .ret .again) (a : Answers) : s.called cfg (.worker index a) = none := by
  simp only [called, hworker, Option.map_some, hcode]

theorem makes_of_stepApp {a : Answers} (h : s.stepApp cfg a = some s') :
    Makes cfg s (.app a) (s.called cfg (.app a)) s' := by
  unfold stepApp at h
  split at h
  · cases h
  · next function next happ =>
      unfold called
      rw [happ]
      dsimp only
      split at h
      · next thread hthread =>
          cases h
          rw [hthread]
          exact .created happ
      · next left hthread =>
          cases h
          rw [hthread]
          exact .notCreated left happ
  · next thread next happ =>
      unfold called
      rw [happ]
      split at h
      · next hfinished =>
          cases h
          exact .joined happ hfinished
      · cases h
  · next c next hcreate hjoin happ =>
      obtain ⟨⟨r, shared⟩, hperform, rfl⟩ := Option.map_eq_some_iff.mp h
      have hthread : c.isThread = false := by
        cases c with
        | pthreadCreate function => exact (hcreate function next rfl HEq.rfl).elim
        | pthreadJoin thread => exact (hjoin thread next rfl HEq.rfl).elim
        | _ => rfl
      rw [called_app happ hthread hperform]
      exact .app happ hthread hperform

theorem makes_of_step (h : s.step cfg move = some s') : Makes cfg s move (s.called cfg move) s' := by
  cases move with
  | job job =>
      simp only [step] at h
      split at h
      · next u hidle =>
          split at h
          · next halive =>
              cases h
              exact .job hidle halive
          · cases h
      · cases h
  | app a => exact makes_of_stepApp h
  | tick ms =>
      cases h
      exact .tick ms
  | reading index =>
      simp only [step] at h
      split at h
      · next fd next hcode =>
          obtain ⟨w, hworker, hcode⟩ := Option.map_eq_some_iff.mp hcode
          cases h
          exact .reading hworker hcode
      · cases h
  | worker index a =>
      simp only [step] at h
      split at h
      · cases h
      · next w hworker =>
          obtain ⟨⟨w', shared⟩, hstep, rfl⟩ := Option.map_eq_some_iff.mp h
          unfold Worker.step at hstep
          split at hstep
          · next hcode =>
              cases hstep
              rw [called_again hworker hcode]
              exact .again hworker hcode
          · cases hstep
          · next c next hcode =>
              obtain ⟨⟨r, shared'⟩, hperform, hout⟩ := Option.map_eq_some_iff.mp hstep
              cases hout
              rw [called_worker hworker hcode hperform]
              exact .worker hworker hcode hperform

/-- What a step adds to a history of calls. -/
def noted {η : Type} (note : System → Called → η → η) (s : System) (history : η) : Option Called → η
  | some made => note s made history
  | none => history

/-- The system with a history of its calls. -/
def recording {η : Type} (cfg : ServerConfig) (note : System → Called → η → η) :
    Move → System × η → Option (System × η) :=
  noting (step cfg) fun move s history => noted note s history (s.called cfg move)

theorem makes_of_recording {η : Type} {note : System → Called → η → η} {t t' : System × η}
    (h : recording cfg note move t = some t') :
    ∃ made, t.1.called cfg move = made ∧ Makes cfg t.1 move made t'.1 ∧ t'.2 = noted note t.1 t.2 made := by
  obtain ⟨hstep, hhistory⟩ := noting_eq_some h
  exact ⟨_, rfl, makes_of_step hstep, hhistory⟩

end System

end YaskawaComms.Server
