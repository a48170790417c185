import YaskawaComms.Server.Roles

/-!
# The server as a system of threads

The application calls the interface functions one after another while the threads that it has
started run their loops. A step is one call of one of them, so everything can happen between any two
calls; a region under the lock is one call.
-/

namespace YaskawaComms.Server

open Protocol Program

/-- A server thread with what is left of its round. `serving` is the connection from which it has
read a header in this round, `judged` the connection that it has found idle; the code does not know
these two. -/
structure Worker where
  function : ThreadFunction
  code : ServerProgram Round
  serving : Option Nat
  judged : Option Nat

/-- One round of a thread function. -/
def ThreadFunction.round (cfg : ServerConfig) : ThreadFunction → ServerProgram Round
  | .tcp => tcpThreadFunc cfg
  | .timeout => timeoutThreadFunc

namespace Worker

/-- A thread at the start of a round. -/
def fresh (cfg : ServerConfig) (function : ThreadFunction) : Worker :=
  ⟨function, function.round cfg, none, none⟩

def finished (w : Worker) : Bool :=
  match w.code with
  | .ret .finished => true
  | _ => false

/-- Keep in mind which connection the result of a call is about. -/
def mark (w : Worker) (s : Shared) : (c : ServerCall) → c.Result → Worker
  | .readHeader _, result =>
      if result.1 = sizeofProtocolHeader then { w with serving := some s.generation } else w
  | .judgeIdle _, idle => if idle then { w with judged := some s.generation } else w
  | _, _ => w

@[simp] theorem mark_function (w : Worker) (s : Shared) (c : ServerCall) (r : c.Result) :
    (w.mark s c r).function = w.function := by
  unfold mark
  split <;> first | rfl | (split <;> rfl)

theorem mark_serving (w : Worker) (s : Shared) {c : ServerCall} (r : c.Result)
    (h : ∀ fd, c ≠ .readHeader fd) : (w.mark s c r).serving = w.serving := by
  cases c with
  | readHeader fd => exact absurd rfl (h fd)
  | judgeIdle now =>
      simp only [mark]
      split <;> rfl
  | _ => rfl

/-- The next call of a thread, or the start of its next round. -/
def step (cfg : ServerConfig) (a : Answers) (w : Worker) (s : Shared) : Option (Worker × Shared) :=
  match w.code with
  | .ret .again => some (fresh cfg w.function, s)
  | .ret .finished => none
  | .call c next => (s.perform cfg a c).map fun out =>
      ({ w.mark s c out.1 with code := next out.1 }, out.2)

end Worker

/-- The functions of the application interface that are called on a server. -/
inductive Job where
  | start
  | stop
  | destroy
  deriving DecidableEq

def Job.code (cfg : ServerConfig) : Job → ServerProgram Unit
  | .start => do
      let _ ← robotProtocolStart cfg
  | .stop => robotProtocolStop
  | .destroy => robotProtocolDestroy

/-- Thread `n + 1` is the worker with index `n`. -/
structure System where
  shared : Shared
  alive : Bool
  app : ServerProgram Unit
  workers : List Worker

/-- A step: the application calls a function, it or a thread makes its next call, a thread goes round the
loop of `read_header` once more, or time passes. -/
inductive Move where
  | job (job : Job)
  | app (answers : Answers)
  | worker (index : Nat) (answers : Answers)
  | reading (index : Nat)
  | tick (ms : Nat)

namespace System

def created : System := ⟨robotProtocolCreate, true, .ret (), []⟩

def stepApp (cfg : ServerConfig) (a : Answers) (s : System) : Option System :=
  match s.app with
  | .ret _ => none
  | .call (.pthreadCreate function) next =>
      match a.thread with
      | .ok _ => some { s with
          app := next (.ok (s.workers.length + 1))
          workers := s.workers ++ [.fresh cfg function] }
      | .error left => some { s with app := next (.error left) }
  | .call (.pthreadJoin thread) next =>
      if s.workers[(thread - 1).toNat]?.any Worker.finished then some { s with app := next () }
      else none
  | .call c next => (s.shared.perform cfg a c).map fun out =>
      { s with app := next out.1, shared := out.2 }

def step (cfg : ServerConfig) : Move → System → Option System
  | .job job, s =>
      match s.app with
      | .ret _ =>
          if s.alive then some { s with app := job.code cfg, alive := job ≠ .destroy } else none
      | .call _ _ => none
  | .app a, s => s.stepApp cfg a
  | .worker index a, s =>
      match s.workers[index]? with
      | none => none
      | some w => (w.step cfg a s.shared).map fun out =>
          { s with workers := s.workers.set index out.1, shared := out.2 }
  | .reading index, s =>
      match (s.workers[index]?).map Worker.code with
      | some (.call (.readHeader _) _) => some s
      | _ => none
  | .tick ms, s => some { s with shared.clock := s.shared.clock + ms }

/-- The call that a move is going to make. -/
def nextCall (s : System) : Move → Option ServerCall
  | .app _ => match s.app with
      | .call c _ => some c
      | .ret _ => none
  | .worker index _ => match (s.workers[index]?).map Worker.code with
      | some (.call c _) => some c
      | _ => none
  | _ => none

/-- The effect of a step, by what is done in it. -/
inductive Taken (cfg : ServerConfig) (s : System) : Move → System → Prop where
  | job (job : Job) :
      Taken cfg s (.job job) { s with app := job.code cfg, alive := job ≠ .destroy }
  | silent {a : Answers} {c : ServerCall} {next : c.Result → ServerProgram Unit} (r : c.Result)
      (happ : s.app = .call c next) : Taken cfg s (.app a) { s with app := next r }
  | spawned {a : Answers} {c : ServerCall} {next : c.Result → ServerProgram Unit} (r : c.Result)
      (function : ThreadFunction) (happ : s.app = .call c next) :
      Taken cfg s (.app a)
        { s with app := next r, workers := s.workers ++ [.fresh cfg function] }
  | app {a : Answers} {c : ServerCall} {next : c.Result → ServerProgram Unit} {r : c.Result}
      {shared : Shared} (happ : s.app = .call c next)
      (hperform : s.shared.perform cfg a c = some (r, shared)) :
      Taken cfg s (.app a) { s with app := next r, shared := shared }
  | again {index : Nat} {a : Answers} {w : Worker} (hworker : s.workers[index]? = some w)
      (hcode : w.code = .ret .again) :
      Taken cfg s (.worker index a)
        { s with workers := s.workers.set index (.fresh cfg w.function) }
  | worker {index : Nat} {a : Answers} {w : Worker} {c : ServerCall}
      {next : c.Result → ServerProgram Round} {r : c.Result} {shared : Shared}
      (hworker : s.workers[index]? = some w) (hcode : w.code = .call c next)
      (hperform : s.shared.perform cfg a c = some (r, shared)) :
      Taken cfg s (.worker index a)
        { s with
          workers := s.workers.set index { w.mark s.shared c r with code := next r }
          shared := shared }
  | reading (index : Nat) : Taken cfg s (.reading index) s
  | tick (ms : Nat) : Taken cfg s (.tick ms) { s with shared.clock := s.shared.clock + ms }

variable {cfg : ServerConfig} {s s' : System} {move : Move}

theorem taken_of_stepApp {a : Answers} (h : s.stepApp cfg a = some s') :
    Taken cfg s (.app a) s' := by
  unfold stepApp at h
  split at h
  · cases h
  · next function next happ =>
      split at h
      · cases h
        exact .spawned _ function happ
      · cases h
        exact .silent _ happ
  · next thread next happ =>
      split at h
      · cases h
        exact .silent _ happ
      · cases h
  · next c next _ _ happ =>
      obtain ⟨⟨r, shared⟩, hperform, rfl⟩ := Option.map_eq_some_iff.mp h
      exact .app happ hperform

theorem taken_of_step (h : s.step cfg move = some s') : Taken cfg s move s' := by
  cases move with
  | job job =>
      simp only [step] at h
      split at h
      · split at h
        · cases h
          exact .job job
        · cases h
      · cases h
  | app a => exact taken_of_stepApp h
  | tick ms =>
      cases h
      exact .tick ms
  | reading index =>
      simp only [step] at h
      split at h
      · cases h
        exact .reading index
      · cases h
  | worker index a =>
      simp only [step] at h
      split at h
      · cases h
      · next w hworker =>
          obtain ⟨⟨w', shared⟩, hstep, rfl⟩ := Option.map_eq_some_iff.mp h
          unfold Worker.step at hstep
          split at hstep
          · next hcode =>
              cases hstep
              exact .again hworker hcode
          · cases hstep
          · next c next hcode =>
              obtain ⟨⟨r, shared⟩, hperform, hout⟩ := Option.map_eq_some_iff.mp hstep
              cases hout
              exact .worker hworker hcode hperform

theorem nextCall_app {a : Answers} {c : ServerCall} {next : c.Result → ServerProgram Unit}
    (happ : s.app = .call c next) : s.nextCall (.app a) = some c := by
  rw [nextCall, happ]

theorem nextCall_worker {index : Nat} {a : Answers} {w : Worker} {c : ServerCall}
    {next : c.Result → ServerProgram Round} (hworker : s.workers[index]? = some w)
    (hcode : w.code = .call c next) : s.nextCall (.worker index a) = some c := by
  rw [nextCall, hworker, Option.map_some, hcode]

theorem worker_of_set {workers : List Worker} {index j : Nat} {w w' : Worker}
    (h : (workers.set index w')[j]? = some w) :
    (j = index ∧ w = w') ∨ (j ≠ index ∧ workers[j]? = some w) := by
  rw [List.getElem?_set] at h
  split at h
  · next hindex =>
      split at h
      · exact Or.inl ⟨hindex.symm, (Option.some.inj h).symm⟩
      · cases h
  · next hindex => exact Or.inr ⟨Ne.symm hindex, h⟩

theorem worker_of_append {workers : List Worker} {j : Nat} {w w' : Worker}
    (h : (workers ++ [w'])[j]? = some w) : workers[j]? = some w ∨ (workers[j]? = none ∧ w = w') := by
  rw [List.getElem?_append] at h
  split at h
  · exact Or.inl h
  · next hlength =>
      exact Or.inr ⟨List.getElem?_eq_none_iff.mpr (Nat.le_of_not_lt hlength),
        List.mem_singleton.mp (List.mem_of_getElem? h)⟩

/-- A property of every thread is kept by a step if the acting thread keeps it and what the step does
to the shared state keeps it for all others. -/
theorem each_worker {P : Worker → Shared → Prop}
    (h : ∀ (j : Nat) w, s.workers[j]? = some w → P w s.shared) (hstep : s.step cfg move = some s')
    (hfresh : ∀ function, P (.fresh cfg function) s.shared)
    (hactor : ∀ {index : Nat} {a : Answers} {w : Worker} {c : ServerCall}
      {next : c.Result → ServerProgram Round} {r : c.Result} {shared : Shared},
      s.workers[index]? = some w → w.code = .call c next →
      s.shared.perform cfg a c = some (r, shared) → P { w.mark s.shared c r with code := next r } shared)
    (hothers : ∀ {c : ServerCall} {shared : Shared}, s.nextCall move = some c →
      Shared.Effect cfg s.shared c shared → ∀ (j : Nat) w, s.workers[j]? = some w →
      (∀ a, move ≠ .worker j a) → P w shared)
    (htick : ∀ ms (j : Nat) w, s.workers[j]? = some w →
      P w { s.shared with clock := s.shared.clock + ms }) :
    ∀ (j : Nat) w, s'.workers[j]? = some w → P w s'.shared := by
  cases taken_of_step hstep with
  | job job => exact h
  | silent r happ => exact h
  | reading index => exact h
  | tick ms => exact htick ms
  | spawned r function happ =>
      intro j w hw
      rcases worker_of_append hw with hold | ⟨-, rfl⟩
      · exact h j w hold
      · exact hfresh function
  | app happ hperform =>
      intro j w hw
      exact hothers (nextCall_app happ) (Shared.effect_of_perform hperform) j w hw
        (fun _ => Move.noConfusion)
  | again hworker hcode =>
      intro j w hw
      rcases worker_of_set hw with ⟨-, rfl⟩ | ⟨-, hold⟩
      · exact hfresh _
      · exact h j w hold
  | worker hworker hcode hperform =>
      intro j w hw
      rcases worker_of_set hw with ⟨-, rfl⟩ | ⟨hne, hold⟩
      · exact hactor hworker hcode hperform
      · apply hothers (nextCall_worker hworker hcode) (Shared.effect_of_perform hperform) j w hold
        intro a hmove
        cases hmove
        exact hne rfl

end System

section Scripts

/-- The moves of a successful start: its sockets are 4 and 5. -/
def startMoves : List Move :=
  .job .start :: List.replicate 7 (.app { descriptor := 4 }) ++
    List.replicate 10 (.app { descriptor := 5, thread := .ok 1 })

/-- A round of the TCP thread that accepts a client on descriptor 7. -/
def acceptMoves : List Move :=
  List.replicate 12 (.worker 0 { select := .ok [4], accepted := (7, ⟨1, 2⟩) })

/-- A round of the TCP thread that finds the connection on descriptor 7 closed. -/
def closeMoves : List Move :=
  List.replicate 16 (.worker 0 { select := .ok [7] })

/-- Both threads are at the start of a round and find that the server is stopping. -/
def stopMoves : List Move :=
  .job .stop :: List.replicate 4 (.app {}) ++ [.worker 0 {}, .worker 1 {}] ++
    List.replicate 17 (.app {})

end Scripts

end YaskawaComms.Server
