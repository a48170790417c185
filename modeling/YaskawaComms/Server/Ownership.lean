import YaskawaComms.Protocol.Framing
import YaskawaComms.Server.Threads

/-!
# The connection of a message

Handling a message is many separate accesses to the client's record. All of them apply to the
connection of the message as long as no other thread removes the client before the last of them.
-/

namespace YaskawaComms.Server

open Protocol Program

/-- A call that is a part of handling a message from a connection, and applies to it. -/
def ServerCall.AppliesTo (generation : Nat) (s : Shared) : ServerCall → Prop
  | .recv fd _ | .send fd _ =>
      s.ctx.client.connected = true ∧ s.generation = generation ∧ fd = s.ctx.client.socket
  | .storeLastCommand _ | .registerUdpPort _ =>
      s.ctx.client.connected = true ∧ s.generation = generation
  | _ => True

/-- A call that writes to the client's record outside of adding and removing clients. -/
def ServerCall.writesClient : ServerCall → Bool
  | .storeLastCommand _ | .registerUdpPort _ => true
  | _ => false

/-- The next call of a thread applies to the connection whose message it handles. -/
def Worker.Applies (w : Worker) (s : Shared) : Prop :=
  match w.serving, w.code with
  | some generation, .call c _ => c.AppliesTo generation s
  | _, _ => True

/-- Without a client, the record is the cleared one. -/
def Shared.Cleared (s : Shared) : Prop :=
  s.ctx.client.connected = false → s.ctx.client = .cleared

/-- Nothing that a thread still does in its round applies to a client. -/
def Worker.Done (w : Worker) : Prop :=
  w.serving = none ∨ ∃ socket, w.code.Obeys tcpRole (fun _ _ => True) (.handling socket true)

/-- A client is removed when no other thread has something left to do for it. -/
def System.Orderly (s : System) (move : Move) : Prop :=
  s.shared.ctx.client.connected = true →
    s.nextCall move = some .removeClient ∨ s.nextCall move = some .stopClient →
      ∀ (j : Nat) w, s.workers[j]? = some w → (∀ a, move ≠ .worker j a) → w.Done

/-- What a phase of the TCP thread knows. -/
def TcpPhase.Knows (serving : Option Nat) (s : Shared) : TcpPhase → Prop
  | .waiting => serving = none
  | .handling socket removed => removed = false →
      s.ctx.client.connected = true ∧ s.ctx.client.socket = socket ∧ serving = some s.generation

/-- A thread follows its rules; while it handles a message, the client is the one that has sent it,
unless the thread has removed it. -/
structure Worker.Owns (w : Worker) (s : Shared) : Prop where
  tcp : w.function = .tcp → ∃ phase : TcpPhase,
    w.code.Obeys tcpRole (fun _ _ => True) phase ∧ phase.Knows w.serving s
  timeout : w.function = .timeout → w.serving = none ∧
    ∃ phase, w.code.Obeys timeoutRole (fun _ phase => phase.judged = false) phase

variable {cfg : ServerConfig}

section Worker

variable {s s' : Shared} {w : Worker} {c : ServerCall}

theorem Worker.owns_fresh (function : ThreadFunction) : (Worker.fresh cfg function).Owns s := by
  cases function with
  | tcp => exact ⟨fun _ => ⟨.waiting, tcpThreadFunc_obeys cfg, rfl⟩, nofun⟩
  | timeout => exact ⟨nofun, fun _ => ⟨rfl, _, timeoutThreadFunc_obeys⟩⟩

theorem Worker.Owns.applies (h : w.Owns s) : w.Applies s := by
  unfold Worker.Applies
  split
  · next generation c next hserving hcode =>
      cases hfunction : w.function with
      | timeout =>
          have hnone := (h.timeout hfunction).1
          rw [hserving] at hnone
          cases hnone
      | tcp =>
          obtain ⟨phase, hobeys, hknows⟩ := h.tcp hfunction
          rw [hcode] at hobeys
          rw [hserving] at hknows
          cases phase with
          | waiting => cases hknows
          | handling socket removed =>
              have hgood := hobeys.1
              cases c with
              | recv fd len =>
                  obtain ⟨-, hfd, hremoved⟩ := hgood
                  obtain ⟨hconnected, hsocket, hgeneration⟩ := hknows hremoved
                  exact ⟨hconnected, (Option.some.inj hgeneration).symm, hfd.trans hsocket.symm⟩
              | send fd bytes =>
                  obtain ⟨hfd, hremoved⟩ := hgood
                  obtain ⟨hconnected, hsocket, hgeneration⟩ := hknows hremoved
                  exact ⟨hconnected, (Option.some.inj hgeneration).symm, hfd.trans hsocket.symm⟩
              | storeLastCommand value =>
                  obtain ⟨hconnected, -, hgeneration⟩ := hknows hgood
                  exact ⟨hconnected, (Option.some.inj hgeneration).symm⟩
              | registerUdpPort port =>
                  obtain ⟨hconnected, -, hgeneration⟩ := hknows hgood
                  exact ⟨hconnected, (Option.some.inj hgeneration).symm⟩
              | _ => trivial
  · trivial

theorem TcpPhase.Knows.effect {phase : TcpPhase} {serving : Option Nat} (h : phase.Knows serving s)
    (hremove : c ≠ .removeClient) (hstop : c ≠ .stopClient) (heffect : Shared.Effect cfg s c s') :
    phase.Knows serving s' := by
  cases phase with
  | waiting => exact h
  | handling socket removed =>
      intro hremoved
      obtain ⟨hconnected, hsocket, hserving⟩ := h hremoved
      cases heffect with
      | quiet hquiet =>
          rw [hquiet.client, hquiet.generation]
          exact ⟨hconnected, hsocket, hserving⟩
      | added hnone =>
          rw [hconnected] at hnone
          cases hnone
      | removed hsome => exact absurd rfl hremove
      | stopped hsome => exact absurd rfl hstop
      | commanded value => exact ⟨hconnected, hsocket, hserving⟩
      | registered port => exact ⟨hconnected, hsocket, hserving⟩

theorem Worker.Owns.effect (h : w.Owns s)
    (horderly : s.ctx.client.connected = true → c = .removeClient ∨ c = .stopClient → w.Done)
    (heffect : Shared.Effect cfg s c s') : w.Owns s' := by
  refine ⟨?_, h.timeout⟩
  intro hfunction
  obtain ⟨phase, hobeys, hknows⟩ := h.tcp hfunction
  by_cases hcall : c = .removeClient ∨ c = .stopClient
  · cases phase with
    | waiting => exact ⟨.waiting, hobeys, hknows⟩
    | handling socket removed =>
        cases removed with
        | true => exact ⟨.handling socket true, hobeys, nofun⟩
        | false =>
            obtain ⟨hconnected, -, hserving⟩ := hknows rfl
            rcases horderly hconnected hcall with hnone | ⟨last, hdone⟩
            · rw [hserving] at hnone
              cases hnone
            · exact ⟨.handling last true, hdone, nofun⟩
  · rw [not_or] at hcall
    exact ⟨phase, hobeys, hknows.effect hcall.1 hcall.2 heffect⟩

/-- What the TCP thread itself does while it has no message. -/
theorem knows_waiting {a : Answers} {r : c.Result} (hserving : w.serving = none)
    (hgood : tcpRole.good .waiting c) (hperform : s.perform cfg a c = some (r, s')) :
    (tcpRole.next .waiting c r).Knows (w.mark s c r).serving s' := by
  cases c with
  | readHeader fd =>
      simp only [Shared.perform] at hperform
      rw [tcpRole_readHeader]
      split at hperform
      · next hclient =>
          cases hperform
          by_cases hwhole : a.header.1 = sizeofProtocolHeader
          · rw [if_pos hwhole]
            intro _
            refine ⟨hclient.1, hclient.2.symm, ?_⟩
            simp only [Worker.mark, hwhole, if_true]
          · rw [if_neg hwhole]
            simp only [TcpPhase.Knows, Worker.mark, if_neg hwhole]
            exact hserving
      · cases hperform
        rw [if_neg (by decide)]
        exact hserving
  | load field => exact hserving
  | loadConnected => exact hserving
  | loadSocket => exact hserving
  | select nfds fds => exact hserving
  | accept fd => exact hserving
  | addClient socket addr => exact hserving
  | close fd => exact hserving
  | removeClient => exact hserving
  | _ => exact hgood.elim

theorem knows_handling {a : Answers} {r : c.Result} {socket : Int} {removed : Bool}
    (hknows : (TcpPhase.handling socket removed).Knows w.serving s)
    (hgood : tcpRole.good (.handling socket removed) c)
    (hperform : s.perform cfg a c = some (r, s')) :
    tcpRole.allowed (.handling socket removed) c r ∧
      (tcpRole.next (.handling socket removed) c r).Knows (w.mark s c r).serving s' := by
  have hkeep : (∀ fd, c ≠ .readHeader fd) → c ≠ .removeClient → c ≠ .stopClient →
      (TcpPhase.handling socket removed).Knows (w.mark s c r).serving s' := by
    intro hread hremove hstop
    rw [w.mark_serving s r hread]
    exact hknows.effect hremove hstop (Shared.effect_of_perform hperform)
  cases c with
  | removeClient => exact ⟨trivial, nofun⟩
  | loadSocket =>
      refine ⟨?_, hkeep nofun nofun nofun⟩
      intro hremoved
      cases hperform
      exact (hknows hremoved).2.1
  | malloc len => exact ⟨nofun, hkeep nofun nofun nofun⟩
  | readHeader fd => exact hgood.elim
  | stopClient => exact hgood.elim
  | _ => exact ⟨trivial, hkeep nofun nofun nofun⟩

theorem Worker.Owns.call {a : Answers} {next : c.Result → ServerProgram Round} {r : c.Result}
    (h : w.Owns s) (hcode : w.code = .call c next) (hperform : s.perform cfg a c = some (r, s')) :
    Worker.Owns { w.mark s c r with code := next r } s' := by
  constructor
  · intro hfunction
    rw [show _ = w.function from w.mark_function s c r] at hfunction
    obtain ⟨phase, hobeys, hknows⟩ := h.tcp hfunction
    rw [hcode] at hobeys
    obtain ⟨hgood, hnext⟩ := hobeys
    cases phase with
    | waiting => exact ⟨_, hnext r trivial, knows_waiting hknows hgood hperform⟩
    | handling socket removed =>
        obtain ⟨hallowed, hknows'⟩ := knows_handling hknows hgood hperform
        exact ⟨_, hnext r hallowed, hknows'⟩
  · intro hfunction
    rw [show _ = w.function from w.mark_function s c r] at hfunction
    obtain ⟨hserving, phase, hobeys⟩ := h.timeout hfunction
    rw [hcode] at hobeys
    obtain ⟨hgood, hnext⟩ := hobeys
    refine ⟨?_, _, hnext r trivial⟩
    have hmark : (w.mark s c r).serving = w.serving := by
      apply w.mark_serving s r
      intro fd hc
      subst hc
      exact hgood
    rw [hmark, hserving]

theorem Worker.Owns.connected {next : c.Result → ServerProgram Round} (h : w.Owns s)
    (hcode : w.code = .call c next) (hwrites : c.writesClient = true) :
    s.ctx.client.connected = true := by
  cases hfunction : w.function with
  | timeout =>
      obtain ⟨-, phase, hobeys⟩ := h.timeout hfunction
      rw [hcode] at hobeys
      have hgood := hobeys.1
      cases c with
      | storeLastCommand value => exact hgood.elim
      | registerUdpPort port => exact hgood.elim
      | _ => cases hwrites
  | tcp =>
      obtain ⟨phase, hobeys, hknows⟩ := h.tcp hfunction
      rw [hcode] at hobeys
      have hgood := hobeys.1
      cases phase with
      | waiting =>
          cases c with
          | storeLastCommand value => exact hgood.elim
          | registerUdpPort port => exact hgood.elim
          | _ => cases hwrites
      | handling socket removed =>
          cases c with
          | storeLastCommand value => exact (hknows hgood).1
          | registerUdpPort port => exact (hknows hgood).1
          | _ => cases hwrites

theorem Shared.Cleared.effect (h : s.Cleared)
    (hwrites : c.writesClient = true → s.ctx.client.connected = true)
    (heffect : Shared.Effect cfg s c s') : s'.Cleared := by
  intro hnone
  cases heffect with
  | quiet hquiet =>
      rw [hquiet.client] at hnone ⊢
      exact h hnone
  | added hconnected =>
      rw [Shared.addClient_client hconnected] at hnone
      cases hnone
  | removed hconnected => exact Shared.removeClient_client hconnected
  | stopped hconnected => exact Shared.stopClient_client hconnected
  | commanded value =>
      rw [show s.ctx.client.connected = false from hnone] at hwrites
      exact absurd (hwrites rfl) Bool.false_ne_true
  | registered port =>
      rw [show s.ctx.client.connected = false from hnone] at hwrites
      exact absurd (hwrites rfl) Bool.false_ne_true

end Worker

/-- The application and the threads follow their rules, and nobody writes to a cleared record. -/
structure System.Owned (s : System) : Prop where
  app : s.app.Obeys application (fun _ _ => True) ()
  workers : ∀ (j : Nat) w, s.workers[j]? = some w → w.Owns s.shared
  cleared : s.shared.Cleared

section System

variable {s s' : System} {move : Move}

theorem orderly_of_nextCall (h : s.nextCall move ≠ some .removeClient ∧
    s.nextCall move ≠ some .stopClient) : s.Orderly move := by
  intro _ hremoves
  exact absurd hremoves (not_or.mpr h)

theorem owned_created : System.created.Owned := by
  refine ⟨trivial, ?_, fun _ => rfl⟩
  intro j w hw
  cases hw

theorem Job.code_obeys (job : Job) : (job.code cfg).Obeys application (fun _ _ => True) () := by
  cases job with
  | start => exact (application_of_operating (robotProtocolStart_obeys cfg)).bind fun _ _ _ => trivial
  | stop => exact application_of_operating robotProtocolStop_obeys
  | destroy => exact robotProtocolDestroy_obeys

theorem application_writes {c : ServerCall} (hwrites : c.writesClient = true) :
    ¬ application.good () c := by
  intro hgood
  cases c with
  | storeLastCommand value => exact hgood
  | registerUdpPort port => exact hgood
  | _ => cases hwrites

theorem owned_step (h : s.Owned) (horderly : s.Orderly move) (hstep : s.step cfg move = some s') :
    s'.Owned := by
  constructor
  · have happlication : ∀ {c : ServerCall} {next : c.Result → ServerProgram Unit} (r : c.Result),
        s.app = .call c next → (next r).Obeys application (fun _ _ => True) () := by
      intro c next r happ
      have hobeys := h.app
      rw [happ] at hobeys
      exact hobeys.2 r trivial
    cases System.taken_of_step hstep with
    | job job => exact job.code_obeys
    | silent r happ => exact happlication r happ
    | spawned r function happ => exact happlication r happ
    | app happ hperform => exact happlication _ happ
    | again hworker hcode => exact h.app
    | worker hworker hcode hperform => exact h.app
    | reading index => exact h.app
    | tick ms => exact h.app
  · apply System.each_worker h.workers hstep
    · intro function
      exact Worker.owns_fresh function
    · intro index a w c next r shared hworker hcode hperform
      exact (h.workers index w hworker).call hcode hperform
    · intro c shared hcall heffect j w hw hother
      apply (h.workers j w hw).effect _ heffect
      intro hconnected hremoves
      apply horderly hconnected _ j w hw hother
      rw [hcall]
      exact hremoves.imp (congrArg some) (congrArg some)
    · intro ms j w hw
      exact ⟨(h.workers j w hw).tcp, (h.workers j w hw).timeout⟩
  · cases System.taken_of_step hstep with
    | job job => exact h.cleared
    | silent r happ => exact h.cleared
    | spawned r function happ => exact h.cleared
    | again hworker hcode => exact h.cleared
    | reading index => exact h.cleared
    | tick ms => exact h.cleared
    | app happ hperform =>
        apply h.cleared.effect _ (Shared.effect_of_perform hperform)
        intro hwrites
        have hobeys := h.app
        rw [happ] at hobeys
        exact absurd hobeys.1 (application_writes hwrites)
    | worker hworker hcode hperform =>
        apply h.cleared.effect _ (Shared.effect_of_perform hperform)
        exact (h.workers _ _ hworker).connected hcode

/-- In every orderly run, each call of handling a message applies to the connection of the message,
and the record of a client that has been removed stays cleared. -/
theorem applies_of_run (hrun : Run (System.step cfg) System.Orderly System.created s) :
    (∀ w ∈ s.workers, w.Applies s.shared) ∧ s.shared.Cleared := by
  have howned : s.Owned :=
    hrun.invariant owned_created fun _ _ _ h horderly hstep => owned_step h horderly hstep
  refine ⟨?_, howned.cleared⟩
  intro w hw
  obtain ⟨j, hj⟩ := List.getElem?_of_mem hw
  exact (howned.workers j w hj).applies

end System

section Examples

/-- The TCP thread reads a message without payload, up to the call that records the time. -/
def messageMoves : List Move :=
  List.replicate 16 (.worker 0 { select := .ok [7], header := (18, heartbeat.header) })

/-- A thread that sends a part of its response to a message. -/
def Worker.responds (w : Worker) : Bool :=
  match w.serving, w.code with
  | some _, .call (.send _ _) _ => true
  | _, _ => false

theorem applies_response : ∃ s : System, ∃ w ∈ s.workers, w.responds = true ∧ w.Applies s.shared := by
  obtain ⟨s, hrun, hend⟩ := Run.exists_of_follow
    (fun (s : System) move => decide (s.nextCall move ≠ some .removeClient ∧
      s.nextCall move ≠ some .stopClient))
    (startMoves ++ acceptMoves ++ messageMoves ++ List.replicate 7 (.worker 0 {}))
    (fun s : System => s.workers.any Worker.responds)
    (fun _ _ hcheck => orderly_of_nextCall (of_decide_eq_true hcheck))
    (by decide +kernel : (Run.follow (System.step plainConfig) _ _ System.created).any _ = true)
  obtain ⟨w, hw, hresponds⟩ := List.any_eq_true.mp hend
  exact ⟨s, w, hw, hresponds, (applies_of_run hrun).1 w hw⟩

/-- The timeout thread removes the client while its message is handled: the record that has been
cleared is written to, and the response goes to another descriptor. -/
theorem removed_client_answered : ∃ s : System,
    Run (System.step plainConfig) (fun _ _ => True) System.created s ∧
      ¬ s.shared.Cleared ∧ ∃ w ∈ s.workers, ¬ w.Applies s.shared := by
  obtain ⟨s, hrun, hend⟩ := Run.exists_of_follow (fun _ _ => true)
    (startMoves ++ acceptMoves ++ [.tick 6000] ++ messageMoves ++ List.replicate 4 (.worker 1 {}) ++
      List.replicate 7 (.worker 0 {}))
    (fun s : System => decide (s.shared.ctx.client.connected = false ∧
      s.shared.ctx.client ≠ .cleared) && s.workers.any Worker.responds) (fun _ _ _ => trivial)
    (by decide +kernel : (Run.follow (System.step plainConfig) _ _ System.created).any _ = true)
  obtain ⟨hclient, hany⟩ := Bool.and_eq_true_iff.mp hend
  obtain ⟨hnone, hrecord⟩ := of_decide_eq_true hclient
  obtain ⟨w, hw, hresponds⟩ := List.any_eq_true.mp hany
  refine ⟨s, hrun, fun hcleared => hrecord (hcleared hnone), w, hw, ?_⟩
  intro happlies
  unfold Worker.responds at hresponds
  split at hresponds
  · next hserving hcode =>
      rw [Worker.Applies, hserving, hcode] at happlies
      rw [happlies.1] at hnone
      cases hnone
  · cases hresponds

end Examples

end YaskawaComms.Server
