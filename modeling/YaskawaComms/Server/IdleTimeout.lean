import YaskawaComms.Server.Threads

/-!
# Idle clients

The timeout thread finds a client idle and removes the client in two separate regions under the
lock. What it removes is what it has found idle as long as nothing in between starts a connection or
renews the time of the last command.
-/

namespace YaskawaComms.Server

open Protocol Program

/-- The timeout thread is about to remove the client. -/
def Worker.removing (w : Worker) : Bool :=
  match w.function, w.code with
  | .timeout, .call .removeClient _ => true
  | _, _ => false

/-- If there is a client, it is the one that the thread has found idle, and it is idle now. -/
def Worker.Justified (cfg : ServerConfig) (w : Worker) (s : Shared) : Prop :=
  s.ctx.client.connected = true →
    w.judged = some s.generation ∧
      (cfg.connectionTimeoutMs.toNat : Int) < 1000 * (s.time - s.ctx.client.lastCommand)

/-- A call that starts a connection or the time of one anew. -/
def ServerCall.renews (s : Shared) : ServerCall → Bool
  | .storeLastCommand _ => true
  | .addClient _ _ => !s.ctx.client.connected
  | _ => false

/-- Nothing is renewed between a verdict and the removal. -/
def System.Undisturbed (s : System) (move : Move) : Prop :=
  s.workers.any Worker.removing = true →
    (s.nextCall move).any (ServerCall.renews s.shared) = false

variable {cfg : ServerConfig}

section Shared

variable {s s' : Shared} {w : Worker} {c : ServerCall}

theorem Shared.Effect.clock (h : Shared.Effect cfg s c s') : s'.clock = s.clock := by
  cases h with
  | quiet hquiet => exact hquiet.clock
  | added _ => exact Shared.addClient_clock
  | removed _ => exact Shared.removeClient_clock
  | stopped _ => exact Shared.stopClient_clock
  | commanded value => rfl
  | registered port => rfl

theorem Shared.Effect.time (h : Shared.Effect cfg s c s') : s'.time = s.time := by
  rw [Shared.time, h.clock, Shared.time]

theorem Shared.time_tick (s : Shared) (ms : Nat) :
    s.time ≤ Shared.time { s with clock := s.clock + ms } := by
  simp only [Shared.time]
  omega

theorem Worker.Justified.effect (h : w.Justified cfg s) (hcalm : c.renews s = false)
    (heffect : Shared.Effect cfg s c s') : w.Justified cfg s' := by
  have htime := heffect.time
  intro hconnected
  cases heffect with
  | quiet hquiet =>
      rw [hquiet.client] at hconnected
      rw [htime, hquiet.client, hquiet.generation]
      exact h hconnected
  | added hnone =>
      rw [ServerCall.renews, hnone] at hcalm
      cases hcalm
  | removed hsome =>
      rw [Shared.removeClient_client hsome] at hconnected
      cases hconnected
  | stopped hsome =>
      rw [Shared.stopClient_client hsome] at hconnected
      cases hconnected
  | commanded value => cases hcalm
  | registered port =>
      rw [htime]
      exact h hconnected

theorem Worker.Justified.tick (h : w.Justified cfg s) (ms : Nat) :
    w.Justified cfg { s with clock := s.clock + ms } := by
  intro hconnected
  obtain ⟨hjudged, hidle⟩ := h hconnected
  have htime := s.time_tick ms
  refine ⟨hjudged, ?_⟩
  dsimp only
  omega

theorem Worker.justified_of_judgeIdle {now : Int} (hnow : now ≤ s.time)
    (hjudged : w.judged = some s.generation) (h : s.judgeIdle cfg now = true) : w.Justified cfg s := by
  intro hconnected
  have hidle : (cfg.connectionTimeoutMs.toNat : Int) < 1000 * (now - s.ctx.client.lastCommand) := by
    simpa [Shared.judgeIdle, hconnected] using h
  exact ⟨hjudged, by omega⟩

end Shared

/-- The timeout thread follows its rules, it has not read a time to come, and its verdict stands. -/
def Worker.Watches (cfg : ServerConfig) (w : Worker) (s : Shared) : Prop :=
  w.function = .timeout → ∃ phase : TimeoutPhase,
    w.code.Obeys timeoutRole (fun _ phase => phase.judged = false) phase ∧
      (∀ now, phase.now = some now → now ≤ s.time) ∧
      (phase.judged = true → w.Justified cfg s)

section Worker

variable {s s' : Shared} {w : Worker}

theorem removing_of_judged {phase : TimeoutPhase} (hfunction : w.function = .timeout)
    (hobeys : w.code.Obeys timeoutRole (fun _ phase => phase.judged = false) phase)
    (hjudged : phase.judged = true) : w.removing = true := by
  have hclash : phase.judged ≠ false := by
    rw [hjudged]
    exact Bool.false_ne_true.symm
  cases hcode : w.code with
  | ret round =>
      rw [hcode] at hobeys
      exact absurd hobeys hclash
  | call c next =>
      rw [hcode] at hobeys
      have hgood := hobeys.1
      cases c with
      | removeClient => rw [Worker.removing, hfunction, hcode]
      | load field => exact absurd hgood hclash
      | time => exact absurd hgood hclash
      | judgeIdle now => exact absurd hgood.1 hclash
      | _ => exact hgood.elim

theorem judged_of_removing {phase : TimeoutPhase} (hremoving : w.removing = true)
    (hobeys : w.code.Obeys timeoutRole (fun _ phase => phase.judged = false) phase) :
    phase.judged = true := by
  unfold Worker.removing at hremoving
  split at hremoving
  · next hcode =>
      rw [hcode] at hobeys
      exact hobeys.1
  · cases hremoving

theorem Worker.Watches.justified (h : w.Watches cfg s) (hremoving : w.removing = true) :
    w.Justified cfg s := by
  have hfunction : w.function = .timeout := by
    unfold Worker.removing at hremoving
    split at hremoving
    · next hfunction _ => exact hfunction
    · cases hremoving
  obtain ⟨phase, hobeys, -, hjudged⟩ := h hfunction
  exact hjudged (judged_of_removing hremoving hobeys)

theorem Worker.watches_fresh (function : ThreadFunction) : (Worker.fresh cfg function).Watches cfg s := by
  intro hfunction
  cases hfunction
  exact ⟨⟨none, false⟩, timeoutThreadFunc_obeys, nofun, nofun⟩

theorem Worker.Watches.effect {c : ServerCall} (h : w.Watches cfg s)
    (hcalm : w.removing = true → c.renews s = false) (heffect : Shared.Effect cfg s c s') :
    w.Watches cfg s' := by
  intro hfunction
  obtain ⟨phase, hobeys, hnow, hjudged⟩ := h hfunction
  refine ⟨phase, hobeys, ?_, ?_⟩
  · rw [heffect.time]
    exact hnow
  · intro hphase
    have hremoving := removing_of_judged hfunction hobeys hphase
    exact (hjudged hphase).effect (hcalm hremoving) heffect

theorem Worker.Watches.tick (h : w.Watches cfg s) (ms : Nat) :
    w.Watches cfg { s with clock := s.clock + ms } := by
  intro hfunction
  obtain ⟨phase, hobeys, hnow, hjudged⟩ := h hfunction
  refine ⟨phase, hobeys, ?_, fun hphase => (hjudged hphase).tick ms⟩
  intro now hphase
  have hle := hnow now hphase
  have htime := s.time_tick ms
  omega

/-- What the thread itself does. -/
theorem Worker.Watches.call {a : Answers} {c : ServerCall} {next : c.Result → ServerProgram Round}
    {r : c.Result} (h : w.Watches cfg s) (hcode : w.code = .call c next)
    (hperform : s.perform cfg a c = some (r, s')) :
    Worker.Watches cfg { w.mark s c r with code := next r } s' := by
  intro hfunction
  have htimeout : w.function = .timeout := by
    rw [← hfunction]
    exact (w.mark_function s c r).symm
  obtain ⟨phase, hobeys, hnow, hjudged⟩ := h htimeout
  rw [hcode] at hobeys
  obtain ⟨hgood, hnext⟩ := hobeys
  refine ⟨timeoutRole.next phase c r, hnext r trivial, ?_⟩
  cases c with
  | load field =>
      cases hperform
      have hclear : phase.judged ≠ true := by
        rw [show phase.judged = false from hgood]
        exact Bool.false_ne_true
      exact ⟨hnow, fun hphase => absurd hphase hclear⟩
  | time =>
      cases hperform
      have hclear : phase.judged ≠ true := by
        rw [show phase.judged = false from hgood]
        exact Bool.false_ne_true
      refine ⟨?_, fun hphase => absurd hphase hclear⟩
      intro now hphase
      cases hphase
      exact Int.le_refl _
  | judgeIdle now =>
      cases hperform
      refine ⟨hnow, ?_⟩
      intro hidle
      have hidle' : s.judgeIdle cfg now = true := hidle
      apply Worker.justified_of_judgeIdle (hnow now hgood.2) _ hidle'
      simp only [Worker.mark, hidle', if_true]
  | removeClient =>
      cases hperform
      refine ⟨?_, fun hjudged => absurd hjudged Bool.false_ne_true⟩
      intro now hphase
      have htime : (s.removeClient cfg).time = s.time := by
        unfold Shared.removeClient
        split <;> rfl
      rw [htime]
      exact hnow now hphase
  | _ => exact hgood.elim

end Worker

section System

variable {s s' : System}

def System.Watched (cfg : ServerConfig) (s : System) : Prop :=
  ∀ (j : Nat) w, s.workers[j]? = some w → w.Watches cfg s.shared

theorem watched_step {move : Move} (h : s.Watched cfg) (hcalm : s.Undisturbed move)
    (hstep : s.step cfg move = some s') : s'.Watched cfg := by
  apply System.each_worker h hstep
  · intro function
    exact Worker.watches_fresh function
  · intro index a w c next r shared hworker hcode hperform
    exact (h index w hworker).call hcode hperform
  · intro c shared hcall heffect j w hw _
    apply (h j w hw).effect _ heffect
    intro hremoving
    have hany : s.workers.any Worker.removing = true :=
      List.any_eq_true.mpr ⟨w, List.mem_of_getElem? hw, hremoving⟩
    have hnone := hcalm hany
    rwa [hcall, Option.any_some] at hnone
  · intro ms j w hw
    exact (h j w hw).tick ms

/-- In every run in which nothing is renewed between a verdict and the removal, the timeout thread
removes only the connection that it has found idle, and only while it is idle. -/
theorem justified_of_run (hrun : Run (System.step cfg) System.Undisturbed System.created s) :
    ∀ w ∈ s.workers, w.removing = true → w.Justified cfg s.shared := by
  have hstart : System.created.Watched cfg := by
    intro j w hw
    cases hw
  have hwatched : s.Watched cfg :=
    hrun.invariant hstart fun _ _ _ h hcalm hstep => watched_step h hcalm hstep
  intro w hw hremoving
  obtain ⟨j, hj⟩ := List.getElem?_of_mem hw
  exact (hwatched j w hj).justified hremoving

end System

section Examples

instance (cfg : ServerConfig) (w : Worker) (s : Shared) : Decidable (w.Justified cfg s) :=
  inferInstanceAs (Decidable (_ → _))

instance (s : System) (move : Move) : Decidable (s.Undisturbed move) :=
  inferInstanceAs (Decidable (_ → _))

/-- A client has been connected for six seconds, and the timeout thread finds it idle. -/
def idleMoves : List Move :=
  startMoves ++ acceptMoves ++ [.tick 6000] ++ List.replicate 3 (.worker 1 {})

theorem justified_idle : ∃ s : System, s.shared.ctx.client.connected = true ∧
    ∃ w ∈ s.workers, w.removing = true ∧ w.Justified plainConfig s.shared := by
  obtain ⟨s, hrun, hend⟩ := Run.exists_of_follow (fun s move => decide (System.Undisturbed s move))
    idleMoves (fun s : System => s.shared.ctx.client.connected && s.workers.any Worker.removing)
    (fun _ _ => of_decide_eq_true)
    (by decide +kernel : (Run.follow (System.step plainConfig) _ _ System.created).any _ = true)
  obtain ⟨hconnected, hany⟩ := Bool.and_eq_true_iff.mp hend
  obtain ⟨w, hw, hremoving⟩ := List.any_eq_true.mp hany
  exact ⟨s, hconnected, w, hw, hremoving, justified_of_run hrun w hw hremoving⟩

/-- The idle client leaves, another one connects, and the timeout thread is about to remove it. -/
theorem newcomer_removed : ∃ s : System,
    Run (System.step plainConfig) (fun _ _ => True) System.created s ∧
      ∃ w ∈ s.workers, w.removing = true ∧ ¬ w.Justified plainConfig s.shared := by
  obtain ⟨s, hrun, hend⟩ := Run.exists_of_follow (fun _ _ => true)
    (idleMoves ++ closeMoves ++ acceptMoves)
    (fun s : System => s.workers.any fun w =>
      w.removing && decide (¬ w.Justified plainConfig s.shared)) (fun _ _ _ => trivial)
    (by decide +kernel : (Run.follow (System.step plainConfig) _ _ System.created).any _ = true)
  obtain ⟨w, hw, hboth⟩ := List.any_eq_true.mp hend
  obtain ⟨hremoving, hnot⟩ := Bool.and_eq_true_iff.mp hboth
  exact ⟨s, hrun, w, hw, hremoving, of_decide_eq_true hnot⟩

end Examples

end YaskawaComms.Server
