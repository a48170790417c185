import YaskawaComms.Server.Threads

/-!
# Announcing connections

Every connection is announced when it begins and when it ends, with one exception: a client that is
still connected when the server is stopped.
-/

namespace YaskawaComms.Server

open Protocol Program

def Event.isOnConnection : Event → Bool
  | .onConnection _ _ => true
  | _ => false

def Event.isOnDisconnection : Event → Bool
  | .onDisconnection _ _ => true
  | _ => false

/-- The number of `on_connection` calls minus the number of `on_disconnection` calls. -/
def announced (events : List Event) : Int :=
  (events.countP Event.isOnConnection : Int) - events.countP Event.isOnDisconnection

theorem announced_append (events more : List Event) :
    announced (events ++ more) = announced events + announced more := by
  simp only [announced, List.countP_append]
  omega

theorem announced_quiet {events : List Event} (h : ∀ e ∈ events, e.isCallback = false) :
    announced events = 0 := by
  induction events with
  | nil => rfl
  | cons e events ih =>
      have hrest := ih fun e he => h e (List.mem_cons_of_mem _ he)
      have hfirst : announced [e] = 0 := by
        have he := h e List.mem_cons_self
        cases e <;> first | rfl | cases he
      rw [← List.singleton_append, announced_append, hfirst, hrest, Int.add_zero]

namespace Shared

/-- One connection is open as far as the callbacks know if there is a client, and none otherwise. -/
def Balanced (s : Shared) : Prop :=
  announced s.events = if s.ctx.client.connected then 1 else 0

instance (s : Shared) : Decidable s.Balanced := inferInstanceAs (Decidable (_ = _))

variable {cfg : ServerConfig} {s s' : Shared}

theorem balanced_created : robotProtocolCreate.Balanced := rfl

theorem Balanced.quiet (h : s.Balanced) (hquiet : Quiet s s') : s'.Balanced := by
  obtain ⟨more, hevents, hmore⟩ := hquiet.events
  rw [Balanced, hevents, announced_append, announced_quiet hmore, hquiet.client, Int.add_zero]
  exact h

theorem Balanced.effect {c : ServerCall} (hconnection : cfg.onConnection = true)
    (hdisconnection : cfg.onDisconnection = true) (h : s.Balanced)
    (hstop : c = .stopClient → s.ctx.client.connected = false) (heffect : Effect cfg s c s') :
    s'.Balanced := by
  cases heffect with
  | quiet hquiet => exact h.quiet hquiet
  | added hconnected =>
      have hzero : announced s.events = 0 := by
        rw [h, hconnected]
        rfl
      rw [addClient, if_neg (by rw [hconnected]; exact Bool.false_ne_true)]
      simp only [Balanced, record, setClient, hconnection, if_true, announced_append, hzero]
      rfl
  | removed hconnected =>
      have hone : announced s.events = 1 := by
        rw [h, hconnected]
        rfl
      rw [removeClient, if_pos hconnected]
      simp only [Balanced, record, setClient, hdisconnection, if_true, announced_append, hone]
      rfl
  | stopped hconnected =>
      rw [hstop rfl] at hconnected
      cases hconnected
  | commanded value => exact h
  | registered port => exact h

end Shared

variable {cfg : ServerConfig} {s s' : System}

/-- A stop finds no client any more. -/
def System.StopsAlone (s : System) (move : Move) : Prop :=
  s.nextCall move = some .stopClient → s.shared.ctx.client.connected = false

instance (s : System) (move : Move) : Decidable (s.StopsAlone move) :=
  inferInstanceAs (Decidable (_ → _))

theorem balanced_step (hconnection : cfg.onConnection = true)
    (hdisconnection : cfg.onDisconnection = true) {move : Move} (h : s.shared.Balanced)
    (hstop : s.StopsAlone move) (hstep : s.step cfg move = some s') : s'.shared.Balanced := by
  cases System.taken_of_step hstep with
  | job job => exact h
  | silent r happ => exact h
  | spawned r function happ => exact h
  | again hworker hcode => exact h
  | reading index => exact h
  | tick ms => exact h
  | app happ hperform =>
      apply h.effect hconnection hdisconnection _ (Shared.effect_of_perform hperform)
      intro hcall
      apply hstop
      rw [System.nextCall_app happ, hcall]
  | worker hworker hcode hperform =>
      apply h.effect hconnection hdisconnection _ (Shared.effect_of_perform hperform)
      intro hcall
      apply hstop
      rw [System.nextCall_worker hworker hcode, hcall]

/-- In every run in which no stop finds a client, the callbacks are in balance with the client. -/
theorem balanced_of_run (hconnection : cfg.onConnection = true)
    (hdisconnection : cfg.onDisconnection = true)
    (hrun : Run (System.step cfg) System.StopsAlone System.created s) : s.shared.Balanced := by
  apply hrun.invariant Shared.balanced_created
  intro a move b h hstop hstep
  exact balanced_step hconnection hdisconnection h hstop hstep

def announcingConfig : ServerConfig :=
  { plainConfig with onConnection := true, onDisconnection := true }

/-- A client is announced, and so is its end, before the server is stopped. -/
theorem balanced_connection : ∃ s : System,
    s.shared.events.countP Event.isOnConnection = 1 ∧ s.shared.ctx.client.connected = false ∧
      s.shared.ctx.running = 0 ∧ s.shared.Balanced := by
  obtain ⟨s, hrun, hend⟩ := Run.exists_of_follow
    (fun s move => decide (System.StopsAlone s move)) (startMoves ++ acceptMoves ++ closeMoves ++ stopMoves)
    (fun s : System => decide (s.shared.events.countP Event.isOnConnection = 1 ∧
      s.shared.ctx.client.connected = false ∧ s.shared.ctx.running = 0)) (fun _ _ => of_decide_eq_true)
    (by decide +kernel : (Run.follow (System.step announcingConfig) _ _ System.created).any _ = true)
  obtain ⟨hannounced, hgone, hstopped⟩ := of_decide_eq_true hend
  exact ⟨s, hannounced, hgone, hstopped, balanced_of_run rfl rfl hrun⟩

/-- A client connects, the server is stopped, and the end of the connection is never announced. -/
theorem stop_unannounced : ∃ s : System,
    Run (System.step announcingConfig) (fun _ _ => True) System.created s ∧
      s.shared.ctx.running = 0 ∧ announced s.shared.events = 1 ∧ ¬ s.shared.Balanced := by
  obtain ⟨s, hrun, hend⟩ := Run.exists_of_follow (fun _ _ => true)
    (startMoves ++ acceptMoves ++ stopMoves)
    (fun s : System => decide (s.shared.ctx.running = 0 ∧ announced s.shared.events = 1 ∧
      ¬ s.shared.Balanced)) (fun _ _ _ => trivial)
    (by decide +kernel : (Run.follow (System.step announcingConfig) _ _ System.created).any _ = true)
  exact ⟨s, hrun, of_decide_eq_true hend⟩

end YaskawaComms.Server
