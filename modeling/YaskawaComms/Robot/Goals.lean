import YaskawaComms.Robot.Draws

/-!
# The goals of the robot

All goals whose ids the robot has drawn, in the order of the draws: what a group knows is its last goal.
-/

namespace YaskawaComms.Robot

open Protocol Program Server

/-- How a goal has ended, if it has. -/
def GoalState.ending : GoalState → Option GoalState
  | .pending | .active => none
  | state => some state

abbrev GoalAgenda := Agenda Nat Int GoalState

/-- The goal that a group knows. -/
def MockGroupState.job (i : Nat) (grp : MockGroupState) : Option (Job Nat Int GoalState) :=
  if grp.currentGoalId = 0 then none
  else some ⟨i, grp.currentGoalId, grp.currentGoalState.ending⟩

/-- The goals so far: each group goes on with its last one, and begins one only when the one before has
ended. -/
structure GoalsOf (robot : MockRobot) (l : GoalAgenda) : Prop where
  last : ∀ i, l.current i = robot.groups[i]? >>= MockGroupState.job i
  orderly : l.Orderly

/-- The goal id in a message that accepts a goal. -/
def announcedId (m : ProtocolHeader × List UInt8) : Option Int :=
  if m.1.messageType = msgGoalAccepted then some (signed32 (ofLittleEndian (m.2.take 4))) else none

namespace RobotEvent

def answer : RobotEvent → Option ResponseContext
  | command _ _ _ answer => answer
  | errorInfo answer => answer
  | _ => none

/-- The goal id that the answer tells, if it accepts a goal. -/
def announced (e : RobotEvent) : Option Int :=
  e.answer >>= fun ctx => announcedId ctx.reply.message

/-- The goal ids drawn in the event. -/
def drawn : RobotEvent → List Int
  | command _ _ drawn _ => drawn
  | _ => []

/-- The group that a goal id is drawn for. -/
def group : RobotEvent → Nat
  | command _ payload _ _ => groupIndexOf payload
  | _ => 0

/-- How a goal ends that ends in the event. -/
def ending : RobotEvent → Option GoalState
  | command header _ _ _ =>
      if header.messageType = msgStopMotion then some .aborted
      else if header.messageType = msgCancelGoal then some .cancelled
      else none
  | update => some .succeeded
  | disconnected => some .aborted
  | _ => none

/-- The event's ending, where the group says that its goal has ended so. -/
def endingOf (e : RobotEvent) (grp : MockGroupState) : Option GoalState :=
  if grp.currentGoalState.ending = e.ending then e.ending else none

/-- The goals after an event: those that have ended in it are marked, and each id that has been drawn
begins another one. -/
def note (e : RobotEvent) (robot' : MockRobot) (l : GoalAgenda) : GoalAgenda :=
  l.settle (fun i => robot'.groups[i]? >>= e.endingOf) ++ e.drawn.map fun id => ⟨e.group, id, none⟩

end RobotEvent

/-- A run, with the goals before and after it. -/
def MockRobot.Records (robot : MockRobot) (l : GoalAgenda) : List RobotEvent → MockRobot → GoalAgenda → Prop
  | [], robot', l' => robot' = robot ∧ l' = l
  | e :: events, robot', l' => ∃ next, e.Leads robot next ∧ next.Records (e.note next l) events robot' l'

theorem runs_iff_records {robot robot' : MockRobot} {events : List RobotEvent} (l : GoalAgenda) :
    robot.Runs events robot' ↔ ∃ l', robot.Records l events robot' l' := by
  induction events generalizing robot l with
  | nil => exact ⟨fun h => ⟨l, h, rfl⟩, fun ⟨_, h, _⟩ => h⟩
  | cons e events ih =>
      constructor
      · rintro ⟨next, hleads, hruns⟩
        obtain ⟨l', hrecords⟩ := (ih (e.note next l)).mp hruns
        exact ⟨l', next, hleads, hrecords⟩
      · rintro ⟨l', next, hleads, hrecords⟩
        exact ⟨next, hleads, (ih _).mpr ⟨l', hrecords⟩⟩

theorem filterMap_cons_toList {α β : Type} (f : α → Option β) (a : α) (l : List α) :
    (a :: l).filterMap f = (f a).toList ++ l.filterMap f := by
  cases h : f a with
  | none => simp [h]
  | some b => simp [h]

theorem signed32_bytes32 {n : Int} (hpos : 0 ≤ n) (hlt : n < 2 ^ 31) :
    signed32 (ofLittleEndian (bytes32 n)) = n := by
  have hnumber : (n % 2 ^ 32).toNat = n.toNat := by
    rw [Int.emod_eq_of_lt (by omega) (by omega)]
  rw [bytes32, hnumber, ofLittleEndian_littleEndian 4 _ (by norm_num; omega), signed32,
    BitVec.toInt_eq_toNat_of_lt, BitVec.toNat_ofNat, Nat.mod_eq_of_lt (by omega)]
  · omega
  · rw [BitVec.toNat_ofNat, Nat.mod_eq_of_lt (by omega)]
    omega

theorem announcedId_eq_none {m : ProtocolHeader × List UInt8} (h : m.1.messageType ∉ goalAnswers) :
    announcedId m = none := by
  rw [announcedId, if_neg]
  intro haccepted
  rw [haccepted] at h
  exact h (by decide)

/-- Neither in motion nor about to be. -/
def MockGroupState.AtRest (grp : MockGroupState) : Prop := grp.inMotion = false ∧ grp.hasActiveGoal = false

theorem stop_atRest (grp : MockGroupState) : grp.stop.AtRest := by
  refine ⟨rfl, ?_⟩
  cases hactive : grp.hasActiveGoal with
  | true =>
      have hstate : grp.stop.currentGoalState = .aborted := if_pos hactive
      rw [MockGroupState.hasActiveGoal, hstate]
      simp
  | false =>
      have hstate : grp.stop.currentGoalState = grp.currentGoalState := by
        rw [MockGroupState.stop, hactive]
        rfl
      rw [MockGroupState.hasActiveGoal, hstate]
      exact hactive

theorem cancel_atRest (grp : MockGroupState) : grp.cancel.AtRest :=
  ⟨rfl, by simp [MockGroupState.cancel, MockGroupState.hasActiveGoal]⟩

theorem succeed_atRest (grp : MockGroupState) : grp.succeed.AtRest :=
  ⟨rfl, by simp [MockGroupState.succeed, MockGroupState.hasActiveGoal]⟩

/-- In motion as long as there is a goal to follow. -/
def MockGroupState.Moving (grp : MockGroupState) : Prop := grp.hasActiveGoal = true → grp.inMotion = true

theorem MockGroupState.Moving.of_idle {grp : MockGroupState} (h : grp.hasActiveGoal = false) : grp.Moving := by
  intro hactive
  rw [h] at hactive
  cases hactive

section Group

variable {e : RobotEvent} {i : Nat} {grp grp' : MockGroupState}

theorem job_running (h : grp.hasActiveGoal = false) {job : Job Nat Int GoalState}
    (hjob : grp.job i = some job) : job.ending ≠ none := by
  unfold MockGroupState.job at hjob
  split at hjob
  · cases hjob
  · next hid =>
      cases hjob
      intro hnone
      have hactive : grp.hasActiveGoal = true := by
        cases hstate : grp.currentGoalState with
        | pending => simp [MockGroupState.hasActiveGoal, hid, hstate]
        | active => simp [MockGroupState.hasActiveGoal, hid, hstate]
        | succeeded | cancelled | aborted =>
            rw [hstate] at hnone
            cases hnone
      rw [h] at hactive
      cases hactive

/-- The goal stays the same, and ends if the event ends it. -/
def Keeps (e : RobotEvent) (i : Nat) (grp grp' : MockGroupState) : Prop :=
  grp'.job i = (grp.job i).map fun job => job.settle (e.endingOf grp')

theorem keeps_of_eq (hid : grp'.currentGoalId = grp.currentGoalId)
    (hstate : grp'.currentGoalState = grp.currentGoalState) : Keeps e i grp grp' := by
  rw [Keeps, MockGroupState.job, MockGroupState.job, RobotEvent.endingOf, hid, hstate]
  split
  · rfl
  · cases hending : grp.currentGoalState.ending with
    | none =>
        cases e.ending with
        | none => rfl
        | some how => rfl
    | some how => rfl

theorem keeps_of_running (hid : grp'.currentGoalId = grp.currentGoalId)
    (hstate : grp.currentGoalState.ending = none) (hending : grp'.currentGoalState.ending = e.ending) :
    Keeps e i grp grp' := by
  rw [Keeps, MockGroupState.job, MockGroupState.job, RobotEvent.endingOf, if_pos hending, hid, hending]
  split
  · rfl
  · simp [Job.settle, hstate]

theorem follow_hasActiveGoal (grp : MockGroupState) (goalId : GoalId) (now : Int) :
    (grp.follow goalId.value now).hasActiveGoal = true := by
  simp [MockGroupState.hasActiveGoal, MockGroupState.follow, goalId.pos.ne']

theorem ending_of_hasActiveGoal (h : grp.hasActiveGoal = true) : grp.currentGoalState.ending = none := by
  rcases (of_decide_eq_true h).2 with hstate | hstate <;> rw [hstate] <;> rfl

theorem keeps_stop (he : e.ending = some .aborted) : Keeps e i grp grp.stop := by
  cases hactive : grp.hasActiveGoal with
  | false =>
      refine keeps_of_eq rfl ?_
      simp [MockGroupState.stop, hactive]
  | true =>
      have hstate : grp.stop.currentGoalState = .aborted := if_pos hactive
      refine keeps_of_running rfl (ending_of_hasActiveGoal hactive) ?_
      rw [he, hstate]
      rfl

theorem ending_of_stops (h : e = .disconnected ∨ e.IsCommand msgStopMotion) : e.ending = some .aborted := by
  rcases h with rfl | hcommand
  · rfl
  · cases e with
    | command header payload drawn answer => exact if_pos hcommand
    | _ => exact hcommand.elim

theorem ending_of_cancels (h : e.IsCommand msgCancelGoal) : e.ending = some .cancelled := by
  cases e with
  | command header payload drawn answer =>
      replace h : header.messageType = msgCancelGoal := h
      rw [RobotEvent.ending, h, if_neg (by decide), if_pos rfl]
  | _ => exact h.elim

theorem GroupStep.keeps (h : GroupStep e i grp grp') :
    Keeps e i grp grp' ∨ (e.MovesGroup i ∧ grp.hasActiveGoal = false ∧ grp'.hasActiveGoal = true) := by
  cases h with
  | same => exact Or.inl (keeps_of_eq rfl rfl)
  | started => exact Or.inl (keeps_of_eq rfl rfl)
  | lost => exact Or.inl (keeps_of_eq rfl rfl)
  | accepted he h hvalid hidle fresh block goalId now =>
      exact Or.inr ⟨h, hidle, follow_hasActiveGoal _ goalId now⟩
  | stopped h => exact Or.inl (keeps_stop (ending_of_stops h))
  | cancelled h hstate =>
      refine Or.inl (keeps_of_running rfl ?_ (ending_of_cancels h).symm)
      rcases hstate with hstate | hstate <;> rw [hstate] <;> rfl
  | progressed => exact Or.inl (keeps_of_eq rfl rfl)
  | succeeded h _ hstate =>
      subst h
      refine Or.inl (keeps_of_running rfl ?_ rfl)
      rw [hstate]
      rfl

theorem GroupStep.moving (h : GroupStep e i grp grp') (hmoving : grp.Moving) : grp'.Moving := by
  cases h with
  | same => exact hmoving
  | started => exact fun _ => rfl
  | lost => exact hmoving
  | accepted => exact fun _ => rfl
  | stopped => exact .of_idle (stop_atRest grp).2
  | cancelled => exact .of_idle (cancel_atRest grp).2
  | progressed => exact hmoving
  | succeeded => exact .of_idle (succeed_atRest grp).2

end Group

section Step

variable {e : RobotEvent} {robot robot' : MockRobot} {l : GoalAgenda}

theorem note_nothing (h : e.drawn = []) :
    e.note robot' l = l.settle fun i => robot'.groups[i]? >>= e.endingOf := by
  rw [RobotEvent.note, h]
  exact List.append_nil _

theorem current_endings (h : GoalsOf robot l) (hstep : GroupsStep e robot.groups robot'.groups) {i : Nat}
    (hkeeps : ∀ grp grp', robot.groups[i]? = some grp → robot'.groups[i]? = some grp' → Keeps e i grp grp') :
    (l.settle fun i => robot'.groups[i]? >>= e.endingOf).current i =
      robot'.groups[i]? >>= MockGroupState.job i := by
  rw [Agenda.current_settle, h.last]
  cases hgrp : robot.groups[i]? with
  | none =>
      have hnone : robot'.groups[i]? = none := by
        rw [List.getElem?_eq_none_iff] at hgrp ⊢
        rwa [hstep.length]
      rw [hnone]
      rfl
  | some grp =>
      obtain ⟨grp', hgrp', -⟩ := hstep.group i grp hgrp
      rw [hgrp']
      exact (hkeeps grp grp' hgrp hgrp').symm

theorem GoalsOf.settle (h : GoalsOf robot l) (hstep : GroupsStep e robot.groups robot'.groups)
    (hkeeps : ∀ i grp grp', robot.groups[i]? = some grp → robot'.groups[i]? = some grp' →
      Keeps e i grp grp') : GoalsOf robot' (l.settle fun i => robot'.groups[i]? >>= e.endingOf) :=
  ⟨fun i => current_endings h hstep (hkeeps i), h.orderly.settle _⟩

theorem GoalsOf.begin (h : GoalsOf robot l) (hstep : GroupsStep e robot.groups robot'.groups) {i : Nat}
    {grp grp' : MockGroupState} (hgrp : robot.groups[i]? = some grp) (hgrp' : robot'.groups[i]? = some grp')
    (hidle : grp.hasActiveGoal = false) {goalId : Int} (hjob : grp'.job i = some ⟨i, goalId, none⟩)
    (hothers : ∀ k, k ≠ i → ∀ grp grp', robot.groups[k]? = some grp → robot'.groups[k]? = some grp' →
      Keeps e k grp grp') :
    GoalsOf robot' ((l.settle fun i => robot'.groups[i]? >>= e.endingOf) ++ [⟨i, goalId, none⟩]) := by
  constructor
  · intro k
    rw [Agenda.current_begin]
    by_cases hk : i = k
    · subst hk
      rw [if_pos rfl, hgrp']
      exact hjob.symm
    · rw [if_neg hk]
      exact current_endings h hstep (hothers k (Ne.symm hk))
  · apply (h.orderly.settle _).begin
    intro last hlast
    rw [Agenda.current_settle, h.last, hgrp] at hlast
    obtain ⟨job, hjob, rfl⟩ := Option.map_eq_some_iff.mp hlast
    have hended := job_running hidle (show grp.job i = some job from hjob)
    cases hending : job.ending with
    | none => exact absurd hending hended
    | some ending => simp [Job.settle, hending]

theorem stepped (hstep : GroupsStep e robot.groups robot'.groups) {i : Nat} {grp grp' : MockGroupState}
    (hgrp : robot.groups[i]? = some grp) (hgrp' : robot'.groups[i]? = some grp') : GroupStep e i grp grp' := by
  obtain ⟨other, hother, hstep⟩ := hstep.group i grp hgrp
  obtain rfl : other = grp' := Option.some.inj (hother.symm.trans hgrp')
  exact hstep

theorem GoalsOf.leads (h : GoalsOf robot l) (hleads : e.Leads robot robot') :
    GoalsOf robot' (e.note robot' l) := by
  have hstep := leads_groups hleads
  cases e with
  | command header payload drawn answer =>
      have hdraws := command_draws hleads
      cases hdraws with
      | nothing hcalm =>
          rw [note_nothing rfl]
          refine h.settle hstep fun i grp grp' hgrp hgrp' => ?_
          rcases (stepped hstep hgrp hgrp').keeps with hkeeps | ⟨hmoves, hidle, hactive⟩
          · exact hkeeps
          · rw [hcalm hmoves.1 i grp grp' hgrp hgrp', hidle] at hactive
            cases hactive
      | @goal grp _ htype hgrp hidle stored goalId now hgroups =>
          have hgrp' : robot'.groups[groupIndexOf payload]? =
              some ((grp.store stored).follow goalId.value now) := by
            rw [hgroups, List.getElem?_modify, hgrp]
            simp
          refine h.begin hstep hgrp hgrp' hidle (if_neg goalId.pos.ne') fun k hk other other' hother hother' => ?_
          rcases (stepped hstep hother hother').keeps with hkeeps | ⟨hmoves, -⟩
          · exact hkeeps
          · exact absurd hmoves.2.symm hk
  | _ =>
      rw [note_nothing rfl]
      refine h.settle hstep fun i grp grp' hgrp hgrp' => ?_
      rcases (stepped hstep hgrp hgrp').keeps with hkeeps | ⟨hmoves, -⟩
      · exact hkeeps
      · exact hmoves.elim

theorem continues_note (e : RobotEvent) (robot' : MockRobot) (l : GoalAgenda) : l.Continues (e.note robot' l) :=
  (Agenda.continues_settle _ _).trans (Agenda.continues_append _ _)

theorem names_note (e : RobotEvent) (robot' : MockRobot) (l : GoalAgenda) :
    (e.note robot' l).map Job.name = l.map Job.name ++ e.drawn := by
  have hdrawn : (e.drawn.map fun id => (⟨e.group, id, none⟩ : Job Nat Int GoalState)).map Job.name = e.drawn := by
    rw [List.map_map]
    exact List.map_id e.drawn
  rw [RobotEvent.note, List.map_append, Agenda.names_settle, hdrawn]

/-- An answer that accepts a goal tells the id that has been drawn. -/
theorem announced_drawn {goalId : Int} (h : e.Leads robot robot') (hannounced : e.announced = some goalId) :
    e.drawn = [goalId] := by
  obtain ⟨ctx, hanswer, hid⟩ := Option.bind_eq_some_iff.mp hannounced
  cases e with
  | command header payload drawn answer =>
      obtain rfl : answer = some ctx := hanswer
      cases command_step h with
      | plain _ hplain =>
          rw [announcedId_eq_none hplain.type] at hid
          cases hid
      | echoed _ _ _ hecho =>
          rw [announcedId, if_neg] at hid
          · cases hid
          · rw [Reply.message, ResponseContext.reply, hecho]
            decide
      | reported _ _ _ hcarries =>
          rw [announcedId, hcarries.message, if_neg] at hid
          · cases hid
          · rw [hcarries.type]
            decide
      | @accepted _ _ htype _ grp hgrp hidle fresh block id now timestamp hgroups hcarries =>
          have hpos := id.pos
          have haccepted : ctx.header.messageType = msgGoalAccepted := hcarries.type
          rw [announcedId, hcarries.message, if_pos haccepted, List.append_assoc,
            List.take_left' (bytes32_length _), signed32_bytes32 hpos.le id.lt] at hid
          obtain rfl := Option.some.inj hid
          have hgrp' : robot'.groups[groupIndexOf payload]? =
              some ((grp.store (some (storedCopy payload fresh block))).follow id.value now) := by
            rw [hgroups, List.getElem?_modify, hgrp]
            simp
          cases command_draws h with
          | nothing hcalm =>
              have hactive := hcalm htype _ _ _ hgrp hgrp'
              rw [follow_hasActiveGoal, hidle] at hactive
              cases hactive
          | goal _ _ _ stored goalId now' hgroups' =>
              rw [hgroups', List.getElem?_modify, hgrp] at hgrp'
              have hfollows := congrArg (Option.map MockGroupState.currentGoalId) hgrp'
              have hids : goalId.value = id.value := by
                simpa [MockGroupState.follow] using hfollows
              exact congrArg (fun id => [id]) hids
  | errorInfo answer =>
      obtain rfl : answer = some ctx := hanswer
      rw [announcedId_eq_none (getErrorInfo_step h).2.type] at hid
      cases hid
  | _ => cases hanswer

theorem announced_sublist (h : e.Leads robot robot') : e.announced.toList.Sublist e.drawn := by
  cases hannounced : e.announced with
  | none => exact List.nil_sublist _
  | some goalId =>
      rw [announced_drawn h hannounced]
      exact .refl _

end Step

section Runs

variable {robot robot' : MockRobot} {l l' : GoalAgenda} {events : List RobotEvent}

theorem MockRobot.Records.runs (h : robot.Records l events robot' l') : robot.Runs events robot' :=
  (runs_iff_records l).mpr ⟨l', h⟩

theorem GoalsOf.records (h : GoalsOf robot l) (hrecords : robot.Records l events robot' l') :
    GoalsOf robot' l' := by
  induction events generalizing robot l with
  | nil =>
      obtain ⟨rfl, rfl⟩ := hrecords
      exact h
  | cons e events ih =>
      obtain ⟨next, hleads, hrest⟩ := hrecords
      exact ih (h.leads hleads) hrest

theorem continues_of_records (h : robot.Records l events robot' l') : l.Continues l' := by
  induction events generalizing robot l with
  | nil =>
      obtain ⟨-, rfl⟩ := h
      exact .refl l'
  | cons e events ih =>
      obtain ⟨next, -, hrest⟩ := h
      exact (continues_note e next l).trans (ih hrest)

theorem names_of_records (h : robot.Records l events robot' l') :
    l'.map Job.name = l.map Job.name ++ events.flatMap RobotEvent.drawn := by
  induction events generalizing robot l with
  | nil =>
      obtain ⟨-, rfl⟩ := h
      exact (List.append_nil _).symm
  | cons e events ih =>
      obtain ⟨next, -, hrest⟩ := h
      rw [ih hrest, names_note, List.flatMap_cons, List.append_assoc]

theorem drawn_of_records {groups : List (UInt8 × UInt8)} {before after : List RobotEvent}
    (h : (mockRobotInitMulti groups).Records [] before robot l) (h' : robot.Records l after robot' l') :
    l'.map Job.name = (before ++ after).flatMap RobotEvent.drawn := by
  rw [names_of_records h', names_of_records h, List.flatMap_append]
  rfl

theorem announced_of_runs (h : robot.Runs events robot') :
    (events.filterMap RobotEvent.announced).Sublist (events.flatMap RobotEvent.drawn) := by
  induction events generalizing robot with
  | nil => exact List.nil_sublist _
  | cons e events ih =>
      obtain ⟨next, hleads, hrest⟩ := h
      rw [filterMap_cons_toList, List.flatMap_cons]
      exact (announced_sublist hleads).append (ih hrest)

theorem goalsOf_init (groups : List (UInt8 × UInt8)) : GoalsOf (mockRobotInitMulti groups) [] := by
  refine ⟨?_, Agenda.orderly_nil⟩
  intro i
  cases hgrp : (mockRobotInitMulti groups).groups[i]? with
  | none => rfl
  | some grp =>
      obtain ⟨_, -, rfl⟩ := List.mem_map.mp (List.mem_of_getElem? hgrp)
      rfl

theorem groups_of_leads {e : RobotEvent} {Inv : MockGroupState → Prop} (hleads : e.Leads robot robot')
    (hstart : ∀ grp ∈ robot.groups, Inv grp)
    (hstep : ∀ i grp grp', GroupStep e i grp grp' → Inv grp → Inv grp') :
    ∀ grp ∈ robot'.groups, Inv grp := by
  intro grp' hgrp'
  obtain ⟨i, hi⟩ := List.mem_iff_getElem?.mp hgrp'
  have hgroups := leads_groups hleads
  have hlt : i < robot.groups.length := by
    rw [← hgroups.length]
    exact (List.getElem?_eq_some_iff.mp hi).1
  obtain ⟨other, hother, hgroup⟩ := hgroups.group i _ (List.getElem?_eq_getElem hlt)
  obtain rfl : other = grp' := Option.some.inj (hother.symm.trans hi)
  exact hstep i _ _ hgroup (hstart _ (List.getElem_mem hlt))

theorem groups_of_runs {Inv : MockGroupState → Prop} (hruns : robot.Runs events robot')
    (hstart : ∀ grp ∈ robot.groups, Inv grp)
    (hstep : ∀ e ∈ events, ∀ i grp grp', GroupStep e i grp grp' → Inv grp → Inv grp') :
    ∀ grp ∈ robot'.groups, Inv grp := by
  induction events generalizing robot with
  | nil =>
      cases hruns
      exact hstart
  | cons e events ih =>
      obtain ⟨next, hleads, hrest⟩ := hruns
      obtain ⟨hfirst, hsteps⟩ := List.forall_mem_cons.mp hstep
      exact ih hrest (groups_of_leads hleads hstart hfirst) hsteps

/-- In any run from the start, the goals are those whose ids have been drawn, in this order: none is lost,
none begins in a group before the last one there has ended, and one that has ended stays as it has ended;
each group knows its last goal, and a group that follows a goal is in motion. The answers announce ids that
have been drawn, in this order. -/
theorem goals_of_run {groups : List (UInt8 × UInt8)} {before after : List RobotEvent}
    (h : (mockRobotInitMulti groups).Records [] before robot l) (h' : robot.Records l after robot' l') :
    GoalsOf robot l ∧ GoalsOf robot' l' ∧ l.Continues l' ∧
      l'.map Job.name = (before ++ after).flatMap RobotEvent.drawn ∧
      ((before ++ after).filterMap RobotEvent.announced).Sublist (l'.map Job.name) ∧
      ∀ grp ∈ robot'.groups, grp.hasActiveGoal = true → grp.inMotion = true := by
  have hgoals := (goalsOf_init groups).records h
  have hnames := drawn_of_records h h'
  refine ⟨hgoals, hgoals.records h', continues_of_records h', hnames, ?_, ?_⟩
  · rw [hnames, List.filterMap_append, List.flatMap_append]
    exact (announced_of_runs h.runs).append (announced_of_runs h'.runs)
  · have hstart : ∀ grp ∈ (mockRobotInitMulti groups).groups, grp.Moving := by
      intro grp hgrp
      obtain ⟨_, _, rfl⟩ := List.mem_map.mp hgrp
      exact .of_idle (by simp [initGroup, MockGroupState.hasActiveGoal])
    refine groups_of_runs h'.runs (groups_of_runs h.runs hstart ?_) ?_
    · exact fun _ _ _ _ _ hstep => hstep.moving
    · exact fun _ _ _ _ _ hstep => hstep.moving

end Runs

section Examples

/-- The robot with power. -/
def poweredRobot : MockRobot :=
  { mockRobotInit with commandCount := 1, servoPowerOn := true, drivesPowered := true, motionPossible := true }

def originMemory (i : Nat) : UInt8 := originGoal.payload.getD i 0

/-- The robot on its way to the origin. -/
def followingRobot : MockRobot :=
  { poweredRobot with commandCount := 2 }.modifyGroup 0 fun grp =>
    (grp.store (some (storedCopy originMemory originMemory 0))).follow 7 0

def powerOn : RobotEvent := .command (headerOf 0 msgTurnServoPowerOn) originMemory [] none

def originId : GoalId := ⟨7, by decide, by decide⟩

def goToOrigin (goalId : GoalId) : RobotEvent :=
  .command originFrame.header originMemory [goalId.value] (some (goalAccepted goalId originMemory 0))

theorem powerOn_leads : powerOn.Leads mockRobotInit poweredRobot :=
  Exists.intro (0 : Int) ⟨trivial, Exists.intro (none : Option Nat) ⟨trivial, rfl, rfl⟩⟩

theorem holdsBytes_getD (bytes : List UInt8) : HoldsBytes (fun i => bytes.getD i 0) 0 bytes := by
  apply holdsBytes_of_getElem?
  intro i b hb
  rw [Nat.zero_add, List.getD_eq_getElem?_getD, hb]
  rfl

theorem goToOrigin_leads {robot : MockRobot} {grp : MockGroupState} (hpower : robot.servoPowerOn = true)
    (hgrp : robot.groups[0]? = some grp) (hidle : grp.hasActiveGoal = false) (goalId : GoalId) :
    (goToOrigin goalId).Leads robot
      ({ robot with commandCount := robot.commandCount + 1 }.modifyGroup 0 fun _ =>
        (grp.store (some (storedCopy originMemory originMemory 0))).follow goalId.value 0) := by
  have hsize : originGoal.payload.length < 2 ^ 32 := by
    rw [originGoal.payload_length]
    decide
  have hlength : originFrame.header.payloadLength = UInt32.ofNat originGoal.payload.length := by
    rw [originGoal.payload_length]
    rfl
  have hdata : HoldsBytes originMemory 0 originGoal.payload := holdsBytes_getD _
  have hvalid : (validateMoveGoal originMemory originFrame.header.payloadLength).1 = some (some 0) := by
    rw [hlength]
    exact originGoal.validated hsize hdata
  have hindex : groupIndexOf originMemory = 0 := (originGoal.placed hsize hdata).group
  have hmember : robot.groups[groupIndexOf originMemory]? = some grp := by
    rw [hindex]
    exact hgrp
  have hfollows := @moveGoal_follows { robot with commandCount := robot.commandCount + 1 } originFrame.header
    originMemory grp rfl hvalid hpower hmember hidle originMemory 0 goalId 0
  rw [hindex] at hfollows
  exact hfollows

theorem goToOrigin_follows : (goToOrigin originId).Leads poweredRobot followingRobot := by
  have hidle : (initGroup groupTypeRobot 6).hasActiveGoal = false := by decide
  exact @goToOrigin_leads poweredRobot _ rfl rfl hidle originId

def secondId : GoalId := ⟨9, by decide, by decide⟩

/-- The robot on its way again, after the client has been away. -/
def returningRobot : MockRobot :=
  { mockRobotOnDisconnection followingRobot with commandCount := 3 }.modifyGroup 0 fun grp =>
    (grp.store (some (storedCopy originMemory originMemory 0))).follow 9 0

/-- A goal is accepted, aborted when the client goes, and followed by another one. -/
theorem goals_of_run_origin :
    let goals : GoalAgenda := [⟨0, 7, some .aborted⟩, ⟨0, 9, none⟩]
    let events := [goToOrigin originId, .disconnected, goToOrigin secondId]
    GoalsOf poweredRobot [] ∧ GoalsOf returningRobot goals ∧ Agenda.Continues [] goals ∧
      goals.map Job.name = ([powerOn] ++ events).flatMap RobotEvent.drawn ∧
      (([powerOn] ++ events).filterMap RobotEvent.announced).Sublist (goals.map Job.name) ∧
      ∀ grp ∈ returningRobot.groups, grp.hasActiveGoal = true → grp.inMotion = true := by
  intro goals events
  have hbefore : (mockRobotInitMulti [(groupTypeRobot, 6)]).Records [] [powerOn] poweredRobot [] :=
    ⟨poweredRobot, powerOn_leads, rfl, rfl⟩
  have hidle : ((initGroup groupTypeRobot 6).follow 7 0).stop.hasActiveGoal = false := by decide
  have hreturns : (goToOrigin secondId).Leads (mockRobotOnDisconnection followingRobot) returningRobot :=
    @goToOrigin_leads (mockRobotOnDisconnection followingRobot) _ rfl rfl hidle secondId
  have hafter : poweredRobot.Records [] events returningRobot goals :=
    ⟨followingRobot, goToOrigin_follows, mockRobotOnDisconnection followingRobot, rfl, returningRobot, hreturns,
      rfl, rfl⟩
  exact goals_of_run hbefore hafter

end Examples

section Rest

variable {robot robot' : MockRobot} {events : List RobotEvent}

/-- Everything is stopped: the client has gone, or has asked for it. -/
def RobotEvent.StopsAll : RobotEvent → Prop
  | .disconnected => True
  | .command header payload _ _ =>
      header.messageType = msgStopMotion ∧ header.payloadLength = 4 ∧ payloadInt32 payload = groupIdAll
  | _ => False

theorem stopMotion_atRest (robot : MockRobot) :
    ∀ grp ∈ (mockRobotStopMotion robot).2.groups, grp.AtRest := by
  intro grp hgrp
  obtain ⟨other, -, rfl⟩ := List.mem_map.mp hgrp
  dsimp only
  split
  · exact stop_atRest other
  · next hmoves =>
      obtain ⟨hmotion, hactive⟩ := Bool.or_eq_false_iff.mp (Bool.eq_false_iff.mpr hmoves)
      exact ⟨hmotion, hactive⟩

theorem switch_stopMotion {header : ProtocolHeader} (htype : header.messageType = msgStopMotion)
    (hlength : header.payloadLength = 4) (payload : Nat → UInt8) :
    switchCommand robot header payload = handleStopMotion robot payload := by
  unfold switchCommand
  dsimp only
  rw [htype]
  iterate 9 rw [if_neg (by decide)]
  rw [if_pos rfl, if_neg (by simp [hlength])]

theorem RobotEvent.StopsAll.atRest {e : RobotEvent} (he : e.StopsAll) (h : e.Leads robot robot') :
    ∀ grp ∈ robot'.groups, grp.AtRest := by
  cases e with
  | disconnected =>
      cases h
      exact stopMotion_atRest _
  | command header payload drawn answer =>
      obtain ⟨htype, hlength, hall⟩ := he
      replace h : (switchCommand _ header payload).Yields (answer, robot') := h.yields
      rw [switch_stopMotion htype hlength, handleStopMotion] at h
      dsimp only at h
      rw [if_pos hall] at h
      obtain ⟨-, rfl⟩ := yields_answer h
      exact stopMotion_atRest _
  | _ => exact he.elim

theorem GroupStep.atRest {e : RobotEvent} {i : Nat} {grp grp' : MockGroupState} (h : GroupStep e i grp grp')
    (htest : ¬ e.IsCommand msgTestTrajectoryCommand) (hgoal : ¬ e.IsCommand msgMoveGoal)
    (hrest : grp.AtRest) : grp'.AtRest := by
  cases h with
  | same => exact hrest
  | started h => exact absurd h htest
  | lost => exact hrest
  | accepted he h =>
      subst he
      exact absurd h.1 hgoal
  | stopped => exact stop_atRest grp
  | cancelled => exact cancel_atRest grp
  | progressed => exact hrest
  | succeeded => exact succeed_atRest grp

theorem motionBits_eq_zero {groups : List MockGroupState} (h : ∀ grp ∈ groups, grp.AtRest) :
    motionBits groups = 0 := by
  induction groups with
  | nil => rfl
  | cons grp groups ih =>
      obtain ⟨hgrp, hgroups⟩ := List.forall_mem_cons.mp h
      rw [motionBits, ih hgroups, hgrp.1]
      rfl

theorem isInMotion_eq_zero (h : ∀ grp ∈ robot.groups, grp.AtRest) : mockRobotIsInMotion robot = 0 := by
  rw [mockRobotIsInMotion, if_neg]
  rw [List.any_eq_true]
  rintro ⟨grp, hgrp, hmotion⟩
  rw [(h grp hgrp).1] at hmotion
  cases hmotion

/-- After the client has gone, or has stopped all groups, the robot stands still, and says so, until it
is given a trajectory or a goal again. -/
theorem stands_still_of_run {e : RobotEvent} (he : e.StopsAll)
    (hevents : ∀ e ∈ events, ¬ e.IsCommand msgTestTrajectoryCommand ∧ ¬ e.IsCommand msgMoveGoal)
    (h : robot.Runs (e :: events) robot') :
    mockRobotIsInMotion robot' = 0 ∧
      (∀ timestamp, (mockRobotGetRobotStatus robot' timestamp).bytes[15]? = some 0) ∧
      ∀ grp ∈ robot'.groups, grp.hasActiveGoal = false := by
  obtain ⟨next, hleads, hruns⟩ := h
  have hrest : ∀ grp ∈ robot'.groups, grp.AtRest := by
    apply groups_of_runs hruns (he.atRest hleads)
    intro e he i grp grp' hstep
    obtain ⟨htest, hgoal⟩ := hevents e he
    exact hstep.atRest htest hgoal
  refine ⟨isInMotion_eq_zero hrest, ?_, fun grp hgrp => (hrest grp hgrp).2⟩
  intro timestamp
  simp [mockRobotGetRobotStatus, motionBits_eq_zero hrest, bytes32, littleEndian]

/-- The client goes while the robot is on its way, and comes back. -/
theorem stands_still_of_run_origin :
    let robot := mockRobotOnConnection (mockRobotOnDisconnection followingRobot)
    mockRobotIsInMotion robot = 0 ∧
      (∀ timestamp, (mockRobotGetRobotStatus robot timestamp).bytes[15]? = some 0) ∧
      ∀ grp ∈ robot.groups, grp.hasActiveGoal = false := by
  intro robot
  have hruns : followingRobot.Runs [.disconnected, .connected] robot := ⟨_, rfl, _, rfl, rfl⟩
  have hstops : RobotEvent.disconnected.StopsAll := trivial
  have hevents : ∀ e ∈ [RobotEvent.connected], ¬ e.IsCommand msgTestTrajectoryCommand ∧
      ¬ e.IsCommand msgMoveGoal := by
    intro e he
    rw [List.mem_singleton.mp he]
    exact ⟨id, id⟩
  exact stands_still_of_run hstops hevents hruns

end Rest

end YaskawaComms.Robot
