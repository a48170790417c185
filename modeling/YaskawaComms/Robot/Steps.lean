import YaskawaComms.Framework.Agenda
import YaskawaComms.Robot.Commands

/-!
# What happens to the robot

One step for each callback and each update, and what a step can do to a group. Everything about runs
rests on the latter.
-/

namespace YaskawaComms.Robot

open Protocol Program Server Logging

/-- The goal ids drawn so far. -/
def drawing : Monitor robotSignature (List Int) where
  good _ _ := True
  allowed _ _ _ := True
  next drawn c := match c with
    | .goalId => fun goalId => drawn ++ [goalId.value]
    | _ => fun _ => drawn

/-- A callback with its answer, or an update by the application. With a command come the goal ids that
have been drawn for it. -/
inductive RobotEvent where
  | command (header : ProtocolHeader) (payload : Nat → UInt8) (drawn : List Int)
      (answer : Option ResponseContext)
  | errorInfo (answer : Option ResponseContext)
  | update
  | connected
  | disconnected

namespace RobotEvent

/-- The event can lead from one state to the other. -/
def Leads (robot robot' : MockRobot) : RobotEvent → Prop
  | command header payload drawn answer =>
      (mockRobotHandleCommand robot header payload).Returns drawing [] (answer, robot') drawn
  | errorInfo answer => (mockRobotGetErrorInfoCallback robot).Yields (answer, robot')
  | update => (mockRobotUpdateGoalProgress robot).Yields robot'
  | connected => robot' = mockRobotOnConnection robot
  | disconnected => robot' = mockRobotOnDisconnection robot

/-- A command of this type. -/
def IsCommand (type : UInt8) : RobotEvent → Prop
  | command header _ _ _ => header.messageType = type
  | _ => False

/-- A move goal for this group. -/
def MovesGroup (i : Nat) : RobotEvent → Prop
  | command header payload _ _ => header.messageType = msgMoveGoal ∧ groupIndexOf payload = i
  | _ => False

end RobotEvent

def MockRobot.Runs (robot : MockRobot) : List RobotEvent → MockRobot → Prop
  | [], robot' => robot' = robot
  | e :: events, robot' => ∃ next, e.Leads robot next ∧ next.Runs events robot'

/-- A move goal in a block of its own; `fresh` is what the block contained. -/
def storedCopy (goal fresh : Nat → UInt8) (block : Nat) : StoredTrajectory :=
  let size := uint32 (moveGoalSize goal)
  ⟨block, size, splice size goal fresh⟩

/-- What an event can do to group `i`. -/
inductive GroupStep (e : RobotEvent) (i : Nat) (grp : MockGroupState) : MockGroupState → Prop where
  | same : GroupStep e i grp grp
  | started (h : e.IsCommand msgTestTrajectoryCommand) :
      GroupStep e i grp { grp with trajectoryActive := true, inMotion := true }
  | lost (h : e.MovesGroup i) (hidle : grp.hasActiveGoal = false) :
      GroupStep e i grp (grp.store none)
  | accepted {header : ProtocolHeader} {payload : Nat → UInt8} {drawn : List Int}
      {answer : Option ResponseContext} (he : e = .command header payload drawn answer) (h : e.MovesGroup i)
      (hvalid : (validateMoveGoal payload header.payloadLength).1 = some (some 0))
      (hidle : grp.hasActiveGoal = false) (fresh : Nat → UInt8) (block : Nat) (goalId : GoalId)
      (now : Int) :
      GroupStep e i grp ((grp.store (some (storedCopy payload fresh block))).follow goalId.value now)
  | stopped (h : e = .disconnected ∨ e.IsCommand msgStopMotion) : GroupStep e i grp grp.stop
  | cancelled (h : e.IsCommand msgCancelGoal)
      (hstate : grp.currentGoalState = .pending ∨ grp.currentGoalState = .active) :
      GroupStep e i grp grp.cancel
  | progressed (h : e = .update) (hid : grp.currentGoalId ≠ 0) (hstate : grp.currentGoalState = .active)
      (progress : UInt64) : GroupStep e i grp { grp with currentGoalProgress := progress }
  | succeeded (h : e = .update) (hid : grp.currentGoalId ≠ 0) (hstate : grp.currentGoalState = .active) :
      GroupStep e i grp grp.succeed

theorem GroupStep.shift {i k : Nat} {grp grp' : MockGroupState} (h : GroupStep .update i grp grp') :
    GroupStep .update k grp grp' := by
  cases h with
  | same => exact .same
  | started h => cases h
  | lost h => cases h
  | accepted he => cases he
  | stopped h => exact absurd h (by rintro (h | h) <;> cases h)
  | cancelled h => cases h
  | progressed _ hid hstate progress => exact .progressed rfl hid hstate progress
  | succeeded _ hid hstate => exact .succeeded rfl hid hstate

/-- What an event can do to the groups. -/
structure GroupsStep (e : RobotEvent) (groups groups' : List MockGroupState) : Prop where
  length : groups'.length = groups.length
  group : ∀ i grp, groups[i]? = some grp → ∃ grp', groups'[i]? = some grp' ∧ GroupStep e i grp grp'

section Groups

variable {e : RobotEvent} {groups groups' : List MockGroupState} {f : MockGroupState → MockGroupState}

theorem GroupsStep.refl (groups : List MockGroupState) : GroupsStep e groups groups :=
  ⟨rfl, fun _ grp hgrp => ⟨grp, hgrp, .same⟩⟩

theorem groupsStep_map (h : ∀ i grp, groups[i]? = some grp → GroupStep e i grp (f grp)) :
    GroupsStep e groups (groups.map f) := by
  refine ⟨List.length_map _, ?_⟩
  intro i grp hgrp
  refine ⟨f grp, ?_, h i grp hgrp⟩
  rw [List.getElem?_map, hgrp]
  rfl

theorem groupsStep_modify {i : Nat} (h : ∀ grp, groups[i]? = some grp → GroupStep e i grp (f grp)) :
    GroupsStep e groups (groups.modify i f) := by
  refine ⟨List.length_modify _ _ _, ?_⟩
  intro k grp hgrp
  rw [List.getElem?_modify, hgrp]
  by_cases hk : i = k
  · subst hk
    exact ⟨f grp, by simp, h grp hgrp⟩
  · exact ⟨grp, by simp [hk], .same⟩

theorem groupsStep_put {i : Nat} {grp grp' : MockGroupState} (hgrp : groups[i]? = some grp)
    (h : GroupStep e i grp grp') : GroupsStep e groups (groups.modify i fun _ => grp') := by
  apply groupsStep_modify
  intro other hother
  obtain rfl : grp = other := Option.some.inj (hgrp.symm.trans hother)
  exact h

end Groups

section Yields

variable {α : Type}

theorem yields_fromServer (p : ServerProgram α) (a : α) : (fromServer p).Yields a ↔ p.Yields a := by
  apply yields_interpret
  intro c r
  rw [yields_call]
  exact ⟨r, (yields_ret _ _).mpr rfl⟩

theorem deepCopied_whole (goal fresh : Nat → UInt8) :
    deepCopied goal fresh (UInt32.ofNat (moveGoalSize goal)) =
      (some (some 0), splice (uint32 (moveGoalSize goal)) goal fresh) := by
  have hsize : 16 + 264 * trajectoryCount goal + 256 * toleranceCount goal = moveGoalSize goal :=
    (moveGoalCalcSize_eq (trajectoryCount_lt goal) (toleranceCount_lt goal)).symm
  have hcut : (UInt32.ofNat (moveGoalSize goal)).toNat = uint32 (moveGoalSize goal) :=
    UInt32.toNat_ofNat'
  rw [deepCopied_eq, hsize, hcut]
  exact if_neg (Nat.lt_irrefl _)

theorem storeTrajectory_yields {grp grp' : MockGroupState} {goal : Nat → UInt8} {stored : Bool}
    (h : (storeTrajectory grp goal).Yields (stored, grp')) :
    (stored = false ∧ grp' = grp.store none) ∨
      ∃ fresh block, stored = true ∧
        grp' = grp.store (some (storedCopy goal fresh block)) := by
  have hcut : (UInt32.ofNat (moveGoalSize goal)).toNat = uint32 (moveGoalSize goal) :=
    UInt32.toNat_ofNat'
  unfold storeTrajectory at h
  rw [yields_bind] at h
  obtain ⟨_, -, h⟩ := h
  rw [yields_bind] at h
  obtain ⟨block, -, h⟩ := h
  cases block with
  | none =>
      cases h
      exact Or.inl ⟨rfl, rfl⟩
  | some block =>
      dsimp only at h
      rw [yields_bind] at h
      obtain ⟨fresh, -, h⟩ := h
      rw [deepCopied_whole, hcut] at h
      cases h
      exact Or.inr ⟨fresh, block, rfl, rfl⟩

/-- A goal is refused as it is, or after the old trajectory has been given up, or followed. -/
theorem acceptGoal_yields {robot robot' : MockRobot} {goal : Nat → UInt8} {result : Int}
    (h : (mockRobotAcceptGoal robot goal).Yields (result, robot')) :
    (result = -1 ∧ robot' = robot) ∨
      ∃ grp, robot.groups[groupIndexOf goal]? = some grp ∧ grp.hasActiveGoal = false ∧
        ((result = -1 ∧ robot' = robot.modifyGroup (groupIndexOf goal) fun _ => grp.store none) ∨
          ∃ fresh block, ∃ goalId : GoalId, ∃ now, result = goalId.value ∧
            robot' = robot.modifyGroup (groupIndexOf goal) fun _ =>
              (grp.store (some (storedCopy goal fresh block))).follow goalId.value now) := by
  unfold mockRobotAcceptGoal at h
  rw [yields_ite] at h
  split at h
  · cases h
    exact Or.inl ⟨rfl, rfl⟩
  · dsimp only at h
    cases hgrp : robot.groups[groupIndexOf goal]? with
    | none =>
        rw [hgrp] at h
        cases h
        exact Or.inl ⟨rfl, rfl⟩
    | some grp =>
        rw [hgrp] at h
        dsimp only at h
        rw [yields_ite] at h
        split at h
        · cases h
          exact Or.inl ⟨rfl, rfl⟩
        · next hidle =>
            rw [yields_bind] at h
            obtain ⟨⟨stored, grp'⟩, hstore, h⟩ := h
            refine Or.inr ⟨grp, rfl, Bool.eq_false_iff.mpr hidle, ?_⟩
            rcases storeTrajectory_yields hstore with ⟨rfl, rfl⟩ | ⟨fresh, block, rfl, rfl⟩
            · cases h
              exact Or.inl ⟨rfl, rfl⟩
            · dsimp only at h
              rw [if_neg (by simp), yields_bind] at h
              obtain ⟨goalId, -, h⟩ := h
              rw [yields_bind] at h
              obtain ⟨now, -, h⟩ := h
              cases h
              exact Or.inr ⟨fresh, block, goalId, _, rfl, rfl⟩

end Yields

/-- A context that carries these bytes as a message of this type. -/
structure Carries (type : UInt8) (bytes : List UInt8) (ctx : ResponseContext) : Prop where
  magic : ctx.header.magicNumber = protocolMagicNumber
  version : ctx.header.version = protocolVersion
  type : ctx.header.messageType = type
  length : ctx.header.payloadLength.toNat = bytes.length
  payload : ctx.reply.payload = if bytes = [] then none else some bytes

section Answers

variable {type : UInt8} {bytes : List UInt8} {ctx : ResponseContext} {answer : Option ResponseContext}

theorem Carries.readable (h : Carries type bytes ctx) (hsize : bytes.length ≤ maxPayloadSize) :
    ctx.reply.Readable := by
  refine ⟨⟨h.magic, h.version, ?_, ?_⟩, h.length.trans_le hsize⟩
  · have hlength := h.length
    rw [h.payload, ResponseContext.reply, ← UInt32.toNat_inj, hlength]
    split
    · next hempty => simp [hempty]
    · next hsome => simp [hsome]
  · intro payload hpayload
    rw [h.payload] at hpayload
    split at hpayload
    · cases hpayload
    · cases hpayload
      exact h.length.symm

theorem Carries.message (h : Carries type bytes ctx) : ctx.reply.message = (ctx.header, bytes) := by
  rw [Reply.message, h.payload]
  split
  · next hempty => rw [hempty]; rfl
  · rfl

/-- An allocated context, filled with a payload of its length. -/
theorem carries_fill {length : UInt32} (h : (allocateResponseContext length type).Yields (some ctx))
    (hlength : length.toNat = bytes.length) : Carries type bytes (ctx.fill bytes) := by
  unfold allocateResponseContext at h
  rw [yields_bind] at h
  obtain ⟨block, -, h⟩ := h
  cases block with
  | none => cases h
  | some block =>
      dsimp only at h
      rw [yields_bind] at h
      obtain ⟨headerBlock, -, h⟩ := h
      cases headerBlock with
      | none =>
          dsimp only at h
          rw [yields_bind] at h
          obtain ⟨_, -, h⟩ := h
          cases h
      | some headerBlock =>
          dsimp only at h
          rw [yields_bind] at h
          obtain ⟨timestamp, -, h⟩ := h
          have hpos : 0 < length ↔ bytes ≠ [] := by
            rw [UInt32.lt_iff_toNat_lt, hlength, ← List.length_pos_iff]
            rfl
          by_cases hempty : bytes = []
          · rw [if_neg (by rw [hpos]; simp [hempty])] at h
            cases h
            refine ⟨rfl, rfl, rfl, hlength, ?_⟩
            rw [if_pos hempty]
            rfl
          · rw [if_pos (hpos.mpr hempty), yields_bind] at h
            obtain ⟨payload, -, h⟩ := h
            cases payload with
            | none =>
                dsimp only at h
                rw [yields_bind] at h
                obtain ⟨_, -, h⟩ := h
                rw [yields_bind] at h
                obtain ⟨_, -, h⟩ := h
                cases h
            | some payload =>
                cases h
                refine ⟨rfl, rfl, rfl, hlength, ?_⟩
                rw [if_neg hempty]
                rfl

theorem bytes32_length (n : Int) : (bytes32 n).length = 4 := littleEndian_length _ _

theorem errResponse_yields {err : Int} (h : (errResponse err).Yields (some ctx)) :
    Carries msgError (bytes32 err) ctx := by
  unfold errResponse at h
  rw [yields_bind] at h
  obtain ⟨allocated, hallocate, h⟩ := h
  rw [yields_fromServer] at hallocate
  cases allocated with
  | none => cases h
  | some allocated =>
      cases h
      exact carries_fill hallocate (bytes32_length err).symm

theorem okResponse_yields (h : (fromServer msgOkResponse).Yields (some ctx)) : Carries msgOk [] ctx := by
  rw [yields_fromServer] at h
  obtain ⟨hmagic, hversion, htype, hlength, hpayload⟩ : Carries msgOk [] (ctx.fill []) := carries_fill h rfl
  refine ⟨hmagic, hversion, htype, hlength, ?_⟩
  rw [if_pos rfl] at hpayload ⊢
  cases hnone : ctx.payload with
  | none => rw [ResponseContext.reply, hnone]; rfl
  | some payload => simp [ResponseContext.reply, ResponseContext.fill, hnone] at hpayload

theorem payloadResponse_yields {size : Nat} {write : RobotProgram (List UInt8)}
    (h : (payloadResponse size type write).Yields (some ctx)) :
    Carries msgError (bytes32 (-1)) ctx ∨
      ∃ bytes, write.Yields bytes ∧ ctx.header.messageType = type ∧
        (bytes.length = size → size < 2 ^ 32 → Carries type bytes ctx) := by
  unfold payloadResponse at h
  rw [yields_bind] at h
  obtain ⟨allocated, hallocate, h⟩ := h
  rw [yields_fromServer] at hallocate
  cases allocated with
  | none => exact Or.inl (errResponse_yields h)
  | some allocated =>
      dsimp only at h
      rw [yields_bind] at h
      obtain ⟨bytes, hwrite, h⟩ := h
      cases h
      have htype : Carries type (List.replicate (UInt32.ofNat size).toNat 0) (allocated.fill _) :=
        carries_fill hallocate List.length_replicate.symm
      refine Or.inr ⟨bytes, hwrite, htype.type, ?_⟩
      intro hlength hsize
      apply carries_fill hallocate
      rw [hlength, UInt32.toNat_ofNat', Nat.mod_eq_of_lt hsize]

end Answers

/-- The answers that tell something about a goal. -/
def goalAnswers : List UInt8 := [msgEchoTrajectory, msgGoalAccepted, msgGoalStatus]

/-- An answer like most of them. -/
def Plain (answer : Option ResponseContext) : Prop :=
  ∀ ctx, answer = some ctx → ∃ type bytes, Carries type bytes ctx ∧
    bytes.length ≤ sizeofCapabilitiesPayload ∧ type ∉ goalAnswers

/-- A `goal_status_payload_t` about the goal of this group. -/
structure StatusOf (grp : MockGroupState) (status : List UInt8) : Prop where
  length : status.length = sizeofGoalStatusPayload
  id : status.take 4 = bytes32 grp.currentGoalId
  state : status[28]? = some grp.currentGoalState.value

/-- What a command can come to. -/
inductive CommandStep (groups : List MockGroupState) (header : ProtocolHeader) (payload : Nat → UInt8)
    (drawn : List Int) : Option ResponseContext → MockRobot → Prop where
  | plain {answer : Option ResponseContext} {robot' : MockRobot}
      (hgroups : GroupsStep (.command header payload drawn answer) groups robot'.groups)
      (h : Plain answer) : CommandStep groups header payload drawn answer robot'
  | accepted {ctx : ResponseContext} {robot' : MockRobot} (htype : header.messageType = msgMoveGoal)
      (hvalid : (validateMoveGoal payload header.payloadLength).1 = some (some 0)) {grp : MockGroupState}
      (hgrp : groups[groupIndexOf payload]? = some grp) (hidle : grp.hasActiveGoal = false)
      (fresh : Nat → UInt8) (block : Nat) (goalId : GoalId) (now : Int) (timestamp : UInt64)
      (hgroups : robot'.groups = groups.modify (groupIndexOf payload) fun _ =>
        (grp.store (some (storedCopy payload fresh block))).follow goalId.value now)
      (h : Carries msgGoalAccepted (bytes32 goalId.value ++
        littleEndian 4 (trajectoryCount payload) ++ littleEndian 8 timestamp.toNat) ctx) :
      CommandStep groups header payload drawn (some ctx) robot'
  | echoed {ctx : ResponseContext} {robot' : MockRobot} (htype : header.messageType = msgEchoTrajectory)
      (hgroups : robot'.groups = groups) {stored : StoredTrajectory}
      (hstored : groups[0]? >>= MockGroupState.storedTrajectory = some stored)
      (hecho : ctx.header.messageType = msgEchoTrajectory)
      (h : moveGoalSize stored.memory < 2 ^ 32 → Carries msgEchoTrajectory
        (window stored.memory 0 (moveGoalSize stored.memory)) ctx) :
      CommandStep groups header payload drawn (some ctx) robot'
  | reported {ctx : ResponseContext} {robot' : MockRobot} (hgroups : robot'.groups = groups)
      {i : Nat} {grp : MockGroupState} (hgrp : groups[i]? = some grp) {status : List UInt8}
      (hstatus : StatusOf grp status) (h : Carries msgGoalStatus status ctx) :
      CommandStep groups header payload drawn (some ctx) robot'

section Plain

variable {answer : Option ResponseContext}

theorem Carries.plain {err : Int} {ctx : ResponseContext} (h : Carries msgError (bytes32 err) ctx) :
    Plain (some ctx) := by
  intro _ hctx
  cases hctx
  refine ⟨_, _, h, ?_, by decide⟩
  rw [bytes32_length]
  decide

theorem Plain.type {ctx : ResponseContext} (h : Plain (some ctx)) : ctx.header.messageType ∉ goalAnswers := by
  obtain ⟨type, bytes, hcarries, -, htype⟩ := h ctx rfl
  rwa [hcarries.type]

theorem plain_none : Plain none := by
  intro ctx h
  cases h

theorem plain_err {err : Int} (h : (errResponse err).Yields answer) : Plain answer := by
  cases answer with
  | none => exact plain_none
  | some ctx => exact (errResponse_yields h).plain

theorem plain_result {err : Int} (h : (resultResponse err).Yields answer) : Plain answer := by
  unfold resultResponse at h
  rw [yields_ite] at h
  split at h
  · exact plain_err h
  · rintro ctx rfl
    exact ⟨_, _, okResponse_yields h, Nat.zero_le _, by decide⟩

theorem plain_payload {type : UInt8} {bytes : List UInt8} (htype : type ∉ goalAnswers)
    (hsize : bytes.length ≤ sizeofCapabilitiesPayload)
    (h : (payloadResponse bytes.length type (pure bytes)).Yields answer) : Plain answer := by
  rintro ctx rfl
  rcases payloadResponse_yields h with herror | ⟨_, rfl, -, hcarries⟩
  · exact herror.plain ctx rfl
  · refine ⟨_, _, hcarries rfl ?_, hsize, htype⟩
    exact hsize.trans_lt (by decide)

theorem plain_byte {type value : UInt8} (htype : type ∉ goalAnswers)
    (h : (payloadResponse 1 type (pure [value])).Yields answer) : Plain answer := by
  have hsize : [value].length ≤ sizeofCapabilitiesPayload := by simp [sizeofCapabilitiesPayload]
  exact plain_payload htype hsize h

end Plain

section Switch

variable {robot robot' : MockRobot} {header : ProtocolHeader} {payload : Nat → UInt8}
  {drawn : List Int} {answer : Option ResponseContext} {p : RobotProgram (Option ResponseContext)}

theorem yields_answer (h : (p >>= fun answer => pure (answer, robot)).Yields (answer, robot')) :
    p.Yields answer ∧ robot' = robot := by
  rw [yields_bind] at h
  obtain ⟨_, hp, h⟩ := h
  cases h
  exact ⟨hp, rfl⟩

theorem CommandStep.still (hgroups : robot'.groups = robot.groups) (h : Plain answer) :
    CommandStep robot.groups header payload drawn answer robot' :=
  .plain (hgroups ▸ .refl _) h

theorem moveGoal_step (htype : header.messageType = msgMoveGoal)
    (h : (handleMoveGoal robot header payload).Yields (answer, robot')) :
    CommandStep robot.groups header payload drawn answer robot' := by
  unfold handleMoveGoal at h
  split at h
  · next goal hvalid =>
      obtain rfl : goal = 0 := by
        rw [validateMoveGoal_eq] at hvalid
        dsimp only at hvalid
        split_ifs at hvalid <;> simp_all
      rw [yields_bind] at h
      obtain ⟨⟨goalId, robot₁⟩, haccept, h⟩ := h
      dsimp only at h
      rcases acceptGoal_yields haccept with ⟨rfl, rfl⟩ | ⟨grp, hgrp, hidle, hdone⟩
      · rw [if_pos (by decide)] at h
        obtain ⟨herr, rfl⟩ := yields_answer h
        exact .still rfl (plain_err herr)
      · rcases hdone with ⟨rfl, rfl⟩ | ⟨fresh, block, goalId, now, rfl, rfl⟩
        · rw [if_pos (by decide)] at h
          obtain ⟨herr, rfl⟩ := yields_answer h
          exact .plain (groupsStep_put hgrp (.lost ⟨htype, rfl⟩ hidle)) (plain_err herr)
        · have hpos := goalId.pos
          rw [if_neg (by omega)] at h
          obtain ⟨hresponse, rfl⟩ := yields_answer h
          have hgroups : GroupsStep (.command header payload drawn answer) robot.groups
              (robot.groups.modify (groupIndexOf payload) fun _ =>
                (grp.store (some (storedCopy payload fresh block))).follow goalId.value now) :=
            groupsStep_put hgrp (.accepted rfl ⟨htype, rfl⟩ hvalid hidle fresh block goalId now)
          cases answer with
          | none => exact .plain hgroups plain_none
          | some ctx =>
              rcases payloadResponse_yields hresponse with herror | ⟨bytes, hwrite, -, hcarries⟩
              · exact .plain hgroups herror.plain
              · rw [yields_bind] at hwrite
                obtain ⟨timestamp, -, rfl⟩ := hwrite
                refine .accepted htype hvalid hgrp hidle fresh block goalId now timestamp rfl ?_
                apply hcarries
                · simp only [List.length_append, bytes32_length, littleEndian_length]
                  rfl
                · decide
  · obtain ⟨herr, rfl⟩ := yields_answer h
    exact .still rfl (plain_err herr)

theorem echoTrajectory_step (htype : header.messageType = msgEchoTrajectory)
    (h : (handleEchoTrajectory robot).Yields answer) (hgroups : robot'.groups = robot.groups) :
    CommandStep robot.groups header payload drawn answer robot' := by
  unfold handleEchoTrajectory at h
  split at h
  · exact .still hgroups (plain_err h)
  · next stored hstored =>
      cases answer with
      | none => exact .still hgroups plain_none
      | some ctx =>
          rcases payloadResponse_yields h with herror | ⟨_, rfl, hecho, hcarries⟩
          · exact .still hgroups herror.plain
          · refine .echoed htype hgroups hstored hecho (hcarries ?_)
            simp [window]

theorem stopMotion_groups {e : RobotEvent} (h : e = .disconnected ∨ e.IsCommand msgStopMotion) :
    GroupsStep e robot.groups (mockRobotStopMotion robot).2.groups := by
  apply groupsStep_map
  intro i grp _
  dsimp only
  split
  · exact .stopped h
  · exact .same

theorem stopGroup_groups {e : RobotEvent} (h : e = .disconnected ∨ e.IsCommand msgStopMotion)
    (groupIndex : Int) : GroupsStep e robot.groups (mockRobotStopGroup robot groupIndex).2.groups := by
  unfold mockRobotStopGroup
  split
  · exact .refl _
  · exact groupsStep_modify fun _ _ => .stopped h

theorem stopMotion_step (htype : header.messageType = msgStopMotion)
    (h : (handleStopMotion robot payload).Yields (answer, robot')) :
    CommandStep robot.groups header payload drawn answer robot' := by
  unfold handleStopMotion at h
  dsimp only at h
  have hcommand : (RobotEvent.command header payload drawn answer).IsCommand msgStopMotion := htype
  by_cases hall : payloadInt32 payload = groupIdAll
  · rw [if_pos hall] at h
    obtain ⟨hanswer, rfl⟩ := yields_answer h
    exact .plain (stopMotion_groups (Or.inr hcommand)) (plain_byte (by decide) hanswer)
  · rw [if_neg hall] at h
    obtain ⟨hanswer, rfl⟩ := yields_answer h
    exact .plain (stopGroup_groups (Or.inr hcommand) _) (plain_byte (by decide) hanswer)

theorem cancelGoal_groups {e : RobotEvent} (h : e.IsCommand msgCancelGoal) (goalId : Int) :
    GroupsStep e robot.groups (mockRobotCancelGoal robot goalId).2.groups := by
  unfold mockRobotCancelGoal
  split
  · exact .refl _
  · split
    · exact .refl _
    · next grp hgrp =>
        split
        · exact .refl _
        · next hstate =>
            apply groupsStep_modify
            intro other hother
            obtain rfl : grp = other := Option.some.inj (hgrp.symm.trans hother)
            refine .cancelled h ?_
            by_contra hneither
            exact hstate (not_or.mp hneither)

theorem getGoalStatus_tells {goalId : Int} {status status' : List UInt8}
    (h : (mockRobotGetGoalStatus robot goalId status).Yields (some status'))
    (hlength : status.length = sizeofGoalStatusPayload) :
    ∃ (i : Nat) (grp : MockGroupState), robot.groups[i]? = some grp ∧ StatusOf grp status' := by
  unfold mockRobotGetGoalStatus at h
  split at h
  · split at h
    · next i _ _ grp hgrp =>
        rw [yields_bind] at h
        obtain ⟨now, -, h⟩ := h
        cases h
        refine ⟨i, grp, hgrp, ?_, ?_, ?_⟩
        · simp [bytes32_length, littleEndian_length, hlength, sizeofGoalStatusPayload]
        · simp [bytes32_length]
        · simp [bytes32_length, littleEndian_length, hlength, sizeofGoalStatusPayload]
    · cases h
  · cases h

theorem getGoalStatus_step (h : (handleGetGoalStatus robot payload).Yields answer)
    (hgroups : robot'.groups = robot.groups) : CommandStep robot.groups header payload drawn answer robot' := by
  unfold handleGetGoalStatus at h
  rw [yields_bind] at h
  obtain ⟨allocated, hallocate, h⟩ := h
  rw [yields_fromServer] at hallocate
  cases allocated with
  | none => exact .still hgroups (plain_err h)
  | some allocated =>
      dsimp only at h
      rw [yields_bind] at h
      obtain ⟨block, -, h⟩ := h
      rw [yields_bind] at h
      obtain ⟨status, hstatus, h⟩ := h
      cases status with
      | none =>
          dsimp only at h
          rw [yields_bind] at h
          obtain ⟨_, -, h⟩ := h
          exact .still hgroups (plain_err h)
      | some status =>
          obtain ⟨i, grp, hgrp, htells⟩ := getGoalStatus_tells hstatus (by simp [window])
          cases h
          refine .reported hgroups hgrp htells (carries_fill hallocate ?_)
          rw [htells.length]
          rfl

theorem capabilities_length (robot : MockRobot) :
    (capabilities robot).length = sizeofCapabilitiesPayload := by
  rw [capabilities, List.length_take, List.length_append, List.length_replicate]
  omega

theorem plain_capabilities (h : (handleGetCapabilities robot).Yields answer) : Plain answer := by
  unfold handleGetCapabilities at h
  rw [yields_bind] at h
  obtain ⟨allocated, hallocate, h⟩ := h
  rw [yields_fromServer] at hallocate
  cases h
  intro ctx hctx
  obtain ⟨allocated, rfl, rfl⟩ := Option.map_eq_some_iff.mp hctx
  have hlength := capabilities_length robot
  refine ⟨_, _, carries_fill hallocate ?_, hlength.le, by decide⟩
  rw [hlength]
  rfl

theorem startTrajectory_groups {e : RobotEvent} (h : e.IsCommand msgTestTrajectoryCommand) :
    GroupsStep e robot.groups (mockRobotStartTrajectory robot).2.groups := by
  unfold mockRobotStartTrajectory
  split
  · exact groupsStep_modify fun _ _ => .started h
  · exact .refl _

theorem yields_branches {β : Type} {P : Prop} [Decidable P] {p q : RobotProgram β} {b : β}
    (h : (if P then p else q).Yields b) : (P ∧ p.Yields b) ∨ (¬ P ∧ q.Yields b) := by
  rw [yields_ite] at h
  split at h
  · next hP => exact Or.inl ⟨hP, h⟩
  · next hP => exact Or.inr ⟨hP, h⟩

theorem sized_step {n : UInt32} {p : RobotProgram (Option ResponseContext × MockRobot)}
    (h : (if header.payloadLength ≠ n then errResponse (-1) >>= fun answer => pure (answer, robot)
      else p).Yields (answer, robot'))
    (hp : p.Yields (answer, robot') → CommandStep robot.groups header payload drawn answer robot') :
    CommandStep robot.groups header payload drawn answer robot' := by
  rcases yields_branches h with ⟨-, h⟩ | ⟨-, h⟩
  · obtain ⟨hanswer, rfl⟩ := yields_answer h
    exact .still rfl (plain_err hanswer)
  · exact hp h

theorem switch_step (h : (switchCommand robot header payload).Yields (answer, robot')) :
    CommandStep robot.groups header payload drawn answer robot' := by
  unfold switchCommand at h
  dsimp only at h
  -- one case for each command, in the order of the switch
  rcases yields_branches h with ⟨htype, h⟩ | ⟨-, h⟩
  · obtain ⟨hanswer, rfl⟩ := yields_answer h
    exact .plain (startTrajectory_groups htype) (plain_result hanswer)
  rcases yields_branches h with ⟨htype, h⟩ | ⟨-, h⟩
  · rw [yields_bind] at h
    obtain ⟨⟨err, robot₁⟩, hpower, h⟩ := h
    obtain ⟨hanswer, rfl⟩ := yields_answer h
    rw [mockRobotPowerOn, yields_bind] at hpower
    obtain ⟨now, -, hpower⟩ := hpower
    cases hpower
    exact .still rfl (plain_result hanswer)
  rcases yields_branches h with ⟨htype, h⟩ | ⟨-, h⟩
  · rw [yields_bind] at h
    obtain ⟨now, -, h⟩ := h
    obtain ⟨hanswer, rfl⟩ := yields_answer h
    exact .still rfl (plain_result hanswer)
  rcases yields_branches h with ⟨htype, h⟩ | ⟨-, h⟩
  · obtain ⟨hanswer, rfl⟩ := yields_answer h
    exact .still rfl (plain_result hanswer)
  rcases yields_branches h with ⟨htype, h⟩ | ⟨-, h⟩
  · obtain ⟨hanswer, rfl⟩ := yields_answer h
    exact .still rfl (plain_result hanswer)
  rcases yields_branches h with ⟨htype, h⟩ | ⟨-, h⟩
  · exact moveGoal_step htype h
  rcases yields_branches h with ⟨htype, h⟩ | ⟨-, h⟩
  · obtain ⟨hanswer, rfl⟩ := yields_answer h
    exact echoTrajectory_step htype hanswer rfl
  rcases yields_branches h with ⟨htype, h⟩ | ⟨-, h⟩
  · exact sized_step h fun h => by
      obtain ⟨hanswer, rfl⟩ := yields_answer h
      exact .still rfl (plain_result hanswer)
  rcases yields_branches h with ⟨htype, h⟩ | ⟨-, h⟩
  · exact sized_step h fun h => by
      obtain ⟨hanswer, rfl⟩ := yields_answer h
      exact .still rfl (plain_byte (by decide) hanswer)
  rcases yields_branches h with ⟨htype, h⟩ | ⟨-, h⟩
  · exact sized_step h (stopMotion_step htype)
  rcases yields_branches h with ⟨htype, h⟩ | ⟨-, h⟩
  · exact sized_step h fun h => by
      obtain ⟨hanswer, rfl⟩ := yields_answer h
      have hcommand : (RobotEvent.command header payload drawn answer).IsCommand msgCancelGoal := htype
      exact .plain (cancelGoal_groups hcommand _) (plain_result hanswer)
  rcases yields_branches h with ⟨htype, h⟩ | ⟨-, h⟩
  · exact sized_step h fun h => by
      obtain ⟨hanswer, rfl⟩ := yields_answer h
      exact getGoalStatus_step hanswer rfl
  rcases yields_branches h with ⟨htype, h⟩ | ⟨-, h⟩
  · exact sized_step h fun h => by
      obtain ⟨hanswer, rfl⟩ := yields_answer h
      exact .still rfl (plain_byte (by decide) hanswer)
  rcases yields_branches h with ⟨htype, h⟩ | ⟨-, h⟩
  · obtain ⟨hanswer, rfl⟩ := yields_answer h
    exact .still rfl (plain_capabilities hanswer)
  obtain ⟨hanswer, rfl⟩ := yields_answer h
  exact .still rfl (plain_err hanswer)

theorem handleCommand_step (h : (mockRobotHandleCommand robot header payload).Yields (answer, robot')) :
    CommandStep robot.groups header payload drawn answer robot' := by
  unfold mockRobotHandleCommand at h
  have hstep : CommandStep { robot with commandCount := robot.commandCount + 1 }.groups header payload
      drawn answer robot' := switch_step h
  exact hstep

theorem command_step (h : (RobotEvent.command header payload drawn answer).Leads robot robot') :
    CommandStep robot.groups header payload drawn answer robot' :=
  handleCommand_step h.yields

theorem getErrorInfo_step (h : (mockRobotGetErrorInfoCallback robot).Yields (answer, robot')) :
    robot'.groups = robot.groups ∧ Plain answer := by
  have hgroups : (mockRobotGetErrorInfo robot 512).2.groups = robot.groups := by
    unfold mockRobotGetErrorInfo
    split <;> rfl
  unfold mockRobotGetErrorInfoCallback at h
  dsimp only at h
  rw [yields_ite] at h
  split at h
  · obtain ⟨hanswer, rfl⟩ := yields_answer h
    refine ⟨hgroups, ?_⟩
    rintro ctx rfl
    exact ⟨_, _, okResponse_yields hanswer, Nat.zero_le _, by decide⟩
  · rw [yields_bind] at h
    obtain ⟨allocated, hallocate, h⟩ := h
    rw [yields_fromServer] at hallocate
    cases h
    refine ⟨hgroups, ?_⟩
    intro ctx hctx
    obtain ⟨allocated, rfl, rfl⟩ := Option.map_eq_some_iff.mp hctx
    refine ⟨_, _, carries_fill hallocate ?_, ?_, by decide⟩
    · rw [ErrorPayload.bytes_length]
      rfl
    · rw [ErrorPayload.bytes_length]
      decide

theorem updateGroupProgress_step {i : Nat} {grp grp' : MockGroupState}
    (h : (updateGroupProgress grp).Yields grp') : GroupStep .update i grp grp' := by
  unfold updateGroupProgress at h
  rw [yields_ite] at h
  split at h
  · cases h
    exact .same
  · next hactive =>
      obtain ⟨hid, hstate⟩ := not_or.mp hactive
      have hstate : grp.currentGoalState = .active := Decidable.not_not.mp hstate
      rw [yields_bind] at h
      obtain ⟨now, -, h⟩ := h
      dsimp only at h
      rw [yields_bind] at h
      obtain ⟨progress, -, h⟩ := h
      rw [yields_ite] at h
      split at h
      · cases h
        exact .succeeded rfl hid hstate
      · cases h
        exact .progressed rfl hid hstate progress

theorem updateGroups_step {groups groups' : List MockGroupState}
    (h : (updateGroups groups).Yields groups') : GroupsStep .update groups groups' := by
  induction groups generalizing groups' with
  | nil =>
      cases h
      exact .refl _
  | cons grp groups ih =>
      rw [updateGroups, yields_bind] at h
      obtain ⟨grp', hgrp, h⟩ := h
      rw [yields_bind] at h
      obtain ⟨rest, hrest, h⟩ := h
      cases h
      obtain ⟨hlength, hgroups⟩ := ih hrest
      refine ⟨by rw [List.length_cons, List.length_cons, hlength], ?_⟩
      intro i other hother
      cases i with
      | zero =>
          obtain rfl : grp = other := Option.some.inj hother
          exact ⟨grp', rfl, updateGroupProgress_step hgrp⟩
      | succ i =>
          obtain ⟨other', hother', hstep⟩ := hgroups i other hother
          exact ⟨other', hother', hstep.shift⟩

theorem CommandStep.groups (h : CommandStep robot.groups header payload drawn answer robot') :
    GroupsStep (.command header payload drawn answer) robot.groups robot'.groups := by
  cases h with
  | plain hgroups => exact hgroups
  | accepted htype hvalid hgrp hidle fresh block goalId now timestamp hgroups =>
      rw [hgroups]
      exact groupsStep_put hgrp (.accepted rfl ⟨htype, rfl⟩ hvalid hidle fresh block goalId now)
  | echoed htype hgroups =>
      rw [hgroups]
      exact .refl _
  | reported hgroups =>
      rw [hgroups]
      exact .refl _

theorem leads_groups {e : RobotEvent} (h : e.Leads robot robot') :
    GroupsStep e robot.groups robot'.groups := by
  cases e with
  | command header payload drawn answer => exact (command_step h).groups
  | errorInfo answer =>
      rw [(getErrorInfo_step h).1]
      exact .refl _
  | update =>
      replace h : (mockRobotUpdateGoalProgress robot).Yields robot' := h
      rw [mockRobotUpdateGoalProgress, yields_bind] at h
      obtain ⟨groups, hgroups, h⟩ := h
      cases h
      exact updateGroups_step hgroups
  | connected =>
      cases h
      exact .refl _
  | disconnected =>
      cases h
      unfold mockRobotOnDisconnection
      exact stopMotion_groups (Or.inl rfl)

end Switch

end YaskawaComms.Robot
