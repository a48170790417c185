import YaskawaComms.Robot.Steps

/-!
# Drawing goal ids

A goal id is drawn for a move goal that is accepted, and for nothing else.
-/

namespace YaskawaComms.Robot

open Protocol Program Server

/-- No goal id is drawn. -/
def Drawless {α : Type} (p : RobotProgram α) : Prop :=
  ∀ drawn, p.Obeys drawing (fun _ drawn' => drawn' = drawn) drawn

def RobotCall.draws : RobotCall → Bool
  | .goalId => true
  | _ => false

section Rules

variable {α β : Type}

theorem drawless_pure (a : α) : Drawless (pure a : RobotProgram α) := fun _ => rfl

theorem Drawless.bind {p : RobotProgram α} {f : α → RobotProgram β} (hp : Drawless p)
    (hf : ∀ a, Drawless (f a)) : Drawless (p >>= f) := by
  intro drawn
  apply (hp drawn).bind
  rintro a _ rfl
  exact hf a _

theorem drawless_ite {P : Prop} [Decidable P] {p q : RobotProgram α} (hp : P → Drawless p)
    (hq : ¬ P → Drawless q) : Drawless (if P then p else q) := by
  split
  · next h => exact hp h
  · next h => exact hq h

theorem drawless_call {c : RobotCall} (hc : c.draws = false) {f : robotSignature.Result c → RobotProgram α}
    (hf : ∀ r, Drawless (f r)) : Drawless (Program.call c .ret >>= f) := by
  intro drawn
  cases c with
  | goalId => cases hc
  | _ => exact ⟨trivial, fun r _ => hf r drawn⟩

theorem drawless_fromServer (p : ServerProgram α) : Drawless (fromServer p) := by
  intro drawn
  induction p with
  | ret a => rfl
  | call c next ih => exact ⟨trivial, fun r _ => ih r⟩

theorem Drawless.returns {p : RobotProgram α} (hp : Drawless p) {a : α} (h : p.Yields a) (drawn : List Int) :
    p.Returns drawing drawn a drawn := by
  have hallowed : ∀ drawn c r, drawing.allowed drawn c r := fun _ _ _ => trivial
  obtain ⟨drawn', hreturns⟩ := h.returns hallowed drawn
  obtain rfl : drawn' = drawn := (hp drawn).returns hreturns
  exact hreturns

theorem Drawless.same {p : RobotProgram α} (hp : Drawless p) {a : α} {drawn drawn' : List Int}
    (h : p.Returns drawing drawn a drawn') : drawn' = drawn :=
  (hp drawn).returns h

end Rules

section Answers

variable {robot : MockRobot} {header : ProtocolHeader} {payload : Nat → UInt8}

theorem errResponse_drawless (err : Int) : Drawless (errResponse err) :=
  (drawless_fromServer _).bind fun _ => drawless_pure _

theorem resultResponse_drawless (err : Int) : Drawless (resultResponse err) :=
  drawless_ite (fun _ => errResponse_drawless err) fun _ => drawless_fromServer _

theorem payloadResponse_drawless {size : Nat} {type : UInt8} {write : RobotProgram (List UInt8)}
    (hwrite : Drawless write) : Drawless (payloadResponse size type write) := by
  unfold payloadResponse
  apply (drawless_fromServer _).bind
  intro ctx
  cases ctx with
  | none => exact errResponse_drawless (-1)
  | some ctx => exact hwrite.bind fun _ => drawless_pure _

theorem byteResponse_drawless (type value : UInt8) : Drawless (payloadResponse 1 type (pure [value])) :=
  payloadResponse_drawless (drawless_pure _)

theorem echoTrajectory_drawless (robot : MockRobot) : Drawless (handleEchoTrajectory robot) := by
  unfold handleEchoTrajectory
  split
  · exact errResponse_drawless (-1)
  · exact payloadResponse_drawless (drawless_pure _)

theorem getGoalStatus_drawless (robot : MockRobot) (payload : Nat → UInt8) :
    Drawless (handleGetGoalStatus robot payload) := by
  unfold handleGetGoalStatus
  apply (drawless_fromServer _).bind
  intro ctx
  cases ctx with
  | none => exact errResponse_drawless (-1)
  | some ctx =>
      dsimp only
      apply drawless_call rfl
      intro block
      have hstatus : Drawless
          (mockRobotGetGoalStatus robot (payloadInt32 payload) (window block 0 sizeofGoalStatusPayload)) := by
        unfold mockRobotGetGoalStatus
        split
        · split
          · exact (drawless_fromServer _).bind fun _ => drawless_pure _
          · exact drawless_pure _
        · exact drawless_pure _
      apply hstatus.bind
      intro status
      cases status with
      | none => exact (drawless_fromServer _).bind fun _ => errResponse_drawless (-1)
      | some status => exact drawless_pure _

theorem drawless_answer {p : RobotProgram (Option ResponseContext)} (hp : Drawless p) (robot : MockRobot) :
    Drawless (p >>= fun answer => pure (answer, robot)) :=
  hp.bind fun _ => drawless_pure _

theorem stopMotion_drawless (robot : MockRobot) (payload : Nat → UInt8) :
    Drawless (handleStopMotion robot payload) := by
  unfold handleStopMotion
  dsimp only
  split
  · exact drawless_answer (byteResponse_drawless _ _) _
  · exact drawless_answer (byteResponse_drawless _ _) _

theorem sized_drawless {n : UInt32} {p : RobotProgram (Option ResponseContext × MockRobot)} (hp : Drawless p) :
    Drawless (if header.payloadLength ≠ n then errResponse (-1) >>= fun answer => pure (answer, robot) else p) :=
  drawless_ite (fun _ => drawless_answer (errResponse_drawless (-1)) _) fun _ => hp

theorem switch_moveGoal (htype : header.messageType = msgMoveGoal) :
    switchCommand robot header payload = handleMoveGoal robot header payload := by
  unfold switchCommand
  dsimp only
  rw [htype]
  iterate 5 rw [if_neg (by decide)]
  rw [if_pos rfl]

theorem switch_drawless (htype : header.messageType ≠ msgMoveGoal) :
    Drawless (switchCommand robot header payload) := by
  unfold switchCommand
  dsimp only
  refine drawless_ite (fun _ => ?_) fun _ => drawless_ite (fun _ => ?_) fun _ =>
    drawless_ite (fun _ => ?_) fun _ => drawless_ite (fun _ => ?_) fun _ =>
    drawless_ite (fun _ => ?_) fun _ => drawless_ite (fun h => absurd h htype) fun _ =>
    drawless_ite (fun _ => ?_) fun _ => drawless_ite (fun _ => ?_) fun _ =>
    drawless_ite (fun _ => ?_) fun _ => drawless_ite (fun _ => ?_) fun _ =>
    drawless_ite (fun _ => ?_) fun _ => drawless_ite (fun _ => ?_) fun _ =>
    drawless_ite (fun _ => ?_) fun _ => drawless_ite (fun _ => ?_) fun _ => ?_
  · exact drawless_answer (resultResponse_drawless _) _
  · refine Drawless.bind (drawless_call rfl fun _ => drawless_pure _) ?_
    rintro ⟨err, robot'⟩
    exact drawless_answer (resultResponse_drawless err) robot'
  · exact (drawless_fromServer _).bind fun _ => drawless_answer (resultResponse_drawless _) _
  · exact drawless_answer (resultResponse_drawless _) _
  · exact drawless_answer (resultResponse_drawless _) _
  · exact drawless_answer (echoTrajectory_drawless robot) _
  · exact sized_drawless (drawless_answer (resultResponse_drawless _) _)
  · exact sized_drawless (drawless_answer (byteResponse_drawless _ _) _)
  · exact sized_drawless (stopMotion_drawless robot payload)
  · exact sized_drawless (drawless_answer (resultResponse_drawless _) _)
  · exact sized_drawless (drawless_answer (getGoalStatus_drawless robot payload) _)
  · exact sized_drawless (drawless_answer (byteResponse_drawless _ _) _)
  · exact drawless_answer ((drawless_fromServer _).bind fun _ => drawless_pure _) _
  · exact drawless_answer (errResponse_drawless (-1)) _

theorem getErrorInfo_drawless (robot : MockRobot) : Drawless (mockRobotGetErrorInfoCallback robot) := by
  unfold mockRobotGetErrorInfoCallback
  apply drawless_ite
  · exact fun _ => drawless_answer (drawless_fromServer _) _
  · exact fun _ => (drawless_fromServer _).bind fun _ => drawless_pure _

theorem update_drawless (robot : MockRobot) : Drawless (mockRobotUpdateGoalProgress robot) := by
  have hgroups : ∀ groups, Drawless (updateGroups groups) := by
    intro groups
    induction groups with
    | nil => exact drawless_pure _
    | cons grp groups ih =>
        have hgroup : Drawless (updateGroupProgress grp) := by
          unfold updateGroupProgress
          apply drawless_ite
          · exact fun _ => drawless_pure _
          · intro _
            apply (drawless_fromServer _).bind
            intro now
            apply drawless_call rfl
            intro progress
            exact drawless_ite (fun _ => drawless_pure _) fun _ => drawless_pure _
        exact hgroup.bind fun _ => ih.bind fun _ => drawless_pure _
  exact (hgroups robot.groups).bind fun _ => drawless_pure _

theorem storeTrajectory_drawless (grp : MockGroupState) (goal : Nat → UInt8) :
    Drawless (storeTrajectory grp goal) := by
  unfold storeTrajectory
  have hfree : Drawless (freeTrajectory grp) := by
    unfold freeTrajectory
    split
    · exact drawless_fromServer _
    · exact drawless_pure _
  apply hfree.bind
  intro _
  apply (drawless_fromServer _).bind
  intro block
  cases block with
  | none => exact drawless_pure _
  | some block =>
      dsimp only
      apply drawless_call rfl
      intro fresh
      rw [deepCopied_whole]
      exact drawless_pure _

end Answers

/-- What a command can draw: an id for a goal that a group begins to follow; without one, a move goal
sets no group in motion. -/
inductive CommandDraws (groups : List MockGroupState) (header : ProtocolHeader) (payload : Nat → UInt8) :
    List Int → MockRobot → Prop where
  | nothing {robot' : MockRobot}
      (h : header.messageType = msgMoveGoal → ∀ (i : Nat) (grp grp' : MockGroupState),
        groups[i]? = some grp → robot'.groups[i]? = some grp' →
        grp'.hasActiveGoal = grp.hasActiveGoal) : CommandDraws groups header payload [] robot'
  | goal {grp : MockGroupState} {robot' : MockRobot} (htype : header.messageType = msgMoveGoal)
      (hgrp : groups[groupIndexOf payload]? = some grp) (hidle : grp.hasActiveGoal = false)
      (stored : Option StoredTrajectory) (goalId : GoalId) (now : Int)
      (hgroups : robot'.groups = groups.modify (groupIndexOf payload) fun _ =>
        (grp.store stored).follow goalId.value now) :
      CommandDraws groups header payload [goalId.value] robot'

section Commands

variable {robot robot' : MockRobot} {header : ProtocolHeader} {payload : Nat → UInt8} {drawn : List Int}
  {answer : Option ResponseContext} {result : Int}

theorem returns_ite {α : Type} {P : Prop} [Decidable P] {p q : RobotProgram α} {a : α} {drawn drawn' : List Int}
    (h : (if P then p else q).Returns drawing drawn a drawn') :
    (P ∧ p.Returns drawing drawn a drawn') ∨ (¬ P ∧ q.Returns drawing drawn a drawn') := by
  split at h
  · next hP => exact Or.inl ⟨hP, h⟩
  · next hP => exact Or.inr ⟨hP, h⟩

theorem returns_answer {p : RobotProgram (Option ResponseContext)} (hp : Drawless p) {drawn' : List Int}
    (h : (p >>= fun answer => pure (answer, robot)).Returns drawing drawn (answer, robot') drawn') :
    drawn' = drawn ∧ robot' = robot := by
  refine ⟨(drawless_answer hp robot).same h, ?_⟩
  obtain ⟨-, hrobot⟩ := yields_answer h.yields
  exact hrobot

theorem draws_nothing (robot : MockRobot) (header : ProtocolHeader) (payload : Nat → UInt8) :
    CommandDraws robot.groups header payload [] robot := by
  refine .nothing fun _ i grp grp' hgrp hgrp' => ?_
  obtain rfl := Option.some.inj (hgrp.symm.trans hgrp')
  rfl

/-- A goal is drawn when its trajectory has been stored. -/
theorem acceptGoal_draws (h : (mockRobotAcceptGoal robot payload).Returns drawing [] (result, robot') drawn)
    (htype : header.messageType = msgMoveGoal) : CommandDraws robot.groups header payload drawn robot' := by
  have hsame := draws_nothing robot header payload
  unfold mockRobotAcceptGoal at h
  rcases returns_ite h with ⟨-, h⟩ | ⟨-, h⟩
  · obtain ⟨hresult, rfl⟩ := h
    cases hresult
    exact hsame
  dsimp only at h
  cases hgrp : robot.groups[groupIndexOf payload]? with
  | none =>
      rw [hgrp] at h
      obtain ⟨hresult, rfl⟩ := h
      cases hresult
      exact hsame
  | some grp =>
      rw [hgrp] at h
      dsimp only at h
      rcases returns_ite h with ⟨-, h⟩ | ⟨hidle, h⟩
      · obtain ⟨hresult, rfl⟩ := h
        cases hresult
        exact hsame
      rw [returns_bind] at h
      obtain ⟨⟨stored, grp'⟩, _, hstore, h⟩ := h
      obtain rfl := (storeTrajectory_drawless grp payload).same hstore
      have hkept : ∃ kept, grp' = grp.store kept := by
        rcases storeTrajectory_yields hstore.yields with ⟨-, rfl⟩ | ⟨fresh, block, -, rfl⟩
        · exact ⟨_, rfl⟩
        · exact ⟨_, rfl⟩
      obtain ⟨kept, rfl⟩ := hkept
      dsimp only at h
      rcases returns_ite h with ⟨-, h⟩ | ⟨-, h⟩
      · obtain ⟨hresult, rfl⟩ := h
        cases hresult
        refine .nothing fun _ i other other' hother hother' => ?_
        rw [MockRobot.modifyGroup, List.getElem?_modify, hother] at hother'
        by_cases hi : groupIndexOf payload = i
        · subst hi
          obtain rfl := Option.some.inj (hgrp.symm.trans hother)
          obtain rfl : _ = other' := Option.some.inj (by simpa using hother')
          rfl
        · obtain rfl : other = other' := Option.some.inj (by simpa [hi] using hother')
          rfl
      · obtain ⟨goalId, -, now, -, hresult, rfl⟩ := h
        cases hresult
        exact .goal htype hgrp (Bool.eq_false_iff.mpr hidle) kept goalId _ rfl

theorem moveGoal_draws (h : (handleMoveGoal robot header payload).Returns drawing [] (answer, robot') drawn)
    (htype : header.messageType = msgMoveGoal) : CommandDraws robot.groups header payload drawn robot' := by
  unfold handleMoveGoal at h
  split at h
  · rw [returns_bind] at h
    obtain ⟨⟨goalId, robot₁⟩, drawn₁, haccept, h⟩ := h
    have hdraws := acceptGoal_draws haccept htype
    dsimp only at h
    rcases returns_ite h with ⟨-, h⟩ | ⟨-, h⟩
    · obtain ⟨rfl, rfl⟩ := returns_answer (errResponse_drawless goalId) h
      exact hdraws
    · have htimestamp : ∀ now : UInt64, Drawless (pure (bytes32 goalId ++
          littleEndian 4 (trajectoryCount payload) ++ littleEndian 8 now.toNat)) := fun _ => drawless_pure _
      have hresponse := @payloadResponse_drawless sizeofGoalAcceptedPayload msgGoalAccepted _
        ((drawless_fromServer getTimestampMs).bind htimestamp)
      obtain ⟨rfl, rfl⟩ := returns_answer hresponse h
      exact hdraws
  · obtain ⟨rfl, rfl⟩ := returns_answer (errResponse_drawless (-1)) h
    exact draws_nothing _ header payload

theorem switch_draws (h : (switchCommand robot header payload).Returns drawing [] (answer, robot') drawn) :
    CommandDraws robot.groups header payload drawn robot' := by
  by_cases htype : header.messageType = msgMoveGoal
  · rw [switch_moveGoal htype] at h
    exact moveGoal_draws h htype
  · obtain rfl := (switch_drawless htype).same h
    exact .nothing fun hmove => absurd hmove htype

theorem command_draws (h : (RobotEvent.command header payload drawn answer).Leads robot robot') :
    CommandDraws robot.groups header payload drawn robot' := by
  have hdraws : CommandDraws { robot with commandCount := robot.commandCount + 1 }.groups header payload
      drawn robot' := switch_draws h
  exact hdraws

theorem leads_of_yields (htype : header.messageType ≠ msgMoveGoal)
    (h : (switchCommand { robot with commandCount := robot.commandCount + 1 } header payload).Yields
      (answer, robot')) : (RobotEvent.command header payload [] answer).Leads robot robot' :=
  (switch_drawless htype).returns h []

theorem leads_of_exec {σ : Type} {handle : (c : robotSignature.Call) → σ → Option (robotSignature.Result c) × σ}
    {s t : σ} (h : (mockRobotHandleCommand robot header payload).exec handle s = (some (answer, robot'), t)) :
    ∃ drawn, (RobotEvent.command header payload drawn answer).Leads robot robot' := by
  have hallowed : ∀ drawn c r, drawing.allowed drawn c r := fun _ _ _ => trivial
  exact (yields_of_exec h).returns hallowed []

end Commands

section Accepting

variable {robot : MockRobot} {header : ProtocolHeader} {payload : Nat → UInt8} {grp : MockGroupState}

/-- The answer that accepts a goal, in these blocks. -/
def goalAccepted (goalId : GoalId) (payload : Nat → UInt8) (now : UInt64) : ResponseContext :=
  ⟨0, 1, ⟨protocolMagicNumber, protocolVersion, msgGoalAccepted, now, UInt32.ofNat sizeofGoalAcceptedPayload⟩,
    some (2, bytes32 goalId.value ++ littleEndian 4 (trajectoryCount payload) ++ littleEndian 8 now.toNat)⟩

theorem yields_freeTrajectory (grp : MockGroupState) : (freeTrajectory grp).Yields () := by
  unfold freeTrajectory
  split
  · exact Exists.intro () rfl
  · rfl

theorem storeTrajectory_stores (grp : MockGroupState) (goal fresh : Nat → UInt8) (block : Nat) :
    (storeTrajectory grp goal).Yields (true, grp.store (some (storedCopy goal fresh block))) := by
  have hcut : (UInt32.ofNat (moveGoalSize goal)).toNat = uint32 (moveGoalSize goal) :=
    UInt32.toNat_ofNat'
  unfold storeTrajectory
  rw [yields_bind]
  refine ⟨(), yields_freeTrajectory grp, ?_⟩
  rw [yields_bind]
  refine ⟨some block, ⟨some block, rfl⟩, ?_⟩
  dsimp only
  rw [yields_bind]
  refine ⟨fresh, ⟨fresh, rfl⟩, ?_⟩
  rw [deepCopied_whole, hcut]
  rfl

theorem acceptGoal_follows (hpower : robot.servoPowerOn = true)
    (hgrp : robot.groups[groupIndexOf payload]? = some grp)
    (hidle : grp.hasActiveGoal = false) (fresh : Nat → UInt8) (block : Nat) (goalId : GoalId) (now : UInt64) :
    (mockRobotAcceptGoal robot payload).Returns drawing [] (goalId.value,
      robot.modifyGroup (groupIndexOf payload) fun _ =>
        (grp.store (some (storedCopy payload fresh block))).follow goalId.value (signed64 now))
      [goalId.value] := by
  rw [mockRobotAcceptGoal, if_neg (by simp [hpower])]
  dsimp only
  rw [hgrp]
  dsimp only
  have hstores := storeTrajectory_stores grp payload fresh block
  rw [if_neg (by simp [hidle]), returns_bind]
  refine ⟨_, [], (storeTrajectory_drawless grp payload).returns hstores [], ?_⟩
  dsimp only
  rw [if_neg (by simp)]
  exact Exists.intro goalId ⟨trivial, Exists.intro now ⟨trivial, rfl, rfl⟩⟩

theorem moveGoal_follows (htype : header.messageType = msgMoveGoal)
    (hvalid : (validateMoveGoal payload header.payloadLength).1 = some (some 0))
    (hpower : robot.servoPowerOn = true) (hgrp : robot.groups[groupIndexOf payload]? = some grp)
    (hidle : grp.hasActiveGoal = false) (fresh : Nat → UInt8) (block : Nat) (goalId : GoalId) (now : UInt64) :
    (switchCommand robot header payload).Returns drawing [] (some (goalAccepted goalId payload now),
      robot.modifyGroup (groupIndexOf payload) fun _ =>
        (grp.store (some (storedCopy payload fresh block))).follow goalId.value (signed64 now))
      [goalId.value] := by
  have hpos := goalId.pos
  rw [switch_moveGoal htype, handleMoveGoal, hvalid]
  dsimp only
  rw [returns_bind]
  refine ⟨_, [goalId.value], acceptGoal_follows hpower hgrp hidle fresh block goalId now, ?_⟩
  dsimp only
  rw [if_neg (by omega)]
  -- the three blocks of the answer, and the times in its header and its payload
  exact Exists.intro (some 0) ⟨trivial, Exists.intro (some 1) ⟨trivial, Exists.intro now ⟨trivial,
    Exists.intro (some 2) ⟨trivial, Exists.intro now ⟨trivial, rfl, rfl⟩⟩⟩⟩⟩

end Accepting

end YaskawaComms.Robot
