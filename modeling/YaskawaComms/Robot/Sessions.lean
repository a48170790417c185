import YaskawaComms.Robot.Goals

/-!
# Sessions

The mock robot behind the server: the callbacks answer each frame as the robot does, and the robot is
updated in between. What the client reads tells it about its goals.
-/

namespace YaskawaComms.Robot

open Protocol Program Server

/-- In this environment the frame is answered as the robot does. -/
inductive Asks (env : Environment) (f : Frame) : RobotEvent → Prop where
  | command {payload : Nat → UInt8} {drawn : List Int} {answer : Option ResponseContext}
      (hregister : f.header.messageType ≠ msgRegisterUdpPort)
      (herror : f.header.messageType ≠ msgGetErrorInfo) (hpayload : HoldsBytes payload 0 f.payload)
      (hanswer : env.handleCommand f.header f.payload = answer.map ResponseContext.reply) :
      Asks env f (.command f.header payload drawn answer)
  | errorInfo {answer : Option ResponseContext} (htype : f.header.messageType = msgGetErrorInfo)
      (hanswer : env.getErrorInfo = answer.map ResponseContext.reply) : Asks env f (.errorInfo answer)

/-- The robot is asked about each frame but registrations, and is updated at any time. -/
inductive Serves : List (Environment × Frame) → List RobotEvent → Prop where
  | done : Serves [] []
  | updated {handled : List (Environment × Frame)} {events : List RobotEvent}
      (rest : Serves handled events) : Serves handled (.update :: events)
  | registered {env : Environment} {f : Frame} {handled : List (Environment × Frame)}
      {events : List RobotEvent} (htype : f.header.messageType = msgRegisterUdpPort)
      (rest : Serves handled events) : Serves ((env, f) :: handled) events
  | asked {env : Environment} {f : Frame} {e : RobotEvent} {handled : List (Environment × Frame)}
      {events : List RobotEvent} (h : Asks env f e) (rest : Serves handled events) :
      Serves ((env, f) :: handled) (e :: events)

/-- The server has both callbacks. -/
structure Calling (cfg : ServerConfig) : Prop where
  handleCommand : cfg.handleCommand = true
  getErrorInfo : cfg.getErrorInfo = true

/-- The lengths that a move goal announces do not wrap. -/
def FitsFrame (f : Frame) : Prop :=
  f.header.messageType = msgMoveGoal → ∀ data, HoldsBytes data 0 f.payload → LengthsFit data f.header.payloadLength

/-- The same for the robot, which is given no larger payload than the server takes. -/
def RobotEvent.Fits : RobotEvent → Prop
  | .command header payload _ _ => header.messageType = msgMoveGoal →
      LengthsFit payload header.payloadLength ∧ header.payloadLength.toNat ≤ maxPayloadSize
  | _ => True

theorem wellFormed_of_validated {data : Nat → UInt8} {size : UInt32}
    (h : (validateMoveGoal data size).1 = some (some 0)) (hfits : LengthsFit data size) :
    WellFormedMoveGoal data size.toNat := by
  obtain ⟨hheader, hpoints, htrajectory, hmatching, hall⟩ :=
    (validateMoveGoal_accepts_iff data size).mp ⟨0, h⟩
  have hlt := size.toNat_lt
  obtain ⟨hstart, hcomplete⟩ := hfits hheader (by omega) htrajectory
  rw [Nat.mod_eq_of_lt hstart] at htrajectory
  have hall : 16 + 264 * trajectoryCount data + 256 * toleranceCount data ≤ size.toNat := by
    rcases hmatching with hnone | hsame
    · rw [hnone] at hall ⊢
      omega
    · have hlimit := hcomplete hsame
      rw [Nat.mod_eq_of_lt (by omega)] at hall
      exact hall
  exact ⟨hheader, by omega, htrajectory, hmatching, by omega⟩

section Stored

/-- What is sent when the trajectory is echoed. -/
def StoredTrajectory.echo (stored : StoredTrajectory) : List UInt8 :=
  window stored.memory 0 (moveGoalSize stored.memory)

/-- What is stored in this group, if anything, can be sent. -/
def MockGroupState.Sendable (grp : MockGroupState) : Prop :=
  ∀ stored, grp.storedTrajectory = some stored → moveGoalSize stored.memory ≤ maxPayloadSize

variable {goal fresh : Nat → UInt8} {size block : Nat}

theorem moveGoalSize_eq (goal : Nat → UInt8) :
    moveGoalSize goal = 16 + 264 * trajectoryCount goal + 256 * toleranceCount goal :=
  moveGoalCalcSize_eq (trajectoryCount_lt goal) (toleranceCount_lt goal)

theorem storedCopy_agrees (hwell : WellFormedMoveGoal goal size) (hsize : size < 2 ^ 32) :
    moveGoalSize (storedCopy goal fresh block).memory = moveGoalSize goal ∧
      moveGoalSize goal ≤ size ∧
      ∀ i, i < moveGoalSize goal → (storedCopy goal fresh block).memory i = goal i := by
  have hle : moveGoalSize goal ≤ size := by
    have htolerances := hwell.tolerances
    rw [moveGoalSize_eq]
    omega
  have hagree : ∀ i, i < moveGoalSize goal → (storedCopy goal fresh block).memory i = goal i := by
    intro i hi
    apply splice_below
    rwa [uint32_eq (hle.trans_lt hsize)]
  rw [moveGoalSize_eq goal] at hagree
  obtain ⟨htrajectory, htolerances⟩ := counts_congr hagree
  refine ⟨?_, hle, ?_⟩
  · rw [moveGoalSize_eq, moveGoalSize_eq, htrajectory, htolerances]
  · rw [moveGoalSize_eq goal]
    exact hagree

theorem storedCopy_echo {goal : MoveGoal} {data : Nat → UInt8} (hsize : goal.payload.length < 2 ^ 32)
    (hdata : HoldsBytes data 0 goal.payload) : (storedCopy data fresh block).echo = goal.payload := by
  have hplaced := goal.placed hsize hdata
  have hlength : moveGoalSize data = goal.payload.length := by
    rw [moveGoalSize_eq, goal.payload_length, hplaced.trajectoryCount, hplaced.toleranceCount]
  have hwell : WellFormedMoveGoal data goal.payload.length := by
    rw [goal.payload_length]
    constructor
    · omega
    · rw [hplaced.trajectoryCount]
      exact goal.points
    · rw [hplaced.trajectoryCount]
      omega
    · rw [hplaced.trajectoryCount, hplaced.toleranceCount]
      exact goal.matching
    · rw [hplaced.trajectoryCount, hplaced.toleranceCount]
      omega
  obtain ⟨hsame, -, hagree⟩ : moveGoalSize (storedCopy data fresh block).memory = _ ∧ _ ∧ _ :=
    storedCopy_agrees hwell hsize
  rw [StoredTrajectory.echo, hsame, hlength, window_congr (fun i hi => hagree i (hlength ▸ hi))
    (Nat.zero_add _).le]
  exact hdata

theorem GroupStep.sendable {e : RobotEvent} {i : Nat} {grp grp' : MockGroupState}
    (h : GroupStep e i grp grp') (hfits : e.Fits) (hsendable : grp.Sendable) : grp'.Sendable := by
  cases h with
  | same => exact hsendable
  | started => exact hsendable
  | lost =>
      intro stored hstored
      cases hstored
  | accepted he h hvalid hidle fresh block goalId now =>
      intro stored hstored
      obtain rfl := Option.some.inj hstored
      subst he
      obtain ⟨hlengths, hmax⟩ := hfits h.1
      obtain ⟨hsize, hle, -⟩ : moveGoalSize (storedCopy _ fresh block).memory = _ ∧ _ ∧ _ :=
        storedCopy_agrees (wellFormed_of_validated hvalid hlengths) (UInt32.toNat_lt _)
      exact (hsize.trans_le hle).trans hmax
  | stopped => exact hsendable
  | cancelled => exact hsendable
  | progressed => exact hsendable
  | succeeded => exact hsendable

end Stored

/-- The message that a frame is answered with. -/
def answerOf (cfg : ServerConfig) (p : Environment × Frame) : ProtocolHeader × List UInt8 :=
  (response cfg p.1 p.2.header p.2.payload).message

section Answers

variable {cfg : ServerConfig} {env : Environment} {f : Frame} {e : RobotEvent} {robot robot' : MockRobot}
  {ctx : ResponseContext}

theorem errorReply_readable (env : Environment) (err : ErrorPayload) : (errorReply env err).Readable :=
  ⟨errorReply_built err, (by decide : (UInt32.ofNat sizeofErrorPayload).toNat ≤ maxPayloadSize)⟩

theorem Plain.readable (h : Plain (some ctx)) : ctx.reply.Readable := by
  obtain ⟨type, bytes, hcarries, hsize, -⟩ := h ctx rfl
  exact hcarries.readable (hsize.trans (by decide))

theorem leads_readable (h : e.Leads robot robot') (hsendable : ∀ grp ∈ robot.groups, grp.Sendable)
    (hanswer : e.answer = some ctx) : ctx.reply.Readable := by
  cases e with
  | command header payload drawn answer =>
      obtain rfl : answer = some ctx := hanswer
      cases command_step h with
      | plain _ hplain => exact hplain.readable
      | accepted _ _ _ _ _ _ _ _ _ _ hcarries =>
          apply hcarries.readable
          simp only [List.length_append, bytes32_length, littleEndian_length]
          decide
      | echoed _ _ hstored _ hcarries =>
          obtain ⟨grp, hgrp, hstored⟩ := Option.bind_eq_some_iff.mp hstored
          have hsize := hsendable grp (List.mem_of_getElem? hgrp) _ hstored
          apply (hcarries (hsize.trans_lt (by decide))).readable
          rwa [window_length]
      | reported _ _ hstatus hcarries =>
          apply hcarries.readable
          rw [hstatus.length]
          decide
  | errorInfo answer =>
      obtain rfl : answer = some ctx := hanswer
      exact (getErrorInfo_step h).2.readable
  | _ => cases hanswer

theorem Asks.response (h : Asks env f e) (hcalls : Calling cfg) :
    response cfg env f.header f.payload =
      (e.answer.map ResponseContext.reply).getD (errorReply env ⟨-1, []⟩) := by
  cases h with
  | command hregister herror _ hanswer =>
      rw [Server.response, if_neg hregister, callbackReply, if_neg herror, if_pos hcalls.handleCommand, hanswer]
      rfl
  | errorInfo htype hanswer =>
      rw [Server.response, if_neg (by rw [htype]; decide), callbackReply, if_pos htype,
        if_pos hcalls.getErrorInfo, hanswer]
      rfl

theorem registered_response (cfg : ServerConfig) (env : Environment)
    (htype : f.header.messageType = msgRegisterUdpPort) :
    (response cfg env f.header f.payload).Readable ∧
      (answerOf cfg (env, f)).1.messageType ∉ goalAnswers := by
  rw [answerOf]
  dsimp only
  rw [Server.response, if_pos htype]
  split
  · exact ⟨⟨okReply_built, Nat.zero_le _⟩, (by decide : msgOk ∉ goalAnswers)⟩
  · exact ⟨errorReply_readable _ _, (by decide : msgError ∉ goalAnswers)⟩

end Answers

/-- A move goal for the first group. -/
def MovesFirst (f : Frame) : Prop :=
  f.header.messageType = msgMoveGoal ∧ ∃ data, HoldsBytes data 0 f.payload ∧ groupIndexOf data = 0

/-- What the first group has stored is sent as these bytes. -/
def Holds (bytes : List UInt8) (robot : MockRobot) : Prop :=
  ∃ stored, robot.groups[0]? >>= MockGroupState.storedTrajectory = some stored ∧ stored.echo = bytes

section Holding

variable {bytes : List UInt8} {e : RobotEvent} {robot robot' : MockRobot}

theorem GroupStep.stored {i : Nat} {grp grp' : MockGroupState} (h : GroupStep e i grp grp')
    (hmoves : ¬ e.MovesGroup i) : grp'.storedTrajectory = grp.storedTrajectory := by
  cases h with
  | lost h => exact absurd h hmoves
  | accepted _ h => exact absurd h hmoves
  | _ => rfl

theorem Holds.leads (h : Holds bytes robot) (hleads : e.Leads robot robot') (hmoves : ¬ e.MovesGroup 0) :
    Holds bytes robot' := by
  obtain ⟨stored, hstored, hecho⟩ := h
  obtain ⟨grp, hgrp, hstored⟩ := Option.bind_eq_some_iff.mp hstored
  obtain ⟨grp', hgrp', hstep⟩ := (leads_groups hleads).group 0 grp hgrp
  refine ⟨stored, ?_, hecho⟩
  rw [hgrp']
  exact (hstep.stored hmoves).trans hstored

theorem holds_of_accepted {header : ProtocolHeader} {payload : Nat → UInt8} {drawn : List Int}
    {ctx : ResponseContext}
    (h : (RobotEvent.command header payload drawn (some ctx)).Leads robot robot')
    (haccepted : ctx.header.messageType = msgGoalAccepted) {goal : MoveGoal} (hgroup : goal.groupIndex = 0)
    (hsize : goal.payload.length < 2 ^ 32) (hpayload : HoldsBytes payload 0 goal.payload) :
    Holds goal.payload robot' := by
  cases command_step h with
  | plain _ hplain => exact absurd (haccepted ▸ hplain.type) (by decide)
  | echoed _ _ _ hecho =>
      rw [haccepted] at hecho
      exact absurd hecho (by decide)
  | reported _ _ _ hcarries =>
      rw [hcarries.type] at haccepted
      exact absurd haccepted (by decide)
  | accepted _ _ hgrp hidle fresh block goalId now timestamp hgroups =>
      have hindex : groupIndexOf payload = 0 := by
        have hgroupIndex : groupIndexOf payload = goal.groupIndex.toNat :=
          (goal.placed hsize hpayload).group
        rw [hgroupIndex, hgroup]
        rfl
      rw [hindex] at hgrp hgroups
      refine ⟨storedCopy payload fresh block, ?_, storedCopy_echo hsize hpayload⟩
      rw [hgroups, List.getElem?_modify, hgrp]
      rfl

theorem echoed_of_holds {header : ProtocolHeader} {payload : Nat → UInt8} {drawn : List Int}
    {ctx : ResponseContext}
    (h : (RobotEvent.command header payload drawn (some ctx)).Leads robot robot') (hholds : Holds bytes robot)
    (hsendable : ∀ grp ∈ robot.groups, grp.Sendable)
    (hecho : ctx.header.messageType = msgEchoTrajectory) : ctx.reply.message.2 = bytes := by
  cases command_step h with
  | plain _ hplain => exact absurd (hecho ▸ hplain.type) (by decide)
  | accepted _ _ _ _ _ _ _ _ _ _ hcarries =>
      rw [hcarries.type] at hecho
      exact absurd hecho (by decide)
  | reported _ _ _ hcarries =>
      rw [hcarries.type] at hecho
      exact absurd hecho (by decide)
  | echoed _ _ hstored _ hcarries =>
      obtain ⟨stored, hheld, rfl⟩ := hholds
      obtain rfl := Option.some.inj (hstored.symm.trans hheld)
      obtain ⟨grp, hgrp, hstored⟩ := Option.bind_eq_some_iff.mp hstored
      have hsize := hsendable grp (List.mem_of_getElem? hgrp) _ hstored
      rw [(hcarries (hsize.trans_lt (by decide))).message]
      rfl

end Holding

section Serving

variable {cfg : ServerConfig} {handled : List (Environment × Frame)} {events : List RobotEvent}
  {robot robot' : MockRobot}

theorem Serves.fits (h : Serves handled events) (hfits : ∀ p ∈ handled, FitsFrame p.2)
    (hsizes : ∀ p ∈ handled, p.2.header.payloadLength.toNat ≤ maxPayloadSize) : ∀ e ∈ events, e.Fits := by
  induction h with
  | done => exact List.forall_mem_nil _
  | updated _ ih => exact List.forall_mem_cons.mpr ⟨trivial, ih hfits hsizes⟩
  | registered _ _ ih =>
      exact ih (List.forall_mem_cons.mp hfits).2 (List.forall_mem_cons.mp hsizes).2
  | asked hasks _ ih =>
      obtain ⟨hfit, hfits⟩ := List.forall_mem_cons.mp hfits
      obtain ⟨hsize, hsizes⟩ := List.forall_mem_cons.mp hsizes
      refine List.forall_mem_cons.mpr ⟨?_, ih hfits hsizes⟩
      cases hasks with
      | command _ _ hpayload => exact fun htype => ⟨hfit htype _ hpayload, hsize⟩
      | errorInfo => trivial

theorem sendable_of_runs (hruns : robot.Runs events robot') (hfits : ∀ e ∈ events, e.Fits)
    (hstart : ∀ grp ∈ robot.groups, grp.Sendable) : ∀ grp ∈ robot'.groups, grp.Sendable :=
  groups_of_runs hruns hstart fun e he _ _ _ hstep => hstep.sendable (hfits e he)

theorem init_sendable (groups : List (UInt8 × UInt8)) :
    ∀ grp ∈ (mockRobotInitMulti groups).groups, grp.Sendable := by
  intro grp hgrp stored hstored
  obtain ⟨_, _, rfl⟩ := List.mem_map.mp hgrp
  cases hstored

theorem sendable_leads {e : RobotEvent} (hleads : e.Leads robot robot') (hfits : e.Fits)
    (h : ∀ grp ∈ robot.groups, grp.Sendable) : ∀ grp ∈ robot'.groups, grp.Sendable :=
  groups_of_leads hleads h fun _ _ _ hstep => hstep.sendable hfits

theorem Serves.readable (h : Serves handled events) (hcalls : Calling cfg) (hruns : robot.Runs events robot')
    (hfits : ∀ e ∈ events, e.Fits) (hsendable : ∀ grp ∈ robot.groups, grp.Sendable) :
    ∀ p ∈ handled, (response cfg p.1 p.2.header p.2.payload).Readable := by
  induction h generalizing robot with
  | done => exact List.forall_mem_nil _
  | updated _ ih =>
      obtain ⟨next, hleads, hruns⟩ := hruns
      obtain ⟨hfit, hfits⟩ := List.forall_mem_cons.mp hfits
      exact ih hruns hfits (sendable_leads hleads hfit hsendable)
  | registered htype _ ih =>
      exact List.forall_mem_cons.mpr ⟨(registered_response cfg _ htype).1, ih hruns hfits hsendable⟩
  | @asked env f e _ _ hasks _ ih =>
      obtain ⟨next, hleads, hruns⟩ := hruns
      obtain ⟨hfit, hfits⟩ := List.forall_mem_cons.mp hfits
      refine List.forall_mem_cons.mpr ⟨?_, ih hruns hfits (sendable_leads hleads hfit hsendable)⟩
      rw [hasks.response hcalls]
      cases hanswer : e.answer with
      | none => exact errorReply_readable _ _
      | some ctx => exact leads_readable hleads hsendable hanswer

theorem Asks.context {env : Environment} {f : Frame} {e : RobotEvent} (h : Asks env f e)
    (hcalls : Calling cfg) (hleads : e.Leads robot robot')
    (htype : (answerOf cfg (env, f)).1.messageType ∈ goalAnswers) :
    ∃ payload drawn ctx, HoldsBytes payload 0 f.payload ∧ e = .command f.header payload drawn (some ctx) ∧
      answerOf cfg (env, f) = ctx.reply.message := by
  have hresponse : answerOf cfg (env, f) =
      ((e.answer.map ResponseContext.reply).getD (errorReply env ⟨-1, []⟩)).message :=
    congrArg Reply.message (h.response hcalls)
  cases hanswer : e.answer with
  | none =>
      rw [hresponse, hanswer] at htype
      exact absurd htype (by decide : msgError ∉ goalAnswers)
  | some ctx =>
      rw [hanswer] at hresponse
      cases h with
      | @command payload drawn answer _ _ hpayload =>
          obtain rfl : answer = some ctx := hanswer
          exact ⟨payload, drawn, ctx, hpayload, rfl, hresponse⟩
      | @errorInfo answer =>
          obtain rfl : answer = some ctx := hanswer
          rw [hresponse] at htype
          exact absurd htype (getErrorInfo_step hleads).2.type

/-- Nothing in between moves the first group: what it has stored is echoed. -/
theorem Serves.echoes (h : Serves handled events) (hcalls : Calling cfg) (hruns : robot.Runs events robot')
    (hfits : ∀ e ∈ events, e.Fits) (hsendable : ∀ grp ∈ robot.groups, grp.Sendable) {bytes : List UInt8}
    (hholds : Holds bytes robot) {j : Nat} {p : Environment × Frame} (hp : handled[j]? = some p)
    (hbetween : ∀ k q, k < j → handled[k]? = some q → ¬ MovesFirst q.2)
    (hecho : (answerOf cfg p).1.messageType = msgEchoTrajectory) : (answerOf cfg p).2 = bytes := by
  induction h generalizing robot j with
  | done => cases hp
  | updated _ ih =>
      obtain ⟨next, hleads, hruns⟩ := hruns
      obtain ⟨hfit, hrestfits⟩ := List.forall_mem_cons.mp hfits
      exact ih hruns hrestfits (sendable_leads hleads hfit hsendable) (hholds.leads hleads id) hp hbetween
  | @registered env f _ _ htype _ ih =>
      cases j with
      | zero =>
          obtain rfl := Option.some.inj hp
          have hother := (registered_response cfg env htype).2
          rw [hecho] at hother
          exact absurd (by decide) hother
      | succ j =>
          exact ih hruns hfits hsendable hholds hp fun k q hk hq => hbetween (k + 1) q (by omega) hq
  | @asked env f e _ _ hasks _ ih =>
      obtain ⟨next, hleads, hruns⟩ := hruns
      obtain ⟨hfit, hrestfits⟩ := List.forall_mem_cons.mp hfits
      cases j with
      | zero =>
          obtain rfl := Option.some.inj hp
          obtain ⟨payload, drawn, ctx, -, rfl, hanswer⟩ := hasks.context hcalls hleads (hecho ▸ by decide)
          rw [hanswer] at hecho ⊢
          exact echoed_of_holds hleads hholds hsendable hecho
      | succ j =>
          have hmoves : ¬ e.MovesGroup 0 := by
            intro hmoves
            cases hasks with
            | command _ _ hpayload => exact hbetween 0 _ (by omega) rfl ⟨hmoves.1, _, hpayload, hmoves.2⟩
            | errorInfo => exact hmoves
          exact ih hruns hrestfits (sendable_leads hleads hfit hsendable) (hholds.leads hleads hmoves) hp
            fun k q hk hq => hbetween (k + 1) q (by omega) hq

/-- A goal that is accepted is echoed. -/
theorem Serves.goal_echoes (h : Serves handled events) (hcalls : Calling cfg)
    (hruns : robot.Runs events robot') (hfits : ∀ e ∈ events, e.Fits)
    (hsendable : ∀ grp ∈ robot.groups, grp.Sendable) {goal : MoveGoal} (hgroup : goal.groupIndex = 0)
    (hsize : goal.payload.length < 2 ^ 32) {i j : Nat} {p q : Environment × Frame} (hij : i < j)
    (hp : handled[i]? = some p) (hq : handled[j]? = some q) (hpayload : p.2.payload = goal.payload)
    (haccepted : (answerOf cfg p).1.messageType = msgGoalAccepted)
    (hecho : (answerOf cfg q).1.messageType = msgEchoTrajectory)
    (hbetween : ∀ k r, i < k → k < j → handled[k]? = some r → ¬ MovesFirst r.2) :
    (answerOf cfg q).2 = goal.payload := by
  induction h generalizing robot i j with
  | done => cases hp
  | updated _ ih =>
      obtain ⟨next, hleads, hruns⟩ := hruns
      obtain ⟨hfit, hrestfits⟩ := List.forall_mem_cons.mp hfits
      exact ih hruns hrestfits (sendable_leads hleads hfit hsendable) hij hp hq hbetween
  | @registered env f _ _ htype _ ih =>
      cases i with
      | zero =>
          obtain rfl := Option.some.inj hp
          have hother := (registered_response cfg env htype).2
          rw [haccepted] at hother
          exact absurd (by decide) hother
      | succ i =>
          cases j with
          | zero => omega
          | succ j =>
              exact ih hruns hfits hsendable (by omega) hp hq fun k r hik hkj hr =>
                hbetween (k + 1) r (by omega) (by omega) hr
  | @asked env f e _ _ hasks hrest ih =>
      obtain ⟨next, hleads, hruns⟩ := hruns
      obtain ⟨hfit, hrestfits⟩ := List.forall_mem_cons.mp hfits
      have hsendable' := sendable_leads hleads hfit hsendable
      cases j with
      | zero => omega
      | succ j =>
          cases i with
          | zero =>
              obtain rfl := Option.some.inj hp
              obtain ⟨payload, drawn, ctx, hdata, rfl, hanswer⟩ := hasks.context hcalls hleads (haccepted ▸ by decide)
              rw [hanswer] at haccepted
              rw [show f.payload = goal.payload from hpayload] at hdata
              exact hrest.echoes hcalls hruns hrestfits hsendable'
                (holds_of_accepted hleads haccepted hgroup hsize hdata) hq
                (fun k r hk hr => hbetween (k + 1) r (by omega) (by omega) hr) hecho
          | succ i =>
              exact ih hruns hrestfits hsendable' (by omega) hp hq fun k r hik hkj hr =>
                hbetween (k + 1) r (by omega) (by omega) hr

end Serving

/-- The goal id and the state in a status. -/
def reportedState (m : ProtocolHeader × List UInt8) : Option (Int × UInt8) :=
  if m.1.messageType = msgGoalStatus then
    m.2[28]?.map fun state => (signed32 (ofLittleEndian (m.2.take 4)), state)
  else none

/-- The state that is given for a goal: how it has ended, if it has. -/
def Shows (job : Job Nat Int GoalState) (state : UInt8) : Prop :=
  ∃ s : GoalState, s.value = state ∧ s.ending = job.ending

/-- A status is about one of these goals. -/
def Tells (l : GoalAgenda) (m : ProtocolHeader × List UInt8) : Prop :=
  ∀ id state, reportedState m = some (id, state) → id ≠ 0 → ∃ job ∈ l, job.name = id ∧ Shows job state

/-- A goal id is what `rand` gives, or zero. -/
def MockGroupState.Named (grp : MockGroupState) : Prop := 0 ≤ grp.currentGoalId ∧ grp.currentGoalId < 2 ^ 31

section Telling

variable {cfg : ServerConfig} {robot robot' : MockRobot} {l : GoalAgenda} {m : ProtocolHeader × List UInt8}

theorem tells_nothing (h : m.1.messageType ≠ msgGoalStatus) : Tells l m := by
  intro id state hreported
  rw [reportedState, if_neg h] at hreported
  cases hreported

theorem tells_of_other (h : m.1.messageType ∉ goalAnswers) : Tells l m := by
  apply tells_nothing
  intro hstatus
  rw [hstatus] at h
  exact h (by decide)

theorem GroupStep.named {e : RobotEvent} {i : Nat} {grp grp' : MockGroupState} (h : GroupStep e i grp grp')
    (hnamed : grp.Named) : grp'.Named := by
  cases h with
  | accepted _ _ _ _ fresh block goalId now => exact ⟨goalId.pos.le, goalId.lt⟩
  | _ => exact hnamed

theorem init_named (groups : List (UInt8 × UInt8)) : ∀ grp ∈ (mockRobotInitMulti groups).groups, grp.Named := by
  intro grp hgrp
  obtain ⟨_, _, rfl⟩ := List.mem_map.mp hgrp
  exact ⟨le_refl _, by norm_num [initGroup]⟩

theorem tells_of_status (h : GoalsOf robot l) (hnamed : ∀ grp ∈ robot.groups, grp.Named) {i : Nat}
    {grp : MockGroupState} (hgrp : robot.groups[i]? = some grp) {status : List UInt8}
    (hstatus : StatusOf grp status) {header : ProtocolHeader} : Tells l (header, status) := by
  intro id state hreported hid
  obtain ⟨hpos, hlt⟩ := hnamed grp (List.mem_of_getElem? hgrp)
  unfold reportedState at hreported
  dsimp only at hreported
  split at hreported
  · rw [hstatus.state, hstatus.id, signed32_bytes32 hpos hlt] at hreported
    cases hreported
    have hcurrent : l.current i = some ⟨i, grp.currentGoalId, grp.currentGoalState.ending⟩ := by
      rw [h.last, hgrp]
      exact if_neg hid
    exact ⟨_, Agenda.mem_of_current hcurrent, rfl, grp.currentGoalState, rfl, rfl⟩
  · cases hreported

theorem leads_tells {e : RobotEvent} {ctx : ResponseContext} (hleads : e.Leads robot robot')
    (h : GoalsOf robot' l) (hnamed : ∀ grp ∈ robot'.groups, grp.Named) (hanswer : e.answer = some ctx) :
    Tells l ctx.reply.message := by
  cases e with
  | command header payload drawn answer =>
      obtain rfl : answer = some ctx := hanswer
      cases command_step hleads with
      | plain _ hplain => exact tells_of_other hplain.type
      | accepted _ _ _ _ _ _ _ _ _ _ hcarries =>
          apply tells_nothing
          rw [hcarries.message, hcarries.type]
          decide
      | echoed _ _ _ hecho =>
          apply tells_nothing
          rw [show ctx.reply.message.1.messageType = _ from hecho]
          decide
      | reported hgroups hgrp hstatus hcarries =>
          rw [hcarries.message]
          rw [← hgroups] at hgrp
          exact tells_of_status h hnamed hgrp hstatus
  | errorInfo answer =>
      obtain rfl : answer = some ctx := hanswer
      exact tells_of_other (getErrorInfo_step hleads).2.type
  | _ => cases hanswer

theorem Asks.announced {env : Environment} {f : Frame} {e : RobotEvent} (h : Asks env f e)
    (hcalls : Calling cfg) : announcedId (answerOf cfg (env, f)) = e.announced := by
  rw [answerOf, h.response hcalls, RobotEvent.announced]
  cases e.answer with
  | none => rfl
  | some ctx => rfl

theorem Asks.tells {env : Environment} {f : Frame} {e : RobotEvent} (hasks : Asks env f e)
    (hcalls : Calling cfg) (hleads : e.Leads robot robot') (h : GoalsOf robot' l)
    (hnamed : ∀ grp ∈ robot'.groups, grp.Named) : Tells l (answerOf cfg (env, f)) := by
  rw [answerOf, hasks.response hcalls]
  cases hanswer : e.answer with
  | none => exact tells_nothing (by decide : msgError ≠ msgGoalStatus)
  | some ctx => exact leads_tells hleads h hnamed hanswer

end Telling

/-- A history of answers, each with the goals at its time. -/
structure Reports (l l' : GoalAgenda) (history : List (GoalAgenda × (ProtocolHeader × List UInt8))) :
    Prop where
  continues : l.Continues l'
  within : ∀ p ∈ history, l.Continues p.1 ∧ p.1.Continues l' ∧ Tells p.1 p.2
  ordered : history.Pairwise fun p q => p.1.Continues q.1
  announced : (l.map Job.name ++ (history.map Prod.snd).filterMap announcedId).Sublist (l'.map Job.name)

section Reports

variable {l l₁ l' : GoalAgenda} {history : List (GoalAgenda × (ProtocolHeader × List UInt8))}
  {m : ProtocolHeader × List UInt8}

theorem Reports.refl (l : GoalAgenda) : Reports l l [] where
  continues := .refl l
  within := List.forall_mem_nil _
  ordered := .nil
  announced := by simp

theorem Reports.later (h : Reports l₁ l' history) (hcontinues : l.Continues l₁)
    (hnames : (l.map Job.name).Sublist (l₁.map Job.name)) : Reports l l' history where
  continues := hcontinues.trans h.continues
  within := by
    intro p hp
    obtain ⟨hfirst, hrest⟩ := h.within p hp
    exact ⟨hcontinues.trans hfirst, hrest⟩
  ordered := h.ordered
  announced := (hnames.append_right _).trans h.announced

theorem Reports.answer (h : Reports l₁ l' history) (hcontinues : l.Continues l₁) (htells : Tells l₁ m)
    (hnames : (l.map Job.name ++ (announcedId m).toList).Sublist (l₁.map Job.name)) :
    Reports l l' ((l₁, m) :: history) where
  continues := hcontinues.trans h.continues
  within := by
    refine List.forall_mem_cons.mpr ⟨⟨hcontinues, h.continues, htells⟩, ?_⟩
    intro p hp
    obtain ⟨hfirst, hrest⟩ := h.within p hp
    exact ⟨hcontinues.trans hfirst, hrest⟩
  ordered := List.pairwise_cons.mpr ⟨fun p hp => (h.within p hp).1, h.ordered⟩
  announced := by
    rw [List.map_cons, filterMap_cons_toList, ← List.append_assoc]
    exact (hnames.append_right _).trans h.announced

theorem ending_eq_some {s t : GoalState} (h : s.ending = some t) : t = s := by
  cases s with
  | pending | active => cases h
  | succeeded | cancelled | aborted => exact (Option.some.inj h).symm

theorem value_injective {s t : GoalState} (h : s.value = t.value) : s = t := by
  cases s <;> cases t <;> first | rfl | cases h

theorem Reports.consistent (h : Reports l l' history) (hnodup : (l'.map Job.name).Nodup) {i j : Nat}
    {m m' : ProtocolHeader × List UInt8} {id : Int} {s s' : GoalState} (hij : i < j)
    (hm : (history.map Prod.snd)[i]? = some m) (hm' : (history.map Prod.snd)[j]? = some m')
    (hs : reportedState m = some (id, s.value)) (hs' : reportedState m' = some (id, s'.value))
    (hid : id ≠ 0) (hended : s.ending ≠ none) : s' = s := by
  rw [List.getElem?_map] at hm hm'
  obtain ⟨⟨li, _⟩, hi, rfl⟩ := Option.map_eq_some_iff.mp hm
  obtain ⟨⟨lj, _⟩, hj, rfl⟩ := Option.map_eq_some_iff.mp hm'
  obtain ⟨-, -, htells⟩ := h.within _ (List.mem_of_getElem? hi)
  obtain ⟨-, hlast, htells'⟩ := h.within _ (List.mem_of_getElem? hj)
  obtain ⟨job, hjob, hname, t, hvalue, hshows⟩ := htells _ _ hs hid
  obtain ⟨job', hjob', hname', t', hvalue', hshows'⟩ := htells' _ _ hs' hid
  obtain rfl := value_injective hvalue
  obtain rfl := value_injective hvalue'
  have hcontinues : li.Continues lj := by
    obtain ⟨hlti, hgeti⟩ := List.getElem?_eq_some_iff.mp hi
    obtain ⟨hltj, hgetj⟩ := List.getElem?_eq_some_iff.mp hj
    have hordered := List.pairwise_iff_getElem.mp h.ordered i j hlti hltj hij
    rwa [hgeti, hgetj] at hordered
  have hlater : job.Later job' := hcontinues.named hlast hnodup hjob hjob' (hname.trans hname'.symm)
  cases hlater with
  | ended hrunning => exact absurd (hshows.trans hrunning) hended
  | same =>
      obtain ⟨e, he⟩ := Option.ne_none_iff_exists'.mp hended
      rw [← ending_eq_some he]
      exact (ending_eq_some (hshows'.trans (hshows.symm.trans he))).symm

end Reports

section Session

variable {cfg : ServerConfig} {robot robot' : MockRobot} {handled : List (Environment × Frame)}
  {events : List RobotEvent} {l : GoalAgenda}

theorem Serves.reports {l' : GoalAgenda} (h : Serves handled events) (hcalls : Calling cfg)
    (hrecords : robot.Records l events robot' l') (hgoals : GoalsOf robot l)
    (hnamed : ∀ grp ∈ robot.groups, grp.Named) :
    ∃ history, Reports l l' history ∧ history.map Prod.snd = handled.map (answerOf cfg) := by
  induction h generalizing robot l with
  | done =>
      obtain ⟨-, rfl⟩ := hrecords
      exact ⟨[], .refl l', rfl⟩
  | updated _ ih =>
      obtain ⟨next, hleads, hrecords⟩ := hrecords
      have hnamed' := groups_of_leads hleads hnamed fun _ _ _ hstep => hstep.named
      obtain ⟨history, hreports, hanswers⟩ := ih hrecords (hgoals.leads hleads) hnamed'
      refine ⟨history, hreports.later (continues_note _ next l) ?_, hanswers⟩
      rw [names_note]
      exact List.sublist_append_left _ _
  | @registered env f _ _ htype _ ih =>
      obtain ⟨history, hreports, hanswers⟩ := ih hrecords hgoals hnamed
      have hother := (registered_response cfg env htype).2
      refine ⟨_, hreports.answer (.refl l) (tells_of_other hother) ?_, ?_⟩
      · rw [announcedId_eq_none hother, Option.toList_none, List.append_nil]
      · rw [List.map_cons, List.map_cons, hanswers]
  | @asked env f e _ _ hasks _ ih =>
      obtain ⟨next, hleads, hrecords⟩ := hrecords
      have hgoals' := hgoals.leads hleads
      have hnamed' := groups_of_leads hleads hnamed fun _ _ _ hstep => hstep.named
      obtain ⟨history, hreports, hanswers⟩ := ih hrecords hgoals' hnamed'
      have htells := hasks.tells hcalls hleads hgoals' hnamed'
      refine ⟨_, hreports.answer (continues_note e next l) htells ?_, ?_⟩
      · rw [hasks.announced hcalls, names_note]
        exact (announced_sublist hleads).append_left _
      · rw [List.map_cons, List.map_cons, hanswers]

end Session

/-- A client's frames arrive at a server whose callbacks are those of a robot, which has been running
since it was initialised. -/
structure RobotSession (cfg : ServerConfig) (w : World) (frames : List Frame) (envs : List Environment)
    (handled : List (Environment × Frame)) (before events : List RobotEvent) (robot robot' : MockRobot)
    (l l' : GoalAgenda) : Prop where
  calls : Calling cfg
  serving : w.Serving
  mallocs : w.mallocs = []
  stream : ∃ rest, w.transport.stream = encode frames ++ rest
  sizes : ∀ f ∈ frames, f.header.payloadLength.toNat ≤ maxPayloadSize
  fits : ∀ f ∈ frames, FitsFrame f
  arrives : Arrives cfg w.transport.cuts frames envs handled
  reached : ∃ groups, (mockRobotInitMulti groups).Records [] before robot l
  earlier : ∀ e ∈ before, e.Fits
  serves : Serves handled events
  runs : robot.Records l events robot' l'

/-- A goal for the first group that has been accepted is what is echoed, until another move goal for the
group is sent. -/
def Echoes (frames replies : List Frame) : Prop :=
  ∀ (goal : MoveGoal) (i j : Nat) (f r r' : Frame), i < j → frames[i]? = some f → replies[i]? = some r →
    replies[j]? = some r' → f.payload = goal.payload → goal.groupIndex = 0 →
    r.header.messageType = msgGoalAccepted → r'.header.messageType = msgEchoTrajectory →
    (∀ k g, i < k → k < j → frames[k]? = some g → ¬ MovesFirst g) → r'.payload = goal.payload

/-- Once a goal is reported as ended, all later reports of the goal say the same. -/
def Consistent (ms : List (ProtocolHeader × List UInt8)) : Prop :=
  ∀ (i j : Nat) (m m' : ProtocolHeader × List UInt8) (id : Int) (s s' : GoalState), i < j →
    ms[i]? = some m → ms[j]? = some m' → reportedState m = some (id, s.value) →
    reportedState m' = some (id, s'.value) → id ≠ 0 → s.ending ≠ none → s' = s

theorem answered_prefix (cfg : ServerConfig) (frames : List Frame) : answered cfg frames <+: frames := by
  induction frames with
  | nil => exact List.prefix_rfl
  | cons f frames ih =>
      rw [answered]
      split
      · exact ⟨frames, rfl⟩
      · exact (List.prefix_cons_inj f).mpr ih

section Sessions

variable {cfg : ServerConfig} {w : World} {frames : List Frame} {envs : List Environment}
  {handled : List (Environment × Frame)} {before events : List RobotEvent} {robot robot' : MockRobot}
  {l l' : GoalAgenda}

theorem RobotSession.frame (h : RobotSession cfg w frames envs handled before events robot robot' l l') {k : Nat}
    {p : Environment × Frame} (hp : handled[k]? = some p) : frames[k]? = some p.2 := by
  obtain ⟨rest, hrest⟩ := answered_prefix cfg frames
  rw [← h.arrives.answered] at hrest
  have hk : k < (handled.map Prod.snd).length := by
    rw [List.length_map]
    exact (List.getElem?_eq_some_iff.mp hp).1
  rw [← hrest, List.getElem?_append_left hk, List.getElem?_map, hp]
  rfl

theorem RobotSession.mem (h : RobotSession cfg w frames envs handled before events robot robot' l l') :
    ∀ p ∈ handled, p.2 ∈ frames := by
  intro p hp
  obtain ⟨k, hk⟩ := List.mem_iff_getElem?.mp hp
  exact List.mem_of_getElem? (h.frame hk)

theorem RobotSession.sendable (h : RobotSession cfg w frames envs handled before events robot robot' l l') :
    ∀ grp ∈ robot.groups, grp.Sendable := by
  obtain ⟨groups, hbefore⟩ := h.reached
  exact sendable_of_runs hbefore.runs h.earlier (init_sendable groups)

theorem RobotSession.eventsFit (h : RobotSession cfg w frames envs handled before events robot robot' l l') :
    ∀ e ∈ events, e.Fits :=
  h.serves.fits (fun p hp => h.fits p.2 (h.mem p hp)) fun p hp => h.sizes p.2 (h.mem p hp)

theorem RobotSession.decodes (h : RobotSession cfg w frames envs handled before events robot robot' l l') :
    ∃ replies : List Frame, messages replies = handled.map (answerOf cfg) ∧
      Decodes ((World.converse cfg envs w).1.flatMap ServerCall.buffer) replies := by
  obtain ⟨rest, hstream⟩ := h.stream
  exact converse_decodes h.serving h.mallocs hstream h.sizes h.arrives
    (h.serves.readable h.calls h.runs.runs h.eventsFit h.sendable)

theorem answer_at {replies : List Frame} (h : messages replies = handled.map (answerOf cfg)) {k : Nat}
    {r : Frame} (hr : replies[k]? = some r) :
    ∃ p, handled[k]? = some p ∧ answerOf cfg p = (r.header, r.payload) := by
  have hk : (handled.map (answerOf cfg))[k]? = some (r.header, r.payload) := by
    rw [← h, messages, List.getElem?_map, hr]
    rfl
  rw [List.getElem?_map] at hk
  exact Option.map_eq_some_iff.mp hk

/-- In every session, the client reads one answer for each frame, and trajectories come back as they
were sent. -/
theorem session_echoes (h : RobotSession cfg w frames envs handled before events robot robot' l l') :
    ∃ replies : List Frame,
      Decodes ((World.converse cfg envs w).1.flatMap ServerCall.buffer) replies ∧
        replies.length = handled.length ∧ Echoes frames replies := by
  obtain ⟨replies, hmessages, hdecodes⟩ := h.decodes
  refine ⟨replies, hdecodes, ?_, ?_⟩
  · have hlength := congrArg List.length hmessages
    rwa [messages, List.length_map, List.length_map] at hlength
  · intro goal i j f r r' hij hf hr hr' hpayload hgroup haccepted hecho hbetween
    obtain ⟨p, hp, hanswer⟩ := answer_at hmessages hr
    obtain ⟨q, hq, hanswer'⟩ := answer_at hmessages hr'
    obtain rfl : p.2 = f := Option.some.inj ((h.frame hp).symm.trans hf)
    have hsize : goal.payload.length < 2 ^ 32 := by
      rw [← hpayload, p.2.length]
      exact UInt32.toNat_lt _
    have hechoed := h.serves.goal_echoes h.calls h.runs.runs h.eventsFit h.sendable hgroup hsize hij hp hq
      hpayload (by rw [hanswer]; exact haccepted) (by rw [hanswer']; exact hecho)
      fun k g hik hkj hg => hbetween k g.2 hik hkj (h.frame hg)
    rwa [hanswer'] at hechoed

/-- In every session, the ids that the client reads are those of goals of the robot in the order in which
they began; and as long as no id is drawn twice, what it has read of a goal that has ended stays true. -/
theorem session_reports (h : RobotSession cfg w frames envs handled before events robot robot' l l') :
    ∃ replies : List Frame,
      Decodes ((World.converse cfg envs w).1.flatMap ServerCall.buffer) replies ∧
        replies.length = handled.length ∧ GoalsOf robot l ∧ GoalsOf robot' l' ∧ l.Continues l' ∧
        l'.map Job.name = (before ++ events).flatMap RobotEvent.drawn ∧
        (l.map Job.name ++ (messages replies).filterMap announcedId).Sublist (l'.map Job.name) ∧
        (((before ++ events).flatMap RobotEvent.drawn).Nodup → Consistent (messages replies)) := by
  obtain ⟨replies, hmessages, hdecodes⟩ := h.decodes
  obtain ⟨groups, hbefore⟩ := h.reached
  have hgoals := (goalsOf_init groups).records hbefore
  have hnames := drawn_of_records hbefore h.runs
  have hnamed := groups_of_runs hbefore.runs (init_named groups) fun _ _ _ _ _ hstep => hstep.named
  obtain ⟨history, hreports, hanswers⟩ := h.serves.reports h.calls h.runs hgoals hnamed
  have hhistory : history.map Prod.snd = messages replies := hanswers.trans hmessages.symm
  refine ⟨replies, hdecodes, ?_, hgoals, hgoals.records h.runs, continues_of_records h.runs, hnames, ?_, ?_⟩
  · have hlength := congrArg List.length hmessages
    rwa [messages, List.length_map, List.length_map] at hlength
  · rw [← hhistory]
    exact hreports.announced
  · intro hdrawn i j m m' id s s' hij hm hm' hs hs' hid hended
    rw [← hhistory] at hm hm'
    exact hreports.consistent (hnames ▸ hdrawn) hij hm hm' hs hs' hid hended

end Sessions

section Examples

variable {robot : MockRobot} {header : ProtocolHeader} {payload : Nat → UInt8} {stored : StoredTrajectory}

theorem switch_echo (htype : header.messageType = msgEchoTrajectory) :
    switchCommand robot header payload =
      handleEchoTrajectory robot >>= fun answer => pure (answer, robot) := by
  unfold switchCommand
  dsimp only
  rw [htype]
  iterate 6 rw [if_neg (by decide)]
  rw [if_pos rfl]

/-- The answer that echoes a trajectory, in these blocks. -/
def trajectoryEchoed (stored : StoredTrajectory) (now : UInt64) : ResponseContext :=
  ⟨0, 1, ⟨protocolMagicNumber, protocolVersion, msgEchoTrajectory, now, UInt32.ofNat (moveGoalSize stored.memory)⟩,
    some (2, stored.echo)⟩

theorem allocate_yields {length : UInt32} (hlength : 0 < length) (type : UInt8) (now : UInt64) :
    (allocateResponseContext length type).Yields
      (some ⟨0, 1, ⟨protocolMagicNumber, protocolVersion, type, now, length⟩,
        some (2, List.replicate length.toNat 0)⟩) := by
  rw [allocateResponseContext, yields_bind]
  refine ⟨some 0, ⟨some 0, rfl⟩, ?_⟩
  dsimp only
  rw [yields_bind]
  refine ⟨some 1, ⟨some 1, rfl⟩, ?_⟩
  dsimp only
  rw [yields_bind]
  refine ⟨now, ⟨now, rfl⟩, ?_⟩
  rw [if_pos hlength]
  exact Exists.intro (some 2) rfl

theorem echo_follows (htype : header.messageType = msgEchoTrajectory)
    (hstored : robot.groups[0]? >>= MockGroupState.storedTrajectory = some stored)
    (hlength : 0 < UInt32.ofNat (moveGoalSize stored.memory)) (now : UInt64) :
    (switchCommand robot header payload).Yields (some (trajectoryEchoed stored now), robot) := by
  rw [switch_echo htype, yields_bind]
  refine ⟨_, ?_, rfl⟩
  rw [handleEchoTrajectory, mockRobotEchoTrajectory, hstored]
  dsimp only
  rw [payloadResponse, yields_bind]
  refine ⟨_, (yields_fromServer _ _).mpr (allocate_yields hlength msgEchoTrajectory now), ?_⟩
  rfl

theorem switch_status (htype : header.messageType = msgGetGoalStatus) (hlength : header.payloadLength = 4) :
    switchCommand robot header payload =
      handleGetGoalStatus robot payload >>= fun answer => pure (answer, robot) := by
  unfold switchCommand
  dsimp only
  rw [htype]
  iterate 11 rw [if_neg (by decide)]
  rw [if_pos rfl, if_neg (by simp [hlength])]

/-- The answer that tells how a group's goal is doing, in these blocks, where nothing was before. -/
def goalReported (grp : MockGroupState) (now : UInt64) : ResponseContext :=
  let cleared := window (fun _ => 0) 0 sizeofGoalStatusPayload
  ⟨0, 1, ⟨protocolMagicNumber, protocolVersion, msgGoalStatus, now, UInt32.ofNat sizeofGoalStatusPayload⟩,
    some (2, bytes32 grp.currentGoalId ++ (cleared.drop 4).take 4 ++
      littleEndian 8 grp.currentGoalProgress.toNat ++ littleEndian 8 now.toNat ++
      (cleared.drop 24).take 4 ++ [grp.currentGoalState.value] ++ cleared.drop 29)⟩

theorem status_follows (htype : header.messageType = msgGetGoalStatus) (hlength : header.payloadLength = 4)
    {i : Nat} (hfind : robot.findGroupWithGoal (payloadInt32 payload) = some i) {grp : MockGroupState}
    (hgrp : robot.groups[i]? = some grp) (now : UInt64) :
    (switchCommand robot header payload).Yields (some (goalReported grp now), robot) := by
  rw [switch_status htype hlength, yields_bind]
  refine ⟨_, ?_, rfl⟩
  have hallocate := allocate_yields (by decide : (0 : UInt32) < UInt32.ofNat sizeofGoalStatusPayload)
    msgGoalStatus now
  rw [handleGetGoalStatus, yields_bind]
  refine ⟨_, (yields_fromServer _ _).mpr hallocate, ?_⟩
  dsimp only
  rw [yields_bind]
  refine ⟨fun _ => 0, Exists.intro (fun _ => 0) rfl, ?_⟩
  rw [mockRobotGetGoalStatus, hfind]
  dsimp only
  rw [hgrp, yields_bind]
  exact ⟨_, Exists.intro now rfl, rfl⟩

theorem echoHeader_magic : (headerOf 0 msgEchoTrajectory).magicNumber = protocolMagicNumber := rfl

theorem echoHeader_length : ([] : List UInt8).length = (headerOf 0 msgEchoTrajectory).payloadLength.toNat := rfl

def echoFrame : Frame := ⟨headerOf 0 msgEchoTrajectory, [], echoHeader_magic, echoHeader_length⟩

theorem statusHeader_magic : (headerOf 4 msgGetGoalStatus).magicNumber = protocolMagicNumber := rfl

theorem statusHeader_length : (bytes32 7).length = (headerOf 4 msgGetGoalStatus).payloadLength.toNat := rfl

/-- How is goal 7 doing? -/
def statusFrame : Frame := ⟨headerOf 4 msgGetGoalStatus, bytes32 7, statusHeader_magic, statusHeader_length⟩

def statusMemory (i : Nat) : UInt8 := (bytes32 7).getD i 0

def callingConfig : ServerConfig := { plainConfig with handleCommand := true, getErrorInfo := true }

def originCopy : StoredTrajectory := storedCopy originMemory originMemory 0

/-- The environment in which a command has this answer. -/
def answering (ctx : ResponseContext) : Environment :=
  { plainEnvironment with handleCommand := fun _ _ => some ctx.reply }

def arrivedGroup : MockGroupState :=
  (((initGroup groupTypeRobot 6).store (some originCopy)).follow 7 0).succeed

/-- The robot has come to the origin. -/
def arrivedRobot : MockRobot := { followingRobot with commandCount := 3, groups := [arrivedGroup] }

def echoOrigin : RobotEvent :=
  .command echoFrame.header originMemory [] (some (trajectoryEchoed originCopy 0))

def askStatus : RobotEvent :=
  .command statusFrame.header statusMemory [] (some (goalReported arrivedGroup 0))

def originFrames : List Frame := [originFrame, echoFrame, statusFrame, statusFrame]

/-- The answers to a move to the origin, to a request for its trajectory, and to two questions after the
goal. -/
def originHandled : List (Environment × Frame) :=
  [(answering (goalAccepted originId originMemory 0), originFrame),
    (answering (trajectoryEchoed originCopy 0), echoFrame),
    (answering (goalReported arrivedGroup 0), statusFrame),
    (answering (goalReported arrivedGroup 0), statusFrame)]

def originEvents : List RobotEvent := [goToOrigin originId, echoOrigin, .update, askStatus, askStatus]

theorem originMemory_holds : HoldsBytes originMemory 0 originGoal.payload := holdsBytes_getD _

theorem statusMemory_holds : HoldsBytes statusMemory 0 statusFrame.payload := holdsBytes_getD _

theorem originGoal_size : originGoal.payload.length < 2 ^ 32 := by
  rw [originGoal.payload_length]
  decide

theorem echoOrigin_leads : echoOrigin.Leads followingRobot { followingRobot with commandCount := 3 } := by
  have hsize : moveGoalSize originCopy.memory = 280 := by
    have hsame : originCopy.echo = originGoal.payload := storedCopy_echo originGoal_size originMemory_holds
    have hwindow := congrArg List.length hsame
    rwa [StoredTrajectory.echo, window_length, originGoal.payload_length] at hwindow
  have hlength : 0 < UInt32.ofNat (moveGoalSize originCopy.memory) := by
    rw [hsize]
    decide
  have hfollows := @echo_follows { followingRobot with commandCount := 3 } echoFrame.header originMemory
    originCopy rfl rfl hlength 0
  exact leads_of_yields (by decide) hfollows

theorem update_leads : RobotEvent.update.Leads { followingRobot with commandCount := 3 } arrivedRobot :=
  Exists.intro (2000 : UInt64) (Exists.intro (0 : UInt64) rfl)

theorem askStatus_leads (n : UInt32) :
    askStatus.Leads { arrivedRobot with commandCount := n } { arrivedRobot with commandCount := n + 1 } := by
  have hgoal : payloadInt32 statusMemory = 7 := by decide
  have hfind : { arrivedRobot with commandCount := n + 1 }.findGroupWithGoal (payloadInt32 statusMemory) =
      some 0 := by
    rw [hgoal]
    rfl
  have hfollows := @status_follows { arrivedRobot with commandCount := n + 1 } statusFrame.header statusMemory
    rfl rfl 0 hfind arrivedGroup rfl 0
  exact leads_of_yields (by decide) hfollows

theorem originSession :
    RobotSession callingConfig (worldOf (quiet (encode originFrames)) []) originFrames
      (originHandled.map Prod.fst) originHandled [powerOn] originEvents poweredRobot
      { arrivedRobot with commandCount := 5 } [] [⟨0, 7, some .succeeded⟩] where
  calls := ⟨rfl, rfl⟩
  serving := worldOf_serving _ _
  mallocs := rfl
  stream := ⟨[], (List.append_nil _).symm⟩
  sizes := by decide
  fits := by
    refine List.forall_mem_cons.mpr ⟨?_, ?_⟩
    · intro _ data hdata
      have hcount : trajectoryCount data = 1 := (originGoal.placed originGoal_size hdata).trajectoryCount
      rw [LengthsFit, hcount]
      omega
    · intro f hf htype
      have hothers : ∀ f ∈ [echoFrame, statusFrame, statusFrame], f.header.messageType ≠ msgMoveGoal := by decide
      exact absurd htype (hothers f hf)
  arrives := by
    have hwhole : HeaderWhole [] := by
      intro cut hcut
      cases hcut
    have hrest : Arrives callingConfig [] (originFrames.drop 1) _ (originHandled.drop 1) :=
      .kept hwhole (fun h => absurd h.1 (by decide)) (.kept hwhole (fun h => absurd h.1 (by decide))
        (.kept hwhole (fun h => absurd h.1 (by decide)) .finished))
    exact .kept hwhole (fun h => absurd h.1 (by decide)) hrest
  reached := ⟨[(groupTypeRobot, 6)], poweredRobot, powerOn_leads, rfl, rfl⟩
  earlier := by
    refine List.forall_mem_singleton.mpr ?_
    intro htype
    exact absurd htype (by decide)
  serves := by
    refine .asked (.command (by decide) (by decide) originMemory_holds rfl) ?_
    refine .asked (.command (by decide) (by decide) rfl rfl) (.updated ?_)
    refine .asked (.command (by decide) (by decide) statusMemory_holds rfl) ?_
    exact .asked (.command (by decide) (by decide) statusMemory_holds rfl) .done
  runs := ⟨followingRobot, goToOrigin_follows, _, echoOrigin_leads, _, update_leads, _, askStatus_leads 3, _,
    askStatus_leads 4, rfl, rfl⟩

/-- A move to the origin, and its trajectory back. -/
theorem session_echoes_origin :
    ∃ replies : List Frame,
      Decodes ((World.converse callingConfig (originHandled.map Prod.fst)
          (worldOf (quiet (encode originFrames)) [])).1.flatMap ServerCall.buffer) replies ∧
        replies.length = 4 ∧ Echoes originFrames replies :=
  session_echoes originSession

/-- The goal is asked for twice after it has been reached. -/
theorem session_reports_origin :
    let goals : GoalAgenda := [⟨0, 7, some .succeeded⟩]
    ∃ replies : List Frame,
      Decodes ((World.converse callingConfig (originHandled.map Prod.fst)
          (worldOf (quiet (encode originFrames)) [])).1.flatMap ServerCall.buffer) replies ∧
        replies.length = 4 ∧ GoalsOf poweredRobot [] ∧ GoalsOf { arrivedRobot with commandCount := 5 } goals ∧
        Agenda.Continues [] goals ∧ goals.map Job.name = ([powerOn] ++ originEvents).flatMap RobotEvent.drawn ∧
        ((messages replies).filterMap announcedId).Sublist [7] ∧ Consistent (messages replies) := by
  intro goals
  obtain ⟨replies, hdecodes, hlength, hbefore, hafter, hcontinues, hnames, hannounced, hconsistent⟩ :=
    session_reports originSession
  have hdrawn : (([powerOn] ++ originEvents).flatMap RobotEvent.drawn).Nodup := by
    rw [← hnames]
    exact List.nodup_singleton 7
  exact ⟨replies, hdecodes, hlength, hbefore, hafter, hcontinues, hnames, hannounced, hconsistent hdrawn⟩

end Examples

end YaskawaComms.Robot
