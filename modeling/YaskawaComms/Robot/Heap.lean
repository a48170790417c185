import YaskawaComms.Robot.Goals
import YaskawaComms.Server.HeapBalance

/-!
# The blocks of the robot

Which blocks the callbacks leave allocated: those of the answer, which the server frees, and one for
each trajectory that is stored.
-/

namespace YaskawaComms.Robot

open Protocol Program Server

/-- The calls of the server library do to the heap what they do in the server. -/
def robotHeap : Monitor robotSignature (HeapUse Nat) where
  good m c := match c with
    | .server c => heapUse.good m c
    | _ => True
  allowed m c := match c with
    | .server c => heapUse.allowed m c
    | _ => fun _ => True
  next m c := match c with
    | .server c => heapUse.next m c
    | _ => fun _ => m

/-- From these blocks in its hands, the program comes to the ones that go with its result. -/
def Settles {α : Type} (live : Finset Nat) (owned : List Nat) (left : α → List Nat)
    (p : RobotProgram α) : Prop :=
  ∀ m : HeapUse Nat, m.Holds live owned → p.Obeys robotHeap (fun a m' => m'.Holds live (left a)) m

def RobotCall.heapless : RobotCall → Bool
  | .server _ => false
  | _ => true

section Rules

variable {α β : Type} {live : Finset Nat} {owned : List Nat} {left : α → List Nat}
  {left' : β → List Nat}

theorem settles_pure {a : α} (h : owned.Perm (left a)) : Settles live owned left (pure a) :=
  fun _ hm => hm.perm h

theorem Settles.bind {p : RobotProgram α} {f : α → RobotProgram β} (hp : Settles live owned left p)
    (hf : ∀ a, Settles live (left a) left' (f a)) : Settles live owned left' (p >>= f) :=
  fun m hm => (hp m hm).bind fun a m' hm' => hf a m' hm'

theorem Settles.perm {p : RobotProgram α} {owned' : List Nat} (hp : Settles live owned left p)
    (h : owned'.Perm owned) : Settles live owned' left p :=
  fun m hm => hp m (hm.perm h)

theorem settles_ite {P : Prop} [Decidable P] {p q : RobotProgram α}
    (hp : P → Settles live owned left p) (hq : ¬ P → Settles live owned left q) :
    Settles live owned left (if P then p else q) := by
  split
  · next h => exact hp h
  · next h => exact hq h

theorem settles_call {c : RobotCall} (hc : c.heapless = true) {f : robotSignature.Result c → RobotProgram α}
    (hf : ∀ r, Settles live owned left (f r)) :
    Settles live owned left (Program.call c .ret >>= f) := by
  intro m hm
  cases c with
  | server c => cases hc
  | _ => exact ⟨trivial, fun r _ => hf r m hm⟩

theorem obeys_fromServer {p : ServerProgram α} {post : α → HeapUse Nat → Prop} {m : HeapUse Nat}
    (h : p.Obeys heapUse post m) : (fromServer p).Obeys robotHeap post m := by
  induction p generalizing m with
  | ret a => exact h
  | call c next ih =>
      obtain ⟨hgood, hnext⟩ := h
      exact ⟨hgood, fun r hr => ih r (hnext r hr)⟩

theorem settles_fromServer {p : ServerProgram α} (h : Server.Balances live owned left p) :
    Settles live owned left (fromServer p) :=
  fun m hm => obeys_fromServer (h m hm)

theorem settles_malloc (len : Nat) :
    Settles live owned (fun block => block.toList ++ owned) (fromServer (platformMalloc len)) :=
  settles_fromServer fun _ hm => ⟨trivial, fun _ hr => hm.get hr⟩

theorem settles_timestamp {f : UInt64 → RobotProgram α} (hf : ∀ now, Settles live owned left (f now)) :
    Settles live owned left (fromServer getTimestampMs >>= f) :=
  fun m hm => ⟨trivial, fun now _ => hf now m hm⟩

end Rules

section Answers

variable {live : Finset Nat} {owned : List Nat}

theorem contextBlocks_fill (ctx : Option ResponseContext) (bytes : List UInt8) :
    contextBlocks? (ctx.map fun ctx => ctx.fill bytes) = contextBlocks? ctx := by
  cases ctx with
  | none => rfl
  | some ctx =>
      simp only [contextBlocks?, Option.map_some, Option.elim_some, ResponseContext.blocks,
        ResponseContext.fill, Option.map_map]
      rfl

/-- The program leaves an answer beside the blocks that it finds. -/
abbrev LeavesAnswer (p : RobotProgram (Option ResponseContext)) : Prop :=
  ∀ (live : Finset Nat) (owned : List Nat), Settles live owned (fun ctx => contextBlocks? ctx ++ owned) p

theorem errResponse_answers (err : Int) : LeavesAnswer (errResponse err) := by
  intro live owned
  unfold errResponse
  apply (settles_fromServer (allocateResponseContext_balances _ _)).bind
  intro ctx
  apply settles_pure
  rw [contextBlocks_fill]

theorem resultResponse_answers (err : Int) : LeavesAnswer (resultResponse err) := by
  intro live owned
  unfold resultResponse
  apply settles_ite
  · exact fun _ => errResponse_answers err live owned
  · exact fun _ => settles_fromServer (allocateResponseContext_balances _ _)

theorem payloadResponse_answers {size : Nat} {type : UInt8} {write : RobotProgram (List UInt8)}
    (hwrite : ∀ live owned, Settles live owned (fun _ => owned) write) :
    LeavesAnswer (payloadResponse size type write) := by
  intro live owned
  unfold payloadResponse
  apply (settles_fromServer (allocateResponseContext_balances _ _)).bind
  intro ctx
  cases ctx with
  | none => exact errResponse_answers (-1) live owned
  | some ctx =>
      dsimp only
      apply (hwrite live _).bind
      intro bytes
      apply settles_pure
      exact .of_eq (congrArg (· ++ owned) (contextBlocks_fill (some ctx) bytes).symm)

theorem byteResponse_answers (type value : UInt8) : LeavesAnswer (payloadResponse 1 type (pure [value])) :=
  payloadResponse_answers fun _ _ => settles_pure (.refl _)

theorem echoTrajectory_answers (robot : MockRobot) : LeavesAnswer (handleEchoTrajectory robot) := by
  unfold handleEchoTrajectory
  split
  · exact errResponse_answers (-1)
  · exact payloadResponse_answers fun _ _ => settles_pure (.refl _)

theorem getGoalStatus_answers (robot : MockRobot) (payload : Nat → UInt8) :
    LeavesAnswer (handleGetGoalStatus robot payload) := by
  intro live owned
  unfold handleGetGoalStatus
  apply (settles_fromServer (allocateResponseContext_balances _ _)).bind
  intro ctx
  cases ctx with
  | none => exact errResponse_answers (-1) live owned
  | some ctx =>
      dsimp only
      apply settles_call rfl
      intro block
      have hstatus : Settles live (contextBlocks? (some ctx) ++ owned)
          (fun _ => contextBlocks? (some ctx) ++ owned)
          (mockRobotGetGoalStatus robot (payloadInt32 payload) (window block 0 sizeofGoalStatusPayload)) := by
        unfold mockRobotGetGoalStatus
        split
        · split
          · exact settles_timestamp fun _ => settles_pure (.refl _)
          · exact settles_pure (.refl _)
        · exact settles_pure (.refl _)
      apply hstatus.bind
      intro status
      cases status with
      | none =>
          dsimp only
          apply (settles_fromServer (freeCommandResponseContext_balances ctx)).bind
          intro _
          exact errResponse_answers (-1) live owned
      | some status =>
          apply settles_pure
          exact .of_eq (congrArg (· ++ owned) (contextBlocks_fill (some ctx) status).symm)

theorem getCapabilities_answers (robot : MockRobot) : LeavesAnswer (handleGetCapabilities robot) := by
  intro live owned
  unfold handleGetCapabilities
  apply (settles_fromServer (allocateResponseContext_balances _ _)).bind
  intro ctx
  apply settles_pure
  rw [contextBlocks_fill]

end Answers

/-- The block of the trajectory that a group has stored. -/
def MockGroupState.blocks (grp : MockGroupState) : List Nat :=
  (grp.storedTrajectory.map StoredTrajectory.block).toList

/-- The blocks of all stored trajectories. -/
def MockRobot.blocks (robot : MockRobot) : List Nat := robot.groups.flatMap MockGroupState.blocks

/-- What is allocated when a callback has returned, beside these blocks. -/
def leftOver (others : List Nat) (result : Option ResponseContext × MockRobot) : List Nat :=
  contextBlocks? result.1 ++ (result.2.blocks ++ others)

section Blocks

variable {robot robot' : MockRobot} {live : Finset Nat} {others : List Nat} {i : Nat} {grp : MockGroupState}

theorem blocks_of_stored {grp' : MockGroupState} (h : grp'.storedTrajectory = grp.storedTrajectory) :
    grp'.blocks = grp.blocks := by
  rw [MockGroupState.blocks, h]
  rfl

theorem blocks_modify {f : MockGroupState → MockGroupState}
    (hf : ∀ grp, (f grp).storedTrajectory = grp.storedTrajectory) :
    (robot.modifyGroup i f).blocks = robot.blocks := by
  have hblocks : (robot.groups.modify i f).map MockGroupState.blocks =
      robot.groups.map MockGroupState.blocks := by
    apply List.ext_getElem?
    intro k
    rw [List.getElem?_map, List.getElem?_map, List.getElem?_modify]
    cases robot.groups[k]? with
    | none => rfl
    | some grp =>
        by_cases hk : i = k
        · simp [hk, blocks_of_stored (hf grp)]
        · simp [hk]
  exact congrArg List.flatten hblocks

theorem blocks_map {f : MockGroupState → MockGroupState}
    (hf : ∀ grp, (f grp).storedTrajectory = grp.storedTrajectory) (groups : List MockGroupState) :
    (groups.map f).flatMap MockGroupState.blocks = groups.flatMap MockGroupState.blocks := by
  rw [List.flatMap_map]
  congr 1
  funext grp
  exact blocks_of_stored (hf grp)

theorem flatMap_middle {α : Type} (f : α → List Nat) (a : α) (before after : List α) :
    ((before ++ a :: after).flatMap f).Perm (f a ++ (before ++ after).flatMap f) := by
  have hmiddle : (before ++ a :: after).Perm (a :: (before ++ after)) := List.perm_middle
  have hblocks := hmiddle.flatMap_right f
  rwa [List.flatMap_cons] at hblocks

theorem blocks_split (hgrp : robot.groups[i]? = some grp) (others : List Nat) :
    ∃ rest, (robot.blocks ++ others).Perm (grp.blocks ++ rest) ∧
      ∀ grp', ((robot.modifyGroup i fun _ => grp').blocks ++ others).Perm (grp'.blocks ++ rest) := by
  obtain ⟨hi, hget⟩ := List.getElem?_eq_some_iff.mp hgrp
  have hbefore : robot.groups = robot.groups.take i ++ grp :: robot.groups.drop (i + 1) := by
    rw [← hget, List.getElem_cons_drop, List.take_append_drop]
  refine ⟨(robot.groups.take i ++ robot.groups.drop (i + 1)).flatMap MockGroupState.blocks ++ others, ?_,
    fun grp' => ?_⟩
  · rw [← List.append_assoc]
    apply List.Perm.append_right
    have hblocks := flatMap_middle MockGroupState.blocks grp (robot.groups.take i) (robot.groups.drop (i + 1))
    rwa [← hbefore] at hblocks
  · rw [← List.append_assoc]
    have hafter : robot.groups.modify i (fun _ => grp') =
        robot.groups.take i ++ grp' :: robot.groups.drop (i + 1) := List.modify_eq_take_cons_drop hi
    rw [MockRobot.blocks, MockRobot.modifyGroup, hafter]
    exact (flatMap_middle _ _ _ _).append_right others

theorem settles_answer {p : RobotProgram (Option ResponseContext)} (hp : LeavesAnswer p)
    (hblocks : robot'.blocks = robot.blocks) :
    Settles live (robot.blocks ++ others) (leftOver others) (p >>= fun answer => pure (answer, robot')) := by
  apply (hp live (robot.blocks ++ others)).bind
  intro answer
  apply settles_pure
  rw [leftOver, hblocks]

theorem freeTrajectory_settles (grp : MockGroupState) (rest : List Nat) :
    Settles live (grp.blocks ++ rest) (fun _ => rest) (freeTrajectory grp) := by
  unfold freeTrajectory MockGroupState.blocks
  cases grp.storedTrajectory with
  | none => exact settles_pure (.refl _)
  | some stored => exact settles_fromServer balances_platformFree

theorem storeTrajectory_settles (grp : MockGroupState) (goal : Nat → UInt8) (rest : List Nat) :
    Settles live (grp.blocks ++ rest) (fun result => result.2.blocks ++ rest) (storeTrajectory grp goal) := by
  unfold storeTrajectory
  apply (freeTrajectory_settles grp rest).bind
  intro _
  apply (settles_malloc _).bind
  intro block
  cases block with
  | none => exact settles_pure (.refl _)
  | some block =>
      dsimp only
      apply settles_call rfl
      intro fresh
      rw [deepCopied_whole]
      exact settles_pure (.refl _)

theorem acceptGoal_settles (robot : MockRobot) (goal : Nat → UInt8) :
    Settles live (robot.blocks ++ others) (fun result => result.2.blocks ++ others) (mockRobotAcceptGoal robot goal) := by
  unfold mockRobotAcceptGoal
  apply settles_ite
  · exact fun _ => settles_pure (.refl _)
  · intro _
    dsimp only
    cases hgrp : robot.groups[groupIndexOf goal]? with
    | none => exact settles_pure (.refl _)
    | some grp =>
        obtain ⟨rest, hbefore, hafter⟩ := blocks_split hgrp others
        dsimp only
        apply settles_ite
        · exact fun _ => settles_pure (.refl _)
        · intro _
          apply ((storeTrajectory_settles grp goal rest).perm hbefore).bind
          rintro ⟨stored, grp'⟩
          dsimp only
          apply settles_ite
          · exact fun _ => settles_pure (hafter grp').symm
          · intro _
            apply settles_call rfl
            intro goalId
            apply settles_timestamp
            intro now
            exact settles_pure (hafter (grp'.follow goalId.value (signed64 now))).symm

theorem moveGoal_settles (robot : MockRobot) (header : ProtocolHeader) (payload : Nat → UInt8) :
    Settles live (robot.blocks ++ others) (leftOver others) (handleMoveGoal robot header payload) := by
  unfold handleMoveGoal
  split
  · apply (acceptGoal_settles robot payload).bind
    rintro ⟨goalId, robot'⟩
    dsimp only
    apply settles_ite
    · exact fun _ => settles_answer (errResponse_answers goalId) rfl
    · intro _
      apply settles_answer _ rfl
      apply payloadResponse_answers
      intro _ _
      exact settles_timestamp fun _ => settles_pure (.refl _)
  · exact settles_answer (errResponse_answers (-1)) rfl

theorem stopMotion_blocks (robot : MockRobot) : (mockRobotStopMotion robot).2.blocks = robot.blocks := by
  apply blocks_map
  intro grp
  split
  · rfl
  · rfl

theorem stopGroup_blocks (robot : MockRobot) (groupIndex : Int) :
    (mockRobotStopGroup robot groupIndex).2.blocks = robot.blocks := by
  unfold mockRobotStopGroup
  split
  · rfl
  · exact blocks_modify fun _ => rfl

theorem cancelGoal_blocks (robot : MockRobot) (goalId : Int) :
    (mockRobotCancelGoal robot goalId).2.blocks = robot.blocks := by
  unfold mockRobotCancelGoal
  split
  · rfl
  · split
    · rfl
    · split
      · rfl
      · exact blocks_modify fun _ => rfl

theorem startTrajectory_blocks (robot : MockRobot) :
    (mockRobotStartTrajectory robot).2.blocks = robot.blocks := by
  unfold mockRobotStartTrajectory
  split
  · exact blocks_modify fun _ => rfl
  · rfl

theorem powerOn_settles (robot : MockRobot) :
    Settles live (robot.blocks ++ others) (fun result => result.2.blocks ++ others) (mockRobotPowerOn robot) :=
  settles_call rfl fun _ => settles_pure (.refl _)

theorem stopMotion_settles (robot : MockRobot) (payload : Nat → UInt8) :
    Settles live (robot.blocks ++ others) (leftOver others) (handleStopMotion robot payload) := by
  unfold handleStopMotion
  dsimp only
  by_cases hall : payloadInt32 payload = groupIdAll
  · rw [if_pos hall]
    exact settles_answer (byteResponse_answers _ _) (stopMotion_blocks robot)
  · rw [if_neg hall]
    exact settles_answer (byteResponse_answers _ _) (stopGroup_blocks robot _)

theorem sized_settles {header : ProtocolHeader} {n : UInt32}
    {p : RobotProgram (Option ResponseContext × MockRobot)} (hp : Settles live (robot.blocks ++ others) (leftOver others) p) :
    Settles live (robot.blocks ++ others) (leftOver others)
      (if header.payloadLength ≠ n then errResponse (-1) >>= fun answer => pure (answer, robot) else p) :=
  settles_ite (fun _ => settles_answer (errResponse_answers (-1)) rfl) fun _ => hp

theorem switch_settles (robot : MockRobot) (header : ProtocolHeader) (payload : Nat → UInt8) :
    Settles live (robot.blocks ++ others) (leftOver others) (switchCommand robot header payload) := by
  unfold switchCommand
  dsimp only
  refine settles_ite (fun _ => ?_) fun _ => settles_ite (fun _ => ?_) fun _ =>
    settles_ite (fun _ => ?_) fun _ => settles_ite (fun _ => ?_) fun _ =>
    settles_ite (fun _ => ?_) fun _ => settles_ite (fun _ => ?_) fun _ =>
    settles_ite (fun _ => ?_) fun _ => settles_ite (fun _ => ?_) fun _ =>
    settles_ite (fun _ => ?_) fun _ => settles_ite (fun _ => ?_) fun _ =>
    settles_ite (fun _ => ?_) fun _ => settles_ite (fun _ => ?_) fun _ =>
    settles_ite (fun _ => ?_) fun _ => settles_ite (fun _ => ?_) fun _ => ?_
  · exact settles_answer (resultResponse_answers _) (startTrajectory_blocks robot)
  · apply (powerOn_settles robot).bind
    rintro ⟨err, robot'⟩
    exact settles_answer (resultResponse_answers err) rfl
  · apply settles_timestamp
    intro now
    exact settles_answer (resultResponse_answers _) rfl
  · exact settles_answer (resultResponse_answers _) rfl
  · exact settles_answer (resultResponse_answers _) rfl
  · exact moveGoal_settles robot header payload
  · exact settles_answer (echoTrajectory_answers robot) rfl
  · exact sized_settles (settles_answer (resultResponse_answers _) rfl)
  · exact sized_settles (settles_answer (byteResponse_answers _ _) rfl)
  · exact sized_settles (stopMotion_settles robot payload)
  · exact sized_settles (settles_answer (resultResponse_answers _) (cancelGoal_blocks robot _))
  · exact sized_settles (settles_answer (getGoalStatus_answers robot payload) rfl)
  · exact sized_settles (settles_answer (byteResponse_answers _ _) rfl)
  · exact settles_answer (getCapabilities_answers robot) rfl
  · exact settles_answer (errResponse_answers (-1)) rfl

theorem handleCommand_settles (robot : MockRobot) (header : ProtocolHeader) (payload : Nat → UInt8) :
    Settles live (robot.blocks ++ others) (leftOver others) (mockRobotHandleCommand robot header payload) := by
  unfold mockRobotHandleCommand
  have hswitch := @switch_settles live others { robot with commandCount := robot.commandCount + 1 } header payload
  exact hswitch

theorem getErrorInfo_settles (robot : MockRobot) :
    Settles live (robot.blocks ++ others) (leftOver others) (mockRobotGetErrorInfoCallback robot) := by
  have hblocks : (mockRobotGetErrorInfo robot 512).2.blocks = robot.blocks := by
    unfold mockRobotGetErrorInfo
    split
    · rfl
    · rfl
  unfold mockRobotGetErrorInfoCallback
  dsimp only
  apply settles_ite
  · intro _
    refine settles_answer ?_ hblocks
    exact fun _ _ => settles_fromServer (allocateResponseContext_balances _ _)
  · intro _
    apply (settles_fromServer (allocateResponseContext_balances _ _)).bind
    intro ctx
    apply settles_pure
    rw [leftOver, contextBlocks_fill, hblocks]

theorem updateGroupProgress_settles (grp : MockGroupState) (others rest : List Nat) :
    Settles live (others ++ (grp.blocks ++ rest)) (fun grp' => others ++ (grp'.blocks ++ rest))
      (updateGroupProgress grp) := by
  unfold updateGroupProgress
  apply settles_ite
  · exact fun _ => settles_pure (.refl _)
  · intro _
    apply settles_timestamp
    intro now
    dsimp only
    apply settles_call rfl
    intro progress
    exact settles_ite (fun _ => settles_pure (.refl _)) fun _ => settles_pure (.refl _)

theorem updateGroups_settles (groups : List MockGroupState) (others : List Nat) :
    Settles live (others ++ groups.flatMap MockGroupState.blocks)
      (fun groups' => others ++ groups'.flatMap MockGroupState.blocks) (updateGroups groups) := by
  induction groups generalizing others with
  | nil => exact settles_pure (.refl _)
  | cons grp groups ih =>
      rw [updateGroups, List.flatMap_cons]
      apply (updateGroupProgress_settles grp others _).bind
      intro grp'
      have hrest := ih (others ++ grp'.blocks)
      rw [List.append_assoc] at hrest
      apply hrest.bind
      intro groups'
      apply settles_pure
      rw [List.append_assoc, List.flatMap_cons]

theorem update_settles (robot : MockRobot) :
    Settles live (robot.blocks ++ others) (fun robot' => robot'.blocks ++ others)
      (mockRobotUpdateGoalProgress robot) := by
  have hgroups := @updateGroups_settles live robot.groups others
  have hupdate := hgroups.perm List.perm_append_comm
  exact hupdate.bind fun _ => settles_pure List.perm_append_comm

end Blocks

/-- Callbacks, updates, and answers that are sent, in any order; the answers that are not sent yet, and
the use of the heap so far. -/
inductive HeapRun (live : Finset Nat) : MockRobot → List ResponseContext → HeapUse Nat → Prop where
  | started (groups : List (UInt8 × UInt8)) : HeapRun live (mockRobotInitMulti groups) [] ⟨live, [], []⟩
  | command {robot robot' : MockRobot} {unsent : List ResponseContext} {m m' : HeapUse Nat}
      (run : HeapRun live robot unsent m) (header : ProtocolHeader) (payload : Nat → UInt8)
      {answer : Option ResponseContext}
      (h : (mockRobotHandleCommand robot header payload).Returns robotHeap m (answer, robot') m') :
      HeapRun live robot' (answer.toList ++ unsent) m'
  | errorInfo {robot robot' : MockRobot} {unsent : List ResponseContext} {m m' : HeapUse Nat}
      (run : HeapRun live robot unsent m) {answer : Option ResponseContext}
      (h : (mockRobotGetErrorInfoCallback robot).Returns robotHeap m (answer, robot') m') :
      HeapRun live robot' (answer.toList ++ unsent) m'
  | update {robot robot' : MockRobot} {unsent : List ResponseContext} {m m' : HeapUse Nat}
      (run : HeapRun live robot unsent m)
      (h : (mockRobotUpdateGoalProgress robot).Returns robotHeap m robot' m') : HeapRun live robot' unsent m'
  | connected {robot : MockRobot} {unsent : List ResponseContext} {m : HeapUse Nat}
      (run : HeapRun live robot unsent m) : HeapRun live (mockRobotOnConnection robot) unsent m
  | disconnected {robot : MockRobot} {unsent : List ResponseContext} {m : HeapUse Nat}
      (run : HeapRun live robot unsent m) : HeapRun live (mockRobotOnDisconnection robot) unsent m
  | sent {robot : MockRobot} {before after : List ResponseContext} {ctx : ResponseContext}
      {m m' : HeapUse Nat} (run : HeapRun live robot (before ++ ctx :: after) m) (socket : Int) {status : Int}
      (h : (fromServer (sendCommandResponseContext socket (some ctx))).Returns robotHeap m status m') :
      HeapRun live robot (before ++ after) m'

/-- What is allocated for the stored trajectories, and for the answers that are not sent yet. -/
def allocated (robot : MockRobot) (unsent : List ResponseContext) : List Nat :=
  robot.blocks ++ unsent.flatMap ResponseContext.blocks

section Runs

variable {robot robot' : MockRobot} {unsent : List ResponseContext} {live : Finset Nat} {m m' : HeapUse Nat}

theorem leftOver_allocated (answer : Option ResponseContext) (robot : MockRobot)
    (unsent : List ResponseContext) :
    (leftOver (unsent.flatMap ResponseContext.blocks) (answer, robot)).Perm
      (allocated robot (answer.toList ++ unsent)) := by
  have hanswer : (answer.toList ++ unsent).flatMap ResponseContext.blocks =
      contextBlocks? answer ++ unsent.flatMap ResponseContext.blocks := by
    cases answer with
    | none => rfl
    | some ctx => rfl
  rw [leftOver, allocated, hanswer]
  exact List.perm_append_comm_assoc _ _ _

theorem allocated_sent (robot : MockRobot) (before after : List ResponseContext) (ctx : ResponseContext) :
    (allocated robot (before ++ ctx :: after)).Perm
      (contextBlocks? (some ctx) ++ allocated robot (before ++ after)) := by
  have hblocks := flatMap_middle ResponseContext.blocks ctx before after
  exact (hblocks.append_left robot.blocks).trans (List.perm_append_comm_assoc _ _ _)

theorem send_settles (robot : MockRobot) (before after : List ResponseContext) (ctx : ResponseContext)
    (socket : Int) :
    Settles live (allocated robot (before ++ ctx :: after)) (fun _ => allocated robot (before ++ after))
      (fromServer (sendCommandResponseContext socket (some ctx))) := by
  have hsend := settles_fromServer (@sendCommandResponseContext_balances live
    (allocated robot (before ++ after)) socket (some ctx))
  exact hsend.perm (allocated_sent robot before after ctx)

theorem HeapRun.holds (h : HeapRun live robot unsent m) : m.Holds live (allocated robot unsent) := by
  induction h with
  | started groups =>
      have hnone : (mockRobotInitMulti groups).blocks = [] := by
        rw [MockRobot.blocks, List.flatMap_eq_nil_iff]
        intro grp hgrp
        obtain ⟨_, -, rfl⟩ := List.mem_map.mp hgrp
        rfl
      rw [allocated, hnone]
      exact HeapUse.holds_nothing live
  | command _ header payload hpath ih =>
      have hsettles := handleCommand_settles _ header payload _ ih
      exact (hsettles.returns hpath).perm (leftOver_allocated _ _ _)
  | errorInfo _ hpath ih =>
      have hsettles := getErrorInfo_settles _ _ ih
      exact (hsettles.returns hpath).perm (leftOver_allocated _ _ _)
  | update _ hpath ih => exact (update_settles _ _ ih).returns hpath
  | connected _ ih => exact ih
  | @disconnected robot _ _ _ ih =>
      have hblocks : (mockRobotOnDisconnection robot).blocks = robot.blocks := by
        unfold mockRobotOnDisconnection
        have hstop := stopMotion_blocks
          { robot with disconnectionCount := robot.disconnectionCount + 1 }
        exact hstop
      rwa [allocated, hblocks]
  | sent _ socket hpath ih => exact (send_settles _ _ _ _ socket _ ih).returns hpath

/-- In any order of callbacks, updates and sent answers: beside the blocks of others, one block is allocated
for each stored trajectory, and those of the unsent answers; and whatever comes next frees no block twice,
nor one of others. -/
theorem robotHeap_of_run (h : HeapRun live robot unsent m) :
    m.Holds live (allocated robot unsent) ∧
      (∀ header payload, (mockRobotHandleCommand robot header payload).Obeys robotHeap (fun _ _ => True) m) ∧
      (mockRobotGetErrorInfoCallback robot).Obeys robotHeap (fun _ _ => True) m ∧
      (mockRobotUpdateGoalProgress robot).Obeys robotHeap (fun _ _ => True) m ∧
      ∀ ctx ∈ unsent, ∀ socket,
        (fromServer (sendCommandResponseContext socket (some ctx))).Obeys robotHeap (fun _ _ => True) m := by
  have hholds := h.holds
  refine ⟨hholds, ?_, ?_, ?_, ?_⟩
  · intro header payload
    exact (handleCommand_settles robot header payload m hholds).mono fun _ _ _ => trivial
  · exact (getErrorInfo_settles robot m hholds).mono fun _ _ _ => trivial
  · exact (update_settles robot m hholds).mono fun _ _ _ => trivial
  · intro ctx hctx socket
    obtain ⟨before, after, rfl⟩ := List.append_of_mem hctx
    exact (send_settles robot before after ctx socket m hholds).mono fun _ _ _ => trivial

end Runs

/-- Block 0 belongs to somebody else; the answer to the command that turns on the power is not sent yet. -/
theorem robotHeap_of_run_powered :
    let answer : ResponseContext := ⟨1, 2, headerOf 0 msgOk, none⟩
    let m := ((⟨{0}, [], []⟩ : HeapUse Nat).get [1]).get [2]
    m.Holds {0} (allocated poweredRobot [answer]) ∧
      (∀ header payload,
        (mockRobotHandleCommand poweredRobot header payload).Obeys robotHeap (fun _ _ => True) m) ∧
      (mockRobotGetErrorInfoCallback poweredRobot).Obeys robotHeap (fun _ _ => True) m ∧
      (mockRobotUpdateGoalProgress poweredRobot).Obeys robotHeap (fun _ _ => True) m ∧
      ∀ ctx ∈ [answer], ∀ socket,
        (fromServer (sendCommandResponseContext socket (some ctx))).Obeys robotHeap (fun _ _ => True) m := by
  intro answer m
  have hstart := @HeapRun.started {0} [(groupTypeRobot, 6)]
  have hfresh : (⟨{0}, [], []⟩ : HeapUse Nat).Fresh [1] := ⟨by decide, by decide⟩
  have hfresh' : ((⟨{0}, [], []⟩ : HeapUse Nat).get [1]).Fresh [2] := ⟨by decide, by decide⟩
  have hpath : (mockRobotHandleCommand mockRobotInit (headerOf 0 msgTurnServoPowerOn) originMemory).Returns
      robotHeap ⟨{0}, [], []⟩ (some answer, poweredRobot) m :=
    Exists.intro (0 : Int) ⟨trivial, Exists.intro (some 1) ⟨hfresh, Exists.intro (some 2) ⟨hfresh',
      Exists.intro (0 : UInt64) ⟨trivial, rfl, rfl⟩⟩⟩⟩
  exact robotHeap_of_run (hstart.command (headerOf 0 msgTurnServoPowerOn) originMemory hpath)

end YaskawaComms.Robot
