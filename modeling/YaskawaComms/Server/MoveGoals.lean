import YaskawaComms.Protocol.MoveGoalLayout
import YaskawaComms.Server.Conversations
import YaskawaComms.Server.Walk

/-!
# Move goals from end to end

What a client encodes is what `handle_command` gets, and what it reads from it.
-/

namespace YaskawaComms.Server

open Protocol Program

def msgMoveGoal : UInt8 := 0x0d

theorem moveGoalCalcSize_le {goal : MoveGoal} (hpoints : goal.trajectory.length ≤ maxTrajectoryPoints) :
    moveGoalCalcSize goal.trajectory.length goal.tolerances.length ≤ maxPayloadSize := by
  have hle := goal.tolerances_le
  unfold maxTrajectoryPoints at hpoints
  rw [maxPayloadSize, maxTrajectoryPoints, moveGoalCalcSize_eq (by omega) (by omega),
    moveGoalCalcSize_eq (by omega) (by omega)]
  omega

/-- The calls of `handle_command`. -/
def commandCalls (calls : List ((c : ServerCall) × c.Result)) : List ServerCall :=
  (calls.map (·.1)).filter fun c => match c with
    | .handleCommand _ _ => true
    | _ => false

theorem commandCalls_append (calls more : List ((c : ServerCall) × c.Result)) :
    commandCalls (calls ++ more) = commandCalls calls ++ commandCalls more := by
  rw [commandCalls, List.map_append, List.filter_append, commandCalls, commandCalls]

theorem commandCalls_eq_nil {calls : List ((c : ServerCall) × c.Result)}
    (h : ∀ call ∈ calls, ∀ header payload, call.1 ≠ .handleCommand header payload) :
    commandCalls calls = [] := by
  apply List.filter_eq_nil_iff.mpr
  intro c hc
  obtain ⟨call, hcall, rfl⟩ := List.mem_map.mp hc
  split
  · next header payload hcommand => exact absurd hcommand (h call hcall header payload)
  · exact Bool.false_ne_true

theorem commandCalls_silent {calls : List ((c : ServerCall) × c.Result)} (h : spoken calls = []) :
    commandCalls calls = [] := by
  apply commandCalls_eq_nil
  intro call hcall header payload hcommand
  have hspeaks := List.filter_eq_nil_iff.mp h call.1 (List.mem_map_of_mem hcall)
  rw [hcommand] at hspeaks
  exact hspeaks rfl

/-- Answering a message asks nobody else. -/
def answersOnly : Monitor serverSignature Unit where
  good _ c := c.prepares = true ∨ c = .nullContext ∨ ∃ fd bytes, c = .send fd bytes
  allowed _ _ _ := True
  next _ _ _ := ()

theorem answersOnly_rule : AnswerRule answersOnly (fun _ => True) (fun _ => True) where
  prepares _ hc _ _ := ⟨Or.inl hc, fun _ => rfl⟩
  built _ _ := trivial
  sends _ ctx _ := sendCommandResponseContext_walks
    (fun bytes _ _ => ⟨Or.inr (Or.inr ⟨_, bytes, rfl⟩), fun _ => rfl⟩)
    (fun _ _ _ => ⟨Or.inl rfl, fun _ => rfl⟩) (fun _ _ => ⟨Or.inr (Or.inl rfl), fun _ => rfl⟩) ctx

section Command

variable {cfg : ServerConfig} {env : Environment} {w : World} {f : Frame} {rest : List UInt8}

/-- A command is handed to `handle_command` once. -/
theorem commandCalls_handlePayload (hregister : f.header.messageType ≠ msgRegisterUdpPort)
    (hinfo : f.header.messageType ≠ msgGetErrorInfo) (hcallback : cfg.handleCommand = true)
    (block : Nat) :
    commandCalls ((handlePayload cfg f.header block f.payload >>= fun _ => .ret Round.again).trace
      (World.handle cfg env) w) = [.handleCommand f.header f.payload] := by
  have hrespond : ∀ context : ServerProgram (Option ResponseContext),
      Walks answersOnly (fun _ => True) (fun ctx => ∀ c, ctx = some c → True) context →
        Walks answersOnly (fun _ => True) (fun _ => True) ((respond context >>= fun _ => pure ()) >>=
          fun _ => platformFree block >>= fun _ => .ret Round.again) := by
    intro context hcontext
    have hdone : Walks answersOnly (fun _ => True) (fun _ => True)
        (respond context >>= fun _ => pure ()) :=
      (answersOnly_rule.respond hcontext).bind fun _ _ => walks_pure trivial
    apply hdone.bind
    intro _ _
    exact Passes.walks (fun _ _ => ⟨Or.inl rfl, fun _ => rfl⟩) fun _ => walks_pure trivial
  have hnothing : ∀ {p : ServerProgram Round} {v : World},
      Walks answersOnly (fun _ => True) (fun _ => True) p →
        commandCalls (p.trace (World.handle cfg env) v) = [] := by
    intro p v hp
    apply commandCalls_eq_nil
    intro call hcall header payload hcommand
    obtain ⟨_, hgood⟩ := (hp () trivial).trace_good (fun _ _ _ => trivial) call hcall
    rw [hcommand] at hgood
    rcases hgood with hprepares | hnull | ⟨_, _, hsend⟩
    · cases hprepares
    · cases hnull
    · cases hsend
  have hnext : ∀ {c : ServerCall} {r : c.Result} {v v' : World} {p : c.Result → ServerProgram Round},
      v.handle cfg env c = (some r, v') →
        commandCalls ((Program.call c .ret >>= p : ServerProgram Round).trace (World.handle cfg env) v) =
          commandCalls [⟨c, r⟩] ++ commandCalls ((p r).trace (World.handle cfg env) v') := by
    intro c r v v' p hanswer
    rw [call_bind, trace_call_some hanswer]
    exact commandCalls_append [⟨c, r⟩] _
  unfold handlePayload
  simp only [Program.bind_assoc]
  rw [if_neg hregister, if_neg hinfo, hcallback]
  unfold respondWith
  simp only [if_true, Program.bind_assoc]
  let v : World := { w with shared.ctx.client.lastCommand := w.shared.time }
  obtain ⟨rsp, v', hcommand⟩ : ∃ rsp v', v.handle cfg env (.handleCommand f.header f.payload) =
    (some rsp, v') := ⟨_, _, rfl⟩
  have hstore : w.handle cfg env (.storeLastCommand w.shared.time) = (some (), v) := rfl
  refine (hnext rfl).trans ((hnext hstore).trans ((hnext hcommand).trans ?_))
  rw [hnothing]
  · rfl
  · cases rsp with
    | none => exact hrespond _ (answersOnly_rule.msgErrResponse _)
    | some rsp => exact hrespond _ (walks_pure fun _ _ => trivial)

/-- A move goal that arrives in any pieces after its header is handed to `handle_command`, which finds
in it everything that the client has put there. -/
theorem moveGoal_survives {goal : MoveGoal} {data : Nat → UInt8} (hw : w.Serving)
    (hpoints : goal.trajectory.length ≤ maxTrajectoryPoints)
    (hpayload : f.payload = goal.payload) (htype : f.header.messageType = msgMoveGoal)
    (hcallback : cfg.handleCommand = true) (hwhole : HeaderWhole w.transport.cuts)
    (hstream : w.transport.stream = f.bytes ++ rest) (hmalloc : w.mallocs.headD true = true)
    (hdata : HoldsBytes data 0 f.payload) :
    let size := moveGoalCalcSize goal.trajectory.length goal.tolerances.length
    f.header.payloadLength.toNat = size ∧ size ≤ maxPayloadSize ∧
      commandCalls ((tcpThreadFunc cfg).trace (World.handle cfg env) w) =
        [.handleCommand f.header goal.payload] ∧
      (validateMoveGoal data f.header.payloadLength).1 = some (some 0) ∧ ReadsGoal data 0 goal := by
  have hle := goal.tolerances_le
  have hsize := moveGoalCalcSize_le hpoints
  unfold maxTrajectoryPoints at hpoints
  have hlength : f.header.payloadLength.toNat =
      moveGoalCalcSize goal.trajectory.length goal.tolerances.length := by
    rw [← f.length, hpayload, goal.payload_length, moveGoalCalcSize_eq (by omega) (by omega)]
  have hfits : goal.payload.length < 2 ^ 32 := by
    rw [goal.payload_length]
    omega
  have hofNat : f.header.payloadLength = UInt32.ofNat goal.payload.length := by
    rw [← hpayload, f.length, UInt32.ofNat_toNat]
  rw [hpayload] at hdata
  refine ⟨hlength, hsize, ?_, ?_, goal.readsGoal hfits hdata⟩
  · obtain ⟨calls, hleads, hcalls⟩ : Silently cfg env (tcpThreadFunc cfg) w _ _ :=
      silently_frame hw (wholeWindow_of_headerWhole hwhole hstream) hstream (by rwa [hlength]) hmalloc
    have hregister : f.header.messageType ≠ msgRegisterUdpPort := by
      rw [htype]
      decide
    have hinfo : f.header.messageType ≠ msgGetErrorInfo := by
      rw [htype]
      decide
    rw [hleads.trace_eq, commandCalls_append, commandCalls_silent hcalls,
      commandCalls_handlePayload hregister hinfo hcallback, hpayload]
    rfl
  · rw [hofNat]
    exact goal.validated hfits hdata

end Command

section Examples

/-- Stay at the origin for a second. -/
def originGoal : MoveGoal where
  numberOfAxesControlled := 6
  groupIndex := 0
  trajectory := [⟨.replicate _ 0, .replicate _ 0, .replicate _ 0, .replicate _ 0, ⟨1, 0⟩⟩]
  tolerances := []
  points := Nat.le_refl 1
  matching := Or.inl rfl

def originFrame : Frame where
  header := headerOf 280 msgMoveGoal
  payload := originGoal.payload
  magic := rfl
  length := originGoal.payload_length

/-- Along a curve to the second point, both with tolerances. -/
def curveGoal : MoveGoal where
  numberOfAxesControlled := 6
  groupIndex := 1
  trajectory := [⟨.replicate _ 1, .replicate _ 2, .replicate _ 0, .replicate _ 0, ⟨1, 0⟩⟩,
    ⟨.replicate _ 3, .replicate _ 0, .replicate _ 0, .replicate _ 0, ⟨2, 500000000⟩⟩]
  tolerances := [⟨.replicate _ 4, .replicate _ 5, .replicate _ 6, .replicate _ 7⟩,
    ⟨.replicate _ 8, .replicate _ 9, .replicate _ 10, .replicate _ 11⟩]
  points := Nat.le_succ 1
  matching := Or.inr rfl

def curveFrame : Frame where
  header := headerOf 1056 msgMoveGoal
  payload := curveGoal.payload
  magic := rfl
  length := curveGoal.payload_length

/-- The header arrives by itself, and the payload in four pieces. -/
def curveWorld : World :=
  worldOf { quiet (curveFrame.bytes ++ heartbeat.bytes) with
    cuts := [.upTo 17, .upTo 99, .wouldBlock, .upTo 0, .upTo 511] } []

theorem curveGoal_survives :
    commandCalls ((tcpThreadFunc commandConfig).trace (World.handle commandConfig plainEnvironment)
        curveWorld) = [.handleCommand curveFrame.header curveGoal.payload] ∧
      ReadsGoal (fun i => curveGoal.payload.getD i 0) 0 curveGoal := by
  have hdata : HoldsBytes (fun i => curveGoal.payload.getD i 0) 0 curveFrame.payload := by
    apply holdsBytes_of_getElem?
    intro i b hb
    rw [Nat.zero_add, List.getD_eq_getElem?_getD, show curveGoal.payload[i]? = some b from hb]
    rfl
  have hstream : curveWorld.transport.stream = curveFrame.bytes ++ heartbeat.bytes := rfl
  have hsmall : curveGoal.trajectory.length ≤ maxTrajectoryPoints := by decide
  have hpayload : curveFrame.payload = curveGoal.payload := rfl
  have hcallback : commandConfig.handleCommand = true := rfl
  have hwhole : HeaderWhole curveWorld.transport.cuts := by
    intro cut hcut
    cases hcut
    exact ⟨17, le_refl _, rfl⟩
  obtain ⟨_, _, hcommand, _, hreads⟩ : _ ∧ _ ∧ commandCalls ((tcpThreadFunc commandConfig).trace
      (World.handle commandConfig plainEnvironment) _) = _ ∧ _ ∧ _ :=
    moveGoal_survives (worldOf_serving _ _) hsmall hpayload rfl hcallback hwhole hstream rfl hdata
  exact ⟨hcommand, hreads⟩

end Examples

end YaskawaComms.Server
