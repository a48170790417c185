import YaskawaComms.Logging.LogMessage
import Mathlib.Data.List.TakeWhile

/-!
# The log pipeline

The two consumers of the log ring buffer read it in chunks of at most 1023 bytes. The broadcaster
also produces: for each interface on which sending fails it logs a report.
-/

namespace YaskawaComms.Logging

open Program

/-- The C string in an array: its bytes before the first terminator. -/
def cString (bytes : List UInt8) : List UInt8 := bytes.takeWhile (· ≠ 0)

def asciiBytes (s : String) : List UInt8 := s.toList.map fun c => UInt8.ofNat c.toNat

def logToStdout : LogProgram Unit := do
  let array ← .call .stackBuffer .ret
  let (bytesRead, data) ← .call (.ringBufferReadN (1024 - 1)) .ret
  if bytesRead = 0 then
    return
  let buffer := overwrite (overwrite array.bytes 0 data) bytesRead [0]
  let messageLen := (cString buffer).length
  if messageLen = 0 then
    return
  .call (.printf (cString buffer)) .ret

/-- The text of `pr_error` after a failed `sendto`. -/
def sendFailure (interface : UdpInterface) : List UInt8 :=
  asciiBytes "-E-UDP broadcast: Failed to send on interface " ++ interface.interfaceName ++
    asciiBytes "\r\n"

/-- The loop over the configured interfaces. -/
def sendToAll (g : LoggingConfig) (text : List UInt8) : List UdpInterface → LogProgram Unit
  | [] => return
  | interface :: interfaces => do
      let sent ← .call (.sendto interface text) .ret
      if sent < 0 then
        let _ ← writeLogMessage g .error (sendFailure interface)
      sendToAll g text interfaces

def processLogMessage (g : LoggingConfig) (config : UdpBroadcastConfig) : LogProgram Int := do
  if !config.ringBuffer then
    return -1
  let array ← .call .stackBuffer .ret
  let (bytesRead, data) ← .call (.ringBufferReadN (1024 - 1)) .ret
  if bytesRead = 0 then
    return 0
  let buffer := overwrite (overwrite array.bytes 0 data) bytesRead [0]
  let messageLen := (cString buffer).length
  if messageLen = 0 then
    return 0
  .call (.puts (cString buffer)) .ret
  sendToAll g (buffer.take messageLen) config.configured
  return bytesRead

section Chunks

theorem cString_terminated (bytes data : List UInt8) :
    cString (overwrite (overwrite bytes 0 data) data.length [0]) = cString data := by
  have hsplit : overwrite (overwrite bytes 0 data) data.length [0] =
      data ++ 0 :: (data ++ bytes.drop (0 + data.length)).drop (data.length + 1) := by
    rw [overwrite, overwrite, List.take_zero, List.nil_append, List.take_left', List.append_assoc]
    · rfl
    · rfl
  rw [hsplit]
  clear hsplit
  generalize (data ++ bytes.drop (0 + data.length)).drop (data.length + 1) = rest
  induction data with
  | nil => rfl
  | cons b data ih =>
      by_cases hb : b = 0
      · simp [cString, hb]
      · simpa [cString, hb] using ih

theorem cString_prefix (bytes : List UInt8) : bytes.take (cString bytes).length = cString bytes := by
  exact (List.prefix_iff_eq_take.mp (List.takeWhile_prefix _)).symm

theorem cString_eq_self {bytes : List UInt8} (h : 0 ∉ bytes) : cString bytes = bytes := by
  rw [cString, List.takeWhile_eq_self_iff]
  intro b hb
  exact decide_eq_true fun hzero => h (hzero ▸ hb)

end Chunks

section Execution

variable {N : Nat} {items part more : List UInt8} {outs outs' : List LogOutput} {w w' w'' : LogWorld}

theorem Effect.trans (h : Effect N items part outs w w')
    (h' : Effect N (items ++ part) more outs' w' w'') :
    Effect N items (part ++ more) (outs ++ outs') w w'' := by
  constructor
  · rw [← List.append_assoc]
    exact h'.idle
  · rw [h'.accepted, h.accepted, List.append_assoc]
  · rw [h'.outputs, h.outputs, List.append_assoc]

theorem Effect.refl (hidle : RingIdle N w.ring items) : Effect N items [] [] w w := by
  constructor
  · rwa [List.append_nil]
  · exact (List.append_nil _).symm
  · exact (List.append_nil _).symm

theorem Effect.output (hidle : RingIdle N w.ring items) (o : LogOutput) :
    Effect N items [] [o] w (w.output o) := by
  constructor
  · rwa [List.append_nil]
  · exact (List.append_nil _).symm
  · rfl

variable (env : Surroundings)

theorem exec_chunk (hidle : RingIdle N w.ring items) (hN : N ≤ 2 ^ 63) :
    ∃ w', Effect N (items.drop 1023) [] [] w w' ∧
      ∀ {α : Type} (f : StackBuffer → Nat × List UInt8 → LogProgram α),
        (Program.call (S := logSignature) .stackBuffer .ret >>= fun array =>
            .call (.ringBufferReadN (1024 - 1)) .ret >>= f array).exec (LogWorld.handle env) w =
          (f (env.stackBuffer w.calls) ((items.take 1023).length, items.take 1023)).exec
            (LogWorld.handle env) w' := by
  obtain ⟨rb, hread, hidle', -⟩ := exec_ringBufferReadN hidle hN 1023
  refine ⟨{ w with ring := rb, calls := w.calls + 2 }, ?_, ?_⟩
  · constructor
    · rwa [List.append_nil]
    · exact (List.append_nil _).symm
    · exact (List.append_nil _).symm
  · intro α f
    rw [call_bind, exec_call_some (r := env.stackBuffer w.calls) rfl, ret_bind, call_bind,
      List.length_take]
    apply exec_call_some
    simp only [LogWorld.handle, hread]

theorem exec_writeLogMessage_any {g : LoggingConfig} (hidle : RingIdle N w.ring items)
    (hN : N ≤ 2 ^ 63) (hring : g.ringBuffer = true) (level : LogLevel) (text : List UInt8) :
    ∃ r part w', (writeLogMessage g level text).exec (LogWorld.handle env) w = (some r, w') ∧
      Effect N items part [] w w' ∧ (g.currentLevel.value < level.value → part = []) := by
  by_cases hlevel : g.currentLevel.value < level.value
  · exact ⟨0, [], w, exec_writeLogMessage_filtered env hring hlevel text, .refl hidle, fun _ => rfl⟩
  · obtain ⟨w', hexec, heffect⟩ := exec_writeLogMessage env hidle hN hring (Nat.not_lt.mp hlevel) text
    exact ⟨_, _, w', hexec, heffect, fun h => absurd h hlevel⟩

/-- Every interface is offered the text; what the ring gets are the reports. -/
theorem exec_sendToAll {g : LoggingConfig} (hidle : RingIdle N w.ring items) (hN : N ≤ 2 ^ 63)
    (hring : g.ringBuffer = true) (text : List UInt8) (interfaces : List UdpInterface) :
    ∃ part w', (sendToAll g text interfaces).exec (LogWorld.handle env) w = (some (), w') ∧
      Effect N items part (interfaces.map fun interface => .sendto interface text) w w' ∧
      ((g.currentLevel.value < LogLevel.error.value ∨
          ∀ i, i < interfaces.length → 0 ≤ env.sendto (w.outputs.length + i)) → part = []) := by
  induction interfaces generalizing w items with
  | nil =>
      exact ⟨[], w, rfl, .refl hidle, fun _ => rfl⟩
  | cons interface interfaces ih =>
      have hsend : LogWorld.handle env (.sendto interface text) w =
        (some (env.sendto w.outputs.length), w.output (.sendto interface text)) := rfl
      have hsent : Effect N items [] [.sendto interface text] w (w.output (.sendto interface text)) :=
        .output hidle _
      rw [sendToAll, call_bind, exec_call_some hsend, ret_bind]
      by_cases hfailed : env.sendto w.outputs.length < 0
      · obtain ⟨r, report, w₁, hreport, hreported, hfiltered⟩ := exec_writeLogMessage_any env
          hsent.idle hN hring .error (sendFailure interface)
        obtain ⟨part, w₂, hrest, heffect, hquiet⟩ := ih hreported.idle
        refine ⟨report ++ part, w₂, ?_, hsent.trans (hreported.trans heffect), ?_⟩
        · rw [if_pos hfailed, exec_bind_some hreport, hrest]
        · rintro (hlevel | hgood)
          · rw [hfiltered hlevel, hquiet (Or.inl hlevel)]
            rfl
          · have hfirst := hgood 0 (Nat.succ_pos _)
            rw [Nat.add_zero] at hfirst
            omega
      · obtain ⟨part, w₂, hrest, heffect, hquiet⟩ := ih hsent.idle
        refine ⟨part, w₂, ?_, hsent.trans heffect, ?_⟩
        · rw [if_neg hfailed, hrest]
        · rintro (hlevel | hgood)
          · exact hquiet (Or.inl hlevel)
          · apply hquiet (Or.inr _)
            intro i hi
            rw [LogWorld.output, List.length_append, List.length_singleton, Nat.add_assoc,
              Nat.add_comm 1]
            exact hgood (i + 1) (Nat.succ_lt_succ hi)

/-- The text that a consumer makes of what is stored. -/
def nextText (items : List UInt8) : List UInt8 := cString (items.take 1023)

theorem exec_logToStdout (hidle : RingIdle N w.ring items) (hN : N ≤ 2 ^ 63) :
    ∃ w', logToStdout.exec (LogWorld.handle env) w = (some (), w') ∧
      Effect N (items.drop 1023) []
        (if nextText items = [] then [] else [.printf (nextText items)]) w w' := by
  obtain ⟨w₁, hconsumed, hchunk⟩ := exec_chunk env hidle hN
  have htext := cString_terminated (env.stackBuffer w.calls).bytes (items.take 1023)
  change _ = nextText items at htext
  rw [logToStdout, hchunk]
  dsimp only
  by_cases hnone : (items.take 1023).length = 0
  · have hempty : nextText items = [] := by
      rw [nextText, List.length_eq_zero_iff.mp hnone]
      rfl
    rw [if_pos hnone, if_pos hempty]
    exact ⟨w₁, rfl, hconsumed⟩
  · rw [if_neg hnone, htext]
    by_cases hempty : nextText items = []
    · rw [if_pos hempty, if_pos (List.length_eq_zero_iff.mpr hempty)]
      exact ⟨w₁, rfl, hconsumed⟩
    · rw [if_neg hempty, if_neg fun h => hempty (List.length_eq_zero_iff.mp h)]
      exact ⟨w₁.output (.printf (nextText items)), rfl, hconsumed.trans (.output hconsumed.idle _)⟩

theorem exec_processLogMessage_eq {g : LoggingConfig} {config : UdpBroadcastConfig}
    (hidle : RingIdle N w.ring items) (hN : N ≤ 2 ^ 63) (hconfig : config.ringBuffer = true) :
    (nextText items = [] → ∃ w', (processLogMessage g config).exec (LogWorld.handle env) w =
        (some 0, w') ∧ Effect N (items.drop 1023) [] [] w w') ∧
    (nextText items ≠ [] → ∃ w', (processLogMessage g config).exec (LogWorld.handle env) w =
        (do
          sendToAll g (nextText items) config.configured
          return ((items.take 1023).length : Int) : LogProgram Int).exec (LogWorld.handle env) w' ∧
      Effect N (items.drop 1023) [] [.puts (nextText items)] w w') := by
  obtain ⟨w₁, hconsumed, hchunk⟩ := exec_chunk env hidle hN
  have htext := cString_terminated (env.stackBuffer w.calls).bytes (items.take 1023)
  change _ = nextText items at htext
  rw [processLogMessage, hconfig, if_neg (by simp), hchunk]
  dsimp only
  by_cases hnone : (items.take 1023).length = 0
  · have hempty : nextText items = [] := by
      rw [nextText, List.length_eq_zero_iff.mp hnone]
      rfl
    rw [if_pos hnone]
    exact ⟨fun _ => ⟨w₁, rfl, hconsumed⟩, fun h => absurd hempty h⟩
  · rw [if_neg hnone, htext]
    constructor
    · intro hempty
      rw [if_pos (List.length_eq_zero_iff.mpr hempty)]
      exact ⟨w₁, rfl, hconsumed⟩
    · intro hsome
      rw [if_neg fun h => hsome (List.length_eq_zero_iff.mp h), ← htext, cString_prefix, htext,
        call_bind, exec_call_some (r := ()) rfl, ret_bind]
      exact ⟨w₁.output (.puts (nextText items)), rfl, hconsumed.trans (.output hconsumed.idle _)⟩

theorem exec_processLogMessage {g : LoggingConfig} {config : UdpBroadcastConfig}
    (hidle : RingIdle N w.ring items) (hN : N ≤ 2 ^ 63) (hring : g.ringBuffer = true)
    (hconfig : config.ringBuffer = true) :
    ∃ r part w', (processLogMessage g config).exec (LogWorld.handle env) w = (some r, w') ∧
      Effect N (items.drop 1023) part
        (if nextText items = [] then [] else .puts (nextText items) ::
          config.configured.map fun interface => .sendto interface (nextText items)) w w' ∧
      ((nextText items = [] ∨ g.currentLevel.value < LogLevel.error.value ∨
        ∀ i, i < config.configured.length → 0 ≤ env.sendto (w.outputs.length + 1 + i)) →
        part = []) := by
  obtain ⟨hnothing, hsomething⟩ := exec_processLogMessage_eq env (g := g) hidle hN hconfig
  by_cases hempty : nextText items = []
  · obtain ⟨w', hexec, heffect⟩ := hnothing hempty
    rw [if_pos hempty]
    exact ⟨0, [], w', hexec, heffect, fun _ => rfl⟩
  · obtain ⟨w₁, hexec, hputs⟩ := hsomething hempty
    obtain ⟨part, w₂, hsend, heffect, hquiet⟩ := exec_sendToAll env hputs.idle hN hring
      (nextText items) config.configured
    rw [if_neg hempty]
    refine ⟨((items.take 1023).length : Int), part, w₂, ?_, hputs.trans heffect, ?_⟩
    · rw [hexec, exec_bind_some hsend]
      rfl
    · rintro (hnone | hgood)
      · exact absurd hnone hempty
      · apply hquiet
        rw [hputs.outputs, List.length_append]
        exact hgood

end Execution

inductive LogStep where
  | write (level : LogLevel) (text : List UInt8)
  | toStdout
  | process (config : UdpBroadcastConfig)

def LogStep.code (g : LoggingConfig) : LogStep → LogProgram Unit
  | .write level text => do
      let _ ← writeLogMessage g level text
  | .toStdout => logToStdout
  | .process config => do
      let _ ← processLogMessage g config

def logSteps (g : LoggingConfig) : List LogStep → LogProgram Unit
  | [] => return
  | step :: steps => do
      step.code g
      logSteps g steps

/-- What a step can hand over: a text, and the outputs that carry it. -/
inductive HandsOn : LogStep → List UInt8 × List LogOutput → Prop where
  | nothing (step : LogStep) : HandsOn step ([], [])
  | printed (text : List UInt8) : HandsOn .toStdout (text, [.printf text])
  | broadcast (config : UdpBroadcastConfig) (text : List UInt8) : HandsOn (.process config)
      (text, .puts text :: config.configured.map fun interface => .sendto interface text)

section Steps

variable (env : Surroundings) {g : LoggingConfig} {N : Nat} {items : List UInt8} {w : LogWorld}

/-- One step: what it takes from the stored bytes it hands over, unless a terminator hides it. -/
theorem LogStep.exec_code (hidle : RingIdle N w.ring items) (hN : N ≤ 2 ^ 63)
    (hring : g.ringBuffer = true) (step : LogStep) :
    ∃ handed rest part w', (step.code g).exec (LogWorld.handle env) w = (some (), w') ∧
      HandsOn step handed ∧ Effect N rest part handed.2 w w' ∧
      (0 ∉ items → handed.1 ++ rest = items) := by
  have hsplit : 0 ∉ items → nextText items ++ items.drop 1023 = items := by
    intro hclean
    have htake : nextText items = items.take 1023 :=
      cString_eq_self fun h => hclean (List.mem_of_mem_take h)
    rw [htake, List.take_append_drop]
  cases step with
  | write level text =>
      obtain ⟨r, part, w', hexec, heffect, -⟩ := exec_writeLogMessage_any env hidle hN hring level text
      exact ⟨([], []), items, part, w', exec_bind_some hexec, .nothing _, heffect, fun _ => rfl⟩
  | toStdout =>
      obtain ⟨w', hexec, heffect⟩ := exec_logToStdout env hidle hN
      by_cases hempty : nextText items = []
      · rw [if_pos hempty] at heffect
        rw [hempty] at hsplit
        exact ⟨([], []), _, [], w', hexec, .nothing _, heffect, hsplit⟩
      · rw [if_neg hempty] at heffect
        exact ⟨(nextText items, _), _, [], w', hexec, .printed _, heffect, hsplit⟩
  | process config =>
      by_cases hconfig : config.ringBuffer = true
      · obtain ⟨r, part, w', hexec, heffect, -⟩ := exec_processLogMessage env hidle hN hring hconfig
        by_cases hempty : nextText items = []
        · rw [if_pos hempty] at heffect
          rw [hempty] at hsplit
          exact ⟨([], []), _, part, w', exec_bind_some hexec, .nothing _, heffect, hsplit⟩
        · rw [if_neg hempty] at heffect
          exact ⟨(nextText items, _), _, part, w', exec_bind_some hexec, .broadcast config _, heffect,
            hsplit⟩
      · refine ⟨([], []), items, [], w, ?_, .nothing _, .refl hidle, fun _ => rfl⟩
        rw [LogStep.code, processLogMessage, if_pos (by simpa using hconfig)]
        rfl

theorem exec_logSteps (hidle : RingIdle N w.ring items) (hN : N ≤ 2 ^ 63)
    (hring : g.ringBuffer = true) (steps : List LogStep) :
    ∃ handed rest part w', (logSteps g steps).exec (LogWorld.handle env) w = (some (), w') ∧
      List.Forall₂ HandsOn steps handed ∧
      RingIdle N w'.ring rest ∧ w'.accepted = w.accepted ++ part ∧
      w'.outputs = w.outputs ++ (handed.map Prod.snd).flatten ∧
      (0 ∉ items ++ part → (handed.map Prod.fst).flatten ++ rest = items ++ part) := by
  induction steps generalizing w items with
  | nil =>
      exact ⟨[], items, [], w, rfl, .nil, hidle, (List.append_nil _).symm, (List.append_nil _).symm,
        fun _ => (List.append_nil _).symm⟩
  | cons step steps ih =>
      obtain ⟨first, rest₁, part₁, w₁, hstep, hhands, heffect, hsplit⟩ :=
        LogStep.exec_code env hidle hN hring step
      obtain ⟨handed, rest, part, w₂, hsteps, hall, hidle₂, haccepted, houtputs, hconserved⟩ :=
        ih heffect.idle
      refine ⟨first :: handed, rest, part₁ ++ part, w₂, ?_, .cons hhands hall, hidle₂, ?_, ?_, ?_⟩
      · rw [logSteps, exec_bind_some hstep, hsteps]
      · rw [haccepted, heffect.accepted, List.append_assoc]
      · rw [houtputs, heffect.outputs, List.map_cons, List.flatten_cons, List.append_assoc]
      · intro hclean
        have hitems : first.1 ++ rest₁ = items :=
          hsplit fun h => hclean (List.mem_append_left _ h)
        rw [← hitems, List.append_assoc, List.mem_append, not_or, ← List.append_assoc] at hclean
        rw [List.map_cons, List.flatten_cons, List.append_assoc, hconserved hclean.2, ← hitems]
        simp only [List.append_assoc]

end Steps

/-- After initialisation, whatever the order of log calls and consumer calls: the texts handed over,
followed by the bytes still stored, are the bytes that the ring has accepted. -/
theorem logPipeline_lossless (env : Surroundings) {g : LoggingConfig} (hring : g.ringBuffer = true)
    {N : Nat} (hpos : 1 ≤ N) (hN : N ≤ 2 ^ 63) (rb : RingBuffer) (steps : List LogStep) :
    ∃ w, (logSteps g steps).exec (LogWorld.handle env) (LogWorld.start rb N) = (some (), w) ∧
      (0 ∉ w.accepted → ∃ handed rest, List.Forall₂ HandsOn steps handed ∧
        w.outputs = (handed.map Prod.snd).flatten ∧ RingLayout N w.ring rest ∧
        (handed.map Prod.fst).flatten ++ rest = w.accepted) := by
  obtain ⟨handed, rest, part, w, hexec, hall, hidle, haccepted, houtputs, hconserved⟩ :=
    exec_logSteps env (LogWorld.start_idle rb hpos) hN hring steps
  refine ⟨w, hexec, ?_⟩
  intro hclean
  have hpart : w.accepted = part := haccepted
  rw [hpart] at hclean
  refine ⟨handed, rest, hall, houtputs, hidle.1, ?_⟩
  rw [hconserved hclean, hpart]
  rfl

/-- Two records in a ring of eight bytes, of which the second is cut, and both consumers. -/
theorem logPipeline_lossless_two :
    let g : LoggingConfig := ⟨true, .error⟩
    let config : UdpBroadcastConfig := ⟨fun _ => ⟨⟨2, 21789, 0⟩, 3, [101]⟩, 1, 21789, true⟩
    let steps : List LogStep := [.write .critical [65], .write .error [66, 67], .toStdout,
      .write .error [68], .process config]
    ∃ w, (logSteps g steps).exec (LogWorld.handle fairSurroundings)
        (LogWorld.start ⟨[], 0, 0, 0, none⟩ 8) = (some (), w) ∧
      w.accepted = [49, 58, 32, 65, 49, 58, 32, 49, 58, 32, 68] ∧
      ∃ handed rest, List.Forall₂ HandsOn steps handed ∧
        w.outputs = (handed.map Prod.snd).flatten ∧ RingLayout 8 w.ring rest ∧
        (handed.map Prod.fst).flatten ++ rest = w.accepted := by
  intro g config steps
  obtain ⟨w, hexec, hlossless⟩ := logPipeline_lossless fairSurroundings (rfl : g.ringBuffer = true)
    (by decide : 1 ≤ 8) (by decide) ⟨[], 0, 0, 0, none⟩ steps
  have haccepted : w.accepted = [49, 58, 32, 65, 49, 58, 32, 49, 58, 32, 68] :=
    (congrArg (fun out => out.2.accepted) hexec).symm.trans (by decide)
  refine ⟨w, hexec, haccepted, hlossless ?_⟩
  rw [haccepted]
  decide

end YaskawaComms.Logging
