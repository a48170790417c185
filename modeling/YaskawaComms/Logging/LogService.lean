import YaskawaComms.Logging.Interfaces
import YaskawaComms.Logging.LogPipeline

/-!
# The log service

The logger and the broadcaster on one ring buffer, set up, used and shut down by any sequence of
requests: what becomes of the records, and of the sockets.
-/

namespace YaskawaComms.Logging

open Program

def loggingInitialize (rb : Bool) (g : LoggingConfig) : Int × LoggingConfig :=
  if !rb then (-1, g) else (0, ⟨true, .debug⟩)

def loggingSetLevel (level : LogLevel) (g : LoggingConfig) : LoggingConfig :=
  { g with currentLevel := level }

def loggingGetLevel (g : LoggingConfig) : LogLevel := g.currentLevel

def loggingShutdown : LoggingConfig := ⟨false, .debug⟩

/-- `log_to_stdout`, where the logger may have no ring buffer: `ring_buffer_read_n` returns `0` for
`NULL`. -/
def logToStdoutWith (g : LoggingConfig) : LogProgram Unit :=
  if g.ringBuffer then logToStdout
  else do
    let _ ← .call .stackBuffer .ret
    return

def udpBroadcastDefaultPort : UInt32 := 21789

def broadcastPort (port : Int32) : UInt32 :=
  if 0 < port then port.toUInt32 else udpBroadcastDefaultPort

/-- The structure after `memset`, with the ring buffer and the port stored. -/
def UdpBroadcastConfig.reset (config : UdpBroadcastConfig) (port : Int32) : UdpBroadcastConfig where
  interfaces i := if i < udpBroadcastMaxInterfaces then ⟨⟨0, 0, 0⟩, 0, []⟩ else config.interfaces i
  interfaceCount := 0
  port := broadcastPort port
  ringBuffer := true

def udpBroadcastInitialize (host : Host) (rb : Bool) (port : Int32)
    (specificInterface : Option (List UInt8)) (w : NetWorld) : Option Int × NetWorld :=
  if !rb then (some (-1), w)
  else (udpBroadcastGatherInterfaces specificInterface).exec (NetWorld.handle host)
    { w with config := w.config.reset port }

structure LogService where
  g : LoggingConfig
  log : LogWorld
  net : NetWorld

/-- An initialised ring buffer, a logger and a broadcaster that are not, and the open descriptors. -/
def LogService.start (rb : RingBuffer) (N : Nat) (slots : Nat → UdpInterface) (openFds : Finset Int) :
    LogService :=
  ⟨⟨false, .debug⟩, LogWorld.start rb N, ⟨⟨slots, 0, 0, false⟩, 0, openFds, []⟩⟩

inductive LogRequest where
  | loggingInitialize (rb : Bool)
  | loggingSetLevel (level : LogLevel)
  | loggingShutdown
  | writeLogMessage (level : LogLevel) (text : List UInt8)
  | logToStdout
  | udpBroadcastInitialize (rb : Bool) (port : Int32) (specificInterface : Option (List UInt8))
  | processLogMessage
  | udpBroadcastShutdown

/-- The state behind a function that has come to its end. -/
def completed {α σ : Type} : Option α × σ → Option σ
  | (some _, s) => some s
  | (none, _) => none

/-- One request, with what the host answers during it. -/
def LogService.step (env : Surroundings) (label : Host × LogRequest) (s : LogService) :
    Option LogService :=
  match label.2 with
  | .loggingInitialize rb => some { s with g := (loggingInitialize rb s.g).2 }
  | .loggingSetLevel level => some { s with g := loggingSetLevel level s.g }
  | .loggingShutdown => some { s with g := loggingShutdown }
  | .writeLogMessage level text =>
      (completed ((writeLogMessage s.g level text).exec (LogWorld.handle env) s.log)).map
        fun log => { s with log }
  | .logToStdout =>
      (completed ((logToStdoutWith s.g).exec (LogWorld.handle env) s.log)).map fun log => { s with log }
  | .processLogMessage =>
      (completed ((processLogMessage s.g s.net.config).exec (LogWorld.handle env) s.log)).map
        fun log => { s with log }
  | .udpBroadcastInitialize rb port specificInterface =>
      (completed (udpBroadcastInitialize label.1 rb port specificInterface s.net)).map
        fun net => { s with net }
  | .udpBroadcastShutdown =>
      (completed (udpBroadcastShutdown.exec (NetWorld.handle label.1) s.net)).map
        fun net => { s with net }

/-- There is room for the interfaces that an initialisation finds. -/
def LogService.Fits (s : LogService) (label : Host × LogRequest) : Prop :=
  match label.2 with
  | .udpBroadcastInitialize true port specificInterface =>
      RoomForAll label.1 0 s.net.attempts
        (candidates specificInterface (broadcastPort port) (label.1.addresses.getD []))
  | _ => True

instance {α : Type} (host : Host) (configured attempt : Nat) (cs : List α) :
    Decidable (RoomForAll host configured attempt cs) :=
  inferInstanceAs (Decidable (∀ k, k < cs.length →
    configured + (host.serve attempt (cs.take k)).length < udpBroadcastMaxInterfaces))

instance (s : LogService) : DecidablePred s.Fits
  | (host, .udpBroadcastInitialize true port specificInterface) =>
      inferInstanceAs (Decidable (RoomForAll host 0 s.net.attempts
        (candidates specificInterface (broadcastPort port) (host.addresses.getD []))))
  | (_, .udpBroadcastInitialize false _ _) | (_, .loggingInitialize _) | (_, .loggingSetLevel _)
  | (_, .loggingShutdown) | (_, .writeLogMessage _ _) | (_, .logToStdout) | (_, .processLogMessage)
  | (_, .udpBroadcastShutdown) => isTrue trivial

/-- The level since the last `logging_initialize`, while the logger is not shut down; and the sockets
of the interfaces that were configured when `udp_broadcast_initialize` cleared the structure. -/
structure LogHistory where
  inForce : Option LogLevel := none
  abandoned : List Int := []

def LogHistory.note (label : Host × LogRequest) (s : LogService) (h : LogHistory) : LogHistory :=
  match label.2 with
  | .loggingInitialize true => { h with inForce := some .debug }
  | .loggingSetLevel level => { h with inForce := h.inForce.map fun _ => level }
  | .loggingShutdown => { h with inForce := none }
  | .udpBroadcastInitialize true _ _ =>
      { h with abandoned := h.abandoned ++ s.net.config.configured.map UdpInterface.socketFd }
  | _ => h

abbrev LogService.recorded (env : Surroundings) :
    Host × LogRequest → LogService × LogHistory → Option (LogService × LogHistory) :=
  noting (LogService.step env) LogHistory.note

/-- What a consumer hands on; the datagrams repeat the line put out before them. -/
def LogOutput.line : LogOutput → List UInt8
  | .printf text | .puts text => text
  | .sendto _ _ => []

/-- The outputs of one request: a line printed, or a line put out and offered to all interfaces. -/
inductive Handed (interfaces : List UdpInterface) : List LogOutput → Prop where
  | nothing : Handed interfaces []
  | printed (text : List UInt8) : Handed interfaces [.printf text]
  | broadcast (text : List UInt8) : Handed interfaces
      (.puts text :: interfaces.map fun interface => .sendto interface text)

/-- What makes a request record something at this level: a message that the level admits, or the report
of a call of `sendto` that has failed for one of the interfaces. -/
inductive Recorded (env : Surroundings) (currentLevel : LogLevel) (interfaces : List UdpInterface)
    (w w' : LogWorld) : LogRequest → Prop where
  | message {level : LogLevel} (text : List UInt8) (admitted : level.value ≤ currentLevel.value) :
      Recorded env currentLevel interfaces w w' (.writeLogMessage level text)
  | report {i : Nat} {interface : UdpInterface} (text : List UInt8)
      (admitted : LogLevel.error.value ≤ currentLevel.value) (configured : interface ∈ interfaces)
      (later : w.outputs.length ≤ i) (sent : w'.outputs[i]? = some (.sendto interface text))
      (failed : env.sendto i < 0) :
      Recorded env currentLevel interfaces w w' .processLogMessage

/-- A function of the logger has run on a ring with these bytes: what it has taken it has handed on,
and if it has added something there is a reason for it. -/
structure Served (env : Surroundings) (N : Nat) (g : LoggingConfig) (request : LogRequest)
    (interfaces : List UdpInterface) (items rest part : List UInt8) (outs : List LogOutput)
    (w w' : LogWorld) : Prop where
  effect : Effect N rest part outs w w'
  handed : Handed interfaces outs
  taken : 0 ∉ items → outs.flatMap LogOutput.line ++ rest = items
  recorded : part ≠ [] → g.ringBuffer = true ∧ Recorded env g.currentLevel interfaces w w' request

section Records

variable {N : Nat} {items : List UInt8} {w : LogWorld} (env : Surroundings) {g : LoggingConfig}

theorem Served.idle {request : LogRequest} {interfaces : List UdpInterface}
    (hidle : RingIdle N w.ring items) : Served env N g request interfaces items items [] [] w w :=
  ⟨.refl hidle, .nothing, fun _ => rfl, fun h => absurd rfl h⟩

theorem flatMap_line_sendto (interfaces : List UdpInterface) (text : List UInt8) :
    (interfaces.map fun interface => LogOutput.sendto interface text).flatMap LogOutput.line = [] := by
  rw [List.flatMap_map]
  exact List.flatMap_eq_nil_iff.mpr fun _ _ => rfl

theorem exec_writeLogMessage_silent (hring : g.ringBuffer = false) (level : LogLevel)
    (text : List UInt8) :
    (writeLogMessage g level text).exec (LogWorld.handle env) w = (some (-1), w) := by
  unfold writeLogMessage
  rw [hring]
  rfl

theorem exec_writeLogMessage_served (interfaces : List UdpInterface)
    (hidle : RingIdle N w.ring items) (hN : N ≤ 2 ^ 63) (level : LogLevel) (text : List UInt8) :
    ∃ r rest part outs w',
      (writeLogMessage g level text).exec (LogWorld.handle env) w = (some r, w') ∧
      Served env N g (.writeLogMessage level text) interfaces items rest part outs w w' := by
  cases hring : g.ringBuffer with
  | false => exact ⟨_, _, _, _, _, exec_writeLogMessage_silent env hring level text, .idle env hidle⟩
  | true =>
      obtain ⟨r, part, w', hexec, heffect, hfiltered⟩ :=
        exec_writeLogMessage_any env hidle hN hring level text
      refine ⟨r, items, part, [], w', hexec, heffect, .nothing, fun _ => rfl, ?_⟩
      intro hpart
      exact ⟨hring, .message text (Nat.not_lt.mp fun hlevel => hpart (hfiltered hlevel))⟩

theorem nextText_append (h : 0 ∉ items) : nextText items ++ items.drop 1023 = items := by
  have htake : nextText items = items.take 1023 :=
    cString_eq_self fun hzero => h (List.mem_of_mem_take hzero)
  rw [htake, List.take_append_drop]

theorem exec_logToStdout_served (interfaces : List UdpInterface) (hidle : RingIdle N w.ring items)
    (hN : N ≤ 2 ^ 63) : ∃ rest part outs w',
    (logToStdoutWith g).exec (LogWorld.handle env) w = (some (), w') ∧
      Served env N g .logToStdout interfaces items rest part outs w w' := by
  cases hring : g.ringBuffer with
  | false =>
      refine ⟨items, [], [], { w with calls := w.calls + 1 }, ?_, ?_⟩
      · rw [logToStdoutWith, hring]
        rfl
      · refine ⟨⟨?_, (List.append_nil _).symm, (List.append_nil _).symm⟩, .nothing, fun _ => rfl, ?_⟩
        · rwa [List.append_nil]
        · exact fun h => absurd rfl h
  | true =>
      obtain ⟨w', hexec, heffect⟩ := exec_logToStdout env hidle hN
      refine ⟨_, _, _, w', ?_, heffect, ?_, ?_, fun h => absurd rfl h⟩
      · rw [logToStdoutWith, hring, if_pos rfl, hexec]
      · split
        · exact .nothing
        · exact .printed _
      · intro hclean
        have htext := nextText_append hclean
        split
        · next hempty => rwa [hempty] at htext
        · simpa [LogOutput.line] using htext

/-- Every interface is offered the text, whatever the logger makes of the reports. -/
theorem exec_sendToAll_served (hidle : RingIdle N w.ring items) (hN : N ≤ 2 ^ 63) (text : List UInt8)
    (interfaces : List UdpInterface) : ∃ part w',
    (sendToAll g text interfaces).exec (LogWorld.handle env) w = (some (), w') ∧
      Effect N items part (interfaces.map fun interface => .sendto interface text) w w' ∧
      (part ≠ [] → g.ringBuffer = true ∧ LogLevel.error.value ≤ g.currentLevel.value ∧
        ∃ i, i < interfaces.length ∧ env.sendto (w.outputs.length + i) < 0) := by
  cases hring : g.ringBuffer with
  | true =>
      obtain ⟨part, w', hexec, heffect, hquiet⟩ := exec_sendToAll env hidle hN hring text interfaces
      refine ⟨part, w', hexec, heffect, ?_⟩
      intro hpart
      obtain ⟨hlevel, hsends⟩ := not_or.mp fun h => hpart (hquiet h)
      push Not at hlevel hsends
      exact ⟨rfl, hlevel, hsends⟩
  | false =>
      suffices ∃ w', (sendToAll g text interfaces).exec (LogWorld.handle env) w = (some (), w') ∧
          Effect N items [] (interfaces.map fun interface => .sendto interface text) w w' by
        obtain ⟨w', hexec, heffect⟩ := this
        exact ⟨[], w', hexec, heffect, fun h => absurd rfl h⟩
      induction interfaces generalizing w with
      | nil => exact ⟨w, rfl, .refl hidle⟩
      | cons interface interfaces ih =>
          have hsend : LogWorld.handle env (.sendto interface text) w =
            (some (env.sendto w.outputs.length), w.output (.sendto interface text)) := rfl
          have hsent : Effect N items [] [.sendto interface text] w
              (w.output (.sendto interface text)) := .output hidle _
          obtain ⟨w', hrest, heffect⟩ := ih hidle (w := w.output (.sendto interface text))
          refine ⟨w', ?_, hsent.trans ?_⟩
          · rw [sendToAll, call_bind, exec_call_some hsend, ret_bind]
            split
            · rw [exec_bind_some (exec_writeLogMessage_silent env hring _ _), hrest]
            · exact hrest
          · rwa [List.append_nil]

theorem exec_processLogMessage_served (config : UdpBroadcastConfig) (hidle : RingIdle N w.ring items)
    (hN : N ≤ 2 ^ 63) : ∃ r rest part outs w',
    (processLogMessage g config).exec (LogWorld.handle env) w = (some r, w') ∧
      Served env N g .processLogMessage config.configured items rest part outs w w' := by
  cases hconfig : config.ringBuffer with
  | false =>
      refine ⟨-1, items, [], [], w, ?_, .idle env hidle⟩
      rw [processLogMessage, if_pos (by simpa using hconfig)]
      rfl
  | true =>
      obtain ⟨hnothing, hsomething⟩ := exec_processLogMessage_eq env (g := g) hidle hN hconfig
      by_cases hempty : nextText items = []
      · obtain ⟨w', hexec, heffect⟩ := hnothing hempty
        refine ⟨0, _, _, _, w', hexec, heffect, .nothing, ?_, fun h => absurd rfl h⟩
        intro hclean
        simpa [hempty] using nextText_append hclean
      · obtain ⟨w₁, hexec, hputs⟩ := hsomething hempty
        obtain ⟨part, w₂, hsend, heffect, hrecords⟩ := exec_sendToAll_served env (g := g) hputs.idle hN
          (nextText items) config.configured
        have hall := hputs.trans heffect
        refine ⟨((items.take 1023).length : Int), _, part, _, w₂, ?_, hall, .broadcast _, ?_, ?_⟩
        · rw [hexec, exec_bind_some hsend]
          rfl
        · intro hclean
          have htext := nextText_append hclean
          rw [List.singleton_append, List.flatMap_cons, flatMap_line_sendto, List.append_nil]
          exact htext
        · intro hpart
          obtain ⟨hring, hlevel, i, hi, hfailed⟩ := hrecords hpart
          rw [hputs.outputs, List.length_append, List.length_singleton, Nat.add_assoc] at hfailed
          refine ⟨hring, .report (nextText items) hlevel (List.getElem_mem hi) (Nat.le_add_right _ _) ?_ hfailed⟩
          rw [hall.outputs, List.getElem?_append_right (Nat.le_add_right _ _), Nat.add_sub_cancel_left,
            List.singleton_append, Nat.add_comm 1, List.getElem?_cons_succ, List.getElem?_map,
            List.getElem?_eq_getElem hi, Option.map_some]

end Records

section Sockets

variable {host : Host} {start w : NetWorld} {entries : List UdpInterface} {attempt : Nat}

theorem gathered_none (h : w.config.interfaceCount = 0) : Gathered w [] w.attempts w := by
  constructor
  · exact h
  · intro i entry hentry
    cases hentry
  · rfl
  · rfl
  · exact List.nodup_nil
  · exact List.forall_mem_nil _
  · intro fd
    simp

theorem exec_initialize (port : Int32) (specificInterface : Option (List UInt8))
    (hroom : RoomForAll host 0 w.attempts
      (candidates specificInterface (broadcastPort port) (host.addresses.getD []))) :
    ∃ r entries attempt w', udpBroadcastInitialize host true port specificInterface w = (some r, w') ∧
      Gathered { w with config := w.config.reset port } entries attempt w' ∧
      entries.length ≤ udpBroadcastMaxInterfaces := by
  obtain ⟨hroomy, -⟩ := exec_gather host specificInterface { w with config := w.config.reset port }
  obtain ⟨r, entries, attempt, w', hexec, hgathered, hentries⟩ := hroomy hroom
  refine ⟨r, entries, attempt, w', hexec, hgathered, ?_⟩
  have hlength := congrArg List.length hentries
  have hserve := hroom.serve_length (Nat.zero_le _)
  rw [List.length_map] at hlength
  rw [hlength]
  exact (Nat.zero_add _).symm.trans_le hserve

variable (host) in
theorem exec_shutdown_cleared (h : Gathered start entries attempt w)
    (hbound : entries.length ≤ udpBroadcastMaxInterfaces) :
    ∃ w', udpBroadcastShutdown.exec (NetWorld.handle host) w = (some (), w') ∧
      w'.config.interfaceCount = 0 ∧ w'.openFds = start.openFds := by
  obtain ⟨w', hexec, -, hopen⟩ := exec_shutdown host h hbound
  refine ⟨w', hexec, ?_, hopen⟩
  obtain ⟨w₁, hclose, -⟩ := exec_closeInterfaces host h.slots
    (fun entry hentry => (h.new entry hentry).2) hbound (Nat.le_refl _)
  have hcount : NetWorld.handle host .loadCount w = (some entries.length, w) := by
    rw [← h.count]
    rfl
  have hstore : NetWorld.handle host (.storeCount 0) w₁ =
    (some (), { w₁ with config := { w₁.config with interfaceCount := 0 } }) := rfl
  rw [udpBroadcastShutdown, call_bind, exec_call_some hcount, ret_bind, exec_bind_some hclose,
    call_bind, exec_call_some hstore] at hexec
  rw [← (Prod.mk.inj hexec).2]

end Sockets

/-- What the consumers have handed on, followed by what is stored, is what the ring has accepted. -/
def Conserved (N : Nat) (w : LogWorld) : Prop :=
  ∃ items, RingIdle N w.ring items ∧
    (0 ∉ w.accepted → w.outputs.flatMap LogOutput.line ++ items = w.accepted)

/-- The level is the one in force, and the open descriptors are those of others, the abandoned ones and
the ones configured. -/
structure LogService.Sound (N : Nat) (openFds : Finset Int) (s : LogService) (h : LogHistory) :
    Prop where
  ringBuffer : s.g.ringBuffer = h.inForce.isSome
  level : ∀ l ∈ h.inForce, loggingGetLevel s.g = l
  conserved : Conserved N s.log
  sockets : ∃ start entries attempt, Gathered start entries attempt s.net ∧
    entries.length ≤ udpBroadcastMaxInterfaces ∧
    ∀ fd, fd ∈ start.openFds ↔ fd ∈ openFds ∨ fd ∈ h.abandoned

section Runs

variable (env : Surroundings) {N : Nat} {openFds : Finset Int} {s t : LogService} {h : LogHistory}

theorem Conserved.served {w w' : LogWorld} {g : LoggingConfig} {request : LogRequest}
    {interfaces : List UdpInterface} {items rest part : List UInt8} {outs : List LogOutput}
    (hconserved : 0 ∉ w.accepted → w.outputs.flatMap LogOutput.line ++ items = w.accepted)
    (hserved : Served env N g request interfaces items rest part outs w w') : Conserved N w' := by
  refine ⟨rest ++ part, hserved.effect.idle, ?_⟩
  rw [hserved.effect.accepted, hserved.effect.outputs]
  intro hclean
  rw [List.mem_append, not_or] at hclean
  have hold := hconserved hclean.1
  have hitems : 0 ∉ items := by
    rw [← hold] at hclean
    exact fun hzero => hclean.1 (List.mem_append_right _ hzero)
  rw [List.flatMap_append, List.append_assoc, ← List.append_assoc _ rest, hserved.taken hitems,
    ← List.append_assoc, hold]

theorem LogService.Sound.log {w : LogWorld} (hsound : s.Sound N openFds h)
    (hconserved : Conserved N w) : LogService.Sound N openFds { s with log := w } h :=
  ⟨hsound.ringBuffer, hsound.level, hconserved, hsound.sockets⟩

theorem LogService.Sound.initialize {host : Host} {port : Int32} {name : Option (List UInt8)}
    (hsound : s.Sound N openFds h) (hfits : s.Fits (host, .udpBroadcastInitialize true port name)) :
    ∃ t, s.step env (host, .udpBroadcastInitialize true port name) = some t ∧
      t.Sound N openFds (LogHistory.note (host, .udpBroadcastInitialize true port name) s h) ∧
      t.log = s.log := by
  obtain ⟨start, entries, attempt, hgathered, -, hopen⟩ := hsound.sockets
  obtain ⟨r, entries', attempt', net, hexec, hgathered', hbound'⟩ := exec_initialize port name hfits
  refine ⟨{ s with net }, ?_, ⟨hsound.ringBuffer, hsound.level, hsound.conserved, ?_⟩, rfl⟩
  · simp only [LogService.step, hexec, completed, Option.map_some]
  · refine ⟨_, entries', attempt', hgathered', hbound', ?_⟩
    intro fd
    change fd ∈ s.net.openFds ↔ fd ∈ openFds ∨ fd ∈ h.abandoned ++ _
    rw [hgathered.opened, hopen, List.mem_append, hgathered.configured, List.mem_map, or_assoc]

theorem LogService.Sound.shutdown (host : Host) (hsound : s.Sound N openFds h) :
    ∃ t, s.step env (host, .udpBroadcastShutdown) = some t ∧ t.Sound N openFds h ∧ t.log = s.log ∧
      t.net.config.configured = [] := by
  obtain ⟨start, entries, attempt, hgathered, hbound, hopen⟩ := hsound.sockets
  obtain ⟨net, hexec, hcount, hrestored⟩ := exec_shutdown_cleared host hgathered hbound
  have hnone := gathered_none hcount
  refine ⟨{ s with net }, ?_, ⟨hsound.ringBuffer, hsound.level, hsound.conserved, ?_⟩, rfl,
    hnone.configured⟩
  · simp only [LogService.step, hexec, completed, Option.map_some]
  · refine ⟨net, [], _, hnone, Nat.zero_le _, ?_⟩
    rw [hrestored]
    exact hopen

/-- Every request comes to its end, keeps the invariant and does to the log what it may do. -/
theorem LogService.Sound.answers (hsound : s.Sound N openFds h) (hN : N ≤ 2 ^ 63)
    {label : Host × LogRequest} (hfits : s.Fits label) :
    ∃ t, s.step env label = some t ∧ t.Sound N openFds (LogHistory.note label s h) ∧
      ∃ items rest part outs,
        Served env N s.g label.2 s.net.config.configured items rest part outs s.log t.log := by
  obtain ⟨items, hidle, hconserved⟩ := hsound.conserved
  have hkept : ∀ request,
      Served env N s.g request s.net.config.configured items items [] [] s.log s.log :=
    fun request => .idle env hidle
  obtain ⟨host, request⟩ := label
  cases request with
  | loggingInitialize rb =>
      refine ⟨_, rfl, ?_, _, _, _, _, hkept _⟩
      cases rb with
      | false => exact ⟨hsound.ringBuffer, hsound.level, hsound.conserved, hsound.sockets⟩
      | true =>
          refine ⟨rfl, ?_, hsound.conserved, hsound.sockets⟩
          intro l hl
          exact Option.some.inj hl
  | loggingSetLevel level =>
      refine ⟨_, rfl, ⟨?_, ?_, hsound.conserved, hsound.sockets⟩, _, _, _, _, hkept _⟩
      · exact hsound.ringBuffer.trans Option.isSome_map.symm
      · intro l hl
        obtain ⟨-, -, rfl⟩ := Option.mem_map.mp hl
        rfl
  | loggingShutdown =>
      refine ⟨_, rfl, ⟨rfl, ?_, hsound.conserved, hsound.sockets⟩, _, _, _, _, hkept _⟩
      intro l hl
      cases hl
  | writeLogMessage level text =>
      obtain ⟨r, rest, part, outs, w, hexec, hserved⟩ := exec_writeLogMessage_served env (g := s.g)
        s.net.config.configured hidle hN level text
      refine ⟨{ s with log := w }, ?_, hsound.log (.served env hconserved hserved), _, _, _, _, hserved⟩
      simp only [LogService.step, hexec, completed, Option.map_some]
  | logToStdout =>
      obtain ⟨rest, part, outs, w, hexec, hserved⟩ := exec_logToStdout_served env (g := s.g)
        s.net.config.configured hidle hN
      refine ⟨{ s with log := w }, ?_, hsound.log (.served env hconserved hserved), _, _, _, _, hserved⟩
      simp only [LogService.step, hexec, completed, Option.map_some]
  | processLogMessage =>
      obtain ⟨r, rest, part, outs, w, hexec, hserved⟩ := exec_processLogMessage_served env (g := s.g)
        s.net.config hidle hN
      refine ⟨{ s with log := w }, ?_, hsound.log (.served env hconserved hserved), _, _, _, _, hserved⟩
      simp only [LogService.step, hexec, completed, Option.map_some]
  | udpBroadcastInitialize rb port name =>
      cases rb with
      | false => exact ⟨s, rfl, hsound, _, _, _, _, hkept _⟩
      | true =>
          obtain ⟨t, hstep, hkeeps, hlog⟩ := hsound.initialize env hfits
          refine ⟨t, hstep, hkeeps, items, items, [], [], ?_⟩
          rw [hlog]
          exact hkept _
  | udpBroadcastShutdown =>
      obtain ⟨t, hstep, hkeeps, hlog, -⟩ := hsound.shutdown env host
      refine ⟨t, hstep, hkeeps, items, items, [], [], ?_⟩
      rw [hlog]
      exact hkept _

theorem logService_sound (hpos : 1 ≤ N) (hN : N ≤ 2 ^ 63) (rb : RingBuffer)
    (slots : Nat → UdpInterface) (openFds : Finset Int) {s : LogService × LogHistory}
    (hrun : Run (LogService.recorded env) (fun s label => s.1.Fits label)
      (LogService.start rb N slots openFds, {}) s) : s.1.Sound N openFds s.2 := by
  apply hrun.invariant
  · refine ⟨rfl, ?_, ⟨[], LogWorld.start_idle rb hpos, fun _ => rfl⟩, ?_⟩
    · intro l hl
      cases hl
    · refine ⟨_, [], _, gathered_none rfl, Nat.zero_le _, fun fd => ?_⟩
      simp [LogService.start]
  · intro a label b hsound hfits hstep
    obtain ⟨hstep, hnote⟩ := noting_eq_some hstep
    obtain ⟨t, hanswer, hkeeps, -⟩ := hsound.answers env hN hfits
    obtain rfl : t = b.1 := Option.some.inj (hanswer.symm.trans hstep)
    rw [hnote]
    exact hkeeps

/-- In every run, as long as each initialisation finds room for its interfaces: the sockets of the
configured interfaces are open, at most sixteen, different from each other, from those of others and
from those that an initialisation without a shutdown has abandoned, and no other descriptor is opened
or closed. A shutdown closes exactly these. Every further request comes to its end, and what it sends
is one line, offered to each configured interface. -/
theorem logService_sockets (env : Surroundings) (N : Nat) (hpos : 1 ≤ N) (hN : N ≤ 2 ^ 63)
    (rb : RingBuffer) (slots : Nat → UdpInterface) (openFds : Finset Int)
    (s : LogService × LogHistory)
    (hrun : Run (LogService.recorded env) (fun s label => s.1.Fits label)
      (LogService.start rb N slots openFds, {}) s) :
    let fds := s.1.net.config.configured.map UdpInterface.socketFd
    (fds.length ≤ udpBroadcastMaxInterfaces ∧ fds.Nodup ∧
      ∀ fd ∈ fds, fd ∉ openFds ∧ fd ∉ s.2.abandoned) ∧
    (∀ fd, fd ∈ s.1.net.openFds ↔ fd ∈ openFds ∨ fd ∈ s.2.abandoned ∨ fd ∈ fds) ∧
    (∀ host, ∃ t, s.1.step env (host, .udpBroadcastShutdown) = some t ∧
      t.net.config.configured = [] ∧
      ∀ fd, fd ∈ t.net.openFds ↔ fd ∈ openFds ∨ fd ∈ s.2.abandoned) ∧
    ∀ label, s.1.Fits label → ∃ t outs, s.1.step env label = some t ∧
      t.log.outputs = s.1.log.outputs ++ outs ∧ Handed s.1.net.config.configured outs := by
  have hsound := logService_sound env hpos hN rb slots openFds hrun
  have hopened : ∀ {s : LogService} {h : LogHistory}, s.Sound N openFds h → ∀ fd,
      fd ∈ s.net.openFds ↔ fd ∈ openFds ∨ fd ∈ h.abandoned ∨
        fd ∈ s.net.config.configured.map UdpInterface.socketFd := by
    intro s h hsound fd
    obtain ⟨start, entries, attempt, hgathered, -, hopen⟩ := hsound.sockets
    rw [hgathered.opened, hopen, hgathered.configured, List.mem_map, or_assoc]
  refine ⟨?_, hopened hsound, ?_, ?_⟩
  · obtain ⟨start, entries, attempt, hgathered, hbound, hopen⟩ := hsound.sockets
    rw [hgathered.configured, List.length_map]
    refine ⟨hbound, hgathered.distinct, ?_⟩
    intro fd hfd
    obtain ⟨entry, hentry, rfl⟩ := List.mem_map.mp hfd
    exact not_or.mp fun h => (hgathered.new entry hentry).1 ((hopen _).mpr h)
  · intro host
    obtain ⟨t, hstep, hkeeps, -, hnone⟩ := hsound.shutdown env host
    refine ⟨t, hstep, hnone, fun fd => ?_⟩
    rw [hopened hkeeps, hnone, List.map_nil]
    simp
  · intro label hfits
    obtain ⟨t, hstep, -, items, rest, part, outs, hserved⟩ := hsound.answers env hN hfits
    exact ⟨t, outs, hstep, hserved.effect.outputs, hserved.handed⟩

/-- In every run, whatever is initialised, shut down and set in between: the lines that have been
handed on, followed by the bytes that are stored, are the bytes that the ring has accepted; and it
accepts something only in a request to log at or below the level that has been set last since the
logger was initialised, or where a call of `sendto` for one of the interfaces has failed in this
request, if that level admits errors. -/
theorem logService_records (env : Surroundings) (N : Nat) (hpos : 1 ≤ N) (hN : N ≤ 2 ^ 63)
    (rb : RingBuffer) (slots : Nat → UdpInterface) (openFds : Finset Int)
    (s : LogService × LogHistory)
    (hrun : Run (LogService.recorded env) (fun s label => s.1.Fits label)
      (LogService.start rb N slots openFds, {}) s) :
    (0 ∉ s.1.log.accepted → ∃ rest, RingLayout N s.1.log.ring rest ∧
      s.1.log.outputs.flatMap LogOutput.line ++ rest = s.1.log.accepted) ∧
    (∀ l ∈ s.2.inForce, loggingGetLevel s.1.g = l) ∧
    ∀ label t, s.1.Fits label → s.1.step env label = some t →
      ∃ part, t.log.accepted = s.1.log.accepted ++ part ∧
        (part ≠ [] → ∃ l ∈ s.2.inForce,
          Recorded env l s.1.net.config.configured s.1.log t.log label.2) := by
  have hsound := logService_sound env hpos hN rb slots openFds hrun
  refine ⟨?_, hsound.level, ?_⟩
  · obtain ⟨items, hidle, hconserved⟩ := hsound.conserved
    exact fun hclean => ⟨items, hidle.1, hconserved hclean⟩
  · intro label t hfits hstep
    obtain ⟨t', hanswer, -, items, rest, part, outs, hserved⟩ := hsound.answers env hN hfits
    obtain rfl : t' = t := Option.some.inj (hanswer.symm.trans hstep)
    refine ⟨part, hserved.effect.accepted, fun hpart => ?_⟩
    obtain ⟨hring, hrecorded⟩ := hserved.recorded hpart
    have hinitialised := hsound.ringBuffer.symm.trans hring
    obtain ⟨l, hl⟩ := Option.isSome_iff_exists.mp hinitialised
    have hforce : s.1.g.currentLevel = l := hsound.level l hl
    exact ⟨l, hl, hforce ▸ hrecorded⟩

end Runs

/-- A host with one interface. -/
private def smallHost : Host := generousHost [⟨some 2, 3, [101], some ⟨2, 0, 7⟩⟩]

/-- The broadcaster is initialised twice without a shutdown, and the level is changed in between. -/
private def restartRequests : List (Host × LogRequest) :=
  [.loggingInitialize true, .writeLogMessage .debug [65], .udpBroadcastInitialize true 0 none,
    .processLogMessage, .loggingSetLevel .error, .writeLogMessage .info [66],
    .writeLogMessage .error [67], .udpBroadcastInitialize true 8080 none].map (smallHost, ·)

private def started : LogService × LogHistory :=
  (LogService.start ⟨[], 0, 0, 0, none⟩ 16 (fun _ => ⟨⟨0, 0, 0⟩, 0, []⟩) {0, 1}, {})

theorem logService_sockets_restart : ∃ s : LogService × LogHistory,
    s.2.abandoned = [2] ∧ s.1.net.config.configured = [⟨⟨2, htons 8080, 7⟩, 3, [101]⟩] ∧
    ∀ fd, fd ∈ s.1.net.openFds ↔ fd ∈ ({0, 1} : Finset Int) ∨ fd ∈ [(2 : Int)] ∨ fd ∈ [(3 : Int)] := by
  obtain ⟨s, hrun, hend⟩ := Run.exists_of_follow (fun s label => decide (s.1.Fits label))
    restartRequests
    (fun s : LogService × LogHistory => decide (s.2.abandoned = [2]) &&
      decide (s.1.net.config.configured = [⟨⟨2, htons 8080, 7⟩, 3, [101]⟩]))
    (fun _ _ h => of_decide_eq_true h)
    (by decide +kernel : (Run.follow (LogService.recorded fairSurroundings) _ _ started).any _ = true)
  simp only [Bool.and_eq_true, decide_eq_true_eq] at hend
  obtain ⟨habandoned, hconfigured⟩ := hend
  have hopen := (logService_sockets fairSurroundings 16 (by decide) (by decide) _ _ _ s hrun).2.1
  rw [habandoned, hconfigured] at hopen
  exact ⟨s, habandoned, hconfigured, hopen⟩

/-- The second line that is broadcast cannot be sent. -/
theorem logService_records_restart :
    let env : Surroundings := { fairSurroundings with sendto := fun i => if i < 2 then 100 else -1 }
    ∃ (s : LogService × LogHistory) (t : LogService) (part rest : List UInt8),
      s.2.inForce = some .error ∧ s.1.log.accepted = [49, 58, 32, 65, 49, 58, 32, 67] ∧
      RingLayout 16 s.1.log.ring rest ∧
      s.1.log.outputs.flatMap LogOutput.line ++ rest = [49, 58, 32, 65, 49, 58, 32, 67] ∧
      s.1.step env (smallHost, .processLogMessage) = some t ∧ part ≠ [] ∧
      t.log.accepted = s.1.log.accepted ++ part ∧
      Recorded env .error s.1.net.config.configured s.1.log t.log .processLogMessage := by
  intro env
  obtain ⟨s, hrun, hend⟩ := Run.exists_of_follow (fun s label => decide (s.1.Fits label))
    restartRequests
    (fun s : LogService × LogHistory => decide (s.2.inForce = some .error) &&
      (decide (s.1.log.accepted = [49, 58, 32, 65, 49, 58, 32, 67]) &&
        (s.1.step env (smallHost, .processLogMessage)).any fun t : LogService =>
          decide (8 < t.log.accepted.length)))
    (fun _ _ h => of_decide_eq_true h)
    (by decide +kernel : (Run.follow (LogService.recorded env) _ _ started).any _ = true)
  simp only [Bool.and_eq_true, decide_eq_true_eq, Option.any_eq_true] at hend
  obtain ⟨hforce, haccepted, t, hstep, hmore⟩ := hend
  obtain ⟨hlines, -, hrecords⟩ := logService_records env 16 (by decide) (by decide) _ _ _ s hrun
  obtain ⟨part, happend, hrecorded⟩ := hrecords (smallHost, .processLogMessage) t trivial hstep
  have hpart : part ≠ [] := by
    rintro rfl
    rw [happend, List.append_nil, haccepted] at hmore
    exact absurd hmore (by decide)
  obtain ⟨l, hl, hreport⟩ := hrecorded hpart
  rw [hforce] at hl
  cases hl
  rw [haccepted] at hlines
  obtain ⟨rest, hlayout, hstored⟩ := hlines (by decide)
  exact ⟨s, t, part, rest, hforce, haccepted, hlayout, hstored, hstep, hpart, happend, hreport⟩

end YaskawaComms.Logging
