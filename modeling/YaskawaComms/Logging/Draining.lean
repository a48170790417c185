import YaskawaComms.Logging.LogPipeline

/-!
# Draining the log

Repeated calls of `process_log_message` remove what is stored, and may log reports of failed sends
into the buffer that they drain.
-/

namespace YaskawaComms.Logging

open Program

/-- So many calls, while nobody else logs. -/
def processLogMessages (g : LoggingConfig) (config : UdpBroadcastConfig) : Nat → LogProgram Unit
  | 0 => return
  | n+1 => do
      processLogMessages g config n
      let _ ← processLogMessage g config

def afterCalls (env : Surroundings) (g : LoggingConfig) (config : UdpBroadcastConfig) (w : LogWorld)
    (n : Nat) : LogWorld :=
  ((processLogMessages g config n).exec (LogWorld.handle env) w).2

/-- No report is logged in the next call: reports are filtered out, or no `sendto` fails. -/
def NoReport (env : Surroundings) (g : LoggingConfig) (config : UdpBroadcastConfig) (w : LogWorld) :
    Prop :=
  g.currentLevel.value < LogLevel.error.value ∨
    ∀ i, i < config.configured.length → 0 ≤ env.sendto (w.outputs.length + 1 + i)

/-- One call removes a chunk and appends what the ring accepts of its reports. -/
structure Drains (env : Surroundings) (g : LoggingConfig) (config : UdpBroadcastConfig) (N : Nat)
    (stored part : List UInt8) (w w' : LogWorld) : Prop where
  idle : RingIdle N w'.ring (stored.drop 1023 ++ part)
  accepted : w'.accepted = w.accepted ++ part
  quiet : stored = [] ∨ NoReport env g config w → part = []

section Calls

variable (env : Surroundings) {g : LoggingConfig} {config : UdpBroadcastConfig} {N : Nat}
  {stored : List UInt8} {w w₁ : LogWorld}

theorem exec_processLogMessages_succ (hN : N ≤ 2 ^ 63) (hring : g.ringBuffer = true)
    (hconfig : config.ringBuffer = true) {n : Nat}
    (hexec : (processLogMessages g config n).exec (LogWorld.handle env) w = (some (), w₁))
    (hstored : RingIdle N w₁.ring stored) :
    ∃ part w₂, (processLogMessages g config (n + 1)).exec (LogWorld.handle env) w = (some (), w₂) ∧
      Drains env g config N stored part w₁ w₂ := by
  obtain ⟨r, part, w₂, hcall, heffect, hquiet⟩ := exec_processLogMessage env hstored hN hring hconfig
  refine ⟨part, w₂, ?_, heffect.idle, heffect.accepted, ?_⟩
  · rw [processLogMessages, exec_bind_some hexec, exec_bind_some hcall]
    rfl
  · rintro (rfl | hgood)
    · exact hquiet (Or.inl rfl)
    · exact hquiet (Or.inr hgood)

theorem exec_processLogMessages {items : List UInt8} (hidle : RingIdle N w.ring items)
    (hN : N ≤ 2 ^ 63) (hring : g.ringBuffer = true) (hconfig : config.ringBuffer = true) (n : Nat) :
    (processLogMessages g config n).exec (LogWorld.handle env) w =
        (some (), afterCalls env g config w n) ∧
      ∃ stored, RingIdle N (afterCalls env g config w n).ring stored := by
  induction n with
  | zero => exact ⟨rfl, items, hidle⟩
  | succ n ih =>
      obtain ⟨hexec, stored, hstored⟩ := ih
      obtain ⟨part, w₂, hnext, hdrains⟩ :=
        exec_processLogMessages_succ env hN hring hconfig hexec hstored
      have hafter : afterCalls env g config w (n + 1) = w₂ := congrArg Prod.snd hnext
      rw [hafter]
      exact ⟨hnext, _, hdrains.idle⟩

theorem afterCalls_succ {items : List UInt8} (hidle : RingIdle N w.ring items) (hN : N ≤ 2 ^ 63)
    (hring : g.ringBuffer = true) (hconfig : config.ringBuffer = true) {n : Nat}
    (hstored : RingIdle N (afterCalls env g config w n).ring stored) :
    ∃ part, Drains env g config N stored part (afterCalls env g config w n)
      (afterCalls env g config w (n + 1)) := by
  obtain ⟨hexec, -⟩ := exec_processLogMessages env hidle hN hring hconfig n
  obtain ⟨part, w₂, hnext, hdrains⟩ :=
    exec_processLogMessages_succ env hN hring hconfig hexec hstored
  have hafter : afterCalls env g config w (n + 1) = w₂ := congrArg Prod.snd hnext
  rw [hafter]
  exact ⟨part, hdrains⟩

theorem afterCalls_quiet {items : List UInt8} (hidle : RingIdle N w.ring items) (hN : N ≤ 2 ^ 63)
    (hring : g.ringBuffer = true) (hconfig : config.ringBuffer = true) {n : Nat}
    (hstored : RingIdle N (afterCalls env g config w n).ring stored) {rounds : Nat}
    (hquiet : ∀ k, k < rounds → (afterCalls env g config w (n + k + 1)).accepted =
      (afterCalls env g config w (n + k)).accepted) :
    RingIdle N (afterCalls env g config w (n + rounds)).ring (stored.drop (1023 * rounds)) := by
  induction rounds with
  | zero => exact hstored
  | succ rounds ih =>
      have hbefore := ih fun k hk => hquiet k (Nat.lt_succ_of_lt hk)
      obtain ⟨part, hdrains⟩ := afterCalls_succ env hidle hN hring hconfig hbefore
      have hpart : part = [] := by
        have hsame := hdrains.accepted
        rw [hquiet rounds (Nat.lt_succ_self _)] at hsame
        exact List.self_eq_append_right.mp hsame
      have hidle' := hdrains.idle
      rw [hpart, List.append_nil, List.drop_drop] at hidle'
      exact hidle'

theorem afterCalls_empty {items : List UInt8} (hidle : RingIdle N w.ring items) (hN : N ≤ 2 ^ 63)
    (hring : g.ringBuffer = true) (hconfig : config.ringBuffer = true) {n : Nat}
    (hempty : RingIdle N (afterCalls env g config w n).ring []) (k : Nat) :
    RingIdle N (afterCalls env g config w (n + k)).ring [] ∧
      (afterCalls env g config w (n + k + 1)).accepted =
        (afterCalls env g config w (n + k)).accepted := by
  have hone : ∀ m, RingIdle N (afterCalls env g config w m).ring [] →
      RingIdle N (afterCalls env g config w (m + 1)).ring [] ∧
        (afterCalls env g config w (m + 1)).accepted = (afterCalls env g config w m).accepted := by
    intro m hm
    obtain ⟨part, hdrains⟩ := afterCalls_succ env hidle hN hring hconfig hm
    have hpart := hdrains.quiet (Or.inl rfl)
    have hidle' := hdrains.idle
    have haccepted := hdrains.accepted
    rw [hpart, List.append_nil] at haccepted
    rw [hpart] at hidle'
    exact ⟨hidle', haccepted⟩
  have hall : RingIdle N (afterCalls env g config w (n + k)).ring [] := by
    induction k with
    | zero => exact hempty
    | succ k ih => exact (hone _ ih).1
  exact ⟨hall, (hone _ hall).2⟩

end Calls

/-- The buffer is emptied exactly if so many calls in a row append nothing as the storage has chunks;
a call in which no report is logged appends nothing. -/
theorem processLogMessage_drains_iff (env : Surroundings) {N : Nat} {w : LogWorld}
    {items : List UInt8} (hidle : RingIdle N w.ring items) (hN : N ≤ 2 ^ 63) {g : LoggingConfig}
    (hring : g.ringBuffer = true) {config : UdpBroadcastConfig} (hconfig : config.ringBuffer = true) :
    (∀ n, ((processLogMessages g config n).exec (LogWorld.handle env) w).1 = some ()) ∧
    ((∃ n, RingIdle N (afterCalls env g config w n).ring []) ↔
      ∃ n, ∀ k, k < (N - 1 + 1022) / 1023 → (afterCalls env g config w (n + k + 1)).accepted =
        (afterCalls env g config w (n + k)).accepted) ∧
    ∀ n, NoReport env g config (afterCalls env g config w n) →
      (afterCalls env g config w (n + 1)).accepted = (afterCalls env g config w n).accepted := by
  refine ⟨?_, ⟨?_, ?_⟩, ?_⟩
  · intro n
    rw [(exec_processLogMessages env hidle hN hring hconfig n).1]
  · rintro ⟨n, hempty⟩
    exact ⟨n, fun k _ => (afterCalls_empty env hidle hN hring hconfig hempty k).2⟩
  · rintro ⟨n, hquiet⟩
    obtain ⟨-, stored, hstored⟩ := exec_processLogMessages env hidle hN hring hconfig n
    have hdropped := afterCalls_quiet env hidle hN hring hconfig hstored hquiet
    have hfits := hstored.1.fits
    rw [List.drop_of_length_le (by omega)] at hdropped
    exact ⟨_, hdropped⟩
  · intro n hgood
    obtain ⟨-, stored, hstored⟩ := exec_processLogMessages env hidle hN hring hconfig n
    obtain ⟨part, hdrains⟩ := afterCalls_succ env hidle hN hring hconfig hstored
    rw [hdrains.accepted, hdrains.quiet (Or.inr hgood), List.append_nil]

/-- One short record in a ring of the default size, and an interface on which sending succeeds. -/
theorem processLogMessage_drains_fair :
    let g : LoggingConfig := ⟨true, .debug⟩
    let config : UdpBroadcastConfig := ⟨fun _ => ⟨⟨2, 21789, 0⟩, 3, asciiBytes "eth0"⟩, 1, 21789, true⟩
    ∃ w, (writeLogMessage g .critical [65]).exec (LogWorld.handle fairSurroundings)
        (LogWorld.start ⟨[], 0, 0, 0, none⟩ 8192) = (some 4, w) ∧
      ∃ n, RingIdle 8192 (afterCalls fairSurroundings g config w n).ring [] := by
  intro g config
  have hring : g.ringBuffer = true := rfl
  have hconfig : config.ringBuffer = true := rfl
  have hcritical : LogLevel.critical.value ≤ g.currentLevel.value := by decide
  obtain ⟨w, hexec, heffect⟩ := exec_writeLogMessage fairSurroundings
    (LogWorld.start_idle ⟨[], 0, 0, 0, none⟩ (by decide : 1 ≤ 8192)) (by decide) hring hcritical [65]
  obtain ⟨-, hiff, hquiet⟩ := processLogMessage_drains_iff fairSurroundings heffect.idle (by decide)
    hring hconfig
  exact ⟨w, hexec, hiff.mpr ⟨0, fun k _ => hquiet (0 + k) (Or.inr fun _ _ => Int.le_refl 0)⟩⟩

section Failing

variable {env : Surroundings} {g : LoggingConfig} {config : UdpBroadcastConfig} {N : Nat}
  {stored : List UInt8} {w : LogWorld} {interface : UdpInterface} {stamp : Timestamp}

theorem exec_processLogMessage_fails (hstored : RingIdle N w.ring stored) (hN : N ≤ 2 ^ 63)
    (hring : g.ringBuffer = true) (hlevel : LogLevel.error.value ≤ g.currentLevel.value)
    (hconfig : config.ringBuffer = true) (hone : config.configured = [interface])
    (hfails : ∀ k, env.sendto k < 0) (hstamp : ∀ k, env.timestamp k = stamp)
    (hformat : ∀ k, env.vsnprintf k = none) (htext : nextText stored ≠ []) :
    let report := logRecord stamp none (sendFailure interface)
    ∃ r w', (processLogMessage g config).exec (LogWorld.handle env) w = (some r, w') ∧
      RingIdle N w'.ring (stored.drop 1023 ++
        report.take (min report.length (N - 1 - (stored.drop 1023).length))) := by
  intro report
  obtain ⟨w₁, hexec, hputs⟩ := (exec_processLogMessage_eq env (g := g) hstored hN hconfig).2 htext
  have hidle := hputs.idle
  rw [List.append_nil] at hidle
  have hsend : LogWorld.handle env (.sendto interface (nextText stored)) w₁ =
    (some (env.sendto w₁.outputs.length), w₁.output (.sendto interface (nextText stored))) := rfl
  obtain ⟨w₂, hreport, heffect⟩ := exec_writeLogMessage env
    (w := w₁.output (.sendto interface (nextText stored))) hidle hN hring hlevel
    (sendFailure interface)
  rw [hstamp, hformat] at hreport heffect
  refine ⟨((stored.take 1023).length : Int), w₂, ?_, heffect.idle⟩
  rw [hexec, hone, sendToAll, call_bind, call_bind, exec_call_some hsend, ret_bind,
    if_pos (hfails _), Program.bind_assoc, exec_bind_some hreport]
  rfl

/-- The buffer never becomes empty: each call reads at least one byte and so makes room for the
beginning of the next report. -/
theorem afterCalls_nonempty {items : List UInt8} (hidle : RingIdle N w.ring items) (hN : N ≤ 2 ^ 63)
    (hring : g.ringBuffer = true) (hlevel : LogLevel.error.value ≤ g.currentLevel.value)
    (hconfig : config.ringBuffer = true) (hone : config.configured = [interface])
    (hfails : ∀ k, env.sendto k < 0) (hstamp : ∀ k, env.timestamp k = stamp)
    (hformat : ∀ k, env.vsnprintf k = none)
    (hreport : 0 ∉ logRecord stamp none (sendFailure interface))
    (hsome : logRecord stamp none (sendFailure interface) ≠ [])
    (hitems : items ≠ []) (hclean : 0 ∉ items) (n : Nat) :
    ∃ stored, RingIdle N (afterCalls env g config w n).ring stored ∧ stored ≠ [] ∧ 0 ∉ stored := by
  induction n with
  | zero => exact ⟨items, hidle, hitems, hclean⟩
  | succ n ih =>
      obtain ⟨stored, hstored, hnonempty, hnoZero⟩ := ih
      obtain ⟨hexec, -⟩ := exec_processLogMessages env hidle hN hring hconfig n
      have htake : nextText stored = stored.take 1023 :=
        cString_eq_self fun h => hnoZero (List.mem_of_mem_take h)
      have hpos : 0 < stored.length := List.length_pos_iff.mpr hnonempty
      have htext : nextText stored ≠ [] := by
        rw [htake]
        apply List.ne_nil_of_length_pos
        rw [List.length_take]
        omega
      obtain ⟨r, w₂, hcall, hidle₂⟩ := exec_processLogMessage_fails hstored hN hring hlevel hconfig
        hone hfails hstamp hformat htext
      have hboth : (processLogMessages g config (n + 1)).exec (LogWorld.handle env) w =
          (some (), w₂) := by
        rw [processLogMessages, exec_bind_some hexec, exec_bind_some hcall]
        rfl
      have hafter : afterCalls env g config w (n + 1) = w₂ := congrArg Prod.snd hboth
      rw [hafter]
      have hfits := hstored.1.fits
      have hlength := List.length_pos_iff.mpr hsome
      refine ⟨_, hidle₂, ?_, ?_⟩
      · apply List.ne_nil_of_length_pos
        rw [List.length_append, List.length_take, List.length_drop]
        omega
      · rw [List.mem_append, not_or]
        exact ⟨fun h => hnoZero (List.mem_of_mem_drop h), fun h => hreport (List.mem_of_mem_take h)⟩

end Failing

/-- One short record in a ring of the default size, one interface whose `sendto` always fails. -/
theorem processLogMessage_never_drains :
    let env : Surroundings := { fairSurroundings with sendto := fun _ => -1 }
    let g : LoggingConfig := ⟨true, .error⟩
    let config : UdpBroadcastConfig := ⟨fun _ => ⟨⟨2, 21789, 0⟩, 3, asciiBytes "eth0"⟩, 1, 21789, true⟩
    ∃ w, (writeLogMessage g .critical [65]).exec (LogWorld.handle env)
        (LogWorld.start ⟨[], 0, 0, 0, none⟩ 8192) = (some 4, w) ∧
      ∀ n, ¬ RingIdle 8192 (afterCalls env g config w n).ring [] := by
  intro env g config
  have hring : g.ringBuffer = true := rfl
  have hcritical : LogLevel.critical.value ≤ g.currentLevel.value := by decide
  have herror : LogLevel.error.value ≤ g.currentLevel.value := by decide
  have hone : config.configured = [config.interfaces 0] := rfl
  have hfails : ∀ k, env.sendto k < 0 := fun _ => (by decide : (-1 : Int) < 0)
  have hstamp : ∀ k, env.timestamp k = .written [49, 58, 32] (by decide) := fun _ => rfl
  have hformat : ∀ k, env.vsnprintf k = none := fun _ => rfl
  obtain ⟨w, hexec, heffect⟩ := exec_writeLogMessage env
    (LogWorld.start_idle ⟨[], 0, 0, 0, none⟩ (by decide : 1 ≤ 8192)) (by decide) hring hcritical [65]
  refine ⟨w, hexec, ?_⟩
  intro n hempty
  obtain ⟨stored, hstored, hnonempty, -⟩ := afterCalls_nonempty heffect.idle (by decide) hring herror
    rfl hone hfails hstamp hformat (by decide) (by decide) (by decide) (by decide) n
  exact hnonempty (hstored.1.unique hempty.1)

end YaskawaComms.Logging
