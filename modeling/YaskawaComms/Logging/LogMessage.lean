import YaskawaComms.Logging.RingQueue

/-!
# Log records

`write_log_message` formats a record in an array of 1024 bytes and appends it to the ring buffer.
The functions of the log pipeline are programs over the calls they make: the two ring buffer
functions, the formatting functions of the C library, and the output functions.
-/

namespace YaskawaComms.Logging

open Program

inductive LogLevel where
  | critical | error | warning | info | debug
  deriving DecidableEq

def LogLevel.value : LogLevel → Nat
  | .critical => 0
  | .error => 1
  | .warning => 2
  | .info => 3
  | .debug => 4

/-- `g_logging_config`: whether there is a ring buffer, and the level. -/
structure LoggingConfig where
  ringBuffer : Bool
  currentLevel : LogLevel
  deriving DecidableEq

/-- An array of automatic storage, with whatever it happens to contain. -/
structure StackBuffer where
  bytes : List UInt8
  size : bytes.length = 1024

/-- The outcome of `clock_gettime`, `localtime_r` and `strftime`. -/
inductive Timestamp where
  /-- One of the first two has failed. -/
  | unavailable
  /-- `strftime` has returned `0`; the content of the array is not specified. -/
  | unfinished (contents : StackBuffer)
  | written (text : List UInt8) (fits : text.length < 1024)

structure SockaddrIn where
  sinFamily : UInt16
  sinPort : UInt16
  sinAddr : UInt32
  deriving DecidableEq

structure UdpInterface where
  destAddr : SockaddrIn
  socketFd : Int
  interfaceName : List UInt8
  deriving DecidableEq

/-- `udp_broadcast_config_t`: the memory from its array of interfaces on, the number of entries that
are configured, and whether the pointer to the ring buffer is set. -/
structure UdpBroadcastConfig where
  interfaces : Nat → UdpInterface
  interfaceCount : Nat
  port : UInt32
  ringBuffer : Bool

def UdpBroadcastConfig.configured (config : UdpBroadcastConfig) : List UdpInterface :=
  (List.range config.interfaceCount).map config.interfaces

inductive LogCall where
  | ringBufferWriteN (data : List UInt8) (size : Nat)
  | ringBufferReadN (size : Nat)
  /-- An array of 1024 bytes comes into being. -/
  | stackBuffer
  | timestamp
  /-- `vsnprintf`, whose full output is `text`. -/
  | vsnprintf (text : List UInt8)
  | printf (text : List UInt8)
  | puts (text : List UInt8)
  | sendto (interface : UdpInterface) (text : List UInt8)

/-- `vsnprintf` fails where the result is not `none`, with these bytes written. -/
abbrev LogCall.Result : LogCall → Type
  | .ringBufferWriteN _ _ => Nat
  | .ringBufferReadN _ => Nat × List UInt8
  | .stackBuffer => StackBuffer
  | .timestamp => Timestamp
  | .vsnprintf _ => Option (List UInt8)
  | .printf _ | .puts _ => Unit
  | .sendto _ _ => Int

abbrev logSignature : Signature := ⟨LogCall, LogCall.Result⟩

abbrev LogProgram := Program logSignature

/-- The offset, and the array with the time stamp at its beginning. -/
def strftime (temp : List UInt8) : LogProgram (Nat × List UInt8) := do
  match ← .call .timestamp .ret with
  | .unavailable => return (0, temp)
  | .unfinished contents => return (0, contents.bytes)
  | .written text _ => return (text.length, overwrite temp 0 (text ++ [0]))

/-- At most `space` bytes are written from `offset` on; the full length is returned. -/
def vsnprintf (temp : List UInt8) (offset space : Nat) (text : List UInt8) :
    LogProgram (Int × List UInt8) := do
  match ← .call (.vsnprintf text) .ret with
  | none =>
      return (text.length,
        if space = 0 then temp else overwrite temp offset (text.take (space - 1) ++ [0]))
  | some written => return (-1, overwrite temp offset (written.take space))

def writeLogMessage (config : LoggingConfig) (level : LogLevel) (text : List UInt8) :
    LogProgram Int := do
  if !config.ringBuffer then
    return -1
  if config.currentLevel.value < level.value then
    return 0
  let array ← .call .stackBuffer .ret
  let (offset, temp) ← strftime array.bytes
  let remainingSpace := subSize 1024 offset
  let (formattedLen, temp) ← vsnprintf temp offset remainingSpace text
  let totalLen := if 0 < formattedLen then
      if formattedLen.toNat < remainingSpace then addSize formattedLen.toNat offset else 1024 - 1
    else offset
  let written ← .call (.ringBufferWriteN temp totalLen) .ret
  return written

/-- What the calls on the surroundings come to, by the number of calls made before; for `sendto`,
by the number of outputs made before. -/
structure Surroundings where
  stackBuffer : Nat → StackBuffer
  timestamp : Nat → Timestamp
  vsnprintf : Nat → Option (List UInt8)
  sendto : Nat → Int

inductive LogOutput where
  | printf (text : List UInt8)
  | puts (text : List UInt8)
  | sendto (interface : UdpInterface) (text : List UInt8)
  deriving DecidableEq

/-- The ring buffer, with what has been handed over and what the ring has accepted so far. -/
structure LogWorld where
  ring : RingBuffer
  calls : Nat
  outputs : List LogOutput
  accepted : List UInt8

def LogWorld.output (w : LogWorld) (o : LogOutput) : LogWorld :=
  { w with calls := w.calls + 1, outputs := w.outputs ++ [o] }

/-- The ring buffer functions run to their end, one after another. -/
def LogWorld.handle (env : Surroundings) (c : logSignature.Call) (w : LogWorld) :
    Option (logSignature.Result c) × LogWorld :=
  match c with
  | .ringBufferWriteN data size =>
      match (ringBufferWriteN data size).exec RingBuffer.handle w.ring with
      | (some n, ring) =>
          (some n, { w with ring, calls := w.calls + 1, accepted := w.accepted ++ data.take n })
      | (none, ring) => (none, { w with ring })
  | .ringBufferReadN size =>
      match (ringBufferReadN size).exec RingBuffer.handle w.ring with
      | (some out, ring) => (some out, { w with ring, calls := w.calls + 1 })
      | (none, ring) => (none, { w with ring })
  | .stackBuffer => (some (env.stackBuffer w.calls), { w with calls := w.calls + 1 })
  | .timestamp => (some (env.timestamp w.calls), { w with calls := w.calls + 1 })
  | .vsnprintf _ => (some (env.vsnprintf w.calls), { w with calls := w.calls + 1 })
  | .printf text => (some (), w.output (.printf text))
  | .puts text => (some (), w.output (.puts text))
  | .sendto interface text => (some (env.sendto w.outputs.length), w.output (.sendto interface text))

/-- Nothing has happened yet since `ring_buffer_initialize`. -/
def LogWorld.start (rb : RingBuffer) (N : Nat) : LogWorld :=
  ⟨(ringBufferInitialize rb N true).2, 0, [], []⟩

theorem LogWorld.start_idle (rb : RingBuffer) {N : Nat} (hpos : 1 ≤ N) :
    RingIdle N (LogWorld.start rb N).ring [] :=
  ringBufferInitialize_idle hpos rb

/-- Formatting succeeds, with a time stamp of three characters, and so does sending. -/
def fairSurroundings : Surroundings where
  stackBuffer _ := ⟨List.replicate 1024 0, List.length_replicate⟩
  timestamp _ := .written [49, 58, 32] (by decide)
  vsnprintf _ := none
  sendto _ := 0

def Timestamp.text : Timestamp → List UInt8
  | .unavailable | .unfinished _ => []
  | .written text _ => text

theorem Timestamp.text_length (stamp : Timestamp) : stamp.text.length < 1024 := by
  cases stamp with
  | unavailable => exact Nat.zero_lt_succ _
  | unfinished contents => exact Nat.zero_lt_succ _
  | written text fits => exact fits

/-- What a record should consist of: the time stamp and the message, cut to 1023 bytes. -/
def logRecord (stamp : Timestamp) (failure : Option (List UInt8)) (text : List UInt8) : List UInt8 :=
  match failure with
  | none => (stamp.text ++ text).take 1023
  | some _ => stamp.text

section Execution

variable (env : Surroundings) {w : LogWorld} {temp : List UInt8}

theorem exec_strftime (htemp : temp.length = 1024) :
    ∃ temp' w', (strftime temp).exec (LogWorld.handle env) w =
        (some ((env.timestamp w.calls).text.length, temp'), w') ∧
      temp'.length = 1024 ∧
      temp'.take (env.timestamp w.calls).text.length = (env.timestamp w.calls).text ∧
      w' = { w with calls := w.calls + 1 } := by
  have hanswer : LogWorld.handle env .timestamp w =
    (some (env.timestamp w.calls), { w with calls := w.calls + 1 }) := rfl
  rw [strftime, call_bind, exec_call_some hanswer, ret_bind]
  cases env.timestamp w.calls with
  | unavailable => exact ⟨temp, _, rfl, htemp, rfl, rfl⟩
  | unfinished contents => exact ⟨contents.bytes, _, rfl, contents.size, rfl, rfl⟩
  | written text fits =>
      have hblock : 0 + (text ++ [0]).length ≤ temp.length := by
        rw [List.length_append, List.length_singleton]
        omega
      refine ⟨_, _, rfl, (overwrite_length _ _ _ hblock).trans htemp, ?_, rfl⟩
      have htake := take_overwrite temp 0 (text ++ [0]) text.length (Nat.zero_le _) (by simp)
      simpa [Timestamp.text] using htake

/-- The record stands at the beginning of the array, and its length is computed from the result. -/
theorem exec_vsnprintf {stamp : Timestamp} (htemp : temp.length = 1024)
    (hstamp : temp.take stamp.text.length = stamp.text) (text : List UInt8) :
    ∃ formattedLen temp', (vsnprintf temp stamp.text.length (subSize 1024 stamp.text.length)
          text).exec (LogWorld.handle env) w =
        (some (formattedLen, temp'), { w with calls := w.calls + 1 }) ∧
      (if 0 < formattedLen then
          if formattedLen.toNat < subSize 1024 stamp.text.length then
            addSize formattedLen.toNat stamp.text.length
          else 1024 - 1
        else stamp.text.length) = (logRecord stamp (env.vsnprintf w.calls) text).length ∧
      (logRecord stamp (env.vsnprintf w.calls) text).length ≤ temp'.length ∧
      temp'.take (logRecord stamp (env.vsnprintf w.calls) text).length =
        logRecord stamp (env.vsnprintf w.calls) text := by
  have hoffset := stamp.text_length
  have hspace : subSize 1024 stamp.text.length = 1024 - stamp.text.length :=
    subSize_eq (by omega) (by decide)
  have hanswer : LogWorld.handle env (.vsnprintf text) w =
    (some (env.vsnprintf w.calls), { w with calls := w.calls + 1 }) := rfl
  rw [vsnprintf, call_bind, exec_call_some hanswer, ret_bind, hspace]
  cases env.vsnprintf w.calls with
  | some written =>
      refine ⟨-1, overwrite temp stamp.text.length (written.take (1024 - stamp.text.length)), rfl,
        rfl, ?_, ?_⟩
      · rw [logRecord, overwrite_length _ _ _ (by rw [List.length_take]; omega)]
        omega
      · have htake := take_overwrite temp stamp.text.length (written.take (1024 - stamp.text.length))
          0 (by omega) (Nat.zero_le _)
        rw [Nat.add_zero, hstamp, List.take_zero, List.append_nil] at htake
        exact htake
  | none =>
      -- what fits in front of the terminator
      have hrecord : logRecord stamp none text =
          stamp.text ++ text.take (1023 - stamp.text.length) := by
        rw [logRecord, List.take_append, List.take_of_length_le (by omega)]
      have hlength : (logRecord stamp none text).length =
          stamp.text.length + min (1023 - stamp.text.length) text.length := by
        rw [hrecord, List.length_append, List.length_take]
      have hblock : (text.take (1024 - stamp.text.length - 1) ++ [0]).length =
          min (1023 - stamp.text.length) text.length + 1 := by
        rw [List.length_append, List.length_take, List.length_singleton]
        omega
      refine ⟨text.length, overwrite temp stamp.text.length
        (text.take (1024 - stamp.text.length - 1) ++ [0]), ?_, ?_, ?_, ?_⟩
      · rw [if_neg (by omega)]
        rfl
      · rw [hlength, Int.toNat_natCast]
        split_ifs with hsome hfits
        · rw [addSize_eq (by omega)]
          omega
        · omega
        · omega
      · rw [overwrite_length _ _ _ (by omega)]
        omega
      · rw [hlength, take_overwrite _ _ _ _ (by omega) (by omega), hstamp, hrecord,
          List.take_append_of_le_length (by rw [List.length_take]; omega), List.take_take]
        congr 1
        rw [List.take_eq_take_iff]
        omega

theorem leads_writeLogMessage {config : LoggingConfig} {level : LogLevel}
    (hring : config.ringBuffer = true) (hlevel : level.value ≤ config.currentLevel.value)
    (text : List UInt8) :
    let record := logRecord (env.timestamp (w.calls + 1)) (env.vsnprintf (w.calls + 2)) text
    ∃ data calls, record.length ≤ data.length ∧ data.take record.length = record ∧
      Leads (LogWorld.handle env) (writeLogMessage config level text) w calls
        (do
          let written ← .call (.ringBufferWriteN data record.length) .ret
          return (written : Int))
        { w with calls := w.calls + 3 } := by
  intro record
  have hstack : LogWorld.handle env .stackBuffer w =
    (some (env.stackBuffer w.calls), { w with calls := w.calls + 1 }) := rfl
  obtain ⟨temp, w₂, hstamp, htemp, hprefix, rfl⟩ := exec_strftime env
    (w := { w with calls := w.calls + 1 }) (env.stackBuffer w.calls).size
  obtain ⟨formattedLen, temp', hformat, htotal, hfits, hrecord⟩ := exec_vsnprintf env
    (w := { w with calls := w.calls + 2 }) htemp hprefix text
  have hleads : ∃ calls, Leads (LogWorld.handle env) (writeLogMessage config level text) w calls
      (do
        let written ← .call (.ringBufferWriteN temp' record.length) .ret
        return (written : Int))
      { w with calls := w.calls + 3 } := by
    simp only [record]
    rw [← htotal]
    unfold writeLogMessage
    rw [hring, if_neg (by simp), if_neg (Nat.not_lt.mpr hlevel)]
    exact ⟨_, .call hstack ((leads_of_exec hstamp).trans (leads_of_exec hformat))⟩
  obtain ⟨calls, hleads⟩ := hleads
  exact ⟨temp', calls, hfits, hrecord, hleads⟩

/-- The ring holds `items`, followed by what it has accepted meanwhile. -/
structure Effect (N : Nat) (items part : List UInt8) (outs : List LogOutput) (w w' : LogWorld) :
    Prop where
  idle : RingIdle N w'.ring (items ++ part)
  accepted : w'.accepted = w.accepted ++ part
  outputs : w'.outputs = w.outputs ++ outs

theorem exec_writeN {N : Nat} {items data : List UInt8} {size : Nat}
    (hidle : RingIdle N w.ring items) (hN : N ≤ 2 ^ 63) (hdata : size ≤ data.length) :
    ∃ w', LogWorld.handle env (.ringBufferWriteN data size) w =
        (some (min size (N - 1 - items.length)), w') ∧
      Effect N items (data.take (min size (N - 1 - items.length))) [] w w' := by
  obtain ⟨rb', hexec, hidle'⟩ := exec_ringBufferWriteN hidle hN hdata
  unfold LogWorld.handle
  dsimp only
  rw [hexec]
  exact ⟨_, rfl, hidle', rfl, (List.append_nil _).symm⟩

theorem exec_writeLogMessage {N : Nat} {items : List UInt8} {config : LoggingConfig} {level : LogLevel}
    (hidle : RingIdle N w.ring items) (hN : N ≤ 2 ^ 63) (hring : config.ringBuffer = true)
    (hlevel : level.value ≤ config.currentLevel.value) (text : List UInt8) :
    let record := logRecord (env.timestamp (w.calls + 1)) (env.vsnprintf (w.calls + 2)) text
    let n := min record.length (N - 1 - items.length)
    ∃ w', (writeLogMessage config level text).exec (LogWorld.handle env) w = (some (n : Int), w') ∧
      Effect N items (record.take n) [] w w' := by
  intro record n
  obtain ⟨data, calls, hfits, hrecord, hleads⟩ := leads_writeLogMessage env (w := w)
    hring hlevel text
  obtain ⟨w', hwrite, heffect⟩ := exec_writeN env
    (w := { w with calls := w.calls + 3 }) hidle hN hfits
  have hpart : data.take n = record.take n := by
    change data.take record.length = record at hrecord
    rw [← hrecord, List.take_take, Nat.min_eq_left (Nat.min_le_left _ _)]
  have hexec : (writeLogMessage config level text).exec (LogWorld.handle env) w =
      (some (n : Int), w') := by
    rw [hleads.exec_eq, call_bind, exec_call_some hwrite]
    rfl
  rw [← hpart]
  exact ⟨w', hexec, heffect.idle, heffect.accepted, heffect.outputs⟩

theorem exec_writeLogMessage_filtered {config : LoggingConfig} {level : LogLevel}
    (hring : config.ringBuffer = true) (hlevel : config.currentLevel.value < level.value)
    (text : List UInt8) :
    (writeLogMessage config level text).exec (LogWorld.handle env) w = (some 0, w) := by
  unfold writeLogMessage
  rw [hring, if_neg (by simp), if_pos hlevel]
  rfl

end Execution

/-- The ring buffer is given exactly the record and keeps the longest prefix that fits; a record
above the current level is not made at all. -/
theorem writeLogMessage_appends (env : Surroundings) {w : LogWorld} {N : Nat} {items : List UInt8}
    (hidle : RingIdle N w.ring items) (hN : N ≤ 2 ^ 63) {config : LoggingConfig}
    (hring : config.ringBuffer = true) (level : LogLevel) (text : List UInt8) :
    (config.currentLevel.value < level.value →
      (writeLogMessage config level text).exec (LogWorld.handle env) w = (some 0, w)) ∧
    (level.value ≤ config.currentLevel.value →
      let record := logRecord (env.timestamp (w.calls + 1)) (env.vsnprintf (w.calls + 2)) text
      let n := min record.length (N - 1 - items.length)
      (∃ data calls w₁, data.take record.length = record ∧ w₁.ring = w.ring ∧
        Leads (LogWorld.handle env) (writeLogMessage config level text) w calls
          (do
            let written ← .call (.ringBufferWriteN data record.length) .ret
            return (written : Int)) w₁) ∧
      ∃ w', (writeLogMessage config level text).exec (LogWorld.handle env) w = (some (n : Int), w') ∧
        RingIdle N w'.ring (items ++ record.take n)) := by
  constructor
  · intro hlevel
    exact exec_writeLogMessage_filtered env hring hlevel text
  · intro hlevel
    obtain ⟨data, calls, -, hrecord, hleads⟩ := leads_writeLogMessage env (w := w)
      hring hlevel text
    obtain ⟨w', hexec, heffect⟩ := exec_writeLogMessage env hidle hN hring hlevel text
    constructor
    · exact ⟨data, calls, { w with calls := w.calls + 3 }, hrecord, rfl, hleads⟩
    · exact ⟨w', hexec, heffect.idle⟩

/-- Five bytes are free for the three of the time stamp and the four of the message. -/
theorem writeLogMessage_appends_cut :
    ∃ w', (writeLogMessage ⟨true, .error⟩ .critical [65, 66, 67, 68]).exec
        (LogWorld.handle fairSurroundings) (LogWorld.start ⟨[], 0, 0, 0, none⟩ 6) = (some 5, w') ∧
      RingIdle 6 w'.ring [49, 58, 32, 65, 66] := by
  have hring : (⟨true, .error⟩ : LoggingConfig).ringBuffer = true := rfl
  obtain ⟨-, w', hexec, hidle⟩ := (writeLogMessage_appends fairSurroundings
    (LogWorld.start_idle ⟨[], 0, 0, 0, none⟩ (by decide : 1 ≤ 6)) (by decide) hring .critical
    [65, 66, 67, 68]).2 (by decide)
  exact ⟨w', hexec, hidle⟩

end YaskawaComms.Logging
