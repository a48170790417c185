import YaskawaComms.Framework.Fifo
import YaskawaComms.Framework.Outcomes
import YaskawaComms.Server.Responses
import YaskawaComms.Server.Walk

/-!
# The payload loop

The loop that reads a payload, with the counter and the buffer of the source, beside the code that
runs through it: each receive call asks for what the loop asks for, a payload is handed over once the
loop is complete, and a failed read is followed by nothing but clearing up.
-/

namespace YaskawaComms.Server

open Protocol Program

/-- The result of `platform_recv`. -/
def retRecv : Received → Int
  | none => -1
  | some bytes => bytes.length

/-- The variables of the loop. -/
structure PayloadLoop where
  payload : List UInt8
  payloadReceivedBytes : UInt32
  readFailed : Bool
  deriving DecidableEq

namespace PayloadLoop

/-- The buffer has been cleared by `bzero`. -/
def start (payloadLength : UInt32) : PayloadLoop :=
  ⟨List.replicate payloadLength.toNat 0, 0, false⟩

/-- There is another call of `platform_recv`. -/
def GoesOn (payloadLength : UInt32) (s : PayloadLoop) : Prop :=
  s.readFailed = false ∧ s.payloadReceivedBytes < payloadLength

/-- The length that this call asks for; the bytes go to the buffer from `payloadReceivedBytes` on. -/
def wanted (payloadLength : UInt32) (s : PayloadLoop) : UInt32 :=
  payloadLength - s.payloadReceivedBytes

/-- The body of the loop. -/
def iterate (s : PayloadLoop) (received : Received) : PayloadLoop :=
  if retRecv received ≤ 0 then { s with readFailed := true }
  else
    { s with
      payload := overwrite s.payload s.payloadReceivedBytes.toNat (received.getD [])
      payloadReceivedBytes := s.payloadReceivedBytes + UInt32.ofInt (retRecv received) }

end PayloadLoop

/-- What has become of a message whose header has been read: whether its payload buffer has been
asked for, and the buffer if there is one; the client's socket as it was loaded last; the loop, with
the results of its calls and what they have left of the stream; the payloads handed over, and the
calls of `handle_command`; and the calls made once the loop has failed. -/
structure Reception where
  begun : Bool
  block : Option Nat
  socket : Option Int
  loop : PayloadLoop
  results : List Received
  rest : List UInt8
  handed : List (List UInt8)
  handled : List ServerCall
  clearing : List ServerCall

def Reception.start (payloadLength : UInt32) (stream : List UInt8) : Reception where
  begun := false
  block := none
  socket := none
  loop := .start payloadLength
  results := []
  rest := stream
  handed := []
  handled := []
  clearing := []

/-- The calls of handling a message beside the loop: a receive call is made where the loop makes it, on
the client's socket, for as many bytes, inside the buffer; the payload is handed over where the loop
has ended well, and what is done with the message is done with this payload. The result of a receive
call is -1, 0 or a count of at most the bytes asked for. -/
def receiving (header : ProtocolHeader) : Monitor serverSignature Reception where
  good m c := match c with
    | .malloc len => m.begun = false → len = header.payloadLength.toNat
    | .recv fd len => m.block ≠ none ∧ m.socket = some fd ∧ m.loop.GoesOn header.payloadLength ∧
        len = (m.loop.wanted header.payloadLength).toNat ∧
        m.loop.payloadReceivedBytes.toNat + len ≤ m.loop.payload.length ∧
        m.results.length ≤ header.payloadLength.toNat
    | .dispatched h payload | .handleCommand h payload => h = header ∧ m.block ≠ none ∧
        m.loop.readFailed = false ∧ ¬ m.loop.GoesOn header.payloadLength ∧ payload = m.loop.payload
    | .registerUdpPort port => m.handed ≠ [] ∧ port = udpPort m.loop.payload
    | .storeLastCommand _ | .getErrorInfo => m.handed ≠ []
    | _ => True
  allowed m c := match c with
    | .recv _ len => fun received =>
        received = none ∨ ∃ n ≤ len, n ≤ m.rest.length ∧ received = some (m.rest.take n)
    | _ => fun _ => True
  next m c r :=
    if m.loop.readFailed then { m with clearing := m.clearing ++ [c] }
    else match c, r with
      | .malloc _, block => if m.begun then m else { m with begun := true, block := block }
      | .loadSocket, socket =>
          if m.block ≠ none ∧ m.handed = [] then { m with socket := some socket } else m
      | .recv _ _, received =>
          { m with
            loop := m.loop.iterate received
            results := m.results ++ [received]
            rest := m.rest.drop (received.getD []).length }
      | .dispatched _ payload, _ => { m with handed := m.handed ++ [payload] }
      | .handleCommand h payload, _ => { m with handled := m.handled ++ [.handleCommand h payload] }
      | _, _ => m

/-- How a message can end. -/
structure Reception.Settled (cfg : ServerConfig) (header : ProtocolHeader) (stream : List UInt8)
    (m : Reception) : Prop where
  begun : m.begun = true
  ended : m.block ≠ none → ¬ m.loop.GoesOn header.payloadLength
  calls : m.results.length ≤ header.payloadLength.toNat + 1
  counter : m.loop.payloadReceivedBytes ≤ header.payloadLength
  complete : m.block ≠ none → (∀ received ∈ m.results, 0 < retRecv received) →
    header.payloadLength.toNat ≤ stream.length ∧
    m.handed = [stream.take header.payloadLength.toNat] ∧
    m.handled = commands cfg header (stream.take header.payloadLength.toNat) ∧
    m.rest = stream.drop header.payloadLength.toNat
  failed : ∀ block, m.block = some block → (∃ received ∈ m.results, retRecv received ≤ 0) →
    m.handed = [] ∧ m.handled = [] ∧ m.clearing = [.free block, .removeClient]
  unread : m.block = none → m.results = [] ∧ m.handed = [] ∧ m.handled = []

variable {cfg : ServerConfig} {header : ProtocolHeader} {stream payload : List UInt8} {m : Reception}
  {block : Nat}

/-- So far the loop has received these bytes. -/
structure Reception.Reading (header : ProtocolHeader) (stream : List UInt8) (block : Nat)
    (payload : List UInt8) (m : Reception) : Prop where
  begun : m.begun = true
  block : m.block = some block
  buffer : m.loop.payload =
    payload ++ List.replicate (header.payloadLength.toNat - payload.length) 0
  counter : m.loop.payloadReceivedBytes.toNat = payload.length
  within : payload.length ≤ header.payloadLength.toNat
  stream : stream = payload ++ m.rest
  calls : m.results.length ≤ payload.length
  positive : ∀ received ∈ m.results, 0 < retRecv received
  fine : m.loop.readFailed = false
  handed : m.handed = []
  handled : m.handled = []
  clearing : m.clearing = []

/-- The last call of the loop has failed. -/
structure Reception.Failed (header : ProtocolHeader) (block : Nat) (m : Reception) : Prop where
  begun : m.begun = true
  block : m.block = some block
  calls : m.results.length ≤ header.payloadLength.toNat
  counter : m.loop.payloadReceivedBytes ≤ header.payloadLength
  negative : ∃ received ∈ m.results, retRecv received ≤ 0
  failed : m.loop.readFailed = true
  handed : m.handed = []
  handled : m.handled = []
  clearing : m.clearing = []

/-- The calls that change nothing as long as the loop has not failed. -/
def ServerCall.passesBy : ServerCall → Bool
  | .malloc _ | .loadSocket | .recv _ _ | .dispatched _ _ | .handleCommand _ _ => false
  | _ => true

theorem receiving_next_failed (hfailed : m.loop.readFailed = true) (c : ServerCall) (r : c.Result) :
    (receiving header).next m c r = { m with clearing := m.clearing ++ [c] } :=
  if_pos hfailed

section Fine

variable (hfine : m.loop.readFailed = false)
include hfine

theorem receiving_not_failed : ¬ m.loop.readFailed = true := by
  rw [hfine]
  exact Bool.false_ne_true

theorem receiving_next_malloc (hbegun : m.begun = true) (len : Nat) (block : Option Nat) :
    (receiving header).next m (.malloc len) block = m :=
  (if_neg (receiving_not_failed hfine)).trans (if_pos hbegun)

theorem receiving_next_recv (fd : Int) (len : Nat) (received : Received) :
    (receiving header).next m (.recv fd len) received =
      { m with
        loop := m.loop.iterate received
        results := m.results ++ [received]
        rest := m.rest.drop (received.getD []).length } :=
  if_neg (receiving_not_failed hfine)

theorem receiving_next_dispatched (h : ProtocolHeader) (payload : List UInt8) :
    (receiving header).next m (.dispatched h payload) () =
      { m with handed := m.handed ++ [payload] } :=
  if_neg (receiving_not_failed hfine)

theorem receiving_passes_loadSocket (hidle : m.block = none ∨ m.handed ≠ []) :
    Passes (receiving header) (fun m' => m' = m) .loadSocket := by
  rintro _ rfl
  refine ⟨trivial, fun socket => (if_neg (receiving_not_failed hfine)).trans (if_neg ?_)⟩
  rintro ⟨hblock, hhanded⟩
  rcases hidle with hnone | hsome
  · exact hblock hnone
  · exact hsome hhanded

theorem receiving_passes {c : ServerCall} (hc : c.passesBy = true) (hgood : (receiving header).good m c) :
    Passes (receiving header) (fun m' => m' = m) c := by
  rintro _ rfl
  refine ⟨hgood, fun r => (if_neg (receiving_not_failed hfine)).trans ?_⟩
  cases c with
  | malloc len => cases hc
  | loadSocket => cases hc
  | recv fd len => cases hc
  | dispatched header payload => cases hc
  | handleCommand header payload => cases hc
  | _ => rfl

end Fine

namespace Reception.Reading

theorem goesOn_iff (h : m.Reading header stream block payload) :
    m.loop.GoesOn header.payloadLength ↔ payload.length < header.payloadLength.toNat := by
  rw [PayloadLoop.GoesOn, UInt32.lt_iff_toNat_lt, h.counter]
  exact and_iff_right h.fine

theorem wanted (h : m.Reading header stream block payload) :
    (m.loop.wanted header.payloadLength).toNat = header.payloadLength.toNat - payload.length := by
  have hle : m.loop.payloadReceivedBytes ≤ header.payloadLength := by
    rw [UInt32.le_iff_toNat_le, h.counter]
    exact h.within
  rw [PayloadLoop.wanted, UInt32.toNat_sub_of_le _ _ hle, h.counter]

theorem loaded (h : m.Reading header stream block payload) (fd : Int) :
    Reading header stream block payload { m with socket := some fd } :=
  ⟨h.begun, h.block, h.buffer, h.counter, h.within, h.stream, h.calls, h.positive, h.fine, h.handed,
    h.handled, h.clearing⟩

theorem next_loadSocket (h : m.Reading header stream block payload) (fd : Int) :
    (receiving header).next m .loadSocket fd = { m with socket := some fd } := by
  refine (if_neg (receiving_not_failed h.fine)).trans (if_pos ⟨?_, h.handed⟩)
  rw [h.block]
  exact nofun

theorem good_recv (h : m.Reading header stream block payload) {fd : Int} (hsocket : m.socket = some fd)
    (hmore : payload.length < header.payloadLength.toNat) :
    (receiving header).good m (.recv fd (header.payloadLength.toNat - payload.length)) := by
  refine ⟨by rw [h.block]; exact nofun, hsocket, h.goesOn_iff.mpr hmore, h.wanted.symm, ?_, ?_⟩
  · rw [h.counter, h.buffer, List.length_append, List.length_replicate]
  · have hcalls := h.calls
    omega

/-- Some bytes have been received. -/
theorem received (h : m.Reading header stream block payload) {n : Nat} (hpos : 0 < n)
    (hwanted : n ≤ header.payloadLength.toNat - payload.length) (hn : n ≤ m.rest.length) (fd : Int)
    (len : Nat) :
    Reading header stream block (payload ++ m.rest.take n)
      ((receiving header).next m (.recv fd len) (some (m.rest.take n))) := by
  have hlength : (m.rest.take n).length = n := List.length_take_of_le hn
  have hret : retRecv (some (m.rest.take n)) = n := by rw [retRecv, hlength]
  have htotal : (payload ++ m.rest.take n).length = payload.length + n := by
    rw [List.length_append, hlength]
  have hsize := header.payloadLength.toNat_lt
  rw [receiving_next_recv h.fine]
  have hiterate : m.loop.iterate (some (m.rest.take n)) =
      { m.loop with
        payload := overwrite m.loop.payload payload.length (m.rest.take n)
        payloadReceivedBytes := m.loop.payloadReceivedBytes + UInt32.ofNat n } := by
    have hnot : ¬ (n : Int) ≤ 0 := by omega
    have hcount : UInt32.ofInt n = UInt32.ofNat n := by
      rw [UInt32.ofInt]
      congr 1
      omega
    rw [PayloadLoop.iterate, hret, if_neg hnot, h.counter, hcount, Option.getD_some]
  have hbuffer : overwrite m.loop.payload payload.length (m.rest.take n) =
      payload ++ m.rest.take n ++
        List.replicate (header.payloadLength.toNat - (payload.length + n)) 0 := by
    have hzeros : header.payloadLength.toNat - payload.length - n =
        header.payloadLength.toNat - (payload.length + n) := by omega
    rw [h.buffer, overwrite, hlength, List.take_left, List.drop_append, List.drop_replicate,
      List.drop_of_length_le (by omega), List.nil_append, Nat.add_sub_cancel_left, hzeros]
  have hcounter : (m.loop.payloadReceivedBytes + UInt32.ofNat n).toNat = payload.length + n := by
    rw [UInt32.toNat_add, h.counter, UInt32.toNat_ofNat']
    omega
  rw [hiterate]
  exact {
    begun := h.begun
    block := h.block
    buffer := by rw [htotal, hbuffer]
    counter := by rw [htotal, hcounter]
    within := by omega
    stream := by
      rw [Option.getD_some, hlength, List.append_assoc, List.take_append_drop]
      exact h.stream
    calls := by
      have hcalls := h.calls
      rw [htotal, List.length_append, List.length_singleton]
      omega
    positive := by
      intro received hmem
      rcases List.mem_append.mp hmem with hearlier | hlast
      · exact h.positive received hearlier
      · rw [List.mem_singleton.mp hlast, hret]
        omega
    fine := h.fine
    handed := h.handed
    handled := h.handled
    clearing := h.clearing }

theorem lost (h : m.Reading header stream block payload) {received : Received}
    (hret : retRecv received ≤ 0) (hmore : payload.length < header.payloadLength.toNat) (fd : Int)
    (len : Nat) : ((receiving header).next m (.recv fd len) received).Failed header block := by
  rw [receiving_next_recv h.fine, PayloadLoop.iterate, if_pos hret]
  exact {
    begun := h.begun
    block := h.block
    calls := by
      have hcalls := h.calls
      rw [List.length_append, List.length_singleton]
      omega
    counter := by
      rw [UInt32.le_iff_toNat_le, h.counter]
      exact h.within
    negative := ⟨received, List.mem_append_right _ (List.mem_singleton_self _), hret⟩
    failed := rfl
    handed := h.handed
    handled := h.handled
    clearing := h.clearing }

end Reception.Reading

/-- The loop ends with a complete payload, or with a failed call. -/
theorem receivePayload_receiving {rounds : Nat} (h : m.Reading header stream block payload)
    (hrounds : header.payloadLength.toNat ≤ payload.length + rounds) :
    (receivePayload header.payloadLength.toNat rounds payload).Obeys (receiving header)
      (fun result m => match result with
        | some all => m.Reading header stream block all ∧ all.length = header.payloadLength.toNat
        | none => m.Failed header block) m := by
  induction rounds generalizing payload m with
  | zero =>
      have hwithin := h.within
      exact ⟨h, by omega⟩
  | succ rounds ih =>
      unfold receivePayload
      apply obeys_ite
      · intro hmore
        apply obeys_call trivial
        intro fd _
        rw [h.next_loadSocket fd]
        have h := h.loaded fd
        apply obeys_call (h.good_recv rfl hmore)
        intro received hallowed
        rcases hallowed with rfl | ⟨n, hwanted, hn, rfl⟩
        · exact h.lost (by decide) hmore fd _
        · have hlength : (m.rest.take n).length = n := List.length_take_of_le hn
          cases hbytes : m.rest.take n with
          | nil =>
              rw [hbytes] at hlength
              exact h.lost (by decide) hmore fd _
          | cons b bytes =>
              rw [hbytes, List.length_cons] at hlength
              have hnext := h.received (by omega : 0 < n) hwanted hn fd
                (header.payloadLength.toNat - payload.length)
              rw [hbytes] at hnext
              apply ih hnext
              rw [List.length_append, List.length_cons]
              omega
      · intro hdone
        have hwithin := h.within
        exact ⟨h, by omega⟩

theorem receiving_answers (header : ProtocolHeader) (hbegun : m.begun = true)
    (hfine : m.loop.readFailed = false) (hidle : m.block = none ∨ m.handed ≠ []) :
    AnswerRule (receiving header) (fun m' => m' = m) (fun _ => True) where
  prepares c hc := by
    cases c with
    | malloc len =>
        rintro _ rfl
        refine ⟨fun hnot => ?_, receiving_next_malloc hfine hbegun len⟩
        rw [hbegun] at hnot
        cases hnot
    | loadSocket => exact receiving_passes_loadSocket hfine hidle
    | getTimestampMs => exact receiving_passes hfine rfl trivial
    | free block => exact receiving_passes hfine rfl trivial
    | _ => cases hc
  built _ _ := trivial
  sends socket ctx _ := sendCommandResponseContext_walks (fun _ => receiving_passes hfine rfl trivial)
    (fun _ => receiving_passes hfine rfl trivial) (receiving_passes hfine rfl trivial) ctx

theorem receiving_registration (header : ProtocolHeader) (hbegun : m.begun = true)
    (hfine : m.loop.readFailed = false) (hhanded : m.handed ≠ []) :
    RegistrationRule (receiving header) (fun m' => m' = m) (fun _ => True) m.loop.payload where
  treats c hc := by
    cases hprepares : c.prepares with
    | true => exact (receiving_answers header hbegun hfine (.inr hhanded)).prepares c hprepares
    | false =>
        cases c with
        | storeLastCommand value => exact receiving_passes hfine rfl hhanded
        | removeClient => exact receiving_passes hfine rfl trivial
        | time => exact receiving_passes hfine rfl trivial
        | malloc len => cases hprepares
        | free block => cases hprepares
        | loadSocket => cases hprepares
        | getTimestampMs => cases hprepares
        | _ => cases hc
  registers _ := receiving_passes hfine rfl ⟨hhanded, rfl⟩
  built _ _ := trivial
  sends := (receiving_answers header hbegun hfine (.inr hhanded)).sends

theorem platformFree_receiving (header : ProtocolHeader) (hfine : m.loop.readFailed = false) (block : Nat) :
    (platformFree block).Obeys (receiving header) (fun _ m' => m' = m) m := by
  refine ⟨trivial, fun r _ => ?_⟩
  exact (receiving_passes (c := .free block) hfine rfl trivial m rfl).2 r

theorem respondError_receiving (header : ProtocolHeader) (hbegun : m.begun = true)
    (hfine : m.loop.readFailed = false) (hidle : m.block = none ∨ m.handed ≠ []) :
    (respond (msgErrResponseInt (-1)) >>= fun _ => pure ()).Obeys (receiving header) (fun _ m' => m' = m) m :=
  ((receiving_answers header hbegun hfine hidle).respondError (-1) m rfl).bind fun _ _ h => h.1

theorem handleCommand_receiving (header : ProtocolHeader) (hbegun : m.begun = true)
    (hfine : m.loop.readFailed = false) (hhanded : m.handed ≠ []) (hblock : m.block ≠ none)
    (hended : ¬ m.loop.GoesOn header.payloadLength) :
    (respondWith true (handleCommand header m.loop.payload)).Obeys (receiving header)
      (fun _ m' => m' = { m with handled := m.handled ++ [.handleCommand header m.loop.payload] }) m := by
  have hnext : ∀ r, (receiving header).next m (.handleCommand header m.loop.payload) r =
      { m with handled := m.handled ++ [.handleCommand header m.loop.payload] } :=
    fun _ => if_neg (receiving_not_failed hfine)
  have hgood : (receiving header).good m (.handleCommand header m.loop.payload) :=
    ⟨rfl, hblock, hfine, hended, rfl⟩
  unfold respondWith
  rw [if_pos rfl]
  apply obeys_call hgood
  intro rsp _
  rw [hnext]
  cases rsp with
  | none => exact respondError_receiving header hbegun hfine (.inr hhanded)
  | some ctx =>
      have hanswers : AnswerRule (receiving header)
          (fun m' => m' = { m with handled := m.handled ++ [.handleCommand header m.loop.payload] })
          (fun _ => True) :=
        receiving_answers header hbegun hfine (.inr hhanded)
      apply ((hanswers.respond (walks_pure fun _ _ => trivial)) _ rfl).bind
      rintro _ _ ⟨rfl, -⟩
      rfl

/-- A message that has been handed over: its payload goes to `handle_command`, unless the message is
one for the protocol itself. -/
theorem handlePayload_receiving (cfg : ServerConfig) (header : ProtocolHeader) (payloadBlock : Nat)
    (hbegun : m.begun = true) (hfine : m.loop.readFailed = false) (hhanded : m.handed ≠ []) (hblock : m.block ≠ none)
    (hended : ¬ m.loop.GoesOn header.payloadLength) :
    (handlePayload cfg header payloadBlock m.loop.payload).Obeys (receiving header)
      (fun _ m' => m' = { m with handled := m.handled ++ commands cfg header m.loop.payload }) m := by
  have hrule := receiving_registration header hbegun hfine hhanded
  have hfree := platformFree_receiving header hfine payloadBlock
  have hnothing : { m with handled := m.handled ++ [] } = m := by rw [List.append_nil]
  unfold handlePayload
  apply obeys_keep trivial ((hrule.treats .time rfl m rfl).2)
  intro now _
  apply obeys_keep hhanded ((hrule.treats (.storeLastCommand now) rfl m rfl).2)
  intro _ _
  unfold commands
  apply obeys_ite
  · intro htype
    rw [if_pos htype, hnothing]
    apply (hrule.handleRegistration cfg payloadBlock m rfl).bind
    rintro kept _ ⟨rfl, -⟩
    exact obeys_ite (fun _ => hfree) fun _ => rfl
  intro htype
  rw [if_neg htype]
  apply obeys_ite
  · intro hinfo
    rw [if_pos hinfo, hnothing]
    have hinforms : Walks (receiving header) (fun m' => m' = m) (fun ctx => ∀ c, ctx = some c → True)
        getErrorInfo := by
      rintro _ rfl
      refine ⟨hhanded, fun r _ => ⟨?_, fun _ _ => trivial⟩⟩
      exact (receiving_passes (c := .getErrorInfo) hfine rfl hhanded _ rfl).2 r
    apply ((hrule.answering.respondWith cfg.getErrorInfo hinforms) m rfl).bind
    rintro _ _ ⟨rfl, -⟩
    exact hfree
  · intro hinfo
    rw [if_neg hinfo]
    cases hconfigured : cfg.handleCommand with
    | false =>
        rw [if_neg Bool.false_ne_true, hnothing]
        unfold respondWith
        rw [if_neg Bool.false_ne_true]
        apply (respondError_receiving header hbegun hfine (.inr hhanded)).bind
        rintro _ _ rfl
        exact hfree
    | true =>
        rw [if_pos rfl]
        apply (handleCommand_receiving header hbegun hfine hhanded hblock hended).bind
        rintro _ m' hm'
        have hfine' : m'.loop.readFailed = false := by rwa [hm']
        rw [← hm']
        exact platformFree_receiving header hfine' payloadBlock

theorem Reception.settled_unread (hbegun : m.begun = true) (hblock : m.block = none)
    (hresults : m.results = []) (hcounter : m.loop.payloadReceivedBytes ≤ header.payloadLength)
    (hhanded : m.handed = []) (hhandled : m.handled = []) : m.Settled cfg header stream where
  begun := hbegun
  ended hsome := absurd hblock hsome
  calls := by
    rw [hresults]
    exact Nat.zero_le _
  counter := hcounter
  complete hsome := absurd hblock hsome
  failed block hsome := by
    rw [hblock] at hsome
    cases hsome
  unread _ := ⟨hresults, hhanded, hhandled⟩

theorem Reception.Reading.settled (h : m.Reading header stream block payload)
    (hlength : payload.length = header.payloadLength.toNat) :
    ({ m with handed := [payload], handled := commands cfg header payload } : Reception).Settled cfg
      header stream where
  begun := h.begun
  ended _ hgoesOn := by
    have hmore := h.goesOn_iff.mp hgoesOn
    omega
  calls := by
    have hcalls := h.calls
    rw [hlength] at hcalls
    exact Nat.le_succ_of_le hcalls
  counter := by
    rw [UInt32.le_iff_toNat_le, h.counter]
    exact h.within
  complete _ _ := by
    rw [h.stream, ← hlength, List.take_left, List.drop_left, List.length_append]
    exact ⟨Nat.le_add_right _ _, rfl, rfl, rfl⟩
  failed _ _ hnegative := by
    obtain ⟨received, hmem, hret⟩ := hnegative
    have hpos := h.positive received hmem
    omega
  unread hnone := by
    have hblock : m.block = none := hnone
    rw [h.block] at hblock
    cases hblock

theorem Reception.Failed.settled (h : m.Failed header block) :
    ({ m with clearing := [.free block, .removeClient] } : Reception).Settled cfg header stream where
  begun := h.begun
  ended _ hgoesOn := by
    have hfine : m.loop.readFailed = false := hgoesOn.1
    rw [h.failed] at hfine
    cases hfine
  calls := Nat.le_succ_of_le h.calls
  counter := h.counter
  complete _ hpositive := by
    obtain ⟨received, hmem, hret⟩ := h.negative
    have hpos := hpositive received hmem
    omega
  failed block' hblock _ := by
    have hsame : m.block = some block' := hblock
    rw [h.block] at hsame
    cases hsame
    exact ⟨h.handed, h.handled, rfl⟩
  unread hnone := by
    have hblock : m.block = none := hnone
    rw [h.block] at hblock
    cases hblock

theorem Reception.Failed.abandons (h : m.Failed header block) :
    (platformFree block >>= fun _ => removeClient).Obeys (receiving header)
      (fun _ m' => m'.Settled cfg header stream) m := by
  have hfree : (receiving header).next m (.free block) () = { m with clearing := [.free block] } := by
    rw [receiving_next_failed h.failed, h.clearing]
    rfl
  have hremove : (receiving header).next { m with clearing := [.free block] } .removeClient () =
      { m with clearing := [.free block, .removeClient] } :=
    receiving_next_failed (m := { m with clearing := [.free block] }) h.failed _ _
  refine ⟨trivial, fun _ _ => ⟨trivial, fun _ _ => ?_⟩⟩
  show Reception.Settled cfg header stream ((receiving header).next
    ((receiving header).next m (.free block) ()) .removeClient ())
  rw [hfree, hremove]
  exact h.settled

theorem Reception.Reading.hands (h : m.Reading header stream block payload)
    (hlength : payload.length = header.payloadLength.toNat) (cfg : ServerConfig) :
    (dispatched header payload >>= fun _ => handlePayload cfg header block payload).Obeys
      (receiving header) (fun _ m' => m'.Settled cfg header stream) m := by
  have hended : ¬ m.loop.GoesOn header.payloadLength := by
    rw [h.goesOn_iff]
    omega
  have hbuffer : m.loop.payload = payload := by
    rw [h.buffer, hlength, Nat.sub_self, List.replicate_zero, List.append_nil]
  have hblock : m.block ≠ none := by
    rw [h.block]
    exact nofun
  have hnext : (receiving header).next m (.dispatched header payload) () =
      { m with handed := [payload] } := by
    rw [receiving_next_dispatched h.fine, h.handed]
    rfl
  have hgood : (receiving header).good m (.dispatched header payload) :=
    ⟨rfl, hblock, h.fine, hended, hbuffer.symm⟩
  apply obeys_call hgood
  intro _ _
  rw [hnext]
  have hhandles := handlePayload_receiving (m := { m with handed := [payload] }) cfg header
    block h.begun h.fine (List.cons_ne_nil _ _) hblock hended
  dsimp only at hhandles
  rw [hbuffer] at hhandles
  apply hhandles.mono
  rintro _ _ rfl
  rw [h.handled]
  exact h.settled hlength

/-- Whatever the receive calls return, the code follows the loop, and hands over the next bytes of the
stream or, after a failed call, frees the buffer once and removes the client. -/
theorem handleMessage_receives (cfg : ServerConfig) (header : ProtocolHeader) (stream : List UInt8)
    (hsize : header.payloadLength.toNat ≤ maxPayloadSize) :
    (handleMessage cfg header).Obeys (receiving header) (fun _ m => m.Settled cfg header stream)
      (.start header.payloadLength stream) := by
  rw [handleMessage, if_pos hsize]
  apply obeys_call (fun _ => rfl)
  intro malloced _
  cases malloced with
  | none =>
      let m : Reception := { Reception.start header.payloadLength stream with begun := true }
      have hzero : (0 : UInt32) ≤ header.payloadLength := by
        rw [UInt32.le_iff_toNat_le]
        exact Nat.zero_le _
      refine ⟨trivial, fun _ _ => ?_⟩
      apply (respondError_receiving (m := m) header rfl rfl (.inl rfl)).mono
      rintro _ _ rfl
      exact Reception.settled_unread rfl rfl rfl hzero rfl rfl
  | some block =>
      have hreading : Reception.Reading header stream block []
          { Reception.start header.payloadLength stream with begun := true, block := some block } :=
        { begun := rfl
          block := rfl
          buffer := rfl
          counter := rfl
          within := Nat.zero_le _
          stream := rfl
          calls := Nat.le_refl _
          positive := List.forall_mem_nil _
          fine := rfl
          handed := rfl
          handled := rfl
          clearing := rfl }
      apply (receivePayload_receiving hreading (Nat.le_add_left _ _)).bind
      intro result m hresult
      cases result with
      | none => exact hresult.abandons
      | some payload => exact hresult.1.hands hresult.2 cfg

/-- A payload of three bytes is received in two parts and handed over; and a second part that cannot be
received ends the connection. -/
theorem handleMessage_receives_three :
    let header := headerOf 3 0x10
    let stream : List UInt8 := [1, 2, 3, 4]
    (∃ m, (handleMessage commandConfig header).Returns (receiving header) (.start 3 stream) () m ∧
      m.results = [some [1], some [2, 3]] ∧ m.handled = [.handleCommand header [1, 2, 3]] ∧ m.rest = [4] ∧
      m.Settled commandConfig header stream) ∧
    ∃ m, (handleMessage commandConfig header).Returns (receiving header) (.start 3 stream) () m ∧
      m.results = [some [1], none] ∧ m.handled = [] ∧ m.clearing = [.free 0, .removeClient] ∧
      m.Settled commandConfig header stream := by
  intro header stream
  have hsettles := handleMessage_receives commandConfig header stream (by decide)
  have hcode : handleMessage commandConfig header = _ := if_pos (by decide)
  constructor
  · let received : Reception :=
      ⟨true, some 0, some 7, ⟨[1, 2, 3], 3, false⟩, [some [1], some [2, 3]], [4], [[1, 2, 3]], [], []⟩
    have hpath : (handleMessage commandConfig header).Returns (receiving header) (.start 3 stream) ()
        { received with handled := [.handleCommand header [1, 2, 3]] } := by
      rw [hcode]
      refine ⟨some 0, trivial, (7 : Int), trivial, some [1], .inr ⟨1, by decide, by decide, rfl⟩, ?_⟩
      refine ⟨(7 : Int), trivial, some [2, 3], .inr ⟨2, by decide, by decide, rfl⟩, ?_⟩
      refine ⟨(), trivial, ?_⟩
      show (handlePayload commandConfig header 0 [1, 2, 3]).Returns (receiving header) received () _
      refine ⟨(0 : Int), trivial, (), trivial, ?_⟩
      show (respondWith true (handleCommand header [1, 2, 3]) >>= fun _ => platformFree 0).Returns
        (receiving header) received () _
      refine ⟨some ⟨1, 2, headerOf 0 msgOk, none⟩, trivial, ?_⟩
      exact ⟨(7 : Int), trivial, (18 : Int), trivial, (), trivial, (), trivial, (), trivial, rfl, rfl⟩
    exact ⟨_, hpath, rfl, rfl, rfl, hsettles.returns hpath⟩
  · have hpath : (handleMessage commandConfig header).Returns (receiving header) (.start 3 stream) ()
        ⟨true, some 0, some 7, ⟨[1, 0, 0], 1, true⟩, [some [1], none], [2, 3, 4], [], [],
          [.free 0, .removeClient]⟩ := by
      rw [hcode]
      refine ⟨some 0, trivial, (7 : Int), trivial, some [1], .inr ⟨1, by decide, by decide, rfl⟩, ?_⟩
      exact ⟨(7 : Int), trivial, none, .inl rfl, (), trivial, (), trivial, rfl, rfl⟩
    exact ⟨_, hpath, rfl, rfl, rfl, hsettles.returns hpath⟩

end YaskawaComms.Server
