import YaskawaComms.Logging.LogMessage
import Mathlib.Data.Finset.Lattice.Fold
import Mathlib.Order.Lattice.Nat

/-!
# The broadcast interfaces

`udp_broadcast_gather_interfaces` walks the list of host addresses and fills one slot of a fixed
array for each suitable one. A store outside the array has no defined effect; the run stops there.
-/

namespace YaskawaComms.Logging

open Program

def udpBroadcastMaxInterfaces : Nat := 16

def afInet : UInt16 := 2

/-- The byte order of the network, on a little-endian host. -/
def htons (port : UInt16) : UInt16 := (port <<< 8) ||| (port >>> 8)

/-- One element of the list of `getifaddrs`; `none` stands for `NULL`. -/
structure IfAddr where
  family : Option UInt16
  flags : UInt32
  name : List UInt8
  broadaddr : Option SockaddrIn
  deriving DecidableEq

inductive NetCall where
  | getifaddrs
  | socket
  | setsockopt (fd : Int)
  | close (fd : Int)
  | loadCount
  | storeCount (n : Nat)
  | loadPort
  | loadSocketFd (i : Nat)
  | storeSocketFd (i : Nat) (fd : Int)
  | storeDestAddr (i : Nat) (addr : SockaddrIn)
  | storeName (i : Nat) (name : List UInt8)
  | clearRingBuffer
  deriving DecidableEq

abbrev NetCall.Result : NetCall → Type
  | .getifaddrs => Option (List IfAddr)
  | .socket | .setsockopt _ | .loadSocketFd _ => Int
  | .loadCount => Nat
  | .loadPort => UInt32
  | .close _ | .storeCount _ | .storeSocketFd _ _ | .storeDestAddr _ _ | .storeName _ _
  | .clearRingBuffer => Unit

abbrev netSignature : Signature := ⟨NetCall, NetCall.Result⟩

abbrev NetProgram := Program netSignature

def udpBroadcastCreateSocket : NetProgram Int := do
  let sockfd ← .call .socket .ret
  if sockfd < 0 then
    return -1
  if (← .call (.setsockopt sockfd) .ret) < 0 then
    .call (.close sockfd) .ret
    return -1
  return sockfd

/-- The part of the loop body behind the tests. -/
def configureInterface (name : List UInt8) (broadcastAddr : SockaddrIn) : NetProgram Unit := do
  let i ← .call .loadCount .ret
  let fd ← udpBroadcastCreateSocket
  .call (.storeSocketFd i fd) .ret
  if (← .call (.loadSocketFd i) .ret) < 0 then
    return
  let port ← .call .loadPort .ret
  .call (.storeDestAddr i { broadcastAddr with sinPort := htons port.toUInt16 }) .ret
  .call (.storeName i (name.take (16 - 1))) .ret
  .call (.storeCount (i + 1)) .ret

/-- The loop body; names are C strings. -/
def gatherInterface (specificInterface : Option (List UInt8)) (ifa : IfAddr) : NetProgram Unit :=
  match ifa.family with
  | none => return
  | some family => do
      if family = afInet then
        if ifa.flags &&& 0x2 = 0 then
          return
        if ifa.flags &&& 0x1 = 0 then
          return
        if ifa.flags &&& 0x8 ≠ 0 then
          return
        if specificInterface.any (· ≠ ifa.name) then
          return
        match ifa.broadaddr with
        | none => return
        | some broadcastAddr => configureInterface ifa.name broadcastAddr

def gatherInterfaces (specificInterface : Option (List UInt8)) : List IfAddr → NetProgram Unit
  | [] => return
  | ifa :: ifas => do
      gatherInterface specificInterface ifa
      gatherInterfaces specificInterface ifas

def udpBroadcastGatherInterfaces (specificInterface : Option (List UInt8)) : NetProgram Int := do
  .call (.storeCount 0) .ret
  match ← .call .getifaddrs .ret with
  | none => return -1
  | some ifaddrs =>
      gatherInterfaces specificInterface ifaddrs
      let count ← .call .loadCount .ret
      if specificInterface.isSome ∧ count = 0 then
        return -1
      if count = 0 then
        return -1
      return 0

/-- The loop of `udp_broadcast_shutdown` over the first entries. -/
def closeInterfaces : Nat → NetProgram Unit
  | 0 => return
  | n+1 => do
      closeInterfaces n
      let fd ← .call (.loadSocketFd n) .ret
      if 0 ≤ fd then
        .call (.close fd) .ret
        .call (.storeSocketFd n (-1)) .ret

def udpBroadcastShutdown : NetProgram Unit := do
  let count ← .call .loadCount .ret
  closeInterfaces count
  .call (.storeCount 0) .ret
  .call .clearRingBuffer .ret

/-- What the host answers: its addresses, which attempts to create a socket fail and how, and the
number of the next descriptor, which is never that of an open one. -/
structure Host where
  addresses : Option (List IfAddr)
  socketOk : Nat → Bool
  optionOk : Nat → Bool
  descriptor : Finset Int → Int
  descriptor_unused : ∀ s, descriptor s ∉ s
  descriptor_nonneg : ∀ s, 0 ≤ descriptor s

structure NetWorld where
  config : UdpBroadcastConfig
  attempts : Nat
  openFds : Finset Int
  closed : List Int

def NetWorld.withSlot (w : NetWorld) (i : Nat) (slot : UdpInterface) : NetWorld :=
  { w with config := { w.config with interfaces := Function.update w.config.interfaces i slot } }

/-- Change a slot of the array; a store outside of it has no defined effect. -/
def NetWorld.modify (w : NetWorld) (i : Nat) (f : UdpInterface → UdpInterface) :
    Option Unit × NetWorld :=
  if i < udpBroadcastMaxInterfaces then
    (some (), w.withSlot i (f (w.config.interfaces i)))
  else
    (none, w)

/-- One more descriptor is open. -/
def NetWorld.withSocket (host : Host) (w : NetWorld) : NetWorld :=
  { w with
    attempts := w.attempts + 1
    openFds := insert (host.descriptor w.openFds) w.openFds }

def NetWorld.handle (host : Host) (c : netSignature.Call) (w : NetWorld) :
    Option (netSignature.Result c) × NetWorld :=
  match c with
  | .getifaddrs => (some host.addresses, w)
  | .socket =>
      if host.socketOk w.attempts then
        (some (host.descriptor w.openFds), w.withSocket host)
      else
        (some (-1), { w with attempts := w.attempts + 1 })
  | .setsockopt _ => (some (if host.optionOk (w.attempts - 1) then 0 else -1), w)
  | .close fd => (some (), { w with openFds := w.openFds.erase fd, closed := w.closed ++ [fd] })
  | .loadCount => (some w.config.interfaceCount, w)
  | .storeCount n => (some (), { w with config := { w.config with interfaceCount := n } })
  | .loadPort => (some w.config.port, w)
  | .loadSocketFd i =>
      if i < udpBroadcastMaxInterfaces then (some (w.config.interfaces i).socketFd, w) else (none, w)
  | .storeSocketFd i fd => w.modify i fun slot => { slot with socketFd := fd }
  | .storeDestAddr i addr => w.modify i fun slot => { slot with destAddr := addr }
  | .storeName i name => w.modify i fun slot => { slot with interfaceName := name }
  | .clearRingBuffer => (some (), { w with config := { w.config with ringBuffer := false } })

/-- The tests that an address has to pass, and its broadcast address. -/
def IfAddr.eligible (specificInterface : Option (List UInt8)) (ifa : IfAddr) : Option SockaddrIn :=
  if ifa.family = some afInet ∧ ifa.flags &&& 0x1 ≠ 0 ∧ ifa.flags &&& 0x2 ≠ 0 ∧
      ifa.flags &&& 0x8 = 0 ∧ ∀ name ∈ specificInterface, name = ifa.name then
    ifa.broadaddr
  else none

/-- The eligible addresses, as they should appear in the array. -/
def candidates (specificInterface : Option (List UInt8)) (port : UInt32) (ifas : List IfAddr) :
    List (List UInt8 × SockaddrIn) :=
  ifas.filterMap fun ifa => (ifa.eligible specificInterface).map fun addr =>
    (ifa.name.take 15, { addr with sinPort := htons port.toUInt16 })

/-- An attempt to create a socket succeeds. -/
def Host.served (host : Host) (attempt : Nat) : Bool :=
  host.socketOk attempt && host.optionOk attempt

/-- The candidates that get a socket, the first of them with this attempt. -/
def Host.serve (host : Host) {α : Type} (attempt : Nat) : List α → List α
  | [] => []
  | c :: cs =>
      if host.served attempt then c :: host.serve (attempt + 1) cs else host.serve (attempt + 1) cs

/-- Whenever one of these candidates comes, fewer than 16 interfaces have been configured. -/
def RoomForAll {α : Type} (host : Host) (configured attempt : Nat) (cs : List α) : Prop :=
  ∀ k, k < cs.length →
    configured + (host.serve attempt (cs.take k)).length < udpBroadcastMaxInterfaces

section Room

variable {α : Type} {host : Host} {n attempt : Nat} {c : α} {cs : List α}

theorem roomForAll_cons : RoomForAll host n attempt (c :: cs) ↔ n < udpBroadcastMaxInterfaces ∧
    RoomForAll host (if host.served attempt then n + 1 else n) (attempt + 1) cs := by
  have hshift : ∀ k, n + (host.serve attempt ((c :: cs).take (k + 1))).length =
      (if host.served attempt then n + 1 else n) +
        (host.serve (attempt + 1) (cs.take k)).length := by
    intro k
    rw [List.take_succ_cons, Host.serve]
    split
    · rw [List.length_cons]
      omega
    · rfl
  constructor
  · intro h
    refine ⟨h 0 (Nat.succ_pos _), ?_⟩
    intro k hk
    rw [← hshift k]
    exact h (k + 1) (Nat.succ_lt_succ hk)
  · rintro ⟨hfirst, hrest⟩ k hk
    cases k with
    | zero => exact hfirst
    | succ k =>
        rw [hshift k]
        exact hrest k (Nat.lt_of_succ_lt_succ hk)

theorem RoomForAll.serve_length (h : RoomForAll host n attempt cs)
    (hn : n ≤ udpBroadcastMaxInterfaces) :
    n + (host.serve attempt cs).length ≤ udpBroadcastMaxInterfaces := by
  induction cs generalizing n attempt with
  | nil => exact hn
  | cons c cs ih =>
      obtain ⟨hfirst, hrest⟩ := roomForAll_cons.mp h
      rw [Host.serve]
      split at hrest
      · next hserved =>
          have hall := ih hrest hfirst
          rw [if_pos hserved, List.length_cons]
          omega
      · next hfailed =>
          rw [if_neg hfailed]
          exact ih hrest hn

end Room

/-- The slots hold these entries, whose sockets have been opened since the start. -/
structure Gathered (start : NetWorld) (entries : List UdpInterface) (attempt : Nat) (w : NetWorld) :
    Prop where
  count : w.config.interfaceCount = entries.length
  slots : ∀ i entry, entries[i]? = some entry → w.config.interfaces i = entry
  attempts : w.attempts = attempt
  port : w.config.port = start.config.port
  distinct : (entries.map UdpInterface.socketFd).Nodup
  new : ∀ entry ∈ entries, entry.socketFd ∉ start.openFds ∧ 0 ≤ entry.socketFd
  opened : ∀ fd, fd ∈ w.openFds ↔ fd ∈ start.openFds ∨ ∃ entry ∈ entries, entry.socketFd = fd

section Execution

variable {host : Host} {specificInterface : Option (List UInt8)} {start w : NetWorld}
  {entries : List UdpInterface} {attempt : Nat}

theorem exec_createSocket_served (h : host.served w.attempts = true) :
    udpBroadcastCreateSocket.exec (NetWorld.handle host) w =
      (some (host.descriptor w.openFds), w.withSocket host) := by
  rw [Host.served, Bool.and_eq_true] at h
  have hsocket : NetWorld.handle host .socket w =
    (some (host.descriptor w.openFds), w.withSocket host) := if_pos h.1
  have hoption : NetWorld.handle host (.setsockopt (host.descriptor w.openFds)) (w.withSocket host) =
      (some 0, w.withSocket host) := by
    simp [NetWorld.handle, NetWorld.withSocket, h.2]
  rw [udpBroadcastCreateSocket, call_bind, exec_call_some hsocket, ret_bind,
    if_neg (Int.not_lt.mpr (host.descriptor_nonneg w.openFds)), call_bind, exec_call_some hoption,
    ret_bind, if_neg (Int.lt_irrefl 0)]
  rfl

theorem exec_createSocket_failed (h : host.served w.attempts = false) :
    ∃ closed, udpBroadcastCreateSocket.exec (NetWorld.handle host) w =
      (some (-1), { w with attempts := w.attempts + 1, closed := closed }) := by
  by_cases hsocketOk : host.socketOk w.attempts = true
  · have hsocket : NetWorld.handle host .socket w =
      (some (host.descriptor w.openFds), w.withSocket host) := if_pos hsocketOk
    have hoption : NetWorld.handle host (.setsockopt (host.descriptor w.openFds))
        (w.withSocket host) = (some (-1), w.withSocket host) := by
      rw [Host.served, hsocketOk, Bool.true_and] at h
      simp [NetWorld.handle, NetWorld.withSocket, h]
    have hclose : NetWorld.handle host (.close (host.descriptor w.openFds)) (w.withSocket host) =
        (some (), { w with
          attempts := w.attempts + 1
          closed := w.closed ++ [host.descriptor w.openFds] }) := by
      simp [NetWorld.handle, NetWorld.withSocket,
        Finset.erase_insert (host.descriptor_unused w.openFds)]
    refine ⟨w.closed ++ [host.descriptor w.openFds], ?_⟩
    rw [udpBroadcastCreateSocket, call_bind, exec_call_some hsocket, ret_bind,
      if_neg (Int.not_lt.mpr (host.descriptor_nonneg w.openFds)), call_bind, exec_call_some hoption,
      ret_bind, if_pos (show (-1 : Int) < 0 by decide), call_bind, exec_call_some hclose]
    rfl
  · have hsocket : NetWorld.handle host .socket w =
      (some (-1), { w with attempts := w.attempts + 1 }) := if_neg hsocketOk
    refine ⟨w.closed, ?_⟩
    rw [udpBroadcastCreateSocket, call_bind, exec_call_some hsocket, ret_bind,
      if_pos (show (-1 : Int) < 0 by decide)]
    rfl

theorem update_slots {i : Nat} {slots : Nat → UdpInterface} {slot : UdpInterface}
    (h : ∀ j entry, entries[j]? = some entry → slots j = entry) (hi : entries.length ≤ i) :
    ∀ j entry, entries[j]? = some entry → Function.update slots i slot j = entry := by
  intro j entry hentry
  obtain ⟨hj, -⟩ := List.getElem?_eq_some_iff.mp hentry
  rw [Function.update_of_ne (by omega)]
  exact h j entry hentry

theorem exec_configureInterface_full (h : Gathered start entries attempt w)
    (hfull : udpBroadcastMaxInterfaces ≤ entries.length) (name : List UInt8) (addr : SockaddrIn) :
    ((configureInterface name addr).exec (NetWorld.handle host) w).1 = none := by
  have hcount : NetWorld.handle host .loadCount w = (some entries.length, w) := by
    rw [← h.count]
    rfl
  have hstore : ∀ fd w', NetWorld.handle host (.storeSocketFd entries.length fd) w' = (none, w') :=
    fun fd w' => if_neg (Nat.not_lt.mpr hfull)
  rw [configureInterface, call_bind, exec_call_some hcount, ret_bind]
  by_cases hserved : host.served w.attempts = true
  · rw [exec_bind_some (exec_createSocket_served hserved), call_bind, exec_call_none (hstore _ _)]
  · obtain ⟨closed, hfailed⟩ := exec_createSocket_failed (Bool.not_eq_true _ ▸ hserved)
    rw [exec_bind_some hfailed, call_bind, exec_call_none (hstore _ _)]

theorem NetWorld.withSlot_withSlot (w : NetWorld) (i : Nat) (slot slot' : UdpInterface) :
    (w.withSlot i slot).withSlot i slot' = w.withSlot i slot' := by
  simp [NetWorld.withSlot]

@[simp] theorem NetWorld.withSlot_interfaces (w : NetWorld) (i : Nat) (slot : UdpInterface) :
    (w.withSlot i slot).config.interfaces i = slot := by
  simp [NetWorld.withSlot]

theorem exec_configureInterface_failed (h : Gathered start entries attempt w)
    (hroom : entries.length < udpBroadcastMaxInterfaces) (hfailed : host.served attempt = false)
    (name : List UInt8) (addr : SockaddrIn) :
    ∃ w', (configureInterface name addr).exec (NetWorld.handle host) w = (some (), w') ∧
      Gathered start entries (attempt + 1) w' := by
  have hcount : NetWorld.handle host .loadCount w = (some entries.length, w) := by
    rw [← h.count]
    rfl
  rw [← h.attempts] at hfailed
  obtain ⟨closed, hcreate⟩ := exec_createSocket_failed hfailed
  let w₁ : NetWorld := { w with attempts := w.attempts + 1, closed := closed }
  let w₂ := w₁.withSlot entries.length { w₁.config.interfaces entries.length with socketFd := -1 }
  have hstore : NetWorld.handle host (.storeSocketFd entries.length (-1)) w₁ = (some (), w₂) :=
    if_pos hroom
  have hload : NetWorld.handle host (.loadSocketFd entries.length) w₂ = (some (-1), w₂) := by
    simp [NetWorld.handle, hroom, w₂]
  refine ⟨w₂, ?_, ?_⟩
  · rw [configureInterface, call_bind, exec_call_some hcount, ret_bind, exec_bind_some hcreate,
      call_bind, exec_call_some hstore, ret_bind, call_bind, exec_call_some hload, ret_bind,
      if_pos (show (-1 : Int) < 0 by decide)]
    rfl
  · exact ⟨h.count, update_slots h.slots (Nat.le_refl _), congrArg (· + 1) h.attempts, h.port,
      h.distinct, h.new, h.opened⟩

/-- A new entry behind the others, with a descriptor that was not open. -/
theorem Gathered.append (h : Gathered start entries attempt w) {w' : NetWorld} {entry : UdpInterface}
    (hunused : entry.socketFd ∉ w.openFds) (hnonneg : 0 ≤ entry.socketFd)
    (hcount : w'.config.interfaceCount = entries.length + 1)
    (hslots : w'.config.interfaces = Function.update w.config.interfaces entries.length entry)
    (hattempts : w'.attempts = attempt + 1) (hport : w'.config.port = w.config.port)
    (hopened : w'.openFds = insert entry.socketFd w.openFds) :
    Gathered start (entries ++ [entry]) (attempt + 1) w' := by
  rw [h.opened, not_or] at hunused
  constructor
  · rw [hcount, List.length_append, List.length_singleton]
  · intro i e he
    rw [hslots]
    rw [List.getElem?_append] at he
    split at he
    · exact update_slots h.slots (Nat.le_refl _) i e he
    · next hi =>
        obtain ⟨hi', rfl⟩ := List.getElem?_eq_some_iff.mp he
        rw [List.length_singleton] at hi'
        obtain rfl : i = entries.length := by omega
        simp
  · exact hattempts
  · exact hport.trans h.port
  · rw [List.map_append, List.map_singleton, List.nodup_append]
    refine ⟨h.distinct, List.nodup_singleton _, ?_⟩
    intro fd hfd fd' hfd' heq
    obtain ⟨e, he, rfl⟩ := List.mem_map.mp hfd
    exact hunused.2 ⟨e, he, heq.trans (List.mem_singleton.mp hfd')⟩
  · intro e he
    rcases List.mem_append.mp he with hold | hnew
    · exact h.new e hold
    · rw [List.mem_singleton.mp hnew]
      exact ⟨hunused.1, hnonneg⟩
  · intro fd
    rw [hopened, Finset.mem_insert, h.opened]
    simp only [List.mem_append, List.mem_singleton, or_and_right, exists_or, exists_eq_left]
    constructor
    · rintro (rfl | hstart | hentry)
      · exact Or.inr (Or.inr rfl)
      · exact Or.inl hstart
      · exact Or.inr (Or.inl hentry)
    · rintro (hstart | hentry | rfl)
      · exact Or.inr (Or.inl hstart)
      · exact Or.inr (Or.inr hentry)
      · exact Or.inl rfl

theorem exec_configureInterface_served (h : Gathered start entries attempt w)
    (hroom : entries.length < udpBroadcastMaxInterfaces) (hserved : host.served attempt = true)
    (name : List UInt8) (addr : SockaddrIn) :
    ∃ entry w', (configureInterface name addr).exec (NetWorld.handle host) w = (some (), w') ∧
      Gathered start (entries ++ [entry]) (attempt + 1) w' ∧
      (entry.interfaceName, entry.destAddr) =
        (name.take 15, { addr with sinPort := htons start.config.port.toUInt16 }) := by
  have hcount : NetWorld.handle host .loadCount w = (some entries.length, w) := by
    rw [← h.count]
    rfl
  rw [← h.attempts] at hserved
  have hcreate := exec_createSocket_served hserved
  have hunused := host.descriptor_unused w.openFds
  have hnonneg := host.descriptor_nonneg w.openFds
  generalize hfd : host.descriptor w.openFds = fd at hcreate hunused hnonneg
  let destAddr : SockaddrIn := { addr with sinPort := htons start.config.port.toUInt16 }
  let entry : UdpInterface := ⟨destAddr, fd, name.take 15⟩
  let w₁ := w.withSocket host
  let slot := w₁.config.interfaces entries.length
  let w₂ := w₁.withSlot entries.length { slot with socketFd := fd }
  let w₃ := w₁.withSlot entries.length { slot with socketFd := fd, destAddr := destAddr }
  let w₄ := w₁.withSlot entries.length entry
  have hstore : NetWorld.handle host (.storeSocketFd entries.length fd) w₁ = (some (), w₂) :=
    if_pos hroom
  have hload : NetWorld.handle host (.loadSocketFd entries.length) w₂ = (some fd, w₂) := by
    simp [NetWorld.handle, hroom, w₂]
  have hport : NetWorld.handle host .loadPort w₂ = (some start.config.port, w₂) := by
    rw [← h.port]
    rfl
  have hdest : NetWorld.handle host (.storeDestAddr entries.length destAddr) w₂ = (some (), w₃) := by
    simp [NetWorld.handle, NetWorld.modify, hroom, w₂, w₃, NetWorld.withSlot_withSlot]
  have hname : NetWorld.handle host (.storeName entries.length (name.take (16 - 1))) w₃ =
      (some (), w₄) := by
    simp [NetWorld.handle, NetWorld.modify, hroom, w₃, w₄, entry, NetWorld.withSlot_withSlot]
  refine ⟨entry, { w₄ with config := { w₄.config with interfaceCount := entries.length + 1 } },
    ?_, ?_, rfl⟩
  · rw [configureInterface, call_bind, exec_call_some hcount, ret_bind, exec_bind_some hcreate,
      call_bind, exec_call_some hstore, ret_bind, call_bind, exec_call_some hload, ret_bind,
      if_neg (Int.not_lt.mpr hnonneg), call_bind, exec_call_some hport, ret_bind, call_bind,
      exec_call_some hdest, ret_bind, call_bind, exec_call_some hname, ret_bind]
    rfl
  · refine h.append hunused hnonneg rfl rfl (congrArg (· + 1) h.attempts) rfl ?_
    exact congrArg (insert · w.openFds) hfd

theorem any_ne_name {name : List UInt8} :
    specificInterface.any (· ≠ name) = true ↔ ¬ ∀ other ∈ specificInterface, other = name := by
  cases specificInterface with
  | none => simp
  | some other => simp

theorem gatherInterface_eq (ifa : IfAddr) :
    gatherInterface specificInterface ifa =
      match ifa.eligible specificInterface with
      | none => return
      | some addr => configureInterface ifa.name addr := by
  obtain ⟨family, flags, name, broadaddr⟩ := ifa
  unfold gatherInterface IfAddr.eligible
  cases family with
  | none => rfl
  | some family =>
      dsimp only
      simp only [any_ne_name, Option.some.injEq]
      by_cases hfamily : family = afInet
      · by_cases hbroadcast : flags &&& 0x2 = 0
        · simp [hfamily, hbroadcast]
        · by_cases hup : flags &&& 0x1 = 0
          · simp [hfamily, hbroadcast, hup]
          · by_cases hloopback : flags &&& 0x8 = 0
            · by_cases hname : ∀ other ∈ specificInterface, other = name
              · rw [if_pos hfamily, if_neg hbroadcast, if_neg hup, if_neg (not_not.mpr hloopback),
                  if_neg (not_not.mpr hname), if_pos ⟨hfamily, hup, hbroadcast, hloopback, hname⟩]
              · rw [if_pos hfamily, if_neg hbroadcast, if_neg hup, if_neg (not_not.mpr hloopback),
                  if_pos hname, if_neg fun h => hname h.2.2.2.2]
            · simp [hfamily, hbroadcast, hup, hloopback]
      · simp [hfamily]

variable (host) in
/-- The loop: as long as there is room, every candidate that gets a socket gets an entry. -/
theorem exec_gatherInterfaces (h : Gathered start entries attempt w) (ifas : List IfAddr) :
    let cs := candidates specificInterface start.config.port ifas
    (RoomForAll host entries.length attempt cs →
      ∃ more w', (gatherInterfaces specificInterface ifas).exec (NetWorld.handle host) w =
          (some (), w') ∧ Gathered start (entries ++ more) (attempt + cs.length) w' ∧
        more.map (fun entry => (entry.interfaceName, entry.destAddr)) = host.serve attempt cs) ∧
    (¬ RoomForAll host entries.length attempt cs →
      ((gatherInterfaces specificInterface ifas).exec (NetWorld.handle host) w).1 = none) := by
  induction ifas generalizing w entries attempt with
  | nil =>
      constructor
      · intro _
        refine ⟨[], w, rfl, ?_, rfl⟩
        rw [List.append_nil]
        exact h
      · exact fun hroom => absurd (fun k hk => absurd hk (Nat.not_lt_zero k)) hroom
  | cons ifa ifas ih =>
      dsimp only at ih ⊢
      rw [gatherInterfaces, gatherInterface_eq]
      unfold candidates
      rw [List.filterMap_cons]
      cases ifa.eligible specificInterface with
      | none => exact ih h
      | some addr =>
          dsimp only [Option.map_some]
          rw [roomForAll_cons]
          by_cases hroom : entries.length < udpBroadcastMaxInterfaces
          · by_cases hserved : host.served attempt = true
            · obtain ⟨entry, w₁, hexec, hgathered, hentry⟩ :=
                exec_configureInterface_served h hroom hserved ifa.name addr
              have hrest := ih hgathered
              rw [List.length_append, List.length_singleton] at hrest
              rw [Host.serve, if_pos hserved, if_pos hserved, exec_bind_some hexec]
              constructor
              · rintro ⟨-, hroomRest⟩
                obtain ⟨more, w₂, hexec₂, hgathered₂, hmore⟩ := hrest.1 hroomRest
                refine ⟨entry :: more, w₂, hexec₂, ?_, ?_⟩
                · rw [List.append_cons, List.length_cons, Nat.add_comm _ 1, ← Nat.add_assoc]
                  exact hgathered₂
                · rw [List.map_cons, hentry]
                  exact congrArg _ hmore
              · exact fun hnot => hrest.2 fun hroomRest => hnot ⟨hroom, hroomRest⟩
            · have hfailed : host.served attempt = false := Bool.eq_false_iff.mpr hserved
              obtain ⟨w₁, hexec, hgathered⟩ :=
                exec_configureInterface_failed h hroom hfailed ifa.name addr
              have hrest := ih hgathered
              rw [Host.serve, if_neg hserved, if_neg hserved, exec_bind_some hexec]
              constructor
              · rintro ⟨-, hroomRest⟩
                obtain ⟨more, w₂, hexec₂, hgathered₂, hmore⟩ := hrest.1 hroomRest
                refine ⟨more, w₂, hexec₂, ?_, hmore⟩
                rw [List.length_cons, Nat.add_comm _ 1, ← Nat.add_assoc]
                exact hgathered₂
              · exact fun hnot => hrest.2 fun hroomRest => hnot ⟨hroom, hroomRest⟩
          · constructor
            · exact fun hall => absurd hall.1 hroom
            · intro _
              have hstuck : ((configureInterface ifa.name addr).exec (NetWorld.handle host) w).1 = none :=
                exec_configureInterface_full h (Nat.not_lt.mp hroom) ifa.name addr
              rw [exec_bind_none (Prod.ext hstuck rfl)]

theorem Gathered.configured (h : Gathered start entries attempt w) :
    w.config.configured = entries := by
  apply List.ext_getElem?
  intro i
  rw [UdpBroadcastConfig.configured, h.count, List.getElem?_map]
  by_cases hi : i < entries.length
  · rw [List.getElem?_range hi, List.getElem?_eq_getElem hi]
    exact congrArg some (h.slots i _ (List.getElem?_eq_getElem hi))
  · rw [List.getElem?_eq_none (by rw [List.length_range]; omega),
      List.getElem?_eq_none (Nat.not_lt.mp hi)]
    rfl

variable (host) in
/-- The descriptors of the first entries are closed, in order. -/
theorem exec_closeInterfaces (hslots : ∀ i entry, entries[i]? = some entry →
      w.config.interfaces i = entry) (hnonneg : ∀ entry ∈ entries, 0 ≤ entry.socketFd)
    (hbound : entries.length ≤ udpBroadcastMaxInterfaces) {n : Nat} (hn : n ≤ entries.length) :
    ∃ w', (closeInterfaces n).exec (NetWorld.handle host) w = (some (), w') ∧
      w'.closed = w.closed ++ (entries.take n).map UdpInterface.socketFd ∧
      (∀ fd, fd ∈ w'.openFds ↔ fd ∈ w.openFds ∧ ∀ entry ∈ entries.take n, entry.socketFd ≠ fd) ∧
      ∀ i, n ≤ i → w'.config.interfaces i = w.config.interfaces i := by
  induction n with
  | zero =>
      refine ⟨w, rfl, (List.append_nil _).symm, ?_, fun _ _ => rfl⟩
      simp
  | succ n ih =>
      obtain ⟨w₁, hexec, hclosed, hopened, hlater⟩ := ih (Nat.le_of_succ_le hn)
      have hentry : entries[n]? = some entries[n] := List.getElem?_eq_getElem hn
      have hload : NetWorld.handle host (.loadSocketFd n) w₁ = (some entries[n].socketFd, w₁) := by
        have hroom : n < udpBroadcastMaxInterfaces := by omega
        simp only [NetWorld.handle, if_pos hroom, hlater n (Nat.le_refl n), hslots n _ hentry]
      let w₂ : NetWorld := { w₁ with
        openFds := w₁.openFds.erase entries[n].socketFd
        closed := w₁.closed ++ [entries[n].socketFd] }
      have hclose : NetWorld.handle host (.close entries[n].socketFd) w₁ = (some (), w₂) := rfl
      have hstore : NetWorld.handle host (.storeSocketFd n (-1)) w₂ =
        (some (), w₂.withSlot n { w₂.config.interfaces n with socketFd := -1 }) := if_pos (by omega)
      have htake : entries.take (n + 1) = entries.take n ++ [entries[n]] := by
        rw [List.take_add_one, hentry]
        rfl
      refine ⟨w₂.withSlot n { w₂.config.interfaces n with socketFd := -1 }, ?_, ?_, ?_, ?_⟩
      · rw [closeInterfaces, exec_bind_some hexec, call_bind, exec_call_some hload, ret_bind,
          if_pos (hnonneg _ (List.getElem_mem hn)), call_bind, exec_call_some hclose, ret_bind]
        exact exec_call_some hstore
      · rw [htake, List.map_append, ← List.append_assoc, ← hclosed]
        rfl
      · intro fd
        have herase : fd ∈ w₂.openFds ↔ fd ≠ entries[n].socketFd ∧ fd ∈ w₁.openFds :=
          Finset.mem_erase
        rw [htake]
        change fd ∈ w₂.openFds ↔ _
        rw [herase, hopened]
        simp only [List.mem_append, List.mem_singleton, or_imp, forall_and, forall_eq]
        constructor
        · rintro ⟨hne, hstart, hfirst⟩
          exact ⟨hstart, hfirst, hne.symm⟩
        · rintro ⟨hstart, hfirst, hne⟩
          exact ⟨Ne.symm hne, hstart, hfirst⟩
      · intro i hi
        have hother : (w₂.withSlot n { w₂.config.interfaces n with socketFd := -1 }).config.interfaces i =
            w₁.config.interfaces i := Function.update_of_ne (by omega) _ _
        rw [hother]
        exact hlater i (by omega)

theorem gathered_start (w : NetWorld) : Gathered w [] w.attempts
    { w with config := { w.config with interfaceCount := 0 } } := by
  constructor
  · rfl
  · exact nofun
  · rfl
  · rfl
  · exact List.nodup_nil
  · exact nofun
  · simp

/-- The function around the loop. -/
theorem exec_gather (host : Host) (specificInterface : Option (List UInt8)) (w : NetWorld) :
    let cs := candidates specificInterface w.config.port (host.addresses.getD [])
    (RoomForAll host 0 w.attempts cs →
      ∃ r entries attempt w', (udpBroadcastGatherInterfaces specificInterface).exec
          (NetWorld.handle host) w = (some r, w') ∧ Gathered w entries attempt w' ∧
        entries.map (fun entry => (entry.interfaceName, entry.destAddr)) =
          host.serve w.attempts cs) ∧
    (¬ RoomForAll host 0 w.attempts cs →
      ((udpBroadcastGatherInterfaces specificInterface).exec (NetWorld.handle host) w).1 = none) := by
  let w₀ : NetWorld := { w with config := { w.config with interfaceCount := 0 } }
  have hstart : Gathered w [] w.attempts w₀ := gathered_start w
  have hclear : NetWorld.handle host (.storeCount 0) w = (some (), w₀) := rfl
  have haddresses : NetWorld.handle host .getifaddrs w₀ = (some host.addresses, w₀) := rfl
  rw [udpBroadcastGatherInterfaces, call_bind, exec_call_some hclear, ret_bind, call_bind,
    exec_call_some haddresses, ret_bind]
  cases host.addresses with
  | none =>
      refine ⟨fun _ => ⟨-1, [], w.attempts, w₀, rfl, hstart, rfl⟩, ?_⟩
      exact fun hroom => absurd (fun k hk => absurd hk (Nat.not_lt_zero k)) hroom
  | some ifaddrs =>
      obtain ⟨hroomy, hfull⟩ := exec_gatherInterfaces host hstart ifaddrs
      dsimp only [Option.getD_some]
      constructor
      · intro hroom
        obtain ⟨entries, w₁, hloop, hgathered, hentries⟩ := hroomy hroom
        have hcount : NetWorld.handle host .loadCount w₁ = (some w₁.config.interfaceCount, w₁) := rfl
        rw [exec_bind_some hloop, call_bind, exec_call_some hcount, ret_bind]
        split_ifs with hnamed hnone
        · exact ⟨-1, entries, _, w₁, rfl, hgathered, hentries⟩
        · exact ⟨-1, entries, _, w₁, rfl, hgathered, hentries⟩
        · exact ⟨0, entries, _, w₁, rfl, hgathered, hentries⟩
      · intro hroom
        rw [exec_bind_none (Prod.ext (hfull hroom) rfl)]

variable (host) in
theorem exec_shutdown (h : Gathered start entries attempt w)
    (hbound : entries.length ≤ udpBroadcastMaxInterfaces) :
    ∃ w', udpBroadcastShutdown.exec (NetWorld.handle host) w = (some (), w') ∧
      w'.closed = w.closed ++ entries.map UdpInterface.socketFd ∧ w'.openFds = start.openFds := by
  have hcount : NetWorld.handle host .loadCount w = (some entries.length, w) := by
    rw [← h.count]
    rfl
  obtain ⟨w₁, hexec, hclosed, hopened, -⟩ := exec_closeInterfaces host h.slots
    (fun entry hentry => (h.new entry hentry).2) hbound (Nat.le_refl _)
  rw [List.take_length] at hclosed hopened
  let w₂ : NetWorld := { w₁ with config := { w₁.config with interfaceCount := 0 } }
  let w₃ : NetWorld := { w₂ with config := { w₂.config with ringBuffer := false } }
  have hclear : NetWorld.handle host (.storeCount 0) w₁ = (some (), w₂) := rfl
  refine ⟨w₃, ?_, hclosed, ?_⟩
  · rw [udpBroadcastShutdown, call_bind, exec_call_some hcount, ret_bind, exec_bind_some hexec,
      call_bind, exec_call_some hclear, ret_bind]
    rfl
  · ext fd
    change fd ∈ w₁.openFds ↔ _
    rw [hopened, h.opened]
    constructor
    · rintro ⟨hstart | ⟨entry, hentry, heq⟩, hother⟩
      · exact hstart
      · exact absurd heq (hother entry hentry)
    · intro hstart
      refine ⟨Or.inl hstart, ?_⟩
      rintro entry hentry rfl
      exact (h.new entry hentry).1 hstart

end Execution

/-- What the walk should leave, and what the shutdown then does. -/
structure Configures (host : Host) (specificInterface : Option (List UInt8)) (w w₁ w₂ : NetWorld) :
    Prop where
  count : w₁.config.interfaceCount ≤ udpBroadcastMaxInterfaces
  entries : w₁.config.configured.map (fun entry => (entry.interfaceName, entry.destAddr)) =
    (host.serve w.attempts (candidates specificInterface w.config.port
      (host.addresses.getD []))).take udpBroadcastMaxInterfaces
  distinct : (w₁.config.configured.map UdpInterface.socketFd).Nodup
  opened : ∀ fd, fd ∈ w₁.openFds ↔ fd ∈ w.openFds ∨ fd ∈ w₁.config.configured.map UdpInterface.socketFd
  new : ∀ fd ∈ w₁.config.configured.map UdpInterface.socketFd, fd ∉ w.openFds
  closed : w₂.closed = w₁.closed ++ w₁.config.configured.map UdpInterface.socketFd
  restored : w₂.openFds = w.openFds

/-- Both functions come to their end, without a store outside the array, and leave what they
should. -/
def GathersInterfaces (host : Host) (specificInterface : Option (List UInt8)) (w : NetWorld) : Prop :=
  ∃ r w₁ w₂, (udpBroadcastGatherInterfaces specificInterface).exec (NetWorld.handle host) w =
      (some r, w₁) ∧
    udpBroadcastShutdown.exec (NetWorld.handle host) w₁ = (some (), w₂) ∧
    Configures host specificInterface w w₁ w₂

theorem udpBroadcastGatherInterfaces_bounded_iff (host : Host)
    (specificInterface : Option (List UInt8)) (w : NetWorld) :
    GathersInterfaces host specificInterface w ↔
      RoomForAll host 0 w.attempts
        (candidates specificInterface w.config.port (host.addresses.getD [])) := by
  obtain ⟨hroomy, hfull⟩ := exec_gather host specificInterface w
  constructor
  · rintro ⟨r, w₁, w₂, hgather, -⟩
    by_contra hroom
    have hnone := hfull hroom
    rw [hgather] at hnone
    cases hnone
  · intro hroom
    obtain ⟨r, entries, attempt, w₁, hgather, hgathered, hentries⟩ := hroomy hroom
    have hbound : entries.length ≤ udpBroadcastMaxInterfaces := by
      have hlength := congrArg List.length hentries
      have hserve := hroom.serve_length (Nat.zero_le _)
      rw [List.length_map] at hlength
      omega
    obtain ⟨w₂, hshutdown, hclosed, hrestored⟩ := exec_shutdown host hgathered hbound
    have hconfigured := hgathered.configured
    refine ⟨r, w₁, w₂, hgather, hshutdown, ?_⟩
    constructor
    · exact hgathered.count.trans_le hbound
    · rw [hconfigured, ← hentries, List.take_of_length_le]
      rwa [List.length_map]
    · rw [hconfigured]
      exact hgathered.distinct
    · intro fd
      rw [hconfigured, List.mem_map]
      exact hgathered.opened fd
    · intro fd hfd
      rw [hconfigured] at hfd
      obtain ⟨entry, hentry, rfl⟩ := List.mem_map.mp hfd
      exact (hgathered.new entry hentry).1
    · rw [hconfigured]
      exact hclosed
    · exact hrestored

/-- A host on which all sockets are created, with the number above those in use. -/
def generousHost (ifas : List IfAddr) : Host where
  addresses := some ifas
  socketOk _ := true
  optionOk _ := true
  descriptor s := (s.sup Int.natAbs : Nat) + 1
  descriptor_unused s := by
    intro hmem
    have hle : Int.natAbs ((s.sup Int.natAbs : Nat) + 1) ≤ s.sup Int.natAbs :=
      Finset.le_sup (f := Int.natAbs) hmem
    omega
  descriptor_nonneg s := by omega

/-- The seventeenth suitable address is stored behind the array. -/
theorem gatherInterfaces_seventeen :
    let ifas : List IfAddr := List.replicate 17 ⟨some 2, 3, [101], some ⟨2, 0, 0⟩⟩
    let w : NetWorld := ⟨⟨fun _ => ⟨⟨0, 0, 0⟩, 0, []⟩, 0, 21789, true⟩, 0, ∅, []⟩
    (udpBroadcastGatherInterfaces none).stuckAt (NetWorld.handle (generousHost ifas)) w =
        some (.storeSocketFd 16 17) ∧
      ¬ GathersInterfaces (generousHost ifas) none w := by
  intro ifas w
  have hstuck : (udpBroadcastGatherInterfaces none).stuckAt (NetWorld.handle (generousHost ifas)) w =
      some (.storeSocketFd 16 17) := by decide
  have hnone : ((udpBroadcastGatherInterfaces none).exec
      (NetWorld.handle (generousHost ifas)) w).1 = none := by decide
  refine ⟨hstuck, ?_⟩
  rintro ⟨r, w₁, w₂, hgather, -⟩
  rw [hgather] at hnone
  cases hnone

end YaskawaComms.Logging
