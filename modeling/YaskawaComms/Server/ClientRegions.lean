import YaskawaComms.Framework.Completion
import YaskawaComms.Server.Histories

/-!
# The regions under the client lock

The regions between `lock_take` and `lock_give` on `client_mutex`, with every access to the client's
record, every callback and every platform function as a call of its own. Threads that go through
these regions, interleaved at each of these calls, do what they would do if each region were one
call of the server, as the rest of the development has it.
-/

namespace YaskawaComms.Server.Regions

open Program

/-- The stores to the fields of the client's record. -/
inductive ClientStore where
  | socket (value : Int)
  | addr (value : SockAddr)
  | lastCommand (value : Int)
  | connected (value : Bool)
  | peerIp (value : Option UInt32)
  | peerPort (value : UInt16)
  | registeredUdpPort (value : UInt16)
  | udpPortRegistered (value : Bool)
  deriving DecidableEq

def ClientStore.apply (client : ClientInfo) : ClientStore → ClientInfo
  | .socket value => { client with socket := value }
  | .addr value => { client with addr := value }
  | .lastCommand value => { client with lastCommand := value }
  | .connected value => { client with connected := value }
  | .peerIp value => { client with peerIp := value }
  | .peerPort value => { client with peerPort := value }
  | .registeredUdpPort value => { client with registeredUdpPort := value }
  | .udpPortRegistered value => { client with udpPortRegistered := value }

/-- A wait for the lock that is interrupted is left out. -/
inductive RegionCall where
  | lockTake
  | lockGive
  | loadConnected
  | loadSocket
  | loadLastCommand
  | loadPeerIp
  | loadPeerPort
  | store (field : ClientStore)
  | time
  | onConnection (ip : Option UInt32) (port : UInt16)
  | onDisconnection (ip : Option UInt32) (port : UInt16)
  | close (fd : Int)
  deriving DecidableEq

abbrev RegionCall.Result : RegionCall → Type
  | .loadConnected => Bool
  | .loadSocket | .loadLastCommand | .time => Int
  | .loadPeerIp => Option UInt32
  | .loadPeerPort => UInt16
  | .lockTake | .lockGive | .store _ | .onConnection _ _ | .onDisconnection _ _ | .close _ => Unit

abbrev regionSignature : Signature := ⟨RegionCall, RegionCall.Result⟩

abbrev RegionProgram := Program regionSignature

def lockTake : RegionProgram Unit := .call .lockTake .ret
def lockGive : RegionProgram Unit := .call .lockGive .ret
def loadConnected : RegionProgram Bool := .call .loadConnected .ret
def loadSocket : RegionProgram Int := .call .loadSocket .ret
def loadLastCommand : RegionProgram Int := .call .loadLastCommand .ret
def loadPeerIp : RegionProgram (Option UInt32) := .call .loadPeerIp .ret
def loadPeerPort : RegionProgram UInt16 := .call .loadPeerPort .ret
def store (field : ClientStore) : RegionProgram Unit := .call (.store field) .ret
def time : RegionProgram Int := .call .time .ret
def onConnection (ip : Option UInt32) (port : UInt16) : RegionProgram Unit :=
  .call (.onConnection ip port) .ret
def onDisconnection (ip : Option UInt32) (port : UInt16) : RegionProgram Unit :=
  .call (.onDisconnection ip port) .ret
def close (fd : Int) : RegionProgram Unit := .call (.close fd) .ret

/-- `memset` with zero, field by field. -/
def clear : RegionProgram Unit := do
  store (.socket 0)
  store (.addr ⟨0, 0⟩)
  store (.lastCommand 0)
  store (.connected false)
  store (.peerIp none)
  store (.peerPort 0)
  store (.registeredUdpPort 0)
  store (.udpPortRegistered false)

def addClient (cfg : ServerConfig) (socket : Int) (addr : SockAddr) : RegionProgram Int := do
  lockTake
  if ← loadConnected then
    lockGive
    return -1
  store (.socket socket)
  store (.addr addr)
  store (.lastCommand (← time))
  store (.connected true)
  store (.peerPort addr.port)
  store (.registeredUdpPort 0)
  store (.udpPortRegistered false)
  store (.peerIp (some addr.address))
  if cfg.onConnection then
    onConnection (← loadPeerIp) (← loadPeerPort)
  lockGive
  return 0

def removeClient (cfg : ServerConfig) : RegionProgram Unit := do
  lockTake
  if ← loadConnected then
    if cfg.onDisconnection then
      onDisconnection (← loadPeerIp) (← loadPeerPort)
    close (← loadSocket)
    store (.connected false)
    store (.udpPortRegistered false)
    clear
  lockGive

/-- The region of the UDP port registration in `tcp_thread_func`. -/
def registerUdpPort (port : UInt16) : RegionProgram Unit := do
  lockTake
  store (.registeredUdpPort port)
  store (.udpPortRegistered true)
  lockGive

/-- The region of `timeout_thread_func`. -/
def judgeIdle (cfg : ServerConfig) (now : Int) : RegionProgram Bool := do
  lockTake
  if ← loadConnected then
    if (cfg.connectionTimeoutMs.toNat : Int) < 1000 * (now - (← loadLastCommand)) then
      lockGive
      return true
    lockGive
    return false
  lockGive
  return false

/-- The region of `robot_protocol_stop`. -/
def stopClient : RegionProgram Unit := do
  lockTake
  if ← loadConnected then
    close (← loadSocket)
    store (.connected false)
    clear
  lockGive

/-- The state of the server, the lock, and the times that the clock is going to show. -/
structure Guarded where
  shared : Shared
  lock : Nat
  times : Nat → Nat

/-- The accepted connections are counted where a client is declared connected. -/
def ClientStore.counts : ClientStore → Nat
  | .connected true => 1
  | _ => 0

/-- Whoever takes the lock waits while it is taken. -/
def Guarded.perform (g : Guarded) : (c : RegionCall) → Option (c.Result × Guarded)
  | .lockTake => if g.lock = 0 then none else some ((), { g with lock := g.lock - 1 })
  | .lockGive => some ((), { g with lock := g.lock + 1 })
  | .loadConnected => some (g.shared.ctx.client.connected, g)
  | .loadSocket => some (g.shared.ctx.client.socket, g)
  | .loadLastCommand => some (g.shared.ctx.client.lastCommand, g)
  | .loadPeerIp => some (g.shared.ctx.client.peerIp, g)
  | .loadPeerPort => some (g.shared.ctx.client.peerPort, g)
  | .store field =>
      some ((), { g with
        shared :=
          { g.shared.setClient (field.apply g.shared.ctx.client) with
            generation := g.shared.generation + field.counts } })
  | .time =>
      some ((g.times 0 : Int) / 1000,
        { g with shared.clock := g.times 0, times := fun n => g.times (n + 1) })
  | .onConnection ip port => some ((), { g with shared := g.shared.record [.onConnection ip port] })
  | .onDisconnection ip port =>
      some ((), { g with shared := g.shared.record [.onDisconnection ip port] })
  | .close fd => some ((), { g with shared := g.shared.record [.closed fd] })

/-- One thread alone. -/
def Guarded.handle (c : RegionCall) (g : Guarded) : Option c.Result × Guarded :=
  match g.perform c with
  | some (r, g') => (some r, g')
  | none => (none, g)

def clientLock : LockUse regionSignature where
  acquires c _ := c = .lockTake
  releases c := c = .lockGive
  guarded c := c ≠ .lockTake ∧ c ≠ .lockGive

/-- The regions. -/
inductive Region where
  | addClient (socket : Int) (addr : SockAddr)
  | removeClient
  | registerUdpPort (port : UInt16)
  | judgeIdle (now : Int)
  | stopClient
  deriving DecidableEq

/-- The call that stands for a region where the server is a system of threads. -/
def Region.call : Region → ServerCall
  | .addClient socket addr => .addClient socket addr
  | .removeClient => .removeClient
  | .registerUdpPort port => .registerUdpPort port
  | .judgeIdle now => .judgeIdle now
  | .stopClient => .stopClient

def Region.code (cfg : ServerConfig) : Region → RegionProgram Called
  | .addClient socket addr => do
      return ⟨.addClient socket addr, ← Regions.addClient cfg socket addr⟩
  | .removeClient => do
      return ⟨.removeClient, ← Regions.removeClient cfg⟩
  | .registerUdpPort port => do
      return ⟨.registerUdpPort port, ← Regions.registerUdpPort port⟩
  | .judgeIdle now => do
      return ⟨.judgeIdle now, ← Regions.judgeIdle cfg now⟩
  | .stopClient => do
      return ⟨.stopClient, ← Regions.stopClient⟩

section OneSection

theorem section_access {α : Type} {post : α → Phase → Prop} {c : RegionCall}
    {next : c.Result → RegionProgram α} (htake : c ≠ .lockTake) (hgive : c ≠ .lockGive)
    (hnext : ∀ r, (next r).Obeys (sections clientLock (· = .lockTake)) post .inside) :
    (Program.call c next : RegionProgram α).Obeys (sections clientLock (· = .lockTake)) post .inside :=
  obeys_plain htake (decide_eq_false hgive) hnext

theorem section_lockGive {α : Type} {post : α → Phase → Prop} {f : Unit → RegionProgram α}
    (hnext : (f ()).Obeys (sections clientLock (· = .lockTake)) post .past) :
    (Program.call .lockGive f : RegionProgram α).Obeys (sections clientLock (· = .lockTake)) post
      .inside := by
  refine obeys_give ?_ rfl fun _ => hnext
  intro htake
  cases htake

theorem section_lockTake {α : Type} {post : α → Phase → Prop} {f : Unit → RegionProgram α}
    (hnext : (f ()).Obeys (sections clientLock (· = .lockTake)) post .inside) :
    (Program.call .lockTake f : RegionProgram α).Obeys (sections clientLock (· = .lockTake)) post
      .before := by
  refine obeys_take rfl rfl rfl (fun _ _ => hnext) ?_
  intro _ hfailed
  cases hfailed

theorem clear_inside {α : Type} {post : α → Phase → Prop} {f : Unit → RegionProgram α}
    (hnext : (f ()).Obeys (sections clientLock (· = .lockTake)) post .inside) :
    (clear >>= f).Obeys (sections clientLock (· = .lockTake)) post .inside := by
  simp only [clear, store, call_bind, ret_bind]
  iterate 8 refine section_access (by simp) (by simp) fun _ => ?_
  exact hnext

theorem addClient_section (cfg : ServerConfig) (socket : Int) (addr : SockAddr) :
    (addClient cfg socket addr).Obeys (sections clientLock (· = .lockTake))
      (fun _ phase => phase = .past) .before := by
  simp only [addClient, lockTake, lockGive, loadConnected, store, time, onConnection, loadPeerIp,
    loadPeerPort, call_bind, ret_bind, pure_eq_ret]
  apply section_lockTake
  repeat' first
    | apply section_lockGive
    | split
    | refine section_access (by simp) (by simp) fun _ => ?_
    | exact rfl

theorem removeClient_section (cfg : ServerConfig) :
    (removeClient cfg).Obeys (sections clientLock (· = .lockTake))
      (fun _ phase => phase = .past) .before := by
  simp only [removeClient, lockTake, lockGive, loadConnected, loadSocket, store, close, onDisconnection,
    loadPeerIp, loadPeerPort, call_bind, ret_bind]
  apply section_lockTake
  repeat' first
    | apply section_lockGive
    | refine clear_inside ?_
    | split
    | refine section_access (by simp) (by simp) fun _ => ?_
    | exact rfl

theorem registerUdpPort_section (port : UInt16) :
    (registerUdpPort port).Obeys (sections clientLock (· = .lockTake))
      (fun _ phase => phase = .past) .before := by
  simp only [registerUdpPort, lockTake, lockGive, store, call_bind, ret_bind]
  apply section_lockTake
  repeat' first
    | apply section_lockGive
    | split
    | refine section_access (by simp) (by simp) fun _ => ?_
    | exact rfl

theorem judgeIdle_section (cfg : ServerConfig) (now : Int) :
    (judgeIdle cfg now).Obeys (sections clientLock (· = .lockTake))
      (fun _ phase => phase = .past) .before := by
  simp only [judgeIdle, lockTake, lockGive, loadConnected, loadLastCommand, call_bind, ret_bind, pure_eq_ret]
  apply section_lockTake
  repeat' first
    | apply section_lockGive
    | split
    | refine section_access (by simp) (by simp) fun _ => ?_
    | exact rfl

theorem stopClient_section :
    (stopClient).Obeys (sections clientLock (· = .lockTake))
      (fun _ phase => phase = .past) .before := by
  simp only [stopClient, lockTake, lockGive, loadConnected, loadSocket, store, close, call_bind, ret_bind]
  apply section_lockTake
  repeat' first
    | apply section_lockGive
    | refine clear_inside ?_
    | split
    | refine section_access (by simp) (by simp) fun _ => ?_
    | exact rfl

theorem Region.code_oneSection (cfg : ServerConfig) (region : Region) :
    (region.code cfg).OneSection clientLock (· = .lockTake) := by
  have hends : ∀ (called : Called) (phase : Phase), phase = .past →
      (Program.ret called : RegionProgram Called).Remains clientLock (· = .lockTake) phase := by
    rintro called phase rfl
    exact Phase.noConfusion
  cases region with
  | addClient socket addr => exact (addClient_section cfg socket addr).bind fun _ => hends _
  | removeClient => exact (removeClient_section cfg).bind fun _ => hends _
  | registerUdpPort port => exact (registerUdpPort_section port).bind fun _ => hends _
  | judgeIdle now => exact (judgeIdle_section cfg now).bind fun _ => hends _
  | stopClient => exact stopClient_section.bind fun _ => hends _

end OneSection

section Exec

variable {cfg : ServerConfig} {s : Shared} {times : Nat → Nat}

theorem exec_clear {α : Type} {f : Unit → RegionProgram α} {g : Guarded} :
    (clear >>= f).exec Guarded.handle g =
      (f ()).exec Guarded.handle { g with shared := g.shared.setClient .cleared } := by
  simp [clear, store, exec, Guarded.handle, Guarded.perform, ClientStore.apply, ClientStore.counts,
    Shared.setClient, ClientInfo.cleared]

theorem exec_addClient_second (socket : Int) (addr : SockAddr) (h : s.ctx.client.connected = true) :
    (Regions.addClient cfg socket addr).exec Guarded.handle ⟨s, 1, times⟩ = (some (-1), ⟨s, 1, times⟩) := by
  simp [Regions.addClient, lockTake, lockGive, loadConnected, exec, Guarded.handle, Guarded.perform, h]

theorem exec_addClient_first (socket : Int) (addr : SockAddr) (h : s.ctx.client.connected = false) :
    (Regions.addClient cfg socket addr).exec Guarded.handle ⟨s, 1, times⟩ =
      (some 0, ⟨(({ s with clock := times 0 } : Shared).addClient cfg socket addr).2, 1,
        fun n => times (n + 1)⟩) := by
  cases hcallback : cfg.onConnection with
  | true =>
      simp [Regions.addClient, lockTake, lockGive, loadConnected, store, time, onConnection, loadPeerIp,
        loadPeerPort, exec, Guarded.handle, Guarded.perform, h, hcallback, ClientStore.apply,
        ClientStore.counts, Shared.addClient, Shared.setClient, Shared.record, Shared.time]
  | false =>
      simp [Regions.addClient, lockTake, lockGive, loadConnected, store, time, exec, Guarded.handle,
        Guarded.perform, h, hcallback, ClientStore.apply,
        ClientStore.counts, Shared.addClient, Shared.setClient, Shared.record, Shared.time]

theorem exec_removeClient :
    (Regions.removeClient cfg).exec Guarded.handle ⟨s, 1, times⟩ =
      (some (), ⟨s.removeClient cfg, 1, times⟩) := by
  cases h : s.ctx.client.connected with
  | false =>
      rw [Shared.removeClient_absent h]
      simp [Regions.removeClient, lockTake, lockGive, loadConnected, exec, Guarded.handle,
        Guarded.perform, h]
  | true =>
      cases hcallback : cfg.onDisconnection with
      | true =>
          simp [Regions.removeClient, lockTake, lockGive, loadConnected, loadSocket, store, close,
            onDisconnection, loadPeerIp, loadPeerPort, exec, exec_clear, Guarded.handle, Guarded.perform, h,
            hcallback, ClientStore.apply, ClientStore.counts, Shared.removeClient, Shared.setClient,
            Shared.record]
      | false =>
          simp [Regions.removeClient, lockTake, lockGive, loadConnected, loadSocket, store, close,
            exec, exec_clear, Guarded.handle, Guarded.perform, h,
            hcallback, ClientStore.apply, ClientStore.counts, Shared.removeClient, Shared.setClient,
            Shared.record]

theorem exec_registerUdpPort (port : UInt16) :
    (Regions.registerUdpPort port).exec Guarded.handle ⟨s, 1, times⟩ =
      (some (), ⟨s.registerUdpPort port, 1, times⟩) := by
  simp [Regions.registerUdpPort, lockTake, lockGive, store, exec, Guarded.handle, Guarded.perform,
    ClientStore.apply, ClientStore.counts, Shared.registerUdpPort, Shared.setClient]

theorem exec_judgeIdle (now : Int) :
    (Regions.judgeIdle cfg now).exec Guarded.handle ⟨s, 1, times⟩ =
      (some (s.judgeIdle cfg now), ⟨s, 1, times⟩) := by
  cases h : s.ctx.client.connected with
  | false =>
      simp [Regions.judgeIdle, lockTake, lockGive, loadConnected, exec, Guarded.handle, Guarded.perform, h,
        Shared.judgeIdle]
  | true =>
      by_cases hidle : (cfg.connectionTimeoutMs.toNat : Int) < 1000 * (now - s.ctx.client.lastCommand)
      · simp [Regions.judgeIdle, lockTake, lockGive, loadConnected, loadLastCommand, exec, Guarded.handle,
          Guarded.perform, h, hidle, Shared.judgeIdle]
      · simp [Regions.judgeIdle, lockTake, lockGive, loadConnected, loadLastCommand, exec, Guarded.handle,
          Guarded.perform, h, hidle, Shared.judgeIdle]

theorem exec_stopClient :
    Regions.stopClient.exec Guarded.handle ⟨s, 1, times⟩ = (some (), ⟨s.stopClient, 1, times⟩) := by
  cases h : s.ctx.client.connected with
  | false =>
      rw [Shared.stopClient_absent h]
      simp [Regions.stopClient, lockTake, lockGive, loadConnected, exec, Guarded.handle, Guarded.perform, h]
  | true =>
      simp [Regions.stopClient, lockTake, lockGive, loadConnected, loadSocket, store, close, exec,
        exec_clear, Guarded.handle, Guarded.perform, h, ClientStore.apply, ClientStore.counts,
        Shared.stopClient, Shared.setClient, Shared.record]

theorem Region.exec_code (region : Region) : ∃ now r t times',
    (region.code cfg).exec Guarded.handle ⟨s, 1, times⟩ = (some ⟨region.call, r⟩, ⟨t, 1, times'⟩) ∧
      ({ s with clock := now } : Shared).perform cfg {} region.call = some (r, t) := by
  cases region with
  | addClient socket addr =>
      cases h : s.ctx.client.connected with
      | true =>
          refine ⟨s.clock, (-1 : Int), s, times, exec_bind_some (exec_addClient_second socket addr h), ?_⟩
          exact congrArg some (Shared.addClient_second h)
      | false =>
          refine ⟨times 0, (0 : Int), _, _, exec_bind_some (exec_addClient_first socket addr h), ?_⟩
          have hfirst := (@Shared.addClient_first cfg { s with clock := times 0 } socket addr h).1
          exact congrArg some (Prod.ext hfirst rfl)
  | removeClient => exact ⟨s.clock, (), _, _, exec_bind_some exec_removeClient, rfl⟩
  | registerUdpPort port => exact ⟨s.clock, (), _, _, exec_bind_some (exec_registerUdpPort port), rfl⟩
  | judgeIdle now => exact ⟨s.clock, s.judgeIdle cfg now, _, _, exec_bind_some (exec_judgeIdle now), rfl⟩
  | stopClient => exact ⟨s.clock, (), _, _, exec_bind_some exec_stopClient, rfl⟩

end Exec

/-- Calls of the server made one after the other, each at some time. -/
inductive InTurn (cfg : ServerConfig) (s : Shared) : List Called → Shared → Prop where
  | nil : InTurn cfg s [] s
  | snoc {calls : List Called} {t u : Shared} {c : ServerCall} {r : c.Result} (now : Nat)
      (before : InTurn cfg s calls t)
      (last : ({ t with clock := now } : Shared).perform cfg {} c = some (r, u)) :
      InTurn cfg s (calls ++ [⟨c, r⟩]) u

theorem client_locking : Locking clientLock (· = .lockTake)
    (fun (_ : Unit) c g => Guarded.perform g c) Guarded.handle := by
  refine ⟨?_, ?_, ?_⟩
  · intro c r hacquires
    exact of_decide_eq_true hacquires
  · intro _ c g r g' _ htakes hfails
    exact absurd htakes (of_decide_eq_false hfails)
  · intro _ c g r g' hperform _
    rw [Guarded.handle, hperform]

theorem client_counts : Pool.Counts clientLock (fun (_ : Unit) c g => Guarded.perform g c)
    (fun g => some g.lock) := by
  intro _ c g r g' v hperform hv
  obtain rfl : g.lock = v := Option.some.inj hv
  cases c with
  | lockTake =>
      simp only [Guarded.perform] at hperform
      split at hperform
      · cases hperform
      · next hpos =>
          cases hperform
          refine ⟨by simp [clientLock], g.lock - 1, rfl, ?_⟩
          simp only [clientLock, decide_true, Bool.toNat_true]
          simp
          omega
  | lockGive =>
      cases hperform
      exact ⟨by simp [clientLock], g.lock + 1, rfl, by simp [clientLock]⟩
  | _ =>
      cases hperform
      exact ⟨by simp [clientLock], g.lock, rfl, by simp [clientLock]⟩

section Threads

variable {ι : Type} [DecidableEq ι] [Fintype ι] {cfg : ServerConfig} {s : Shared} {times : Nat → Nat}

/-- A step of threads that go through the regions, noted in the record. -/
abbrev regionStep (cfg : ServerConfig) :
    PoolLabel ι Unit Region → Pool regionSignature ι Guarded Called × Record ι Region Called →
    Option (Pool regionSignature ι Guarded Called × Record ι Region Called) :=
  recordedStep clientLock (fun (_ : Unit) c g => Guarded.perform g c) (Region.code cfg)

theorem inTurn_of_serial {calls : List (Region × Called)} {g : Guarded}
    (h : Serial Guarded.handle (Region.code cfg) ⟨s, 1, times⟩ calls g) :
    g.lock = 1 ∧ InTurn cfg s (calls.map Prod.snd) g.shared ∧
      ∀ call ∈ calls, call.2.1 = call.1.call := by
  induction h with
  | nil => exact ⟨rfl, .nil, List.forall_mem_nil _⟩
  | @snoc calls g g' region called before last ih =>
      obtain ⟨hlock, hturn, hcalls⟩ := ih
      obtain ⟨t, lock, times'⟩ := g
      obtain rfl : lock = 1 := hlock
      obtain ⟨now, r, u, times'', hexec, hperform⟩ := @Region.exec_code cfg t times' region
      obtain ⟨rfl, rfl⟩ : called = ⟨region.call, r⟩ ∧ g' = ⟨u, 1, times''⟩ := by
        have heq := last.symm.trans hexec
        simpa using heq
      refine ⟨rfl, ?_, ?_⟩
      · rw [List.map_append, List.map_singleton]
        exact .snoc now hturn hperform
      · intro call hcall
        rcases List.mem_append.mp hcall with hbefore | hlast
        · exact hcalls call hbefore
        · obtain rfl := List.mem_singleton.mp hlast
          rfl

theorem Region.not_refused {region : Region} {called : Called} :
    ¬ (region.code cfg).Refused clientLock called := by
  have hsection := region.code_oneSection cfg
  rintro (hret | ⟨c, next, r, hcode, hfailed, -⟩)
  · cases region <;> cases hret
  · rw [hcode] at hsection
    exact absurd hsection.1.1 (of_decide_eq_false hfailed)

/-- In every run of threads that go through the regions, interleaved at every access, the regions
that have ended have returned, in the order in which they ended, what the calls that stand for them
return one after the other, and have done to the record, to the count of connections and to what can
be observed what these calls do: as long as no thread is inside a region, the state of the server is
the one that the calls leave. -/
theorem regions_atomic (s : Shared) (times : Nat → Nat) (called : Called)
    (t : Pool regionSignature ι Guarded Called × Record ι Region Called)
    (hrun : Run (regionStep cfg) (fun _ _ => True) (Pool.idle ⟨s, 1, times⟩ called, {}) t) :
    ∃ u, InTurn cfg s (t.2.ended.map Ended.result) u ∧
      (∀ e ∈ t.2.ended, e.result.1 = e.job.call) ∧
      ((∀ i, t.1.held i = false) → t.1.shared.shared = u) := by
  obtain ⟨g, h⟩ := serialized_of_run client_locking client_counts rfl (Region.code_oneSection cfg) hrun
  have hlocked : ∀ e ∈ t.2.ended, e.locked = true := by
    intro e he
    by_contra hfree
    exact Region.not_refused (h.refused e he (Bool.eq_false_iff.mpr hfree))
  obtain ⟨-, hturn, hcalls⟩ := inTurn_of_serial h.serial
  have hended : t.2.locked = t.2.ended.map fun e => (e.job, e.result) := by
    rw [Record.locked, List.filter_eq_self.mpr hlocked]
  rw [hended, List.map_map] at hturn
  refine ⟨g.shared, hturn, ?_, ?_⟩
  · intro e he
    apply hcalls (e.job, e.result)
    rw [hended]
    exact List.mem_map_of_mem he
  · intro hnone
    rw [h.resting hnone]

theorem regions_endAlone : EndsAlone Guarded.handle (Region.code cfg) ⟨s, 1, times⟩ := by
  intro calls g hserial region
  obtain ⟨hlock, -, -⟩ := inTurn_of_serial hserial
  obtain ⟨t, lock, times'⟩ := g
  obtain rfl : lock = 1 := hlock
  obtain ⟨now, r, u, times'', hexec, -⟩ := @Region.exec_code cfg t times' region
  exact ⟨_, _, hexec⟩

/-- In every state that threads reach by going through the regions, the regions that have begun come to
their end in every order of their accesses, as long as no new ones begin, and where no thread can make
its next access every region has ended: the threads never wait for each other on the client lock. -/
theorem regions_end (s : Shared) (times : Nat → Nat) (called : Called)
    (t : Pool regionSignature ι Guarded Called × Record ι Region Called)
    (hrun : Run (regionStep cfg) (fun _ _ => True) (Pool.idle ⟨s, 1, times⟩ called, {}) t) :
    Acc (Pool.Goes clientLock (fun (_ : Unit) c g => Guarded.perform g c) (Region.code cfg)) t.1 ∧
      ((∀ i, regionStep cfg (.call i ()) t = none) → ∀ i, ∃ called, t.1.code i = .ret called) := by
  have hanswers : ∀ c g r g', Guarded.handle c g = (some r, g') → (g.perform c).isSome := by
    intro c g r g' hanswer
    rw [Guarded.handle] at hanswer
    split at hanswer
    · next hperform => rw [hperform]; rfl
    · cases hanswer
  exact completes_of_run client_locking client_counts rfl (Region.code_oneSection cfg) hanswers
    regions_endAlone hrun

end Threads

/-- A server with the callbacks about connections. -/
private def announcingConfig : ServerConfig :=
  { plainConfig with onConnection := true, onDisconnection := true }

/-- A client is removed that another thread is still adding, and a third thread asks whether it is
idle in between. -/
theorem regions_atomic_three :
    ∃ t : Pool regionSignature (Fin 3) Guarded Called × Record (Fin 3) Region Called,
      t.2.ended.map Ended.job = [.addClient 7 ⟨1, 2⟩, .judgeIdle 9, .removeClient] ∧
      t.1.shared.shared.events = [.onConnection (some 1) 2, .onDisconnection (some 1) 2, .closed 7] ∧
      InTurn announcingConfig robotProtocolCreate (t.2.ended.map Ended.result) t.1.shared.shared := by
  obtain ⟨t, hrun, hend⟩ := Run.exists_of_follow
    (fun (_ : Pool regionSignature (Fin 3) Guarded Called × Record (Fin 3) Region Called) _ => true)
    ([.begin 0 (.addClient 7 ⟨1, 2⟩), .call 0 (), .call 0 (), .begin 1 .removeClient,
        .begin 2 (.judgeIdle 9)] ++
      List.replicate 13 (.call 0 ()) ++ .call 2 () :: .begin 0 (.judgeIdle 8) ::
      List.replicate 3 (.call 2 ()) ++ List.replicate 18 (.call 1 ()))
    (fun t => decide (t.2.ended.map Ended.job = [.addClient 7 ⟨1, 2⟩, .judgeIdle 9, .removeClient]) &&
      decide (t.1.shared.shared.events =
        [.onConnection (some 1) 2, .onDisconnection (some 1) 2, .closed 7]) &&
      decide (∀ i, t.1.held i = false))
    (fun _ _ _ => trivial)
    (by decide +kernel : (Run.follow (regionStep announcingConfig) _ _
      (Pool.idle ⟨robotProtocolCreate, 1, fun _ => 5000⟩ ⟨.removeClient, ()⟩, {})).any _ = true)
  simp only [Bool.and_eq_true, decide_eq_true_eq] at hend
  obtain ⟨⟨hjobs, hevents⟩, hnone⟩ := hend
  obtain ⟨u, hturn, -, hrest⟩ := regions_atomic _ _ _ t hrun
  refine ⟨t, hjobs, hevents, ?_⟩
  rw [hrest hnone]
  exact hturn

/-- A client is being added while a stop waits for the lock. -/
theorem regions_end_two :
    ∃ t : Pool regionSignature (Fin 2) Guarded Called × Record (Fin 2) Region Called,
      t.1.held 0 = true ∧ (regionStep announcingConfig (.call 1 ()) t).isNone ∧
      Acc (Pool.Goes clientLock (fun (_ : Unit) c g => Guarded.perform g c)
        (Region.code announcingConfig)) t.1 := by
  obtain ⟨t, hrun, hend⟩ := Run.exists_of_follow
    (fun (_ : Pool regionSignature (Fin 2) Guarded Called × Record (Fin 2) Region Called) _ => true)
    [.begin 0 (.addClient 7 ⟨1, 2⟩), .call 0 (), .call 0 (), .begin 1 .stopClient]
    (fun t => t.1.held 0 && (regionStep announcingConfig (.call 1 ()) t).isNone)
    (fun _ _ _ => trivial)
    (by decide : (Run.follow (regionStep announcingConfig) _ _
      (Pool.idle ⟨robotProtocolCreate, 1, fun _ => 5000⟩ ⟨.removeClient, ()⟩, {})).any _ = true)
  rw [Bool.and_eq_true] at hend
  exact ⟨t, hend.1, hend.2, (regions_end _ _ _ t hrun).1⟩

end YaskawaComms.Server.Regions
