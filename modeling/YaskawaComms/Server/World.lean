import YaskawaComms.Server.Service
import YaskawaComms.Protocol.ReadHeader

/-!
# The TCP thread by itself

Sequential runs of the service loop on one connection, with nobody else touching the server: what
the client has sent stands in a transport, `select` reports the client's socket as long as there is
a client, and the answers of the callbacks and of `send` are arbitrary functions.
-/

namespace YaskawaComms.Server

open Protocol Program

/-- What surrounds the TCP thread and does not change: what the stack holds where the header is
read to, the outcome of sending, the clock for time stamps and the callbacks. -/
structure Environment where
  memory : HeaderObject
  sent : List UInt8 → Int
  timestamp : UInt64
  handleCommand : ProtocolHeader → List UInt8 → Option Reply
  getErrorInfo : Option Reply

/-- `mallocs` says which of the next allocations succeed; all later ones do. -/
structure World where
  shared : Shared
  transport : Transport
  mallocs : List Bool

def Event.isOutcome : Event → Bool
  | .dispatched _ _ | .rejected _ => true
  | _ => false

namespace World

/-- The answers to a call, and the world once they are given. A call without answers waits for
ever. -/
def answer (env : Environment) : ServerCall → World → Option (Answers × World)
  | .select _ _, w =>
      let client := w.shared.ctx.client
      some ({ select := .ok (if client.connected then [client.socket] else []) }, w)
  | .readHeader _, w =>
      let result := Protocol.readHeader env.memory w.transport
      some ({ header := (result.ret, result.header.value) },
        { w with transport := result.transport })
  | .recv _ len, w => (w.transport.recvWaitAll len).map fun (received, transport) =>
      ({ received := received }, { w with transport := transport })
  | .send _ bytes, w => some ({ sent := env.sent bytes }, w)
  | .malloc _, w =>
      some ({ allocates := w.mallocs.headD true }, { w with mallocs := w.mallocs.tail })
  | .getTimestampMs, w => some ({ timestamp := env.timestamp }, w)
  | .handleCommand header payload, w => some ({ reply := env.handleCommand header payload }, w)
  | .getErrorInfo, w => some ({ reply := env.getErrorInfo }, w)
  | _, w => some ({}, w)

def handle (cfg : ServerConfig) (env : Environment) (c : ServerCall) (w : World) :
    Option c.Result × World :=
  match w.answer env c with
  | none => (none, w)
  | some (answers, w') =>
      match w'.shared.perform cfg answers c with
      | none => (none, w')
      | some (result, shared) => (some result, { w' with shared := shared })

/-- One round of the service loop; without a value it is stuck in the middle of the round. -/
def service (cfg : ServerConfig) (env : Environment) (w : World) : Option Round × World :=
  (tcpThreadFunc cfg).exec (handle cfg env) w

/-- The world after a number of rounds, or where the thread has stopped before. -/
def serve (cfg : ServerConfig) (env : Environment) : Nat → World → World
  | 0, w => w
  | n + 1, w =>
      match w.service cfg env with
      | (some .again, w') => serve cfg env n w'
      | (_, w') => w'

/-- The messages dispatched and rejected so far, in order. -/
def outcomes (w : World) : List Event := w.shared.events.filter Event.isOutcome

/-- A running server with a client. -/
structure Serving (w : World) : Prop where
  running : w.shared.ctx.running ≠ 0
  connected : w.shared.ctx.client.connected = true
  socket : 0 ≤ w.shared.ctx.client.socket
  listener : w.shared.ctx.tcpSocket ≠ w.shared.ctx.client.socket

end World

section Calls

variable {α : Type} {cfg : ServerConfig} {env : Environment} {w : World}

@[simp] theorem exec_load (field : CtxField) (f : Int → ServerProgram α) :
    (load field >>= f).exec (World.handle cfg env) w =
      (f (w.shared.ctx.get field)).exec (World.handle cfg env) w :=
  exec_call_some rfl

@[simp] theorem exec_loadConnected (f : Bool → ServerProgram α) :
    (loadConnected >>= f).exec (World.handle cfg env) w =
      (f w.shared.ctx.client.connected).exec (World.handle cfg env) w :=
  exec_call_some rfl

@[simp] theorem exec_loadSocket (f : Int → ServerProgram α) :
    (loadSocket >>= f).exec (World.handle cfg env) w =
      (f w.shared.ctx.client.socket).exec (World.handle cfg env) w :=
  exec_call_some rfl

@[simp] theorem exec_select (nfds : Int) (fds : List Int)
    (f : Except Errno (List Int) → ServerProgram α) :
    (platformSelect nfds fds >>= f).exec (World.handle cfg env) w =
      (f (.ok ((if w.shared.ctx.client.connected then [w.shared.ctx.client.socket] else []).filter
        fun fd => fd < nfds ∧ fd ∈ fds))).exec (World.handle cfg env) w :=
  exec_call_some rfl

@[simp] theorem exec_removeClient (f : Unit → ServerProgram α) :
    (removeClient >>= f).exec (World.handle cfg env) w =
      (f ()).exec (World.handle cfg env) { w with shared := w.shared.removeClient cfg } :=
  exec_call_some rfl

@[simp] theorem exec_free (block : Nat) (f : Unit → ServerProgram α) :
    (platformFree block >>= f).exec (World.handle cfg env) w =
      (f ()).exec (World.handle cfg env)
        { w with shared := { w.shared with heap := w.shared.heap.free block } } :=
  exec_call_some rfl

@[simp] theorem exec_dispatched (header : ProtocolHeader) (payload : List UInt8)
    (f : Unit → ServerProgram α) :
    (dispatched header payload >>= f).exec (World.handle cfg env) w =
      (f ()).exec (World.handle cfg env)
        { w with shared := w.shared.record [.dispatched header payload] } :=
  exec_call_some rfl

@[simp] theorem exec_rejected (header : ProtocolHeader) (f : Unit → ServerProgram α) :
    (rejected header >>= f).exec (World.handle cfg env) w =
      (f ()).exec (World.handle cfg env) { w with shared := w.shared.record [.rejected header] } :=
  exec_call_some rfl

theorem exec_readHeader {fd : Int} (hconnected : w.shared.ctx.client.connected = true)
    (hfd : fd = w.shared.ctx.client.socket) (f : Int × ProtocolHeader → ServerProgram α) :
    (readHeader fd >>= f).exec (World.handle cfg env) w =
      let result := Protocol.readHeader env.memory w.transport
      (f (result.ret, result.header.value)).exec (World.handle cfg env)
        { w with transport := result.transport } := by
  apply exec_call_some
  simp [World.handle, World.answer, Shared.perform, hconnected, hfd]

theorem exec_recv {received : Received} {transport : Transport} (fd : Int) {len : Nat}
    (h : w.transport.recvWaitAll len = some (received, transport))
    (f : Received → ServerProgram α) :
    (platformRecv fd len >>= f).exec (World.handle cfg env) w =
      (f (received.map (·.take len))).exec (World.handle cfg env)
        { w with transport := transport } := by
  apply exec_call_some
  simp [World.handle, World.answer, Shared.perform, h]

theorem exec_malloc_some (len : Nat) (h : w.mallocs.headD true = true)
    (f : Option Nat → ServerProgram α) :
    (platformMalloc len >>= f).exec (World.handle cfg env) w =
      (f (some w.shared.heap.alloc.1)).exec (World.handle cfg env)
        { w with
          shared := { w.shared with heap := w.shared.heap.alloc.2 }
          mallocs := w.mallocs.tail } := by
  apply exec_call_some
  simp only [World.handle, World.answer, Shared.perform, h, if_true]

theorem exec_malloc_none (len : Nat) (h : w.mallocs.headD true = false)
    (f : Option Nat → ServerProgram α) :
    (platformMalloc len >>= f).exec (World.handle cfg env) w =
      (f none).exec (World.handle cfg env) { w with mallocs := w.mallocs.tail } := by
  apply exec_call_some
  simp only [World.handle, World.answer, Shared.perform, h, Bool.false_eq_true, if_false]

end Calls

section Round

variable {cfg : ServerConfig} {env : Environment} {w : World}

/-- The calls by which the TCP thread looks for something to do. -/
def ServerCall.watches : ServerCall → Bool
  | .load _ | .loadConnected | .loadSocket | .select _ _ => true
  | _ => false

/-- The thread gets to this point by watching. -/
def Watching {α : Type} (cfg : ServerConfig) (env : Environment) (w : World)
    (p q : ServerProgram α) : Prop :=
  ∃ calls, Leads (World.handle cfg env) p w calls q w ∧ ∀ c ∈ calls, c.1.watches = true

theorem watching_call {α : Type} {c : ServerCall} {r : c.Result} {f : c.Result → ServerProgram α}
    {q : ServerProgram α} (hwatches : c.watches = true) (answer : w.handle cfg env c = (some r, w))
    (rest : Watching cfg env w (f r) q) : Watching cfg env w (Program.call c .ret >>= f) q := by
  obtain ⟨calls, hleads, hcalls⟩ := rest
  refine ⟨⟨c, r⟩ :: calls, .call answer hleads, ?_⟩
  intro d hd
  rcases List.mem_cons.mp hd with rfl | hd
  · exact hwatches
  · exact hcalls d hd

theorem watching_watchClient {α : Type} (hw : w.Serving) (listener nfd : Int)
    {f : Int × List Int → ServerProgram α} {q : ServerProgram α}
    (rest : ∀ nfd, w.shared.ctx.client.socket ≤ nfd →
      Watching cfg env w (f (nfd, [listener, w.shared.ctx.client.socket])) q) :
    Watching cfg env w (watchClient listener nfd >>= f) q := by
  have hsocket := hw.socket
  unfold watchClient
  rw [Program.bind_assoc]
  apply watching_call rfl rfl
  simp only [hw.connected, if_true]
  rw [Program.bind_assoc]
  apply watching_call rfl rfl
  rw [if_pos hsocket, Program.bind_assoc]
  apply watching_call rfl rfl
  rw [Program.bind_assoc]
  apply watching_call rfl rfl
  by_cases hlt : nfd < w.shared.ctx.client.socket
  · rw [if_pos hlt, Program.bind_assoc]
    apply watching_call rfl rfl
    exact rest _ (Int.le_refl _)
  · rw [if_neg hlt]
    exact rest nfd (by omega)

/-- With a client to read from, the thread gets to it. -/
theorem service_watching (hw : w.Serving) :
    Watching cfg env w (tcpThreadFunc cfg) (serviceClient cfg >>= fun _ => .ret .again) := by
  have hready : ∀ nfd, w.shared.ctx.client.socket ≤ nfd →
      w.handle cfg env (.select (nfd + 1) [w.shared.ctx.tcpSocket, w.shared.ctx.client.socket]) =
        (some (.ok [w.shared.ctx.client.socket]), w) := by
    intro nfd hnfd
    have hfilter : [w.shared.ctx.client.socket].filter (fun fd => fd < nfd + 1 ∧
        fd ∈ [w.shared.ctx.tcpSocket, w.shared.ctx.client.socket]) = [w.shared.ctx.client.socket] := by
      apply List.filter_eq_self.mpr
      intro fd hfd
      rw [List.mem_singleton.mp hfd]
      exact decide_eq_true ⟨by omega, List.mem_cons_of_mem _ List.mem_cons_self⟩
    simp only [World.handle, World.answer, Shared.perform, hw.connected, if_true, Except.map, hfilter]
  unfold tcpThreadFunc
  apply watching_call rfl rfl
  rw [ServerCtx.get, if_neg hw.running]
  apply watching_call rfl rfl
  apply watching_call rfl rfl
  apply watching_watchClient hw
  intro nfd hnfd
  apply watching_call rfl (hready nfd hnfd)
  dsimp only
  rw [if_neg (List.cons_ne_nil _ _)]
  apply watching_call rfl rfl
  rw [ServerCtx.get, if_neg (by rw [List.mem_singleton]; exact hw.listener)]
  apply watching_call rfl rfl
  rw [if_pos hw.connected]
  apply watching_call rfl rfl
  rw [if_pos (List.mem_singleton_self _)]
  exact ⟨[], .refl, List.forall_mem_nil _⟩

theorem service_serving (hw : w.Serving) :
    w.service cfg env =
      (serviceClient cfg >>= fun _ => .ret .again).exec (World.handle cfg env) w := by
  obtain ⟨_, hleads, _⟩ : Watching cfg env w _ _ := service_watching hw
  exact hleads.exec_eq

theorem World.serve_succ {w' : World} (n : Nat) (h : w.service cfg env = (some .again, w')) :
    World.serve cfg env (n + 1) w = World.serve cfg env n w' := by
  rw [World.serve, h]

theorem service_idle (hrunning : w.shared.ctx.running ≠ 0)
    (hconnected : w.shared.ctx.client.connected = false) :
    w.service cfg env = (some .again, w) := by
  unfold World.service tcpThreadFunc watchClient
  simp [ServerCtx.get, hrunning, hconnected]

end Round

section Plain

def plainEnvironment : Environment :=
  { memory := ⟨List.replicate 18 0, rfl⟩
    sent := fun bytes => bytes.length
    timestamp := 0
    handleCommand := fun _ _ => none
    getErrorInfo := none }

/-- A running server with a client on descriptor 7. -/
def worldOf (transport : Transport) (mallocs : List Bool) : World where
  shared :=
    { ctx := ⟨4, 5, 1, 1, 2, { ClientInfo.cleared with socket := 7, connected := true }⟩
      clock := 0
      generation := 1
      heap := ⟨1, [0], false⟩
      events := [] }
  transport := transport
  mallocs := mallocs

theorem worldOf_serving (transport : Transport) (mallocs : List Bool) :
    (worldOf transport mallocs).Serving where
  running := by simp [worldOf]
  connected := rfl
  socket := by simp [worldOf]
  listener := by simp [worldOf]

end Plain

end YaskawaComms.Server
