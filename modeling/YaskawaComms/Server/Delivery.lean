import YaskawaComms.Protocol.Outgoing
import YaskawaComms.Server.Histories
import YaskawaComms.Server.Ownership
import YaskawaComms.Server.Walk

/-!
# What the client receives

The TCP thread sends the payload of a response whether or not its header has got through, and goes on
with the next response after one that has been cut short. The client receives a prefix of frames as
long as such sends deliver nothing.
-/

namespace YaskawaComms.Server

open Protocol Program

/-- The responses on the latest connection, the latest first. -/
def noteSends (s : System) : Called → List Attempt → List Attempt
  | ⟨.addClient _ _, added⟩, attempts => if added = 0 then [] else attempts
  | ⟨.send fd bytes, count⟩, attempts =>
      if s.shared.ctx.client.connected = true ∧ fd = s.shared.ctx.client.socket then
        sendNext ⟨bytes, count.toNat⟩ attempts
      else attempts
  | _, attempts => attempts

/-- The system with the responses of the latest connection. -/
abbrev System.sending (cfg : ServerConfig) :
    Move → System × List Attempt → Option (System × List Attempt) :=
  System.recording cfg noteSends

/-- The context that a callback returns, if any, is made like those of the server. -/
def Called.WellBuilt : Called → Prop
  | ⟨.handleCommand _ _, ctx⟩ => ∀ c, ctx = some c → c.Built
  | ⟨.getErrorInfo, ctx⟩ => ∀ c, ctx = some c → c.Built
  | _ => True

/-- A step of a server whose callbacks keep their contract and that has one TCP thread at a time, on a
network that takes bytes from `send` only while all earlier responses have got through or failed as a
whole. -/
structure System.Unbroken (cfg : ServerConfig) (t : System × List Attempt) (move : Move) : Prop where
  built : ∀ made, t.1.called cfg move = some made → made.WellBuilt
  alone : ∀ thread, t.1.called cfg move = some ⟨.pthreadCreate .tcp, .ok thread⟩ →
    ∀ w ∈ t.1.workers, w.function = .tcp → w.finished = true
  delivers : ∀ fd bytes count, t.1.called cfg move = some ⟨.send fd bytes, count⟩ →
    t.1.shared.ctx.client.connected = true → fd = t.1.shared.ctx.client.socket → 0 < count →
      MayDeliver t.2

section Threads

/-- A thread sends responses: a header, and at once on the same descriptor the payload that it
announces. The state is the payload that is to be sent next. -/
def responding : Monitor serverSignature (Option (Int × ProtocolHeader)) where
  good
    | none, c => match c with
        | .send _ bytes => ∃ header : ProtocolHeader, bytes = header.bytes
        | _ => True
    | some (fd, header), c => ∃ bytes, c = .send fd bytes ∧ bytes.length = header.payloadLength.toNat
  allowed _ c r := Called.WellBuilt ⟨c, r⟩
  next m c := match c with
    | .send fd bytes => fun _ => match m with
        | none =>
            if (ProtocolHeader.ofBytes bytes).payloadLength.toNat = 0 then none
            else some (fd, .ofBytes bytes)
        | some _ => none
    | _ => fun _ => m

def ServerCall.sends : ServerCall → Bool
  | .send _ _ => true
  | _ => false

theorem responding_passes {c : ServerCall} (hc : c.sends = false) :
    Passes responding (fun m => m = none) c := by
  rintro _ rfl
  cases c with
  | send fd bytes => cases hc
  | _ => exact ⟨trivial, fun _ => rfl⟩

/-- The payload of a context is sent exactly if the header announces one. -/
theorem sendCommandResponseContext_responding (socket : Int) (ctx : Option ResponseContext)
    (hbuilt : ∀ c, ctx = some c → c.Built) :
    Walks responding (fun m => m = none) (fun _ => True) (sendCommandResponseContext socket ctx) := by
  cases ctx with
  | none =>
      rintro _ rfl
      exact ⟨trivial, nofun⟩
  | some ctx =>
      obtain ⟨hpayload, hlength⟩ := hbuilt ctx rfl
      have hend : ∀ (sent : Int), Walks responding (fun m => m = none) (fun _ => True)
          (freeCommandResponseContext ctx >>= fun _ => pure (if (sent - (sizeofProtocolHeader +
            ctx.header.payloadLength.toNat : Nat)) % 2 ^ 64 = 0 then 0 else (-1 : Int))) := by
        intro sent
        apply (freeCommandResponseContext_walks (fun _ => responding_passes rfl) ctx).bind
        intro _ _
        exact walks_pure trivial
      have hheader : ∀ count : Int, responding.next none (.send socket ctx.header.bytes) count =
          if ctx.header.payloadLength.toNat = 0 then none else some (socket, ctx.header) := by
        intro count
        show (if (ProtocolHeader.ofBytes ctx.header.bytes).payloadLength.toNat = 0 then _ else _) = _
        rw [ProtocolHeader.ofBytes_bytes]
      rintro _ rfl
      unfold sendCommandResponseContext
      have hgood : responding.good none (.send socket ctx.header.bytes) := ⟨ctx.header, rfl⟩
      apply obeys_call hgood
      intro sent _
      rw [hheader]
      cases hcase : ctx.payload with
      | none =>
          rw [if_pos (by rw [hpayload.mp hcase]; rfl)]
          exact hend sent none rfl
      | some payload =>
          have hsome : ctx.header.payloadLength ≠ 0 := fun hzero => by
            rw [hpayload.mpr hzero] at hcase
            cases hcase
          have hpositive : ctx.header.payloadLength.toNat ≠ 0 := fun hzero =>
            hsome (UInt32.toNat_inj.mp hzero)
          rw [if_neg hpositive]
          dsimp only
          rw [if_pos hsome]
          refine ⟨⟨_, rfl, ?_⟩, fun more _ => hend _ none rfl⟩
          rw [List.length_take, hlength _ _ hcase]
          exact Nat.min_self _

theorem responding_rule : ServiceRule responding (fun m => m = none) ResponseContext.Built where
  ordinary c hc := by
    apply responding_passes
    cases c <;> first | rfl | cases hc
  registers _ _ := responding_passes rfl
  built _ h := h
  sends := sendCommandResponseContext_responding
  handles _ _ := by
    rintro _ rfl
    exact ⟨trivial, fun _ hbuilt => ⟨rfl, hbuilt⟩⟩
  informs := by
    rintro _ rfl
    exact ⟨trivial, fun _ hbuilt => ⟨rfl, hbuilt⟩⟩
  accepts := acceptClient_walks (responding_passes rfl) (fun _ => responding_passes rfl)
    (fun _ _ => responding_passes rfl) fun _ => responding_passes rfl

theorem tcpThreadFunc_responding (cfg : ServerConfig) :
    (tcpThreadFunc cfg).Obeys responding (fun _ m => m = none) none := by
  apply (responding_rule.tcpThreadFunc (responding_passes rfl) (fun _ _ => responding_passes rfl)
    cfg none rfl).mono
  intro _ _ h
  exact h.1

end Threads

/-- The part of what a thread sends next that goes to this descriptor. -/
def sentTo (socket : Int) : Option (Int × ProtocolHeader) → Option ProtocolHeader
  | some (fd, header) => if fd = socket then some header else none
  | none => none

/-- What a thread has to keep to, `pending` being the payload that the TCP thread sends next. -/
structure Worker.Responds (w : Worker) (pending : Option (Int × ProtocolHeader)) : Prop where
  tcp : w.function = .tcp → w.finished = false → w.code.Obeys responding (fun _ m => m = none) pending
  timeout : w.function = .timeout → ∃ phase, w.code.Obeys timeoutRole (fun _ phase => phase.judged = false) phase

/-- Only one TCP thread is in its loop. The payload that it sends next is the one that is owed to the
client, if the client is still the same. -/
structure Responding (t : System × List Attempt) (pending : Option (Int × ProtocolHeader)) : Prop where
  app : t.1.app.Obeys application (fun _ _ => True) ()
  workers : ∀ (j : Nat) w, t.1.workers[j]? = some w → w.Responds pending
  alone : ∀ (i j : Nat) v w, t.1.workers[i]? = some v → t.1.workers[j]? = some w → v.function = .tcp →
    w.function = .tcp → v.finished = false → w.finished = false → i = j
  idle : (∀ w ∈ t.1.workers, w.function = .tcp → w.finished = true) → pending = none
  linked : t.1.shared.ctx.client.connected = true →
    owed t.2 = sentTo t.1.shared.ctx.client.socket pending
  regular : Regular t.2

section Step

variable {cfg : ServerConfig} {t t' : System × List Attempt} {pending : Option (Int × ProtocolHeader)}
  {move : Move}

theorem responds_fresh (function : ThreadFunction) :
    (Worker.fresh cfg function).Responds none := by
  cases function with
  | tcp => exact ⟨fun _ _ => tcpThreadFunc_responding cfg, nofun⟩
  | timeout => exact ⟨nofun, fun _ => ⟨_, timeoutThreadFunc_obeys⟩⟩

/-- Calls that neither send nor add a client. -/
def ServerCall.bystands : ServerCall → Bool
  | .send _ _ | .addClient _ _ => false
  | _ => true

theorem noteSends_bystands {s : System} {c : ServerCall} {r : c.Result} {attempts : List Attempt}
    (h : c.bystands = true) : noteSends s ⟨c, r⟩ attempts = attempts := by
  cases c with
  | send fd bytes => cases h
  | addClient fd addr => cases h
  | _ => rfl

theorem Responding.linked_effect {c : ServerCall} {shared : Shared} (h : Responding t pending)
    (hc : c.bystands = true) (heffect : Shared.Effect cfg t.1.shared c shared)
    (hconnected : shared.ctx.client.connected = true) :
    owed t.2 = sentTo shared.ctx.client.socket pending := by
  cases heffect with
  | quiet hquiet =>
      rw [hquiet.client] at hconnected ⊢
      exact h.linked hconnected
  | added hnone => cases hc
  | removed hsome =>
      rw [Shared.removeClient_client hsome] at hconnected
      cases hconnected
  | stopped hsome =>
      rw [Shared.stopClient_client hsome] at hconnected
      cases hconnected
  | commanded value => exact h.linked hconnected
  | registered port => exact h.linked hconnected

theorem responding_created : Responding (System.created, []) none :=
  ⟨trivial, nofun, nofun, fun _ => rfl, fun _ => rfl, trivial⟩

theorem Responding.application {a : Answers} {c : ServerCall} {next : c.Result → ServerProgram Unit}
    {r : c.Result} {shared : Shared} (h : Responding t pending) (happ : t.1.app = .call c next)
    (hperform : t.1.shared.perform cfg a c = some (r, shared)) :
    Responding ({ t.1 with app := next r, shared := shared }, noteSends t.1 ⟨c, r⟩ t.2) pending := by
  have hobeys := h.app
  rw [happ] at hobeys
  have hbystands : c.bystands = true := by
    have hgood := hobeys.1
    cases c with
    | send fd bytes => exact hgood.elim
    | addClient fd addr => exact hgood.elim
    | _ => rfl
  rw [noteSends_bystands hbystands]
  exact ⟨hobeys.2 r trivial, h.workers, h.alone, h.idle,
    h.linked_effect hbystands (Shared.effect_of_perform hperform), h.regular⟩

theorem Responding.spawned {function : ThreadFunction}
    {next : Except (Option Nat) Int → ServerProgram Unit} {thread : Int}
    (h : Responding t pending) (happ : t.1.app = .call (.pthreadCreate function) next)
    (halone : function = .tcp → ∀ w ∈ t.1.workers, w.function = .tcp → w.finished = true) :
    Responding
      ({ t.1 with app := next (.ok thread), workers := t.1.workers ++ [.fresh cfg function] }, t.2)
      pending := by
  have hobeys := h.app
  rw [happ] at hobeys
  have hnew : ∀ (j : Nat) w, (t.1.workers ++ [Worker.fresh cfg function])[j]? = some w →
      t.1.workers[j]? = some w ∨ (j = t.1.workers.length ∧ w = .fresh cfg function) := by
    intro j w hw
    rw [List.getElem?_append] at hw
    split at hw
    · exact Or.inl hw
    · next hlength =>
        obtain ⟨hj, hlast⟩ := List.getElem?_eq_some_iff.mp hw
        rw [List.length_singleton] at hj
        refine Or.inr ⟨by omega, ?_⟩
        rw [← hlast]
        exact List.getElem_singleton _
  refine ⟨hobeys.2 _ trivial, ?_, ?_, ?_, h.linked, h.regular⟩
  · intro j w hw
    rcases hnew j w hw with hold | ⟨-, rfl⟩
    · exact h.workers j w hold
    · cases function with
      | tcp =>
          rw [h.idle (halone rfl)]
          exact responds_fresh .tcp
      | timeout => exact ⟨nofun, fun _ => ⟨_, timeoutThreadFunc_obeys⟩⟩
  · intro i j v w hv hw hvtcp hwtcp hvrun hwrun
    rcases hnew i v hv with hvold | ⟨hi, rfl⟩
    · rcases hnew j w hw with hwold | ⟨hj, rfl⟩
      · exact h.alone i j v w hvold hwold hvtcp hwtcp hvrun hwrun
      · rw [halone hwtcp v (List.mem_of_getElem? hvold) hvtcp] at hvrun
        cases hvrun
    · rcases hnew j w hw with hwold | ⟨hj, rfl⟩
      · rw [halone hvtcp w (List.mem_of_getElem? hwold) hwtcp] at hwrun
        cases hwrun
      · rw [hi, hj]
  · intro hover
    exact h.idle fun w hw => hover w (List.mem_append_left _ hw)

/-- A thread in its loop takes a step. -/
theorem Responding.thread {index : Nat} {w w' : Worker} {shared : Shared} {attempts : List Attempt}
    {pending' : Option (Int × ProtocolHeader)} (h : Responding t pending)
    (hworker : t.1.workers[index]? = some w) (hfunction : w'.function = w.function)
    (hunfinished : w.finished = false) (hresponds : w'.Responds pending')
    (hdone : w'.finished = true → pending' = none ∨ w.function = .timeout)
    (hpending : w.function = .timeout → pending' = pending)
    (hlinked : shared.ctx.client.connected = true →
      owed attempts = sentTo shared.ctx.client.socket pending')
    (hregular : Regular attempts) :
    Responding ({ t.1 with workers := t.1.workers.set index w', shared := shared }, attempts) pending' := by
  obtain ⟨hindex, -⟩ := List.getElem?_eq_some_iff.mp hworker
  have hmem : w' ∈ t.1.workers.set index w' := List.mem_set hindex w'
  refine ⟨h.app, ?_, ?_, ?_, hlinked, hregular⟩
  · intro j v hv
    rcases System.worker_of_set hv with ⟨rfl, rfl⟩ | ⟨hj, hold⟩
    · exact hresponds
    · refine ⟨fun htcp hrun => ?_, (h.workers j v hold).timeout⟩
      cases hcase : w.function with
      | tcp => exact absurd (h.alone j index v w hold hworker htcp hcase hrun hunfinished) hj
      | timeout =>
          rw [hpending hcase]
          exact (h.workers j v hold).tcp htcp hrun
  · intro i j v u hv hu hvtcp hutcp hvrun hurun
    rcases System.worker_of_set hv with ⟨rfl, rfl⟩ | ⟨hi, hvold⟩
    · rcases System.worker_of_set hu with ⟨rfl, rfl⟩ | ⟨hj, huold⟩
      · rfl
      · rw [hfunction] at hvtcp
        exact h.alone _ _ w u hworker huold hvtcp hutcp hunfinished hurun
    · rcases System.worker_of_set hu with ⟨rfl, rfl⟩ | ⟨hj, huold⟩
      · rw [hfunction] at hutcp
        exact h.alone _ _ v w hvold hworker hvtcp hutcp hvrun hunfinished
      · exact h.alone i j v u hvold huold hvtcp hutcp hvrun hurun
  · intro hover
    cases hcase : w.function with
    | tcp =>
        have hfinished := hover w' hmem (hfunction.trans hcase)
        apply (hdone hfinished).resolve_right
        rw [hcase]
        exact nofun
    | timeout =>
        rw [hpending hcase]
        apply h.idle
        intro v hv htcp
        obtain ⟨j, hj⟩ := List.getElem?_of_mem hv
        apply hover v _ htcp
        have hne : index ≠ j := by
          rintro rfl
          rw [hworker] at hj
          cases hj
          rw [hcase] at htcp
          cases htcp
        rw [← List.getElem?_set_ne (a := w') hne] at hj
        exact List.mem_of_getElem? hj

theorem Responding.linked_send {fd : Int} {bytes : List UInt8} {count : Int}
    (h : Responding t pending) (hgood : responding.good pending (.send fd bytes))
    (hconnected : t.1.shared.ctx.client.connected = true) :
    owed (noteSends t.1 ⟨.send fd bytes, count⟩ t.2) =
      sentTo t.1.shared.ctx.client.socket (responding.next pending (.send fd bytes) count) := by
  have hlinked := h.linked hconnected
  simp only [noteSends, hconnected, true_and]
  cases pending with
  | none =>
      have hnone : owed t.2 = none := hlinked
      by_cases hzero : (ProtocolHeader.ofBytes bytes).payloadLength.toNat = 0
      · by_cases hfd : fd = t.1.shared.ctx.client.socket
        · simp [responding, sentTo, hfd, hzero, owed_sendNext]
        · simp [responding, sentTo, hfd, hzero, hnone]
      · by_cases hfd : fd = t.1.shared.ctx.client.socket
        · simp [responding, sentTo, hfd, hzero, hnone, owed_sendNext]
        · simp [responding, sentTo, hfd, hzero, hnone]
  | some next =>
      obtain ⟨fd', header⟩ := next
      obtain ⟨_, hsend, -⟩ := hgood
      cases hsend
      by_cases hfd : fd = t.1.shared.ctx.client.socket
      · have hsome : owed t.2 = some header := by simpa [sentTo, hfd] using hlinked
        simp [responding, sentTo, hfd, hsome, owed_sendNext]
      · have hnone : owed t.2 = none := by simpa [sentTo, hfd] using hlinked
        simp [responding, sentTo, hfd, hnone]

theorem Responding.regular_send {fd : Int} {bytes : List UInt8} {count : Int}
    (h : Responding t pending) (hgood : responding.good pending (.send fd bytes))
    (hdelivers : t.1.shared.ctx.client.connected = true → fd = t.1.shared.ctx.client.socket →
      0 < count → MayDeliver t.2) : Regular (noteSends t.1 ⟨.send fd bytes, count⟩ t.2) := by
  simp only [noteSends]
  split
  · next hclient =>
      obtain ⟨hconnected, hfd⟩ := hclient
      have hlinked := h.linked hconnected
      apply h.regular.sendNext
      · intro hnone
        cases pending with
        | none => exact hgood
        | some next =>
            obtain ⟨_, hsend, -⟩ := hgood
            cases hsend
            rw [hnone, sentTo, if_pos hfd] at hlinked
            cases hlinked
      · intro header hsome
        cases pending with
        | none =>
            rw [hsome] at hlinked
            cases hlinked
        | some next =>
            obtain ⟨_, hsend, hlength⟩ := hgood
            cases hsend
            rw [hsome, sentTo, if_pos hfd] at hlinked
            rw [Option.some.inj hlinked]
            exact hlength
      · intro hbytes
        apply hdelivers hconnected hfd
        by_contra hcount
        apply hbytes
        rw [Sent.bytes, show count.toNat = 0 by omega, List.take_zero]
  · exact h.regular

theorem Responding.linked_added {fd added : Int} {addr : SockAddr} {shared : Shared}
    (h : Responding t pending) (hgood : responding.good pending (.addClient fd addr))
    (hout : t.1.shared.addClient cfg fd addr = (added, shared))
    (hconnected : shared.ctx.client.connected = true) :
    owed (noteSends t.1 ⟨.addClient fd addr, added⟩ t.2) =
      sentTo shared.ctx.client.socket pending := by
  have hnone : pending = none := by
    cases pending with
    | none => rfl
    | some next =>
        obtain ⟨_, hsend, -⟩ := hgood
        cases hsend
  cases hold : t.1.shared.ctx.client.connected with
  | true =>
      rw [Shared.addClient_second hold] at hout
      cases hout
      exact h.linked hconnected
  | false =>
      obtain rfl : added = 0 :=
        (congrArg Prod.fst hout).symm.trans (Shared.addClient_first hold).1
      rw [hnone]
      rfl

theorem Responding.linked_call {a : Answers} {c : ServerCall} {r : c.Result} {shared : Shared}
    (h : Responding t pending) (hgood : responding.good pending c)
    (hperform : t.1.shared.perform cfg a c = some (r, shared))
    (hconnected : shared.ctx.client.connected = true) :
    owed (noteSends t.1 ⟨c, r⟩ t.2) =
      sentTo shared.ctx.client.socket (responding.next pending c r) := by
  cases c with
  | send fd bytes =>
      have hclient : shared.ctx.client = t.1.shared.ctx.client := by
        cases Shared.effect_of_perform hperform with
        | quiet hquiet => exact hquiet.client
      rw [hclient] at hconnected ⊢
      exact h.linked_send hgood hconnected
  | addClient fd addr => exact h.linked_added hgood (Option.some.inj hperform) hconnected
  | _ => exact h.linked_effect rfl (Shared.effect_of_perform hperform) hconnected

theorem Responding.regular_call {c : ServerCall} {r : c.Result} (h : Responding t pending)
    (hgood : responding.good pending c)
    (hdelivers : ∀ fd bytes count, (⟨c, r⟩ : Called) = ⟨.send fd bytes, count⟩ →
      t.1.shared.ctx.client.connected = true → fd = t.1.shared.ctx.client.socket → 0 < count →
        MayDeliver t.2) : Regular (noteSends t.1 ⟨c, r⟩ t.2) := by
  cases c with
  | send fd bytes => exact h.regular_send hgood (hdelivers fd bytes r rfl)
  | addClient fd addr =>
      simp only [noteSends]
      split
      · trivial
      · exact h.regular
  | _ => exact h.regular

/-- A call of a thread. -/
theorem Responding.call {index : Nat} {a : Answers} {w : Worker} {c : ServerCall}
    {next : c.Result → ServerProgram Round} {r : c.Result} {shared : Shared}
    (h : Responding t pending) (hworker : t.1.workers[index]? = some w) (hcode : w.code = .call c next)
    (hperform : t.1.shared.perform cfg a c = some (r, shared)) (hbuilt : Called.WellBuilt ⟨c, r⟩)
    (hdelivers : ∀ fd bytes count, (⟨c, r⟩ : Called) = ⟨.send fd bytes, count⟩ →
      t.1.shared.ctx.client.connected = true → fd = t.1.shared.ctx.client.socket → 0 < count →
        MayDeliver t.2) :
    ∃ pending', Responding
      ({ t.1 with
        workers := t.1.workers.set index { w.mark t.1.shared c r with code := next r }
        shared := shared }, noteSends t.1 ⟨c, r⟩ t.2) pending' := by
  have hunfinished : w.finished = false := by rw [Worker.finished, hcode]
  have hfunction := w.mark_function t.1.shared c r
  cases hcase : w.function with
  | timeout =>
      obtain ⟨phase, hobeys⟩ := (h.workers index w hworker).timeout hcase
      rw [hcode] at hobeys
      have hbystands : c.bystands = true := by
        have hgood := hobeys.1
        cases c with
        | send fd bytes => exact hgood.elim
        | addClient fd addr => exact hgood.elim
        | _ => rfl
      rw [noteSends_bystands hbystands]
      refine ⟨pending, h.thread hworker hfunction hunfinished ⟨?_, fun _ => ⟨_, hobeys.2 r trivial⟩⟩
        (fun _ => Or.inr hcase) (fun _ => rfl)
        (h.linked_effect hbystands (Shared.effect_of_perform hperform)) h.regular⟩
      intro htcp
      rw [show _ = w.function from hfunction, hcase] at htcp
      cases htcp
  | tcp =>
      have hobeys := (h.workers index w hworker).tcp hcase hunfinished
      rw [hcode] at hobeys
      obtain ⟨hgood, hnext⟩ := hobeys
      have hmore := hnext r hbuilt
      refine ⟨responding.next pending c r, h.thread hworker hfunction hunfinished
        ⟨fun _ _ => hmore, ?_⟩ ?_ ?_ (h.linked_call hgood hperform) (h.regular_call hgood hdelivers)⟩
      · intro htimeout
        rw [show _ = w.function from hfunction, hcase] at htimeout
        cases htimeout
      · intro hfinished
        unfold Worker.finished at hfinished
        split at hfinished
        · next hret =>
            rw [show next r = _ from hret] at hmore
            exact Or.inl hmore
        · cases hfinished
      · intro htimeout
        rw [hcase] at htimeout
        cases htimeout

theorem responding_step (h : Responding t pending) (hunbroken : System.Unbroken cfg t move)
    (hstep : System.sending cfg move t = some t') : ∃ pending', Responding t' pending' := by
  obtain ⟨made, hcalled, hmakes, hattempts⟩ := System.makes_of_recording hstep
  obtain ⟨s', attempts⟩ := t'
  obtain rfl : attempts = _ := hattempts
  generalize hs' : (s', System.noted noteSends t.1 t.2 made).1 = s'' at hmakes
  obtain rfl : s' = s'' := hs'
  cases hmakes with
  | job hidle halive =>
      exact ⟨pending, Job.code_obeys _, h.workers, h.alone, h.idle, h.linked, h.regular⟩
  | created happ =>
      refine ⟨pending, h.spawned happ ?_⟩
      rintro rfl
      exact hunbroken.alone _ hcalled
  | notCreated left happ =>
      have hobeys := h.app
      rw [happ] at hobeys
      exact ⟨pending, hobeys.2 _ trivial, h.workers, h.alone, h.idle, h.linked, h.regular⟩
  | joined happ hfinished =>
      have hobeys := h.app
      rw [happ] at hobeys
      exact ⟨pending, hobeys.2 _ trivial, h.workers, h.alone, h.idle, h.linked, h.regular⟩
  | app happ hthread hperform => exact ⟨pending, h.application happ hperform⟩
  | @again index a w hworker hcode =>
      have hunfinished : w.finished = false := by rw [Worker.finished, hcode]
      refine ⟨pending, h.thread hworker rfl hunfinished ?_ ?_ (fun _ => rfl) h.linked h.regular⟩
      · cases hcase : w.function with
        | timeout => exact ⟨nofun, fun _ => ⟨_, timeoutThreadFunc_obeys⟩⟩
        | tcp =>
            have hobeys := (h.workers index w hworker).tcp hcase hunfinished
            rw [hcode] at hobeys
            rw [show pending = none from hobeys]
            exact responds_fresh .tcp
      · intro hover
        cases hcase : w.function with
        | timeout => exact Or.inr rfl
        | tcp =>
            rw [hcase] at hover
            cases hover
  | worker hworker hcode hperform =>
      apply h.call hworker hcode hperform (hunbroken.built _ hcalled)
      intro fd bytes count hmade
      rw [hmade] at hcalled
      exact hunbroken.delivers fd bytes count hcalled
  | reading hworker hcode => exact ⟨pending, h⟩
  | tick ms => exact ⟨pending, h.app, h.workers, h.alone, h.idle, h.linked, h.regular⟩

/-- What the client receives is a prefix of the frames of the responses, and nothing follows a response
that has been cut short. -/
theorem delivery_of_run
    (hrun : Run (System.sending cfg) (System.Unbroken cfg) (System.created, []) t) :
    Framed t.2 ∧ StopsWhenCut t.2 := by
  have hinv : ∃ pending, Responding t pending := by
    apply hrun.invariant ⟨_, responding_created⟩
    rintro _ _ _ ⟨_, h⟩ hunbroken hstep
    exact responding_step h hunbroken hstep
  obtain ⟨_, h⟩ := hinv
  exact ⟨h.regular.framed, h.regular.stopsWhenCut⟩

end Step

section Examples

/-- A step without callbacks and with at most one TCP thread that delivers nothing after a cut. -/
def System.unbrokenCheck (cfg : ServerConfig) (t : System × List Attempt) (move : Move) : Bool :=
  match t.1.called cfg move with
  | some ⟨.handleCommand _ _, _⟩ | some ⟨.getErrorInfo, _⟩ => false
  | some ⟨.pthreadCreate .tcp, _⟩ => t.1.workers.all fun w => w.function = .timeout
  | some ⟨.send _ _, count⟩ => decide (count ≤ 0) || decide (MayDeliver t.2)
  | _ => true

theorem unbroken_of_check {cfg : ServerConfig} {t : System × List Attempt} {move : Move}
    (h : System.unbrokenCheck cfg t move = true) : System.Unbroken cfg t move := by
  constructor
  · rintro ⟨c, r⟩ hcalled
    rw [System.unbrokenCheck, hcalled] at h
    cases c with
    | handleCommand header payload => cases h
    | getErrorInfo => cases h
    | _ => trivial
  · intro thread hcalled w hw htcp
    rw [System.unbrokenCheck, hcalled] at h
    have htimeout := of_decide_eq_true (List.all_eq_true.mp h w hw)
    rw [htcp] at htimeout
    cases htimeout
  · intro fd bytes count hcalled _ _ hcount
    rw [System.unbrokenCheck, hcalled] at h
    rcases (Bool.or_eq_true _ _).mp h with hnone | hmay
    · exact absurd hcount (Int.not_lt.mpr (of_decide_eq_true hnone))
    · exact of_decide_eq_true hmay

/-- The moves up to the response to a message: no callback is configured, so it is an error. -/
def errorResponseMoves : List Move :=
  startMoves ++ acceptMoves ++ messageMoves ++ List.replicate 7 (.worker 0 {})

/-- The end of a round, and the next one up to its response. -/
def nextResponseMoves : List Move :=
  List.replicate 5 (.worker 0 {}) ++ messageMoves ++ List.replicate 7 (.worker 0 {})

/-- A client receives one error response, five bytes of the next one, and nothing of a third. -/
theorem delivery_error : ∃ t : System × List Attempt,
    t.2.length = 3 ∧ (delivered t.2).length = sizeofProtocolHeader + sizeofErrorPayload + 5 ∧
      Framed t.2 ∧ StopsWhenCut t.2 := by
  obtain ⟨t, hrun, hend⟩ := Run.exists_of_follow
    (fun (t : System × List Attempt) move => System.unbrokenCheck plainConfig t move)
    (errorResponseMoves ++ List.replicate 2 (.worker 0 { sent := 132 }) ++
      nextResponseMoves ++ [.worker 0 { sent := 5 }, .worker 0 {}] ++ nextResponseMoves ++
      [.worker 0 {}, .worker 0 {}])
    (fun t : System × List Attempt => decide (t.2.length = 3 ∧
      (delivered t.2).length = sizeofProtocolHeader + sizeofErrorPayload + 5))
    (fun _ _ hcheck => unbroken_of_check hcheck)
    (by decide +kernel : (Run.follow (System.sending plainConfig) _ _ (System.created, [])).any _ = true)
  obtain ⟨hresponses, hdelivered⟩ := of_decide_eq_true hend
  exact ⟨t, hresponses, hdelivered, delivery_of_run hrun⟩

theorem not_framed {a : Attempt} {b c : UInt8} (hbytes : a.bytes.head? = some b)
    (hheader : a.header.buffer.head? = some c) (hne : b ≠ c) : ¬ Framed [a] := by
  rintro ⟨frames, hframes, hprefix⟩
  have hsome : a.bytes ≠ [] := by
    intro hnone
    rw [hnone] at hbytes
    cases hbytes
  rw [touched_cons, if_neg hsome] at hframes
  obtain ⟨f, rest, hcompleted, hrest, rfl⟩ := List.forall₂_cons_left_iff.mp hframes
  obtain ⟨part, hpart⟩ := hprefix
  have hheads := congrArg List.head? hpart
  simp only [delivered, List.nil_append, List.head?_append, hbytes, Option.some_or, List.map_cons,
    List.flatten_cons, ResponseFrame.bytes, hcompleted.1, hheader, Option.some.injEq] at hheads
  exact hne hheads

/-- The header of a response is not delivered, and its payload is. -/
theorem payload_without_header : ∃ t : System × List Attempt,
    Run (System.sending plainConfig) (fun _ _ => True) (System.created, []) t ∧ ¬ Framed t.2 := by
  obtain ⟨t, hrun, hend⟩ := Run.exists_of_follow (fun _ _ => true)
    (errorResponseMoves ++ [.worker 0 { sent := -1 }, .worker 0 { sent := 132 }])
    (fun t : System × List Attempt => decide
      (t.2.map (fun a => (a.bytes.head?, a.header.buffer.head?)) = [(some 0xff, some 0x52)]))
    (fun _ _ _ => trivial)
    (by decide +kernel : (Run.follow (System.sending plainConfig) _ _ (System.created, [])).any _ = true)
  obtain ⟨a, hattempts, hheads⟩ := List.map_eq_singleton_iff.mp (of_decide_eq_true hend)
  refine ⟨t, hrun, ?_⟩
  rw [hattempts]
  exact not_framed (congrArg Prod.fst hheads) (congrArg Prod.snd hheads) (by decide)

end Examples

end YaskawaComms.Server
