import YaskawaComms.Server.Handling

/-!
# What each thread does

The application never touches the client's record outside the lock; the timeout thread removes the
client only after it has found it idle; the TCP thread acts for a client only between reading a
header from it and removing it.
-/

namespace YaskawaComms.Server

open Protocol Program

/-- The calls of starting and stopping the server. -/
def operating : Monitor serverSignature Unit where
  good _ c := match c with
    | .load _ | .store _ _ | .socket | .bind _ _ | .listen _ | .shutdown _ | .close _ | .pthreadCreate _
    | .pthreadJoin _ | .stopClient => True
    | _ => False
  allowed _ _ _ := True
  next _ _ _ := ()

/-- The calls of the application interface; a destroy also ends the lock and frees the server. -/
def application : Monitor serverSignature Unit where
  good m c := match c with
    | .lockDestroy => True
    | .free block => block = serverBlock
    | _ => operating.good m c
  allowed _ _ _ := True
  next _ _ _ := ()

/-- Where the timeout thread stands: the time it has read, and whether it is going to remove the
client. -/
structure TimeoutPhase where
  now : Option Int
  judged : Bool

def timeoutRole : Monitor serverSignature TimeoutPhase where
  good phase c := match c with
    | .load _ | .time => phase.judged = false
    | .judgeIdle now => phase.judged = false ∧ phase.now = some now
    | .removeClient => phase.judged = true
    | _ => False
  allowed _ _ _ := True
  next phase c := match c with
    | .time => fun now => { phase with now := some now }
    | .judgeIdle _ => fun idle => { phase with judged := idle }
    | .removeClient => fun _ => { phase with judged := false }
    | _ => fun _ => phase

/-- Where the TCP thread stands: no header has been read in this round, or one has been read from
this socket. -/
inductive TcpPhase where
  | waiting
  | handling (socket : Int) (removed : Bool)

def tcpRole : Monitor serverSignature TcpPhase where
  good
    | .waiting, c => match c with
        | .load _ | .loadConnected | .loadSocket | .select _ _ | .accept _ | .addClient _ _ | .close _ | .removeClient
        | .readHeader _ => True
        | _ => False
    | .handling socket removed, c => (handling false true socket).good removed c
  allowed
    | .waiting, _ => fun _ => True
    | .handling socket removed, c => (handling false true socket).allowed removed c
  next
    | .waiting, c => match c with
        | .readHeader fd => fun result =>
            if result.1 = sizeofProtocolHeader then .handling fd false else .waiting
        | _ => fun _ => .waiting
    | .handling socket removed, c => fun r =>
        .handling socket ((handling false true socket).next removed c r)

section Application

theorem operating_if {α : Type} {P : Prop} [Decidable P] {p q : ServerProgram α}
    (hp : p.Obeys operating (fun _ _ => True) ()) (hq : q.Obeys operating (fun _ _ => True) ()) :
    (if P then p else q).Obeys operating (fun _ _ => True) () :=
  obeys_ite (fun _ => hp) fun _ => hq

theorem startThread_obeys (function : ThreadFunction) (field : CtxField) :
    (startThread function field).Obeys operating (fun _ _ => True) () := by
  refine ⟨trivial, ?_⟩
  intro thread _
  cases thread with
  | ok thread => exact ⟨trivial, fun _ _ => trivial⟩
  | error left =>
      cases left with
      | none => trivial
      | some left => exact ⟨trivial, fun _ _ => trivial⟩

theorem joinThread_obeys (field : CtxField) :
    (joinThread field).Obeys operating (fun _ _ => True) () := by
  refine ⟨trivial, ?_⟩
  intro thread _
  dsimp only
  apply obeys_ite
  · intro _
    refine ⟨trivial, fun _ _ => ⟨trivial, fun _ _ => ⟨trivial, fun _ _ => trivial⟩⟩⟩
  · intro _
    trivial

theorem closeSocket_obeys (field : CtxField) :
    (closeSocket field).Obeys operating (fun _ _ => True) () := by
  refine ⟨trivial, ?_⟩
  intro fd _
  apply obeys_ite
  · intro _
    refine ⟨trivial, fun _ _ => ⟨trivial, fun _ _ => ⟨trivial, fun _ _ => trivial⟩⟩⟩
  · intro _
    trivial

theorem robotProtocolStart_obeys (cfg : ServerConfig) :
    (robotProtocolStart cfg).Obeys operating (fun _ _ => True) () := by
  have hthreads : (startThread .tcp .tcpThread >>= fun _ => startThread .timeout .timeoutThread >>=
      fun _ => Program.ret (0 : Int)).Obeys operating (fun _ _ => True) () := by
    apply (startThread_obeys .tcp _).bind
    intro _ _ _
    apply (startThread_obeys .timeout _).bind
    intro _ _ _
    trivial
  have hudp : (store .running 1 >>= fun _ => startThread .tcp .tcpThread >>= fun _ =>
      startThread .timeout .timeoutThread >>= fun _ => Program.ret (0 : Int)).Obeys operating
      (fun _ _ => True) () :=
    ⟨trivial, fun _ _ => hthreads⟩
  have hclose : (load .tcpSocket >>= fun tcp => platformClose tcp >>= fun _ =>
      Program.ret (-1 : Int)).Obeys operating (fun _ _ => True) () :=
    ⟨trivial, fun _ _ => ⟨trivial, fun _ _ => trivial⟩⟩
  unfold robotProtocolStart
  apply obeys_keep trivial (fun _ => rfl)
  intro tcp _
  refine obeys_keep (trivial) (fun _ => rfl) ?_
  intro _ _
  apply obeys_keep trivial (fun _ => rfl)
  intro tcp _
  refine operating_if ?_ ?_
  · trivial
  apply obeys_keep trivial (fun _ => rfl)
  intro tcp _
  apply obeys_keep trivial (fun _ => rfl)
  intro bound _
  apply operating_if hclose
  apply obeys_keep trivial (fun _ => rfl)
  intro tcp _
  apply obeys_keep trivial (fun _ => rfl)
  intro listening _
  apply operating_if hclose
  apply obeys_keep trivial (fun _ => rfl)
  intro udp _
  refine obeys_keep (trivial) (fun _ => rfl) ?_
  intro _ _
  apply obeys_keep trivial (fun _ => rfl)
  intro udp _
  apply operating_if hclose
  apply obeys_keep trivial (fun _ => rfl)
  intro udp _
  apply obeys_keep trivial (fun _ => rfl)
  intro bound _
  apply operating_if _ hudp
  apply obeys_keep trivial (fun _ => rfl)
  intro tcp _
  apply obeys_keep trivial (fun _ => rfl)
  intro _ _
  exact ⟨trivial, fun _ _ => ⟨trivial, fun _ _ => trivial⟩⟩

theorem robotProtocolStop_obeys : robotProtocolStop.Obeys operating (fun _ _ => True) () := by
  have hsockets : (stopClient >>= fun _ => closeSocket .tcpSocket >>= fun _ =>
      closeSocket .udpSocket).Obeys operating (fun _ _ => True) () := by
    apply obeys_keep trivial (fun _ => rfl)
    intro _ _
    apply (closeSocket_obeys _).bind
    intro _ _ _
    exact closeSocket_obeys _
  have hjoin : (joinThread .tcpThread >>= fun _ => joinThread .timeoutThread >>= fun _ =>
      stopClient >>= fun _ => closeSocket .tcpSocket >>= fun _ =>
      closeSocket .udpSocket).Obeys operating (fun _ _ => True) () := by
    apply (joinThread_obeys _).bind
    intro _ _ _
    apply (joinThread_obeys _).bind
    intro _ _ _
    exact hsockets
  unfold robotProtocolStop
  refine obeys_keep (trivial) (fun _ => rfl) ?_
  intro _ _
  apply obeys_keep trivial (fun _ => rfl)
  intro tcp _
  apply obeys_ite
  · intro _
    apply obeys_keep trivial (fun _ => rfl)
    intro tcp _
    apply obeys_keep trivial (fun _ => rfl)
    intro _ _
    exact hjoin
  · intro _
    exact hjoin

theorem application_of_operating {α : Type} {p : ServerProgram α}
    (hp : p.Obeys operating (fun _ _ => True) ()) : p.Obeys application (fun _ _ => True) () := by
  have hgood : ∀ m c, operating.good m c → application.good (id m) c := by
    intro m c hgood
    cases c with
    | free block => exact hgood.elim
    | lockDestroy => trivial
    | _ => exact hgood
  exact hp.embed id hgood (fun _ _ _ h => h) (fun _ _ _ => rfl) fun _ _ h => h

theorem robotProtocolDestroy_obeys :
    robotProtocolDestroy.Obeys application (fun _ _ => True) () := by
  unfold robotProtocolDestroy
  apply (application_of_operating robotProtocolStop_obeys).bind
  intro _ _ _
  exact ⟨trivial, fun _ _ => ⟨rfl, fun _ _ => trivial⟩⟩

end Application

theorem timeoutThreadFunc_obeys :
    timeoutThreadFunc.Obeys timeoutRole (fun _ phase => phase.judged = false) ⟨none, false⟩ := by
  unfold timeoutThreadFunc
  apply obeys_keep rfl (fun _ => rfl)
  intro running _
  apply obeys_ite
  · intro _
    rfl
  · intro _
    apply obeys_call rfl
    intro now _
    refine obeys_call ⟨rfl, rfl⟩ ?_
    intro idle _
    apply obeys_ite
    · intro hidle
      exact ⟨hidle, fun _ _ => rfl⟩
    · intro hidle
      exact eq_false_of_ne_true hidle

section Tcp

theorem watchClient_obeys (listener nfd : Int) :
    (watchClient listener nfd).Obeys tcpRole (fun _ phase => phase = .waiting) .waiting := by
  unfold watchClient
  apply obeys_keep trivial (fun _ => rfl)
  intro connected _
  apply obeys_ite
  · intro _
    apply obeys_keep trivial (fun _ => rfl)
    intro socket _
    apply obeys_ite
    · intro _
      apply obeys_keep trivial (fun _ => rfl)
      intro client _
      apply obeys_keep trivial (fun _ => rfl)
      intro socket _
      dsimp only
      apply obeys_ite
      · intro _
        exact ⟨trivial, fun _ _ => rfl⟩
      · intro _
        rfl
    · intro _
      rfl
  · intro _
    rfl

theorem acceptClient_obeys :
    acceptClient.Obeys tcpRole (fun _ phase => phase = .waiting) .waiting := by
  unfold acceptClient
  apply obeys_keep trivial (fun _ => rfl)
  intro listener _
  apply obeys_keep trivial (fun _ => rfl)
  intro accepted _
  apply obeys_ite
  · intro _
    apply obeys_keep trivial (fun _ => rfl)
    intro added _
    apply obeys_ite
    · intro _
      exact ⟨trivial, fun _ _ => rfl⟩
    · intro _
      rfl
  · intro _
    rfl

theorem tcpRole_readHeader (socket : Int) (result : Int × ProtocolHeader) :
    tcpRole.next .waiting (.readHeader socket) result =
      if result.1 = sizeofProtocolHeader then .handling socket false else .waiting := rfl

theorem serviceClient_obeys (cfg : ServerConfig) :
    (serviceClient cfg).Obeys tcpRole (fun _ _ => True) .waiting := by
  unfold serviceClient
  apply obeys_keep trivial (fun _ => rfl)
  intro socket _
  apply obeys_call trivial
  intro result _
  rw [tcpRole_readHeader]
  apply obeys_ite
  · intro hnone
    rw [if_neg (by rw [sizeofProtocolHeader]; omega)]
    exact ⟨trivial, fun _ _ => trivial⟩
  · intro hsome
    apply obeys_ite
    · intro hwhole
      rw [if_pos hwhole]
      exact (handleMessage_obeys cfg result.2).embed (TcpPhase.handling socket) (fun _ _ h => h)
        (fun _ _ _ h => h) (fun _ _ _ => rfl) (fun _ _ _ => trivial)
    · intro hpartial
      trivial

/-- A round of the TCP thread. -/
theorem tcpThreadFunc_obeys (cfg : ServerConfig) :
    (tcpThreadFunc cfg).Obeys tcpRole (fun _ _ => True) .waiting := by
  have hservice : ∀ readFds : List Int, (loadConnected >>= fun connected =>
      if connected then
        loadSocket >>= fun socket =>
          if socket ∈ readFds then serviceClient cfg >>= fun _ => pure Round.again
          else pure Round.again
      else pure Round.again).Obeys tcpRole (fun _ _ => True) .waiting := by
    intro readFds
    apply obeys_keep trivial (fun _ => rfl)
    intro connected _
    apply obeys_ite
    · intro _
      apply obeys_keep trivial (fun _ => rfl)
      intro socket _
      apply obeys_ite
      · intro _
        apply (serviceClient_obeys cfg).bind
        intro _ _ _
        trivial
      · intro _
        trivial
    · intro _
      trivial
  unfold tcpThreadFunc
  apply obeys_keep trivial (fun _ => rfl)
  intro running _
  apply obeys_ite
  · intro _
    trivial
  · intro _
    apply obeys_keep trivial (fun _ => rfl)
    intro listener _
    apply obeys_keep trivial (fun _ => rfl)
    intro nfd _
    apply (watchClient_obeys listener nfd).bind
    intro watched _ hphase
    rw [hphase]
    apply obeys_keep trivial (fun _ => rfl)
    intro ready _
    cases ready with
    | error errno =>
        dsimp only
        apply obeys_ite
        · intro _
          trivial
        · intro _
          apply obeys_ite
          · intro _
            apply obeys_keep trivial (fun _ => rfl)
            intro connected _
            apply obeys_ite
            · intro _
              exact ⟨trivial, fun _ _ => trivial⟩
            · intro _
              trivial
          · intro _
            trivial
    | ok readFds =>
        dsimp only
        apply obeys_ite
        · intro _
          trivial
        · intro _
          apply obeys_keep trivial (fun _ => rfl)
          intro listener _
          apply obeys_ite
          · intro _
            apply acceptClient_obeys.bind
            intro _ _ hphase
            rw [hphase]
            exact hservice readFds
          · intro _
            exact hservice readFds

end Tcp

end YaskawaComms.Server
