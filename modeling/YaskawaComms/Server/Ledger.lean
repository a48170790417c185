import YaskawaComms.Server.Histories
import Mathlib.Data.Finset.Basic

/-!
# The ledger of descriptors

The descriptors in use, as the calls of the system open and close them, and what the platform and the
application promise about them.
-/

namespace YaskawaComms.Server

open Protocol Program

/-- The descriptors in use, those of the server's own sockets and those of connections. It is
`astray` once something that is not in use has been shut down or closed, and `swept` from the
clean-up of a stop on until a thread is created. -/
structure Ledger where
  sockets : Finset Int
  clients : Finset Int
  astray : Bool
  swept : Bool

namespace Ledger

def empty : Ledger := ⟨∅, ∅, false, false⟩

def Uses (l : Ledger) (fd : Int) : Prop := fd ∈ l.sockets ∨ fd ∈ l.clients

instance (l : Ledger) (fd : Int) : Decidable (l.Uses fd) := inferInstanceAs (Decidable (_ ∨ _))

def close (l : Ledger) (fd : Int) : Ledger :=
  if fd ∈ l.sockets then { l with sockets := l.sockets.erase fd }
  else if fd ∈ l.clients then { l with clients := l.clients.erase fd }
  else { l with astray := true }

/-- What a call does to the descriptors. -/
def note (s : System) : Called → Ledger → Ledger
  | ⟨.socket, fd⟩, l => if 0 ≤ fd then { l with sockets := insert fd l.sockets } else l
  | ⟨.accept _, result⟩, l =>
      if 0 ≤ result.1 then { l with clients := insert result.1 l.clients } else l
  | ⟨.close fd, _⟩, l => l.close fd
  | ⟨.shutdown fd, _⟩, l => if l.Uses fd then l else { l with astray := true }
  | ⟨.removeClient, _⟩, l =>
      if s.shared.ctx.client.connected then l.close s.shared.ctx.client.socket else l
  | ⟨.stopClient, _⟩, l =>
      { (if s.shared.ctx.client.connected then l.close s.shared.ctx.client.socket else l) with
        swept := true }
  | ⟨.pthreadCreate _, _⟩, l => { l with swept := false }
  | _, l => l

/-- The platform hands out numbers that are not in use. -/
def Fresh (l : Ledger) : Called → Prop
  | ⟨.socket, fd⟩ => ¬ l.Uses fd
  | ⟨.accept _, result⟩ => ¬ l.Uses result.1
  | _ => True

theorem close_socket {l : Ledger} {fd : Int} (h : fd ∈ l.sockets) :
    l.close fd = { l with sockets := l.sockets.erase fd } := if_pos h

theorem close_client {l : Ledger} {fd : Int} (hsocket : fd ∉ l.sockets) (h : fd ∈ l.clients) :
    l.close fd = { l with clients := l.clients.erase fd } := by
  rw [close, if_neg hsocket, if_pos h]

end Ledger

/-- The server is started only when it is not running, and stopped only when it is running or has
no sockets: a failed start leaves the numbers of closed sockets behind. -/
def System.StopsSound (s : System) : Move → Prop
  | .job .start => s.shared.ctx.running = 0
  | .job _ => s.shared.ctx.running ≠ 0 ∨ (s.shared.ctx.tcpSocket < 0 ∧ s.shared.ctx.udpSocket < 0)
  | _ => True

instance (s : System) (move : Move) : Decidable (s.StopsSound move) :=
  match move with
  | .job .start => inferInstanceAs (Decidable (_ = _))
  | .job .stop => inferInstanceAs (Decidable (_ ∨ _))
  | .job .destroy => inferInstanceAs (Decidable (_ ∨ _))
  | .app _ => isTrue trivial
  | .worker _ _ => isTrue trivial
  | .reading _ => isTrue trivial
  | .tick _ => isTrue trivial

/-- The system with its descriptors. -/
abbrev System.opening (cfg : ServerConfig) : Move → System × Ledger → Option (System × Ledger) :=
  System.recording cfg Ledger.note

/-- A step as the platform and the application promise it. -/
structure System.Proper (cfg : ServerConfig) (t : System × Ledger) (move : Move) : Prop where
  fresh : ∀ made, t.1.called cfg move = some made → t.2.Fresh made
  stops : t.1.StopsSound move

end YaskawaComms.Server
