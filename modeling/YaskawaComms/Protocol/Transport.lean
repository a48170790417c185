import Mathlib.Data.List.Basic

/-!
# The receiving end of a connection

The bytes the peer has sent, and a script that says how successive receive calls cut them up.
What the script does not say is the kindest case: a call gets all it asks for, as far as bytes
are left.
-/

namespace YaskawaComms.Protocol

inductive Errno where
  | eAgain
  | eWouldBlock
  | eIntr
  | eBadF
  | other (code : Nat)
  deriving DecidableEq

/-- What one receive call finds: nothing yet, or at most `n + 1` bytes. -/
inductive Cut where
  | wouldBlock
  | upTo (n : Nat)
  deriving DecidableEq

/-- What comes after the last byte. -/
inductive Ending where
  | silent
  | closed
  | failed (error : Errno)
  deriving DecidableEq

structure Transport where
  stream : List UInt8
  cuts : List Cut
  ending : Ending
  errno : Errno
  deriving DecidableEq

/-- The bytes that a call obtained, or `none` for the result -1. -/
abbrev Received := Option (List UInt8)

namespace Transport

/-- A closed connection yields 0 bytes and leaves `errno` alone. -/
def afterLast (t : Transport) : Received × Transport :=
  match t.ending with
  | .silent => (none, { t with errno := .eAgain })
  | .closed => (some [], t)
  | .failed error => (none, { t with errno := error })

def deliver (t : Transport) (len : Nat) : Received × Transport :=
  if t.stream = [] then t.afterLast
  else (some (t.stream.take len), { t with stream := t.stream.drop len })

/-- `recv` with `MSG_DONTWAIT`. -/
def recvDontWait (t : Transport) (len : Nat) : Received × Transport :=
  if len = 0 then (some [], t)
  else match t.cuts with
    | [] => t.deliver len
    | .wouldBlock :: cuts => (none, { t with cuts := cuts, errno := .eAgain })
    | .upTo n :: cuts => deliver { t with cuts := cuts } (min (n + 1) len)

/-- The script once the times at which nothing has arrived are over. -/
def awake : List Cut → List Cut
  | .wouldBlock :: cuts => awake cuts
  | cuts => cuts

/-- `recv` with `MSG_WAITALL`; without a value it waits for ever. -/
def recvWaitAll (t : Transport) (len : Nat) : Option (Received × Transport) :=
  if t.stream = [] ∧ t.ending = .silent then none
  else some (recvDontWait { t with cuts := awake t.cuts } len)

theorem deliver_some {t t' : Transport} {len : Nat} {bytes : List UInt8}
    (h : t.deliver len = (some bytes, t')) :
    bytes = t.stream.take len ∧ t'.stream = t.stream.drop len := by
  unfold deliver at h
  split_ifs at h with hempty
  · unfold afterLast at h
    cases hending : t.ending <;> simp [hending] at h
    obtain ⟨rfl, rfl⟩ := h
    simp [hempty]
  · cases h
    exact ⟨rfl, rfl⟩

theorem recvDontWait_some {t t' : Transport} {len : Nat} {bytes : List UInt8}
    (h : t.recvDontWait len = (some bytes, t')) :
    bytes = t.stream.take bytes.length ∧ t'.stream = t.stream.drop bytes.length ∧
      bytes.length ≤ len := by
  have taken : ∀ n, bytes = t.stream.take n → t'.stream = t.stream.drop n → n ≤ len →
      bytes = t.stream.take bytes.length ∧ t'.stream = t.stream.drop bytes.length ∧
        bytes.length ≤ len := by
    intro n hbytes hstream hn
    subst hbytes
    rw [List.length_take, ← List.take_eq_take_min, hstream, ← List.drop_eq_drop_min]
    exact ⟨rfl, rfl, by omega⟩
  unfold recvDontWait at h
  split_ifs at h with hlen
  · cases h
    simp
  · split at h
    · obtain ⟨hbytes, hstream⟩ := deliver_some h
      exact taken len hbytes hstream (Nat.le_refl _)
    · cases h
    · next n cuts _ =>
        obtain ⟨hbytes, hstream⟩ := deliver_some h
        exact taken _ hbytes hstream (Nat.min_le_right _ _)

theorem recvWaitAll_bytes {t t' : Transport} {len : Nat} {bytes : List UInt8}
    (h : t.recvWaitAll len = some (some bytes, t')) :
    bytes = t.stream.take bytes.length ∧ t'.stream = t.stream.drop bytes.length ∧
      bytes.length ≤ len := by
  unfold recvWaitAll at h
  split at h
  · cases h
  · have hrecv := recvDontWait_some (Option.some.inj h)
    exact hrecv

theorem recvDontWait_length {t t' : Transport} {len : Nat} {bytes : List UInt8}
    (h : t.recvDontWait len = (some bytes, t')) :
    t'.stream.length + bytes.length = t.stream.length := by
  obtain ⟨htake, hdrop, -⟩ := recvDontWait_some h
  have hlength := congrArg List.length htake
  rw [List.length_take] at hlength
  rw [hdrop, List.length_drop]
  omega

theorem recvDontWait_consumes {t t' : Transport} {len : Nat} {bytes : List UInt8}
    (h : t.recvDontWait len = (some bytes, t')) (hempty : bytes ≠ []) :
    t'.stream.length < t.stream.length := by
  have hpos := List.length_pos_iff.mpr hempty
  have hlength := recvDontWait_length h
  omega

theorem deliver_le (t : Transport) (len : Nat) : (t.deliver len).2.stream.length ≤ t.stream.length := by
  unfold deliver
  split
  · unfold afterLast
    split <;> exact Nat.le_refl _
  · simp

theorem recvDontWait_le (t : Transport) (len : Nat) :
    (t.recvDontWait len).2.stream.length ≤ t.stream.length := by
  unfold recvDontWait
  split
  · exact Nat.le_refl _
  · split
    · exact deliver_le t len
    · exact Nat.le_refl _
    · next n cuts _ => exact deliver_le { t with cuts := cuts } _

theorem recvWaitAll_length {t t' : Transport} {len : Nat} {bytes : List UInt8}
    (h : t.recvWaitAll len = some (some bytes, t')) :
    t'.stream.length + bytes.length = t.stream.length := by
  unfold recvWaitAll at h
  split at h
  · cases h
  · have hlength := recvDontWait_length (Option.some.inj h)
    exact hlength

theorem recvWaitAll_le {t t' : Transport} {len : Nat} {received : Received}
    (h : t.recvWaitAll len = some (received, t')) : t'.stream.length ≤ t.stream.length := by
  unfold recvWaitAll at h
  split at h
  · cases h
  · have hle := recvDontWait_le { t with cuts := awake t.cuts } len
    rwa [Option.some.inj h] at hle

end Transport

end YaskawaComms.Protocol
