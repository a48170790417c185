import YaskawaComms.Framework.LittleEndian
import Mathlib.Tactic.NormNum

/-!
# Wire layout

The packed header that starts every message and the sizes of the packed payload structures.
-/

namespace YaskawaComms.Protocol

def protocolMagicNumber : UInt32 := 0x56494152
def protocolVersion : UInt8 := 7

/-- The bytes of the magic number in the order in which they are sent. -/
def needle : List UInt8 := [0x52, 0x41, 0x49, 0x56]

def sizeofProtocolHeader : Nat := 18
def sizeofMoveGoalPayload : Nat := 12
def sizeofTrajectoryPoint : Nat := 264
def sizeofTolerance : Nat := 256
def sizeofErrorPayload : Nat := 132
def sizeofUdpPortRegistrationPayload : Nat := 2
def sizeofUdpPortRegistrationV2Payload : Nat := 3

structure ProtocolHeader where
  magicNumber : UInt32
  version : UInt8
  messageType : UInt8
  timestampMs : UInt64
  payloadLength : UInt32
  deriving DecidableEq

def ProtocolHeader.bytes (h : ProtocolHeader) : List UInt8 :=
  littleEndian 4 h.magicNumber.toNat ++ [h.version, h.messageType] ++
    littleEndian 8 h.timestampMs.toNat ++ littleEndian 4 h.payloadLength.toNat

/-- The header object that 18 bytes of memory make up. -/
def ProtocolHeader.ofBytes (bs : List UInt8) : ProtocolHeader where
  magicNumber := UInt32.ofNat (ofLittleEndian (bs.take 4))
  version := bs.getD 4 0
  messageType := bs.getD 5 0
  timestampMs := UInt64.ofNat (ofLittleEndian ((bs.drop 6).take 8))
  payloadLength := UInt32.ofNat (ofLittleEndian ((bs.drop 14).take 4))

@[simp] theorem ProtocolHeader.bytes_length (h : ProtocolHeader) :
    h.bytes.length = sizeofProtocolHeader := by
  simp [ProtocolHeader.bytes, sizeofProtocolHeader]

/-- Decoding gives back the header that was encoded, whatever follows it. -/
theorem ProtocolHeader.ofBytes_append (h : ProtocolHeader) (rest : List UInt8) :
    ProtocolHeader.ofBytes (h.bytes ++ rest) = h := by
  let magic := littleEndian 4 h.magicNumber.toNat
  let time := littleEndian 8 h.timestampMs.toNat
  let length := littleEndian 4 h.payloadLength.toNat
  have hbytes : h.bytes ++ rest = magic ++ ([h.version, h.messageType] ++ (time ++ (length ++ rest))) := by
    simp only [ProtocolHeader.bytes, magic, time, length, List.append_assoc]
  have hmagic : (h.bytes ++ rest).take 4 = magic := by
    rw [hbytes]
    exact List.take_left' (littleEndian_length _ _)
  have htail : (h.bytes ++ rest).drop 4 = [h.version, h.messageType] ++ (time ++ (length ++ rest)) := by
    rw [hbytes]
    exact List.drop_left' (littleEndian_length _ _)
  have hafter : (h.bytes ++ rest).drop 6 = time ++ (length ++ rest) := by
    rw [show 6 = 4 + 2 from rfl, ← List.drop_drop, htail]
    rfl
  have hlast : (h.bytes ++ rest).drop 14 = length ++ rest := by
    rw [show 14 = 6 + 8 from rfl, ← List.drop_drop, hafter]
    exact List.drop_left' (littleEndian_length _ _)
  have hversion : (h.bytes ++ rest).getD 4 0 = h.version := by
    rw [List.getD_eq_getElem?_getD, ← List.head?_drop, htail]
    rfl
  have htype : (h.bytes ++ rest).getD 5 0 = h.messageType := by
    rw [List.getD_eq_getElem?_getD, ← List.head?_drop, show 5 = 4 + 1 from rfl, ← List.drop_drop, htail]
    rfl
  rw [ProtocolHeader.ofBytes, hmagic, hafter, hlast, hversion, htype,
    List.take_left' (littleEndian_length _ _), List.take_left' (littleEndian_length _ _),
    ofLittleEndian_littleEndian 4 _ h.magicNumber.toNat_lt,
    ofLittleEndian_littleEndian 8 _ h.timestampMs.toNat_lt,
    ofLittleEndian_littleEndian 4 _ h.payloadLength.toNat_lt,
    UInt32.ofNat_toNat, UInt64.ofNat_toNat, UInt32.ofNat_toNat]

theorem ProtocolHeader.ofBytes_bytes (h : ProtocolHeader) : ProtocolHeader.ofBytes h.bytes = h := by
  simpa using h.ofBytes_append []

theorem ofBytes_magicNumber_iff (bs : List UInt8) (h : 4 ≤ bs.length) :
    (ProtocolHeader.ofBytes bs).magicNumber = protocolMagicNumber ↔ bs.take 4 = needle := by
  obtain ⟨a, b, c, d, rest, rfl⟩ : ∃ a b c d rest, bs = a :: b :: c :: d :: rest := by
    match bs, h with
    | a :: b :: c :: d :: rest, _ => exact ⟨a, b, c, d, rest, rfl⟩
  have hlt : ofLittleEndian [a, b, c, d] < UInt32.size := by
    have hlt := ofLittleEndian_lt [a, b, c, d]
    norm_num [UInt32.size] at hlt ⊢
    exact hlt
  have hvalue : (0x56494152 : UInt32).toNat = 0x56494152 := rfl
  have hbytes : (0x52 : UInt8).toNat = 0x52 ∧ (0x41 : UInt8).toNat = 0x41 ∧
      (0x49 : UInt8).toNat = 0x49 ∧ (0x56 : UInt8).toNat = 0x56 := ⟨rfl, rfl, rfl, rfl⟩
  have ha := a.toNat_lt
  have hb := b.toNat_lt
  have hc := c.toNat_lt
  have hd := d.toNat_lt
  simp only [ProtocolHeader.ofBytes, List.take_succ_cons, List.take_zero, protocolMagicNumber,
    needle, List.cons.injEq, and_true]
  rw [← UInt32.toNat_inj, ← UInt8.toNat_inj, ← UInt8.toNat_inj, ← UInt8.toNat_inj,
    ← UInt8.toNat_inj, UInt32.toNat_ofNat_of_lt' hlt, hvalue, hbytes.1, hbytes.2.1, hbytes.2.2.1,
    hbytes.2.2.2]
  simp only [ofLittleEndian]
  omega

end YaskawaComms.Protocol
