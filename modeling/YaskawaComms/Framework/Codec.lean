import YaskawaComms.Framework.LittleEndian
import Mathlib.Data.List.Basic

/-!
# Fixed-size layouts

A layout writes each value of a type as the same number of bytes and reads it back. Layouts of
records and arrays are put together from those of their parts; what a memory holds at an address is
read part by part in the same way.
-/

namespace YaskawaComms

structure Codec (α : Type) where
  size : Nat
  encode : α → List UInt8
  decode : List UInt8 → α
  encode_length : ∀ a, (encode a).length = size
  decode_encode : ∀ a, decode (encode a) = a

namespace Codec

variable {α β : Type}

def uint32 : Codec UInt32 where
  size := 4
  encode n := littleEndian 4 n.toNat
  decode bs := UInt32.ofNat (ofLittleEndian bs)
  encode_length n := littleEndian_length 4 n.toNat
  decode_encode n := by
    rw [ofLittleEndian_littleEndian 4 _ n.toNat_lt, UInt32.ofNat_toNat]

def uint64 : Codec UInt64 where
  size := 8
  encode n := littleEndian 8 n.toNat
  decode bs := UInt64.ofNat (ofLittleEndian bs)
  encode_length n := littleEndian_length 8 n.toNat
  decode_encode n := by
    rw [ofLittleEndian_littleEndian 8 _ n.toNat_lt, UInt64.ofNat_toNat]

/-- One value after another, without padding. -/
def pair (left : Codec α) (right : Codec β) : Codec (α × β) where
  size := left.size + right.size
  encode p := left.encode p.1 ++ right.encode p.2
  decode bs := (left.decode (bs.take left.size), right.decode (bs.drop left.size))
  encode_length p := by
    rw [List.length_append, left.encode_length, right.encode_length]
  decode_encode p := by
    rw [List.take_left' (left.encode_length p.1), List.drop_left' (left.encode_length p.1),
      left.decode_encode, right.decode_encode]

/-- The layout of a type whose values are made from those of another one. -/
def map (codec : Codec α) (make : α → β) (parts : β → α) (make_parts : ∀ b, make (parts b) = b) :
    Codec β where
  size := codec.size
  encode b := codec.encode (parts b)
  decode bs := make (codec.decode bs)
  encode_length b := codec.encode_length (parts b)
  decode_encode b := by rw [codec.decode_encode, make_parts]

/-- Values one after another. -/
def encodeAll (codec : Codec α) (xs : List α) : List UInt8 := xs.flatMap codec.encode

theorem encodeAll_length (codec : Codec α) (xs : List α) :
    (codec.encodeAll xs).length = xs.length * codec.size := by
  induction xs with
  | nil => exact (Nat.zero_mul _).symm
  | cons x xs ih =>
      rw [encodeAll, List.flatMap_cons, List.length_append, codec.encode_length, ← encodeAll, ih,
        List.length_cons, Nat.succ_mul, Nat.add_comm]

theorem encodeAll_slice (codec : Codec α) {xs : List α} {i : Nat} {x : α} (hx : xs[i]? = some x) :
    ((codec.encodeAll xs).drop (i * codec.size)).take codec.size = codec.encode x := by
  induction xs generalizing i with
  | nil => cases hx
  | cons y xs ih =>
      rw [encodeAll, List.flatMap_cons]
      cases i with
      | zero =>
          cases hx
          rw [Nat.zero_mul, List.drop_zero, List.take_left' (codec.encode_length _)]
      | succ i =>
          rw [Nat.succ_mul, Nat.add_comm, ← List.drop_drop, List.drop_left' (codec.encode_length _)]
          exact ih hx

def array (codec : Codec α) (n : Nat) : Codec (Vector α n) where
  size := n * codec.size
  encode v := codec.encodeAll v.toList
  decode bs := .ofFn fun i => codec.decode ((bs.drop (i * codec.size)).take codec.size)
  encode_length v := by rw [encodeAll_length, Vector.length_toList]
  decode_encode v := by
    apply Vector.ext
    intro i hi
    have hx : v.toList[i]? = some v[i] := by simp
    rw [Vector.getElem_ofFn, codec.encodeAll_slice hx, codec.decode_encode]

end Codec

/-- The bytes of a memory in a window. -/
def window (data : Nat → UInt8) (start width : Nat) : List UInt8 :=
  (List.range width).map fun i => data (start + i)

@[simp] theorem window_length (data : Nat → UInt8) (start width : Nat) :
    (window data start width).length = width := by
  rw [window, List.length_map, List.length_range]

/-- The memory holds these bytes from an address on. -/
def HoldsBytes (data : Nat → UInt8) (start : Nat) (bs : List UInt8) : Prop :=
  window data start bs.length = bs

section HoldsBytes

variable {α : Type} {data : Nat → UInt8} {start : Nat} {bs cs : List UInt8}

theorem window_add (data : Nat → UInt8) (start m n : Nat) :
    window data start (m + n) = window data start m ++ window data (start + m) n := by
  rw [window, List.range_add, List.map_append, List.map_map, window, window]
  congr 2
  funext i
  exact congrArg data (Nat.add_assoc start m i).symm

theorem holdsBytes_append :
    HoldsBytes data start (bs ++ cs) ↔ HoldsBytes data start bs ∧ HoldsBytes data (start + bs.length) cs := by
  rw [HoldsBytes, List.length_append, window_add]
  constructor
  · intro h
    exact List.append_inj h (window_length _ _ _)
  · rintro ⟨hbs, hcs⟩
    rw [hbs, hcs]

theorem HoldsBytes.decode {codec : Codec α} {a : α} (h : HoldsBytes data start (codec.encode a)) :
    codec.decode (window data start codec.size) = a := by
  rw [HoldsBytes, codec.encode_length] at h
  rw [h, codec.decode_encode]

theorem HoldsBytes.element {codec : Codec α} {xs : List α}
    (h : HoldsBytes data start (codec.encodeAll xs)) {i : Nat} {x : α} (hx : xs[i]? = some x) :
    HoldsBytes data (start + i * codec.size) (codec.encode x) := by
  induction xs generalizing i start with
  | nil => cases hx
  | cons y xs ih =>
      rw [Codec.encodeAll, List.flatMap_cons, holdsBytes_append, codec.encode_length] at h
      cases i with
      | zero =>
          cases hx
          rw [Nat.zero_mul]
          exact h.1
      | succ i =>
          rw [Nat.succ_mul, Nat.add_comm (i * _), ← Nat.add_assoc]
          exact ih h.2 hx

theorem HoldsBytes.number {width n : Nat} (h : HoldsBytes data start (littleEndian width n))
    (hn : n < 256 ^ width) : ofLittleEndian (window data start width) = n := by
  rw [HoldsBytes, littleEndian_length] at h
  rw [h, ofLittleEndian_littleEndian width n hn]

theorem holdsBytes_of_getElem? (h : ∀ i b, bs[i]? = some b → data (start + i) = b) :
    HoldsBytes data start bs := by
  apply List.ext_getElem (window_length _ _ _)
  intro i hi hi'
  simp only [window, List.getElem_map, List.getElem_range]
  exact h i _ (List.getElem?_eq_getElem hi')

end HoldsBytes

end YaskawaComms
