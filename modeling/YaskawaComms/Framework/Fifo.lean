import Mathlib.Data.List.Rotate

/-!
# Bounded queues in cyclic storage

A queue of at most `capacity` items, and the layout of such a queue in a list that is used
cyclically: reading the list from the position of the oldest item gives the items followed by
unused slots. Copies that cross the end of the storage are split in two.
-/

namespace YaskawaComms

/-- A first-in first-out queue that never holds more than `capacity` items. -/
structure BoundedFifo (α : Type) (capacity : Nat) where
  items : List α
  fits : items.length ≤ capacity

namespace BoundedFifo

variable {α : Type} {capacity : Nat}

def empty : BoundedFifo α capacity := ⟨[], Nat.zero_le _⟩

def used (q : BoundedFifo α capacity) : Nat := q.items.length

def free (q : BoundedFifo α capacity) : Nat := capacity - q.items.length

/-- Append as many of the items as fit. -/
def push (q : BoundedFifo α capacity) (xs : List α) : BoundedFifo α capacity :=
  ⟨q.items ++ xs.take q.free, by
    have h := q.fits
    simp only [free, List.length_append, List.length_take]
    omega⟩

/-- Remove the oldest `n` items, or all of them. -/
def pop (q : BoundedFifo α capacity) (n : Nat) : BoundedFifo α capacity :=
  ⟨q.items.drop n, by
    have h := q.fits
    simp only [List.length_drop]
    omega⟩

theorem used_add_free (q : BoundedFifo α capacity) : q.used + q.free = capacity := by
  have h := q.fits
  simp only [used, free]
  omega

end BoundedFifo

variable {α : Type}

theorem cyclic_index {start k size : Nat} (hstart : start < size) (hk : k ≤ size) :
    (start + k < size ∧ (start + k) % size = start + k) ∨
      (size ≤ start + k ∧ (start + k) % size + size = start + k) := by
  by_cases hwrap : start + k < size
  · exact Or.inl ⟨hwrap, Nat.mod_eq_of_lt hwrap⟩
  · rw [Nat.mod_eq_sub_mod (by omega), Nat.mod_eq_of_lt (by omega)]
    exact Or.inr ⟨by omega, by omega⟩

theorem cyclic_ne {start k j size : Nat} (hlt : k < j) (hturn : j < k + size) :
    (start + k) % size ≠ (start + j) % size := by
  intro heq
  have hzero : (start + j - (start + k)) % size = 0 := Nat.sub_mod_eq_zero_of_mod_eq heq.symm
  have hle := Nat.le_of_dvd (by omega) (Nat.dvd_of_mod_eq_zero hzero)
  omega

/-- Store a block over part of a list, starting at position `start`. -/
def overwrite (xs : List α) (start : Nat) (block : List α) : List α :=
  xs.take start ++ block ++ xs.drop (start + block.length)

theorem overwrite_length (xs : List α) (start : Nat) (block : List α)
    (h : start + block.length ≤ xs.length) : (overwrite xs start block).length = xs.length := by
  simp only [overwrite, List.length_append, List.length_take, List.length_drop]
  omega

theorem take_overwrite (xs : List α) (start : Nat) (block : List α) (m : Nat)
    (hstart : start ≤ xs.length) (hm : m ≤ block.length) :
    (overwrite xs start block).take (start + m) = xs.take start ++ block.take m := by
  have hfront : (xs.take start).length = start := List.length_take_of_le hstart
  rw [overwrite, List.append_assoc, List.take_append, hfront, Nat.add_sub_cancel_left,
    List.take_of_length_le (by omega), List.take_append_of_le_length hm]

theorem rotate_eq_drop_append (xs : List α) (i : Nat) (hi : i ≤ xs.length) :
    xs.rotate i = xs.drop i ++ xs.take i :=
  List.rotate_eq_drop_append_take hi

theorem take_rotate (xs : List α) (i n : Nat) (hi : i ≤ xs.length) (hn : n ≤ xs.length) :
    (xs.rotate i).take n =
      (xs.drop i).take n ++ xs.take (n - (xs.length - i)) := by
  rw [rotate_eq_drop_append xs i hi, List.take_append, List.length_drop, List.take_take]
  congr 2
  omega

theorem rotate_overwrite (xs : List α) (i : Nat) (block : List α)
    (h : i + block.length ≤ xs.length) :
    (overwrite xs i block).rotate i = block ++ (xs.rotate i).drop block.length := by
  have hlen := overwrite_length xs i block h
  have htake : (xs.take i).length = i := by
    rw [List.length_take]
    omega
  rw [rotate_eq_drop_append _ i (by omega), rotate_eq_drop_append xs i (by omega)]
  have hdrop : (overwrite xs i block).drop i = block ++ xs.drop (i + block.length) := by
    rw [overwrite, List.append_assoc, List.drop_append, htake, Nat.sub_self, List.drop_zero,
      List.drop_eq_nil_of_le (by omega), List.nil_append]
  have hfront : (overwrite xs i block).take i = xs.take i := by
    rw [overwrite, List.append_assoc, List.take_append, htake, Nat.sub_self, List.take_zero,
      List.append_nil, List.take_of_length_le (by omega)]
  rw [hdrop, hfront, List.append_assoc, List.drop_append, List.drop_drop, List.length_drop,
    show block.length - (xs.length - i) = 0 by omega, List.drop_zero]

/-- A block that crosses the end is stored in two pieces, the second from position `0` on. -/
theorem rotate_overwrite_wrap (xs : List α) (i : Nat) (block : List α) (hi : i ≤ xs.length)
    (hfit : block.length ≤ xs.length) (hwrap : xs.length - i ≤ block.length) :
    (overwrite (overwrite xs i (block.take (xs.length - i))) 0
        (block.drop (xs.length - i))).rotate i =
      block ++ (xs.rotate i).drop block.length := by
  have hfirst : (block.take (xs.length - i)).length = xs.length - i := by
    rw [List.length_take]
    omega
  have hback : xs.take i ++ block.take (xs.length - i) =
      overwrite xs i (block.take (xs.length - i)) := by
    rw [overwrite, hfirst, show i + (xs.length - i) = xs.length by omega, List.drop_length,
      List.append_nil]
  rw [← hback]
  have hsecond : (block.drop (xs.length - i)).length ≤ (xs.take i).length := by
    rw [List.length_drop, List.length_take]
    omega
  have hstored : overwrite (xs.take i ++ block.take (xs.length - i)) 0 (block.drop (xs.length - i)) =
      (block.drop (xs.length - i) ++ (xs.take i).drop (block.drop (xs.length - i)).length) ++
        block.take (xs.length - i) := by
    rw [overwrite, List.take_zero, List.nil_append, Nat.zero_add, List.drop_append,
      Nat.sub_eq_zero_of_le hsecond, List.drop_zero, List.append_assoc]
  have hi' : (block.drop (xs.length - i) ++
      (xs.take i).drop (block.drop (xs.length - i)).length).length = i := by
    simp only [List.length_append, List.length_drop, List.length_take]
    omega
  have hrotated := List.rotate_append_length_eq (block.drop (xs.length - i) ++
    (xs.take i).drop (block.drop (xs.length - i)).length) (block.take (xs.length - i))
  rw [hi'] at hrotated
  have htail : (xs.rotate i).drop block.length =
      (xs.take i).drop (block.drop (xs.length - i)).length := by
    have hnil : (xs.drop i).drop block.length = [] :=
      List.drop_eq_nil_of_le (by rw [List.length_drop]; omega)
    rw [rotate_eq_drop_append xs i hi, List.drop_append, hnil, List.nil_append, List.length_drop,
      List.length_drop]
  rw [hstored, hrotated, htail, ← List.append_assoc, List.take_append_drop]

end YaskawaComms
