import Mathlib.Data.Finset.Basic
import Mathlib.Data.Finset.Lattice.Lemmas

/-!
# The use of a heap

A piece of code gets blocks from a heap and frees them. It keeps its balance by knowing which blocks
are in its hands: these are all that it has got and not freed yet, and together with the blocks that
were live before they are the live blocks.
-/

namespace YaskawaComms

/-- The live blocks, and the blocks that have been got and freed so far. -/
structure HeapUse (β : Type) where
  live : Finset β
  got : List β
  freed : List β

namespace HeapUse

variable {β : Type}

/-- New blocks: none is live yet, and they are different. -/
def Fresh (m : HeapUse β) (blocks : List β) : Prop := blocks.Nodup ∧ ∀ b ∈ blocks, b ∉ m.live

variable [DecidableEq β]

def get (m : HeapUse β) (blocks : List β) : HeapUse β :=
  { m with live := m.live ∪ blocks.toFinset, got := m.got ++ blocks }

def free (m : HeapUse β) (block : β) : HeapUse β :=
  { m with live := m.live.erase block, freed := m.freed ++ [block] }

/-- The block is live, and has been got more often than it has been freed. -/
def Owes (m : HeapUse β) (block : β) : Prop :=
  block ∈ m.live ∧ m.freed.count block < m.got.count block

/-- These blocks are in the hands, beside the blocks that were live before. -/
structure Holds (live : Finset β) (owned : List β) (m : HeapUse β) : Prop where
  distinct : owned.Nodup
  apart : ∀ b ∈ owned, b ∉ live
  live : m.live = live ∪ owned.toFinset
  balance : (owned ++ m.freed).Perm m.got

variable {live : Finset β} {owned blocks : List β} {m : HeapUse β} {block : β}

theorem holds_nothing (live : Finset β) : Holds live [] ⟨live, [], []⟩ where
  distinct := List.nodup_nil
  apart _ hb := absurd hb List.not_mem_nil
  live := by simp
  balance := List.Perm.refl _

theorem Holds.perm {owned' : List β} (h : m.Holds live owned) (hperm : owned.Perm owned') : m.Holds live owned' where
  distinct := hperm.nodup_iff.mp h.distinct
  apart b hb := h.apart b (hperm.mem_iff.mpr hb)
  live := by rw [h.live, List.toFinset_eq_of_perm _ _ hperm]
  balance := (hperm.symm.append_right _).trans h.balance

theorem Holds.get (h : m.Holds live owned) (hfresh : m.Fresh blocks) :
    (m.get blocks).Holds live (blocks ++ owned) where
  distinct := by
    apply List.Nodup.append hfresh.1 h.distinct
    intro b hblock howned
    apply hfresh.2 b hblock
    rw [h.live]
    exact Finset.mem_union_right _ (List.mem_toFinset.mpr howned)
  apart b hb := by
    rcases List.mem_append.mp hb with hblock | howned
    · intro hlive
      apply hfresh.2 b hblock
      rw [h.live]
      exact Finset.mem_union_left _ hlive
    · exact h.apart b howned
  live := by
    rw [HeapUse.get, h.live, List.toFinset_append, Finset.union_assoc,
      Finset.union_comm owned.toFinset]
  balance := by
    rw [HeapUse.get, List.append_assoc]
    exact List.perm_append_comm.trans (h.balance.append_right _)

theorem Holds.owes (h : m.Holds live (block :: owned)) : m.Owes block := by
  constructor
  · rw [h.live]
    exact Finset.mem_union_right _ (List.mem_toFinset.mpr List.mem_cons_self)
  · rw [← h.balance.count_eq, List.cons_append, List.count_cons_self, List.count_append]
    omega

theorem Holds.free (h : m.Holds live (block :: owned)) : (m.free block).Holds live owned where
  distinct := (List.nodup_cons.mp h.distinct).2
  apart b hb := h.apart b (List.mem_cons_of_mem _ hb)
  live := by
    have hapart : block ∉ live := h.apart block List.mem_cons_self
    have hother : block ∉ owned := (List.nodup_cons.mp h.distinct).1
    have hnew : block ∉ live ∪ owned.toFinset := by simp [hapart, hother]
    rw [HeapUse.free, h.live, List.toFinset_cons, Finset.union_insert, Finset.erase_insert hnew]
  balance := by
    rw [HeapUse.free, ← List.append_assoc]
    exact (List.perm_append_singleton _ _).trans h.balance

/-- Users of one heap: each has live blocks of its own, and beside these only the base is live. -/
structure Shares {ι : Type} (whole base : Finset β) (use : ι → HeapUse β) : Prop where
  apart : ∀ i j, i ≠ j → Disjoint (use i).live (use j).live
  separate : ∀ i, Disjoint base (use i).live
  whole : ∀ b, b ∈ whole ↔ b ∈ base ∨ ∃ i, b ∈ (use i).live

section Shares

variable {ι : Type} {whole base : Finset β} {use : ι → HeapUse β} {i : ι}

omit [DecidableEq β] in
theorem Shares.sub (h : Shares whole base use) (i : ι) : ∀ b ∈ (use i).live, b ∈ whole :=
  fun b hb => (h.whole b).mpr (Or.inr ⟨i, hb⟩)

omit [DecidableEq β] in
theorem Shares.fresh (h : Shares whole base use) (hdistinct : blocks.Nodup)
    (hnew : ∀ b ∈ blocks, b ∉ whole) (i : ι) : (use i).Fresh blocks :=
  ⟨hdistinct, fun b hb hlive => hnew b hb (h.sub i b hlive)⟩

variable [DecidableEq ι]

/-- One user gets blocks that are new to the heap. -/
theorem Shares.get (h : Shares whole base use) (hnew : ∀ b ∈ blocks, b ∉ whole) :
    Shares (whole ∪ blocks.toFinset) base (Function.update use i ((use i).get blocks)) := by
  have hother : ∀ j, j ≠ i → Disjoint ((use i).get blocks).live (use j).live := by
    intro j hj
    rw [HeapUse.get, Finset.disjoint_union_left]
    refine ⟨h.apart i j (Ne.symm hj), Finset.disjoint_left.mpr ?_⟩
    intro b hb hlive
    exact hnew b (List.mem_toFinset.mp hb) (h.sub j b hlive)
  refine ⟨?_, ?_, ?_⟩
  · intro j k hjk
    by_cases hj : j = i
    · subst hj
      rw [Function.update_self, Function.update_of_ne (Ne.symm hjk)]
      exact hother k (Ne.symm hjk)
    · rw [Function.update_of_ne hj]
      by_cases hk : k = i
      · subst hk
        rw [Function.update_self]
        exact (hother j hj).symm
      · rw [Function.update_of_ne hk]
        exact h.apart j k hjk
  · intro j
    by_cases hj : j = i
    · subst hj
      rw [Function.update_self, HeapUse.get, Finset.disjoint_union_right]
      refine ⟨h.separate j, Finset.disjoint_left.mpr ?_⟩
      intro b hbase hb
      exact hnew b (List.mem_toFinset.mp hb) ((h.whole b).mpr (Or.inl hbase))
    · rw [Function.update_of_ne hj]
      exact h.separate j
  · intro b
    rw [Finset.mem_union, h.whole b, Function.exists_update_iff use (fun _ u => b ∈ u.live),
      HeapUse.get, Finset.mem_union]
    constructor
    · rintro ((hbase | ⟨j, hj⟩) | hb)
      · exact Or.inl hbase
      · by_cases hji : j = i
        · exact Or.inr (Or.inl (Or.inl (hji ▸ hj)))
        · exact Or.inr (Or.inr ⟨j, hji, hj⟩)
      · exact Or.inr (Or.inl (Or.inr hb))
    · rintro (hbase | (hi | hb) | ⟨j, -, hj⟩)
      · exact Or.inl (Or.inl hbase)
      · exact Or.inl (Or.inr ⟨i, hi⟩)
      · exact Or.inr hb
      · exact Or.inl (Or.inr ⟨j, hj⟩)

/-- One user frees a block of its own. -/
theorem Shares.free (h : Shares whole base use) (hown : block ∈ (use i).live) :
    Shares (whole.erase block) base (Function.update use i ((use i).free block)) := by
  have hsub : ∀ j, (Function.update use i ((use i).free block) j).live ⊆ (use j).live := by
    intro j
    by_cases hj : j = i
    · subst hj
      rw [Function.update_self]
      exact Finset.erase_subset _ _
    · rw [Function.update_of_ne hj]
  refine ⟨?_, ?_, ?_⟩
  · intro j k hjk
    exact Finset.disjoint_of_subset_left (hsub j) (Finset.disjoint_of_subset_right (hsub k) (h.apart j k hjk))
  · intro j
    exact Finset.disjoint_of_subset_right (hsub j) (h.separate j)
  · intro b
    rw [Finset.mem_erase, h.whole b, Function.exists_update_iff use (fun _ u => b ∈ u.live), HeapUse.free,
      Finset.mem_erase]
    constructor
    · rintro ⟨hne, hbase | ⟨j, hj⟩⟩
      · exact Or.inl hbase
      · by_cases hji : j = i
        · exact Or.inr (Or.inl ⟨hne, hji ▸ hj⟩)
        · exact Or.inr (Or.inr ⟨j, hji, hj⟩)
    · rintro (hbase | ⟨hne, hi⟩ | ⟨j, hji, hj⟩)
      · refine ⟨?_, Or.inl hbase⟩
        rintro rfl
        exact Finset.disjoint_left.mp (h.separate i) hbase hown
      · exact ⟨hne, Or.inr ⟨i, hi⟩⟩
      · refine ⟨?_, Or.inr ⟨j, hj⟩⟩
        rintro rfl
        exact Finset.disjoint_left.mp (h.apart j i hji) hj hown

omit [DecidableEq β] [DecidableEq ι] in
theorem Shares.settled (h : Shares whole base use) (hnone : ∀ i, (use i).live = ∅) : whole = base := by
  ext b
  rw [h.whole b]
  constructor
  · rintro (hbase | ⟨i, hi⟩)
    · exact hbase
    · rw [hnone i] at hi
      cases hi
  · exact Or.inl

end Shares

theorem Holds.settled (h : m.Holds live []) : m.freed.Perm m.got ∧ m.live = live :=
  ⟨h.balance, by rw [h.live]; simp⟩

end HeapUse

end YaskawaComms
