import Mathlib.Logic.Hydra
import YaskawaComms.Framework.Program

/-!
# Descent

Along every path a program comes to its end, whatever its calls return. A system whose steps all
take a part of it further along its path stops, in whatever order its parts take their steps.
-/

namespace YaskawaComms

namespace Program

variable {S : Signature} {α : Type}

/-- What can be left of a program after its next call. -/
inductive Follows : Program S α → Program S α → Prop where
  | call {c : S.Call} {next : S.Result c → Program S α} (r : S.Result c) :
      Follows (next r) (.call c next)

theorem follows_wf : WellFounded (@Follows S α) := by
  constructor
  intro p
  induction p with
  | ret a =>
      constructor
      intro q hq
      cases hq
  | call c next ih =>
      constructor
      intro q hq
      cases hq with
      | call r => exact ih r

end Program

theorem acc_of_measure {σ τ : Type} {R : σ → σ → Prop} {below : τ → τ → Prop} {measure : σ → τ}
    {Inv : σ → Prop} (hstep : ∀ s s', Inv s → R s' s → Inv s' ∧ below (measure s') (measure s)) {s : σ}
    (hs : Inv s) (hacc : Acc below (measure s)) : Acc R s := by
  generalize hm : measure s = m at hacc
  induction hacc generalizing s with
  | intro m _ ih =>
      constructor
      intro s' hR
      obtain ⟨hs', hbelow⟩ := hstep s s' hs hR
      exact ih (measure s') (hm ▸ hbelow) hs' rfl

theorem cutExpand_set {α : Type} {below : α → α → Prop} {parts : List α} {i : Nat} {a b : α}
    (ha : parts[i]? = some a) (hb : below b a) :
    Relation.CutExpand below (parts.set i b : Multiset α) (parts : Multiset α) := by
  induction parts generalizing i with
  | nil => cases ha
  | cons c parts ih =>
      cases i with
      | zero =>
          cases ha
          exact Relation.cutExpand_single_add hb (parts : Multiset α)
      | succ i => exact (Relation.cutExpand_add_left {c}).mpr (ih ha)

end YaskawaComms
