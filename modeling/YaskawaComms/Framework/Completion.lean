import YaskawaComms.Framework.Descent
import YaskawaComms.Framework.Sections

/-!
# Calls that come to their end

Calls of one section that come to their end when they are made one after the other do so in every
interleaving: the threads cannot go on for ever without beginning a new job, and as long as one of
them has not come to its end some thread can go on.
-/

namespace YaskawaComms

open Program

variable {S : Signature} {α ι σ E J : Type}

/-- Made after any jobs that have been done one after the other, a job comes to its end. -/
def EndsAlone (handle : (c : S.Call) → σ → Option (S.Result c) × σ) (job : J → Program S α)
    (start : σ) : Prop :=
  ∀ calls u, Serial handle job start calls u → ∀ j, ∃ a u', (job j).exec handle u = (some a, u')

section Calls

variable [DecidableEq ι] {use : LockUse S}
  {perform : E → (c : S.Call) → σ → Option (S.Result c × σ)} {job : J → Program S α}

/-- Some thread makes its next call. -/
def Pool.Goes (use : LockUse S) (perform : E → (c : S.Call) → σ → Option (S.Result c × σ))
    (job : J → Program S α) (t s : Pool S ι σ α) : Prop :=
  ∃ i env, Pool.step use perform job (.call i env) s = some t

variable [Fintype ι]

/-- What the threads have left. -/
def Pool.remaining (s : Pool S ι σ α) : Multiset (Program S α) := Finset.univ.val.map s.code

theorem cutExpand_update {τ : Type} {below : τ → τ → Prop} {f : ι → τ} {i : ι} {b : τ}
    (hb : below b (f i)) : Relation.CutExpand below
      (Finset.univ.val.map (Function.update f i b)) (Finset.univ.val.map f) := by
  have hothers : (Finset.univ.erase i).val.map (Function.update f i b) =
      (Finset.univ.erase i).val.map f := by
    apply Multiset.map_congr rfl
    intro k hk
    rw [Function.update_of_ne (Finset.ne_of_mem_erase (Finset.mem_val.mp hk))]
  have hall : (Finset.univ : Finset ι).val = i ::ₘ (Finset.univ.erase i).val := by
    rw [Finset.erase_val, Multiset.cons_erase (Finset.mem_univ_val i)]
  rw [hall, Multiset.map_cons, Multiset.map_cons, hothers, Function.update_self,
    ← Multiset.singleton_add, ← Multiset.singleton_add, Relation.cutExpand_add_right]
  exact Relation.cutExpand_singleton_singleton hb

theorem Pool.goes_acc (s : Pool S ι σ α) : Acc (Pool.Goes use perform job) s := by
  have hstep : ∀ s t : Pool S ι σ α, True → Pool.Goes use perform job t s →
      True ∧ Relation.CutExpand Follows t.remaining s.remaining := by
    rintro s t - ⟨i, env, hstep⟩
    refine ⟨trivial, ?_⟩
    simp only [Pool.step] at hstep
    split at hstep
    · cases hstep
    · next c next hcode =>
        obtain ⟨⟨r, shared⟩, -, rfl⟩ := Option.map_eq_some_iff.mp hstep
        apply cutExpand_update
        rw [hcode]
        exact .call r
  exact acc_of_measure hstep trivial (follows_wf.cutExpand.apply s.remaining)

end Calls

section Deadlock

variable {use : LockUse S} {tries : S.Call → Prop} {job : J → Program S α}
  {perform : E → (c : S.Call) → σ → Option (S.Result c × σ)}
  {handle : (c : S.Call) → σ → Option (S.Result c) × σ} {start u : σ}
  {s : Pool S ι σ α × Record ι J α} [DecidableEq ι]

theorem exec_call_answered {c : S.Call} {next : S.Result c → Program S α} {s u : σ} {a : α}
    (h : (Program.call c next).exec handle s = (some a, u)) : ∃ r s', handle c s = (some r, s') := by
  cases hanswer : handle c s with
  | mk r s' =>
      cases r with
      | none =>
          rw [exec_call_none hanswer] at h
          cases h
      | some r => exact ⟨r, s', rfl⟩

/-- Where no thread can make its call, none has a call to make: the thread inside a section could go
on, and if there is none every thread finds the lock free. -/
theorem Serialized.ended (h : Serialized use tries handle job start s u) {calm : E}
    (hanswers : ∀ c s r s', handle c s = (some r, s') → (perform calm c s).isSome)
    (hends : EndsAlone handle job start)
    (hstuck : ∀ i, Pool.step use perform job (.call i calm) s.1 = none) :
    ∀ i, ∃ a, s.1.code i = .ret a := by
  have hfinished : ∀ i, (∃ a t, (s.1.code i).exec handle s.1.shared = (some a, t)) →
      ∃ a, s.1.code i = .ret a := by
    rintro i ⟨a, t, hexec⟩
    cases hcode : s.1.code i with
    | ret a => exact ⟨a, rfl⟩
    | call c next =>
        rw [hcode] at hexec
        obtain ⟨r, s', hanswer⟩ := exec_call_answered hexec
        have hnone := hstuck i
        simp only [Pool.step, hcode, Option.map_eq_none_iff] at hnone
        have hsome := hanswers c s.1.shared r s' hanswer
        rw [hnone] at hsome
        cases hsome
  have hfree : ∀ i, s.1.held i = false := by
    intro i
    by_contra hheld
    rw [Bool.not_eq_false] at hheld
    obtain ⟨j, calls, -, hleads⟩ := h.working i hheld
    obtain ⟨a, t, hexec⟩ := hends _ _ h.serial j
    rw [hleads.exec_eq] at hexec
    obtain ⟨b, hret⟩ := hfinished i ⟨a, t, hexec⟩
    have hinside := (h.sectioned.inside i trivial hheld).2
    rw [hret] at hinside
    exact hinside.not_ends
  intro i
  rcases h.sectioned.waiting i trivial (hfree i) with hret | ⟨j, -, hcode⟩
  · exact hret
  · apply hfinished i
    rw [h.resting hfree, hcode]
    exact hends _ _ h.serial j

theorem completes_of_run [Fintype ι] (hlock : Locking use tries perform handle)
    {value : σ → Option Nat} (hcounts : Pool.Counts use perform value) (hvalue : value start = some 1)
    {a : α} (hjob : ∀ j, (job j).OneSection use tries) {calm : E}
    (hanswers : ∀ c s r s', handle c s = (some r, s') → (perform calm c s).isSome)
    (hends : EndsAlone handle job start)
    (hrun : Run (recordedStep use perform job) (fun _ _ => True) (Pool.idle start a, {}) s) :
    Acc (Pool.Goes use perform job) s.1 ∧
      ((∀ i, recordedStep use perform job (.call i calm) s = none) → ∀ i, ∃ a, s.1.code i = .ret a) := by
  obtain ⟨u, h⟩ := serialized_of_run hlock hcounts hvalue hjob hrun
  refine ⟨Pool.goes_acc s.1, fun hstuck => h.ended hanswers hends fun i => ?_⟩
  exact Option.map_eq_none_iff.mp (hstuck i)

end Deadlock

end YaskawaComms
