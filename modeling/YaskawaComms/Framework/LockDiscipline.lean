import YaskawaComms.Framework.Program
import Mathlib.Algebra.BigOperators.Group.Finset.Piecewise
import Mathlib.Algebra.Order.BigOperators.Group.Finset

/-!
# Threads around a counting semaphore

A pool of threads over shared state, each running a program. Code is disciplined when, on every
path, it takes the lock only without holding it, gives it back only while holding it, and does
not end while holding it. For disciplined code the semaphore value plus the number of holders
does not change.
-/

namespace YaskawaComms

/-- How the calls of a signature use one lock: a call acquires it depending on its result;
guarded calls are those that need the lock. -/
structure LockUse (S : Signature) where
  acquires : (c : S.Call) → S.Result c → Bool
  releases : S.Call → Bool
  guarded : S.Call → Bool

variable {S : Signature} {α β ι σ E J : Type}

/-- Whether the caller holds the lock after a call. -/
def LockUse.after (use : LockUse S) (held : Bool) (c : S.Call) (r : S.Result c) : Bool :=
  if use.acquires c r then true else if use.releases c then false else held

theorem LockUse.after_toNat (use : LockUse S) {held : Bool} {c : S.Call} {r : S.Result c}
    (hdisjoint : use.acquires c r = true → use.releases c = false)
    (hacquire : use.acquires c r = true → held = false) (hrelease : use.releases c = true → held = true) :
    (use.after held c r).toNat + (use.releases c).toNat =
      held.toNat + (use.acquires c r).toNat := by
  cases hacq : use.acquires c r
  · cases hrel : use.releases c
    · simp [LockUse.after, hacq, hrel]
    · simp [LockUse.after, hacq, hrel, hrelease hrel]
  · simp [LockUse.after, hacq, hdisjoint hacq, hacquire hacq]

namespace Program

/-- The call that the program makes next. -/
def nextCall : Program S α → Option S.Call
  | .ret _ => none
  | .call c _ => some c

/-- Lock discipline up to the `exempt` calls, after which nothing is asked; `post` relates the
returned value to whether the lock is held then. -/
def Disciplined (use : LockUse S) (exempt : S.Call → Prop) (post : α → Bool → Prop) :
    Program S α → Bool → Prop
  | .ret a, held => post a held
  | .call c next, held => exempt c ∨
      (use.guarded c = true ∨ use.releases c = true → held = true) ∧
        ∀ r, (use.acquires c r = true → held = false) ∧
          (next r).Disciplined use exempt post (use.after held c r)

variable {use : LockUse S} {exempt : S.Call → Prop}

theorem Disciplined.bind {post : α → Bool → Prop} {post' : β → Bool → Prop} {p : Program S α}
    {f : α → Program S β} {held : Bool} (hp : p.Disciplined use exempt post held)
    (hf : ∀ a held', post a held' → (f a).Disciplined use exempt post' held') :
    (p >>= f).Disciplined use exempt post' held := by
  induction p generalizing held with
  | ret a => exact hf a held hp
  | call c next ih =>
      rcases hp with hexempt | ⟨hneeds, hnext⟩
      · exact Or.inl hexempt
      · exact Or.inr ⟨hneeds, fun r => ⟨(hnext r).1, ih r (hnext r).2⟩⟩

end Program

/-- A pool of threads. `held` records which of them are between a successful take and its give. -/
structure Pool (S : Signature) (ι σ α : Type) where
  shared : σ
  code : ι → Program S α
  held : ι → Bool

/-- Either a thread makes its next call, or an idle thread starts a job. -/
inductive PoolLabel (ι E J : Type) where
  | call (thread : ι) (env : E)
  | begin (thread : ι) (job : J)

namespace Pool

variable [DecidableEq ι]

def step (use : LockUse S) (perform : E → (c : S.Call) → σ → Option (S.Result c × σ))
    (job : J → Program S α) : PoolLabel ι E J → Pool S ι σ α → Option (Pool S ι σ α)
  | .call i env, s =>
      match s.code i with
      | .ret _ => none
      | .call c next => (perform env c s.shared).map fun out =>
          { shared := out.2
            code := Function.update s.code i (next out.1)
            held := Function.update s.held i (use.after (s.held i) c out.1) }
  | .begin i j, s =>
      match s.code i with
      | .ret _ => some { s with code := Function.update s.code i (job j) }
      | .call _ _ => none

/-- The moving thread is not about to make an exempt call. -/
def Avoids (exempt : S.Call → Prop) (s : Pool S ι σ α) : PoolLabel ι E J → Prop
  | .call i _ => ∀ c, (s.code i).nextCall = some c → ¬ exempt c
  | .begin _ _ => True

def holders [Fintype ι] (s : Pool S ι σ α) : Nat := ∑ i, (s.held i).toNat

theorem holders_update [Fintype ι] (held : ι → Bool) (i : ι) (b : Bool) :
    (∑ j, (Function.update held i b j).toNat) + (held i).toNat =
      (∑ j, (held j).toNat) + b.toNat := by
  have hcomp : (fun j => (Function.update held i b j).toNat) =
      Function.update (fun j => (held j).toNat) i b.toNat := by
    funext j
    by_cases hj : j = i
    · subst hj
      simp
    · simp [hj]
  rw [hcomp, Finset.sum_update_of_mem (Finset.mem_univ i)]
  have hsplit := Finset.sum_erase_add Finset.univ (fun j => (held j).toNat) (Finset.mem_univ i)
  rw [Finset.sdiff_singleton_eq_erase]
  omega

section Invariant

variable [Fintype ι] {use : LockUse S} {exempt : S.Call → Prop}
  {perform : E → (c : S.Call) → σ → Option (S.Result c × σ)} {job : J → Program S α}
  {value : σ → Option Nat}

/-- All code is disciplined; there is a semaphore, whose value and holders add up to `total`. -/
structure Balanced (use : LockUse S) (exempt : S.Call → Prop) (value : σ → Option Nat)
    (total : Nat) (s : Pool S ι σ α) : Prop where
  code : ∀ i, (s.code i).Disciplined use exempt (fun _ held => held = false) (s.held i)
  sum : ∃ v, value s.shared = some v ∧ v + s.holders = total

/-- What the calls do to the semaphore value. -/
def Counts (use : LockUse S) (perform : E → (c : S.Call) → σ → Option (S.Result c × σ))
    (value : σ → Option Nat) : Prop :=
  ∀ env c s r s' v, perform env c s = some (r, s') → value s = some v →
    (use.acquires c r = true → use.releases c = false) ∧
    ∃ v', value s' = some v' ∧ v' + (use.acquires c r).toNat = v + (use.releases c).toNat

theorem Balanced.step {total : Nat} (hcounts : Counts use perform value)
    (hjob : ∀ j, (job j).Disciplined use exempt (fun _ held => held = false) false)
    {s s' : Pool S ι σ α} {label : PoolLabel ι E J} (h : Balanced use exempt value total s)
    (hok : Avoids exempt s label) (hstep : step use perform job label s = some s') :
    Balanced use exempt value total s' := by
  cases label with
  | call i env =>
      have hi := h.code i
      simp only [Pool.step] at hstep
      cases hcode : s.code i with
      | ret a => simp [hcode] at hstep
      | call c next =>
          simp only [hcode, Option.map_eq_some_iff] at hstep
          obtain ⟨⟨r, shared⟩, hperform, rfl⟩ := hstep
          rw [hcode] at hi
          rcases hi with hexempt | ⟨hneeds, hnext⟩
          · exact absurd hexempt (hok c (by rw [hcode]; rfl))
          obtain ⟨v, hv, hsum⟩ := h.sum
          obtain ⟨hdisjoint, v', hv', hvalue⟩ := hcounts env c _ r _ v hperform hv
          refine ⟨fun j => ?_, v', hv', ?_⟩
          · by_cases hj : j = i
            · subst hj
              simpa using (hnext r).2
            · simpa [hj] using h.code j
          · have hupdate := holders_update s.held i (use.after (s.held i) c r)
            simp only [holders] at hsum ⊢
            have hafter := use.after_toNat hdisjoint (hnext r).1 fun hrel => hneeds (Or.inr hrel)
            omega
  | begin i j =>
      have hi := h.code i
      simp only [Pool.step] at hstep
      cases hcode : s.code i with
      | call c next => simp [hcode] at hstep
      | ret a =>
          simp only [hcode, Option.some.injEq] at hstep
          subst hstep
          rw [hcode] at hi
          refine ⟨fun k => ?_, h.sum⟩
          by_cases hk : k = i
          · subst hk
            simp only [Function.update_self]
            rw [show s.held k = false from hi]
            exact hjob j
          · simpa [hk] using h.code k

theorem Balanced.run {total : Nat} (hcounts : Counts use perform value)
    (hjob : ∀ j, (job j).Disciplined use exempt (fun _ held => held = false) false)
    {s s' : Pool S ι σ α} (h : Balanced use exempt value total s)
    (hrun : Run (Pool.step use perform job) (Avoids exempt) s s') :
    Balanced use exempt value total s' :=
  hrun.invariant h fun _ _ _ hs hok hstep => hs.step hcounts hjob hok hstep

theorem Balanced.exclusive {s : Pool S ι σ α} (h : Balanced use exempt value 1 s) {i j : ι}
    {c d : S.Call} (hi : (s.code i).nextCall = some c) (hj : (s.code j).nextCall = some d)
    (hc : use.guarded c = true) (hd : use.guarded d = true) (hce : ¬ exempt c) (hde : ¬ exempt d) :
    i = j := by
  have holds : ∀ k e, (s.code k).nextCall = some e → use.guarded e = true → ¬ exempt e →
      s.held k = true := by
    intro k e hk he hexempt
    have hcode := h.code k
    cases hk' : s.code k with
    | ret a => simp [hk', Program.nextCall] at hk
    | call c' next =>
        rw [hk', Program.nextCall, Option.some.injEq] at hk
        subst hk
        rw [hk'] at hcode
        exact (hcode.resolve_left hexempt).1 (Or.inl he)
  by_contra hne
  obtain ⟨v, _, hsum⟩ := h.sum
  have hpair : (s.held i).toNat + (s.held j).toNat ≤ s.holders := by
    have hsub : ∑ k ∈ ({i, j} : Finset ι), (s.held k).toNat ≤ ∑ k, (s.held k).toNat :=
      Finset.sum_le_sum_of_subset (Finset.subset_univ _)
    rwa [Finset.sum_pair hne] at hsub
  rw [holds i c hi hc hce, holds j d hj hd hde] at hpair
  simp only [Bool.toNat_true] at hpair
  omega

end Invariant

end Pool

end YaskawaComms
