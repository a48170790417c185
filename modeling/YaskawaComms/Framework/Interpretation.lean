import YaskawaComms.Framework.Program

/-!
# Calls that stand for code, and calls that are guarded

A program of a richer signature says more about a computation than the program it stands for: what
is computed between two calls can be a call of its own. Replacing each call by the code it stands
for gives the plain program back. A guarded handler stops at a call whose condition does not hold,
so a guarded run that comes to its end shows that every condition it met was true.
-/

namespace YaskawaComms.Program

variable {S T : Signature} {α β σ : Type}

section Interpret

variable {code : (c : T.Call) → Program S (T.Result c)}

/-- The program in which each call is replaced by the code it stands for. -/
def interpret (code : (c : T.Call) → Program S (T.Result c)) : Program T α → Program S α
  | .ret a => .ret a
  | .call c next => code c >>= fun r => (next r).interpret code

@[simp] theorem interpret_ret (a : α) : (Program.ret a : Program T α).interpret code = .ret a := rfl

@[simp] theorem interpret_call (c : T.Call) (next : T.Result c → Program T α) :
    (Program.call c next).interpret code = code c >>= fun r => (next r).interpret code := rfl

@[simp] theorem interpret_bind (p : Program T α) (f : α → Program T β) :
    (p >>= f).interpret code = p.interpret code >>= fun a => (f a).interpret code := by
  induction p with
  | ret a => rfl
  | call c next ih =>
      rw [call_bind, interpret_call, interpret_call, bind_assoc]
      congr
      funext r
      exact ih r

@[simp] theorem interpret_ite {P : Prop} [Decidable P] {p q : Program T α} :
    (if P then p else q).interpret code = if P then p.interpret code else q.interpret code := by
  split <;> rfl

theorem exec_interpret {handle : (c : S.Call) → σ → Option (S.Result c) × σ}
    {handle' : (c : T.Call) → σ → Option (T.Result c) × σ}
    (hcode : ∀ {c s r s'}, handle' c s = (some r, s') → (code c).exec handle s = (some r, s'))
    {p : Program T α} {s s' : σ} {a : α} (h : p.exec handle' s = (some a, s')) :
    (p.interpret code).exec handle s = (some a, s') := by
  induction p generalizing s with
  | ret b => exact h
  | call c next ih =>
      cases hanswer : handle' c s with
      | mk answer t =>
          cases answer with
          | none =>
              rw [exec_call_none hanswer] at h
              cases h
          | some r =>
              rw [exec_call_some hanswer] at h
              rw [interpret_call, exec_bind_some (hcode hanswer)]
              exact ih r h

end Interpret

section Guarded

variable {handle : (c : S.Call) → σ → Option (S.Result c) × σ} {allowed : S.Call → σ → Prop}
  [∀ c s, Decidable (allowed c s)]

/-- The handler that stops at a call that is not allowed. -/
def guarded (allowed : S.Call → σ → Prop) [∀ c s, Decidable (allowed c s)]
    (handle : (c : S.Call) → σ → Option (S.Result c) × σ) (c : S.Call) (s : σ) :
    Option (S.Result c) × σ :=
  if allowed c s then handle c s else (none, s)

theorem guarded_eq_some {c : S.Call} {r : S.Result c} {s s' : σ} :
    guarded allowed handle c s = (some r, s') ↔ allowed c s ∧ handle c s = (some r, s') := by
  unfold guarded
  split
  · next hallowed => exact (and_iff_right hallowed).symm
  · next hallowed =>
      apply iff_of_false
      · intro hstops
        cases hstops
      · exact fun h => hallowed h.1

end Guarded

end YaskawaComms.Program
