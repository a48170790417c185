import Mathlib.Logic.Function.Basic

/-!
# Programs as call trees

A program is the tree of the calls it makes on its surroundings, with one branch for every
result a call can have. The same tree is executed sequentially against a handler and one call
at a time inside a system of threads, so both readings speak about one piece of code.
-/

namespace YaskawaComms

/-- The calls that a piece of code can make and the type of what each of them returns. -/
structure Signature where
  Call : Type
  Result : Call → Type

inductive Program (S : Signature) (α : Type) where
  | ret (value : α)
  | call (c : S.Call) (next : S.Result c → Program S α)

namespace Program

variable {S : Signature} {α β γ σ M : Type}

def bind : Program S α → (α → Program S β) → Program S β
  | .ret a, f => f a
  | .call c next, f => .call c fun r => (next r).bind f

instance : Monad (Program S) where
  pure := .ret
  bind := Program.bind

@[simp] theorem pure_eq_ret (a : α) : (pure a : Program S α) = .ret a := rfl

@[simp] theorem ret_bind (a : α) (f : α → Program S β) : (Program.ret a >>= f) = f a := rfl

@[simp] theorem call_bind (c : S.Call) (next : S.Result c → Program S α) (f : α → Program S β) :
    (Program.call c next >>= f) = .call c fun r => next r >>= f := rfl

theorem id_map (p : Program S α) : id <$> p = p := by
  induction p with
  | ret a => rfl
  | call c next ih => exact congrArg (Program.call c) (funext ih)

theorem bind_assoc (p : Program S α) (f : α → Program S β) (g : β → Program S γ) :
    p >>= f >>= g = p >>= fun a => f a >>= g := by
  induction p with
  | ret a => rfl
  | call c next ih => exact congrArg (Program.call c) (funext ih)

instance : LawfulMonad (Program S) := .mk' (Program S) id_map (fun _ _ => rfl) bind_assoc

/-- Sequential execution. The handler answers each call; without an answer the run stops there,
and the state keeps what had been done up to that call. -/
def exec (handle : (c : S.Call) → σ → Option (S.Result c) × σ) : Program S α → σ → Option α × σ
  | .ret a, s => (some a, s)
  | .call c next, s =>
      match handle c s with
      | (none, s') => (none, s')
      | (some r, s') => (next r).exec handle s'

section Exec

variable {handle : (c : S.Call) → σ → Option (S.Result c) × σ}

@[simp] theorem exec_ret (a : α) (s : σ) : (Program.ret a : Program S α).exec handle s = (some a, s) :=
  rfl

theorem exec_call_some {c : S.Call} {next : S.Result c → Program S α} {s s' : σ} {r : S.Result c}
    (h : handle c s = (some r, s')) :
    (Program.call c next).exec handle s = (next r).exec handle s' := by
  simp only [exec, h]

theorem exec_call_none {c : S.Call} {next : S.Result c → Program S α} {s s' : σ}
    (h : handle c s = (none, s')) : (Program.call c next).exec handle s = (none, s') := by
  simp only [exec, h]

theorem exec_ite {P : Prop} [Decidable P] {p q : Program S α} {s : σ} :
    (if P then p else q).exec handle s = if P then p.exec handle s else q.exec handle s := by
  split <;> rfl

theorem exec_bind_some {p : Program S α} {f : α → Program S β} {s s' : σ} {a : α}
    (h : p.exec handle s = (some a, s')) : (p >>= f).exec handle s = (f a).exec handle s' := by
  induction p generalizing s with
  | ret b =>
      simp only [exec_ret, Prod.mk.injEq, Option.some.injEq] at h
      rw [ret_bind, h.1, h.2]
  | call c next ih =>
      rw [call_bind]
      simp only [exec] at h ⊢
      split at h
      · simp at h
      · next r t _ => exact ih r h

theorem exec_bind_none {p : Program S α} {f : α → Program S β} {s s' : σ}
    (h : p.exec handle s = (none, s')) : (p >>= f).exec handle s = (none, s') := by
  induction p generalizing s with
  | ret b => simp at h
  | call c next ih =>
      rw [call_bind]
      simp only [exec] at h ⊢
      split at h
      · simpa using h
      · next r t _ => exact ih r h

/-- The call without an answer at which sequential execution stops, if it does not come to its
end. -/
def stuckAt (handle : (c : S.Call) → σ → Option (S.Result c) × σ) : Program S α → σ → Option S.Call
  | .ret _, _ => none
  | .call c next, s =>
      match handle c s with
      | (none, _) => some c
      | (some r, s') => (next r).stuckAt handle s'

theorem stuckAt_call_some {c : S.Call} {next : S.Result c → Program S α} {s s' : σ} {r : S.Result c}
    (h : handle c s = (some r, s')) :
    (Program.call c next).stuckAt handle s = (next r).stuckAt handle s' := by
  simp only [stuckAt, h]

theorem stuckAt_call_none {c : S.Call} {next : S.Result c → Program S α} {s s' : σ}
    (h : handle c s = (none, s')) : (Program.call c next).stuckAt handle s = some c := by
  simp only [stuckAt, h]

theorem stuckAt_bind_none {p : Program S α} {f : α → Program S β} {s s' : σ}
    (h : p.exec handle s = (none, s')) : (p >>= f).stuckAt handle s = p.stuckAt handle s := by
  induction p generalizing s with
  | ret b => simp at h
  | call c next ih =>
      rw [call_bind]
      simp only [exec] at h
      split at h
      · next hanswer => rw [stuckAt_call_none hanswer, stuckAt_call_none hanswer]
      · next r t hanswer =>
          rw [stuckAt_call_some hanswer, stuckAt_call_some hanswer]
          exact ih r h

theorem exec_or_stuckAt (p : Program S α) (s : σ) :
    (∃ a s', p.exec handle s = (some a, s') ∧ p.stuckAt handle s = none) ∨
      ∃ c s₁ s₂, p.exec handle s = (none, s₂) ∧ p.stuckAt handle s = some c ∧
        handle c s₁ = (none, s₂) := by
  induction p generalizing s with
  | ret a => exact Or.inl ⟨a, s, rfl, rfl⟩
  | call c next ih =>
      cases hanswer : handle c s with
      | mk answer t =>
          cases answer with
          | none => exact Or.inr ⟨c, s, t, exec_call_none hanswer, stuckAt_call_none hanswer, hanswer⟩
          | some r =>
              rw [exec_call_some hanswer, stuckAt_call_some hanswer]
              exact ih r t

/-- The calls of sequential execution with their answers. -/
def trace (handle : (c : S.Call) → σ → Option (S.Result c) × σ) :
    Program S α → σ → List ((c : S.Call) × S.Result c)
  | .ret _, _ => []
  | .call c next, s =>
      match handle c s with
      | (none, _) => []
      | (some r, s') => ⟨c, r⟩ :: (next r).trace handle s'

@[simp] theorem trace_ret (a : α) (s : σ) : (Program.ret a : Program S α).trace handle s = [] := rfl

theorem trace_call_some {c : S.Call} {next : S.Result c → Program S α} {s s' : σ} {r : S.Result c}
    (h : handle c s = (some r, s')) :
    (Program.call c next).trace handle s = ⟨c, r⟩ :: (next r).trace handle s' := by
  simp only [trace, h]

/-- Execution of a program goes on with another program, after these calls. -/
inductive Leads (handle : (c : S.Call) → σ → Option (S.Result c) × σ) :
    Program S α → σ → List ((c : S.Call) × S.Result c) → Program S α → σ → Prop where
  | refl {p : Program S α} {s : σ} : Leads handle p s [] p s
  | call {c : S.Call} {next : S.Result c → Program S α} {r : S.Result c} {q : Program S α}
      {calls : List ((c : S.Call) × S.Result c)} {s s' t : σ} (answer : handle c s = (some r, s'))
      (rest : Leads handle (next r) s' calls q t) :
      Leads handle (.call c next) s (⟨c, r⟩ :: calls) q t

section Leads

variable {p q r : Program S α} {s t u : σ} {calls more : List ((c : S.Call) × S.Result c)}

theorem Leads.trans (h : Leads handle p s calls q t) (h' : Leads handle q t more r u) :
    Leads handle p s (calls ++ more) r u := by
  induction h with
  | refl => exact h'
  | call answer _ ih => exact .call answer (ih h')

theorem leads_of_exec {p : Program S α} {f : α → Program S β} {a : α}
    (h : p.exec handle s = (some a, t)) : Leads handle (p >>= f) s (p.trace handle s) (f a) t := by
  induction p generalizing s with
  | ret b =>
      simp only [exec_ret, Prod.mk.injEq, Option.some.injEq] at h
      rw [ret_bind, h.1, h.2]
      exact .refl
  | call c next ih =>
      simp only [exec] at h
      split at h
      · simp at h
      · next r u hanswer =>
          rw [trace_call_some hanswer]
          exact .call hanswer (ih r h)

theorem Leads.exec_eq (h : Leads handle p s calls q t) : p.exec handle s = q.exec handle t := by
  induction h with
  | refl => rfl
  | call answer _ ih => rw [exec_call_some answer, ih]

theorem Leads.stuckAt_eq (h : Leads handle p s calls q t) :
    p.stuckAt handle s = q.stuckAt handle t := by
  induction h with
  | refl => rfl
  | call answer _ ih => rw [stuckAt_call_some answer, ih]

theorem Leads.trace_eq (h : Leads handle p s calls q t) :
    p.trace handle s = calls ++ q.trace handle t := by
  induction h with
  | refl => rfl
  | call answer _ ih => rw [trace_call_some answer, ih, List.cons_append]

theorem stuckAt_bind_some {p : Program S α} {f : α → Program S β} {a : α}
    (h : p.exec handle s = (some a, t)) : (p >>= f).stuckAt handle s = (f a).stuckAt handle t :=
  (leads_of_exec h).stuckAt_eq

theorem trace_bind_some {p : Program S α} {f : α → Program S β} {a : α}
    (h : p.exec handle s = (some a, t)) :
    (p >>= f).trace handle s = p.trace handle s ++ (f a).trace handle t :=
  (leads_of_exec h).trace_eq

end Leads

end Exec

/-- A monitor watches the calls of a program: from the calls and results so far it keeps a state,
which tells the calls that are good and the results that can occur. -/
structure Monitor (S : Signature) (M : Type) where
  good : M → S.Call → Prop
  allowed : M → (c : S.Call) → S.Result c → Prop
  next : M → (c : S.Call) → S.Result c → M

/-- The state of a monitor after these calls. -/
def Monitor.after (mon : Monitor S M) (m : M) (calls : List ((c : S.Call) × S.Result c)) : M :=
  calls.foldl (fun m call => mon.next m call.1 call.2) m

/-- On every path with allowed results, each call is good and what is returned satisfies `post`. -/
def Obeys (mon : Monitor S M) (post : α → M → Prop) : Program S α → M → Prop
  | .ret a, m => post a m
  | .call c next, m => mon.good m c ∧
      ∀ r, mon.allowed m c r → (next r).Obeys mon post (mon.next m c r)

section Obeys

variable {mon : Monitor S M} {post : α → M → Prop} {post' : β → M → Prop}

theorem Obeys.bind {p : Program S α} {f : α → Program S β} {m : M} (hp : p.Obeys mon post m)
    (hf : ∀ a m', post a m' → (f a).Obeys mon post' m') : (p >>= f).Obeys mon post' m := by
  induction p generalizing m with
  | ret a => exact hf a m hp
  | call c next ih => exact ⟨hp.1, fun r hr => ih r (hp.2 r hr)⟩

theorem Obeys.mono {post' : α → M → Prop} {p : Program S α} {m : M} (hp : p.Obeys mon post m)
    (hpost : ∀ a m', post a m' → post' a m') : p.Obeys mon post' m := by
  induction p generalizing m with
  | ret a => exact hpost a m hp
  | call c next ih => exact ⟨hp.1, fun r hr => ih r (hp.2 r hr)⟩

theorem obeys_call {c : S.Call} {f : S.Result c → Program S α} {m : M} (hgood : mon.good m c)
    (hnext : ∀ r, mon.allowed m c r → (f r).Obeys mon post (mon.next m c r)) :
    (Program.call c .ret >>= f).Obeys mon post m :=
  ⟨hgood, hnext⟩

theorem obeys_ite {P : Prop} [Decidable P] {p q : Program S α} {m : M}
    (hp : P → p.Obeys mon post m) (hq : ¬ P → q.Obeys mon post m) :
    (if P then p else q).Obeys mon post m := by
  split
  · next h => exact hp h
  · next h => exact hq h

theorem Obeys.embed {M' : Type} {mon' : Monitor S M'} {post' : α → M' → Prop} (f : M → M')
    (hgood : ∀ m c, mon.good m c → mon'.good (f m) c)
    (hallowed : ∀ m c r, mon'.allowed (f m) c r → mon.allowed m c r)
    (hnext : ∀ m c r, mon'.next (f m) c r = f (mon.next m c r))
    (hpost : ∀ a m, post a m → post' a (f m)) {p : Program S α} {m : M} (hp : p.Obeys mon post m) :
    p.Obeys mon' post' (f m) := by
  induction p generalizing m with
  | ret a => exact hpost a m hp
  | call c next ih =>
      refine ⟨hgood m c hp.1, ?_⟩
      intro r hr
      rw [hnext]
      exact ih r (hp.2 r (hallowed m c r hr))

theorem obeys_keep {c : S.Call} {f : S.Result c → Program S α} {m : M} (hgood : mon.good m c)
    (hkeep : ∀ r, mon.next m c r = m)
    (hnext : ∀ r, mon.allowed m c r → (f r).Obeys mon post m) :
    (Program.call c .ret >>= f).Obeys mon post m := by
  apply obeys_call hgood
  intro r hr
  rw [hkeep r]
  exact hnext r hr

theorem Obeys.after {handle : (c : S.Call) → σ → Option (S.Result c) × σ} {Inv : M → σ → Prop}
    (hcall : ∀ m c s r s', mon.good m c → Inv m s → handle c s = (some r, s') →
      mon.allowed m c r ∧ Inv (mon.next m c r) s')
    {p : Program S α} {m : M} {s s' : σ} {a : α} (hp : p.Obeys mon post m) (hs : Inv m s)
    (hexec : p.exec handle s = (some a, s')) :
    post a (mon.after m (p.trace handle s)) ∧ Inv (mon.after m (p.trace handle s)) s' := by
  induction p generalizing m s with
  | ret b =>
      simp only [exec_ret, Prod.mk.injEq, Option.some.injEq] at hexec
      rw [← hexec.1, ← hexec.2]
      exact ⟨hp, hs⟩
  | call c next ih =>
      cases hh : handle c s with
      | mk answer t =>
          cases answer with
          | none =>
              rw [exec_call_none hh] at hexec
              cases hexec
          | some r =>
              rw [exec_call_some hh] at hexec
              rw [trace_call_some hh]
              obtain ⟨hallowed, hinv⟩ := hcall m c s r t hp.1 hs hh
              exact ih r (hp.2 r hallowed) hinv hexec

theorem Obeys.exec {handle : (c : S.Call) → σ → Option (S.Result c) × σ} {Inv : M → σ → Prop}
    (hcall : ∀ m c s r s', mon.good m c → Inv m s → handle c s = (some r, s') →
      mon.allowed m c r ∧ Inv (mon.next m c r) s')
    {p : Program S α} {m : M} {s s' : σ} {a : α} (hp : p.Obeys mon post m) (hs : Inv m s)
    (hexec : p.exec handle s = (some a, s')) : ∃ m', post a m' ∧ Inv m' s' :=
  ⟨_, hp.after hcall hs hexec⟩

theorem Obeys.trace_good {handle : (c : S.Call) → σ → Option (S.Result c) × σ}
    (hallowed : ∀ m c r, mon.allowed m c r) {p : Program S α} {m : M} {s : σ}
    (hp : p.Obeys mon post m) : ∀ call ∈ p.trace handle s, ∃ m, mon.good m call.1 := by
  induction p generalizing m s with
  | ret a => exact nofun
  | call c next ih =>
      intro call hcall
      unfold trace at hcall
      split at hcall
      · cases hcall
      · next r t _ =>
          rcases List.mem_cons.mp hcall with rfl | hrest
          · exact ⟨m, hp.1⟩
          · exact ih r (hp.2 r (hallowed m c r)) call hrest

theorem Obeys.completes {handle : (c : S.Call) → σ → Option (S.Result c) × σ} {Inv : M → σ → Prop}
    (hcall : ∀ m c s, mon.good m c → Inv m s →
      ∃ r s', handle c s = (some r, s') ∧ mon.allowed m c r ∧ Inv (mon.next m c r) s')
    {p : Program S α} {m : M} {s : σ} (hp : p.Obeys mon post m) (hs : Inv m s) :
    ∃ a s', p.exec handle s = (some a, s') := by
  induction p generalizing m s with
  | ret a => exact ⟨a, s, rfl⟩
  | call c next ih =>
      obtain ⟨r, s', hhandle, hallowed, hinv⟩ := hcall m c s hp.1 hs
      rw [exec_call_some hhandle]
      exact ih r (hp.2 r hallowed) hinv

end Obeys

/-- The result of a program that has come to its end. -/
def value : Program S α → Option α
  | .ret a => some a
  | .call _ _ => none

theorem value_eq_some {p : Program S α} {a : α} : p.value = some a ↔ p = .ret a := by
  cases p with
  | ret b => simp [value]
  | call c next => simp [value]

/-- What is left of a program once this call has got this result. -/
def resume [DecidableEq S.Call] (made : (c : S.Call) × S.Result c) : Program S α → Program S α
  | .ret a => .ret a
  | .call c next => if h : made.1 = c then next (h ▸ made.2) else .call c next

@[simp] theorem resume_call [DecidableEq S.Call] {c : S.Call} {next : S.Result c → Program S α}
    (r : S.Result c) : (Program.call c next).resume ⟨c, r⟩ = next r := by
  simp [resume]

end Program

/-- States reached by runs whose steps all meet `ok`; a step is named by its label. -/
inductive Run {ι σ : Type} (step : ι → σ → Option σ) (ok : σ → ι → Prop) (s : σ) : σ → Prop where
  | start : Run step ok s s
  | next {t u : σ} (label : ι) (before : Run step ok s t) (met : ok t label)
      (taken : step label t = some u) : Run step ok s u

namespace Run

variable {ι σ : Type} {step : ι → σ → Option σ} {ok : σ → ι → Prop} {s t : σ}

theorem invariant {Inv : σ → Prop} (h : Run step ok s t) (hstart : Inv s)
    (hstep : ∀ a label b, Inv a → ok a label → step label a = some b → Inv b) : Inv t := by
  induction h with
  | start => exact hstart
  | next label _ met taken ih => exact hstep _ label _ ih met taken

theorem mono {ok' : σ → ι → Prop} (h : Run step ok s t) (hok : ∀ a label, ok a label → ok' a label) :
    Run step ok' s t := by
  induction h with
  | start => exact .start
  | next label _ met taken ih => exact .next label ih (hok _ _ met) taken

/-- Follow a list of labels as long as they pass a check. -/
def follow (step : ι → σ → Option σ) (check : σ → ι → Bool) : List ι → σ → Option σ
  | [], s => some s
  | label :: labels, s =>
      if check s label then (step label s).bind (follow step check labels) else none

theorem then_follow {check : σ → ι → Bool} (hcheck : ∀ a label, check a label = true → ok a label)
    {labels : List ι} {u : σ} (h : Run step ok s t)
    (hfollow : follow step check labels t = some u) : Run step ok s u := by
  induction labels generalizing t with
  | nil =>
      obtain rfl : t = u := by simpa [follow] using hfollow
      exact h
  | cons label labels ih =>
      rw [follow] at hfollow
      split at hfollow
      · next hlabel =>
          obtain ⟨v, hv, hrest⟩ := Option.bind_eq_some_iff.mp hfollow
          exact ih (.next label h (hcheck _ _ hlabel) hv) hrest
      · simp at hfollow

theorem exists_of_follow (check : σ → ι → Bool) (labels : List ι) (p : σ → Bool)
    (hcheck : ∀ a label, check a label = true → ok a label)
    (h : (follow step check labels s).any p = true) : ∃ t, Run step ok s t ∧ p t = true := by
  obtain ⟨t, ht, hp⟩ := (Option.any_eq_true _ _).mp h
  exact ⟨t, then_follow hcheck .start ht, hp⟩

end Run

section Noting

variable {ι σ η : Type}

/-- A system that keeps a history: what a step adds to it is told by the state before. -/
def noting (step : ι → σ → Option σ) (note : ι → σ → η → η) (label : ι) (s : σ × η) :
    Option (σ × η) :=
  (step label s.1).map fun t => (t, note label s.1 s.2)

theorem noting_eq_some {step : ι → σ → Option σ} {note : ι → σ → η → η} {label : ι} {s t : σ × η}
    (h : noting step note label s = some t) : step label s.1 = some t.1 ∧ t.2 = note label s.1 s.2 := by
  obtain ⟨u, hstep, rfl⟩ := Option.map_eq_some_iff.mp h
  exact ⟨hstep, rfl⟩

end Noting

end YaskawaComms
