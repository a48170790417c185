import YaskawaComms.Framework.Interpretation

/-!
# What a program can return

The results that a program returns with some answers to its calls, whoever answers them.
-/

namespace YaskawaComms.Program

variable {S T : Signature} {α β σ : Type}

/-- With some answers to the calls this is returned. -/
def Yields : Program S α → α → Prop
  | .ret a, b => b = a
  | .call _ next, b => ∃ r, (next r).Yields b

@[simp] theorem yields_ret (a b : α) : (Program.ret a : Program S α).Yields b ↔ b = a := Iff.rfl

@[simp] theorem yields_pure (a b : α) : (pure a : Program S α).Yields b ↔ b = a := Iff.rfl

@[simp] theorem yields_call (c : S.Call) (next : S.Result c → Program S α) (b : α) :
    (Program.call c next).Yields b ↔ ∃ r, (next r).Yields b := Iff.rfl

@[simp] theorem yields_bind (p : Program S α) (f : α → Program S β) (b : β) :
    (p >>= f).Yields b ↔ ∃ a, p.Yields a ∧ (f a).Yields b := by
  induction p with
  | ret a => simp
  | call c next ih =>
      rw [call_bind, yields_call]
      simp only [ih, yields_call]
      constructor
      · rintro ⟨r, a, ha, hb⟩
        exact ⟨a, ⟨r, ha⟩, hb⟩
      · rintro ⟨a, ⟨r, ha⟩, hb⟩
        exact ⟨r, a, ha, hb⟩

@[simp] theorem yields_ite {P : Prop} [Decidable P] (p q : Program S α) (b : α) :
    (if P then p else q).Yields b ↔ if P then p.Yields b else q.Yields b := by
  split <;> rfl

theorem yields_of_exec {handle : (c : S.Call) → σ → Option (S.Result c) × σ} {p : Program S α}
    {s t : σ} {a : α} (h : p.exec handle s = (some a, t)) : p.Yields a := by
  induction p generalizing s with
  | ret b =>
      cases h
      rfl
  | call c next ih =>
      cases hanswer : handle c s with
      | mk answer u =>
          cases answer with
          | none =>
              rw [exec_call_none hanswer] at h
              cases h
          | some r =>
              rw [exec_call_some hanswer] at h
              exact ⟨r, ih r h⟩

theorem yields_interpret {code : (c : T.Call) → Program S (T.Result c)}
    (hcode : ∀ c r, (code c).Yields r) (p : Program T α) (a : α) :
    (p.interpret code).Yields a ↔ p.Yields a := by
  induction p with
  | ret b => rfl
  | call c next ih =>
      rw [interpret_call, yields_bind, yields_call]
      constructor
      · rintro ⟨r, -, ha⟩
        exact ⟨r, (ih r).mp ha⟩
      · rintro ⟨r, ha⟩
        exact ⟨r, hcode c r, (ih r).mpr ha⟩

section Returns

variable {M : Type} {mon : Monitor S M} {post : α → M → Prop} {m m' : M} {a : α}

/-- With some allowed answers to the calls this is returned, and the monitor is left in this state. -/
def Returns (mon : Monitor S M) : Program S α → M → α → M → Prop
  | .ret a, m, b, m' => b = a ∧ m' = m
  | .call c next, m, b, m' => ∃ r, mon.allowed m c r ∧ (next r).Returns mon (mon.next m c r) b m'

theorem Obeys.returns {p : Program S α} (hp : p.Obeys mon post m) (h : p.Returns mon m a m') : post a m' := by
  induction p generalizing m with
  | ret b =>
      obtain ⟨rfl, rfl⟩ := h
      exact hp
  | call c next ih =>
      obtain ⟨r, hallowed, h⟩ := h
      exact ih r (hp.2 r hallowed) h

theorem returns_bind (p : Program S α) (f : α → Program S β) (b : β) :
    (p >>= f).Returns mon m b m' ↔ ∃ a m₁, p.Returns mon m a m₁ ∧ (f a).Returns mon m₁ b m' := by
  induction p generalizing m with
  | ret a =>
      constructor
      · exact fun h => ⟨a, m, ⟨rfl, rfl⟩, h⟩
      · rintro ⟨_, _, ⟨rfl, rfl⟩, h⟩
        exact h
  | call c next ih =>
      constructor
      · rintro ⟨r, hallowed, h⟩
        obtain ⟨a, m₁, ha, hb⟩ := (ih r).mp h
        exact ⟨a, m₁, ⟨r, hallowed, ha⟩, hb⟩
      · rintro ⟨a, m₁, ⟨r, hallowed, ha⟩, hb⟩
        exact ⟨r, hallowed, (ih r).mpr ⟨a, m₁, ha, hb⟩⟩

theorem Returns.yields {p : Program S α} (h : p.Returns mon m a m') : p.Yields a := by
  induction p generalizing m with
  | ret b => exact h.1
  | call c next ih =>
      obtain ⟨r, -, h⟩ := h
      exact ⟨r, ih r h⟩

theorem Yields.returns {p : Program S α} (h : p.Yields a) (hallowed : ∀ m c r, mon.allowed m c r) (m : M) :
    ∃ m', p.Returns mon m a m' := by
  induction p generalizing m with
  | ret b => exact ⟨m, h, rfl⟩
  | call c next ih =>
      obtain ⟨r, h⟩ := h
      obtain ⟨m', hm'⟩ := ih r h (mon.next m c r)
      exact ⟨m', r, hallowed m c r, hm'⟩

end Returns

end YaskawaComms.Program
