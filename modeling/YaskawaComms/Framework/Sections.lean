import YaskawaComms.Framework.LockDiscipline

/-!
# Calls with one critical section

Code that first tries to take a lock, ends at once when it cannot, and otherwise gives the lock
back by its last call. Between the two it may do anything but try again. Calls of this kind by
any number of threads have the effect they would have one after the other, in the order in which
they end.
-/

namespace YaskawaComms

open Program

variable {S : Signature} {α ι κ σ E J : Type}

inductive Phase where
  | before | inside | past
  deriving DecidableEq

/-- `tries` tells the calls that try to take the lock. -/
def sections (use : LockUse S) (tries : S.Call → Prop) : Monitor S Phase where
  good
    | .before, c => tries c ∧ use.releases c = false ∧ use.guarded c = false
    | .inside, c => ¬ tries c
    | .past, _ => False
  allowed _ _ _ := True
  next
    | .before, c, r => if use.acquires c r then .inside else .past
    | .inside, c, _ => if use.releases c then .past else .inside
    | .past, _, _ => .past

/-- What is left of a call in this phase; it does not end inside the section. -/
def Program.Remains (use : LockUse S) (tries : S.Call → Prop) (phase : Phase) (p : Program S α) :
    Prop :=
  p.Obeys (sections use tries) (fun _ phase => phase ≠ .inside) phase

abbrev Program.OneSection (use : LockUse S) (tries : S.Call → Prop) (p : Program S α) : Prop :=
  p.Remains use tries .before

/-- A call that could not take the lock returns this. -/
def Program.Refused (use : LockUse S) (p : Program S α) (a : α) : Prop :=
  p = .ret a ∨ ∃ c next r, p = .call c next ∧ use.acquires c r = false ∧ next r = .ret a

/-- The calls that try to take the lock do nothing when they fail; the other calls are answered
as in sequential execution. -/
structure Locking (use : LockUse S) (tries : S.Call → Prop)
    (perform : E → (c : S.Call) → σ → Option (S.Result c × σ))
    (handle : (c : S.Call) → σ → Option (S.Result c) × σ) : Prop where
  acquired : ∀ c r, use.acquires c r = true → tries c
  failed : ∀ env c s r s', perform env c s = some (r, s') → tries c → use.acquires c r = false →
    s' = s
  answered : ∀ env c s r s', perform env c s = some (r, s') → (tries c → use.acquires c r = true) →
    handle c s = (some r, s')

section Remains

variable {use : LockUse S} {tries : S.Call → Prop} {c : S.Call} {next : S.Result c → Program S α}
  {r : S.Result c}

variable {post : α → Phase → Prop}

theorem obeys_take (htries : tries c) (hreleases : use.releases c = false)
    (hguarded : use.guarded c = false)
    (htaken : ∀ r, use.acquires c r = true → (next r).Obeys (sections use tries) post .inside)
    (hfailed : ∀ r, use.acquires c r = false → (next r).Obeys (sections use tries) post .past) :
    (Program.call c next).Obeys (sections use tries) post .before := by
  refine ⟨⟨htries, hreleases, hguarded⟩, fun r _ => ?_⟩
  cases hacquires : use.acquires c r with
  | false => simpa [sections, hacquires] using hfailed r hacquires
  | true => simpa [sections, hacquires] using htaken r hacquires

theorem obeys_plain (htries : ¬ tries c) (hreleases : use.releases c = false)
    (hnext : ∀ r, (next r).Obeys (sections use tries) post .inside) :
    (Program.call c next).Obeys (sections use tries) post .inside := by
  refine ⟨htries, fun r _ => ?_⟩
  simpa [sections, hreleases] using hnext r

theorem obeys_give (htries : ¬ tries c) (hreleases : use.releases c = true)
    (hnext : ∀ r, (next r).Obeys (sections use tries) post .past) :
    (Program.call c next).Obeys (sections use tries) post .inside := by
  refine ⟨htries, fun r _ => ?_⟩
  simpa [sections, hreleases] using hnext r

theorem Program.Remains.ends {p : Program S α} (h : p.Remains use tries .past) : ∃ a, p = .ret a := by
  cases p with
  | ret a => exact ⟨a, rfl⟩
  | call c next => exact h.1.elim

theorem Program.Remains.not_ends {a : α} :
    ¬ (Program.ret a : Program S α).Remains use tries .inside :=
  fun h => h rfl

theorem Program.Remains.takes (h : (Program.call c next).Remains use tries .before)
    (hacquires : use.acquires c r = true) : (next r).Remains use tries .inside := by
  have hnext := h.2 r trivial
  simp only [sections, hacquires, if_true] at hnext
  exact hnext

theorem Program.Remains.fails (h : (Program.call c next).Remains use tries .before)
    (hacquires : use.acquires c r = false) : ∃ a, next r = .ret a := by
  have hnext := h.2 r trivial
  simp only [sections, hacquires, Bool.false_eq_true, if_false] at hnext
  exact Program.Remains.ends hnext

theorem Program.Remains.works (h : (Program.call c next).Remains use tries .inside)
    (hreleases : use.releases c = false) : (next r).Remains use tries .inside := by
  have hnext := h.2 r trivial
  simp only [sections, hreleases, Bool.false_eq_true, if_false] at hnext
  exact hnext

theorem Program.Remains.gives (h : (Program.call c next).Remains use tries .inside)
    (hreleases : use.releases c = true) : ∃ a, next r = .ret a := by
  have hnext := h.2 r trivial
  simp only [sections, hreleases, if_true] at hnext
  exact Program.Remains.ends hnext

variable {perform : E → (c : S.Call) → σ → Option (S.Result c × σ)}
  {handle : (c : S.Call) → σ → Option (S.Result c) × σ}

theorem Program.Remains.disciplined (hlock : Locking use tries perform handle)
    {exempt : S.Call → Prop} {p : Program S α} {phase : Phase} (h : p.Remains use tries phase) :
    p.Disciplined use exempt (fun _ held => held = false) (decide (phase = .inside)) := by
  induction p generalizing phase with
  | ret a => exact decide_eq_false h
  | call c next ih =>
      refine Or.inr ?_
      cases phase with
      | before =>
          obtain ⟨⟨htries, hreleases, hguarded⟩, hnext⟩ := h
          refine ⟨?_, fun r => ⟨fun _ => rfl, ?_⟩⟩
          · rw [hguarded, hreleases]
            rintro (hfalse | hfalse) <;> cases hfalse
          · have hr := ih r (hnext r trivial)
            cases hacquires : use.acquires c r <;>
              simpa [sections, LockUse.after, hacquires, hreleases] using hr
      | inside =>
          obtain ⟨htries, hnext⟩ := h
          refine ⟨fun _ => rfl, fun r => ?_⟩
          have hacquires : use.acquires c r = false :=
            Bool.eq_false_iff.mpr fun hacquires => htries (hlock.acquired c r hacquires)
          refine ⟨fun h => (Bool.false_ne_true (hacquires.symm.trans h)).elim, ?_⟩
          have hr := ih r (hnext r trivial)
          cases hreleases : use.releases c <;>
            simpa [sections, LockUse.after, hacquires, hreleases] using hr
      | past => exact h.1.elim

end Remains

/-- A call that has come to its end, with what it returned and whether it held the lock before. -/
structure Ended (ι J α : Type) where
  thread : ι
  job : J
  locked : Bool
  result : α
  deriving DecidableEq

/-- The job that each thread began last, and the calls that have ended, in that order. -/
structure Record (ι J α : Type) where
  doing : ι → Option J := fun _ => none
  ended : List (Ended ι J α) := []

namespace Record

/-- The entry of a thread whose code has come to its end. -/
def entry (i : ι) (job : Option J) (locked : Bool) (rest : Program S α) : List (Ended ι J α) :=
  match job, rest.value with
  | some j, some a => [⟨i, j, locked, a⟩]
  | _, _ => []

def note [DecidableEq ι] (perform : E → (c : S.Call) → σ → Option (S.Result c × σ))
    (job : J → Program S α) (label : PoolLabel ι E J) (s : Pool S ι σ α) (h : Record ι J α) :
    Record ι J α :=
  match label with
  | .begin i j =>
      ⟨Function.update h.doing i (some j), h.ended ++ entry i (some j) false (job j)⟩
  | .call i env =>
      match s.code i with
      | .ret _ => h
      | .call c next =>
          match perform env c s.shared with
          | none => h
          | some (r, _) => { h with ended := h.ended ++ entry i (h.doing i) (s.held i) (next r) }

/-- The calls that held the lock when they ended. -/
def locked (h : Record ι J α) : List (J × α) :=
  (h.ended.filter (·.locked)).map fun e => (e.job, e.result)

end Record

/-- Jobs done one after the other, with what they return. -/
inductive Serial (handle : (c : S.Call) → σ → Option (S.Result c) × σ) (job : J → Program S α)
    (s : σ) : List (J × α) → σ → Prop where
  | nil : Serial handle job s [] s
  | snoc {calls : List (J × α)} {t u : σ} {j : J} {a : α} (before : Serial handle job s calls t)
      (last : (job j).exec handle t = (some a, u)) : Serial handle job s (calls ++ [(j, a)]) u

/-- Each joining thread that does not hold the lock is idle or at the start of its job; the ones
that hold it are inside their section. -/
structure Sectioned (use : LockUse S) (tries : S.Call → Prop) (job : J → Program S α)
    (joins : ι → Prop) (s : Pool S ι σ α × Record ι J α) : Prop where
  jobs : ∀ i j, joins i → s.2.doing i = some j → (job j).OneSection use tries
  waiting : ∀ i, joins i → s.1.held i = false →
    (∃ a, s.1.code i = .ret a) ∨ ∃ j, s.2.doing i = some j ∧ s.1.code i = job j
  inside : ∀ i, joins i → s.1.held i = true →
    (∃ j, s.2.doing i = some j) ∧ (s.1.code i).Remains use tries .inside

/-- No two threads hold the lock. -/
def Pool.Exclusive (s : Pool S ι σ α) : Prop :=
  ∀ i j, s.held i = true → s.held j = true → i = j

theorem Pool.Balanced.holders_alone [Fintype ι] {use : LockUse S} {exempt : S.Call → Prop}
    {value : σ → Option Nat} {s : Pool S ι σ α} (h : Pool.Balanced use exempt value 1 s) :
    s.Exclusive := by
  classical
  intro i j hi hj
  by_contra hne
  obtain ⟨v, -, hsum⟩ := h.sum
  have hpair : (s.held i).toNat + (s.held j).toNat ≤ s.holders := by
    have hsub : ∑ k ∈ ({i, j} : Finset ι), (s.held k).toNat ≤ ∑ k, (s.held k).toNat :=
      Finset.sum_le_sum_of_subset (Finset.subset_univ _)
    rwa [Finset.sum_pair hne] at hsub
  rw [hi, hj] at hpair
  simp only [Bool.toNat_true] at hpair
  omega

/-- What a step of a joining thread can be. -/
inductive SectionStep (use : LockUse S) (tries : S.Call → Prop) (job : J → Program S α) (i : ι)
    (s : Pool S ι σ α × Record ι J α) (c : S.Call) (next : S.Result c → Program S α)
    (r : S.Result c) (shared : σ) : Prop where
  | fails (j : J) (a : α) (free : s.1.held i = false) (doing : s.2.doing i = some j)
      (start : job j = .call c next) (acquires : use.acquires c r = false)
      (after : use.after false c r = false) (unchanged : shared = s.1.shared) (rest : next r = .ret a)
  | takes (j : J) (free : s.1.held i = false) (doing : s.2.doing i = some j)
      (start : job j = .call c next) (acquires : use.acquires c r = true)
      (after : use.after false c r = true) (rest : (next r).Remains use tries .inside)
  | works (j : J) (held : s.1.held i = true) (doing : s.2.doing i = some j) (plain : ¬ tries c)
      (after : use.after true c r = true) (rest : (next r).Remains use tries .inside)
  | gives (j : J) (a : α) (held : s.1.held i = true) (doing : s.2.doing i = some j)
      (plain : ¬ tries c) (after : use.after true c r = false) (rest : next r = .ret a)

section Steps

variable {use : LockUse S} {tries : S.Call → Prop} {job : J → Program S α} {joins : ι → Prop}
  {perform : E → (c : S.Call) → σ → Option (S.Result c × σ)}
  {handle : (c : S.Call) → σ → Option (S.Result c) × σ}
  {s : Pool S ι σ α × Record ι J α} {i : ι} {env : E} {c : S.Call}
  {next : S.Result c → Program S α} {r : S.Result c} {shared : σ}

theorem Record.entry_call {j : Option J} {locked : Bool} :
    Record.entry i j locked (.call c next) = [] := by
  cases j <;> rfl

theorem Record.entry_inside {j : Option J} {locked : Bool} {p : Program S α}
    (h : p.Remains use tries .inside) : Record.entry i j locked p = [] := by
  cases p with
  | ret a => exact absurd h Program.Remains.not_ends
  | call c next => exact Record.entry_call

theorem Sectioned.call_cases (h : Sectioned use tries job joins s)
    (hlock : Locking use tries perform handle) (hi : joins i) (hcode : s.1.code i = .call c next)
    (hperform : perform env c s.1.shared = some (r, shared)) :
    SectionStep use tries job i s c next r shared := by
  cases hheld : s.1.held i with
  | false =>
      rcases h.waiting i hi hheld with ⟨a, hret⟩ | ⟨j, hdoing, hstart⟩
      · rw [hret] at hcode
        cases hcode
      · have hsection := h.jobs i j hi hdoing
        have hcall : job j = .call c next := hstart.symm.trans hcode
        rw [hcall] at hsection
        obtain ⟨htries, hreleases, -⟩ : tries c ∧ use.releases c = false ∧ use.guarded c = false :=
          hsection.1
        cases hacquires : use.acquires c r with
        | false =>
            obtain ⟨a, hend⟩ := hsection.fails hacquires
            exact .fails j a hheld hdoing hcall hacquires
              (by simp [LockUse.after, hacquires, hreleases])
              (hlock.failed env c _ r _ hperform htries hacquires) hend
        | true =>
            exact .takes j hheld hdoing hcall hacquires (by simp [LockUse.after, hacquires])
              (hsection.takes hacquires)
  | true =>
      obtain ⟨⟨j, hdoing⟩, hinside⟩ := h.inside i hi hheld
      rw [hcode] at hinside
      have htries : ¬ tries c := hinside.1
      have hacquires : use.acquires c r = false :=
        Bool.eq_false_iff.mpr fun hacquires => htries (hlock.acquired c r hacquires)
      cases hreleases : use.releases c with
      | false =>
          exact .works j hheld hdoing htries (by simp [LockUse.after, hacquires, hreleases])
            (hinside.works hreleases)
      | true =>
          obtain ⟨a, hend⟩ := hinside.gives hreleases
          exact .gives j a hheld hdoing htries (by simp [LockUse.after, hacquires, hreleases]) hend

theorem SectionStep.leaves (h : SectionStep use tries job i s c next r shared) :
    (use.after (s.1.held i) c r = false → ∃ a, next r = .ret a) ∧
      (use.after (s.1.held i) c r = true →
        (∃ j, s.2.doing i = some j) ∧ (next r).Remains use tries .inside) := by
  cases h with
  | fails j a free doing start acquires after unchanged rest =>
      rw [free, after]
      exact ⟨fun _ => ⟨a, rest⟩, fun h => (Bool.false_ne_true h).elim⟩
  | takes j free doing start acquires after rest =>
      rw [free, after]
      exact ⟨fun h => (Bool.false_ne_true h.symm).elim, fun _ => ⟨⟨j, doing⟩, rest⟩⟩
  | works j held doing plain after rest =>
      rw [held, after]
      exact ⟨fun h => (Bool.false_ne_true h.symm).elim, fun _ => ⟨⟨j, doing⟩, rest⟩⟩
  | gives j a held doing plain after rest =>
      rw [held, after]
      exact ⟨fun _ => ⟨a, rest⟩, fun h => (Bool.false_ne_true h).elim⟩

variable [DecidableEq ι] {t : Pool S ι σ α × Record ι J α} {j : J}

/-- A step of the pool, noted in the record. -/
abbrev recordedStep (use : LockUse S) (perform : E → (c : S.Call) → σ → Option (S.Result c × σ))
    (job : J → Program S α) :
    PoolLabel ι E J → Pool S ι σ α × Record ι J α → Option (Pool S ι σ α × Record ι J α) :=
  noting (Pool.step use perform job) (Record.note perform job)

theorem recorded_call (hstep : recordedStep use perform job (.call i env) s = some t) :
    ∃ c next r shared, s.1.code i = .call c next ∧ perform env c s.1.shared = some (r, shared) ∧
      t.1 = ⟨shared, Function.update s.1.code i (next r),
        Function.update s.1.held i (use.after (s.1.held i) c r)⟩ ∧
      t.2 = ⟨s.2.doing, s.2.ended ++ Record.entry i (s.2.doing i) (s.1.held i) (next r)⟩ := by
  obtain ⟨hpool, hnote⟩ := noting_eq_some hstep
  simp only [Pool.step] at hpool
  split at hpool
  · cases hpool
  · next c next hcode =>
      obtain ⟨⟨r, shared⟩, hperform, hpool⟩ := Option.map_eq_some_iff.mp hpool
      refine ⟨c, next, r, shared, hcode, hperform, hpool.symm, ?_⟩
      rw [hnote]
      simp only [Record.note, hcode, hperform]

theorem recorded_begin (hstep : recordedStep use perform job (.begin i j) s = some t) :
    ∃ a, s.1.code i = .ret a ∧
      t.1 = { s.1 with code := Function.update s.1.code i (job j) } ∧
      t.2 = ⟨Function.update s.2.doing i (some j),
        s.2.ended ++ Record.entry i (some j) false (job j)⟩ := by
  obtain ⟨hpool, hnote⟩ := noting_eq_some hstep
  simp only [Pool.step] at hpool
  split at hpool
  · next a hcode => exact ⟨a, hcode, (Option.some.inj hpool).symm, hnote⟩
  · cases hpool

/-- The joining threads begin jobs of one section. -/
def BeginsSections (use : LockUse S) (tries : S.Call → Prop) (job : J → Program S α)
    (joins : ι → Prop) : PoolLabel ι E J → Prop
  | .begin i j => joins i → (job j).OneSection use tries
  | .call _ _ => True

theorem Sectioned.step (h : Sectioned use tries job joins s)
    (hlock : Locking use tries perform handle) {label : PoolLabel ι E J}
    (hbegins : BeginsSections use tries job joins label)
    (hstep : recordedStep use perform job label s = some t) : Sectioned use tries job joins t := by
  cases label with
  | begin i j =>
      obtain ⟨a, hidle, hpool, hrecord⟩ := recorded_begin hstep
      refine ⟨?_, ?_, ?_⟩
      · intro k j' hk hdoing
        rw [hrecord] at hdoing
        by_cases hki : k = i
        · subst hki
          obtain rfl : j = j' := by simpa using hdoing
          exact hbegins hk
        · exact h.jobs k j' hk (by simpa [hki] using hdoing)
      · intro k hk hheld
        rw [hpool] at hheld
        rw [hpool, hrecord]
        by_cases hki : k = i
        · subst hki
          exact Or.inr ⟨j, by simp, by simp⟩
        · simpa [hki] using h.waiting k hk hheld
      · intro k hk hheld
        rw [hpool] at hheld
        rw [hpool, hrecord]
        have hinside := h.inside k hk hheld
        by_cases hki : k = i
        · subst hki
          rw [hidle] at hinside
          exact absurd hinside.2 Program.Remains.not_ends
        · simpa [hki] using hinside
  | call i env =>
      obtain ⟨c, next, r, shared, hcode, hperform, hpool, hrecord⟩ := recorded_call hstep
      have hdoing : t.2.doing = s.2.doing := by rw [hrecord]
      have hother : ∀ k, k ≠ i → t.1.code k = s.1.code k ∧ t.1.held k = s.1.held k := by
        intro k hk
        rw [hpool]
        simp [hk]
      have hself : t.1.code i = next r ∧ t.1.held i = use.after (s.1.held i) c r := by
        rw [hpool]
        simp
      refine ⟨fun k j hk hk' => h.jobs k j hk (hdoing ▸ hk'), ?_, ?_⟩
      · intro k hk hheld
        rw [hdoing]
        by_cases hki : k = i
        · subst hki
          rw [hself.1]
          exact Or.inl ((h.call_cases hlock hk hcode hperform).leaves.1 (hself.2 ▸ hheld))
        · rw [(hother k hki).1]
          exact h.waiting k hk ((hother k hki).2 ▸ hheld)
      · intro k hk hheld
        rw [hdoing]
        by_cases hki : k = i
        · subst hki
          rw [hself.1]
          exact (h.call_cases hlock hk hcode hperform).leaves.2 (hself.2 ▸ hheld)
        · rw [(hother k hki).1]
          exact h.inside k hk ((hother k hki).2 ▸ hheld)

end Steps

/-- The calls that held the lock have been done one after the other, up to `u`; the thread that
holds it now has gone on from there, and is the only one. -/
structure Serialized (use : LockUse S) (tries : S.Call → Prop)
    (handle : (c : S.Call) → σ → Option (S.Result c) × σ) (job : J → Program S α) (start : σ)
    (s : Pool S ι σ α × Record ι J α) (u : σ) : Prop where
  sectioned : Sectioned use tries job (fun _ => True) s
  serial : Serial handle job start s.2.locked u
  resting : (∀ i, s.1.held i = false) → s.1.shared = u
  working : ∀ i, s.1.held i = true → ∃ j calls, s.2.doing i = some j ∧
    Leads handle (job j) u calls (s.1.code i) s.1.shared
  refused : ∀ e ∈ s.2.ended, e.locked = false → (job e.job).Refused use e.result

section Serialized

variable {use : LockUse S} {tries : S.Call → Prop} {job : J → Program S α}
  {perform : E → (c : S.Call) → σ → Option (S.Result c × σ)}
  {handle : (c : S.Call) → σ → Option (S.Result c) × σ} {start u : σ}
  {s t : Pool S ι σ α × Record ι J α}

theorem Record.mem_entry {i : ι} {j : Option J} {locked : Bool} {p : Program S α}
    {e : Ended ι J α} (he : e ∈ Record.entry i j locked p) :
    e.thread = i ∧ j = some e.job ∧ e.locked = locked ∧ p = .ret e.result := by
  unfold Record.entry at he
  split at he
  · next job a hvalue =>
      obtain rfl := List.mem_singleton.mp he
      exact ⟨rfl, rfl, rfl, value_eq_some.mp hvalue⟩
  · cases he

theorem Record.locked_append_free {h : Record ι J α} {doing : ι → Option J} {i : ι}
    {j : Option J} {p : Program S α} :
    (⟨doing, h.ended ++ Record.entry i j false p⟩ : Record ι J α).locked = h.locked := by
  have hnone : (Record.entry i j false p).filter (·.locked) = [] := by
    refine List.filter_eq_nil_iff.mpr fun e he => ?_
    rw [(Record.mem_entry he).2.2.1]
    exact Bool.false_ne_true
  rw [Record.locked, List.filter_append, hnone, List.append_nil]
  rfl

theorem Record.locked_append {h : Record ι J α} {doing : ι → Option J} {i : ι} {j : J} {a : α} :
    (⟨doing, h.ended ++ [⟨i, j, true, a⟩]⟩ : Record ι J α).locked = h.locked ++ [(j, a)] := by
  simp [Record.locked]

variable [DecidableEq ι] {i : ι} {j : J} {env : E}

/-- A thread begins a job; a job without any call ends at once. -/
theorem Serialized.begins (h : Serialized use tries handle job start s u)
    (hlock : Locking use tries perform handle) (hjob : (job j).OneSection use tries)
    (hstep : recordedStep use perform job (.begin i j) s = some t) :
    Serialized use tries handle job start t u := by
  have hbegins : BeginsSections use tries job (fun _ => True) (.begin i j : PoolLabel ι E J) :=
    fun _ => hjob
  have hsectioned := h.sectioned.step hlock hbegins hstep
  obtain ⟨a, hidle, hpool, hrecord⟩ := recorded_begin hstep
  have hheld : t.1.held = s.1.held ∧ t.1.shared = s.1.shared := by
    rw [hpool]
    exact ⟨rfl, rfl⟩
  have hworking : ∀ k, t.1.held k = true → ∃ j calls, t.2.doing k = some j ∧
      Leads handle (job j) u calls (t.1.code k) t.1.shared := by
    intro k hk
    rw [hheld.1] at hk
    by_cases hki : k = i
    · subst hki
      have hinside := (h.sectioned.inside k trivial hk).2
      rw [hidle] at hinside
      exact absurd hinside Program.Remains.not_ends
    · rw [hpool, hrecord]
      simpa [hki] using h.working k hk
  have hresting : (∀ k, t.1.held k = false) → t.1.shared = u := by
    rw [hheld.1, hheld.2]
    exact h.resting
  refine ⟨hsectioned, ?_, hresting, hworking, ?_⟩
  · rw [hrecord, Record.locked_append_free]
    exact h.serial
  · rw [hrecord]
    intro e he hfree
    rcases List.mem_append.mp he with hbefore | hlast
    · exact h.refused e hbefore hfree
    · obtain ⟨-, hjob', -, hend⟩ := Record.mem_entry hlast
      obtain rfl := Option.some.inj hjob'
      exact Or.inl hend

/-- With the lock in its hands a thread finds the state that the last call has left. -/
theorem Serialized.calls (h : Serialized use tries handle job start s u)
    (hlock : Locking use tries perform handle) (halone : s.1.Exclusive) (halone' : t.1.Exclusive)
    (hstep : recordedStep use perform job (.call i env) s = some t) :
    ∃ u', Serialized use tries handle job start t u' := by
  have hbegins : BeginsSections use tries job (fun _ => True) (.call i env : PoolLabel ι E J) :=
    trivial
  have hsectioned := h.sectioned.step hlock hbegins hstep
  obtain ⟨c, next, r, shared, hcode, hperform, hpool, hrecord⟩ := recorded_call hstep
  have hself : t.1.code i = next r ∧ t.1.held i = use.after (s.1.held i) c r ∧
      t.1.shared = shared := by
    rw [hpool]
    simp
  have hother : ∀ k, k ≠ i → t.1.code k = s.1.code k ∧ t.1.held k = s.1.held k := by
    intro k hk
    rw [hpool]
    simp [hk]
  have hdoing : t.2.doing = s.2.doing := by rw [hrecord]
  cases h.sectioned.call_cases hlock trivial hcode hperform with
  | fails j a free doing calls acquires after unchanged rest =>
      have hheld : t.1.held = s.1.held := by
        funext k
        by_cases hk : k = i
        · rw [hk, hself.2.1, free, after]
        · exact (hother k hk).2
      rw [free] at hrecord
      refine ⟨u, hsectioned, ?_, ?_, ?_, ?_⟩
      · rw [hrecord, Record.locked_append_free]
        exact h.serial
      · rw [hheld, hself.2.2, unchanged]
        exact h.resting
      · intro k hk
        have hne : k ≠ i := by
          rintro rfl
          rw [hheld, free] at hk
          cases hk
        rw [hdoing, (hother k hne).1, hself.2.2, unchanged]
        exact h.working k (hheld ▸ hk)
      · rw [hrecord]
        intro e he hfree
        rcases List.mem_append.mp he with hbefore | hlast
        · exact h.refused e hbefore hfree
        · obtain ⟨-, hjob', -, hend⟩ := Record.mem_entry hlast
          obtain rfl := Option.some.inj (doing.symm.trans hjob')
          exact Or.inr ⟨c, next, r, calls, acquires, hend⟩
  | takes j free doing calls acquires after rest =>
      have htaken : t.1.held i = true := by rw [hself.2.1, free, after]
      -- nobody else holds the lock, before the step as after it
      have hnone : ∀ k, s.1.held k = false := by
        intro k
        by_cases hk : k = i
        · rw [hk, free]
        · rw [← (hother k hk).2]
          exact Bool.eq_false_iff.mpr fun hheld => hk (halone' k i hheld htaken)
      have hanswer : handle c u = (some r, shared) := by
        rw [← h.resting hnone]
        exact hlock.answered env c _ r _ hperform fun _ => acquires
      have hended : t.2 = s.2 := by
        rw [hrecord, Record.entry_inside rest, List.append_nil]
      refine ⟨u, hsectioned, hended ▸ h.serial, ?_, ?_, hended ▸ h.refused⟩
      · intro hall
        rw [hall i] at htaken
        cases htaken
      · intro k hk
        obtain rfl := halone' k i hk htaken
        refine ⟨j, [⟨c, r⟩], hdoing ▸ doing, ?_⟩
        rw [calls, hself.1, hself.2.2]
        exact .call hanswer .refl
  | works j held doing plain after rest =>
      have hended : t.2 = s.2 := by
        rw [hrecord, Record.entry_inside rest, List.append_nil]
      have hkept : t.1.held i = true := by rw [hself.2.1, held, after]
      obtain ⟨j', calls, hdoing', hleads⟩ := h.working i held
      rw [hcode] at hleads
      have hanswer := hlock.answered env c _ r _ hperform fun htries => absurd htries plain
      refine ⟨u, hsectioned, hended ▸ h.serial, ?_, ?_, hended ▸ h.refused⟩
      · intro hall
        rw [hall i] at hkept
        cases hkept
      · intro k hk
        obtain rfl := halone' k i hk hkept
        refine ⟨j', calls ++ [⟨c, r⟩], hdoing ▸ hdoing', ?_⟩
        rw [hself.1, hself.2.2]
        exact hleads.trans (.call hanswer .refl)
  | gives j a held doing plain after rest =>
      obtain ⟨j', calls, hdoing', hleads⟩ := h.working i held
      obtain rfl : j = j' := Option.some.inj (doing.symm.trans hdoing')
      rw [hcode] at hleads
      have hanswer := hlock.answered env c _ r _ hperform fun htries => absurd htries plain
      have hend : (job j).exec handle u = (some a, shared) := by
        rw [(hleads.trans (.call hanswer .refl)).exec_eq, rest]
        rfl
      have hentry : t.2 = ⟨s.2.doing, s.2.ended ++ [⟨i, j, true, a⟩]⟩ := by
        rw [hrecord, doing, rest, held]
        rfl
      have hnone : ∀ k, t.1.held k = false := by
        intro k
        by_cases hk : k = i
        · rw [hk, hself.2.1, held, after]
        · rw [(hother k hk).2]
          exact Bool.eq_false_iff.mpr fun hheld => hk (halone k i hheld held)
      refine ⟨shared, hsectioned, ?_, fun _ => hself.2.2, ?_, ?_⟩
      · rw [hentry, Record.locked_append]
        exact .snoc h.serial hend
      · intro k hk
        rw [hnone k] at hk
        cases hk
      · rw [hentry]
        intro e he hfree
        rcases List.mem_append.mp he with hbefore | hlast
        · exact h.refused e hbefore hfree
        · obtain rfl := List.mem_singleton.mp hlast
          cases hfree

/-- Idle threads around a lock that is free. -/
def Pool.idle (shared : σ) (a : α) : Pool S ι σ α := ⟨shared, fun _ => .ret a, fun _ => false⟩

/-- In every run of a pool whose threads only begin jobs of one section, the calls that got the
lock have returned what they return one after the other, in the order in which they ended. While
nobody holds the lock the shared state is what they leave; a call that did not get the lock has
done nothing. -/
theorem serialized_of_run [Fintype ι] (hlock : Locking use tries perform handle)
    {value : σ → Option Nat} (hcounts : Pool.Counts use perform value) (hvalue : value start = some 1)
    {a : α} (hjob : ∀ j, (job j).OneSection use tries)
    (hrun : Run (recordedStep use perform job) (fun _ _ => True) (Pool.idle start a, {}) s) :
    ∃ u, Serialized use tries handle job start s u := by
  have hinvariant : Pool.Balanced use (fun _ => False) value 1 s.1 ∧
      ∃ u, Serialized use tries handle job start s u := by
    induction hrun with
    | start =>
        refine ⟨⟨fun _ => rfl, 1, hvalue, by simp [Pool.holders, Pool.idle]⟩, start,
          ⟨?_, ?_, ?_⟩, .nil, fun _ => rfl, ?_, ?_⟩
        · intro i j _ hdoing
          cases hdoing
        · exact fun i _ _ => Or.inl ⟨a, rfl⟩
        · intro i _ hheld
          cases hheld
        · intro i hheld
          cases hheld
        · intro e he
          cases he
    | next label _ _ hstep ih =>
        obtain ⟨hbalanced, u, h⟩ := ih
        have hpool := (noting_eq_some hstep).1
        have havoids : ∀ s : Pool S ι σ α, Pool.Avoids (fun _ => False) s label := by
          intro s
          cases label with
          | call i env => exact fun _ _ h => h
          | begin i j => trivial
        have hbalanced' := hbalanced.step hcounts (fun j => (hjob j).disciplined hlock)
          (havoids _) hpool
        refine ⟨hbalanced', ?_⟩
        cases label with
        | call i env => exact h.calls hlock hbalanced.holders_alone hbalanced'.holders_alone hstep
        | begin i j => exact ⟨u, h.begins hlock (hjob j) hstep⟩
  exact hinvariant.2

end Serialized

end YaskawaComms
