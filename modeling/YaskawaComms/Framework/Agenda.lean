import Mathlib.Data.List.Basic

/-!
# Jobs that take turns

Every slot has at most one job running, and the jobs of all slots are written down in the order in
which they begin. A job that has ended stays as it is.
-/

namespace YaskawaComms

/-- A job runs until it has an ending. -/
structure Job (ι κ ε : Type) where
  slot : ι
  name : κ
  ending : Option ε

namespace Job

variable {ι κ ε : Type}

/-- The same job at the same time or later. -/
inductive Later : Job ι κ ε → Job ι κ ε → Prop where
  | same (job : Job ι κ ε) : Later job job
  | ended {job : Job ι κ ε} (h : job.ending = none) (e : ε) : Later job { job with ending := some e }

theorem Later.trans {a b c : Job ι κ ε} (h : Later a b) (h' : Later b c) : Later a c := by
  cases h with
  | same => exact h'
  | ended hrunning e =>
      cases h' with
      | same => exact .ended hrunning e
      | ended hnone _ => cases hnone

theorem Later.name_eq {a b : Job ι κ ε} (h : Later a b) : b.name = a.name := by
  cases h with
  | same => rfl
  | ended => rfl

/-- End the job in this way, unless it has ended or is to go on. -/
def settle (job : Job ι κ ε) (how : Option ε) : Job ι κ ε := { job with ending := job.ending.or how }

theorem later_settle (job : Job ι κ ε) (how : Option ε) : Later job (job.settle how) := by
  obtain ⟨slot, name, ending⟩ := job
  cases ending with
  | some e => exact .same _
  | none =>
      cases how with
      | none => exact .same _
      | some e => exact .ended rfl e

end Job

/-- All jobs so far. -/
abbrev Agenda (ι κ ε : Type) := List (Job ι κ ε)

namespace Agenda

variable {ι κ ε : Type}

/-- Nothing is lost: every job so far keeps its place, and is there as it is by then. -/
def Continues (l l' : Agenda ι κ ε) : Prop :=
  ∀ (k : Nat) (job : Job ι κ ε), l[k]? = some job → ∃ job', l'[k]? = some job' ∧ job.Later job'

theorem Continues.refl (l : Agenda ι κ ε) : l.Continues l :=
  fun _ job hjob => ⟨job, hjob, .same job⟩

theorem Continues.trans {l l' l'' : Agenda ι κ ε} (h : l.Continues l') (h' : l'.Continues l'') :
    l.Continues l'' := by
  intro k job hjob
  obtain ⟨job', hjob', hlater⟩ := h k job hjob
  obtain ⟨job'', hjob'', hlater'⟩ := h' k job' hjob'
  exact ⟨job'', hjob'', hlater.trans hlater'⟩

theorem continues_append (l more : Agenda ι κ ε) : l.Continues (l ++ more) := by
  intro k other hother
  have hk : k < l.length := (List.getElem?_eq_some_iff.mp hother).1
  exact ⟨other, by rwa [List.getElem?_append_left hk], .same other⟩

theorem Continues.named {l₁ l₂ l : Agenda ι κ ε} (h : l₁.Continues l₂) (h' : l₂.Continues l)
    (hnodup : (l.map Job.name).Nodup) {job job' : Job ι κ ε} (hjob : job ∈ l₁) (hjob' : job' ∈ l₂)
    (hname : job.name = job'.name) : job.Later job' := by
  obtain ⟨k, hk⟩ := List.mem_iff_getElem?.mp hjob
  obtain ⟨k', hk'⟩ := List.mem_iff_getElem?.mp hjob'
  obtain ⟨next, hnext, hlater⟩ := h k job hk
  obtain ⟨last, hlast, hnextLast⟩ := h' k next hnext
  obtain ⟨last', hlast', hjobLast⟩ := h' k' job' hk'
  have hsame : (l.map Job.name)[k]? = (l.map Job.name)[k']? := by
    rw [List.getElem?_map, List.getElem?_map, hlast, hlast', Option.map_some, Option.map_some,
      hnextLast.name_eq, hlater.name_eq, hname, hjobLast.name_eq]
  have hlt : k < (l.map Job.name).length := by
    rw [List.length_map]
    exact (List.getElem?_eq_some_iff.mp hlast).1
  obtain rfl : k = k' := (List.getElem?_inj hlt hnodup).mp hsame
  obtain rfl : next = job' := Option.some.inj (hnext.symm.trans hk')
  exact hlater

/-- In each slot, end what is running in the slot's way. -/
def settle (how : ι → Option ε) (l : Agenda ι κ ε) : Agenda ι κ ε := l.map fun job => job.settle (how job.slot)

theorem names_settle (how : ι → Option ε) (l : Agenda ι κ ε) :
    (l.settle how).map Job.name = l.map Job.name := by
  rw [settle, List.map_map]
  rfl

theorem continues_settle (how : ι → Option ε) (l : Agenda ι κ ε) : l.Continues (l.settle how) := by
  intro k job hjob
  refine ⟨job.settle (how job.slot), ?_, job.later_settle _⟩
  rw [settle, List.getElem?_map, hjob]
  rfl

variable [DecidableEq ι]

/-- The jobs of a slot. -/
def within (l : Agenda ι κ ε) (i : ι) : Agenda ι κ ε := l.filter fun job => job.slot = i

/-- The last job of a slot. -/
def current (l : Agenda ι κ ε) (i : ι) : Option (Job ι κ ε) := (l.within i).getLast?

theorem mem_of_current {l : Agenda ι κ ε} {i : ι} {job : Job ι κ ε} (h : l.current i = some job) : job ∈ l :=
  List.mem_of_mem_filter (List.mem_of_getLast? h)

theorem within_settle (how : ι → Option ε) (l : Agenda ι κ ε) (i : ι) :
    (l.settle how).within i = (l.within i).map fun job => job.settle (how i) := by
  induction l with
  | nil => rfl
  | cons job l ih =>
      have hslot : (job.settle (how job.slot)).slot = job.slot := rfl
      rw [within, within, settle, List.map_cons, List.filter_cons, List.filter_cons, hslot]
      by_cases h : job.slot = i
      · rw [if_pos (decide_eq_true h), if_pos (decide_eq_true h), List.map_cons, h]
        exact congrArg _ ih
      · rw [if_neg (by simpa using h), if_neg (by simpa using h)]
        exact ih

theorem current_settle (how : ι → Option ε) (l : Agenda ι κ ε) (i : ι) :
    (l.settle how).current i = (l.current i).map fun job => job.settle (how i) := by
  rw [current, within_settle, List.getLast?_map]
  rfl

theorem within_begin (l : Agenda ι κ ε) (job : Job ι κ ε) (i : ι) :
    within (l ++ [job]) i = if job.slot = i then l.within i ++ [job] else l.within i := by
  rw [within, List.filter_append, List.filter_singleton]
  by_cases h : job.slot = i
  · rw [if_pos h, decide_eq_true h]
    rfl
  · rw [if_neg h, decide_eq_false h]
    exact List.append_nil _

theorem current_begin (l : Agenda ι κ ε) (job : Job ι κ ε) (i : ι) :
    current (l ++ [job]) i = if job.slot = i then some job else l.current i := by
  rw [current, within_begin]
  split
  · exact List.getLast?_concat
  · rfl

/-- In every slot, a job begins only when the one before it has ended. -/
def Orderly (l : Agenda ι κ ε) : Prop := ∀ i, ∀ job ∈ (l.within i).dropLast, job.ending ≠ none

theorem orderly_nil : Orderly ([] : Agenda ι κ ε) := by
  intro i
  exact List.forall_mem_nil _

theorem Orderly.settle {l : Agenda ι κ ε} (h : l.Orderly) (how : ι → Option ε) : (l.settle how).Orderly := by
  intro i
  rw [within_settle, ← List.map_dropLast, List.forall_mem_map]
  intro job hjob
  cases hending : job.ending with
  | none => exact absurd hending (h i job hjob)
  | some e =>
      rw [Job.settle, hending]
      exact Option.some_ne_none e

theorem Orderly.begin {l : Agenda ι κ ε} (h : l.Orderly) {job : Job ι κ ε}
    (hfree : ∀ last, l.current job.slot = some last → last.ending ≠ none) : Orderly (l ++ [job]) := by
  intro i
  rw [within_begin]
  split
  · next hi =>
      rw [List.dropLast_concat]
      intro other hother
      subst hi
      have hne : l.within job.slot ≠ [] := List.ne_nil_of_mem hother
      rw [← List.dropLast_concat_getLast hne] at hother
      rcases List.mem_append.mp hother with hbefore | hlast
      · exact h _ other hbefore
      · rw [List.mem_singleton.mp hlast]
        exact hfree _ (List.getLast?_eq_some_getLast hne)
  · exact h i

end Agenda

end YaskawaComms
