import Mathlib.Logic.Relation
import Mathlib.Data.List.Basic

namespace NavCaster.Library

/-- A labelled transition system whose steps emit events. `none` refuses the action. -/
structure Machine (S A E : Type) where
  step : S → A → Option (S × List E)

namespace Machine

variable {S A E T : Type} (M : Machine S A E)

/-- The states reached from `s` by steps that all meet `ok`. -/
inductive Reach (ok : S → A → Prop) (s : S) : S → Prop
  | refl : Reach ok s s
  | tail {t u : S} {a : A} {es : List E} :
      Reach ok s t → ok t a → M.step t a = some (u, es) → Reach ok s u

abbrev Reachable (s t : S) : Prop := M.Reach (fun _ _ ↦ True) s t

variable {M} {ok ok' : S → A → Prop} {s t u : S}

theorem Reach.mono (h : M.Reach ok s t) (hok : ∀ s a, ok s a → ok' s a) : M.Reach ok' s t := by
  induction h with
  | refl => exact .refl
  | tail _ ha hs ih => exact ih.tail (hok _ _ ha) hs

theorem Reach.trans (h : M.Reach ok s t) (h' : M.Reach ok t u) : M.Reach ok s u := by
  induction h' with
  | refl => exact h
  | tail _ ha hs ih => exact ih.tail ha hs

/-- What the start has and every step that meets `ok` preserves holds of every state reached. -/
theorem Reach.invariant {I : S → Prop} (h : M.Reach ok s t) (hs : I s)
    (hstep : ∀ t a u es, I t → ok t a → M.step t a = some (u, es) → I u) : I t := by
  induction h with
  | refl => exact hs
  | tail _ ha hst ih => exact hstep _ _ _ _ ih ha hst

/-- If every step is a finite sequence of steps of `r` under the abstraction `f`, so is a run. -/
theorem Reach.simulates {I : S → Prop} {r : T → T → Prop} {f : S → T} (h : M.Reach ok s t)
    (hs : I s) (hinv : ∀ t a u es, I t → ok t a → M.step t a = some (u, es) → I u)
    (hstep : ∀ t a u es, I t → ok t a → M.step t a = some (u, es) →
      Relation.ReflTransGen r (f t) (f u)) : Relation.ReflTransGen r (f s) (f t) := by
  induction h with
  | refl => exact .refl
  | tail h ha hst ih => exact ih.trans (hstep _ _ _ _ (h.invariant hs hinv) ha hst)

variable (M) in
/-- Performs the actions in order and collects the events. -/
def exec (s : S) : List A → Option (S × List E)
  | [] => some (s, [])
  | a :: as =>
    match M.step s a with
    | none => none
    | some (t, es) => (exec t as).map fun p ↦ (p.1, es ++ p.2)

variable (M) in
theorem exec_cons (a : A) (as : List A) : M.exec s (a :: as) =
    (M.step s a).bind fun p ↦ (M.exec p.1 as).map fun q ↦ (q.1, p.2 ++ q.2) := by
  rw [exec]
  cases M.step s a <;> rfl

variable (M) in
theorem exec_append (as bs : List A) : M.exec s (as ++ bs) =
    (M.exec s as).bind fun p ↦ (M.exec p.1 bs).map fun q ↦ (q.1, p.2 ++ q.2) := by
  induction as generalizing s with
  | nil => exact (Option.map_id' (x := M.exec s bs)).symm
  | cons a as ih =>
    rw [List.cons_append, exec_cons, exec_cons]
    cases M.step s a with
    | none => rfl
    | some p =>
      dsimp only [Option.bind]
      rw [ih]
      cases M.exec p.1 as with
      | none => rfl
      | some q =>
        dsimp only [Option.bind, Option.map]
        cases M.exec q.1 bs with
        | none => rfl
        | some r => exact congrArg (fun es ↦ some (r.1, es)) (List.append_assoc ..).symm

/-- A run of some actions is a step and the run of the others. -/
theorem step_of_exec_cons {a : A} {as : List A} {es : List E}
    (h : M.exec s (a :: as) = some (t, es)) :
    ∃ u es₁ es₂, M.step s a = some (u, es₁) ∧ M.exec u as = some (t, es₂) ∧ es = es₁ ++ es₂ := by
  rw [exec_cons] at h
  obtain ⟨⟨u, es₁⟩, hstep, hrest⟩ := Option.bind_eq_some_iff.mp h
  obtain ⟨⟨t', es₂⟩, hexec, heq⟩ := Option.map_eq_some_iff.mp hrest
  cases heq
  exact ⟨u, es₁, es₂, hstep, hexec, rfl⟩

variable (M) in
/-- Each action of the list meets `ok` in the state in which it is performed. -/
def Meets (ok : S → A → Prop) (s : S) : List A → Prop
  | [] => True
  | a :: as => ok s a ∧
    match M.step s a with
    | none => True
    | some p => Meets ok p.1 as

instance instDecidableMeets [∀ s a, Decidable (ok s a)] :
    ∀ (s : S) (as : List A), Decidable (M.Meets ok s as)
  | _, [] => isTrue trivial
  | s, a :: as => @instDecidableAnd _ _ inferInstance <|
    match M.step s a with
    | none => isTrue trivial
    | some p => instDecidableMeets p.1 as

theorem reach_of_exec {as : List A} {es : List E} (hok : M.Meets ok s as)
    (h : M.exec s as = some (t, es)) : M.Reach ok s t := by
  induction as generalizing s es with
  | nil => cases h; exact .refl
  | cons a as ih =>
    obtain ⟨u, es₁, es₂, hstep, hexec, _⟩ := step_of_exec_cons h
    obtain ⟨ha, has⟩ := hok
    rw [hstep] at has
    exact (Reach.refl.tail ha hstep).trans (ih has hexec)

theorem meets_of_forall {as : List A} (h : ∀ a ∈ as, ∀ s, ok s a) (s : S) : M.Meets ok s as := by
  induction as generalizing s with
  | nil => trivial
  | cons a as ih =>
    refine ⟨h a (List.mem_cons_self ..) s, ?_⟩
    split
    · trivial
    · exact ih (fun b hb ↦ h b (.tail a hb)) _

theorem Meets.mono {as : List A} (h : M.Meets ok s as) (hok : ∀ s a, ok s a → ok' s a) :
    M.Meets ok' s as := by
  induction as generalizing s with
  | nil => trivial
  | cons a as ih =>
    obtain ⟨ha, has⟩ := h
    refine ⟨hok s a ha, ?_⟩
    split at has
    · trivial
    · exact ih has

theorem meets_congr {I : S → Prop} (hs : I s)
    (hstep : ∀ s a t es, I s → M.step s a = some (t, es) → I t)
    (h : ∀ s a, I s → (ok s a ↔ ok' s a)) (as : List A) : M.Meets ok s as ↔ M.Meets ok' s as := by
  induction as generalizing s with
  | nil => exact Iff.rfl
  | cons a as ih =>
    refine and_congr (h s a hs) ?_
    cases hst : M.step s a with
    | none => exact Iff.rfl
    | some p => exact ih (hstep s a p.1 p.2 hs hst)

theorem exists_reach {V : Type} {p : S → A → Prop} (f : S → V) {v : V} {l : List A}
    (hok : M.Meets p s l) (h : (M.exec s l).map (fun q ↦ f q.1) = some v) :
    ∃ t, M.Reach p s t ∧ f t = v := by
  obtain ⟨q, hq, hv⟩ := Option.map_eq_some_iff.mp h
  exact ⟨q.1, reach_of_exec hok hq, hv⟩

end Machine

end NavCaster.Library
