import Mathlib.Data.List.Basic

namespace NavCaster.Library

variable {A : Type} {set reset : A → Prop} {l : List A}

/-- Something has been set, and not been reset since. -/
def Since (set reset : A → Prop) (l : List A) : Prop :=
  ∃ before a after, l = before ++ a :: after ∧ set a ∧ ∀ b ∈ after, ¬ reset b

namespace Since

theorem nil : ¬ Since set reset [] := by
  rintro ⟨before, a, after, heq, -, -⟩
  exact List.append_ne_nil_of_right_ne_nil before (List.cons_ne_nil a after) heq.symm

theorem concat (a : A) : Since set reset (l ++ [a]) ↔ set a ∨ Since set reset l ∧ ¬ reset a := by
  constructor
  · rintro ⟨before, b, after, heq, hset, hreset⟩
    rcases List.eq_nil_or_concat after with rfl | ⟨after, c, rfl⟩
    · obtain ⟨-, hb⟩ := List.append_inj' heq rfl
      cases hb
      exact .inl hset
    · rw [List.concat_eq_append] at heq hreset
      rw [← List.cons_append, ← List.append_assoc] at heq
      obtain ⟨hl, hc⟩ := List.append_inj' heq rfl
      cases hc
      refine .inr
        ⟨⟨before, b, after, hl, hset, fun d hd ↦ hreset d (List.mem_append_left _ hd)⟩, ?_⟩
      exact hreset a (List.mem_append_right _ (List.mem_singleton_self a))
  · rintro (hset | ⟨⟨before, b, after, rfl, hset, hreset⟩, ha⟩)
    · exact ⟨l, a, [], rfl, hset, nofun⟩
    · refine ⟨before, b, after ++ [a], by simp, hset, fun d hd ↦ ?_⟩
      rcases List.mem_append.mp hd with hd | hd
      · exact hreset d hd
      · cases List.mem_singleton.mp hd
        exact ha

end Since

end NavCaster.Library
