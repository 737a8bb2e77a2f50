import Mathlib.Data.List.Induction

namespace NavCaster.Library.Window

variable {A : Type} (time : A → Int) (size : Int)

/-- An element comes at the end, and at the front goes what is too old then. -/
def push (window : List A) (a : A) : List A :=
  (window ++ [a]).dropWhile fun b ↦ size < time a - time b

def recent (now : Int) (l : List A) : List A := l.filter fun a ↦ now - time a ≤ size

theorem dropWhile_eq_filter {p : A → Bool} {l : List A} (h : l.Pairwise fun a b ↦ p b → p a) :
    l.dropWhile p = l.filter fun a ↦ !p a := by
  induction l with
  | nil => rfl
  | cons a l ih =>
    obtain ⟨hhead, htail⟩ := List.pairwise_cons.mp h
    by_cases ha : p a = true
    · rw [List.dropWhile_cons_of_pos ha, List.filter_cons_of_neg (by simp [ha]), ih htail]
    · rw [List.dropWhile_cons_of_neg ha, List.filter_eq_self.mpr]
      intro b hb
      obtain rfl | hb := List.mem_cons.mp hb
      · simp [ha]
      · simp [mt (hhead b hb) ha]

variable {time size}

theorem push_recent {l : List A} {a : A} {now : Int}
    (h : (l ++ [a]).Pairwise fun b c ↦ time b ≤ time c) (hnow : now ≤ time a) :
    push time size (recent time size now l) a = recent time size (time a) (l ++ [a]) := by
  have hsorted : (recent time size now l ++ [a]).Pairwise fun b c ↦ time b ≤ time c :=
    h.sublist (List.filter_sublist.append_right [a])
  have hdrop : push time size (recent time size now l) a =
      (recent time size now l ++ [a]).filter fun b ↦ !decide (size < time a - time b) := by
    apply dropWhile_eq_filter
    refine hsorted.imp fun {b c} hbc hc ↦ ?_
    rw [decide_eq_true_eq] at hc ⊢
    omega
  rw [hdrop]
  unfold recent
  rw [List.filter_append, List.filter_append, List.filter_filter]
  -- What was too old before is too old at the later time.
  congr 1 <;> refine List.filter_congr fun b _ ↦ ?_
  · rw [Bool.eq_iff_iff, Bool.and_eq_true, Bool.not_eq_true', decide_eq_false_iff_not,
      decide_eq_true_eq, decide_eq_true_eq]
    omega
  · rw [← decide_not]
    exact decide_eq_decide.mpr Int.not_lt

/-- The window holds all that is not too old for the last element. -/
theorem foldl_push {l : List A} {a : A} (h : (l ++ [a]).Pairwise fun b c ↦ time b ≤ time c) :
    (l ++ [a]).foldl (push time size) [] = recent time size (time a) (l ++ [a]) := by
  induction l using List.reverseRecOn generalizing a with
  | nil =>
    have hle : time a ≤ time a := Int.le_refl _
    exact push_recent h hle
  | append_singleton l b ih =>
    have hbefore := ih (h.sublist (List.sublist_append_left _ _))
    have hle : time b ≤ time a := (List.pairwise_append.mp h).2.2 b (by simp) a (by simp)
    rw [List.foldl_append, hbefore]
    exact push_recent h hle

end NavCaster.Library.Window
