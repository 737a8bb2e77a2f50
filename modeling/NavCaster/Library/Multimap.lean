import Mathlib

namespace NavCaster.Library.Multimap

variable {K V : Type} [LinearOrder K]

/-- `std::multimap::insert`: behind the elements whose key is not greater. -/
def insert (e : K × V) : List (K × V) → List (K × V)
  | [] => [e]
  | x :: m => if e.1 < x.1 then e :: x :: m else x :: insert e m

def ofList (l : List (K × V)) : List (K × V) := l.foldl (fun m e ↦ insert e m) []

/-- `std::multimap::erase` with a key. -/
def erase (k : K) (m : List (K × V)) : List (K × V) := m.filter (·.1 ≠ k)

def Ordered (m : List (K × V)) : Prop := m.Pairwise (·.1 ≤ ·.1)

theorem perm_insert (e : K × V) (m : List (K × V)) : (insert e m).Perm (e :: m) := by
  induction m with
  | nil => exact List.Perm.refl _
  | cons x m ih =>
    rw [insert]
    split
    · exact List.Perm.refl _
    · exact (ih.cons x).trans (List.Perm.swap e x m)

theorem ordered_insert {e : K × V} {m : List (K × V)} (h : Ordered m) : Ordered (insert e m) := by
  induction m with
  | nil => exact List.pairwise_singleton _ _
  | cons x m ih =>
    obtain ⟨hx, hm⟩ := List.pairwise_cons.mp h
    rw [insert]
    split
    · next hlt =>
      refine List.pairwise_cons.mpr ⟨fun y hy ↦ ?_, h⟩
      obtain rfl | hy := List.mem_cons.mp hy
      · exact hlt.le
      · exact hlt.le.trans (hx y hy)
    · next hge =>
      refine List.pairwise_cons.mpr ⟨fun y hy ↦ ?_, ih hm⟩
      obtain rfl | hy := List.mem_cons.mp ((perm_insert e m).subset hy)
      · exact not_lt.mp hge
      · exact hx y hy

theorem foldl_insert (l m : List (K × V)) :
    (l.foldl (fun m e ↦ insert e m) m).Perm (l ++ m) ∧
      (Ordered m → Ordered (l.foldl (fun m e ↦ insert e m) m)) := by
  induction l generalizing m with
  | nil => exact ⟨List.Perm.refl _, id⟩
  | cons e l ih =>
    obtain ⟨hperm, hord⟩ := ih (insert e m)
    have hmid : (l ++ insert e m).Perm (l ++ e :: m) := (perm_insert e m).append_left l
    exact ⟨(hperm.trans hmid).trans List.perm_middle, fun h ↦ hord (ordered_insert h)⟩

theorem perm_ofList (l : List (K × V)) : (ofList l).Perm l := by
  have h := (foldl_insert l []).1
  rwa [List.append_nil] at h

theorem ordered_ofList (l : List (K × V)) : Ordered (ofList l) :=
  (foldl_insert l []).2 List.Pairwise.nil

/-- Elements of one key stay in the order in which they came. -/
theorem filter_insert {e : K × V} {m : List (K × V)} (h : Ordered m) (k : K) :
    (insert e m).filter (·.1 = k) = m.filter (·.1 = k) ++ [e].filter (·.1 = k) := by
  induction m with
  | nil => rfl
  | cons x m ih =>
    obtain ⟨hx, hm⟩ := List.pairwise_cons.mp h
    rw [insert]
    split
    · next hlt =>
      by_cases hk : e.1 = k
      · have hnone : (x :: m).filter (·.1 = k) = [] := by
          refine List.filter_eq_nil_iff.mpr fun y hy he ↦ ?_
          have hy' : y.1 = e.1 := (of_decide_eq_true he).trans hk.symm
          obtain rfl | hy := List.mem_cons.mp hy
          · exact absurd hy' hlt.ne'
          · exact absurd hy' (hlt.trans_le (hx y hy)).ne'
        rw [List.filter_cons_of_pos (by simpa using hk), hnone,
          List.filter_cons_of_pos (by simpa using hk)]
        rfl
      · rw [List.filter_cons_of_neg (by simpa using hk),
          @List.filter_cons_of_neg _ _ e [] (by simpa using hk), List.filter_nil, List.append_nil]
    · rw [List.filter_cons, List.filter_cons, ih hm]
      split
      · rfl
      · rfl

theorem filter_ofList (l : List (K × V)) (k : K) :
    (ofList l).filter (·.1 = k) = l.filter (·.1 = k) := by
  have hfold : ∀ (l m : List (K × V)), Ordered m →
      (l.foldl (fun m e ↦ insert e m) m).filter (·.1 = k) =
        m.filter (·.1 = k) ++ l.filter (·.1 = k) := by
    intro l
    induction l with
    | nil => exact fun m _ ↦ (List.append_nil _).symm
    | cons e l ih =>
      intro m hm
      rw [List.foldl_cons, ih _ (ordered_insert hm), filter_insert hm, List.append_assoc,
        ← List.filter_append]
      rfl
  exact hfold l [] List.Pairwise.nil

end NavCaster.Library.Multimap
