import Mathlib.Data.List.Infix

namespace NavCaster.Library.Path

abbrev PathText := List UInt8

def isAbsolute (p : PathText) : Bool := p.head? = some 47

/-- An absolute path on the right replaces the one on the left. -/
def join (p q : PathText) : PathText :=
  if isAbsolute q then q
  else if p = [] ∨ p.getLast? = some 47 then p ++ q
  else p ++ 47 :: q

def components (p : PathText) : List PathText :=
  (p.splitOn 47).filter fun c ↦ decide (c ≠ [] ∧ c ≠ [46])

def dotdot : PathText := [46, 46]

def enter (place : List PathText) (c : PathText) : List PathText :=
  if c = dotdot then place.dropLast else place ++ [c]

/-- The place that a path names, from the root of a file system without links. -/
def locate (cwd : List PathText) (p : PathText) : List PathText :=
  (components p).foldl enter (if isAbsolute p then [] else cwd)

def Under (cwd : List PathText) (root p : PathText) : Prop := locate cwd root <+: locate cwd p

instance (cwd : List PathText) (root p : PathText) : Decidable (Under cwd root p) :=
  inferInstanceAs (Decidable (_ <+: _))

theorem isAbsolute_join (p : PathText) {q : PathText} (h : isAbsolute q = false) :
    isAbsolute (join p q) = isAbsolute p := by
  unfold join
  rw [if_neg (by rw [h]; nofun)]
  cases p with
  | nil => exact h
  | cons b p => split <;> rfl

theorem components_append (p q : PathText) :
    components (p ++ 47 :: q) = components p ++ components q := by
  unfold components
  rw [List.splitOn_append_cons_self, List.filter_append]

theorem components_nil : components [] = [] := rfl

theorem components_join (p : PathText) {q : PathText} (h : isAbsolute q = false) :
    components (join p q) = components p ++ components q := by
  unfold join
  rw [if_neg (by rw [h]; nofun)]
  split
  · next hp =>
    obtain rfl | hlast := hp
    · rfl
    · obtain ⟨p', rfl⟩ := List.getLast?_eq_some_iff.mp hlast
      rw [List.append_assoc, List.singleton_append, components_append, components_append,
        components_nil, List.append_nil]
  · exact components_append p q

theorem locate_join (cwd : List PathText) (p : PathText) {q : PathText} (h : isAbsolute q = false) :
    locate cwd (join p q) = (components q).foldl enter (locate cwd p) := by
  unfold locate
  rw [isAbsolute_join p h, components_join p h, List.foldl_append]

theorem prefix_foldl_enter {cs : List PathText} (h : dotdot ∉ cs) (place : List PathText) :
    place <+: cs.foldl enter place := by
  induction cs generalizing place with
  | nil => exact List.prefix_refl place
  | cons c cs ih =>
    rw [List.mem_cons, not_or] at h
    have hc : enter place c = place ++ [c] := if_neg fun he ↦ h.1 he.symm
    rw [List.foldl_cons, hc]
    exact (List.prefix_append place [c]).trans (ih h.2 _)

/-- What is joined to the root stays below it, without `..` and if it is relative. -/
theorem under_join (cwd : List PathText) (root : PathText) {q : PathText}
    (h : isAbsolute q = false) (hd : dotdot ∉ components q) : Under cwd root (join root q) := by
  unfold Under
  rw [locate_join cwd root h]
  exact prefix_foldl_enter hd _

theorem Under.join {cwd : List PathText} {root p q : PathText} (hu : Under cwd root p)
    (h : isAbsolute q = false) (hd : dotdot ∉ components q) : Under cwd root (join p q) :=
  List.IsPrefix.trans hu (under_join cwd p h hd)

theorem prefix_of_splitOn {q c : PathText} {cs : List PathText} (h : q.splitOn 47 = c :: cs) :
    c <+: q := by
  induction q generalizing c cs with
  | nil => cases h; exact List.prefix_refl _
  | cons b q ih =>
    rw [List.splitOn_cons_eq_if_modifyHead] at h
    split at h
    · cases h; exact List.nil_prefix
    · cases hq : q.splitOn 47 with
      | nil => exact absurd hq (List.splitOn_ne_nil 47 q)
      | cons d ds =>
        rw [hq] at h
        cases h
        exact (List.prefix_cons_inj b).mpr (ih hq)

theorem infix_of_mem_splitOn {q c : PathText} (h : c ∈ q.splitOn 47) : c <:+: q := by
  induction q with
  | nil => cases List.mem_singleton.mp h; exact List.infix_refl _
  | cons b q ih =>
    rw [List.splitOn_cons_eq_if_modifyHead] at h
    split at h
    · cases h with
      | head => exact List.nil_infix
      | tail _ h => exact (ih h).trans (List.suffix_cons b q).isInfix
    · cases hq : q.splitOn 47 with
      | nil => exact absurd hq (List.splitOn_ne_nil 47 q)
      | cons d ds =>
        rw [hq] at h ih
        cases h with
        | head => exact ((List.prefix_cons_inj b).mpr (prefix_of_splitOn hq)).isInfix
        | tail _ h => exact (ih (.tail d h)).trans (List.suffix_cons b q).isInfix

theorem dotdot_not_mem {q : PathText} (h : ¬ dotdot <:+: q) : dotdot ∉ components q :=
  fun hm ↦ h (infix_of_mem_splitOn (List.mem_of_mem_filter hm))

end NavCaster.Library.Path
