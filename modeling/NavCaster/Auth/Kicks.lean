import NavCaster.Auth.Rounds

namespace NavCaster.Auth.Kicks

open NavCaster.Library
open NavCaster.Library.Strto (Bytes)
open NavCaster.Auth.Verify NavCaster.Auth.Rounds

/-- The record is the last of its time, and those up to its time exceed the limit; without
protection it is the first of its time, and those from any earlier time on exceed the limit. -/
def Kicked (protect : Bool) (limit : Nat) (records : List Record) (r : Record) : Prop :=
  if protect then
    (records.filter (·.1 = r.1)).getLast? = some r ∧ limit < records.countP (·.1 ≤ r.1)
  else
    (records.filter (·.1 = r.1)).head? = some r ∧ (∃ x ∈ records, x.1 < r.1) ∧
      ∀ x ∈ records, x.1 < r.1 → limit < records.countP (x.1 ≤ ·.1)

def Drained (limit : Nat) (records : List Record) : Prop :=
  ∀ x ∈ records, limit < records.countP (x.1 ≤ ·.1)

variable {protect : Bool} {limit : Nat} {records m : List Record}

theorem kicked_ofList (r : Record) :
    Kicked protect limit (Multimap.ofList records) r ↔ Kicked protect limit records r := by
  have hperm := Multimap.perm_ofList records
  unfold Kicked
  rw [Multimap.filter_ofList, hperm.countP_eq]
  simp only [hperm.mem_iff, hperm.countP_eq]

theorem drained_ofList : Drained limit (Multimap.ofList records) ↔ Drained limit records := by
  have hperm := Multimap.perm_ofList records
  unfold Drained
  simp only [hperm.mem_iff, hperm.countP_eq]

theorem filter_erase {t t' : Int} (h : t' ≠ t) :
    (Multimap.erase t m).filter (·.1 = t') = m.filter (·.1 = t') := by
  unfold Multimap.erase
  rw [List.filter_filter]
  refine List.filter_congr fun x _ ↦ ?_
  rw [Bool.and_eq_left_iff_imp]
  intro hx
  exact decide_eq_true ((of_decide_eq_true hx).trans_ne h)

theorem filter_erase_self {t : Int} : (Multimap.erase t m).filter (·.1 = t) = [] := by
  refine List.filter_eq_nil_iff.mpr fun x hx he ↦ ?_
  exact of_decide_eq_true (List.mem_filter.mp hx).2 (of_decide_eq_true he)

theorem countP_erase {t : Int} {p : Record → Bool} (h : ∀ x ∈ m, p x = true → x.1 ≠ t) :
    (Multimap.erase t m).countP p = m.countP p := by
  unfold Multimap.erase
  rw [List.countP_filter]
  refine List.countP_congr fun x hx ↦ ?_
  rw [Bool.and_eq_true, decide_eq_true_iff]
  exact ⟨And.left, fun hp ↦ ⟨hp, h x hx hp⟩⟩

theorem mem_of_kicked {r : Record} (h : Kicked protect limit m r) : r ∈ m := by
  unfold Kicked at h
  split at h
  · exact (List.mem_filter.mp (List.mem_of_getLast? h.1)).1
  · exact (List.mem_filter.mp (List.mem_of_head? h.1)).1

theorem not_kicked_of_le (h : m.length ≤ limit) (r : Record) : ¬ Kicked protect limit m r := by
  intro hr
  unfold Kicked at hr
  split at hr
  · exact absurd (hr.2.trans_le List.countP_le_length) (Nat.not_lt.mpr h)
  · obtain ⟨-, ⟨x, hx, hlt⟩, hall⟩ := hr
    exact absurd ((hall x hx hlt).trans_le List.countP_le_length) (Nat.not_lt.mpr h)

theorem le_concat {m : List Record} {r₀ : Record} (hm : Multimap.Ordered (m ++ [r₀])) :
    ∀ x ∈ m ++ [r₀], x.1 ≤ r₀.1 := by
  intro x hx
  obtain hx | hx := List.mem_append.mp hx
  · exact (List.pairwise_append.mp hm).2.2 x hx r₀ (List.mem_singleton_self r₀)
  · exact (congrArg Prod.fst (List.mem_singleton.mp hx)).le

theorem kicked_concat {m : List Record} {r₀ : Record} (hm : Multimap.Ordered (m ++ [r₀]))
    (hlt : limit < (m ++ [r₀]).length) (r : Record) :
    Kicked true limit (m ++ [r₀]) r ↔
      r = r₀ ∨ Kicked true limit (Multimap.erase r₀.1 (m ++ [r₀])) r := by
  have hmax := le_concat hm
  unfold Kicked
  rw [if_pos rfl, if_pos rfl]
  by_cases ht : r.1 = r₀.1
  · have hlast : ((m ++ [r₀]).filter (·.1 = r.1)).getLast? = some r₀ := by
      rw [List.filter_append, List.filter_cons_of_pos (by simpa using ht.symm), List.filter_nil,
        List.getLast?_concat]
    have hall : (m ++ [r₀]).countP (·.1 ≤ r.1) = (m ++ [r₀]).length :=
      List.countP_eq_length.mpr fun x hx ↦ decide_eq_true (ht ▸ hmax x hx)
    rw [hlast, hall, ht, filter_erase_self, Option.some.injEq]
    have hsome : limit < (m ++ [r₀]).length ↔ True := iff_true_intro hlt
    rw [hsome]
    simp [eq_comm]
  · have hne : r ≠ r₀ := fun h ↦ ht (congrArg Prod.fst h)
    rw [filter_erase ht]
    by_cases hle : r.1 ≤ r₀.1
    · have hcount : (Multimap.erase r₀.1 (m ++ [r₀])).countP (·.1 ≤ r.1) =
          (m ++ [r₀]).countP (·.1 ≤ r.1) := by
        refine countP_erase fun x _ hx ↦ ?_
        exact ((of_decide_eq_true hx).trans_lt (lt_of_le_of_ne hle ht)).ne
      rw [hcount]
      simp [hne]
    · have hnone : (m ++ [r₀]).filter (·.1 = r.1) = [] := by
        refine List.filter_eq_nil_iff.mpr fun x hx he ↦ hle ?_
        exact (of_decide_eq_true he) ▸ hmax x hx
      rw [hnone]
      simp [hne]

theorem rounds_protected (hm : Multimap.Ordered m) :
    (rounds true limit m).2 = false ∧
      (∀ r, r ∈ (rounds true limit m).1 ↔ Kicked true limit m r) ∧
      (rounds true limit m).1.Pairwise (·.1 > ·.1) := by
  induction hn : m.length using Nat.strongRecOn generalizing m with
  | ind n ih =>
    subst hn
    by_cases hlt : limit < m.length
    · obtain ⟨m, r₀, rfl⟩ := (List.eq_nil_or_concat' m).resolve_left
        (List.ne_nil_of_length_pos (Nat.zero_lt_of_lt hlt))
      have hkick : kick true (m ++ [r₀]) = some (r₀, Multimap.erase r₀.1 (m ++ [r₀])) := by
        unfold kick
        rw [if_pos rfl, List.getLast?_concat, Option.map_some]
      have hord : Multimap.Ordered (Multimap.erase r₀.1 (m ++ [r₀])) := List.Pairwise.filter _ hm
      obtain ⟨hemptied, hmem, hdesc⟩ := ih _ (length_of_kick hkick) hord rfl
      rw [rounds_of_some hlt hkick]
      refine ⟨hemptied, fun r ↦ ?_, List.pairwise_cons.mpr ⟨fun r hr ↦ ?_, hdesc⟩⟩
      · rw [List.mem_cons, hmem, kicked_concat hm hlt]
      · obtain ⟨hr, hne⟩ := List.mem_filter.mp (rounds_subset r hr)
        exact lt_of_le_of_ne (le_concat hm r hr) (of_decide_eq_true hne)
    · have hle : m.length ≤ limit := Nat.not_lt.mp hlt
      rw [rounds_of_le hle]
      exact ⟨rfl, fun r ↦ ⟨nofun, fun h ↦ absurd h (not_kicked_of_le hle r)⟩, List.Pairwise.nil⟩

section

variable {r₀ r₁ : Record} {rest : List Record} (hm : Multimap.Ordered m) (hr₀ : m.head? = some r₀)
  (hrest : Multimap.erase r₀.1 m = r₁ :: rest)

include hm hr₀

theorem head_le : ∀ x ∈ m, r₀.1 ≤ x.1 := by
  cases m with
  | nil => exact nofun
  | cons r m =>
    cases hr₀
    intro x hx
    obtain rfl | hx := List.mem_cons.mp hx
    · exact le_refl _
    · exact (List.pairwise_cons.mp hm).1 x hx

include hrest

theorem lt_second : ∀ x ∈ r₁ :: rest, x ∈ m ∧ r₀.1 < x.1 ∧ r₁.1 ≤ x.1 := by
  intro x hx
  have hord : Multimap.Ordered (r₁ :: rest) := hrest ▸ List.Pairwise.filter _ hm
  have hle := @head_le _ r₁ hord rfl x hx
  rw [← hrest] at hx
  obtain ⟨hx, hne⟩ := List.mem_filter.mp hx
  exact ⟨hx, lt_of_le_of_ne (head_le hm hr₀ x hx) (Ne.symm (of_decide_eq_true hne)), hle⟩

theorem exceed_iff (hlt : limit < m.length) (P : Int → Prop) :
    (∀ x ∈ m, P x.1 → limit < m.countP (x.1 ≤ ·.1)) ↔
      ∀ x ∈ r₁ :: rest, P x.1 → limit < (r₁ :: rest).countP (x.1 ≤ ·.1) := by
  have hcount : ∀ x ∈ r₁ :: rest,
      (r₁ :: rest).countP (x.1 ≤ ·.1) = m.countP (x.1 ≤ ·.1) := by
    intro x hx
    rw [← hrest]
    refine countP_erase fun y _ hy ↦ ?_
    exact ((lt_second hm hr₀ hrest x hx).2.1.trans_le (of_decide_eq_true hy)).ne'
  constructor
  · intro h x hx hP
    rw [hcount x hx]
    exact h x (lt_second hm hr₀ hrest x hx).1 hP
  · intro h x hx hP
    by_cases ht : x.1 = r₀.1
    · have hall : m.countP (x.1 ≤ ·.1) = m.length :=
        List.countP_eq_length.mpr fun y hy ↦ decide_eq_true (ht ▸ head_le hm hr₀ y hy)
      rwa [hall]
    · have hx' : x ∈ r₁ :: rest := by
        rw [← hrest]
        exact List.mem_filter.mpr ⟨hx, decide_eq_true ht⟩
      rw [← hcount x hx']
      exact h x hx' hP

/-- Without protection one round leaves those behind the earliest time, and kicks the first of
them. -/
theorem kicked_cons (hlt : limit < m.length) (r : Record) :
    Kicked false limit m r ↔ r = r₁ ∨ Kicked false limit (r₁ :: rest) r := by
  have hsecond := lt_second hm hr₀ hrest
  obtain ⟨hr₁, hlt₁, -⟩ := hsecond r₁ List.mem_cons_self
  have hmem₀ : r₀ ∈ m := List.mem_of_head? hr₀
  unfold Kicked
  rw [if_neg Bool.false_ne_true, if_neg Bool.false_ne_true,
    exceed_iff hm hr₀ hrest hlt (· < r.1)]
  by_cases ht₀ : r.1 = r₀.1
  · have hnone : ¬ ∃ x ∈ m, x.1 < r.1 := by
      rintro ⟨x, hx, hxr⟩
      exact absurd (ht₀ ▸ hxr) (Int.not_lt.mpr (head_le hm hr₀ x hx))
    have hempty : (r₁ :: rest).filter (·.1 = r.1) = [] := by
      rw [← hrest, ht₀]
      exact filter_erase_self
    have hne : r ≠ r₁ := fun h ↦ hlt₁.ne' (h ▸ ht₀)
    rw [hempty]
    simp [hnone, hne]
  · have hsame : m.filter (·.1 = r.1) = (r₁ :: rest).filter (·.1 = r.1) := by
      rw [← hrest, filter_erase ht₀]
    rw [hsame]
    by_cases ht₁ : r.1 = r₁.1
    · have hnone : ∀ x ∈ r₁ :: rest, ¬ x.1 < r.1 := fun x hx ↦
        Int.not_lt.mpr (ht₁ ▸ (hsecond x hx).2.2)
      have hhead : ((r₁ :: rest).filter (·.1 = r.1)).head? = some r₁ := by
        rw [List.filter_cons_of_pos (by simpa using ht₁.symm)]
        rfl
      rw [hhead, Option.some.injEq]
      constructor
      · exact fun h ↦ .inl h.1.symm
      · rintro (rfl | ⟨-, ⟨x, hx, hxr⟩, -⟩)
        · exact ⟨rfl, ⟨r₀, hmem₀, hlt₁⟩, fun x hx hxr ↦ absurd hxr (hnone x hx)⟩
        · exact absurd hxr (hnone x hx)
    · constructor
      · rintro ⟨hhead, -, hall⟩
        have hr : r ∈ r₁ :: rest := (List.mem_filter.mp (List.mem_of_head? hhead)).1
        have hlt' : r₁.1 < r.1 := lt_of_le_of_ne (hsecond r hr).2.2 (Ne.symm ht₁)
        exact .inr ⟨hhead, ⟨r₁, List.mem_cons_self, hlt'⟩, hall⟩
      · rintro (rfl | ⟨hhead, ⟨x, hx, hxr⟩, hall⟩)
        · exact absurd rfl ht₁
        · exact ⟨hhead, ⟨x, (hsecond x hx).1, hxr⟩, hall⟩

end

theorem rounds_unprotected (hm : Multimap.Ordered m) (hne : m ≠ []) :
    ((rounds false limit m).2 = true ↔ Drained limit m) ∧
      (∀ r, r ∈ (rounds false limit m).1 ↔ Kicked false limit m r) ∧
      (rounds false limit m).1.Pairwise (·.1 < ·.1) := by
  induction hn : m.length using Nat.strongRecOn generalizing m with
  | ind n ih =>
    subst hn
    by_cases hlt : limit < m.length
    · obtain ⟨r₀, hr₀⟩ := Option.isSome_iff_exists.mp (List.isSome_head?.mpr hne)
      cases hrest : Multimap.erase r₀.1 m with
      | nil =>
        have hkick : kick false m = none := by
          unfold kick
          rw [if_neg Bool.false_ne_true, hr₀, Option.bind_some, hrest]
          rfl
        have hsame : ∀ x ∈ m, x.1 = r₀.1 := fun x hx ↦ by_contra fun h ↦ by
          have hx' : x ∈ Multimap.erase r₀.1 m := List.mem_filter.mpr ⟨hx, decide_eq_true h⟩
          rw [hrest] at hx'
          cases hx'
        rw [rounds_of_none hlt hkick]
        refine ⟨iff_of_true rfl fun x hx ↦ ?_, fun r ↦ ⟨nofun, fun h ↦ ?_⟩, List.Pairwise.nil⟩
        · have hall : m.countP (x.1 ≤ ·.1) = m.length :=
            List.countP_eq_length.mpr fun y hy ↦
              decide_eq_true ((hsame x hx).trans (hsame y hy).symm).le
          rwa [hall]
        · have hr := hsame r (mem_of_kicked h)
          obtain ⟨-, ⟨x, hx, hxr⟩, -⟩ := h
          exact absurd ((hsame x hx).trans hr.symm) hxr.ne
      | cons r₁ rest =>
        have hkick : kick false m = some (r₁, r₁ :: rest) := by
          unfold kick
          rw [if_neg Bool.false_ne_true, hr₀, Option.bind_some, hrest]
          rfl
        have hord : Multimap.Ordered (r₁ :: rest) := hrest ▸ List.Pairwise.filter _ hm
        obtain ⟨hemptied, hmem, hasc⟩ := ih _ (length_of_kick hkick) hord (List.cons_ne_nil _ _) rfl
        rw [rounds_of_some hlt hkick]
        refine ⟨?_, fun r ↦ ?_, List.pairwise_cons.mpr ⟨fun r hr ↦ ?_, hasc⟩⟩
        · have hall := exceed_iff hm hr₀ hrest hlt (fun _ ↦ True)
          rw [hemptied]
          unfold Drained
          simpa using hall.symm
        · rw [List.mem_cons, hmem, kicked_cons hm hr₀ hrest hlt]
        · have hkicked := (hmem r).mp hr
          obtain ⟨-, ⟨x, hx, hxr⟩, -⟩ := hkicked
          exact (head_le hord rfl x hx).trans_lt hxr
    · have hle : m.length ≤ limit := Nat.not_lt.mp hlt
      rw [rounds_of_le hle]
      refine ⟨iff_of_false Bool.false_ne_true fun h ↦ ?_, fun r ↦
        ⟨nofun, fun h ↦ absurd h (not_kicked_of_le hle r)⟩, List.Pairwise.nil⟩
      obtain ⟨x, hx⟩ := List.exists_mem_of_ne_nil m hne
      exact absurd ((h x hx).trans_le List.countP_le_length) hlt

end NavCaster.Auth.Kicks
