import NavCaster.Library.Table

namespace NavCaster.Library

variable {S K W B M : Type}

/-- A round of a loop whose entry is `ok` reads and changes only what the state holds at the key of
the entry. -/
structure Local (ok : K × W → Prop) (get : S → K → B) (f : S → K × W → S)
    (own : K × W → B → B) : Prop where
  own_key : ∀ s e, ok e → get (f s e) e.1 = own e (get s e.1)
  other : ∀ s e a, ok e → a ≠ e.1 → get (f s e) a = get s a

namespace Local

variable {ok : K × W → Prop} {get : S → K → B} {f : S → K × W → S} {own : K × W → B → B}
  {l : List (K × W)}

theorem foldl_other (h : Local ok get f own) (hok : ∀ e ∈ l, ok e) {a : K}
    (ha : a ∉ l.map Prod.fst) (s : S) : get (l.foldl f s) a = get s a := by
  induction l generalizing s with
  | nil => rfl
  | cons e l ih =>
    rw [List.map_cons, List.mem_cons, not_or] at ha
    have he := hok e (List.mem_cons_self ..)
    rw [List.foldl_cons, ih (fun e' h' ↦ hok e' (.tail e h')) ha.2, h.other s e a he ha.1]

theorem foldl_own (h : Local ok get f own) (hok : ∀ e ∈ l, ok e) (hl : (l.map Prod.fst).Nodup)
    {e : K × W} (he : e ∈ l) (s : S) : get (l.foldl f s) e.1 = own e (get s e.1) := by
  induction l generalizing s with
  | nil => cases he
  | cons e' l ih =>
    rw [List.map_cons, List.nodup_cons] at hl
    have he' := hok e' (List.mem_cons_self ..)
    have hok' : ∀ e ∈ l, ok e := fun e h' ↦ hok e (.tail e' h')
    rw [List.foldl_cons]
    rcases List.mem_cons.mp he with rfl | he
    · rw [h.foldl_other hok' hl.1, h.own_key s e he']
    · have hne : e.1 ≠ e'.1 := fun heq ↦ hl.1 (heq ▸ List.mem_map_of_mem he)
      rw [ih hok' hl.2 he, h.other _ _ _ he' hne]

theorem foldl_emit (h : Local ok get f own) (hok : ∀ e ∈ l, ok e) {out : S → List M}
    {emit : K × W → B → Option M}
    (ho : ∀ s e, ok e → out (f s e) = out s ++ (emit e (get s e.1)).toList)
    (hl : (l.map Prod.fst).Nodup) (s : S) :
    out (l.foldl f s) = out s ++ l.filterMap fun e ↦ emit e (get s e.1) := by
  induction l generalizing s with
  | nil => simp
  | cons e l ih =>
    rw [List.map_cons, List.nodup_cons] at hl
    have he := hok e (List.mem_cons_self ..)
    have hrest : (l.filterMap fun e' ↦ emit e' (get (f s e) e'.1)) =
        l.filterMap fun e' ↦ emit e' (get s e'.1) := by
      refine List.filterMap_congr fun e' he' ↦ ?_
      have hne : e'.1 ≠ e.1 := fun heq ↦ hl.1 (heq ▸ List.mem_map_of_mem he')
      rw [h.other _ _ _ he hne]
    rw [List.foldl_cons, ih (fun e' h' ↦ hok e' (.tail e h')) hl.2, ho s e he, hrest,
      List.append_assoc, List.filterMap_cons]
    cases emit e (get s e.1) <;> rfl

variable [DecidableEq K]

theorem foldl_toPairs (h : Local ok get f own) (t : Table K W)
    (hok : ∀ e ∈ Table.toPairs t, ok e) (s : S) (a : K) :
    get ((Table.toPairs t).foldl f s) a = match t.lookup a with
      | none => get s a
      | some w => own (a, w) (get s a) := by
  cases ha : t.lookup a with
  | none =>
    refine h.foldl_other hok (fun hm ↦ ?_) s
    rw [Table.toPairs_fst] at hm
    exact AList.lookup_eq_none.mp ha hm
  | some w => exact h.foldl_own hok (Table.toPairs_nodup t) (Table.mem_toPairs.mpr ha) s

end Local

end NavCaster.Library
