import Mathlib

namespace NavCaster.Library

/-- A finite map with one entry for each key, iterated in the order of its entries. -/
abbrev Table (K V : Type) := AList (fun _ : K ↦ V)

namespace Table

variable {K V W : Type}

def selectEntry (f : K → V → Option W) (e : Sigma fun _ : K ↦ V) : Option (Sigma fun _ : K ↦ W) :=
  (f e.1 e.2).map (Sigma.mk e.1)

theorem selectEntry_keys (f : K → V → Option W) (l : List (Sigma fun _ : K ↦ V)) :
    (l.filterMap (selectEntry f)).keys.Sublist l.keys := by
  induction l with
  | nil => simp
  | cons e l ih =>
    rw [List.filterMap_cons]
    cases h : selectEntry f e with
    | none => exact ih.cons _
    | some e' =>
      have hk : e'.1 = e.1 := by
        obtain ⟨w, _, rfl⟩ := Option.map_eq_some_iff.mp h
        rfl
      rw [List.keys_cons, List.keys_cons, hk]
      exact ih.cons_cons _

def filterMap (f : K → V → Option W) (t : Table K V) : Table K W :=
  ⟨t.entries.filterMap (selectEntry f), (selectEntry_keys f t.entries).nodup t.nodupKeys⟩

def toPairs (t : Table K V) : List (K × V) := t.entries.map fun e ↦ (e.1, e.2)

theorem toPairs_fst (t : Table K V) : (toPairs t).map Prod.fst = t.keys := by
  simp [toPairs, AList.keys, List.keys]

theorem toPairs_nodup (t : Table K V) : ((toPairs t).map Prod.fst).Nodup := by
  rw [toPairs_fst]; exact t.keys_nodup

variable [DecidableEq K]

theorem lookup_insert_if (a b : K) (v : V) (t : Table K V) :
    (t.insert b v).lookup a = if a = b then some v else t.lookup a := by
  by_cases h : a = b
  · subst h; rw [AList.lookup_insert, if_pos rfl]
  · rw [AList.lookup_insert_ne h, if_neg h]

theorem lookup_erase_if (a b : K) (t : Table K V) :
    (t.erase b).lookup a = if a = b then none else t.lookup a := by
  by_cases h : a = b
  · subst h; rw [AList.lookup_erase, if_pos rfl]
  · rw [AList.lookup_erase_ne h, if_neg h]

theorem lookup_singleton (a b : K) (v : V) :
    (AList.singleton b v : Table K V).lookup a = if a = b then some v else none := by
  by_cases h : a = b
  · subst h; simp [AList.lookup, AList.singleton]
  · rw [if_neg h]
    exact List.dlookup_cons_ne [] (⟨b, v⟩ : Sigma fun _ : K ↦ V) h

theorem mem_of_lookup {a : K} {v : V} {t : Table K V} (h : t.lookup a = some v) : a ∈ t := by
  rw [← AList.lookup_isSome, h]; rfl

theorem mem_iff_lookup {a : K} {t : Table K V} : a ∈ t ↔ ∃ v, t.lookup a = some v :=
  ⟨fun h ↦ Option.isSome_iff_exists.mp (AList.lookup_isSome.mpr h), fun ⟨_, h⟩ ↦ mem_of_lookup h⟩

theorem mem_entries_iff {a : K} {v : V} {t : Table K V} :
    (⟨a, v⟩ : Sigma fun _ : K ↦ V) ∈ t.entries ↔ t.lookup a = some v :=
  (AList.mem_lookup_iff (s := t)).symm

theorem mem_toPairs {t : Table K V} {a : K} {v : V} :
    (a, v) ∈ toPairs t ↔ t.lookup a = some v := by
  simp only [toPairs, List.mem_map, ← mem_entries_iff]
  constructor
  · rintro ⟨⟨k, w⟩, hkw, he⟩
    cases he
    exact hkw
  · exact fun h ↦ ⟨_, h, rfl⟩

theorem filter_toPairs {t : Table K V} {a : K} {v : V} {p : K × V → Bool} (h : t.lookup a = some v)
    (hp : p (a, v) = true) (hone : ∀ b w, t.lookup b = some w → p (b, w) = true → b = a) :
    (toPairs t).filter p = [(a, v)] := by
  have hnodup : ((toPairs t).filter p).Nodup := (List.Nodup.of_map _ (toPairs_nodup t)).filter p
  refine List.perm_singleton.mp
    ((List.perm_ext_iff_of_nodup hnodup (List.nodup_singleton _)).mpr ?_)
  rintro ⟨b, w⟩
  rw [List.mem_filter, mem_toPairs, List.mem_singleton]
  constructor
  · rintro ⟨hb, hpb⟩
    obtain rfl := hone b w hb hpb
    cases h.symm.trans hb
    rfl
  · rintro ⟨⟩
    exact ⟨h, hp⟩

theorem toPairs_insert (t : Table K V) (a : K) (v : V) :
    toPairs (t.insert a v) = (a, v) :: toPairs (t.erase a) := rfl

theorem erase_of_not_mem {t : Table K V} {a : K} (h : a ∉ t) : t.erase a = t :=
  AList.ext (List.kerase_of_notMem_keys h)

theorem toPairs_erase {t : Table K V} {a : K} {v : V} (h : t.lookup a = some v) :
    (toPairs t).Perm ((a, v) :: toPairs (t.erase a)) := by
  obtain ⟨w, l₁, l₂, -, hl, herase⟩ := List.exists_of_kerase (mem_of_lookup h)
  have hw : t.lookup a = some w :=
    mem_entries_iff.mp (hl ▸ List.mem_append_right l₁ List.mem_cons_self)
  cases h.symm.trans hw
  have herase' : (t.erase a).entries = l₁ ++ l₂ := herase
  unfold toPairs
  rw [herase', hl, List.map_append, List.map_cons, List.map_append]
  exact List.perm_middle

theorem lookup_filterMap (f : K → V → Option W) (t : Table K V) (a : K) :
    (filterMap f t).lookup a = (t.lookup a).bind (f a) := by
  ext w
  rw [Option.bind_eq_some_iff, ← mem_entries_iff]
  simp only [filterMap, List.mem_filterMap, selectEntry, Option.map_eq_some_iff]
  constructor
  · rintro ⟨⟨k, v⟩, hkv, w', hw', he⟩
    cases he
    exact ⟨v, mem_entries_iff.mp hkv, hw'⟩
  · rintro ⟨v, hv, hw⟩
    exact ⟨⟨a, v⟩, mem_entries_iff.mpr hv, w, hw, rfl⟩

def insertNew (t : Table K V) (a : K) (v : V) : Table K V := if a ∈ t then t else t.insert a v

theorem lookup_insertNew (t : Table K V) (a b : K) (v : V) :
    (insertNew t b v).lookup a = if a = b ∧ b ∉ t then some v else t.lookup a := by
  unfold insertNew
  by_cases h : b ∈ t
  · simp [h]
  · rw [if_neg h, lookup_insert_if]
    simp [h]

theorem mem_insertNew {t : Table K V} {a b : K} {v : V} :
    a ∈ insertNew t b v ↔ a = b ∨ a ∈ t := by
  unfold insertNew
  by_cases h : b ∈ t
  · rw [if_pos h]
    exact ⟨Or.inr, fun hab ↦ hab.elim (fun e ↦ e ▸ h) id⟩
  · rw [if_neg h, AList.mem_insert]

def assign (t : Table K V) (a : K) (v : V) : Table K V :=
  if a ∈ t then filterMap (fun b w ↦ some (if b = a then v else w)) t else t.insert a v

theorem lookup_assign (t : Table K V) (a b : K) (v : V) :
    (assign t b v).lookup a = if a = b then some v else t.lookup a := by
  unfold assign
  split
  · next hb =>
    obtain ⟨w, hw⟩ := mem_iff_lookup.mp hb
    rw [lookup_filterMap]
    by_cases h : a = b
    · subst h
      rw [hw, if_pos rfl, Option.bind_some, if_pos rfl]
    · rw [if_neg h]
      cases t.lookup a with
      | none => rfl
      | some w' => rw [Option.bind_some, if_neg h]
  · exact lookup_insert_if a b v t

theorem assign_self {t : Table K V} {a : K} {v : V} (h : t.lookup a = some v) :
    assign t a v = t := by
  unfold assign
  rw [if_pos (mem_of_lookup h)]
  refine AList.ext ?_
  change t.entries.filterMap _ = t.entries
  rw [List.filterMap_congr (g := some), List.filterMap_some]
  rintro ⟨b, w⟩ he
  unfold selectEntry
  dsimp only
  split
  · next hb =>
    subst hb
    rw [mem_entries_iff.mp he] at h
    cases h
    rfl
  · rfl

theorem lookup_foldl_assign {l : List (K × V)}
    (hl : ∀ a v v', (a, v) ∈ l → (a, v') ∈ l → v = v') (t : Table K V) {a : K} {v : V} :
    (l.foldl (fun t e ↦ assign t e.1 e.2) t).lookup a = some v ↔
      (a, v) ∈ l ∨ a ∉ l.map Prod.fst ∧ t.lookup a = some v := by
  induction l generalizing t with
  | nil => simp
  | cons e l ih =>
    obtain ⟨b, w⟩ := e
    have hrest : ∀ a v v', (a, v) ∈ l → (a, v') ∈ l → v = v' :=
      fun a v v' h h' ↦ hl a v v' (List.mem_cons_of_mem _ h) (List.mem_cons_of_mem _ h')
    rw [List.foldl_cons, ih hrest, lookup_assign]
    by_cases hab : a = b
    · subst hab
      by_cases hmem : a ∈ l.map Prod.fst
      · obtain ⟨⟨a', v'⟩, hv', rfl⟩ := List.mem_map.mp hmem
        obtain rfl : w = v' := hl _ w v' List.mem_cons_self (List.mem_cons_of_mem _ hv')
        have hsame : v = w → (a', v) ∈ l := fun h ↦ h ▸ hv'
        simp [hmem, or_iff_right_of_imp hsame]
      · have hnot : (a, v) ∉ l := fun h ↦ hmem (List.mem_map_of_mem h)
        simp [hmem, hnot, eq_comm]
    · simp [hab]

section Nested

variable {L : Type} [DecidableEq L]

def entry (m : Table K (Table L V)) (a : K) (b : L) : Option V := (m.lookup a).bind (AList.lookup b)

def openRow (m : Table K (Table L V)) (a : K) : Table K (Table L V) := insertNew m a ∅

def put (m : Table K (Table L V)) (a : K) (b : L) (v : V) : Table K (Table L V) :=
  m.insert a (((m.lookup a).getD ∅).insert b v)

def drop (m : Table K (Table L V)) (a : K) (b : L) : Table K (Table L V) :=
  m.insert a (((m.lookup a).getD ∅).erase b)

def putNew (m : Table K (Table L V)) (a : K) (b : L) (v : V) : Table K (Table L V) :=
  if (entry m a b).isSome then m else put m a b v

def dropOld (m : Table K (Table L V)) (a : K) (b : L) : Table K (Table L V) :=
  if (entry m a b).isSome then drop m a b else m

def dropEmpty (m : Table K (Table L V)) : Table K (Table L V) :=
  filterMap (fun _ row ↦ if row.entries.isEmpty then none else some row) m

theorem entry_openRow (m : Table K (Table L V)) (a a' : K) (b : L) :
    entry (openRow m a) a' b = entry m a' b := by
  rw [entry, openRow, lookup_insertNew, entry]
  split
  · next h => rw [h.1, AList.lookup_eq_none.mpr h.2]; rfl
  · rfl

theorem entry_put (m : Table K (Table L V)) (a a' : K) (b b' : L) (v : V) :
    entry (put m a b v) a' b' = if a' = a ∧ b' = b then some v else entry m a' b' := by
  rw [entry, put, lookup_insert_if, entry]
  by_cases ha : a' = a
  · subst ha
    rw [if_pos rfl, Option.bind_some, lookup_insert_if]
    cases m.lookup a' <;> by_cases hb : b' = b <;> simp [hb]
  · simp [ha]

theorem entry_drop (m : Table K (Table L V)) (a a' : K) (b b' : L) :
    entry (drop m a b) a' b' = if a' = a ∧ b' = b then none else entry m a' b' := by
  rw [entry, drop, lookup_insert_if, entry]
  by_cases ha : a' = a
  · subst ha
    rw [if_pos rfl, Option.bind_some, lookup_erase_if]
    cases m.lookup a' <;> by_cases hb : b' = b <;> simp [hb]
  · simp [ha]

theorem entry_putNew (m : Table K (Table L V)) (a a' : K) (b b' : L) (v : V) :
    entry (putNew m a b v) a' b' =
      if a' = a ∧ b' = b ∧ entry m a b = none then some v else entry m a' b' := by
  unfold putNew
  cases h : entry m a b with
  | none => rw [if_neg (by simp), entry_put]; simp
  | some w => rw [if_pos Option.isSome_some, if_neg (by simp)]

theorem entry_dropOld (m : Table K (Table L V)) (a a' : K) (b b' : L) :
    entry (dropOld m a b) a' b' = if a' = a ∧ b' = b then none else entry m a' b' := by
  unfold dropOld
  cases h : entry m a b with
  | none =>
    rw [if_neg (by simp)]
    split
    · next he => obtain ⟨rfl, rfl⟩ := he; exact h
    · rfl
  | some w => rw [if_pos Option.isSome_some, entry_drop]

theorem mem_putNew {m : Table K (Table L V)} {a a' : K} {b : L} {v : V} :
    a' ∈ putNew m a b v ↔ a' = a ∨ a' ∈ m := by
  unfold putNew
  split
  · next h =>
    obtain ⟨w, hw⟩ := Option.isSome_iff_exists.mp h
    obtain ⟨row, hrow, -⟩ := Option.bind_eq_some_iff.mp hw
    exact (or_iff_right_of_imp fun e ↦ e ▸ mem_of_lookup hrow).symm
  · exact AList.mem_insert _

theorem mem_dropOld {m : Table K (Table L V)} {a a' : K} {b : L} : a' ∈ dropOld m a b ↔ a' ∈ m := by
  unfold dropOld
  split
  · next h =>
    obtain ⟨w, hw⟩ := Option.isSome_iff_exists.mp h
    obtain ⟨row, hrow, -⟩ := Option.bind_eq_some_iff.mp hw
    refine (AList.mem_insert _).trans (or_iff_right_of_imp ?_)
    exact fun e ↦ e ▸ mem_of_lookup hrow
  · rfl

theorem entry_dropEmpty (m : Table K (Table L V)) (a : K) (b : L) :
    entry (dropEmpty m) a b = entry m a b := by
  rw [entry, dropEmpty, lookup_filterMap, entry]
  cases h : m.lookup a with
  | none => rfl
  | some row =>
    rw [Option.bind_some, Option.bind_some]
    split
    · next he =>
      have hrow : row = ∅ := AList.ext (List.isEmpty_iff.mp he)
      rw [hrow]
      rfl
    · rfl

end Nested

end Table

end NavCaster.Library
