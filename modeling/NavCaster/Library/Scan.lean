import NavCaster.Library.Strto

namespace NavCaster.Library.Scan

open NavCaster.Library.Strto

/-- The bytes of a text without other than ASCII characters. -/
def ascii (s : String) : Bytes := s.toList.map fun c ↦ UInt8.ofNat c.toNat

/-- What a C function sees of a string: all before the first NUL. -/
def cstr (s : Bytes) : Bytes := s.takeWhile (· ≠ 0)

theorem cstr_cstr (s : Bytes) : cstr (cstr s) = cstr s := List.takeWhile_idem

/-- `%[^...]`: all bytes before the first that is excluded, which must not be none. -/
def scanUntil (excluded : UInt8 → Bool) (s : Bytes) : Option (Bytes × Bytes) :=
  match s.takeWhile (!excluded ·) with
  | [] => none
  | token => some (token, s.dropWhile (!excluded ·))

def skipSpace (s : Bytes) : Bytes := s.dropWhile isSpace

def scanWord (s : Bytes) : Option (Bytes × Bytes) := scanUntil isSpace (skipSpace s)

def findText (pattern : Bytes) : Bytes → Option Bytes
  | [] => if pattern = [] then some [] else none
  | b :: s => if pattern.isPrefixOf (b :: s) then some (b :: s) else findText pattern s

theorem scanUntil_eq {excluded : UInt8 → Bool} {token rest : Bytes} (hne : token ≠ [])
    (htoken : ∀ b ∈ token, excluded b = false) (hrest : ∀ b ∈ rest.head?, excluded b = true) :
    scanUntil excluded (token ++ rest) = some (token, rest) := by
  have hall : ∀ b ∈ token, (!excluded b) = true := by
    intro b hb
    rw [htoken b hb]
    rfl
  have htake : rest.takeWhile (!excluded ·) = [] ∧ rest.dropWhile (!excluded ·) = rest := by
    cases rest with
    | nil => exact ⟨rfl, rfl⟩
    | cons b rest =>
      have hb : ¬ (!excluded b) = true := by
        rw [hrest b rfl]
        nofun
      exact ⟨List.takeWhile_cons_of_neg hb, List.dropWhile_cons_of_neg hb⟩
  unfold scanUntil
  rw [List.takeWhile_append_of_pos hall, List.dropWhile_append_of_pos hall, htake.1, htake.2,
    List.append_nil]
  obtain ⟨b, token, rfl⟩ := List.exists_cons_of_ne_nil hne
  rfl

theorem findText_length {pattern s rest : Bytes} (h : findText pattern s = some rest) :
    rest.length ≤ s.length := by
  induction s with
  | nil =>
    unfold findText at h
    split at h
    · cases h
      exact le_rfl
    · cases h
  | cons b s ih =>
    unfold findText at h
    split at h
    · cases h
      exact le_rfl
    · exact (ih h).trans (Nat.le_succ _)

theorem pattern_length_of_findText {pattern s rest : Bytes} (h : findText pattern s = some rest) :
    pattern.length ≤ s.length := by
  induction s with
  | nil =>
    unfold findText at h
    split at h
    · next hnil => rw [hnil]
    · cases h
  | cons b s ih =>
    unfold findText at h
    split at h
    · next hpre => exact (List.isPrefixOf_iff_prefix.mp hpre).length_le
    · exact (ih h).trans (Nat.le_succ _)

theorem findText_append {pattern s rest : Bytes} (h : findText pattern s = some rest) (x : Bytes) :
    findText pattern (s ++ x) = some (rest ++ x) := by
  induction s with
  | nil =>
    unfold findText at h
    split at h
    · next hnil =>
      cases h
      cases x with
      | nil => rw [List.nil_append, findText, if_pos hnil]
      | cons b x => rw [List.nil_append, findText, hnil]; rfl
    · cases h
  | cons b s ih =>
    have hlen := pattern_length_of_findText h
    unfold findText at h
    split at h
    · next hpre =>
      cases h
      rw [List.cons_append, findText, if_pos]
      exact List.isPrefixOf_iff_prefix.mpr ((List.isPrefixOf_iff_prefix.mp hpre).trans
        (List.prefix_append (b :: s) x))
    · next hpre =>
      rw [List.cons_append, findText, if_neg, ih h]
      intro hlong
      refine hpre (List.isPrefixOf_iff_prefix.mpr ?_)
      exact List.prefix_of_prefix_length_le (List.isPrefixOf_iff_prefix.mp hlong)
        (List.prefix_append (b :: s) x) hlen

theorem prefix_append_cons {pattern : Bytes} {c : UInt8} (hc : c ∉ pattern) (l t : Bytes) :
    pattern <+: l ++ c :: t ↔ pattern <+: l := by
  refine ⟨fun h ↦ ?_, fun h ↦ h.trans (List.prefix_append ..)⟩
  obtain ⟨rest, hrest⟩ := h
  obtain ⟨as, rfl, -⟩ | ⟨bs, rfl, hbs⟩ := List.append_eq_append_iff.mp hrest
  · exact List.prefix_append ..
  · cases bs with
    | nil => simp
    | cons b bs =>
      obtain ⟨rfl, -⟩ := List.cons_eq_cons.mp hbs
      exact absurd (List.mem_append_right l List.mem_cons_self) hc

/-- A byte that the pattern does not have parts the places at which it may stand. -/
theorem findText_append_cons {pattern : Bytes} {c : UInt8} (hc : c ∉ pattern) (hne : pattern ≠ [])
    (l t : Bytes) :
    findText pattern (l ++ c :: t) =
      ((findText pattern l).map (· ++ c :: t)).or (findText pattern t) := by
  induction l with
  | nil =>
    have hpre : ¬ pattern.isPrefixOf (c :: t) = true := by
      intro h
      have hnil := (prefix_append_cons hc [] t).mp (List.isPrefixOf_iff_prefix.mp h)
      exact hne (List.prefix_nil.mp hnil)
    simp [findText, hpre, hne]
  | cons b l ih =>
    have hpre : pattern.isPrefixOf (b :: (l ++ c :: t)) = pattern.isPrefixOf (b :: l) := by
      rw [Bool.eq_iff_iff, List.isPrefixOf_iff_prefix, List.isPrefixOf_iff_prefix]
      exact prefix_append_cons hc (b :: l) t
    rw [List.cons_append, findText, findText, hpre]
    split_ifs
    · simp
    · exact ih

theorem findText_isSome {pattern s : Bytes} : (findText pattern s).isSome ↔ pattern <:+: s := by
  induction s with
  | nil =>
    unfold findText
    split_ifs with h <;> simp [h]
  | cons b s ih =>
    unfold findText
    split_ifs with h
    · exact iff_of_true rfl (List.isPrefixOf_iff_prefix.mp h).isInfix
    · rw [ih, List.infix_cons_iff, ← List.isPrefixOf_iff_prefix]
      simp [h]

theorem findText_suffix {pattern s rest : Bytes} (h : findText pattern s = some rest) :
    rest <:+ s := by
  induction s with
  | nil =>
    unfold findText at h
    split at h <;> simp_all
  | cons b s ih =>
    unfold findText at h
    split at h
    · cases h
      exact List.suffix_rfl
    · exact (ih h).trans (List.suffix_cons b s)

end NavCaster.Library.Scan
