import Mathlib.Algebra.Order.Field.Rat
import Mathlib.Tactic.FieldSimp
import Mathlib.Tactic.Ring
import NavCaster.Library.Strto

namespace NavCaster.Library.Decimal

open NavCaster.Library.Strto

variable {vs ws : List ℕ}

theorem digits_stop {d : UInt8 → Option ℕ} {c : ℕ → UInt8} {s : Bytes}
    (h : ∀ v ∈ vs, d (c v) = some v) (hs : ∀ b ∈ s.head?, d b = none) :
    digits d (vs.map c ++ s) = (vs, s) := by
  induction vs with
  | nil =>
    cases s with
    | nil => rfl
    | cons b s => simp [digits, hs b rfl]
  | cons v vs ih =>
    rw [List.map_cons, List.cons_append, digits, h v (List.mem_cons_self ..),
      ih fun w hw ↦ h w (List.mem_cons_of_mem v hw)]

theorem digit_decimal {d : ℕ} (h : d < 10) : digit (UInt8.ofNat (48 + d)) = some d := by
  interval_cases d <;> rfl

theorem isSpace_decimal {d : ℕ} (h : d < 10) : isSpace (UInt8.ofNat (48 + d)) = false := by
  interval_cases d <;> rfl

theorem sign_decimal {d : ℕ} (h : d < 10) (s : Bytes) :
    sign (UInt8.ofNat (48 + d) :: s) = (false, UInt8.ofNat (48 + d) :: s) := by
  interval_cases d <;> rfl

def digitText (vs : List ℕ) : Bytes := vs.map fun d ↦ UInt8.ofNat (48 + d)

/-- A number as it is written: its digits, and those behind the point if there is one. -/
structure Numeral where
  whole : List ℕ
  frac : Option (List ℕ)
  nonempty : whole ≠ []
  whole_lt : ∀ d ∈ whole, d < 10
  frac_lt : ∀ ds ∈ frac, ∀ d ∈ ds, d < 10

namespace Numeral

variable (n : Numeral)

def fracDigits : List ℕ := n.frac.getD []

def text : Bytes := digitText n.whole ++ (n.frac.map fun ds ↦ 46 :: digitText ds).getD []

def num : ℕ := valueOf 10 (n.whole ++ n.fracDigits)

def den : ℕ := 10 ^ n.fracDigits.length

def value : ℚ := n.num / n.den

end Numeral

theorem valueOf_append (base : ℕ) (vs ws : List ℕ) :
    valueOf base (vs ++ ws) = valueOf base vs * base ^ ws.length + valueOf base ws := by
  rw [valueOf, List.reverse_append, Nat.ofDigits_append, List.length_reverse, valueOf, valueOf]
  ring

theorem valueOf_lt (h : ∀ v ∈ vs, v < 10) : valueOf 10 vs < 10 ^ vs.length := by
  have hlt :=
    Nat.ofDigits_lt_base_pow_length (by decide : 1 < 10) fun v hv ↦ h v (List.mem_reverse.mp hv)
  rwa [List.length_reverse] at hlt

theorem digits_digitText (h : ∀ v ∈ vs, v < 10) {s : Bytes} (hs : ∀ b ∈ s.head?, digit b = none) :
    digits digit (digitText vs ++ s) = (vs, s) :=
  digits_stop (fun v hv ↦ digit_decimal (h v hv)) hs

theorem mem_text {n : Numeral} {b : UInt8} (h : b ∈ n.text) : (digit b).isSome ∨ b = 46 := by
  have hdigit {vs : List ℕ} (hvs : ∀ v ∈ vs, v < 10) (hb : b ∈ digitText vs) :
      (digit b).isSome := by
    obtain ⟨v, hv, rfl⟩ := List.mem_map.mp hb
    rw [digit_decimal (hvs v hv)]
    rfl
  rcases List.mem_append.mp h with hb | hb
  · exact .inl (hdigit n.whole_lt hb)
  · cases hfrac : n.frac with
    | none => simp [hfrac] at hb
    | some ds =>
      rw [hfrac, Option.map_some, Option.getD_some, List.mem_cons] at hb
      exact hb.symm.imp_left (hdigit (n.frac_lt ds hfrac))

theorem mantissa_text (n : Numeral) : mantissa digit n.text = some (n.whole, n.fracDigits, []) := by
  unfold mantissa Numeral.text Numeral.fracDigits
  cases hfrac : n.frac with
  | none =>
    have hdigits := digits_digitText n.whole_lt (s := []) nofun
    simp only [Option.map_none, Option.getD_none, hdigits, n.nonempty, if_false]
  | some ds =>
    have hpoint : ∀ b ∈ (46 :: digitText ds).head?, digit b = none := by
      rintro b ⟨⟩
      rfl
    have hdigits := digits_digitText n.whole_lt hpoint
    have hrest := digits_digitText (n.frac_lt ds hfrac) (s := []) nofun
    rw [List.append_nil] at hrest
    simp only [Option.map_some, Option.getD_some, hdigits, hrest, n.nonempty, false_and, if_false]

theorem decimal_text (n : Numeral) : decimal n.text = some (.finite false n.num n.den) := by
  rw [decimal, mantissa_text, Option.map_some, Numeral.num, Numeral.den]
  dsimp only [exponent, scaled]
  cases n.fracDigits with
  | nil => simp
  | cons d ds =>
    rw [if_neg (by simp only [List.length_cons]; omega)]
    congr 3

theorem strtod_text (n : Numeral) : strtod n.text = some (.finite false n.num n.den) := by
  obtain ⟨v, vs, hvs⟩ := List.exists_cons_of_ne_nil n.nonempty
  have hv : v < 10 := n.whole_lt v (hvs ▸ List.mem_cons_self)
  obtain ⟨s, hs⟩ : ∃ s, n.text = UInt8.ofNat (48 + v) :: s := by
    rw [Numeral.text, hvs]
    exact ⟨_, rfl⟩
  have hspace : n.text.dropWhile isSpace = n.text := by
    rw [hs, List.dropWhile_cons_of_neg (by rw [isSpace_decimal hv]; exact Bool.false_ne_true)]
  have hsign : sign n.text = (false, n.text) := by
    rw [hs]
    exact sign_decimal hv s
  have hunsigned : unsigned n.text = some (.finite false n.num n.den) := by
    have hdecimal := decimal_text n
    have hmark {x : UInt8} (hx : x ∈ n.text) : ¬ (x = 120 ∨ x = 88) := by
      rintro (rfl | rfl) <;> exact (mem_text hx).elim nofun nofun
    generalize n.text = text at hdecimal hmark ⊢
    unfold unsigned
    split
    · next x rest =>
      rw [if_neg (hmark (by simp)), hdecimal]
    · rw [hdecimal, Option.some_or]
  rw [strtod, hspace, hsign]
  dsimp only
  rw [hunsigned]
  rfl

namespace Numeral

variable (n : Numeral) {k : ℕ}

def integer (ds : List ℕ) (nonempty : ds ≠ []) (whole_lt : ∀ d ∈ ds, d < 10) : Numeral where
  whole := ds
  frac := none
  nonempty
  whole_lt
  frac_lt := nofun

theorem take_ne_nil (hpos : 0 < k) : n.whole.take k ≠ [] := by
  intro h
  rcases List.take_eq_nil_iff.mp h with h | h
  · omega
  · exact n.nonempty h

def take (hpos : 0 < k) : Numeral :=
  integer (n.whole.take k) (n.take_ne_nil hpos) fun d hd ↦ n.whole_lt d (List.mem_of_mem_take hd)

def drop (hlen : k < n.whole.length) : Numeral where
  whole := n.whole.drop k
  frac := n.frac
  nonempty h := by
    have hle := List.drop_eq_nil_iff.mp h
    omega
  whole_lt d hd := n.whole_lt d (List.mem_of_mem_drop hd)
  frac_lt := n.frac_lt

theorem text_take (hpos : 0 < k) (hlen : k ≤ n.whole.length) :
    n.text.take k = (n.take hpos).text := by
  have hle : k ≤ (digitText n.whole).length := by
    rw [digitText, List.length_map]
    exact hlen
  rw [text, List.take_append_of_le_length hle, digitText, ← List.map_take]
  exact (List.append_nil _).symm

theorem text_drop (hlen : k < n.whole.length) : n.text.drop k = (n.drop hlen).text := by
  have hle : k ≤ (digitText n.whole).length := by
    rw [digitText, List.length_map]
    exact hlen.le
  rw [text, List.drop_append_of_le_length hle, digitText, ← List.map_drop]
  rfl

theorem value_nonneg : 0 ≤ n.value := div_nonneg (Nat.cast_nonneg _) (Nat.cast_nonneg _)

theorem den_pos : (0 : ℚ) < n.den := Nat.cast_pos.mpr (pow_pos (by decide) _)

theorem value_eq_zero : n.value = 0 ↔ n.num = 0 := by
  rw [value, div_eq_zero_iff, or_iff_left n.den_pos.ne', Nat.cast_eq_zero]

theorem value_of_frac_none (h : n.frac = none) : n.value = valueOf 10 n.whole := by
  simp [value, num, den, fracDigits, h]

theorem value_lt : n.value < 10 ^ n.whole.length := by
  have hfrac : ∀ d ∈ n.fracDigits, d < 10 := by
    unfold fracDigits
    cases h : n.frac with
    | none => simp
    | some ds => exact n.frac_lt ds h
  have hnum : n.num < 10 ^ n.whole.length * n.den := by
    have hlt := valueOf_lt (List.forall_mem_append.mpr ⟨n.whole_lt, hfrac⟩)
    rwa [List.length_append, pow_add] at hlt
  rw [value, div_lt_iff₀ n.den_pos]
  exact_mod_cast hnum

theorem value_take_drop (hpos : 0 < k) (hlen : k < n.whole.length) :
    n.value = (n.take hpos).value * 10 ^ (n.whole.length - k) + (n.drop hlen).value := by
  have hnum :
      n.num =
        valueOf 10 (n.whole.take k) * (10 ^ (n.whole.length - k) * n.den) + (n.drop hlen).num := by
    have happend := valueOf_append 10 (n.whole.take k) (n.whole.drop k ++ n.fracDigits)
    rw [← List.append_assoc, List.take_append_drop, List.length_append, List.length_drop,
      pow_add] at happend
    exact happend
  have hden := n.den_pos
  have hden' : (n.drop hlen).den = n.den := rfl
  have hwhole : (n.take hpos).whole = n.whole.take k := rfl
  rw [value_of_frac_none (n.take hpos) rfl, hwhole, value, value, hnum, hden']
  push_cast
  field_simp

end Numeral

end NavCaster.Library.Decimal
