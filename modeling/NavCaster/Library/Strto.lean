import Mathlib.Data.List.TakeWhile
import Mathlib.Data.Nat.Digits.Lemmas
import Mathlib.Tactic.IntervalCases

namespace NavCaster.Library.Strto

abbrev Bytes := List UInt8

/-- The exceptions of the conversions and of `substr`. -/
inductive Exn
  | invalidArgument | outOfRange
  deriving DecidableEq

def isSpace (b : UInt8) : Bool := b = 32 || (9 ≤ b && b ≤ 13)

def digit (b : UInt8) : Option Nat := if 48 ≤ b ∧ b ≤ 57 then some (b.toNat - 48) else none

def hexDigit (b : UInt8) : Option Nat :=
  if 48 ≤ b ∧ b ≤ 57 then some (b.toNat - 48)
  else if 65 ≤ b ∧ b ≤ 70 then some (b.toNat - 55)
  else if 97 ≤ b ∧ b ≤ 102 then some (b.toNat - 87)
  else none

def digits (d : UInt8 → Option Nat) : Bytes → List Nat × Bytes
  | [] => ([], [])
  | b :: s =>
    match d b with
    | none => ([], b :: s)
    | some v =>
      let (vs, rest) := digits d s
      (v :: vs, rest)

def valueOf (base : Nat) (vs : List Nat) : Nat := Nat.ofDigits base vs.reverse

def sign : Bytes → Bool × Bytes
  | 45 :: s => (true, s)
  | 43 :: s => (false, s)
  | s => (false, s)

/-- The integer at the start of the string, to the base 10; `none` where there is none. -/
def strtol (s : Bytes) : Option Int :=
  let (neg, s) := sign (s.dropWhile isSpace)
  match (digits digit s).1 with
  | [] => none
  | vs => some (if neg then -valueOf 10 vs else valueOf 10 vs)

def stoi (s : Bytes) : Except Exn Int :=
  match strtol s with
  | none => .error .invalidArgument
  | some v => if -2 ^ 31 ≤ v ∧ v < 2 ^ 31 then .ok v else .error .outOfRange

def stol (s : Bytes) : Except Exn Int :=
  match strtol s with
  | none => .error .invalidArgument
  | some v => if -2 ^ 63 ≤ v ∧ v < 2 ^ 63 then .ok v else .error .outOfRange

/-- A real number as it is written: a fraction without rounding, or one of the words. -/
inductive Reading
  | finite (neg : Bool) (num den : Nat)
  | infinite (neg : Bool)
  | nan
  deriving DecidableEq

def Reading.withSign (neg : Bool) : Reading → Reading
  | finite _ num den => finite neg num den
  | infinite _ => infinite neg
  | nan => nan

def mantissa (d : UInt8 → Option Nat) (s : Bytes) : Option (List Nat × List Nat × Bytes) :=
  match digits d s with
  | (whole, 46 :: s) =>
    let (frac, s) := digits d s
    if whole = [] ∧ frac = [] then none else some (whole, frac, s)
  | (whole, s) => if whole = [] then none else some (whole, [], s)

def exponent (lower upper : UInt8) : Bytes → Int
  | [] => 0
  | b :: s =>
    if b = lower ∨ b = upper then
      let (neg, s) := sign s
      if neg then -valueOf 10 (digits digit s).1 else valueOf 10 (digits digit s).1
    else 0

def scaled (m base : Nat) (e : Int) : Reading :=
  if 0 ≤ e then .finite false (m * base ^ e.toNat) 1 else .finite false m (base ^ (-e).toNat)

def decimal (s : Bytes) : Option Reading :=
  (mantissa digit s).map fun (whole, frac, s) ↦
    scaled (valueOf 10 (whole ++ frac)) 10 (exponent 101 69 s - frac.length)

def hexadecimal (s : Bytes) : Option Reading :=
  (mantissa hexDigit s).map fun (whole, frac, s) ↦
    scaled (valueOf 16 (whole ++ frac)) 2 (exponent 112 80 s - 4 * frac.length)

def toLower (b : UInt8) : UInt8 := if 65 ≤ b ∧ b ≤ 90 then b + 32 else b

def word (s : Bytes) : Option Reading :=
  let w := (s.take 3).map toLower
  if w = [105, 110, 102] then some (.infinite false)
  else if w = [110, 97, 110] then some .nan
  else none

def unsigned (s : Bytes) : Option Reading :=
  match s with
  | 48 :: x :: rest =>
    if x = 120 ∨ x = 88 then (hexadecimal rest).or (decimal s) else decimal s
  | _ => (decimal s).or (word s)

/-- The real number at the start of the string; `none` where there is none. -/
def strtod (s : Bytes) : Option Reading :=
  let (neg, s) := sign (s.dropWhile isSpace)
  (unsigned s).map (Reading.withSign neg)

def skipHexMark : Bytes → Bytes
  | 48 :: 120 :: rest => rest
  | 48 :: 88 :: rest => rest
  | s => s

/-- `%zx` of `sscanf`: the number at the start of a C string, to the base 16, as a 64-bit `size_t`.
A number that does not fit reads as the greatest one. -/
def scanHex (s : Bytes) : Option Nat :=
  let (neg, s) := sign ((s.takeWhile (· ≠ 0)).dropWhile isSpace)
  match (digits hexDigit (skipHexMark s)).1 with
  | [] => none
  | vs =>
    let v := valueOf 16 vs
    some (if 2 ^ 64 ≤ v then 2 ^ 64 - 1 else if neg then (2 ^ 64 - v) % 2 ^ 64 else v)

def hexChar (d : Nat) : UInt8 := UInt8.ofNat (if d < 10 then 48 + d else 87 + d)

def hexText (n : Nat) : Bytes :=
  if n = 0 then [48] else ((Nat.digits 16 n).map hexChar).reverse

/-- No overflow of the binary64 format, and no result below its normal numbers that is not exact.
The bounds are the halves between the largest number and the next power of two, and between the
smallest normal number and its predecessor. -/
def inDoubleRange : Reading → Bool
  | .finite _ num den =>
    num < (2 ^ 1024 - 2 ^ 970) * den &&
      (num == 0 || (2 ^ 54 - 1) * den ≤ num * 2 ^ 1076 || num * 2 ^ 1074 % den == 0)
  | _ => true

def stod (s : Bytes) : Except Exn Reading :=
  match strtod s with
  | none => .error .invalidArgument
  | some x => if inDoubleRange x then .ok x else .error .outOfRange

/-- `std::string::substr` from a position that must not lie behind the end. -/
def substr (s : Bytes) (pos len : Nat) : Except Exn Bytes :=
  if pos ≤ s.length then .ok ((s.drop pos).take len) else .error .outOfRange

/-- The call returns, rather than throw. -/
def Returns {α : Type} (x : Except Exn α) : Prop := ∃ a, x = .ok a

theorem returns_ok {α : Type} (a : α) : Returns (.ok a) := ⟨a, rfl⟩

theorem not_returns_error {α : Type} (e : Exn) : ¬ Returns (.error e : Except Exn α) :=
  fun ⟨_, h⟩ ↦ by cases h

theorem returns_bind {α β : Type} {x : Except Exn α} {f : α → Except Exn β} :
    Returns (x >>= f) ↔ ∃ a, x = .ok a ∧ Returns (f a) := by
  cases x with
  | error e => exact iff_of_false (not_returns_error e) fun ⟨_, h, _⟩ ↦ by cases h
  | ok a =>
    constructor
    · exact fun h ↦ ⟨a, rfl, h⟩
    · rintro ⟨_, h, hf⟩
      cases h
      exact hf

theorem returns_bind_iff {α β : Type} {x : Except Exn α} {f : α → Except Exn β} {p : Prop}
    (hf : ∀ a, Returns (f a) ↔ p) : Returns (x >>= f) ↔ Returns x ∧ p := by
  rw [returns_bind]
  constructor
  · rintro ⟨a, hx, ha⟩
    exact ⟨⟨a, hx⟩, (hf a).mp ha⟩
  · rintro ⟨⟨a, hx⟩, hp⟩
    exact ⟨a, hx, (hf a).mpr hp⟩

theorem returns_map {α β : Type} {x : Except Exn α} {f : α → β} :
    Returns (f <$> x) ↔ Returns x := by
  cases x with
  | error e => exact iff_of_false (not_returns_error e) (not_returns_error e)
  | ok a => exact iff_of_true ⟨_, rfl⟩ ⟨_, rfl⟩

theorem returns_substr {s : Bytes} {pos len : Nat} :
    Returns (substr s pos len) ↔ pos ≤ s.length := by
  unfold substr
  split
  · next h => exact iff_of_true (returns_ok _) h
  · next h => exact iff_of_false (not_returns_error _) h

/-- The text begins with a number that an `int` holds. -/
def IsInt (s : Bytes) : Prop := ∃ v, strtol s = some v ∧ -2 ^ 31 ≤ v ∧ v < 2 ^ 31

/-- The text begins with a number that a `double` can approximate. -/
def IsReal (s : Bytes) : Prop := ∃ x, strtod s = some x ∧ inDoubleRange x

theorem returns_stoi {s : Bytes} : Returns (stoi s) ↔ IsInt s := by
  unfold stoi IsInt
  cases strtol s with
  | none => exact iff_of_false (not_returns_error _) fun ⟨_, h, _⟩ ↦ by cases h
  | some v =>
    dsimp only
    split
    · next h => exact iff_of_true (returns_ok _) ⟨v, rfl, h⟩
    · next h => exact iff_of_false (not_returns_error _) fun ⟨_, he, hv⟩ ↦ h (by cases he; exact hv)

theorem returns_stod {s : Bytes} : Returns (stod s) ↔ IsReal s := by
  unfold stod IsReal
  cases strtod s with
  | none => exact iff_of_false (not_returns_error _) fun ⟨_, h, _⟩ ↦ by cases h
  | some x =>
    dsimp only
    split
    · next h => exact iff_of_true (returns_ok _) ⟨x, rfl, h⟩
    · next h => exact iff_of_false (not_returns_error _) fun ⟨_, he, hx⟩ ↦ h (by cases he; exact hx)

theorem hexDigit_hexChar {d : Nat} (h : d < 16) : hexDigit (hexChar d) = some d := by
  interval_cases d <;> rfl

theorem digits_map {d : UInt8 → Option Nat} {c : Nat → UInt8} {vs : List Nat}
    (h : ∀ v ∈ vs, d (c v) = some v) : digits d (vs.map c) = (vs, []) := by
  induction vs with
  | nil => rfl
  | cons v vs ih =>
    rw [List.map_cons, digits, h v (List.mem_cons_self ..),
      ih fun v' hv ↦ h v' (List.mem_cons_of_mem v hv)]

theorem hexText_eq_map (n : Nat) : ∃ vs : List Nat, hexText n = vs.map hexChar ∧ vs ≠ [] ∧
    (∀ v ∈ vs, v < 16) ∧ valueOf 16 vs = n := by
  unfold hexText valueOf
  split
  · next h => exact ⟨[0], rfl, nofun, by simp, by rw [h]; rfl⟩
  · next h =>
    refine ⟨(Nat.digits 16 n).reverse, List.map_reverse.symm, ?_, ?_, ?_⟩
    · rwa [Ne, List.reverse_eq_nil_iff, Nat.digits_eq_nil_iff_eq_zero]
    · intro v hv
      exact Nat.digits_lt_base (by decide) (List.mem_reverse.mp hv)
    · rw [List.reverse_reverse, Nat.ofDigits_digits]

theorem mem_hexText {n : Nat} {b : UInt8} (h : b ∈ hexText n) : ∃ d, d < 16 ∧ b = hexChar d := by
  obtain ⟨vs, hvs, -, hlt, -⟩ := hexText_eq_map n
  rw [hvs, List.mem_map] at h
  obtain ⟨v, hv, rfl⟩ := h
  exact ⟨v, hlt v hv, rfl⟩

theorem hexChar_ne {b : UInt8} (h : hexDigit b = none) {d : Nat} (hd : d < 16) : hexChar d ≠ b := by
  intro heq
  rw [← heq, hexDigit_hexChar hd] at h
  cases h

theorem not_mem_hexText {b : UInt8} (h : hexDigit b = none) (n : Nat) : b ∉ hexText n := by
  intro hm
  obtain ⟨d, hd, rfl⟩ := mem_hexText hm
  exact hexChar_ne h hd rfl

theorem isSpace_hexChar {d : Nat} (h : d < 16) : isSpace (hexChar d) = false := by
  interval_cases d <;> rfl

theorem sign_hexChar {d : Nat} (h : d < 16) (s : Bytes) :
    sign (hexChar d :: s) = (false, hexChar d :: s) := by
  interval_cases d <;> rfl

theorem skipHexMark_hexText (n : Nat) : skipHexMark (hexText n) = hexText n := by
  have hx {b : UInt8} (hb : hexDigit b = none) {c : UInt8} {rest : Bytes}
      (h : hexText n = c :: b :: rest) : False :=
    not_mem_hexText hb n (h ▸ List.mem_cons_of_mem _ (List.mem_cons_self ..))
  unfold skipHexMark
  split
  · next h => exact (hx rfl h).elim
  · next h => exact (hx rfl h).elim
  · rfl

theorem scanHex_hexText {n : Nat} (h : n < 2 ^ 64) : scanHex (hexText n) = some n := by
  obtain ⟨vs, hvs, hne, hlt, hval⟩ := hexText_eq_map n
  obtain ⟨v, vs, rfl⟩ := List.exists_cons_of_ne_nil hne
  have hnul : ∀ b ∈ hexText n, decide (b ≠ 0) = true := by
    intro b hb
    exact decide_eq_true fun heq ↦ not_mem_hexText (b := 0) rfl n (heq ▸ hb)
  have hv : v < 16 := hlt v (List.mem_cons_self ..)
  have hdig : digits hexDigit (hexText n) = (v :: vs, []) := by
    rw [hvs]
    exact digits_map fun w hw ↦ hexDigit_hexChar (hlt w hw)
  have htext : hexText n = hexChar v :: vs.map hexChar := hvs
  unfold scanHex
  rw [List.takeWhile_eq_self_iff.mpr hnul, htext,
    List.dropWhile_cons_of_neg (by rw [isSpace_hexChar hv]; nofun), sign_hexChar hv, ← htext]
  dsimp only
  rw [skipHexMark_hexText, hdig]
  dsimp only
  rw [hval, if_neg (by omega), if_neg nofun]

theorem not_isInt_nil : ¬ IsInt [] := fun ⟨_, h, _⟩ ↦ by cases h

example : stoi [45, 49, 50, 44] = .ok (-12) := by decide +kernel

example : stod [49, 46, 53, 101, 49] = .ok (.finite false 15 1) := by decide +kernel

end NavCaster.Library.Strto
