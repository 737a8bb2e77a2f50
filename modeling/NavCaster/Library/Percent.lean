import NavCaster.Library.Strto

namespace NavCaster.Library.Percent

open Strto (Bytes hexDigit)

/-- A byte of a text stands for itself, or is written as two hexadecimal digits behind a percent
sign. -/
inductive Encodes : Bytes → Bytes → Prop
  | nil : Encodes [] []
  | self {b : UInt8} {s t : Bytes} : b ≠ 37 → Encodes s t → Encodes (b :: s) (b :: t)
  | escape {h l : UInt8} {x y : ℕ} {s t : Bytes} : hexDigit h = some x → hexDigit l = some y →
    Encodes s t → Encodes (37 :: h :: l :: s) (UInt8.ofNat (16 * x + y) :: t)

def hexUpper (d : ℕ) : UInt8 := UInt8.ofNat (if d < 10 then 48 + d else 55 + d)

variable (keep : UInt8 → Bool)

def encodeByte (b : UInt8) : Bytes :=
  if keep b then [b] else [37, hexUpper (b.toNat / 16), hexUpper (b.toNat % 16)]

def encode (t : Bytes) : Bytes := t.flatMap (encodeByte keep)

def unreserved (b : UInt8) : Bool :=
  (48 ≤ b && b ≤ 57) || (65 ≤ b && b ≤ 90) || (97 ≤ b && b ≤ 122) || b = 45 || b = 46 || b =
    95 || b = 126

theorem hexDigit_hexUpper {d : ℕ} (hd : d < 16) : hexDigit (hexUpper d) = some d := by
  interval_cases d <;> rfl

variable {keep}

theorem encodes_encode (hpercent : keep 37 = false) (t : Bytes) : Encodes (encode keep t) t := by
  induction t with
  | nil => exact .nil
  | cons b t ih =>
    rw [encode, List.flatMap_cons, encodeByte]
    cases hb : keep b with
    | true =>
      refine .self ?_ ih
      intro heq
      rw [heq, hpercent] at hb
      cases hb
    | false =>
      have hlt : b.toNat < 256 := b.toNat_lt
      have hvalue : UInt8.ofNat (16 * (b.toNat / 16) + b.toNat % 16) = b := by
        rw [Nat.div_add_mod, UInt8.ofNat_toNat]
      have hescape := Encodes.escape (hexDigit_hexUpper (d := b.toNat / 16) (by omega))
        (hexDigit_hexUpper (d := b.toNat % 16) (by omega)) ih
      rwa [hvalue] at hescape

end NavCaster.Library.Percent
