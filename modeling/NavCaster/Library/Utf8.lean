import NavCaster.Library.Scan

namespace NavCaster.Library.Utf8

open NavCaster.Library.Strto (Bytes)
open NavCaster.Library.Scan

/-- What must come next: so many bytes of a character, the first of them within the bounds. -/
structure Pending where
  count : Nat
  low : UInt8
  high : UInt8
  deriving DecidableEq

def between : Pending := ⟨0, 0, 0⟩

/-- The bounds exclude overlong forms, surrogates, and what lies beyond the last character. -/
def lead (b : UInt8) : Option Pending :=
  if b ≤ 127 then some between
  else if 194 ≤ b ∧ b ≤ 223 then some ⟨1, 128, 191⟩
  else if b = 224 then some ⟨2, 160, 191⟩
  else if b = 237 then some ⟨2, 128, 159⟩
  else if 225 ≤ b ∧ b ≤ 239 then some ⟨2, 128, 191⟩
  else if b = 240 then some ⟨3, 144, 191⟩
  else if b = 244 then some ⟨3, 128, 143⟩
  else if 241 ≤ b ∧ b ≤ 243 then some ⟨3, 128, 191⟩
  else none

def next (p : Pending) (b : UInt8) : Option Pending :=
  match p.count with
  | 0 => lead b
  | 1 => if p.low ≤ b ∧ b ≤ p.high then some between else none
  | n + 2 => if p.low ≤ b ∧ b ≤ p.high then some ⟨n + 1, 128, 191⟩ else none

def isUtf8 (s : Bytes) : Bool :=
  s.foldl (fun p b ↦ p.bind (next · b)) (some between) = some between

theorem isUtf8_of_ascii {s : Bytes} (hall : s.all (· ≤ 127)) : isUtf8 s = true := by
  have h : ∀ b ∈ s, b ≤ 127 := fun b hb ↦ of_decide_eq_true (List.all_eq_true.mp hall b hb)
  clear hall
  refine decide_eq_true ?_
  induction s with
  | nil => rfl
  | cons b s ih =>
    have hb : (some between).bind (next · b) = some between :=
      if_pos (h b (List.mem_cons_self ..))
    rw [List.foldl_cons, hb]
    exact ih fun b' hb' ↦ h b' (List.mem_cons_of_mem b hb')

end NavCaster.Library.Utf8
