import NavCaster.Library.Cipher
import Mathlib.Data.Nat.Notation
import Mathlib.Logic.Function.Iterate

namespace NavCaster.Library.Rijndael

abbrev Byte := BitVec 8

abbrev Column := Fin 4 → Byte

abbrev State (n : ℕ) := Fin n → Column

/-- Multiplication by `x` modulo `x⁸ + x⁴ + x³ + x + 1`. -/
def xtime (b : Byte) : Byte := b <<< 1 ^^^ if b.msb then 0x1b else 0

def mul (a b : Byte) : Byte :=
  (List.range 8).foldl (fun s i ↦ xtime s ^^^ if a.getMsbD i then b else 0) 0

def affine (b : Byte) : Byte :=
  b ^^^ b.rotateLeft 1 ^^^ b.rotateLeft 2 ^^^ b.rotateLeft 3 ^^^ b.rotateLeft 4 ^^^ 0x63

def invAffine (b : Byte) : Byte := b.rotateLeft 1 ^^^ b.rotateLeft 3 ^^^ b.rotateLeft 6 ^^^ 0x05

theorem affine_invAffine : ∀ b, affine (invAffine b) = b := by decide +kernel

/-- The inverse of a byte, where 0 stands for that of 0, and then an affine map. -/
def IsSubByte (sub : Byte → Byte) : Prop :=
  ∀ b, ∃ y, (b = 0 ∧ y = 0 ∨ mul b y = 1) ∧ sub b = affine y

def addColumn (k c : Column) : Column := fun r ↦ c r ^^^ k r

def mixColumn (c : Column) : Column := fun r ↦
  mul 2 (c r) ^^^ mul 3 (c (r + 1)) ^^^ c (r + 2) ^^^ c (r + 3)

def invMixColumn (c : Column) : Column := fun r ↦
  mul 14 (c r) ^^^ mul 11 (c (r + 1)) ^^^ mul 13 (c (r + 2)) ^^^ mul 9 (c (r + 3))

theorem xtime_xor (a b : Byte) : xtime (a ^^^ b) = xtime a ^^^ xtime b := by
  have hmsb : (if (a ^^^ b).msb then (0x1b : Byte) else 0) =
      (if a.msb then 0x1b else 0) ^^^ if b.msb then 0x1b else 0 := by
    rw [BitVec.msb_xor]
    cases a.msb <;> cases b.msb <;> rfl
  simp only [xtime, hmsb, BitVec.shiftLeft_xor_distrib]
  ac_rfl

theorem mul_xor (a b c : Byte) : mul a (b ^^^ c) = mul a b ^^^ mul a c := by
  have hstep : ∀ (l : List ℕ) (s t : Byte),
      l.foldl (fun s i ↦ xtime s ^^^ if a.getMsbD i then b ^^^ c else 0) (s ^^^ t) =
        l.foldl (fun s i ↦ xtime s ^^^ if a.getMsbD i then b else 0) s ^^^
          l.foldl (fun s i ↦ xtime s ^^^ if a.getMsbD i then c else 0) t := by
    intro l
    induction l with
    | nil => exact fun s t ↦ rfl
    | cons i l ih =>
      intro s t
      rw [List.foldl_cons, List.foldl_cons, List.foldl_cons, ← ih, xtime_xor]
      congr 1
      cases a.getMsbD i with
      | false => simp
      | true =>
        simp only [if_true]
        ac_rfl
  exact hstep _ 0 0

theorem xtime_zero : xtime 0#8 = 0#8 := rfl

theorem mul_const (b : Byte) :
    mul 2 b = xtime b ∧ mul 3 b = xtime b ^^^ b ∧
      mul 9 b = xtime (xtime (xtime b)) ^^^ b ∧
      mul 11 b = xtime (xtime (xtime b)) ^^^ (xtime b ^^^ b) ∧
      mul 13 b = xtime (xtime (xtime b)) ^^^ (xtime (xtime b) ^^^ b) ∧
      mul 14 b = xtime (xtime (xtime b)) ^^^ (xtime (xtime b) ^^^ xtime b) := by
  refine ⟨?_, ?_, ?_, ?_, ?_, ?_⟩ <;>
    simp [mul, List.range, List.range.loop, xtime_zero, xtime_xor, BitVec.xor_assoc]

theorem coefficients (b : Byte) :
    mul 14 (mul 2 b) ^^^ mul 11 b ^^^ mul 13 b ^^^ mul 9 (mul 3 b) = b ∧
      mul 14 (mul 3 b) ^^^ mul 11 (mul 2 b) ^^^ mul 13 b ^^^ mul 9 b = 0 ∧
      mul 14 b ^^^ mul 11 (mul 3 b) ^^^ mul 13 (mul 2 b) ^^^ mul 9 b = 0 ∧
      mul 14 b ^^^ mul 11 b ^^^ mul 13 (mul 3 b) ^^^ mul 9 (mul 2 b) = 0 := by
  simp only [(mul_const _).1, (mul_const _).2.1, (mul_const _).2.2.1, (mul_const _).2.2.2.1,
    (mul_const _).2.2.2.2.1, (mul_const _).2.2.2.2.2, xtime_xor]
  generalize xtime b = x₁
  generalize xtime x₁ = x₂
  generalize xtime x₂ = x₃
  generalize xtime x₃ = x₄
  have hleft : ∀ a b c : Byte, a ^^^ (b ^^^ c) = b ^^^ (a ^^^ c) := fun a b c ↦ by ac_rfl
  refine ⟨?_, ?_, ?_, ?_⟩ <;>
    simp [BitVec.xor_comm, hleft]

theorem invMix_mix (a b c d : Byte) :
    mul 14 (mul 2 a ^^^ mul 3 b ^^^ c ^^^ d) ^^^ mul 11 (mul 2 b ^^^ mul 3 c ^^^ d ^^^ a) ^^^
      mul 13 (mul 2 c ^^^ mul 3 d ^^^ a ^^^ b) ^^^ mul 9 (mul 2 d ^^^ mul 3 a ^^^ b ^^^ c) = a := by
  calc _ = (mul 14 (mul 2 a) ^^^ mul 11 a ^^^ mul 13 a ^^^ mul 9 (mul 3 a)) ^^^
        (mul 14 (mul 3 b) ^^^ mul 11 (mul 2 b) ^^^ mul 13 b ^^^ mul 9 b) ^^^
        (mul 14 c ^^^ mul 11 (mul 3 c) ^^^ mul 13 (mul 2 c) ^^^ mul 9 c) ^^^
        (mul 14 d ^^^ mul 11 d ^^^ mul 13 (mul 3 d) ^^^ mul 9 (mul 2 d)) := by
        simp only [mul_xor]
        ac_rfl
    _ = a := by
        rw [(coefficients a).1, (coefficients b).2.1, (coefficients c).2.2.1,
          (coefficients d).2.2.2]
        simp

theorem invMixColumn_mixColumn (c : Column) : invMixColumn (mixColumn c) = c := by
  funext r
  have hturn : r + 1 + 1 = r + 2 ∧ r + 1 + 2 = r + 3 ∧ r + 1 + 3 = r ∧ r + 2 + 1 = r + 3 ∧
      r + 2 + 2 = r ∧ r + 2 + 3 = r + 1 ∧ r + 3 + 1 = r ∧ r + 3 + 2 = r + 1 ∧
        r + 3 + 3 = r + 2 := by
    revert r
    decide
  obtain ⟨h₁, h₂, h₃, h₄, h₅, h₆, h₇, h₈, h₉⟩ := hturn
  simp only [invMixColumn, mixColumn, h₁, h₂, h₃, h₄, h₅, h₆, h₇, h₈, h₉]
  exact invMix_mix _ _ _ _

theorem invMixColumn_addColumn (k c : Column) :
    invMixColumn (addColumn k c) = addColumn (invMixColumn k) (invMixColumn c) := by
  funext r
  simp only [invMixColumn, addColumn, mul_xor]
  ac_rfl

section

variable {n : ℕ}

def addKey (k s : State n) : State n := fun j ↦ addColumn (k j) (s j)

def subBytes (sub : Byte → Byte) (s : State n) : State n := fun j r ↦ sub (s j r)

def offset (n : ℕ) (r : Fin 4) : ℕ := if n = 8 ∧ 2 ≤ r.val then r.val + 1 else r.val

theorem offset_zero (n : ℕ) : offset n 0 = 0 := if_neg fun h ↦ absurd h.2 (by decide)

def shiftRows (s : State n) : State n := fun j r ↦
  s ⟨(j + offset n r) % n, Nat.mod_lt _ j.pos⟩ r

def unshiftRows (s : State n) : State n := fun j r ↦
  s ⟨(j + (n - offset n r % n)) % n, Nat.mod_lt _ j.pos⟩ r

theorem unshiftRows_shiftRows (s : State n) : unshiftRows (shiftRows s) = s := by
  funext j r
  have hturn : ((j + (n - offset n r % n)) % n + offset n r) % n = j := by
    have hlt : offset n r % n < n := Nat.mod_lt _ j.pos
    have hdiv := Nat.div_add_mod (offset n r) n
    have hall : j + (n - offset n r % n) + offset n r = j + n * (offset n r / n + 1) := by
      rw [Nat.mul_add]
      omega
    rw [Nat.mod_add_mod, hall, Nat.add_mul_mod_self_left, Nat.mod_eq_of_lt j.isLt]
  exact congrFun (congrArg s (Fin.ext hturn)) r

/-- The rounds of Rijndael on blocks of `n` columns. -/
def round (n : ℕ) {sub unsub : Byte → Byte} (hsub : ∀ b, unsub (sub b) = b) :
    Cipher.Round (State n) (State n) where
  add := addKey
  sub := subBytes sub
  shift := shiftRows
  mix s j := mixColumn (s j)
  unsub := subBytes unsub
  unshift := unshiftRows
  unmix s j := invMixColumn (s j)
  unmixKey s j := invMixColumn (s j)
  add_add k s := by
    funext j r
    exact (BitVec.xor_assoc _ _ _).trans (by rw [BitVec.xor_self, BitVec.xor_zero])
  unsub_sub s := funext fun j ↦ funext fun r ↦ hsub _
  unshift_shift := unshiftRows_shiftRows
  unmix_mix s := funext fun j ↦ invMixColumn_mixColumn _
  unsub_unshift _ := rfl
  unmix_add k s := funext fun j ↦ invMixColumn_addColumn _ _

end

def rotWord (c : Column) : Column := fun r ↦ c (r + 1)

def rcon (i : ℕ) : Column := fun r ↦ if r = 0 then xtime^[i - 1] 1 else 0

def expandKey (sub : Byte → Byte) (nk : ℕ) (key : ℕ → Column) (i : ℕ) : Column :=
  if i < nk ∨ nk = 0 then key i
  else
    let temp := expandKey sub nk key (i - 1)
    addColumn (if i % nk = 0 then addColumn (rcon (i / nk)) (sub ∘ rotWord temp)
      else if 6 < nk ∧ i % nk = 4 then sub ∘ temp else temp) (expandKey sub nk key (i - nk))
termination_by i
decreasing_by all_goals omega

def numRounds (nk nb : ℕ) : ℕ := max nk nb + 6

/-- The words of the expanded key that one round adds. -/
def roundKey (nb : ℕ) (w : ℕ → Column) (i : ℕ) : State nb := fun j ↦ w (nb * i + j)

def cipher {sub unsub : Byte → Byte} (hsub : ∀ b, unsub (sub b) = b) (nk nb : ℕ)
    (key : ℕ → Column) (s : State nb) : State nb :=
  let w := expandKey sub nk key
  (round nb hsub).encrypt (roundKey nb w 0)
    ((List.range' 1 (numRounds nk nb - 1)).map (roundKey nb w)) (roundKey nb w (numRounds nk nb)) s

def invCipher {sub unsub : Byte → Byte} (hsub : ∀ b, unsub (sub b) = b) (nk nb : ℕ)
    (key : ℕ → Column) (s : State nb) : State nb :=
  let w := expandKey sub nk key
  let R := round nb hsub
  R.decrypt (roundKey nb w (numRounds nk nb))
    (((List.range' 1 (numRounds nk nb - 1)).map (roundKey nb w)).reverse.map R.unmixKey)
    (roundKey nb w 0) s

theorem invCipher_cipher {sub unsub : Byte → Byte} (hsub : ∀ b, unsub (sub b) = b) (nk nb : ℕ)
    (key : ℕ → Column) (s : State nb) :
    invCipher hsub nk nb key (cipher hsub nk nb key s) = s :=
  (round nb hsub).decrypt_encrypt _ _ _ s

/-! ### Columns as numbers -/

abbrev Word := BitVec 32

def pack (b₀ b₁ b₂ b₃ : Byte) : Word := b₀ ++ b₁ ++ b₂ ++ b₃

def byteAt (w : Word) (k : ℕ) : Byte := (w.sshiftRight k).setWidth 8

def column (w : Word) : Column := fun r ↦ byteAt w (24 - 8 * r)

theorem byteAt_eq (w : Word) {k : ℕ} (hk : k ≤ 24) : byteAt w k = w.extractLsb' k 8 := by
  apply BitVec.eq_of_getLsbD_eq
  intro i hi
  simp only [byteAt, BitVec.getLsbD_setWidth, BitVec.getLsbD_sshiftRight,
    BitVec.getLsbD_extractLsb']
  grind

theorem byteAt_pack (b₀ b₁ b₂ b₃ : Byte) :
    byteAt (pack b₀ b₁ b₂ b₃) 24 = b₀ ∧ byteAt (pack b₀ b₁ b₂ b₃) 16 = b₁ ∧
      byteAt (pack b₀ b₁ b₂ b₃) 8 = b₂ ∧ byteAt (pack b₀ b₁ b₂ b₃) 0 = b₃ := by
  refine ⟨?_, ?_, ?_, ?_⟩ <;> rw [byteAt_eq _ (by omega)] <;> apply BitVec.eq_of_getLsbD_eq <;>
    intro i hi <;> simp only [pack, BitVec.getLsbD_extractLsb', BitVec.getLsbD_append] <;> grind

theorem rotateRight_pack (b₀ b₁ b₂ b₃ : Byte) :
    (pack b₀ b₁ b₂ b₃).rotateRight 8 = pack b₃ b₀ b₁ b₂ ∧
      (pack b₀ b₁ b₂ b₃).rotateRight 16 = pack b₂ b₃ b₀ b₁ ∧
      (pack b₀ b₁ b₂ b₃).rotateRight 24 = pack b₁ b₂ b₃ b₀ := by
  refine ⟨?_, ?_, ?_⟩ <;> apply BitVec.eq_of_getLsbD_eq <;> intro i hi <;>
    simp only [pack, BitVec.getLsbD_rotateRight, BitVec.getLsbD_append] <;> grind

theorem zero_rotateRight (k : ℕ) : (0 : Word).rotateRight k = 0 := by
  ext i
  simp [BitVec.getElem_rotateRight]

theorem byteAt_xor (v w : Word) (k : ℕ) : byteAt (v ^^^ w) k = byteAt v k ^^^ byteAt w k := by
  apply BitVec.eq_of_getLsbD_eq
  intro i hi
  simp only [byteAt, BitVec.getLsbD_setWidth, BitVec.getLsbD_sshiftRight, BitVec.getLsbD_xor,
    BitVec.msb_xor]
  grind

theorem toNat_byteAt (w : Word) (k : ℕ) :
    (w.sshiftRight k &&& 0xFF#32).toNat = (byteAt w k).toNat := by
  rw [BitVec.toNat_and, byteAt, BitVec.toNat_setWidth]
  exact Nat.and_two_pow_sub_one_eq_mod _ 8

theorem xor_bytes (b₀ b₁ b₂ b₃ : Byte) :
    b₀.setWidth 32 <<< 24 ^^^ b₁.setWidth 32 <<< 16 ^^^ b₂.setWidth 32 <<< 8 ^^^ b₃.setWidth 32 =
      pack b₀ b₁ b₂ b₃ := by
  apply BitVec.eq_of_getLsbD_eq
  intro i hi
  simp only [pack, BitVec.getLsbD_xor, BitVec.getLsbD_shiftLeft, BitVec.getLsbD_setWidth,
    BitVec.getLsbD_append]
  grind

theorem or_bytes (b₀ b₁ b₂ b₃ : Byte) :
    b₀.setWidth 32 <<< 24 ||| b₁.setWidth 32 <<< 16 ||| b₂.setWidth 32 <<< 8 ||| b₃.setWidth 32 =
      pack b₀ b₁ b₂ b₃ := by
  apply BitVec.eq_of_getLsbD_eq
  intro i hi
  simp only [pack, BitVec.getLsbD_or, BitVec.getLsbD_shiftLeft, BitVec.getLsbD_setWidth,
    BitVec.getLsbD_append]
  grind
theorem top_byte (b : Byte) : b.setWidth 32 <<< 24 = pack b 0 0 0 := by
  simpa using xor_bytes b 0 0 0

theorem column_pack (c : Column) : column (pack (c 0) (c 1) (c 2) (c 3)) = c := by
  obtain ⟨h₀, h₁, h₂, h₃⟩ := byteAt_pack (c 0) (c 1) (c 2) (c 3)
  funext r
  match r with
  | 0 => exact h₀
  | 1 => exact h₁
  | 2 => exact h₂
  | 3 => exact h₃

theorem column_circulant (m₀ m₁ m₂ m₃ : Byte → Byte) (c : Column) :
    let e := fun b ↦ pack (m₀ b) (m₁ b) (m₂ b) (m₃ b)
    column (e (c 0) ^^^ (e (c 1)).rotateRight 8 ^^^ (e (c 2)).rotateRight 16 ^^^
      (e (c 3)).rotateRight 24) =
      fun r ↦ m₀ (c r) ^^^ m₃ (c (r + 1)) ^^^ m₂ (c (r + 2)) ^^^ m₁ (c (r + 3)) := by
  intro e
  funext r
  have hxor : ∀ v w, column (v ^^^ w) r = column v r ^^^ column w r := fun v w ↦ byteAt_xor v w _
  have hrow : ∀ b₀ b₁ b₂ b₃, column (pack b₀ b₁ b₂ b₃) 0 = b₀ ∧ column (pack b₀ b₁ b₂ b₃) 1 = b₁ ∧
      column (pack b₀ b₁ b₂ b₃) 2 = b₂ ∧ column (pack b₀ b₁ b₂ b₃) 3 = b₃ := byteAt_pack
  simp only [e, hxor, (rotateRight_pack _ _ _ _).1, (rotateRight_pack _ _ _ _).2.1,
    (rotateRight_pack _ _ _ _).2.2]
  match r with
  | 0 => simp only [(hrow _ _ _ _).1, Fin.zero_add]
  | 1 =>
    simp only [(hrow _ _ _ _).2.1, Fin.reduceAdd]
    ac_rfl
  | 2 =>
    simp only [(hrow _ _ _ _).2.2.1, Fin.reduceAdd]
    ac_rfl
  | 3 =>
    simp only [(hrow _ _ _ _).2.2.2, Fin.reduceAdd]
    ac_rfl

theorem column_xor (v w : Word) : column (v ^^^ w) = addColumn (column w) (column v) :=
  funext fun _ ↦ byteAt_xor v w _

end NavCaster.Library.Rijndael
