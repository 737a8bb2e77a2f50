import Mathlib.Algebra.Field.ZMod
import Mathlib.Algebra.Polynomial.Div
import Mathlib.Data.Nat.Size
import Mathlib.Tactic.LinearCombination

namespace NavCaster.Library.Crc

open Polynomial

noncomputable def poly (n : ℕ) : (ZMod 2)[X] :=
  ∑ i ∈ Finset.range n.size, monomial i (if n.testBit i then 1 else 0)

theorem coeff_poly (n i : ℕ) : (poly n).coeff i = if n.testBit i then 1 else 0 := by
  simp only [poly, finsetSum_coeff, coeff_monomial]
  rw [Finset.sum_ite_eq']
  by_cases hi : i < n.size
  · simp [hi]
  · have hbit : n.testBit i = false :=
      Nat.testBit_lt_two_pow (Nat.size_le.mp (Nat.le_of_not_lt hi))
    simp [hi, hbit]

theorem poly_zero : poly 0 = 0 := by
  ext i
  simp [coeff_poly]

theorem poly_xor (a b : ℕ) : poly (a ^^^ b) = poly a + poly b := by
  ext i
  rw [coeff_add, coeff_poly, coeff_poly, coeff_poly, Nat.testBit_xor]
  cases a.testBit i <;> cases b.testBit i <;> decide

theorem poly_shiftLeft (n k : ℕ) : poly (n <<< k) = poly n * X ^ k := by
  ext i
  rw [coeff_mul_X_pow', coeff_poly, Nat.testBit_shiftLeft]
  by_cases hk : k ≤ i
  · simp [hk, coeff_poly]
  · simp [hk]

theorem poly_or {a b k : ℕ} (h : b < 2 ^ k) : poly (a <<< k ||| b) = poly a * X ^ k + poly b := by
  ext i
  rw [← poly_shiftLeft, coeff_add, coeff_poly, coeff_poly, coeff_poly, Nat.testBit_or]
  by_cases hi : k ≤ i
  · rw [Nat.testBit_lt_two_pow (h.trans_le (Nat.pow_le_pow_right Nat.two_pos hi))]
    simp
  · simp [hi]

theorem degree_poly_lt {n d : ℕ} (h : n < 2 ^ d) : (poly n).degree < d := by
  refine (degree_lt_iff_coeff_zero _ _).mpr fun i hi ↦ ?_
  rw [coeff_poly, Nat.testBit_lt_two_pow (h.trans_le (Nat.pow_le_pow_right Nat.two_pos hi))]
  rfl

structure Generator (d : ℕ) where
  bits : ℕ
  le : 2 ^ d ≤ bits
  lt : bits < 2 ^ (d + 1)

variable {d : ℕ} (g : Generator d)

theorem Generator.testBit : g.bits.testBit d = true :=
  Nat.testBit_of_two_pow_le_and_two_pow_add_one_gt g.le g.lt

theorem Generator.degree : (poly g.bits).degree = d := by
  refine le_antisymm (Order.lt_succ_iff.mp ?_) ?_
  · exact_mod_cast degree_poly_lt g.lt
  · refine le_degree_of_ne_zero ?_
    rw [coeff_poly, g.testBit]
    decide

theorem Generator.monic : (poly g.bits).Monic := by
  have hnat : (poly g.bits).natDegree = d := natDegree_eq_of_degree_eq_some g.degree
  rw [Monic, leadingCoeff, hnat, coeff_poly, g.testBit]
  rfl

def step (r : ℕ) : ℕ :=
  let r := r <<< 1
  if r.testBit d then r ^^^ g.bits else r

def stepByte (r b : ℕ) : ℕ := (step g)^[8] (r ^^^ b <<< (d - 8))

noncomputable def message : List ℕ → (ZMod 2)[X]
  | [] => 0
  | b :: bytes => poly b * X ^ (8 * bytes.length) + message bytes

variable {g}

theorem step_lt {r : ℕ} (h : r < 2 ^ d) : step g r < 2 ^ d := by
  have hshift : r <<< 1 < 2 ^ (d + 1) := by
    rw [Nat.shiftLeft_eq, Nat.pow_succ]
    omega
  refine Nat.lt_pow_two_of_testBit _ fun i hi ↦ ?_
  unfold step
  rcases Nat.eq_or_lt_of_le hi with rfl | hlt
  · dsimp only
    split
    · next hbit => simp [Nat.testBit_xor, hbit, g.testBit]
    · next hbit => exact Bool.eq_false_of_not_eq_true hbit
  · have hhigh : ∀ n < 2 ^ (d + 1), n.testBit i = false := fun n hn ↦
      Nat.testBit_lt_two_pow (hn.trans_le (Nat.pow_le_pow_right Nat.two_pos hlt))
    dsimp only
    split
    · rw [Nat.testBit_xor, hhigh _ hshift, hhigh _ g.lt]
      rfl
    · exact hhigh _ hshift

theorem dvd_step (r : ℕ) : poly g.bits ∣ poly (step g r) - poly r * X := by
  unfold step
  dsimp only
  split
  · refine ⟨1, ?_⟩
    rw [poly_xor, poly_shiftLeft]
    ring
  · refine ⟨0, ?_⟩
    rw [poly_shiftLeft]
    ring

theorem iterate_step {r : ℕ} (h : r < 2 ^ d) (k : ℕ) :
    (step g)^[k] r < 2 ^ d ∧ poly g.bits ∣ poly ((step g)^[k] r) - poly r * X ^ k := by
  induction k with
  | zero => simpa using h
  | succ k ih =>
    rw [Function.iterate_succ_apply']
    obtain ⟨q, hq⟩ := ih.2
    obtain ⟨q', hq'⟩ := dvd_step (g := g) ((step g)^[k] r)
    refine ⟨step_lt ih.1, q' + q * X, ?_⟩
    linear_combination hq' + X * hq

theorem foldl_stepByte (hd : 8 ≤ d) {r : ℕ} (hr : r < 2 ^ d) {bytes : List ℕ}
    (hbytes : ∀ b ∈ bytes, b < 256) : bytes.foldl (stepByte g) r < 2 ^ d ∧
      poly g.bits ∣ poly (bytes.foldl (stepByte g) r) -
        (poly r * X ^ (8 * bytes.length) + message bytes * X ^ d) := by
  induction bytes generalizing r with
  | nil => simpa [message] using hr
  | cons b bytes ih =>
    have hb : b <<< (d - 8) < 2 ^ d := by
      rw [Nat.shiftLeft_eq]
      calc b * 2 ^ (d - 8) < 256 * 2 ^ (d - 8) :=
            Nat.mul_lt_mul_of_pos_right (hbytes b List.mem_cons_self) (Nat.two_pow_pos _)
        _ = 2 ^ (8 + (d - 8)) := by rw [Nat.pow_add]
        _ = 2 ^ d := by rw [Nat.add_sub_cancel' hd]
    have hstep : stepByte g r b < 2 ^ d ∧ poly g.bits ∣ poly (stepByte g r b) -
        poly (r ^^^ b <<< (d - 8)) * X ^ 8 := iterate_step (Nat.xor_lt_two_pow hr hb) 8
    obtain ⟨hlt, q, hq⟩ := hstep
    obtain ⟨hlt', q', hq'⟩ := ih hlt fun b' hb' ↦ hbytes b' (List.mem_cons_of_mem _ hb')
    refine ⟨hlt', q' + q * X ^ (8 * bytes.length), ?_⟩
    have hpow : (X : (ZMod 2)[X]) ^ d = X ^ (d - 8) * X ^ 8 := by
      rw [← pow_add, Nat.sub_add_cancel hd]
    have hlen : (X : (ZMod 2)[X]) ^ (8 * (b :: bytes).length) = X ^ 8 * X ^ (8 * bytes.length) := by
      rw [← pow_add, List.length_cons]
      congr 1
      omega
    rw [poly_xor, poly_shiftLeft] at hq
    rw [List.foldl_cons, message, hlen]
    rw [hpow] at hq' ⊢
    linear_combination hq' + X ^ (8 * bytes.length) * hq

theorem poly_foldl_stepByte (hd : 8 ≤ d) {bytes : List ℕ} (hbytes : ∀ b ∈ bytes, b < 256) :
    poly (bytes.foldl (stepByte g) 0) = (message bytes * X ^ d) %ₘ poly g.bits := by
  obtain ⟨hlt, q, hq⟩ := foldl_stepByte (g := g) hd (Nat.two_pow_pos d) hbytes
  rw [poly_zero] at hq
  refine ((div_modByMonic_unique (-q) _ g.monic ⟨?_, ?_⟩).2).symm
  · linear_combination hq
  · rw [g.degree]
    exact degree_poly_lt hlt

theorem poly_injective {a b : ℕ} (h : poly a = poly b) : a = b := by
  refine Nat.eq_of_testBit_eq fun i ↦ ?_
  have hi := congrArg (coeff · i) h
  simp only [coeff_poly] at hi
  cases ha : a.testBit i <;> cases hb : b.testBit i <;> simp_all

end NavCaster.Library.Crc
