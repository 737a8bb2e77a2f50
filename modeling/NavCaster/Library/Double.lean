import Mathlib

namespace NavCaster.Library.Double

open Float.Model Float.Model.UnpackedFloat

/-- The double that is nearest to a whole number. -/
def ofInt (n : ℤ) : Float := .ofModel (.ofInt n)

def value (x : Float) : Option ℚ :=
  match x.toModel.unpack with
  | .zero _ => some 0
  | .finite s m e _ => some (s.apply (m : ℤ) * 2 ^ e)
  | _ => none

/-- The nearest whole number to a value, which is away from 0 where there are two. -/
def nearest (m : ℕ) (e : ℤ) : ℕ :=
  if 0 ≤ e then m * 2 ^ e.toNat else (2 * m + 2 ^ (-e).toNat) / 2 ^ ((-e).toNat + 1)

def round (x : Float) : Float :=
  match x.toModel.unpack with
  | .finite s m e _ =>
    .ofModel (.pack (UnpackedFloat.normalize Format.binary64 (s.apply (nearest m e)) 0 s))
  | _ => x

/-- A cast to a signed integer of so many bits, which cuts off the fraction. The result of one that
does not fit is undefined; it is the smallest integer on the targets of the build. -/
def toInt (bits : ℕ) (x : Float) : ℤ :=
  match x.toModel.unpack with
  | .zero _ => 0
  | .finite s m e _ =>
    let n := roundToInt s m e
    if -2 ^ (bits - 1) ≤ n ∧ n < 2 ^ (bits - 1) then n else -2 ^ (bits - 1)
  | _ => -2 ^ (bits - 1)

def lead (n : ℕ) : ℕ := n * 2 ^ 52 / 2 ^ n.log2

structure Whole (n : ℕ) : Prop where
  lt : n.log2 < 1024
  dvd : 2 ^ n.log2 ∣ n * 2 ^ 52

theorem whole_of_le {n : ℕ} (h : n ≤ 2 ^ 53) : Whole n := by
  obtain hlt | rfl := h.lt_or_eq
  · obtain rfl | hn := Nat.eq_zero_or_pos n
    · exact ⟨by decide, by decide⟩
    · have hlog : n.log2 < 53 := (Nat.log2_lt hn.ne').mpr hlt
      exact ⟨by omega, (Nat.pow_dvd_pow 2 (by omega)).mul_left n⟩
  · exact ⟨by decide +kernel, by decide +kernel⟩

theorem log2_mul_pow {n : ℕ} (hn : 0 < n) (k : ℕ) : (n * 2 ^ k).log2 = n.log2 + k := by
  have hpos : 0 < n * 2 ^ k := Nat.mul_pos hn (by positivity)
  apply le_antisymm
  · apply Nat.le_of_lt_succ
    rw [Nat.log2_lt hpos.ne', Nat.succ_eq_add_one, Nat.add_right_comm, pow_add]
    exact Nat.mul_lt_mul_of_pos_right Nat.lt_log2_self (by positivity)
  · rw [Nat.le_log2 hpos.ne', pow_add]
    exact Nat.mul_le_mul_right _ (Nat.log2_self_le hn.ne')

theorem lead_mul_pow {n : ℕ} (hn : 0 < n) (k : ℕ) : lead (n * 2 ^ k) = lead n := by
  unfold lead
  rw [log2_mul_pow hn, pow_add, Nat.mul_right_comm]
  exact Nat.mul_div_mul_right _ _ (by positivity)

def Scaled (m : ℕ) (e : ℤ) (n : ℕ) : Prop := ∃ i j : ℕ, m * 2 ^ i = n * 2 ^ j ∧ e = i - j

theorem Scaled.log2 {m n : ℕ} {e : ℤ} (h : Scaled m e n) (hm : 0 < m) (hn : 0 < n) :
    m.log2 + e = n.log2 := by
  obtain ⟨i, j, hij, rfl⟩ := h
  have hlog := congrArg Nat.log2 hij
  rw [log2_mul_pow hm, log2_mul_pow hn] at hlog
  omega

theorem Scaled.lead {m n : ℕ} {e : ℤ} (h : Scaled m e n) (hm : 0 < m) (hn : 0 < n) :
    lead m = lead n := by
  obtain ⟨i, j, hij, rfl⟩ := h
  rw [← lead_mul_pow hm i, ← lead_mul_pow hn j, hij]

theorem lead_range {n : ℕ} (hn : 0 < n) : 2 ^ 52 ≤ lead n ∧ lead n < 2 ^ 53 := by
  have hlow := Nat.log2_self_le hn.ne'
  have hhigh : n < 2 ^ (n.log2 + 1) := Nat.lt_log2_self
  unfold lead
  constructor
  · rw [Nat.le_div_iff_mul_le (by positivity), Nat.mul_comm]
    exact Nat.mul_le_mul_right _ hlow
  · rw [Nat.div_lt_iff_lt_mul (by positivity)]
    rw [pow_succ] at hhigh
    omega

section Shift

theorem mantissa_shiftRight (em : ExtendedMantissa) (k : ℕ) :
    (em >>> k).mantissa = em.mantissa / 2 ^ k := by
  change (Nat.repeat ExtendedMantissa.shiftRightOne k em).mantissa = _
  induction k with
  | zero => simp [Nat.repeat]
  | succ k ih =>
    rw [Nat.repeat, pow_succ, ← Nat.div_div_eq_div_mul, ← ih]
    rfl

theorem shiftRight_exact (m k : ℕ) :
    (⟨m * 2 ^ k, false, false⟩ : ExtendedMantissa) >>> k = ⟨m, false, false⟩ := by
  change Nat.repeat ExtendedMantissa.shiftRightOne k _ = _
  induction k generalizing m with
  | zero => simp [Nat.repeat]
  | succ k ih =>
    have hsplit : m * 2 ^ (k + 1) = m * 2 * 2 ^ k := by ring
    rw [Nat.repeat, hsplit, ih]
    simp [ExtendedMantissa.shiftRightOne]

theorem le_roundedMantissa (em : ExtendedMantissa) :
    em.mantissa ≤ em.roundedMantissa ∧ em.roundedMantissa ≤ em.mantissa + 1 := by
  obtain ⟨m, round, sticky⟩ := em
  cases round <;> cases sticky <;>
    simp [ExtendedMantissa.roundedMantissa, ExtendedMantissa.accuracy, Accuracy.roundToNearestEven]
  omega

end Shift

theorem targetExponent_eq (t : ℤ) : Format.binary64.targetExponent t = max (t - 53) (-1074) := rfl


def rounded (m : ℕ) : ℕ :=
  ((⟨m, false, false⟩ : ExtendedMantissa) >>> (m.log2 - 52)).roundedMantissa

theorem rounded_range (m : ℕ) (hm : 52 ≤ m.log2) : lead m ≤ rounded m ∧ rounded m ≤ lead m + 1 := by
  have hlead : m / 2 ^ (m.log2 - 52) = lead m := by
    obtain ⟨k, hk⟩ := Nat.exists_eq_add_of_le hm
    unfold lead
    rw [hk, Nat.add_sub_cancel_left, pow_add, Nat.mul_comm (2 ^ 52)]
    exact (Nat.mul_div_mul_right _ _ (by positivity)).symm
  have hround := le_roundedMantissa ((⟨m, false, false⟩ : ExtendedMantissa) >>> (m.log2 - 52))
  rw [mantissa_shiftRight, hlead] at hround
  exact hround

theorem rounded_whole {m : ℕ} (hm : 52 ≤ m.log2) (h : 2 ^ m.log2 ∣ m * 2 ^ 52) :
    rounded m = lead m := by
  obtain ⟨k, hk⟩ := Nat.exists_eq_add_of_le hm
  have hdvd : 2 ^ k ∣ m := by
    rw [hk, Nat.add_comm, pow_add] at h
    exact Nat.dvd_of_mul_dvd_mul_right (by positivity) h
  obtain ⟨q, hq⟩ := hdvd
  have hmul : m = q * 2 ^ k := by rw [hq, Nat.mul_comm]
  have hlead : lead m = q := by
    unfold lead
    rw [hk, pow_add, hmul, Nat.mul_assoc, ← pow_add, Nat.add_comm k, pow_add]
    exact Nat.mul_div_cancel _ (by positivity)
  unfold rounded
  rw [hk, Nat.add_sub_cancel_left, hlead, hmul, shiftRight_exact]
  rfl

theorem shiftToTargetExponent_eq {m k : ℕ} {e : ℤ}
    (hk : (max ((m.log2 : ℤ) + 1 + e - 53) (-1074) - e).toNat = k) :
    shiftToTargetExponent Format.binary64 m e .exact =
      ((⟨m, false, false⟩ : ExtendedMantissa) >>> k, e + k) := by
  rw [← hk]
  rfl

theorem log2_eq_52 {r : ℕ} (hlow : 2 ^ 52 ≤ r) (hhigh : r < 2 ^ 53) : r.log2 = 52 := by
  have hpos : r ≠ 0 := by omega
  have hle := (Nat.le_log2 hpos).mpr hlow
  have hlt := (Nat.log2_lt hpos).mpr hhigh
  omega

theorem roundWithAccuracy_of_shifts {s : Sign} {m : ℕ} {e e₁ e₂ : ℤ} {acc : Accuracy}
    {em₁ em₂ : ExtendedMantissa} (h₁ : shiftToTargetExponent Format.binary64 m e acc = (em₁, e₁))
    (h₂ : shiftToTargetExponent Format.binary64 em₁.roundedMantissa e₁ .exact = (em₂, e₂))
    (hpos : 0 < em₂.mantissa) :
    roundWithAccuracy Format.binary64 s m e acc = .finite s em₂.mantissa e₂ hpos := by
  unfold roundWithAccuracy
  simp only [h₁, h₂]
  exact dif_neg hpos.ne'

theorem roundWithAccuracy_eq {m : ℕ} {e : ℤ} (hm : 52 ≤ m.log2)
    (he : -1074 ≤ (m.log2 : ℤ) - 52 + e) :
    ∃ m' e' h, roundWithAccuracy Format.binary64 .positive m e .exact = .finite .positive m' e' h ∧
      2 ^ 52 ≤ m' ∧ m' < 2 ^ 53 ∧
      (m' = rounded m ∧ e' = m.log2 - 52 + e ∨
        rounded m = 2 ^ 53 ∧ m' = 2 ^ 52 ∧ e' = m.log2 - 52 + e + 1) := by
  have hpos : 0 < m := by
    by_contra h
    obtain rfl : m = 0 := by omega
    revert hm
    decide
  obtain ⟨hlow, hhigh⟩ := lead_range hpos
  obtain ⟨hround, hround'⟩ := rounded_range m hm
  have hfirst := shiftToTargetExponent_eq (m := m) (e := e) (k := m.log2 - 52) (by omega)
  obtain hlt | heq : rounded m < 2 ^ 53 ∨ rounded m = 2 ^ 53 := by omega
  · have hlog := log2_eq_52 (hlow.trans hround) hlt
    have hsecond := shiftToTargetExponent_eq (m := rounded m) (e := e + (m.log2 - 52 : ℕ)) (k := 0)
      (by omega)
    have hresult := roundWithAccuracy_of_shifts (s := .positive) hfirst hsecond
      (show 0 < rounded m by omega)
    exact ⟨_, _, _, hresult, hlow.trans hround, hlt, .inl ⟨rfl, by omega⟩⟩
  · have hlog : (rounded m).log2 = 53 := by rw [heq, Nat.log2_two_pow]
    have hsecond := shiftToTargetExponent_eq (m := rounded m) (e := e + (m.log2 - 52 : ℕ)) (k := 1)
      (by omega)
    have hhalf : ((⟨rounded m, false, false⟩ : ExtendedMantissa) >>> 1).mantissa = 2 ^ 52 := by
      rw [mantissa_shiftRight, heq]
      rfl
    have hresult := roundWithAccuracy_of_shifts (s := .positive) hfirst hsecond
      (by rw [hhalf]; positivity)
    refine ⟨_, _, _, hresult, hhalf.ge, ?_, .inr ⟨heq, hhalf, by omega⟩⟩
    rw [hhalf]
    decide

theorem round_eq {m : ℕ} {e : ℤ} (he : -1022 ≤ (m.log2 : ℤ) + e) :
    UnpackedFloat.round Format.binary64 .positive m e =
      roundWithAccuracy Format.binary64 .positive (m * 2 ^ (52 - m.log2)) (e - (52 - m.log2 : ℕ))
        .exact := by
  have hshift : (e - max ((m.log2 : ℤ) + 1 + e - 53) (-1074)).toNat = 52 - m.log2 := by omega
  unfold UnpackedFloat.round decreaseExponent
  rw [targetExponent_eq, totalExponent]
  dsimp only
  rw [hshift, Nat.shiftLeft_eq]

theorem shiftRight_add (em : ExtendedMantissa) (j k : ℕ) : em >>> (j + k) = (em >>> j) >>> k := by
  change Nat.repeat _ (j + k) em = Nat.repeat _ k (Nat.repeat _ j em)
  induction k with
  | zero => rfl
  | succ k ih =>
    rw [← Nat.add_assoc, Nat.repeat, Nat.repeat, ih]

theorem rounded_mul_pow {m : ℕ} (hm : 52 ≤ m.log2) (k : ℕ) : rounded (m * 2 ^ k) = rounded m := by
  have hpos : 0 < m := Nat.pos_of_ne_zero fun h ↦ by subst h; revert hm; decide
  have hlog : m.log2 + k - 52 = k + (m.log2 - 52) := by omega
  unfold rounded
  rw [log2_mul_pow hpos, hlog, shiftRight_add, shiftRight_exact]

/-- A value that is a whole number is rounded as this number is. -/
theorem round_scaled {m n : ℕ} {e : ℤ} (h : Scaled m e n) (hm : 0 < m) (hn : 0 < n) :
    ∃ m' e' h, UnpackedFloat.round Format.binary64 .positive m e = .finite .positive m' e' h ∧
      2 ^ 52 ≤ m' ∧ m' < 2 ^ 53 ∧
      (m' = rounded (n * 2 ^ 52) ∧ e' = n.log2 - 52 ∨
        rounded (n * 2 ^ 52) = 2 ^ 53 ∧ m' = 2 ^ 52 ∧ e' = n.log2 - 52 + 1) := by
  have hlog := h.log2 hm hn
  have hlong := log2_mul_pow hm (52 - m.log2)
  obtain ⟨i, j, hij, he⟩ := h
  have hrounded : rounded (m * 2 ^ (52 - m.log2)) = rounded (n * 2 ^ 52) := by
    have hlong' := log2_mul_pow hn 52
    have hsame : m * 2 ^ (52 - m.log2) * 2 ^ (i + 52) = n * 2 ^ 52 * 2 ^ (j + (52 - m.log2)) :=
      calc
        m * 2 ^ (52 - m.log2) * 2 ^ (i + 52) = m * 2 ^ i * 2 ^ (52 + (52 - m.log2)) := by ring
        _ = n * 2 ^ 52 * 2 ^ (j + (52 - m.log2)) := by rw [hij]; ring
    rw [← rounded_mul_pow (m := m * 2 ^ (52 - m.log2)) (by omega) (i + 52), hsame,
      rounded_mul_pow (m := n * 2 ^ 52) (by omega) (j + (52 - m.log2))]
  have hexp :
      ((m * 2 ^ (52 - m.log2)).log2 : ℤ) - 52 + (e - (52 - m.log2 : ℕ)) = n.log2 - 52 := by omega
  have hround :=
    roundWithAccuracy_eq (m := m * 2 ^ (52 - m.log2)) (e := e - (52 - m.log2 : ℕ)) (by omega)
    (by omega)
  rw [hexp, hrounded, ← round_eq (by omega)] at hround
  exact hround

theorem rounded_of_whole {n : ℕ} (hn : 0 < n) (h : Whole n) : rounded (n * 2 ^ 52) = lead n := by
  rw [rounded_whole, lead_mul_pow hn]
  · rw [log2_mul_pow hn]
    omega
  · rw [log2_mul_pow hn, pow_add]
    exact Nat.mul_dvd_mul_right h.dvd _

def unpacked (n : ℕ) : UnpackedFloat :=
  if hn : 0 < n then
    .finite .positive (lead n) (n.log2 - 52) ((Nat.two_pow_pos 52).trans_le (lead_range hn).1)
  else .zero .positive

theorem unpacked_pos {n : ℕ} (hn : 0 < n) : unpacked n =
    .finite .positive (lead n) (n.log2 - 52) ((Nat.two_pow_pos 52).trans_le (lead_range hn).1) :=
      dif_pos hn

theorem round_whole {m n : ℕ} {e : ℤ} (h : Scaled m e n) (hm : 0 < m) (hn : 0 < n)
    (hwhole : Whole n) :
    UnpackedFloat.round Format.binary64 .positive m e = unpacked n := by
  obtain ⟨m', e', hpos, heq, -, hlt, ⟨rfl, rfl⟩ | ⟨hcarry, -, -⟩⟩ := round_scaled h hm hn
  · rw [heq, unpacked_pos hn]
    congr 1
    exact rounded_of_whole hn hwhole
  · rw [rounded_of_whole hn hwhole] at hcarry
    exact absurd hcarry (lead_range hn).2.ne

theorem roundWithAccuracy_whole {n k : ℕ} (hn : 0 < n) (h : Whole n) (hlong : 52 ≤ n.log2 + k) :
    roundWithAccuracy Format.binary64 .positive (n * 2 ^ k) (-k) .exact = unpacked n := by
  have hlog := log2_mul_pow hn k
  have hrounded : rounded (n * 2 ^ k) = lead n := by
    rw [rounded_whole (by omega), lead_mul_pow hn]
    rw [hlog, pow_add, Nat.mul_right_comm]
    exact Nat.mul_dvd_mul_right h.dvd _
  obtain ⟨m', e', hpos, heq, -, hlt, ⟨rfl, rfl⟩ | ⟨hcarry, -, -⟩⟩ :=
    roundWithAccuracy_eq (m := n * 2 ^ k) (e := -k) (by omega) (by omega)
  · rw [heq, unpacked_pos hn]
    congr 1
    omega
  · rw [hrounded] at hcarry
    exact absurd hcarry (lead_range hn).2.ne

section Pack

theorem unpackSign_packComponents {spec : Format} (s : Sign) (e : BitVec spec.exponentBits)
    (m : BitVec spec.mantissaBitsWithoutImplicit) :
    unpackSign (packComponents spec s e m) = s.toBitVec := by
  refine BitVec.eq_of_getLsbD_eq fun i hi ↦ ?_
  obtain rfl : i = 0 := by omega
  simp [unpackSign, packComponents, BitVec.getLsbD_append, BitVec.getElem_append]

theorem ofBitVec_toBitVec (s : Sign) : Sign.ofBitVec s.toBitVec = s := by
  cases s <;> rfl

theorem append_toNat (m : BitVec 52) : (1#1 ++ m).toNat = 2 ^ 52 + m.toNat := by
  rw [BitVec.toNat_append, ← Nat.shiftLeft_add_eq_or_of_lt m.isLt]
  rfl

theorem unpack_packComponents (s : Sign) (e : BitVec 11) (m : BitVec 52) :
    UnpackedFloat.unpack Format.binary64 (packComponents Format.binary64 s e m) =
      if e = -1#11 then if m = 0#52 then .infinity s else .notANumber
      else if e = 0#11 then
        if h : m = 0#52 then .zero s
        else .finite s m.toNat (e.toNat - 1075 + 1)
          (Nat.pos_of_ne_zero fun h' ↦ h (BitVec.eq_of_toNat_eq h'))
      else .finite s (1#1 ++ m).toNat (e.toNat - 1075) (by rw [append_toNat]; positivity) := by
  unfold UnpackedFloat.unpack
  simp only [unpackSign_packComponents, ofBitVec_toBitVec, unpackMantissa_packComponents,
    unpackExponent_packComponents]
  rfl

theorem unpack_pack {m : ℕ} {e : ℤ} {hpos : 0 < m} (hlow : 2 ^ 52 ≤ m) (hhigh : m < 2 ^ 53)
    (he : -1074 ≤ e) :
    (Float.Model.pack (.finite .positive m e hpos)).unpack =
      if e ≤ 971 then .finite .positive m e hpos else .infinity .positive := by
  have hlog := log2_eq_52 hlow hhigh
  have hpack : UnpackedFloat.pack Format.binary64 (.finite .positive m e hpos) =
      if 2 ^ 11 ≤ (e + (1023 : ℕ) + (52 : ℕ)).toNat + 1 then
        packedInfinity Format.binary64 .positive
      else packComponents Format.binary64 .positive
        (BitVec.ofNat 11 (e + (1023 : ℕ) + (52 : ℕ)).toNat)
        (BitVec.ofNat 52 m) := by
    unfold UnpackedFloat.pack
    dsimp only
    rw [hlog]
    rfl
  have hunpack : (Float.Model.pack (.finite .positive m e hpos)).unpack =
      UnpackedFloat.unpack Format.binary64
        (UnpackedFloat.pack Format.binary64 (.finite .positive m e hpos)) := rfl
  rw [hunpack, hpack]
  by_cases hle : e ≤ 971
  · have hexp : (BitVec.ofNat 11 (e + (1023 : ℕ) + (52 : ℕ)).toNat).toNat = (e + 1075).toNat := by
      rw [BitVec.toNat_ofNat]
      omega
    have hmant : (BitVec.ofNat 52 m).toNat = m - 2 ^ 52 := by
      rw [BitVec.toNat_ofNat]
      omega
    rw [if_neg (by omega), if_pos hle, unpack_packComponents, if_neg, if_neg]
    · congr 1
      · rw [append_toNat, hmant]
        omega
      · rw [hexp]
        omega
    · intro h
      rw [h] at hexp
      simp at hexp
      omega
    · intro h
      rw [h] at hexp
      simp at hexp
      omega
  · rw [if_pos (by omega), if_neg hle]
    rfl

end Pack

section Whole

variable {a b n : ℕ}

theorem lead_mul (h : Whole n) : lead n * 2 ^ n.log2 = n * 2 ^ 52 := Nat.div_mul_cancel h.dvd

theorem normalize_whole {m e : ℤ} (hm : 0 ≤ m) (h : Scaled m.toNat e n) (hwhole : Whole n) :
    UnpackedFloat.normalize Format.binary64 m e .positive = unpacked n := by
  obtain ⟨i, j, hij, -⟩ := id h
  obtain rfl | hpos := hm.eq_or_lt
  · obtain rfl : n = 0 := by
      rw [Int.toNat_zero, Nat.zero_mul, eq_comm, Nat.mul_eq_zero] at hij
      exact hij.resolve_right (by positivity)
    rfl
  · have hn : 0 < n := by
      refine Nat.pos_of_ne_zero fun hn ↦ ?_
      rw [hn, Nat.zero_mul, Nat.mul_eq_zero] at hij
      obtain hzero | hzero := hij
      · omega
      · exact absurd hzero (by positivity)
    have hgt : compare m 0 = .gt := compare_gt_iff_gt.mpr hpos
    unfold UnpackedFloat.normalize
    rw [hgt]
    exact round_whole h (by omega) hn hwhole

theorem ofInt_whole (h : Whole n) : UnpackedFloat.ofInt Format.binary64 n = unpacked n :=
  normalize_whole (Int.natCast_nonneg n) ⟨0, 0, rfl, rfl⟩ h

theorem unpacked_zero : unpacked 0 = .zero .positive := rfl

theorem unpack_ofInt (h : Whole n) : (ofInt n).toModel.unpack = unpacked n := by
  have hpack : (ofInt n).toModel = Float.Model.pack (UnpackedFloat.ofInt Format.binary64 n) := rfl
  rw [hpack, ofInt_whole h]
  obtain rfl | hn := Nat.eq_zero_or_pos n
  · rfl
  · obtain ⟨hlow, hhigh⟩ := lead_range hn
    have hlog := h.lt
    rw [unpacked_pos hn, unpack_pack hlow hhigh (by omega), if_pos (by omega)]

theorem lead_align (ha : Whole a) (k : ℕ) (hk : k ≤ a.log2) :
    lead a <<< ((a.log2 : ℤ) - 52 - (k - 52)).toNat * 2 ^ k = a * 2 ^ 52 := by
  have hsub : ((a.log2 : ℤ) - 52 - (k - 52)).toNat = a.log2 - k := by omega
  rw [hsub, Nat.shiftLeft_eq, Nat.mul_assoc, ← pow_add, Nat.sub_add_cancel hk, lead_mul ha]

theorem add_unpacked (ha : Whole a) (hb : Whole b) (hab : Whole (a + b)) :
    UnpackedFloat.add Format.binary64 (unpacked a) (unpacked b) = unpacked (a + b) := by
  obtain rfl | hapos := Nat.eq_zero_or_pos a
  · rw [Nat.zero_add, unpacked_zero]
    obtain rfl | hbpos := Nat.eq_zero_or_pos b
    · rfl
    · rw [unpacked_pos hbpos]
      rfl
  obtain rfl | hbpos := Nat.eq_zero_or_pos b
  · rw [Nat.add_zero, unpacked_zero, unpacked_pos hapos]
    rfl
  have hmin : min ((a.log2 : ℤ) - 52) (b.log2 - 52) = (min a.log2 b.log2 : ℕ) - 52 := by omega
  have hsum := congrArg₂ (· + ·) (lead_align ha (min a.log2 b.log2) (by omega))
    (lead_align hb (min a.log2 b.log2) (by omega))
  rw [← Nat.add_mul, ← Nat.add_mul] at hsum
  rw [unpacked_pos hapos, unpacked_pos hbpos]
  unfold UnpackedFloat.add decreaseExponent Sign.apply
  dsimp only
  rw [hmin]
  refine normalize_whole (by positivity) ⟨min a.log2 b.log2, 52, ?_, by omega⟩ hab
  exact hsum

theorem sub_unpacked (ha : Whole a) (hb : Whole b) (hle : b ≤ a) (hab : Whole (a - b)) :
    UnpackedFloat.sub Format.binary64 (unpacked a) (unpacked b) = unpacked (a - b) := by
  obtain rfl | hbpos := Nat.eq_zero_or_pos b
  · rw [Nat.sub_zero, unpacked_zero]
    obtain rfl | hapos := Nat.eq_zero_or_pos a
    · rfl
    · rw [unpacked_pos hapos]
      rfl
  have hapos : 0 < a := by omega
  have hmin : min ((a.log2 : ℤ) - 52) (b.log2 - 52) = (min a.log2 b.log2 : ℕ) - 52 := by omega
  have hleft := lead_align ha (min a.log2 b.log2) (by omega)
  have hright := lead_align hb (min a.log2 b.log2) (by omega)
  rw [unpacked_pos hapos, unpacked_pos hbpos]
  unfold UnpackedFloat.sub decreaseExponent Sign.apply
  dsimp only
  rw [hmin]
  generalize lead a <<< _ = m₁ at hleft ⊢
  generalize lead b <<< _ = m₂ at hright ⊢
  have hm : m₂ ≤ m₁ := by
    refine Nat.le_of_mul_le_mul_right ?_ (Nat.two_pow_pos (min a.log2 b.log2))
    rw [hleft, hright]
    exact Nat.mul_le_mul_right _ hle
  have hnat : ((m₁ : ℤ) - m₂).toNat = m₁ - m₂ := by omega
  refine normalize_whole (by omega) ⟨min a.log2 b.log2, 52, ?_, by omega⟩ hab
  rw [hnat, Nat.sub_mul, Nat.sub_mul, hleft, hright]

theorem div_unpacked (ha : Whole (a * b)) (hb : Whole b) (hapos : 0 < a) (hbpos : 0 < b)
    (hsmall : a < 2 ^ 53) (hwhole : Whole a) :
    UnpackedFloat.div Format.binary64 (unpacked (a * b)) (unpacked b) = unpacked a := by
  have hmulpos := Nat.mul_pos hapos hbpos
  have hloga : a.log2 ≤ 52 := Nat.le_of_lt_succ ((Nat.log2_lt hapos.ne').mpr hsmall)
  have hlog : a.log2 + b.log2 ≤ (a * b).log2 ∧ (a * b).log2 ≤ a.log2 + b.log2 + 1 := by
    constructor
    · rw [Nat.le_log2 hmulpos.ne', pow_add]
      exact Nat.mul_le_mul (Nat.log2_self_le hapos.ne') (Nat.log2_self_le hbpos.ne')
    · apply Nat.le_of_lt_succ
      rw [Nat.log2_lt hmulpos.ne']
      calc
        a * b < 2 ^ (a.log2 + 1) * 2 ^ (b.log2 + 1) :=
          Nat.mul_lt_mul'' Nat.lt_log2_self Nat.lt_log2_self
        _ = 2 ^ (a.log2 + b.log2 + 1 + 1) := by ring
  obtain ⟨k, hk⟩ := Nat.exists_eq_add_of_le (show (a * b).log2 ≤ 53 + b.log2 by omega)
  have hquot : lead (a * b) <<< 53 = lead b * (a * 2 ^ k) := by
    rw [Nat.shiftLeft_eq]
    refine Nat.eq_of_mul_eq_mul_right (Nat.two_pow_pos ((a * b).log2 + b.log2)) ?_
    calc
      lead (a * b) * 2 ^ 53 * 2 ^ ((a * b).log2 + b.log2)
          = lead (a * b) * 2 ^ (a * b).log2 * 2 ^ (53 + b.log2) := by ring
      _ = lead b * 2 ^ b.log2 * a * 2 ^ (53 + b.log2) := by rw [lead_mul ha, lead_mul hb]; ring
      _ = lead b * (a * 2 ^ k) * 2 ^ ((a * b).log2 + b.log2) := by rw [hk]; ring
  have hleadpos : 0 < lead b := (Nat.two_pow_pos 52).trans_le (lead_range hbpos).1
  rw [unpacked_pos hmulpos, unpacked_pos hbpos]
  have hlead {n : ℕ} (hn : 0 < n) : (lead n).log2 = 52 :=
    log2_eq_52 (lead_range hn).1 (lead_range hn).2
  have htarget : min (((a * b).log2 : ℤ) - 52 - (b.log2 - 52)) (Format.binary64.targetExponent
      (totalExponent (lead (a * b)) ((a * b).log2 - 52) - totalExponent (lead b) (b.log2 - 52))) =
        -k := by
    rw [targetExponent_eq, totalExponent, totalExponent, hlead hmulpos, hlead hbpos]
    omega
  have hshift : (((a * b).log2 : ℤ) - 52 - (b.log2 - 52) - -k).toNat = 53 := by omega
  unfold UnpackedFloat.div divCore
  dsimp only
  rw [htarget, hshift, hquot, Nat.mul_div_cancel_left _ hleadpos, Nat.mul_mod_right]
  exact roundWithAccuracy_whole hapos hwhole (by omega)

theorem ofInt_add (ha : Whole a) (hb : Whole b) (hab : Whole (a + b)) :
    ofInt a + ofInt b = ofInt (a + b : ℕ) := by
  have hadd : ofInt a + ofInt b = .ofModel (Float.Model.pack
    (UnpackedFloat.add Format.binary64 (ofInt a).toModel.unpack (ofInt b).toModel.unpack)) := rfl
  rw [hadd, unpack_ofInt ha, unpack_ofInt hb, add_unpacked ha hb hab, ← ofInt_whole hab]
  rfl

theorem ofInt_sub (ha : Whole a) (hb : Whole b) (hle : b ≤ a) (hab : Whole (a - b)) :
    ofInt a - ofInt b = ofInt (a - b : ℕ) := by
  have hsub : ofInt a - ofInt b = .ofModel (Float.Model.pack
    (UnpackedFloat.sub Format.binary64 (ofInt a).toModel.unpack (ofInt b).toModel.unpack)) := rfl
  rw [hsub, unpack_ofInt ha, unpack_ofInt hb, sub_unpacked ha hb hle hab, ← ofInt_whole hab]
  rfl

theorem ofInt_div (hab : Whole (a * b)) (hb : Whole b) (hapos : 0 < a) (hbpos : 0 < b)
    (ha : a < 2 ^ 53) :
    ofInt (a * b : ℕ) / ofInt b = ofInt a := by
  have hwhole := whole_of_le ha.le
  have hdiv : ofInt (a * b : ℕ) / ofInt b = .ofModel (Float.Model.pack
    (UnpackedFloat.div Format.binary64 (ofInt (a * b : ℕ)).toModel.unpack
      (ofInt b).toModel.unpack)) := rfl
  rw [hdiv, unpack_ofInt hab, unpack_ofInt hb, div_unpacked hab hb hapos hbpos ha hwhole,
    ← ofInt_whole hwhole]
  rfl

theorem lead_cut (h : Whole n) : lead n * 2 ^ (n.log2 - 52) = n * 2 ^ (52 - n.log2) := by
  refine Nat.eq_of_mul_eq_mul_right (Nat.two_pow_pos (min n.log2 52)) ?_
  rw [Nat.mul_assoc, Nat.mul_assoc, ← pow_add, ← pow_add]
  have hleft : n.log2 - 52 + min n.log2 52 = n.log2 := by omega
  have hright : 52 - n.log2 + min n.log2 52 = 52 := by omega
  rw [hleft, hright, lead_mul h]

theorem nearest_lead (h : Whole n) : nearest (lead n) (n.log2 - 52) = n := by
  have hcut := lead_cut h
  unfold nearest
  split
  · next hexp =>
    have hnat : ((n.log2 : ℤ) - 52).toNat = n.log2 - 52 := by omega
    have hzero : 52 - n.log2 = 0 := by omega
    rw [hnat, hcut, hzero, pow_zero, Nat.mul_one]
  · next hexp =>
    have hnat : (-((n.log2 : ℤ) - 52)).toNat = 52 - n.log2 := by omega
    have hzero : n.log2 - 52 = 0 := by omega
    rw [hzero, pow_zero, Nat.mul_one] at hcut
    have hnum :
        2 * (n * 2 ^ (52 - n.log2)) + 2 ^ (52 - n.log2) = (2 * n + 1) * 2 ^ (52 - n.log2) := by ring
    rw [hnat, hcut, hnum, pow_succ, Nat.mul_comm _ 2, Nat.mul_div_mul_right _ _ (Nat.two_pow_pos _)]
    omega

theorem round_ofInt (h : Whole n) : round (ofInt n) = ofInt n := by
  unfold round
  rw [unpack_ofInt h]
  obtain rfl | hn := Nat.eq_zero_or_pos n
  · rfl
  · rw [unpacked_pos hn]
    dsimp only
    rw [nearest_lead h]
    rfl

theorem roundToInt_lead (h : Whole n) : roundToInt .positive (lead n) (n.log2 - 52) = n := by
  have hexp :
      (0 - ((n.log2 : ℤ) - 52 - ((n.log2 : ℤ) - 52 - 0).toNat)).toNat = 52 - n.log2 := by omega
  have hnat : ((n.log2 : ℤ) - 52 - 0).toNat = n.log2 - 52 := by omega
  unfold roundToInt decreaseExponent shiftToExponent
  dsimp only
  rw [hexp, hnat, mantissa_shiftRight, Nat.shiftLeft_eq, lead_cut h]
  change ((n * 2 ^ (52 - n.log2) / 2 ^ (52 - n.log2) : ℕ) : ℤ) = n
  rw [Nat.mul_div_cancel _ (Nat.two_pow_pos _)]

theorem toInt_ofInt {bits : ℕ} (h : Whole n) (hn : n < 2 ^ (bits - 1)) :
    toInt bits (ofInt n) = n := by
  unfold toInt
  rw [unpack_ofInt h]
  obtain rfl | hpos := Nat.eq_zero_or_pos n
  · rfl
  · rw [unpacked_pos hpos]
    dsimp only
    rw [roundToInt_lead h, if_pos]
    constructor
    · have : (0 : ℤ) < 2 ^ (bits - 1) := by positivity
      omega
    · exact_mod_cast hn

theorem value_ofInt (h : Whole n) : value (ofInt n) = some n := by
  unfold value
  rw [unpack_ofInt h]
  obtain rfl | hpos := Nat.eq_zero_or_pos n
  · rfl
  · rw [unpacked_pos hpos]
    have hlead : (lead n : ℚ) * 2 ^ n.log2 = n * 2 ^ 52 := by exact_mod_cast lead_mul h
    have hvalue : (lead n : ℚ) * 2 ^ ((n.log2 : ℤ) - 52) = n := by
      rw [zpow_sub₀ (by norm_num), zpow_natCast, ← mul_div_assoc, hlead]
      exact mul_div_cancel_right₀ _ (by positivity)
    exact congrArg some hvalue

end Whole

section Order

inductive Normal : UnpackedFloat → Prop
  | zero : Normal (.zero .positive)
  | finite {m : ℕ} {e : ℤ} (h : 0 < m) (hlow : 2 ^ 52 ≤ m) (hhigh : m < 2 ^ 53) (he : -1074 ≤ e)
    (he' : e ≤ 971) : Normal (.finite .positive m e h)
  | infinity : Normal (.infinity .positive)

theorem normal_unpacked {n : ℕ} (h : Whole n) : Normal (unpacked n) := by
  obtain rfl | hn := Nat.eq_zero_or_pos n
  · exact .zero
  · obtain ⟨hlow, hhigh⟩ := lead_range hn
    have hlog := h.lt
    rw [unpacked_pos hn]
    exact .finite _ hlow hhigh (by omega) (by omega)

theorem le_iff {x y : Float} :
    x ≤ y ↔ x.toModel.unpack.le y.toModel.unpack = true := by
  change decide (x.toModel ≤ y.toModel) = true ↔ _
  rw [decide_eq_true_iff]
  exact Iff.rfl

theorem le_finite {m m' : ℕ} {e e' : ℤ} {h : 0 < m} {h' : 0 < m'} :
    (UnpackedFloat.finite .positive m e h).le (.finite .positive m' e' h') = true ↔
      e < e' ∨ e = e' ∧ m ≤ m' := by
  change ((compare e e').then (compare m m')).isLE = true ↔ _
  obtain hlt | rfl | hgt := lt_trichotomy e e'
  · rw [compare_lt_iff_lt.mpr hlt]
    exact iff_of_true rfl (.inl hlt)
  · rw [compare_eq_iff_eq.mpr rfl, Ordering.then, Nat.isLE_compare]
    omega
  · rw [compare_gt_iff_gt.mpr hgt]
    exact iff_of_false nofun (by omega)

theorem Normal.le_trans {u v w : UnpackedFloat} (hu : Normal u) (hv : Normal v) (hw : Normal w)
    (huv : u.le v = true) (hvw : v.le w = true) : u.le w = true := by
  cases hu with
  | zero => cases hw <;> rfl
  | infinity =>
    cases hv with
    | infinity => exact hvw
    | zero => exact absurd huv nofun
    | finite => exact absurd huv nofun
  | finite =>
    cases hw with
    | infinity => rfl
    | zero =>
      cases hv with
      | zero => exact huv
      | infinity => exact absurd hvw nofun
      | finite => exact absurd hvw nofun
    | finite =>
      cases hv with
      | zero => exact absurd huv nofun
      | infinity => exact absurd hvw nofun
      | finite =>
        rw [le_finite] at huv hvw ⊢
        omega

theorem le_trans_of_normal {x y z : Float} (hx : Normal x.toModel.unpack)
    (hy : Normal y.toModel.unpack) (hz : Normal z.toModel.unpack) (hxy : x ≤ y)
    (hyz : y ≤ z) : x ≤ z :=
  le_iff.mpr (hx.le_trans hy hz (le_iff.mp hxy) (le_iff.mp hyz))

theorem normal_pack {u : UnpackedFloat} (hu : Normal u) : (Float.Model.pack u).unpack = u := by
  cases hu with
  | zero => rfl
  | infinity => rfl
  | finite h hlow hhigh he he' => rw [unpack_pack hlow hhigh he, if_pos he']

theorem zero_le {u : UnpackedFloat} (hu : Normal u) :
    (UnpackedFloat.zero .positive).le u = true := by
  cases hu <;> rfl

theorem add_zero_left {u : UnpackedFloat} (hu : Normal u) :
    UnpackedFloat.add Format.binary64 (.zero .positive) u = u := by
  cases hu <;> rfl

theorem add_infinity {u : UnpackedFloat} (hu : Normal u) :
    UnpackedFloat.add Format.binary64 (.infinity .positive) u = .infinity .positive := by
  cases hu <;> rfl

theorem add_finite {m m' : ℕ} {e e' : ℤ} {h : 0 < m} {h' : 0 < m'} (hlow : 2 ^ 52 ≤ m)
    (he : -1074 ≤ e) :
    ∃ m₁ e₁ h₁,
      UnpackedFloat.add Format.binary64 (.finite .positive m e h) (.finite .positive m' e' h') =
      .finite .positive m₁ e₁ h₁ ∧ 2 ^ 52 ≤ m₁ ∧ m₁ < 2 ^ 53 ∧ (e < e₁ ∨ e = e₁ ∧ m ≤ m₁) := by
  obtain ⟨k, hk⟩ := Int.eq_ofNat_of_zero_le (show 0 ≤ e - min e e' by omega)
  generalize hsum : m <<< k + m' <<< (e' - min e e').toNat = sum
  have hle : m * 2 ^ k ≤ sum := by
    rw [← hsum, Nat.shiftLeft_eq]
    exact Nat.le_add_right _ _
  have hpos : 0 < sum := (Nat.mul_pos h (Nat.two_pow_pos k)).trans_le hle
  have hlog : 52 + k ≤ sum.log2 := by
    rw [Nat.le_log2 hpos.ne', pow_add]
    exact (Nat.mul_le_mul_right _ hlow).trans hle
  have hadd :
      UnpackedFloat.add Format.binary64 (.finite .positive m e h) (.finite .positive m' e' h') =
      roundWithAccuracy Format.binary64 .positive sum (min e e') .exact := by
    have hgt : compare ((m <<< k : ℕ) + (m' <<< (e' - min e e').toNat : ℕ) : ℤ) 0 = .gt := by
      rw [compare_gt_iff_gt]
      omega
    have hzero : 52 - sum.log2 = 0 := by omega
    have hround := round_eq (m := sum) (e := min e e') (by omega)
    rw [hzero, pow_zero, Nat.mul_one, Int.natCast_zero, Int.sub_zero] at hround
    rw [← hround, ← hsum]
    unfold UnpackedFloat.add decreaseExponent Sign.apply UnpackedFloat.normalize
    dsimp only
    rw [hk, Int.toNat_natCast, hgt]
    rfl
  obtain ⟨m₁, e₁, h₁, heq, hlow₁, hhigh₁, hcases⟩ :=
    roundWithAccuracy_eq (m := sum) (e := min e e') (by omega) (by omega)
  refine ⟨m₁, e₁, h₁, hadd.trans heq, hlow₁, hhigh₁, ?_⟩
  obtain ⟨rfl, rfl⟩ | ⟨-, -, rfl⟩ := hcases
  -- the exponent grows, or the leading bits of the sum are those of the mantissa at least
  · obtain hlt | hlog' := Nat.lt_or_eq_of_le hlog
    · exact .inl (by omega)
    · have hlead : m ≤ lead sum := by
        unfold lead
        rw [← hlog', pow_add, Nat.mul_comm, Nat.mul_div_mul_left _ _ (Nat.two_pow_pos 52),
          Nat.le_div_iff_mul_le (Nat.two_pow_pos k)]
        exact hle
      exact .inr ⟨by omega, hlead.trans (rounded_range sum (by omega)).1⟩
  · exact .inl (by omega)

theorem le_add {x : Float} {n : ℕ} (hx : Normal x.toModel.unpack) (hn : Whole n) :
    Normal (x + ofInt n).toModel.unpack ∧ x ≤ x + ofInt n := by
  have hadd : (x + ofInt n).toModel.unpack = (Float.Model.pack
    (UnpackedFloat.add Format.binary64 x.toModel.unpack (unpacked n))).unpack := by
    rw [← unpack_ofInt hn]
    rfl
  rw [le_iff, hadd]
  generalize x.toModel.unpack = u at hx ⊢
  cases hx with
  | zero =>
    have hzero : UnpackedFloat.add Format.binary64 (.zero .positive) (unpacked n) = unpacked n :=
      add_zero_left (normal_unpacked hn)
    rw [hzero, normal_pack (normal_unpacked hn)]
    exact ⟨normal_unpacked hn, zero_le (normal_unpacked hn)⟩
  | infinity =>
    have hinf :
        UnpackedFloat.add Format.binary64 (.infinity .positive) (unpacked n) =
          .infinity .positive :=
      add_infinity (normal_unpacked hn)
    rw [hinf, normal_pack .infinity]
    exact ⟨.infinity, rfl⟩
  | @finite m e h hlow hhigh he he' =>
    obtain rfl | hpos := Nat.eq_zero_or_pos n
    · have hsame : UnpackedFloat.add Format.binary64 (.finite .positive m e h) (unpacked 0) =
          .finite .positive m e h := rfl
      rw [hsame, normal_pack (.finite h hlow hhigh he he')]
      exact ⟨.finite h hlow hhigh he he', le_finite.mpr (.inr ⟨rfl, le_rfl⟩)⟩
    · rw [unpacked_pos hpos]
      obtain ⟨m₁, e₁, h₁, hsum, hlow₁, hhigh₁, hle⟩ := @add_finite m (lead n) e (n.log2 - 52) h
        ((Nat.two_pow_pos 52).trans_le (lead_range hpos).1) hlow he
      rw [hsum, unpack_pack hlow₁ hhigh₁ (by omega)]
      split
      · next hle₁ => exact ⟨.finite h₁ hlow₁ hhigh₁ (by omega) hle₁, le_finite.mpr hle⟩
      · exact ⟨.infinity, rfl⟩

theorem nonneg_pack {m : ℕ} {e : ℤ} {h : 0 < m} :
    (UnpackedFloat.zero .positive).le (Float.Model.pack (.finite .positive m e h)).unpack =
      true := by
  have hparts (x : BitVec 11) (y : BitVec 52) (hx : x ≠ -1#11) :
      (UnpackedFloat.zero .positive).le
        (UnpackedFloat.unpack Format.binary64 (packComponents Format.binary64 .positive x y)) =
          true := by
    rw [unpack_packComponents, if_neg hx]
    split
    · split <;> rfl
    · rfl
  have hunpack : (Float.Model.pack (.finite .positive m e h)).unpack =
      UnpackedFloat.unpack Format.binary64
        (UnpackedFloat.pack Format.binary64 (.finite .positive m e h)) := rfl
  rw [hunpack]
  unfold UnpackedFloat.pack
  dsimp only
  split
  · rfl
  · next hexp =>
    split
    · apply hparts
      intro hones
      have hnat := congrArg BitVec.toNat hones
      change ¬2 ^ 11 ≤ _ + 1 at hexp
      change _ % 2 ^ 11 = 2047 at hnat
      omega
    · apply hparts
      decide

theorem div_nonneg {a b : ℕ} (ha : Whole a) (hb : Whole b) (hpos : 0 < b) :
    0 ≤ ofInt a / ofInt b := by
  have hdiv : (ofInt a / ofInt b).toModel = Float.Model.pack
    (UnpackedFloat.div Format.binary64 (ofInt a).toModel.unpack (ofInt b).toModel.unpack) := rfl
  have hzero : (0 : Float).toModel.unpack = .zero .positive := rfl
  rw [le_iff, hzero, hdiv, unpack_ofInt ha, unpack_ofInt hb, unpacked_pos hpos]
  obtain rfl | hapos := Nat.eq_zero_or_pos a
  · change (UnpackedFloat.zero .positive).le (Float.Model.pack (.zero .positive)).unpack = true
    rw [normal_pack .zero]
    rfl
  · rw [unpacked_pos hapos]
    unfold UnpackedFloat.div roundWithAccuracy
    dsimp only
    split
    · rfl
    · exact nonneg_pack

end Order
end NavCaster.Library.Double
