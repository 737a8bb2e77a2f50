import Mathlib.Tactic.Ring

namespace NavCaster.Library.BitString

/-- The lowest `n` bits of a number, the highest of them first. -/
def toBits : ℕ → ℕ → List Bool
  | 0, _ => []
  | n + 1, v => v.testBit n :: toBits n v

def push (v : ℕ) (b : Bool) : ℕ := 2 * v + b.toNat

def ofBits (bits : List Bool) : ℕ := bits.foldl push 0

def unpack (s : List UInt8) : List Bool := s.flatMap fun b ↦ toBits 8 b.toNat

/-- Bits that fill no whole byte are filled up with zeros. -/
def pack : List Bool → List UInt8
  | [] => []
  | b7 :: b6 :: b5 :: b4 :: b3 :: b2 :: b1 :: b0 :: bits =>
    UInt8.ofNat (ofBits [b7, b6, b5, b4, b3, b2, b1, b0]) :: pack bits
  | bits => [UInt8.ofNat (ofBits (bits ++ List.replicate (8 - bits.length) false))]

variable {n v : ℕ}

theorem length_toBits (n v : ℕ) : (toBits n v).length = n := by
  induction n with
  | zero => rfl
  | succ n ih => simp [toBits, ih]

theorem getElem?_toBits {i : ℕ} (h : i < n) : (toBits n v)[i]? = some (v.testBit (n - 1 - i)) := by
  induction n generalizing i with
  | zero => omega
  | succ n ih =>
    cases i with
    | zero => simp [toBits]
    | succ i =>
      rw [toBits, List.getElem?_cons_succ, ih (by omega)]
      congr 2
      omega

/-- What stands before the bits is shifted by them. -/
theorem foldl_push (bits : List Bool) (v : ℕ) :
    bits.foldl push v = v * 2 ^ bits.length + ofBits bits := by
  unfold ofBits
  induction bits generalizing v with
  | nil => simp
  | cons b bits ih =>
    rw [List.foldl_cons, List.foldl_cons, ih, ih (push 0 b), List.length_cons, push, push]
    ring

theorem ofBits_cons (b : Bool) (bits : List Bool) :
    ofBits (b :: bits) = b.toNat * 2 ^ bits.length + ofBits bits := by
  rw [ofBits, List.foldl_cons, foldl_push, push]
  simp

theorem ofBits_lt (bits : List Bool) : ofBits bits < 2 ^ bits.length := by
  induction bits with
  | nil => simp [ofBits]
  | cons b bits ih =>
    rw [ofBits_cons, List.length_cons, pow_succ]
    cases b <;> simp <;> omega

theorem ofBits_append (a b : List Bool) : ofBits (a ++ b) = ofBits a * 2 ^ b.length + ofBits b := by
  rw [ofBits, List.foldl_append, foldl_push]
  rfl

theorem ofBits_toBits (n v : ℕ) : ofBits (toBits n v) = v % 2 ^ n := by
  induction n with
  | zero => simp [toBits, ofBits, Nat.mod_one]
  | succ n ih =>
    rw [toBits, ofBits_cons, ih, length_toBits, Nat.toNat_testBit, pow_succ, Nat.mod_mul]
    ring

theorem ofBits_inj {a b : List Bool} (hlen : a.length = b.length) (h : ofBits a = ofBits b) :
    a = b := by
  induction a generalizing b with
  | nil => exact (List.length_eq_zero_iff.mp hlen.symm).symm
  | cons x a ih =>
    obtain _ | ⟨y, b⟩ := b
    · cases hlen
    · have hlen' : a.length = b.length := Nat.succ.inj hlen
      have ha := ofBits_lt a
      have hb := ofBits_lt b
      rw [ofBits_cons, ofBits_cons, hlen'] at h
      rw [hlen'] at ha
      have hxy : x = y := by
        cases x <;> cases y <;> simp at h <;> first | rfl | omega
      subst hxy
      rw [ih hlen' (Nat.add_left_cancel h)]

theorem toBits_ofBits {bits : List Bool} (h : bits.length = n) : toBits n (ofBits bits) = bits := by
  subst h
  apply ofBits_inj (length_toBits _ _)
  rw [ofBits_toBits, Nat.mod_eq_of_lt (ofBits_lt bits)]

theorem unpack_byte {bits : List Bool} (h : bits.length = 8) :
    unpack [UInt8.ofNat (ofBits bits)] = bits := by
  have hlt := ofBits_lt bits
  rw [h] at hlt
  have hbyte : (UInt8.ofNat (ofBits bits)).toNat = ofBits bits := by
    rw [UInt8.toNat_ofNat', Nat.mod_eq_of_lt hlt]
  rw [unpack, List.flatMap_singleton, hbyte, toBits_ofBits h]

theorem unpack_cons (b : UInt8) (s : List UInt8) : unpack (b :: s) = toBits 8 b.toNat ++ unpack s :=
  List.flatMap_cons

theorem unpack_append (s t : List UInt8) : unpack (s ++ t) = unpack s ++ unpack t :=
  List.flatMap_append

theorem length_unpack (s : List UInt8) : (unpack s).length = 8 * s.length := by
  induction s with
  | nil => rfl
  | cons b s ih =>
    rw [unpack_cons, List.length_append, length_toBits, ih, List.length_cons]
    ring

theorem getElem?_unpack (s : List UInt8) (i : ℕ) :
    (unpack s)[i]? = s[i / 8]?.map fun b ↦ b.toNat.testBit (7 - i % 8) := by
  induction s generalizing i with
  | nil => simp [unpack]
  | cons b s ih =>
    rw [unpack_cons]
    by_cases hi : i < 8
    · rw [List.getElem?_append_left (by rwa [length_toBits]), getElem?_toBits hi,
        Nat.div_eq_of_lt hi, Nat.mod_eq_of_lt hi]
      rfl
    · obtain ⟨k, rfl⟩ := Nat.exists_eq_add_of_le (Nat.le_of_not_lt hi)
      rw [List.getElem?_append_right (by rw [length_toBits]; omega), length_toBits,
        Nat.add_sub_cancel_left, ih, Nat.add_div_left k (by omega), Nat.add_mod_left,
        List.getElem?_cons_succ]

theorem prefix_unpack_pack (bits : List Bool) : bits <+: unpack (pack bits) := by
  induction bits using pack.induct with
  | case1 => exact List.nil_prefix
  | case2 b7 b6 b5 b4 b3 b2 b1 b0 bits ih =>
    have hbyte : unpack [UInt8.ofNat (ofBits [b7, b6, b5, b4, b3, b2, b1, b0])] =
        [b7, b6, b5, b4, b3, b2, b1, b0] := unpack_byte rfl
    have happ := unpack_append [UInt8.ofNat (ofBits [b7, b6, b5, b4, b3, b2, b1, b0])] (pack bits)
    rw [hbyte] at happ
    change _ <+: unpack ([_] ++ pack bits)
    rw [happ]
    exact (List.prefix_append_right_inj [b7, b6, b5, b4, b3, b2, b1, b0]).mpr ih
  | case3 bits hnil hlong =>
    have hlen : bits.length < 8 := by
      by_contra hge
      match bits with
      | _ :: _ :: _ :: _ :: _ :: _ :: _ :: _ :: rest => exact hlong _ _ _ _ _ _ _ _ rest rfl
      | [] | [_] | [_, _] | [_, _, _] | [_, _, _, _] | [_, _, _, _, _] | [_, _, _, _, _, _]
      | [_, _, _, _, _, _, _] => simp at hge
    have hfilled : (bits ++ List.replicate (8 - bits.length) false).length = 8 := by
      rw [List.length_append, List.length_replicate]
      omega
    rw [pack.eq_3 bits hnil hlong, unpack_byte hfilled]
    exact List.prefix_append _ _

end NavCaster.Library.BitString
