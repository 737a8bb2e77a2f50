import NavCaster.Library.Scan

namespace NavCaster.Base.Base64

open NavCaster.Library.Strto NavCaster.Library.Scan

/-- The value of a letter; 64 for the padding, and 65 for what is no letter of the alphabet. -/
def unalphabet (b : UInt8) : Nat :=
  if 65 ≤ b ∧ b ≤ 90 then b.toNat - 65
  else if 97 ≤ b ∧ b ≤ 122 then b.toNat - 97 + 26
  else if 48 ≤ b ∧ b ≤ 57 then b.toNat - 48 + 52
  else if b = 43 then 62
  else if b = 47 then 63
  else if b = 61 then 64
  else 65

/-- The bytes of a group of four letters. A letter outside of the alphabet is not refused: its value
is added to the others. -/
def bytesOf (a b c d : Nat) : Bytes :=
  let bitqueue := ((a * 64 + b) * 64 + c) * 64 + d
  [UInt8.ofNat (bitqueue / 2 ^ 16), UInt8.ofNat (bitqueue / 2 ^ 8), UInt8.ofNat bitqueue]

/-- `none` where the length is no multiple of four, or padding stands elsewhere than at the end. -/
def decodeGroups : Bytes → Option Bytes
  | [] => some []
  | a :: b :: c :: d :: rest =>
    let a := unalphabet a
    let b := unalphabet b
    let c := unalphabet c
    let d := unalphabet d
    if a = 64 ∨ b = 64 then none
    else if c = 64 then
      if rest = [] ∧ d = 64 then some ((bytesOf a b 0 0).take 1) else none
    else if d = 64 then
      if rest = [] then some ((bytesOf a b c 0).take 2) else none
    else (decodeGroups rest).map (bytesOf a b c d ++ ·)
  | _ => none

def utilBase64Decode (message : Bytes) : Bytes := cstr ((decodeGroups message).getD [])

example : utilBase64Decode (ascii "bnRyaXA6c2VjcmV0") = ascii "ntrip:secret" := by decide +kernel

def alphabet : Bytes := ascii "ABCDEFGHIJKLMNOPQRSTUVWXYZabcdefghijklmnopqrstuvwxyz0123456789+/"

/-- A `char` has a sign. -/
def charValue (b : UInt8) : Int := if b.toNat < 128 then b.toNat else b.toNat - 256

def sextet (bitqueue : Int) (shift : Nat) : Nat := (bitqueue / 2 ^ shift % 64).toNat

def letter (bitqueue : Int) (shift : Nat) : UInt8 := alphabet.getD (sextet bitqueue shift) 0

/-- The signs of the second and the third byte are carried over to the byte before. -/
def bitqueueOf (a b c : Int) : Int := (a * 2 ^ 8 + b) * 2 ^ 8 + c

def encodeGroups : Bytes → Bytes
  | [] => []
  | [a] =>
    let bitqueue := bitqueueOf (charValue a) 0 0
    [letter bitqueue 18, letter bitqueue 12, 61, 61]
  | [a, b] =>
    let bitqueue := bitqueueOf (charValue a) (charValue b) 0
    [letter bitqueue 18, letter bitqueue 12, letter bitqueue 6, 61]
  | a :: b :: c :: rest =>
    let bitqueue := bitqueueOf (charValue a) (charValue b) (charValue c)
    [letter bitqueue 18, letter bitqueue 12, letter bitqueue 6, letter bitqueue 0] ++
      encodeGroups rest

def utilBase64Encode (message : Bytes) : Bytes := encodeGroups (cstr message)

def groupBytes (bitqueue : Int) : Bytes :=
  let n := (bitqueue % 2 ^ 24).toNat
  [UInt8.ofNat (n / 2 ^ 16), UInt8.ofNat (n / 2 ^ 8), UInt8.ofNat n]

def carried : Bytes → Bytes
  | [] => []
  | [a] => (groupBytes (bitqueueOf (charValue a) 0 0)).take 1
  | [a, b] => (groupBytes (bitqueueOf (charValue a) (charValue b) 0)).take 2
  | a :: b :: c :: rest =>
    groupBytes (bitqueueOf (charValue a) (charValue b) (charValue c)) ++ carried rest

/-- No byte that has another one before it in its group of three has its highest bit set. -/
def Plain (s : Bytes) : Prop := ∀ i b, s[i]? = some b → i % 3 ≠ 0 → b.toNat < 128

theorem unalphabet_alphabet : ∀ n < 64, unalphabet (alphabet.getD n 0) = n := by
  decide +kernel

theorem sextet_lt (bitqueue : Int) (shift : Nat) : sextet bitqueue shift < 64 := by
  unfold sextet
  omega

theorem unalphabet_letter (bitqueue : Int) (shift : Nat) :
    unalphabet (letter bitqueue shift) = sextet bitqueue shift :=
  unalphabet_alphabet _ (sextet_lt bitqueue shift)

theorem bytesOf_sextet (q : Int) :
    bytesOf (sextet q 18) (sextet q 12) (sextet q 6) (sextet q 0) = groupBytes q := by
  have hsum : ((sextet q 18 * 64 + sextet q 12) * 64 + sextet q 6) * 64 + sextet q 0 =
      (q % 2 ^ 24).toNat := by
    have hfirst : q / 2 ^ 18 % 64 * 64 + q / 2 ^ 12 % 64 = q / 2 ^ 12 % 2 ^ 12 := by omega
    have hsecond : q / 2 ^ 12 % 2 ^ 12 * 64 + q / 2 ^ 6 % 64 = q / 2 ^ 6 % 2 ^ 18 := by omega
    have hthird : q / 2 ^ 6 % 2 ^ 18 * 64 + q / 2 ^ 0 % 64 = q % 2 ^ 24 := by omega
    have hnonneg (k : Nat) : 0 ≤ q / 2 ^ k % 64 := Int.emod_nonneg _ (by decide)
    have hcast (k : Nat) : (sextet q k : Int) = q / 2 ^ k % 64 := Int.toNat_of_nonneg (hnonneg k)
    rw [← hthird, ← hsecond, ← hfirst, ← hcast, ← hcast, ← hcast, ← hcast]
    omega
  unfold bytesOf groupBytes
  rw [hsum]

theorem decodeGroups_encodeGroups (s : Bytes) :
    decodeGroups (encodeGroups s) = some (carried s) := by
  have hne (q : Int) (k : Nat) : sextet q k ≠ 64 := (sextet_lt q k).ne
  have hpad : unalphabet 61 = 64 := by decide
  induction s using encodeGroups.induct with
  | case1 => rfl
  | case2 a =>
    have hlow : sextet (bitqueueOf (charValue a) 0 0) 6 = 0 ∧
        sextet (bitqueueOf (charValue a) 0 0) 0 = 0 := by
      simp only [sextet, bitqueueOf]
      omega
    simp only [encodeGroups, decodeGroups, carried, unalphabet_letter, hpad, hne, or_self, if_true,
      if_false]
    rw [← bytesOf_sextet, hlow.1, hlow.2]
    rfl
  | case3 a b =>
    have hlow : sextet (bitqueueOf (charValue a) (charValue b) 0) 0 = 0 := by
      simp only [sextet, bitqueueOf]
      omega
    simp only [encodeGroups, decodeGroups, carried, unalphabet_letter, hpad, hne, or_self, if_true,
      if_false]
    rw [← bytesOf_sextet, hlow]
  | case4 a b c rest ih =>
    simp only [encodeGroups, List.cons_append, List.nil_append, decodeGroups, carried,
      unalphabet_letter, hne, or_self, if_false, ih, Option.map_some]
    rw [← bytesOf_sextet]

theorem length_encodeGroups (s : Bytes) : (encodeGroups s).length = 4 * ((s.length + 2) / 3) := by
  induction s using encodeGroups.induct with
  | case1 => rfl
  | case2 a => simp [encodeGroups]
  | case3 a b => simp [encodeGroups]
  | case4 a b c rest ih =>
    simp only [encodeGroups, List.length_append, ih, List.length_cons, List.length_nil]
    omega

theorem length_carried (s : Bytes) : (carried s).length = s.length := by
  induction s using carried.induct with
  | case1 => rfl
  | case2 a => rfl
  | case3 a b => rfl
  | case4 a b c rest ih =>
    simp only [carried, groupBytes, List.length_append, ih, List.length_cons, List.length_nil]
    omega

theorem groupBytes_eq_iff (a b c : UInt8) :
    groupBytes (bitqueueOf (charValue a) (charValue b) (charValue c)) = [a, b, c] ↔
      b.toNat < 128 ∧ c.toNat < 128 := by
  have ha := a.toNat_lt
  have hb := b.toNat_lt
  have hc := c.toNat_lt
  simp only [groupBytes, List.cons.injEq, and_true, ← UInt8.toNat_inj, UInt8.toNat_ofNat',
    bitqueueOf, charValue]
  split <;> split <;> split <;> omega

theorem take_groupBytes_eq_iff (a b : UInt8) :
    (groupBytes (bitqueueOf (charValue a) (charValue b) 0)).take 2 = [a, b] ↔ b.toNat < 128 := by
  have ha := a.toNat_lt
  have hb := b.toNat_lt
  simp only [groupBytes, List.take_succ_cons, List.take_zero, List.cons.injEq, and_true,
    ← UInt8.toNat_inj, UInt8.toNat_ofNat', bitqueueOf, charValue]
  split <;> split <;> omega

theorem plain_cons (a b c : UInt8) (rest : Bytes) :
    Plain (a :: b :: c :: rest) ↔ b.toNat < 128 ∧ c.toNat < 128 ∧ Plain rest := by
  constructor
  · intro h
    refine ⟨h 1 b rfl (by decide), h 2 c rfl (by decide), fun i x hx hi ↦ h (i + 3) x hx ?_⟩
    omega
  · rintro ⟨hb, hc, hrest⟩ i x hx hi
    match i with
    | 0 => exact absurd rfl hi
    | 1 => cases hx; exact hb
    | 2 => cases hx; exact hc
    | i + 3 => exact hrest i x hx (by omega)

theorem carried_eq_iff (s : Bytes) : carried s = s ↔ Plain s := by
  induction s using carried.induct with
  | case1 => simp [carried, Plain]
  | case2 a =>
    have hgroup := (groupBytes_eq_iff a 0 0).mpr (by decide)
    have hcarried : carried [a] = [a] := congrArg (List.take 1) hgroup
    refine iff_of_true hcarried fun i b hb hi ↦ ?_
    obtain ⟨hlen, -⟩ := List.getElem?_eq_some_iff.mp hb
    simp at hlen
    omega
  | case3 a b =>
    refine (take_groupBytes_eq_iff a b).trans ⟨fun hb i x hx hi ↦ ?_, fun h ↦ h 1 b rfl (by decide)⟩
    match i with
    | 0 => exact absurd rfl hi
    | 1 => cases hx; exact hb
    | i + 2 => cases hx
  | case4 a b c rest ih =>
    rw [plain_cons, ← ih, ← and_assoc, ← groupBytes_eq_iff]
    constructor
    · intro h
      have hlen : (groupBytes (bitqueueOf (charValue a) (charValue b) (charValue c))).length =
        [a, b, c].length := rfl
      exact List.append_inj h hlen
    · rintro ⟨hgroup, hrest⟩
      rw [carried, hgroup, hrest]
      rfl

theorem cstr_eq_iff (s : Bytes) : cstr s = s ↔ 0 ∉ s := by
  simp only [cstr, List.takeWhile_eq_self_iff, decide_eq_true_eq]
  exact ⟨fun h h0 ↦ h 0 h0 rfl, fun h b hb h0 ↦ h (h0 ▸ hb)⟩

theorem decode_encode_iff (s : Bytes) :
    utilBase64Decode (utilBase64Encode s) = s ↔ 0 ∉ s ∧ Plain s := by
  unfold utilBase64Decode utilBase64Encode
  rw [decodeGroups_encodeGroups, Option.getD_some]
  constructor
  · intro h
    have h0 : 0 ∉ s := by
      intro hmem
      rw [← h] at hmem
      simpa using List.mem_takeWhile_imp hmem
    rw [(cstr_eq_iff s).mpr h0] at h
    have hstart : cstr (carried s) <+: carried s := List.takeWhile_prefix _
    rw [h] at hstart
    exact ⟨h0, (carried_eq_iff s).mp (hstart.eq_of_length (length_carried s).symm).symm⟩
  · rintro ⟨h0, hplain⟩
    have hcstr := (cstr_eq_iff s).mpr h0
    rw [hcstr, (carried_eq_iff s).mpr hplain, hcstr]

theorem letter_mem (bitqueue : Int) (shift : Nat) : letter bitqueue shift ∈ alphabet := by
  have hlt : sextet bitqueue shift < alphabet.length := sextet_lt bitqueue shift
  unfold letter
  rw [List.getD_eq_getElem?_getD, List.getElem?_eq_getElem hlt]
  exact List.getElem_mem hlt

theorem mem_encodeGroups {s : Bytes} {b : UInt8} (h : b ∈ encodeGroups s) :
    b ∈ alphabet ∨ b = 61 := by
  induction s using encodeGroups.induct with
  | case1 => simp [encodeGroups] at h
  | case2 a =>
    simp only [encodeGroups, List.mem_cons, List.not_mem_nil, or_false] at h
    rcases h with rfl | rfl | rfl | rfl <;> simp [letter_mem]
  | case3 a b =>
    simp only [encodeGroups, List.mem_cons, List.not_mem_nil, or_false] at h
    rcases h with rfl | rfl | rfl | rfl <;> simp [letter_mem]
  | case4 a b c rest ih =>
    simp only [encodeGroups, List.mem_append, List.mem_cons, List.not_mem_nil, or_false] at h
    rcases h with (rfl | rfl | rfl | rfl) | hrest
    · exact .inl (letter_mem _ _)
    · exact .inl (letter_mem _ _)
    · exact .inl (letter_mem _ _)
    · exact .inl (letter_mem _ _)
    · exact ih hrest

end NavCaster.Base.Base64
