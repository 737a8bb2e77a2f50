import NavCaster.Base.Base64

namespace NavCaster.Base.Rfc4648

open NavCaster.Library.Strto NavCaster.Library.Scan
open NavCaster.Base.Base64

def quantum (a b c : UInt8) : ℤ := (a.toNat * 2 ^ 8 + b.toNat) * 2 ^ 8 + c.toNat

/-- The encoding with padding, in which a byte has no sign. -/
def rfc4648 : Bytes → Bytes
  | [] => []
  | [a] => [letter (quantum a 0 0) 18, letter (quantum a 0 0) 12, 61, 61]
  | [a, b] => [letter (quantum a b 0) 18, letter (quantum a b 0) 12, letter (quantum a b 0) 6, 61]
  | a :: b :: c :: rest =>
    [letter (quantum a b c) 18, letter (quantum a b c) 12, letter (quantum a b c) 6,
      letter (quantum a b c) 0] ++ rfc4648 rest

def base64Decode (message : Bytes) : Option Bytes :=
  let s := cstr message
  if s.length % 4 ≠ 0 ∨ s.length = 0 then none else decodeGroups s

def padding (s : Bytes) : ℕ :=
  if s[s.length - 1]? = some 61 then if s[s.length - 2]? = some 61 then 2 else 1 else 0

def decodedLength (message : Bytes) : ℕ := (cstr message).length / 4 * 3 - padding (cstr message)

def Ended (t : Bytes) : Prop := ∃ body pad, t = body ++ pad ∧ pad ∈ [[], [61], [61, 61]] ∧ 61 ∉ body

structure Shaped (t : Bytes) : Prop where
  nonempty : t ≠ []
  groups : 4 ∣ t.length
  ended : Ended t

structure Padded (t : Bytes) : Prop extends Shaped t where
  letters : ∀ b ∈ t, b ∈ alphabet ∨ b = 61

variable {s t : Bytes}

/-- The sign of the first byte of a group is shifted out. -/
theorem letter_bitqueueOf {a b c : UInt8} (hb : b.toNat < 128) (hc : c.toNat < 128) (shift : ℕ)
    (hshift : shift = 0 ∨ shift = 6 ∨ shift = 12 ∨ shift = 18) :
    letter (bitqueueOf (charValue a) (charValue b) (charValue c)) shift =
      letter (quantum a b c) shift := by
  have ha := a.toNat_lt
  have hsextet : sextet (bitqueueOf (charValue a) (charValue b) (charValue c)) shift =
      sextet (quantum a b c) shift := by
    simp only [sextet, bitqueueOf, charValue, quantum, hb, hc, if_true]
    rcases hshift with rfl | rfl | rfl | rfl <;> split <;> omega
  rw [letter, hsextet, letter]

theorem groupBytes_quantum (a b c : UInt8) : groupBytes (quantum a b c) = [a, b, c] := by
  have ha := a.toNat_lt
  have hb := b.toNat_lt
  have hc := c.toNat_lt
  simp only [groupBytes, List.cons.injEq, and_true, ← UInt8.toNat_inj, UInt8.toNat_ofNat', quantum]
  omega

theorem encodeGroups_eq_of_plain (h : Plain s) : encodeGroups s = rfc4648 s := by
  have hzero : charValue 0 = 0 := rfl
  induction s using encodeGroups.induct with
  | case1 => rfl
  | case2 a =>
    have hgroup (shift : ℕ) :=
      letter_bitqueueOf (a := a) (b := 0) (c := 0) (by decide) (by decide) shift
    rw [hzero] at hgroup
    simp [encodeGroups, rfc4648, hgroup]
  | case3 a b =>
    have hb : b.toNat < 128 := h 1 b rfl (by decide)
    have hgroup (shift : ℕ) := letter_bitqueueOf (a := a) (c := 0) hb (by decide) shift
    rw [hzero] at hgroup
    simp [encodeGroups, rfc4648, hgroup]
  | case4 a b c rest ih =>
    obtain ⟨hb, hc, hrest⟩ := (plain_cons a b c rest).mp h
    have hgroup (shift : ℕ) := letter_bitqueueOf (a := a) hb hc shift
    simp [encodeGroups, rfc4648, hgroup, ih hrest]

theorem decodeGroups_rfc4648 (s : Bytes) : decodeGroups (rfc4648 s) = some s := by
  have hne (q : Int) (k : Nat) : sextet q k ≠ 64 := (sextet_lt q k).ne
  have hpad : unalphabet 61 = 64 := by decide
  induction s using rfc4648.induct with
  | case1 => rfl
  | case2 a =>
    have hlow : sextet (quantum a 0 0) 6 = 0 ∧ sextet (quantum a 0 0) 0 = 0 := by
      simp only [sextet, quantum, UInt8.toNat_zero]
      omega
    have hbytes := (bytesOf_sextet (quantum a 0 0)).trans (groupBytes_quantum a 0 0)
    rw [hlow.1, hlow.2] at hbytes
    simp only [rfc4648, decodeGroups, unalphabet_letter, hpad, hne, or_self, if_true, if_false,
      and_self, hbytes]
    rfl
  | case3 a b =>
    have hlow : sextet (quantum a b 0) 0 = 0 := by
      simp only [sextet, quantum, UInt8.toNat_zero]
      omega
    have hbytes := (bytesOf_sextet (quantum a b 0)).trans (groupBytes_quantum a b 0)
    rw [hlow] at hbytes
    simp only [rfc4648, decodeGroups, unalphabet_letter, hpad, hne, or_self, if_true, if_false,
      hbytes]
    rfl
  | case4 a b c rest ih =>
    have hbytes := (bytesOf_sextet (quantum a b c)).trans (groupBytes_quantum a b c)
    simp only [rfc4648, List.cons_append, List.nil_append, decodeGroups, unalphabet_letter, hne,
      or_self, if_false, ih, Option.map_some, hbytes]

theorem encodeGroups_eq_iff (s : Bytes) : encodeGroups s = rfc4648 s ↔ Plain s := by
  refine ⟨fun h ↦ ?_, encodeGroups_eq_of_plain⟩
  have hdecoded := congrArg decodeGroups h
  rw [decodeGroups_encodeGroups, decodeGroups_rfc4648, Option.some_inj] at hdecoded
  exact (carried_eq_iff s).mp hdecoded

/-- The encoding is that of the format, and is undone by the decoder. -/
def RoundTrips (s : Bytes) : Prop :=
  utilBase64Encode s = rfc4648 s ∧ utilBase64Decode (utilBase64Encode s) = s

/-- Just the texts in which no byte with a sign follows another one in its group. -/
theorem base64_round_trip (h : 0 ∉ s) : RoundTrips s ↔ Plain s := by
  have hencode : utilBase64Encode s = encodeGroups s := by
    rw [utilBase64Encode, (cstr_eq_iff s).mpr h]
  have hboth := and_congr (encodeGroups_eq_iff s) (decode_encode_iff s)
  rw [← hencode, and_iff_right h, and_self_iff] at hboth
  exact hboth

theorem base64_round_trip_ntrip : RoundTrips (ascii "ntrip") ↔ Plain (ascii "ntrip") :=
  base64_round_trip (by decide +kernel)

/-- The letters aé of a user name, in UTF-8. -/
theorem not_base64_round_trip : ¬ ∀ s : Bytes, s ≠ [] → 0 ∉ s → RoundTrips s := by
  intro h
  obtain ⟨hencode, -⟩ := h [0x61, 0xC3, 0xA9] nofun (by decide)
  revert hencode
  decide +kernel

theorem unalphabet_eq_iff (b : UInt8) : unalphabet b = 64 ↔ b = 61 := by
  have hall : ∀ n < 256, unalphabet (UInt8.ofNat n) = 64 ↔ UInt8.ofNat n = 61 := by
    decide +kernel
  have hb := hall b.toNat b.toNat_lt
  rwa [UInt8.ofNat_toNat] at hb

theorem ended_nil : Ended [] := ⟨[], [], rfl, by simp, by simp⟩

theorem ended_group {a b c d : UInt8} {rest : Bytes} (hrest : 4 ∣ rest.length) :
    Ended (a :: b :: c :: d :: rest) ↔ a ≠ 61 ∧ b ≠ 61 ∧
      if c = 61 then rest = [] ∧ d = 61 else if d = 61 then rest = [] else Ended rest := by
  constructor
  · rintro ⟨body, pad, heq, hpad, hbody⟩
    have hcases : pad = [] ∨ pad = [61] ∨ pad = [61, 61] := by simpa using hpad
    match body with
    | [] | [_] => rcases hcases with rfl | rfl | rfl <;> cases heq
    | [x, y] =>
      rcases hcases with rfl | rfl | rfl <;> cases heq
      simp only [List.mem_cons, List.not_mem_nil, or_false, not_or] at hbody
      exact ⟨Ne.symm hbody.1, Ne.symm hbody.2, by simp⟩
    | [x, y, z] =>
      rcases hcases with rfl | rfl | rfl <;> cases heq
      · simp only [List.mem_cons, List.not_mem_nil, or_false, not_or] at hbody
        simp [Ne.symm hbody.1, Ne.symm hbody.2.1, Ne.symm hbody.2.2]
      · simp at hrest
    | x :: y :: z :: w :: body =>
      simp only [List.cons_append, List.cons.injEq] at heq
      obtain ⟨rfl, rfl, rfl, rfl, rfl⟩ := heq
      simp only [List.mem_cons, not_or] at hbody
      obtain ⟨ha, hb, hc, hd, hbody⟩ := hbody
      rw [if_neg (Ne.symm hc), if_neg (Ne.symm hd)]
      exact ⟨Ne.symm ha, Ne.symm hb, body, pad, rfl, hpad, hbody⟩
  · rintro ⟨ha, hb, h⟩
    split at h
    · next hc =>
      obtain ⟨rfl, hd⟩ := h
      exact ⟨[a, b], [61, 61], by rw [hc, hd]; rfl, by simp, by simp [Ne.symm ha, Ne.symm hb]⟩
    · next hc =>
      split at h
      · next hd =>
        subst h
        exact ⟨[a, b, c],
          [61], by rw [hd]; rfl, by simp, by simp [Ne.symm ha, Ne.symm hb, Ne.symm hc]⟩
      · next hd =>
        obtain ⟨body, pad, rfl, hpad, hbody⟩ := h
        refine ⟨a :: b :: c :: d :: body, pad, rfl, hpad, ?_⟩
        simp [Ne.symm ha, Ne.symm hb, Ne.symm hc, Ne.symm hd, hbody]

theorem four_dvd_cons (a b c d : UInt8) (rest : Bytes) :
    4 ∣ (a :: b :: c :: d :: rest).length ↔ 4 ∣ rest.length := by
  simp only [List.length_cons]
  omega

theorem isSome_decodeGroups : ∀ t, (decodeGroups t).isSome ↔ 4 ∣ t.length ∧ Ended t
  | [] => iff_of_true rfl ⟨dvd_zero 4, ended_nil⟩
  | [_] | [_, _] | [_, _, _] => by simp [decodeGroups]
  | a :: b :: c :: d :: rest => by
    have ih := isSome_decodeGroups rest
    rw [four_dvd_cons]
    by_cases hgroups : 4 ∣ rest.length
    · rw [and_iff_right hgroups] at ih ⊢
      rw [ended_group hgroups, ← ih]
      simp only [decodeGroups, unalphabet_eq_iff]
      by_cases hab : a = 61 ∨ b = 61
      · rw [if_pos hab]
        refine iff_of_false Bool.false_ne_true fun h ↦ ?_
        exact hab.elim h.1 h.2.1
      · rw [if_neg hab]
        rw [not_or] at hab
        rw [and_iff_right hab.1, and_iff_right hab.2]
        split_ifs <;> simp [*]
    · have hrest : rest ≠ [] := by
        rintro rfl
        exact hgroups (dvd_zero 4)
      have hnone : decodeGroups rest = none :=
        Option.not_isSome_iff_eq_none.mp fun h ↦ hgroups (ih.mp h).1
      refine iff_of_false ?_ fun h ↦ hgroups h.1
      simp only [decodeGroups, hnone, hrest, false_and, if_false, Option.map_none]
      split_ifs <;> simp

theorem padding_group (a b c d : UInt8) {rest : Bytes} (h : 4 ∣ rest.length) (hne : rest ≠ []) :
    padding (a :: b :: c :: d :: rest) = padding rest := by
  have hpos := List.length_pos_of_ne_nil hne
  have hlast (k : ℕ) (hk : k ≤ 2) : (a :: b :: c :: d :: rest)[rest.length + 1 + 1 + 1 + 1 - k]? =
      rest[rest.length - k]? := by
    have hindex : rest.length + 1 + 1 + 1 + 1 - k = rest.length - k + 4 := by omega
    rw [hindex]
    rfl
  simp only [padding, List.length_cons, hlast 1 (by decide), hlast 2 (by decide)]

theorem length_decodeGroups {r : Bytes} : ∀ {t : Bytes}, decodeGroups t = some r →
    r.length = t.length / 4 * 3 - padding t
  | [], h => by
    cases h
    rfl
  | [_], h | [_, _], h | [_, _, _], h => by cases h
  | a :: b :: c :: d :: rest, h => by
    obtain ⟨hgroups, -⟩ := (isSome_decodeGroups (a :: b :: c :: d :: rest)).mp (by rw [h]; rfl)
    rw [four_dvd_cons] at hgroups
    simp only [decodeGroups, unalphabet_eq_iff] at h
    by_cases hab : a = 61 ∨ b = 61
    · rw [if_pos hab] at h
      cases h
    rw [if_neg hab] at h
    by_cases hc : c = 61
    · rw [if_pos hc] at h
      split at h
      · next hend =>
        obtain ⟨rfl, rfl⟩ := hend
        cases h
        simp [padding, hc, bytesOf]
      · cases h
    rw [if_neg hc] at h
    by_cases hd : d = 61
    · rw [if_pos hd] at h
      split at h
      · next hend =>
        subst hend
        cases h
        simp [padding, hc, hd, bytesOf]
      · cases h
    rw [if_neg hd] at h
    obtain ⟨r', hr', rfl⟩ := Option.map_eq_some_iff.mp h
    have ih := length_decodeGroups hr'
    have hbytes :
        (bytesOf (unalphabet a) (unalphabet b) (unalphabet c) (unalphabet d)).length = 3 := rfl
    rw [List.length_append, hbytes, ih]
    by_cases hrest : rest = []
    · subst hrest
      simp [padding, hd]
    · have hpos := List.length_pos_of_ne_nil hrest
      have hpadding : padding rest ≤ 2 := by
        unfold padding
        split_ifs <;> decide
      rw [padding_group a b c d hgroups hrest]
      simp only [List.length_cons]
      omega

/-- What the decoder accepts is in the format, and the result fills its memory. -/
def DecodesFormat (t : Bytes) : Prop :=
  ((base64Decode t).isSome ↔ Padded t) ∧ ∀ r, base64Decode t = some r → r.length = decodedLength t

theorem base64Decode_eq (h : 0 ∉ t) : base64Decode t = if t = [] then none else decodeGroups t := by
  have hcstr := (cstr_eq_iff t).mpr h
  unfold base64Decode
  simp only [hcstr, List.length_eq_zero_iff]
  by_cases hnil : t = []
  · rw [if_pos (.inr hnil), if_pos hnil]
  · rw [if_neg hnil]
    split
    · next hlen =>
      have hgroups : ¬ 4 ∣ t.length := by
        have hmod := or_iff_left hnil |>.mp hlen
        omega
      exact (Option.not_isSome_iff_eq_none.mp fun hs ↦
        hgroups ((isSome_decodeGroups t).mp hs).1).symm
    · rfl

theorem isSome_base64Decode (h : 0 ∉ t) : (base64Decode t).isSome ↔ Shaped t := by
  rw [base64Decode_eq h]
  by_cases hnil : t = []
  · rw [if_pos hnil]
    exact iff_of_false Bool.false_ne_true fun hshaped ↦ hshaped.nonempty hnil
  · rw [if_neg hnil, isSome_decodeGroups]
    exact ⟨fun hboth ↦ ⟨hnil, hboth.1, hboth.2⟩, fun hshaped ↦ ⟨hshaped.groups, hshaped.ended⟩⟩

/-- Just the texts without a foreign letter, and those that are refused for their shape. -/
theorem decodes_format_iff (h : 0 ∉ t) :
    DecodesFormat t ↔ (Shaped t → ∀ b ∈ t, b ∈ alphabet ∨ b = 61) := by
  have hlength : ∀ r, base64Decode t = some r → r.length = decodedLength t := by
    intro r hr
    rw [base64Decode_eq h] at hr
    split at hr
    · cases hr
    · rw [decodedLength, (cstr_eq_iff t).mpr h]
      exact length_decodeGroups hr
  rw [DecodesFormat, and_iff_left hlength, isSome_base64Decode h]
  constructor
  · exact fun hpadded hshaped ↦ (hpadded.mp hshaped).letters
  · exact fun hletters ↦
      ⟨fun hshaped ↦ { hshaped with letters := hletters hshaped }, Padded.toShaped⟩

theorem decodes_format_ntrip : DecodesFormat (ascii "bnRyaXA=") ↔
    (Shaped (ascii "bnRyaXA=") → ∀ b ∈ ascii "bnRyaXA=", b ∈ alphabet ∨ b = 61) :=
  decodes_format_iff (by decide +kernel)

/-- Four letters that are none of the alphabet. -/
theorem not_decodes_format : ¬ ∀ t : Bytes, 0 ∉ t → DecodesFormat t := by
  intro h
  have hsome : (base64Decode (ascii "!!!!")).isSome = true := by decide +kernel
  have hpadded := (h (ascii "!!!!") (by decide +kernel)).1.mp hsome
  exact absurd (hpadded.letters 33 (by decide +kernel)) (by decide +kernel)

theorem utilBase64Decode_eq (h : 0 ∉ t) : utilBase64Decode t = cstr ((base64Decode t).getD []) := by
  rw [base64Decode_eq h]
  split
  · next hnil =>
    subst hnil
    rfl
  · rfl

end NavCaster.Base.Rfc4648
