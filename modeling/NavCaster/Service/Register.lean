import NavCaster.Service.RegisterTables
import NavCaster.Service.License

namespace NavCaster.Service.Register

open NavCaster.Library NavCaster.Library.Rijndael NavCaster.Library.Strto

/-- What the key makes of a register; the entries of the round keys that it does not set are left
out. -/
structure CRegister where
  keyInit : Bool := false
  ke : List (List Word) := []
  kd : List (List Word) := []
  keylength : ℕ := 0
  blockSize : ℕ := 0
  rounds : ℕ := 0
  chain0 : Bytes := []
  chain : Bytes := []

def entry (m : List (List Word)) (i j : ℕ) : Word := (m.getD i []).getD j 0

def setEntry (m : List (List Word)) (i j : ℕ) (w : Word) : List (List Word) :=
  m.modify i (·.set j w)

def wordAt (s : Bytes) (i : ℕ) : Word :=
  let byte := fun j ↦ (s.getD (4 * i + j) 0).toBitVec.setWidth 32
  byte 0 <<< 24 ||| byte 1 <<< 16 ||| byte 2 <<< 8 ||| byte 3

def look (table : List Word) (t : Word) (k : ℕ) : Word :=
  table.getD (t.sshiftRight k &&& 0xFF#32).toNat 0

def lookByte (table : List Byte) (t : Word) (k : ℕ) : Word :=
  (table.getD (t.sshiftRight k &&& 0xFF#32).toNat 0).signExtend 32

/-! ### The round keys -/

def numberOfRounds (keylength blockSize : ℕ) : ℕ :=
  match keylength with
  | 16 => if blockSize = 16 then 10 else if blockSize = 24 then 12 else 14
  | 24 => if blockSize ≠ 32 then 12 else 14
  | _ => 14

structure Keys where
  ke : List (List Word)
  kd : List (List Word)

def Keys.set (k : Keys) (bc rounds t : ℕ) (w : Word) : Keys where
  ke := setEntry k.ke (t / bc) (t % bc) w
  kd := setEntry k.kd (rounds - t / bc) (t % bc) w

/-- Copies the values into the round key arrays, as long as there is room. -/
def copyWords (bc rounds count : ℕ) : List Word → ℕ × Keys → ℕ × Keys
  | [], s => s
  | w :: tk, (t, k) =>
    if t < count then copyWords bc rounds count tk (t + 1, k.set bc rounds t w) else (t, k)

def chainXor (m n : ℕ) (tk : List Word) : List Word :=
  (List.range' m (n - m)).foldl (fun tk i ↦ tk.set i (tk.getD i 0 ^^^ tk.getD (i - 1) 0)) tk

def rotated (tt : Word) (rconpointer : ℕ) : Word :=
  (lookByte smS tt 16 &&& 0xFF#32) <<< 24 ^^^ (lookByte smS tt 8 &&& 0xFF#32) <<< 16 ^^^
    (lookByte smS tt 0 &&& 0xFF#32) <<< 8 ^^^ (lookByte smS tt 24 &&& 0xFF#32) ^^^
    ((smRcon.getD rconpointer 0).signExtend 32 &&& 0xFF#32) <<< 24

def substituted (tt : Word) : Word :=
  (lookByte smS tt 0 &&& 0xFF#32) ^^^ (lookByte smS tt 8 &&& 0xFF#32) <<< 8 ^^^
    (lookByte smS tt 16 &&& 0xFF#32) <<< 16 ^^^ (lookByte smS tt 24 &&& 0xFF#32) <<< 24

def evolve (kc : ℕ) (tk : List Word) (rconpointer : ℕ) : List Word :=
  let tk := tk.set 0 (tk.getD 0 0 ^^^ rotated (tk.getD (kc - 1) 0) rconpointer)
  if kc ≠ 8 then chainXor 1 kc tk
  else
    let tk := chainXor 1 (kc / 2) tk
    let tk := tk.set (kc / 2) (tk.getD (kc / 2) 0 ^^^ substituted (tk.getD (kc / 2 - 1) 0))
    chainXor (kc / 2 + 1) kc tk

/-- `fuel` bounds how often the values are extrapolated. -/
def extrapolate (bc rounds count kc : ℕ) : ℕ → List Word → ℕ → ℕ × Keys → Keys
  | 0, _, _, s => s.2
  | fuel + 1, tk, rconpointer, s =>
    if s.1 < count then
      let tk := evolve kc tk rconpointer
      extrapolate bc rounds count kc fuel tk (rconpointer + 1) (copyWords bc rounds count tk s)
    else s.2

def inverseMix (w : Word) : Word :=
  look smU1 w 24 ^^^ look smU2 w 16 ^^^ look smU3 w 8 ^^^ look smU4 w 0

def unmixedKeys (key : Bytes) (kc bc rounds : ℕ) : Keys :=
  let zero := List.replicate (rounds + 1) (List.replicate bc 0)
  let count := (rounds + 1) * bc
  let tk := (List.range kc).map (wordAt key)
  extrapolate bc rounds count kc count tk 0 (copyWords bc rounds count tk (0, ⟨zero, zero⟩))

def roundKeys (key : Bytes) (kc bc rounds : ℕ) : Keys :=
  let k := unmixedKeys key kc bc rounds
  { k with kd := k.kd.mapIdx fun r row ↦ if 1 ≤ r ∧ r < rounds then row.map inverseMix else row }

def makeKey (c : CRegister) (key chain : Bytes) (keylength blockSize : ℕ) : Bool × CRegister :=
  if ¬ (keylength = 16 ∨ keylength = 24 ∨ keylength = 32) then (false, c)
  else if ¬ (blockSize = 16 ∨ blockSize = 24 ∨ blockSize = 32) then (false, c)
  else
    let rounds := numberOfRounds keylength blockSize
    let k := roundKeys key (keylength / 4) (blockSize / 4) rounds
    (true,
      { keyInit := true, ke := k.ke, kd := k.kd, keylength, blockSize, rounds
        chain0 := chain.take blockSize, chain := chain.take blockSize })

/-! ### One block -/

def resultByte (table : List Byte) (t : Word) (k : ℕ) (tt : Word) : UInt8 :=
  .ofBitVec ((lookByte table t k ^^^ tt.sshiftRight k).setWidth 8)

abbrev Columns := Word × Word × Word × Word

def defStart (keys : List (List Word)) (input : Bytes) : Columns :=
  (wordAt input 0 ^^^ entry keys 0 0, wordAt input 1 ^^^ entry keys 0 1,
    wordAt input 2 ^^^ entry keys 0 2, wordAt input 3 ^^^ entry keys 0 3)

def defEncryptRound (keys : List (List Word)) : Columns → ℕ → Columns := fun (t0, t1, t2, t3) r ↦
  (look smT1 t0 24 ^^^ look smT2 t1 16 ^^^ look smT3 t2 8 ^^^ look smT4 t3 0 ^^^ entry keys r 0,
    look smT1 t1 24 ^^^ look smT2 t2 16 ^^^ look smT3 t3 8 ^^^ look smT4 t0 0 ^^^ entry keys r 1,
    look smT1 t2 24 ^^^ look smT2 t3 16 ^^^ look smT3 t0 8 ^^^ look smT4 t1 0 ^^^ entry keys r 2,
    look smT1 t3 24 ^^^ look smT2 t0 16 ^^^ look smT3 t1 8 ^^^ look smT4 t2 0 ^^^ entry keys r 3)

def defEncryptBlock (c : CRegister) (input : Bytes) : Bytes :=
  let (t0, t1, t2, t3) :=
    (List.range' 1 (c.rounds - 1)).foldl (defEncryptRound c.ke) (defStart c.ke input)
  let tt := entry c.ke c.rounds
  [resultByte smS t0 24 (tt 0), resultByte smS t1 16 (tt 0), resultByte smS t2 8 (tt 0),
    resultByte smS t3 0 (tt 0),
    resultByte smS t1 24 (tt 1), resultByte smS t2 16 (tt 1), resultByte smS t3 8 (tt 1),
    resultByte smS t0 0 (tt 1),
    resultByte smS t2 24 (tt 2), resultByte smS t3 16 (tt 2), resultByte smS t0 8 (tt 2),
    resultByte smS t1 0 (tt 2),
    resultByte smS t3 24 (tt 3), resultByte smS t0 16 (tt 3), resultByte smS t1 8 (tt 3),
    resultByte smS t2 0 (tt 3)]

def defDecryptRound (keys : List (List Word)) : Columns → ℕ → Columns := fun (t0, t1, t2, t3) r ↦
  (look smT5 t0 24 ^^^ look smT6 t3 16 ^^^ look smT7 t2 8 ^^^ look smT8 t1 0 ^^^ entry keys r 0,
    look smT5 t1 24 ^^^ look smT6 t0 16 ^^^ look smT7 t3 8 ^^^ look smT8 t2 0 ^^^ entry keys r 1,
    look smT5 t2 24 ^^^ look smT6 t1 16 ^^^ look smT7 t0 8 ^^^ look smT8 t3 0 ^^^ entry keys r 2,
    look smT5 t3 24 ^^^ look smT6 t2 16 ^^^ look smT7 t1 8 ^^^ look smT8 t0 0 ^^^ entry keys r 3)

def defDecryptBlock (c : CRegister) (input : Bytes) : Bytes :=
  let (t0, t1, t2, t3) :=
    (List.range' 1 (c.rounds - 1)).foldl (defDecryptRound c.kd) (defStart c.kd input)
  let tt := entry c.kd c.rounds
  [resultByte smSi t0 24 (tt 0), resultByte smSi t3 16 (tt 0), resultByte smSi t2 8 (tt 0),
    resultByte smSi t1 0 (tt 0),
    resultByte smSi t1 24 (tt 1), resultByte smSi t0 16 (tt 1), resultByte smSi t3 8 (tt 1),
    resultByte smSi t2 0 (tt 1),
    resultByte smSi t2 24 (tt 2), resultByte smSi t1 16 (tt 2), resultByte smSi t0 8 (tt 2),
    resultByte smSi t3 0 (tt 2),
    resultByte smSi t3 24 (tt 3), resultByte smSi t2 16 (tt 3), resultByte smSi t1 8 (tt 3),
    resultByte smSi t0 0 (tt 3)]

section

-- The four tables of a round, and from how far each row is read.
variable (t₁ t₂ t₃ t₄ : List Word) (keys : List (List Word)) (bc s1 s2 s3 : ℕ)

def generalStart (input : Bytes) : List Word :=
  (List.range bc).map fun i ↦ wordAt input i ^^^ entry keys 0 i

def generalRound (t : List Word) (r : ℕ) : List Word :=
  (List.range bc).map fun i ↦
    look t₁ (t.getD i 0) 24 ^^^ look t₂ (t.getD ((i + s1) % bc) 0) 16 ^^^
      look t₃ (t.getD ((i + s2) % bc) 0) 8 ^^^ look t₄ (t.getD ((i + s3) % bc) 0) 0 ^^^ entry keys r
        i

def generalFinal (table : List Byte) (rounds : ℕ) (t : List Word) : Bytes :=
  (List.range bc).flatMap fun i ↦
    let tt := entry keys rounds i
    [resultByte table (t.getD i 0) 24 tt, resultByte table (t.getD ((i + s1) % bc) 0) 16 tt,
      resultByte table (t.getD ((i + s2) % bc) 0) 8 tt,
      resultByte table (t.getD ((i + s3) % bc) 0) 0 tt]

def generalBlock (table : List Byte) (rounds : ℕ) (input : Bytes) : Bytes :=
  generalFinal keys bc s1 s2 s3 table rounds ((List.range' 1 (rounds - 1)).foldl
    (generalRound t₁ t₂ t₃ t₄ keys bc s1 s2 s3) (generalStart keys bc input))

end

def shift (sc row direction : ℕ) : ℕ := ((smShifts.getD sc []).getD row []).getD direction 0

def encryptBlock (c : CRegister) (input : Bytes) : Bool × Option Bytes :=
  if c.keyInit = false then (false, none)
  else if c.blockSize = 16 then (false, some (defEncryptBlock c input))
  else
    let bc := c.blockSize / 4
    let sc := if bc = 4 then 0 else if bc = 6 then 1 else 2
    (true,
      some (generalBlock smT1 smT2 smT3 smT4 c.ke bc (shift sc 1 0) (shift sc 2 0) (shift sc 3 0)
      smS c.rounds input))

def decryptBlock (c : CRegister) (input : Bytes) : Bool × Option Bytes :=
  if c.keyInit = false then (false, none)
  else if c.blockSize = 16 then (false, some (defDecryptBlock c input))
  else
    let bc := c.blockSize / 4
    let sc := if bc = 4 then 0 else if bc = 6 then 1 else 2
    (true,
      some (generalBlock smT5 smT6 smT7 smT8 c.kd bc (shift sc 1 1) (shift sc 2 1) (shift sc 3 1)
      smSi c.rounds input))

/-! ### The round keys are those of Rijndael -/

theorem signExtend_and (b : Byte) : b.signExtend 32 &&& 0xFF#32 = b.setWidth 32 := by
  apply BitVec.eq_of_getLsbD_eq
  intro i hi
  have hmask : (0xFF#32).getLsbD i = decide (i < 8) := by
    revert hi i
    decide
  simp only [BitVec.getLsbD_and, BitVec.getLsbD_signExtend, BitVec.getLsbD_setWidth, hmask]
  grind

theorem lookByte_and (t : Word) (k : ℕ) :
    lookByte smS t k &&& 0xFF#32 = (sBox (byteAt t k)).setWidth 32 := by
  rw [lookByte, toNat_byteAt, signExtend_and]
  rfl

theorem column_rotated (tt : Word) {i : ℕ} (hi : i < 30) :
    column (rotated tt i) = addColumn (rcon (i + 1)) (sBox ∘ rotWord (column tt)) := by
  have hrcon : smRcon.getD i 0 = xtime^[i] 1 := by
    rw [smRcon_eq, List.getD_eq_getElem?_getD, List.getElem?_map, List.getElem?_range hi]
    rfl
  rw [rotated, column_xor, hrcon]
  simp only [lookByte_and, signExtend_and]
  rw [xor_bytes, top_byte]
  exact congrArg₂ addColumn (column_pack (rcon (i + 1))) (column_pack (sBox ∘ rotWord (column tt)))

theorem column_substituted (tt : Word) : column (substituted tt) = sBox ∘ column tt := by
  have horder : ∀ a b c d : Word, a ^^^ b ^^^ c ^^^ d = d ^^^ c ^^^ b ^^^ a :=
    fun a b c d ↦ by ac_rfl
  rw [substituted, horder]
  simp only [lookByte_and]
  rw [xor_bytes]
  exact column_pack (sBox ∘ column tt)

theorem getD_set (l : List Word) (i j : ℕ) (w : Word) (hi : i < l.length) :
    (l.set i w).getD j 0 = if j = i then w else l.getD j 0 := by
  simp only [List.getD, List.getElem?_set]
  grind

theorem entry_setEntry (m : List (List Word)) {i j : ℕ} (w : Word) (hi : i < m.length)
    (hj : j < (m.getD i []).length) (i' j' : ℕ) :
    entry (setEntry m i j w) i' j' = if i' = i ∧ j' = j then w else entry m i' j' := by
  simp only [entry, setEntry, List.getD, List.getElem?_modify] at hj ⊢
  grind

theorem shape_setEntry (m : List (List Word)) (i j : ℕ) (w : Word) :
    (setEntry m i j w).length = m.length ∧
      ∀ r, ((setEntry m i j w).getD r []).length = (m.getD r []).length := by
  refine ⟨List.length_modify .., fun r ↦ ?_⟩
  simp only [setEntry, List.getD, List.getElem?_modify]
  grind

theorem chainXor_step (m n : ℕ) (hm : m ≤ n) (tk : List Word) :
    chainXor m (n + 1) tk =
      (chainXor m n tk).set n
        ((chainXor m n tk).getD n 0 ^^^ (chainXor m n tk).getD (n - 1) 0) := by
  have hcount : n + 1 - m = n - m + 1 := by omega
  have hlast : m + (n - m) = n := by omega
  rw [chainXor, hcount, List.range'_concat, List.foldl_append, Nat.one_mul, hlast]
  rfl

theorem length_chainXor (m n : ℕ) (hm : m ≤ n) (tk : List Word) :
    (chainXor m n tk).length = tk.length := by
  induction n, hm using Nat.le_induction with
  | base => simp [chainXor]
  | succ n hmn ih => rw [chainXor_step m n hmn, List.length_set, ih]

theorem chainXor_getD (m n : ℕ) (h0 : 0 < m) (hm : m ≤ n) (tk : List Word) (hn : n ≤ tk.length)
    (i : ℕ) :
    (chainXor m n tk).getD i 0 =
      if m ≤ i ∧ i < n then tk.getD i 0 ^^^ (chainXor m n tk).getD (i - 1) 0 else tk.getD i 0 := by
  induction n, hm using Nat.le_induction generalizing i with
  | base =>
    have hout : ¬ (m ≤ i ∧ i < m) := by omega
    simp [chainXor, hout]
  | succ n hmn ih =>
    have hlen := length_chainXor m n hmn tk
    have hset := getD_set (chainXor m n tk) n
    rw [chainXor_step m n hmn, hset _ _ (by omega), hset _ _ (by omega)]
    have hat := ih (by omega) n
    rw [if_neg (by omega)] at hat
    by_cases hi : i = n
    · have hbefore : i - 1 ≠ n := by omega
      rw [if_pos hi, if_pos (by omega), if_neg hbefore, hat, hi]
    · have hi' := ih (by omega) i
      rw [if_neg hi, hi']
      split
      · rw [if_pos (by omega), if_neg (by omega)]
      · rw [if_neg (by omega)]

section

variable (key : ℕ → Column) {kc : ℕ}

/-- The next words of the expanded key, by those `kc` words before them. -/
theorem expandKey_next (hkc : kc = 4 ∨ kc = 6 ∨ kc = 8) (m j : ℕ) (hj : j < kc) :
    let w := expandKey sBox kc key
    w (kc * (m + 1) + j) = addColumn
      (if j = 0 then addColumn (rcon (m + 1)) (sBox ∘ rotWord (w (kc * m + (kc - 1))))
        else if kc = 8 ∧ j = 4 then sBox ∘ w (kc * (m + 1) + (j - 1))
        else w (kc * (m + 1) + (j - 1)))
      (w (kc * m + j)) := by
  intro w
  have hpos : 0 < kc := by omega
  have hmul : kc * (m + 1) = kc * m + kc := Nat.mul_succ kc m
  have hmod : (kc * (m + 1) + j) % kc = j := by
    rw [Nat.mul_add_mod, Nat.mod_eq_of_lt hj]
  have hdiv : (kc * (m + 1) + j) / kc = m + 1 := by
    rw [Nat.mul_add_div hpos, Nat.div_eq_of_lt hj, Nat.add_zero]
  have hback : kc * (m + 1) + j - kc = kc * m + j := by omega
  have hfirst : ¬ (kc * (m + 1) + j < kc ∨ kc = 0) := by omega
  have hsix : 6 < kc ↔ kc = 8 := by omega
  have hw : w (kc * (m + 1) + j) = expandKey sBox kc key (kc * (m + 1) + j) := rfl
  rw [hw, expandKey, if_neg hfirst, hback, hmod, hdiv]
  dsimp only
  by_cases h0 : j = 0
  · have hprev : kc * (m + 1) + j - 1 = kc * m + (kc - 1) := by omega
    rw [if_pos h0, if_pos h0, hprev]
  · have hprev : kc * (m + 1) + j - 1 = kc * (m + 1) + (j - 1) := by omega
    rw [if_neg h0, if_neg h0, hprev]
    simp only [hsix]
    rfl

theorem evolve_getD (hkc : kc = 4 ∨ kc = 6 ∨ kc = 8) {tk : List Word} (hlen : tk.length = kc)
    (i : ℕ) :
    (evolve kc tk i).length = kc ∧
      ∀ j < kc, (evolve kc tk i).getD j 0 = tk.getD j 0 ^^^
        if j = 0 then rotated (tk.getD (kc - 1) 0) i
        else if kc = 8 ∧ j = 4 then substituted ((evolve kc tk i).getD (j - 1) 0)
        else (evolve kc tk i).getD (j - 1) 0 := by
  set tk' := tk.set 0 (tk.getD 0 0 ^^^ rotated (tk.getD (kc - 1) 0) i) with htk'
  have hlen' : tk'.length = kc := by rw [htk', List.length_set, hlen]
  have hset : ∀ j, tk'.getD j 0 =
      if j = 0 then tk.getD 0 0 ^^^ rotated (tk.getD (kc - 1) 0) i else tk.getD j 0 :=
    fun j ↦ getD_set tk 0 j _ (by omega)
  by_cases h8 : kc = 8
  · subst h8
    set tk₂ := chainXor 1 4 tk' with htk₂
    set tk₃ := tk₂.set 4 (tk₂.getD 4 0 ^^^ substituted (tk₂.getD 3 0)) with htk₃
    have hev : evolve 8 tk i = chainXor 5 8 tk₃ := rfl
    have hlen₂ : tk₂.length = 8 := (length_chainXor 1 4 (by omega) tk').trans hlen'
    have hlen₃ : tk₃.length = 8 := by rw [htk₃, List.length_set, hlen₂]
    have hget₂ := chainXor_getD 1 4 (by omega) (by omega) tk' (by omega)
    have hget₃ := fun j ↦ getD_set tk₂ 4 j (tk₂.getD 4 0 ^^^ substituted (tk₂.getD 3 0)) (by omega)
    have hget₄ := chainXor_getD 5 8 (by omega) (by omega) tk₃ hlen₃.ge
    rw [← htk₂] at hget₂
    rw [← htk₃] at hget₃
    rw [hev]
    -- Up to the middle the values are those of the first half.
    have hlow : ∀ j < 4, (chainXor 5 8 tk₃).getD j 0 = tk₂.getD j 0 := fun j hj ↦ by
      rw [hget₄, if_neg (by omega), hget₃, if_neg (by omega)]
    refine ⟨(length_chainXor 5 8 (by omega) tk₃).trans hlen₃, fun j hj ↦ ?_⟩
    by_cases h0 : j = 0
    · rw [hlow j (by omega), hget₂, if_neg (by omega), hset, if_pos h0, if_pos h0, h0]
    rw [if_neg h0]
    by_cases h4 : j = 4
    · subst h4
      have hmid : (chainXor 5 8 tk₃).getD (4 - 1) 0 = tk₂.getD 3 0 := hlow 3 (by omega)
      rw [if_pos ⟨rfl, rfl⟩, hmid, hget₄ 4, if_neg (by omega), hget₃ 4, if_pos rfl, hget₂ 4,
        if_neg (by omega), hset 4, if_neg h0]
    rw [if_neg (by omega)]
    by_cases hlt : j < 4
    · rw [hlow j hlt, hlow _ (by omega), hget₂, if_pos (by omega), hset, if_neg h0]
    · rw [hget₄ j, if_pos (by omega), hget₃, if_neg h4, hget₂ j, if_neg (by omega), hset, if_neg h0]
  · have hev : evolve kc tk i = chainXor 1 kc tk' := by rw [evolve, if_pos h8]
    have hget := chainXor_getD 1 kc (by omega) (by omega) tk' hlen'.ge
    rw [hev]
    refine ⟨(length_chainXor 1 kc (by omega) tk').trans hlen', fun j hj ↦ ?_⟩
    rw [hget j, hset]
    by_cases h0 : j = 0
    · rw [if_neg (by omega), if_pos h0, if_pos h0, h0]
    · rw [if_pos (by omega), if_neg h0, if_neg h0, if_neg (by omega)]

theorem evolve_spec (hkc : kc = 4 ∨ kc = 6 ∨ kc = 8) {m : ℕ} (hm : m < 30) {tk : List Word}
    (hlen : tk.length = kc)
    (htk : ∀ j < kc, column (tk.getD j 0) = expandKey sBox kc key (kc * m + j)) :
    ∀ j < kc, column ((evolve kc tk m).getD j 0) = expandKey sBox kc key (kc * (m + 1) + j) := by
  have hget := (evolve_getD hkc hlen m).2
  intro j
  induction j with
  | zero =>
    intro hj
    have hlast := htk (kc - 1) (by omega)
    rw [hget 0 hj, if_pos rfl, column_xor, column_rotated _ hm, hlast, htk 0 hj,
      expandKey_next key hkc m 0 hj, if_pos rfl]
  | succ j ih =>
    intro hj
    have hprev := ih (by omega)
    rw [hget _ hj, if_neg (Nat.succ_ne_zero j), Nat.add_sub_cancel, column_xor, htk _ hj,
      expandKey_next key hkc m _ hj, if_neg (Nat.succ_ne_zero j), Nat.add_sub_cancel, ← hprev]
    congr 1
    split
    · exact column_substituted _
    · rfl

end

structure Keys.Filled (bc rounds : ℕ) (w : ℕ → Column) (t : ℕ) (k : Keys) : Prop where
  rows : k.ke.length = rounds + 1 ∧ k.kd.length = rounds + 1
  columns : ∀ r < rounds + 1, (k.ke.getD r []).length = bc ∧ (k.kd.getD r []).length = bc
  ke : ∀ i < t, column (entry k.ke (i / bc) (i % bc)) = w i
  kd : ∀ i < t, column (entry k.kd (rounds - i / bc) (i % bc)) = w i

theorem Keys.Filled.set {bc rounds t : ℕ} {w : ℕ → Column} {k : Keys} {x : Word}
    (h : k.Filled bc rounds w t) (ht : t < (rounds + 1) * bc) (hx : column x = w t) :
    (k.set bc rounds t x).Filled bc rounds w (t + 1) := by
  have hbc : 0 < bc := by
    apply Nat.pos_of_ne_zero
    intro h0
    rw [h0] at ht
    omega
  have hrow : t / bc < rounds + 1 := Nat.div_lt_of_lt_mul (by rwa [Nat.mul_comm])
  have hcol : t % bc < bc := Nat.mod_lt _ hbc
  have hrow' : rounds - t / bc < rounds + 1 := Nat.lt_succ_of_le (Nat.sub_le ..)
  have hke := entry_setEntry k.ke x (hrow.trans_eq h.rows.1.symm)
    (hcol.trans_eq (h.columns _ hrow).1.symm)
  have hkd := entry_setEntry k.kd x (hrow'.trans_eq h.rows.2.symm)
    (hcol.trans_eq (h.columns _ hrow').2.symm)
  have hshape := shape_setEntry k.ke (t / bc) (t % bc) x
  have hshape' := shape_setEntry k.kd (rounds - t / bc) (t % bc) x
  -- Two places are never the same, as row and column together are the number of the word.
  have hplace : ∀ i, i < t → ¬ (i / bc = t / bc ∧ i % bc = t % bc) := fun i hi hsame ↦ by
    have h₁ := Nat.div_add_mod i bc
    have h₂ := Nat.div_add_mod t bc
    rw [hsame.1, hsame.2] at h₁
    omega
  refine ⟨⟨hshape.1.trans h.rows.1, hshape'.1.trans h.rows.2⟩, fun r hr ↦
    ⟨(hshape.2 r).trans (h.columns r hr).1, (hshape'.2 r).trans (h.columns r hr).2⟩,
    fun i hi ↦ ?_, fun i hi ↦ ?_⟩
  · rw [Keys.set, hke]
    by_cases hit : i = t
    · rw [if_pos ⟨by rw [hit], by rw [hit]⟩, hx, hit]
    · rw [if_neg (hplace i (by omega)), h.ke i (by omega)]
  · rw [Keys.set, hkd]
    by_cases hit : i = t
    · rw [if_pos ⟨by rw [hit], by rw [hit]⟩, hx, hit]
    · have hle : i / bc ≤ t / bc := Nat.div_le_div_right (by omega)
      have hno := hplace i (by omega)
      rw [if_neg (by omega), h.kd i (by omega)]

theorem copyWords_spec {bc rounds count t : ℕ} {w : ℕ → Column} (tk : List Word) {k : Keys}
    (hcount : count = (rounds + 1) * bc) (h : k.Filled bc rounds w t) (ht : t ≤ count)
    (htk : ∀ j < tk.length, column (tk.getD j 0) = w (t + j)) :
    (copyWords bc rounds count tk (t, k)).1 = min (t + tk.length) count ∧
      (copyWords bc rounds count tk (t, k)).2.Filled bc rounds w (min (t + tk.length) count) := by
  induction tk generalizing t k with
  | nil =>
    have hmin : min (t + 0) count = t := by omega
    exact ⟨hmin.symm, hmin.symm ▸ h⟩
  | cons x tk ih =>
    rw [copyWords]
    by_cases hlt : t < count
    · have hx : column x = w t := htk 0 (Nat.succ_pos _)
      have hmin : t + 1 + tk.length = t + (x :: tk).length := by
        rw [List.length_cons]
        omega
      have hrest : ∀ j < tk.length, column (tk.getD j 0) = w (t + 1 + j) := fun j hj ↦ by
        rw [Nat.add_assoc, Nat.add_comm 1 j]
        exact htk (j + 1) (Nat.succ_lt_succ hj)
      have hnext := ih (h.set (hcount ▸ hlt) hx) hlt hrest
      rw [if_pos hlt]
      rwa [hmin] at hnext
    · have hmin : min (t + (x :: tk).length) count = t := by omega
      rw [if_neg hlt, hmin]
      exact ⟨rfl, h⟩

theorem extrapolate_spec {bc rounds count kc fuel m : ℕ} (key : ℕ → Column) {tk : List Word}
    {s : ℕ × Keys} (hkc : kc = 4 ∨ kc = 6 ∨ kc = 8) (hcount : count = (rounds + 1) * bc)
    (h30 : count ≤ 30 * kc) (hlen : tk.length = kc)
    (htk : ∀ j < kc, column (tk.getD j 0) = expandKey sBox kc key (kc * m + j))
    (hs : s.1 = min (kc * (m + 1)) count) (h : s.2.Filled bc rounds (expandKey sBox kc key) s.1)
    (hfuel : count ≤ s.1 + fuel) :
    (extrapolate bc rounds count kc fuel tk m s).Filled bc rounds (expandKey sBox kc key)
      count := by
  induction fuel generalizing m tk s with
  | zero =>
    have hall : s.1 = count := by omega
    exact hall ▸ h
  | succ fuel ih =>
    rw [extrapolate]
    by_cases hlt : s.1 < count
    · have hmul : kc * (m + 1 + 1) = kc * (m + 1) + kc := Nat.mul_succ ..
      have hroom : kc * (m + 1) < kc * 30 := by omega
      have hm : m + 1 < 30 := Nat.lt_of_mul_lt_mul_left hroom
      have hnext := evolve_spec key hkc (by omega) hlen htk
      have hlen' := (evolve_getD hkc hlen m).1
      have hat : s.1 = kc * (m + 1) := by omega
      have hcopy := copyWords_spec (evolve kc tk m) hcount h hlt.le
        (fun j hj ↦ by rw [hat]; exact hnext j (hlen' ▸ hj))
      rw [if_pos hlt]
      refine ih hlen' hnext ?_ ?_ ?_
      · rw [hcopy.1, hlen', hat, hmul]
      · rw [hcopy.1]
        exact hcopy.2
      · rw [hcopy.1, hlen']
        omega
    · have hall : s.1 = count := by omega
      rw [if_neg hlt]
      exact hall ▸ h

theorem look_eq (table : List Word) (t : Word) (k : ℕ) :
    look table t k = table.getD (byteAt t k).toNat 0 := by rw [look, toNat_byteAt]

theorem column_inverseMix (w : Word) : column (inverseMix w) = invMixColumn (column w) := by
  have hentry : ∀ b, smU1.getD b.toNat 0 = pack (mul 14 b) (mul 9 b) (mul 13 b) (mul 11 b) :=
    smU1_getD
  obtain ⟨hsecond, hthird, hfourth⟩ := rotated_tables.2.2
  simp only [inverseMix, look_eq, hsecond, hthird, hfourth, getD_rotated, hentry]
  exact column_circulant (mul 14) (mul 9) (mul 13) (mul 11) (column w)

def keyColumn (s : Bytes) (i : ℕ) : Column := fun r ↦ (s.getD (4 * i + r) 0).toBitVec

theorem column_wordAt (s : Bytes) (i : ℕ) : column (wordAt s i) = keyColumn s i := by
  dsimp only [wordAt]
  rw [or_bytes]
  exact column_pack (keyColumn s i)

theorem numberOfRounds_eq {keylength blockSize : ℕ}
    (hk : keylength = 16 ∨ keylength = 24 ∨ keylength = 32)
    (hb : blockSize = 16 ∨ blockSize = 24 ∨ blockSize = 32) :
    numberOfRounds keylength blockSize = numRounds (keylength / 4) (blockSize / 4) := by
  rcases hk with rfl | rfl | rfl <;> rcases hb with rfl | rfl | rfl <;> rfl

theorem zeroKeys_filled (bc rounds : ℕ) (w : ℕ → Column) :
    let zero := List.replicate (rounds + 1) (List.replicate bc 0)
    Keys.Filled bc rounds w 0 ⟨zero, zero⟩ := by
  have hrow : ∀ r < rounds + 1,
      ((List.replicate (rounds + 1) (List.replicate bc (0 : Word))).getD r []).length = bc := by
    intro r hr
    simp [List.getD, hr]
  refine ⟨⟨List.length_replicate, List.length_replicate⟩, fun r hr ↦ ⟨hrow r hr, hrow r hr⟩, ?_,
    ?_⟩ <;>
    exact fun i hi ↦ absurd hi (Nat.not_lt_zero i)

theorem unmixedKeys_filled (key : Bytes) {kc bc rounds : ℕ} (hkc : kc = 4 ∨ kc = 6 ∨ kc = 8)
    (hcount : (rounds + 1) * bc ≤ 30 * kc) :
    (unmixedKeys key kc bc rounds).Filled bc rounds (expandKey sBox kc (keyColumn key))
      ((rounds + 1) * bc) := by
  have hlen : ((List.range kc).map (wordAt key)).length = kc := by
    rw [List.length_map, List.length_range]
  have htk : ∀ j < kc, column (((List.range kc).map (wordAt key)).getD j 0) =
      expandKey sBox kc (keyColumn key) j := fun j hj ↦ by
    have hget :
        ((List.range kc).map (wordAt key)).getD j 0 = wordAt key j := by simp [List.getD, hj]
    rw [hget, column_wordAt, expandKey, if_pos (.inl hj)]
  have hcopy := copyWords_spec ((List.range kc).map (wordAt key)) (rfl : (rounds + 1) * bc = _)
    (zeroKeys_filled bc rounds (expandKey sBox kc (keyColumn key))) (Nat.zero_le _)
    (fun j hj ↦ by rw [Nat.zero_add]; exact htk j (hlen ▸ hj))
  rw [hlen, Nat.zero_add] at hcopy
  refine extrapolate_spec (m := 0) (keyColumn key) hkc rfl hcount hlen ?_ ?_ ?_ ?_
  · simpa using htk
  · rw [hcopy.1, Nat.zero_add, Nat.mul_one]
  · rw [hcopy.1]
    exact hcopy.2
  · exact Nat.le_add_left ..

theorem entry_mapIdx {m : List (List Word)} {f : Word → Word} {p : ℕ → Prop} [DecidablePred p]
    {r j : ℕ} (hr : r < m.length) (hj : j < (m.getD r []).length) :
    entry (m.mapIdx fun r row ↦ if p r then row.map f else row) r j =
      if p r then f (entry m r j) else entry m r j := by
  have hget : m.getD r [] = m[r] := by simp [List.getD, hr]
  rw [hget] at hj
  simp only [entry, List.getD, List.getElem?_mapIdx, List.getElem?_eq_getElem hr, Option.map_some,
    Option.getD_some]
  split
  · simp [hj]
  · rfl

theorem roundKeys_spec (key : Bytes) {kc bc rounds : ℕ} (hkc : kc = 4 ∨ kc = 6 ∨ kc = 8)
    (hbc : bc = 4 ∨ bc = 6 ∨ bc = 8) (hrounds : rounds = numRounds kc bc) :
    let w := expandKey sBox kc (keyColumn key)
    ∀ r ≤ rounds, ∀ j < bc,
      column (entry (roundKeys key kc bc rounds).ke r j) = w (bc * r + j) ∧
        column (entry (roundKeys key kc bc rounds).kd r j) =
          if 1 ≤ r ∧ r < rounds then invMixColumn (w (bc * (rounds - r) + j))
          else w (bc * (rounds - r) + j) := by
  intro w r hr j hj
  have hcount : (rounds + 1) * bc ≤ 30 * kc := by
    rw [hrounds]
    rcases hkc with rfl | rfl | rfl <;> rcases hbc with rfl | rfl | rfl <;> decide
  have h := unmixedKeys_filled key hkc hcount
  have hplace : ∀ r ≤ rounds,
      (bc * r + j) / bc = r ∧ (bc * r + j) % bc = j ∧ bc * r + j < (rounds + 1) * bc :=
        fun r hr ↦ by
    have hrow : bc * (r + 1) ≤ bc * (rounds + 1) := Nat.mul_le_mul_left _ (Nat.succ_le_succ hr)
    rw [Nat.mul_add_div (by omega), Nat.div_eq_of_lt hj, Nat.mul_add_mod, Nat.mod_eq_of_lt hj,
      Nat.mul_comm (rounds + 1)]
    refine ⟨rfl, rfl, ?_⟩
    rw [Nat.mul_succ] at hrow
    omega
  obtain ⟨hdiv, hmod, hlt⟩ := hplace r hr
  obtain ⟨hdiv', hmod', hlt'⟩ := hplace (rounds - r) (Nat.sub_le ..)
  have hke := h.ke _ hlt
  have hkd := h.kd _ hlt'
  rw [hdiv, hmod] at hke
  rw [hdiv', hmod', Nat.sub_sub_self hr] at hkd
  refine ⟨hke, ?_⟩
  have hentry := entry_mapIdx (f := inverseMix) (p := fun r ↦ 1 ≤ r ∧ r < rounds)
    (h.rows.2 ▸ Nat.lt_succ_of_le hr) ((h.columns r (Nat.lt_succ_of_le hr)).2 ▸ hj)
  rw [roundKeys, hentry]
  split
  · rw [column_inverseMix, hkd]
  · exact hkd

/-! ### A block is encrypted as Rijndael does -/

def stateOf (n : ℕ) (t : List Word) : State n := fun j ↦ column (t.getD j 0)

def inputState (n : ℕ) (s : Bytes) : State n := fun j ↦ keyColumn s j

def outputBytes {n : ℕ} (st : State n) : Bytes :=
  (List.finRange n).flatMap fun j ↦ (List.finRange 4).map fun r ↦ .ofBitVec (st j r)

def arrayKey (n : ℕ) (keys : List (List Word)) (r : ℕ) : State n := fun j ↦ column (entry keys r j)

theorem resultByte_eq (s : List Byte) (t : Word) (k : ℕ) (tt : Word) :
    resultByte s t k tt = .ofBitVec (s.getD (byteAt t k).toNat 0 ^^^ byteAt tt k) := by
  have hback : ∀ b : Byte, (b.signExtend 32).setWidth 8 = b := fun b ↦ by
    apply BitVec.eq_of_getLsbD_eq
    intro i hi
    simp only [BitVec.getLsbD_setWidth, BitVec.getLsbD_signExtend]
    grind
  rw [resultByte, lookByte, toNat_byteAt, BitVec.setWidth_xor, hback]
  rfl

section

variable {n : ℕ} {t₁ t₂ t₃ t₄ : List Word} {s : List Byte} {f m₀ m₁ m₂ m₃ : Byte → Byte}
  {inner final : State n → State n → State n} {o : Fin 4 → ℕ}

structure Tables (t₁ t₂ t₃ t₄ : List Word) (s : List Byte) (f m₀ m₁ m₂ m₃ : Byte → Byte)
    (o : Fin 4 → ℕ) (inner final : State n → State n → State n) : Prop where
  first : ∀ b, t₁.getD b.toNat 0 = pack (m₀ (f b)) (m₁ (f b)) (m₂ (f b)) (m₃ (f b))
  second : t₂ = t₁.map (·.rotateRight 8)
  third : t₃ = t₁.map (·.rotateRight 16)
  fourth : t₄ = t₁.map (·.rotateRight 24)
  last : ∀ b, s.getD b.toNat 0 = f b
  start : ∀ i < n, (i + o 0) % n = i
  inner_eq : ∀ st k j, inner st k j =
    let c : Column := fun r ↦ f (st ⟨(j + o r) % n, Nat.mod_lt _ j.pos⟩ r)
    addColumn (k j) fun r ↦ m₀ (c r) ^^^ m₃ (c (r + 1)) ^^^ m₂ (c (r + 2)) ^^^ m₁ (c (r + 3))
  final_eq : ∀ st k j, final st k j = addColumn (k j)
    fun r ↦ f (st ⟨(j + o r) % n, Nat.mod_lt _ j.pos⟩ r)

theorem getD_map_range (g : ℕ → Word) {i : ℕ} (hi : i < n) :
    ((List.range n).map g).getD i 0 = g i := by simp [List.getD, hi]

theorem stateOf_generalStart (keys : List (List Word)) (input : Bytes) :
    stateOf n (generalStart keys n input) =
      addKey (arrayKey n keys 0) (inputState n input) := by
  funext j
  rw [stateOf, generalStart, getD_map_range _ j.isLt, column_xor, column_wordAt]
  rfl

theorem Tables.generalRound_eq (h : Tables t₁ t₂ t₃ t₄ s f m₀ m₁ m₂ m₃ o inner final)
    (keys : List (List Word)) (t : List Word) (r : ℕ) :
    stateOf n (generalRound t₁ t₂ t₃ t₄ keys n (o 1) (o 2) (o 3) t r) =
      inner (stateOf n t) (arrayKey n keys r) := by
  funext j
  have h0 : t.getD j 0 = t.getD ((j + o 0) % n) 0 := by rw [h.start j j.isLt]
  rw [stateOf, generalRound, getD_map_range _ j.isLt, column_xor, h.inner_eq]
  simp only [look_eq, h.second, h.third, h.fourth, getD_rotated, h.first]
  rw [h0]
  exact congrArg (addColumn _) (column_circulant m₀ m₁ m₂ m₃ fun r ↦
    f (stateOf n t ⟨(j + o r) % n, Nat.mod_lt _ j.pos⟩ r))

theorem Tables.generalFinal_eq (h : Tables t₁ t₂ t₃ t₄ s f m₀ m₁ m₂ m₃ o inner final)
    (keys : List (List Word)) (rounds : ℕ) (t : List Word) :
    generalFinal keys n (o 1) (o 2) (o 3) s rounds t =
      outputBytes (final (stateOf n t) (arrayKey n keys rounds)) := by
  have hrange : ∀ g : ℕ → Bytes,
      (List.range n).flatMap g = (List.finRange n).flatMap fun j : Fin n ↦ g j := fun g ↦ by
    rw [← List.map_coe_finRange_eq_range, List.flatMap_map]
  refine (hrange _).trans (List.flatMap_congr fun j _ ↦ ?_)
  have h0 : t.getD j 0 = t.getD ((j + o 0) % n) 0 := by rw [h.start j j.isLt]
  simp only [resultByte_eq, h.last, h.final_eq]
  rw [h0]
  rfl

theorem Tables.generalBlock_eq (h : Tables t₁ t₂ t₃ t₄ s f m₀ m₁ m₂ m₃ o inner final)
    (keys : List (List Word)) (rounds : ℕ) (input : Bytes) :
    generalBlock t₁ t₂ t₃ t₄ keys n (o 1) (o 2) (o 3) s rounds input =
      outputBytes (final (((List.range' 1 (rounds - 1)).map (arrayKey n keys)).foldl inner
        (addKey (arrayKey n keys 0) (inputState n input))) (arrayKey n keys rounds)) := by
  have hrounds : stateOf n ((List.range' 1 (rounds - 1)).foldl
        (generalRound t₁ t₂ t₃ t₄ keys n (o 1) (o 2) (o 3)) (generalStart keys n input)) =
      (List.range' 1 (rounds - 1)).foldl (fun st r ↦ inner st (arrayKey n keys r))
        (stateOf n (generalStart keys n input)) :=
    (List.foldl_hom (stateOf n) fun t r ↦ (h.generalRound_eq keys t r).symm).symm
  rw [generalBlock, h.generalFinal_eq, List.foldl_map, ← stateOf_generalStart, ← hrounds]

end

def toArray (t : Columns) : List Word := [t.1, t.2.1, t.2.2.1, t.2.2.2]

theorem defEncryptBlock_eq (c : CRegister) (input : Bytes) :
    defEncryptBlock c input = generalBlock smT1 smT2 smT3 smT4 c.ke 4 1 2 3 smS c.rounds input := by
  have hrounds :
      (List.range' 1 (c.rounds - 1)).foldl (generalRound smT1 smT2 smT3 smT4 c.ke 4 1 2 3)
        (toArray (defStart c.ke input)) =
      toArray ((List.range' 1 (c.rounds - 1)).foldl (defEncryptRound c.ke) (defStart c.ke input)) :=
    List.foldl_hom toArray fun t r ↦ rfl
  have hstart : generalStart c.ke 4 input = toArray (defStart c.ke input) := rfl
  rw [generalBlock, hstart, hrounds]
  rfl

theorem defDecryptBlock_eq (c : CRegister) (input : Bytes) :
    defDecryptBlock c input =
      generalBlock smT5 smT6 smT7 smT8 c.kd 4 3 2 1 smSi c.rounds input := by
  have hrounds :
      (List.range' 1 (c.rounds - 1)).foldl (generalRound smT5 smT6 smT7 smT8 c.kd 4 3 2 1)
        (toArray (defStart c.kd input)) =
      toArray ((List.range' 1 (c.rounds - 1)).foldl (defDecryptRound c.kd) (defStart c.kd input)) :=
    List.foldl_hom toArray fun t r ↦ rfl
  have hstart : generalStart c.kd 4 input = toArray (defStart c.kd input) := rfl
  rw [generalBlock, hstart, hrounds]
  rfl

theorem map_reflect {A : Type} (g : ℕ → A) {n : ℕ} (hn : 0 < n) :
    (List.range' 1 (n - 1)).map (fun r ↦ g (n - r)) = ((List.range' 1 (n - 1)).map g).reverse := by
  rw [← List.map_reverse, List.reverse_range', List.map_map, List.range'_eq_map_range, List.map_map]
  refine List.map_congr_left fun r hr ↦ ?_
  have hle : n - (1 + r) = 1 + (n - 1) - 1 - r := by omega
  exact congrArg g hle

theorem encryptTables (n : ℕ) : Tables smT1 smT2 smT3 smT4 smS sBox (mul 2) id id (mul 3) (offset n)
    (round n invSBox_sBox).inner (round n invSBox_sBox).final where
  first := smT1_getD
  second := rotated_tables.1.1
  third := rotated_tables.1.2.1
  fourth := rotated_tables.1.2.2
  last _ := rfl
  start i hi := by rw [offset_zero, Nat.add_zero, Nat.mod_eq_of_lt hi]
  inner_eq _ _ _ := rfl
  final_eq _ _ _ := rfl

theorem decryptTables (n : ℕ) :
    Tables smT5 smT6 smT7 smT8 smSi invSBox (mul 14) (mul 9) (mul 13) (mul 11)
    (fun r ↦ n - offset n r % n) (round n invSBox_sBox).inverseInner
    (round n invSBox_sBox).inverseFinal where
  first := smT5_getD
  second := rotated_tables.2.1.1
  third := rotated_tables.2.1.2.1
  fourth := rotated_tables.2.1.2.2
  last _ := rfl
  start i hi := by
    rw [offset_zero, Nat.zero_mod, Nat.sub_zero, Nat.add_mod_right, Nat.mod_eq_of_lt hi]
  inner_eq _ _ _ := rfl
  final_eq _ _ _ := rfl

section

variable (c₀ : CRegister) (key chain : Bytes) {keylength blockSize : ℕ}
  (hk : keylength = 16 ∨ keylength = 24 ∨ keylength = 32)
  (hb : blockSize = 16 ∨ blockSize = 24 ∨ blockSize = 32)

include hk hb

theorem makeKey_spec :
    let c := (makeKey c₀ key chain keylength blockSize).2
    let k :=
      roundKeys key (keylength / 4) (blockSize / 4) (numRounds (keylength / 4) (blockSize / 4))
    c.keyInit = true ∧ c.blockSize = blockSize ∧
      c.rounds = numRounds (keylength / 4) (blockSize / 4) ∧ c.ke = k.ke ∧ c.kd = k.kd := by
  simp only [makeKey, hk, hb, not_true_eq_false, if_false, numberOfRounds_eq hk hb, and_self]

theorem encryptBlock_general (input : Bytes) :
    let c := (makeKey c₀ key chain keylength blockSize).2
    let n := blockSize / 4
    (encryptBlock c input).2 = some (generalBlock smT1 smT2 smT3 smT4 c.ke n
      (offset n 1) (offset n 2) (offset n 3) smS c.rounds input) := by
  obtain ⟨hinit, hsize, -⟩ := makeKey_spec c₀ key chain hk hb
  intro c n
  have hi : c.keyInit ≠ false := hinit ▸ Bool.noConfusion
  have hs : c.blockSize = blockSize := hsize
  rw [encryptBlock, if_neg hi, hs]
  rcases hb with h | h | h <;> subst h
  · exact congrArg some (defEncryptBlock_eq c input)
  · rfl
  · rfl

theorem decryptBlock_general (input : Bytes) :
    let c := (makeKey c₀ key chain keylength blockSize).2
    let n := blockSize / 4
    (decryptBlock c input).2 = some (generalBlock smT5 smT6 smT7 smT8 c.kd n
      (n - offset n 1 % n) (n - offset n 2 % n) (n - offset n 3 % n) smSi c.rounds input) := by
  obtain ⟨hinit, hsize, -⟩ := makeKey_spec c₀ key chain hk hb
  intro c n
  have hi : c.keyInit ≠ false := hinit ▸ Bool.noConfusion
  have hs : c.blockSize = blockSize := hsize
  rw [decryptBlock, if_neg hi, hs]
  rcases hb with h | h | h <;> subst h
  · exact congrArg some (defDecryptBlock_eq c input)
  · rfl
  · rfl

theorem arrayKey_spec {r : ℕ} :
    let c := (makeKey c₀ key chain keylength blockSize).2
    let n := blockSize / 4
    let rounds := numRounds (keylength / 4) n
    let k := roundKey n (expandKey sBox (keylength / 4) (keyColumn key))
    r ≤ rounds → arrayKey n c.ke r = k r ∧
      arrayKey n c.kd r = if 1 ≤ r ∧
        r < rounds then (round n invSBox_sBox).unmixKey (k (rounds - r))
        else k (rounds - r) := by
  intro c n rounds k hr
  obtain ⟨-, -, -, hke, hkd⟩ := makeKey_spec c₀ key chain hk hb
  have hkc : keylength / 4 = 4 ∨ keylength / 4 = 6 ∨ keylength / 4 = 8 := by omega
  have hbc : n = 4 ∨ n = 6 ∨ n = 8 := by omega
  have hkeys := roundKeys_spec key hkc hbc rfl r hr
  have hcke : c.ke = _ := hke
  have hckd : c.kd = _ := hkd
  refine ⟨funext fun j ↦ ?_, funext fun j ↦ ?_⟩
  · rw [arrayKey, hcke, (hkeys j j.isLt).1]
    rfl
  · rw [arrayKey, hckd, (hkeys j j.isLt).2]
    split <;> rfl

/-- A block is encrypted as Rijndael does. -/
theorem encryptBlock_cipher (input : Bytes) :
    (encryptBlock (makeKey c₀ key chain keylength blockSize).2 input).2 =
      some (outputBytes (cipher invSBox_sBox (keylength / 4) (blockSize / 4) (keyColumn key)
        (inputState (blockSize / 4) input))) := by
  have hkey := fun r hr ↦ (arrayKey_spec c₀ key chain hk hb (r := r) hr).1
  have hrounds := (makeKey_spec c₀ key chain hk hb).2.2.1
  rw [encryptBlock_general c₀ key chain hk hb, (encryptTables (blockSize / 4)).generalBlock_eq,
    hrounds, hkey 0 (Nat.zero_le _), hkey _ le_rfl, List.map_congr_left fun r hr ↦ hkey r ?_]
  · rfl
  · have := List.mem_range'_1.mp hr
    omega

theorem decryptBlock_invCipher (input : Bytes) :
    (decryptBlock (makeKey c₀ key chain keylength blockSize).2 input).2 =
      some (outputBytes (invCipher invSBox_sBox (keylength / 4) (blockSize / 4) (keyColumn key)
        (inputState (blockSize / 4) input))) := by
  have hkey := fun r hr ↦ (arrayKey_spec c₀ key chain hk hb (r := r) hr).2
  have hrounds := (makeKey_spec c₀ key chain hk hb).2.2.1
  have hpos : 0 < numRounds (keylength / 4) (blockSize / 4) := Nat.succ_pos _
  rw [decryptBlock_general c₀ key chain hk hb, (decryptTables (blockSize / 4)).generalBlock_eq,
    hrounds, hkey 0 (Nat.zero_le _), hkey _ le_rfl, if_neg (by omega), if_neg (by omega),
    Nat.sub_zero, Nat.sub_self]
  have hmiddle : (List.range' 1 (numRounds (keylength / 4) (blockSize / 4) - 1)).map
        (arrayKey (blockSize / 4) (makeKey c₀ key chain keylength blockSize).2.kd) =
      ((List.range' 1 (numRounds (keylength / 4) (blockSize / 4) - 1)).map
        (roundKey (blockSize / 4) (expandKey sBox (keylength / 4) (keyColumn key)))).reverse.map
          (round (blockSize / 4) invSBox_sBox).unmixKey := by
    rw [← map_reflect _ hpos, List.map_map]
    refine List.map_congr_left fun r hr ↦ ?_
    have hr' := List.mem_range'_1.mp hr
    rw [hkey r (by omega), if_pos (by omega)]
    rfl
  rw [hmiddle]
  rfl

end

end NavCaster.Service.Register
