import NavCaster.Service.Register

namespace NavCaster.Service.Register

open NavCaster.Library NavCaster.Library.Cipher NavCaster.Library.Rijndael NavCaster.Library.Strto
  NavCaster.Library.Scan

def xorBytes (buff chain : Bytes) : Bytes := List.zipWith (· ^^^ ·) buff chain

/-- `(int)(n / m_blockSize)`. -/
def blockCount (n blockSize : ℕ) : ℕ := (BitVec.ofNat 32 (n / blockSize)).toInt.toNat

/-- What is written for a block, and the chain behind it. -/
def encryptStep (c : CRegister) (iMode : ℕ) (chain pin : Bytes) : Bytes × Bytes :=
  if iMode = 1 then
    let presult := (encryptBlock c (xorBytes chain pin)).2.getD []
    (presult, presult)
  else if iMode = 2 then
    let presult := xorBytes ((encryptBlock c chain).2.getD []) pin
    (presult, presult)
  else ((encryptBlock c pin).2.getD [], chain)

def decryptStep (c : CRegister) (iMode : ℕ) (chain pin : Bytes) : Bytes × Bytes :=
  if iMode = 1 then (xorBytes ((decryptBlock c pin).2.getD []) chain, pin)
  else if iMode = 2 then (xorBytes ((encryptBlock c chain).2.getD []) pin, pin)
  else ((decryptBlock c pin).2.getD [], chain)

/-- Goes over the whole blocks of the first `n` bytes; what is behind them in the result is kept. -/
def overBlocks (step : Bytes → Bytes → Bytes × Bytes) (c : CRegister) (input result : Bytes)
    (n : ℕ) :
    Bool × Bytes × CRegister :=
  if c.keyInit = false then (false, result, c)
  else if n = 0 ∨ n % c.blockSize ≠ 0 then (false, result, c)
  else
    let count := blockCount n c.blockSize
    let r := chained step c.chain (blocks c.blockSize count input)
    (true, r.1.flatten ++ result.drop (c.blockSize * count), { c with chain := r.2 })

def encrypt (c : CRegister) (input result : Bytes) (n iMode : ℕ) : Bool × Bytes × CRegister :=
  overBlocks (encryptStep c iMode) c input result n

def decrypt (c : CRegister) (input result : Bytes) (n iMode : ℕ) : Bool × Bytes × CRegister :=
  overBlocks (decryptStep c iMode) c input result n

section

variable {n : ℕ}

theorem inputState_outputBytes (st : State n) : inputState n (outputBytes st) = st := by
  have hlen : ∀ b ∈ (List.finRange n).map fun j ↦
      (List.finRange 4).map fun r ↦ UInt8.ofBitVec (st j r), b.length = 4 := by
    intro b hb
    obtain ⟨j, -, rfl⟩ := List.mem_map.mp hb
    rw [List.length_map, List.length_finRange]
  funext j r
  have hget := getD_flatten hlen (i := j) (j := r) (by simp) r.isLt 0
  rw [inputState, keyColumn, outputBytes, List.flatMap, hget]
  simp [List.getD]

theorem outputBytes_inputState {s : Bytes} (hs : s.length = 4 * n) :
    outputBytes (inputState n s) = s := by
  have hblocks : ((List.finRange n).map fun j ↦
      (List.finRange 4).map fun r ↦ UInt8.ofBitVec (inputState n s j r)) = blocks 4 n s := by
    rw [blocks, ← List.map_coe_finRange_eq_range, List.map_map]
    refine List.map_congr_left fun j _ ↦ List.ext_getElem ?_ fun i h₁ h₂ ↦ ?_
    · simp only [List.length_map, List.length_finRange, Function.comp_apply, List.length_take,
        List.length_drop]
      omega
    · simp only [List.length_map, List.length_finRange] at h₁
      have hlt : 4 * j.val + i < s.length := by omega
      simp [inputState, keyColumn, List.getD, hlt]
  rw [outputBytes, List.flatMap, hblocks, blocks_flatten, ← hs, List.take_length]

theorem length_outputBytes (st : State n) : (outputBytes st).length = 4 * n := by
  simp [outputBytes, List.length_flatMap]
  omega

end

section

variable (c₀ : CRegister) (key chain : Bytes) {keylength blockSize : ℕ}
  (hk : keylength = 16 ∨ keylength = 24 ∨ keylength = 32)
  (hb : blockSize = 16 ∨ blockSize = 24 ∨ blockSize = 32)

include hk hb

theorem length_encryptBlock (input : Bytes) :
    ((encryptBlock (makeKey c₀ key chain keylength blockSize).2 input).2.getD []).length =
      blockSize := by
  rw [encryptBlock_cipher c₀ key chain hk hb, Option.getD_some, length_outputBytes]
  omega

theorem decryptBlock_encryptBlock {input : Bytes} (hlen : input.length = blockSize) :
    let c := (makeKey c₀ key chain keylength blockSize).2
    (decryptBlock c ((encryptBlock c input).2.getD [])).2.getD [] = input := by
  intro c
  rw [encryptBlock_cipher c₀ key chain hk hb, Option.getD_some,
    decryptBlock_invCipher c₀ key chain hk hb, inputState_outputBytes, invCipher_cipher,
    Option.getD_some, outputBytes_inputState (by omega)]

end

theorem length_xorBytes {s t : Bytes} {n : ℕ} (hs : s.length = n) (ht : t.length = n) :
    (xorBytes s t).length = n := by rw [xorBytes, List.length_zipWith, hs, ht, Nat.min_self]

theorem xorBytes_xorBytes {s t : Bytes} (h : s.length = t.length) :
    xorBytes (xorBytes s t) t = s ∧ xorBytes t (xorBytes t s) = s ∧
      xorBytes (xorBytes s t) s = t := by
  induction s generalizing t with
  | nil =>
    cases t with
    | nil => exact ⟨rfl, rfl, rfl⟩
    | cons b t => cases h
  | cons a s ih =>
    cases t with
    | nil => cases h
    | cons b t =>
      obtain ⟨h₁, h₂, h₃⟩ := ih (Nat.succ.inj h)
      have hback : a ^^^ b ^^^ b = a ∧ b ^^^ (b ^^^ a) = a ∧ a ^^^ b ^^^ a = b := by
        refine ⟨?_, ?_, ?_⟩
        · rw [UInt8.xor_assoc, UInt8.xor_self, UInt8.xor_zero]
        · rw [← UInt8.xor_assoc, UInt8.xor_self, UInt8.zero_xor]
        · rw [UInt8.xor_comm a b, UInt8.xor_assoc, UInt8.xor_self, UInt8.xor_zero]
      exact ⟨congrArg₂ List.cons hback.1 h₁, congrArg₂ List.cons hback.2.1 h₂,
        congrArg₂ List.cons hback.2.2 h₃⟩

theorem blockCount_eq {n blockSize : ℕ} (h : n / blockSize < 2 ^ 31) :
    blockCount n blockSize = n / blockSize := by
  have hmod : n / blockSize % 2 ^ 32 = n / blockSize := Nat.mod_eq_of_lt (by omega)
  rw [blockCount, BitVec.toInt_eq_toNat_of_lt]
  · rw [BitVec.toNat_ofNat, hmod, Int.toNat_natCast]
  · rw [BitVec.toNat_ofNat, hmod]
    omega

theorem overBlocks_eq (step : Bytes → Bytes → Bytes × Bytes) (input result : Bytes)
    {n blockSize : ℕ} (hn : 0 < n) (hmod : n % blockSize = 0) (hcount : n / blockSize < 2 ^ 31)
    (c : CRegister) (hi : c.keyInit = true) (hs : c.blockSize = blockSize) :
    overBlocks step c input result n =
      let r := chained step c.chain (blocks blockSize (n / blockSize) input)
      (true, r.1.flatten ++ result.drop n, { c with chain := r.2 }) := by
  have hall : blockSize * (n / blockSize) = n := Nat.mul_div_cancel' (Nat.dvd_of_mod_eq_zero hmod)
  rw [overBlocks, if_neg (by rw [hi]; exact Bool.noConfusion), hs, if_neg (by omega)]
  dsimp only
  rw [blockCount_eq hcount, hall]

section

variable (c₀ : CRegister) (key chain : Bytes) {keylength blockSize : ℕ}
  (hk : keylength = 16 ∨ keylength = 24 ∨ keylength = 32)
  (hb : blockSize = 16 ∨ blockSize = 24 ∨ blockSize = 32)

include hk hb

theorem length_encryptStep (iMode : ℕ) {chain' pin : Bytes} (hp : pin.length = blockSize) :
    (encryptStep (makeKey c₀ key chain keylength blockSize).2 iMode chain' pin).1.length =
      blockSize := by
  have hlength := length_encryptBlock c₀ key chain hk hb
  rw [encryptStep]
  split
  · exact hlength _
  · split
    · exact length_xorBytes (hlength _) hp
    · exact hlength _

theorem decryptStep_encryptStep (iMode : ℕ) {chain' pin : Bytes} (hc : chain'.length = blockSize)
    (hp : pin.length = blockSize) :
    let c := (makeKey c₀ key chain keylength blockSize).2
    let r := encryptStep c iMode chain' pin
    decryptStep c iMode chain' r.1 = (pin, r.2) ∧ r.1.length = blockSize ∧
      r.2.length = blockSize := by
  intro c r
  have hround : ∀ {input : Bytes}, input.length = blockSize →
      (decryptBlock c ((encryptBlock c input).2.getD [])).2.getD [] = input :=
    decryptBlock_encryptBlock c₀ key chain hk hb
  have hlength := length_encryptBlock c₀ key chain hk hb
  have hxor := xorBytes_xorBytes (hc.trans hp.symm)
  have hr : r = encryptStep c iMode chain' pin := rfl
  by_cases h1 : iMode = 1
  · rw [encryptStep, if_pos h1] at hr
    have hback := hround (length_xorBytes hc hp)
    rw [hr, decryptStep, if_pos h1]
    refine ⟨Prod.ext ?_ rfl, hlength _, hlength _⟩
    exact (congrArg (xorBytes · chain') hback).trans hxor.2.2
  · by_cases h2 : iMode = 2
    · rw [encryptStep, if_neg h1, if_pos h2] at hr
      have hkey := hlength chain'
      have hlen := length_xorBytes hkey hp
      rw [hr, decryptStep, if_neg h1, if_pos h2]
      exact ⟨Prod.ext (xorBytes_xorBytes (hp.trans hkey.symm)).2.1 rfl, hlen, hlen⟩
    · rw [encryptStep, if_neg h1, if_neg h2] at hr
      rw [hr, decryptStep, if_neg h1, if_neg h2]
      exact ⟨Prod.ext (hround hp) rfl, hlength _, hc⟩

/-- What was encrypted after a call of `MakeKey` comes back after the same call, in every mode. -/
theorem decrypt_encrypt (hchain : blockSize ≤ chain.length) (iMode : ℕ)
    {input result result' : Bytes} {n : ℕ} (hn : 0 < n) (hmod : n % blockSize = 0)
    (hlen : n ≤ input.length) (hcount : n / blockSize < 2 ^ 31) :
    let c := (makeKey c₀ key chain keylength blockSize).2
    let r := encrypt c input result n iMode
    let r' := decrypt c r.2.1 result' n iMode
    r.1 = true ∧ r'.1 = true ∧ r'.2.1 = input.take n ++ result'.drop n ∧
      r'.2.2.chain = r.2.2.chain := by
  intro c r r'
  obtain ⟨hinit, hsize, -⟩ := makeKey_spec c₀ key chain hk hb
  have hall : blockSize * (n / blockSize) = n := Nat.mul_div_cancel' (Nat.dvd_of_mod_eq_zero hmod)
  have hclen : c.chain.length = blockSize := by
    have hc :
        c.chain =
          chain.take blockSize := by simp only [c, makeKey, hk, hb, not_true_eq_false, if_false]
    rw [hc, List.length_take]
    omega
  have hbs : ∀ b ∈ blocks blockSize (n / blockSize) input, b.length = blockSize :=
    fun b hb' ↦ length_of_mem_blocks (hall.trans_le hlen) hb'
  have hstep :=
    fun (chain' pin : Bytes) (hc : chain'.length = blockSize) (hp : pin.length = blockSize) ↦
    decryptStep_encryptStep c₀ key chain hk hb iMode hc hp
  set e := chained (encryptStep c iMode) c.chain (blocks blockSize (n / blockSize) input) with he
  have hr : r = (true, e.1.flatten ++ result.drop n, { c with chain := e.2 }) :=
    overBlocks_eq (encryptStep c iMode) _ _ hn hmod hcount c hinit hsize
  have hr' : r' = _ :=
    overBlocks_eq (decryptStep c iMode) _ _ hn hmod hcount c hinit hsize
  have hback : blocks blockSize (n / blockSize) r.2.1 = e.1 := by
    have hcount' : n / blockSize = e.1.length := by rw [he, chained_length, blocks_length]
    rw [hr, hcount']
    exact blocks_of_flatten (chained_forall (fun chain' pin hc hp ↦ (hstep chain' pin hc hp).2.1)
      (fun chain' pin hc hp ↦ (hstep chain' pin hc hp).2.2) hclen hbs) _
  have hchained := chained_chained (fun chain' pin hc hp ↦ (hstep chain' pin hc hp).1)
    (fun chain' pin hc hp ↦ (hstep chain' pin hc hp).2.2) hclen hbs
  rw [hr', hback, he, hchained]
  dsimp only
  rw [blocks_flatten, hall]
  exact ⟨by rw [hr], rfl, rfl, by rw [hr]⟩

end

/-! ### Texts in hexadecimal digits -/

def smChain0 : Bytes := List.replicate 32 0

/-- The register after `MakeKey(key, sm_chain0, 16, 16)`. -/
def aes128Key (key : Bytes) : CRegister := (makeKey {} key smChain0 16 16).2

def aes128Encrypt (strSrc key : Bytes) : Bytes :=
  let ulSrcBuffLen :=
    if strSrc.length % 16 ≠ 0 then (strSrc.length + 16) / 16 * 16 else strSrc.length
  let strSrc := strSrc ++ List.replicate (ulSrcBuffLen - strSrc.length) 0
  let strDataOut := List.replicate ulSrcBuffLen 0
  License.sz2HexString (encrypt (aes128Key key) strSrc strDataOut ulSrcBuffLen 0).2.1 0

def aes128Decrypt (pstrSrc key : Bytes) : Bytes :=
  let conlen := pstrSrc.length / 2
  let plain := License.hexString2sz pstrSrc
  let strPlainText := plain ++ List.replicate (conlen + 1 - plain.length) 0
  (decrypt (aes128Key key) strPlainText (List.replicate (conlen + 1) 0) conlen 0).2.1

def padded (s : Bytes) : Bytes := s ++ List.replicate ((s.length + 15) / 16 * 16 - s.length) 0

theorem length_padded (s : Bytes) : (padded s).length = (s.length + 15) / 16 * 16 := by
  rw [padded, List.length_append, List.length_replicate]
  omega

theorem aes128Encrypt_eq (s key : Bytes) :
    aes128Encrypt s key = License.sz2HexString (encrypt (aes128Key key) (padded s)
      (List.replicate (padded s).length 0) (padded s).length 0).2.1 0 := by
  have hlen : (if s.length % 16 ≠ 0 then (s.length + 16) / 16 * 16 else s.length) =
      (s.length + 15) / 16 * 16 := by
    split <;> omega
  simp only [aes128Encrypt, hlen, length_padded]
  rfl

theorem encrypt_result (key input : Bytes) {n : ℕ} (hn : 0 < n) (hmod : n % 16 = 0)
    (hcount : n / 16 < 2 ^ 31) :
    let enc := (encrypt (aes128Key key) input (List.replicate n 0) n 0).2.1
    enc.length = n ∧
      (encrypt (aes128Key key) input (List.replicate (n + 1) 0) n 0).2.1 = enc ++ [0] := by
  obtain ⟨hinit, hsize, -⟩ := makeKey_spec {} key smChain0 (.inl rfl) (.inl rfl)
  have hall : 16 * (n / 16) = n := Nat.mul_div_cancel' (Nat.dvd_of_mod_eq_zero hmod)
  have hres := fun result ↦ overBlocks_eq (encryptStep (aes128Key key) 0) input
    result hn hmod hcount (aes128Key key) hinit hsize
  have hlength : ∀ b ∈ (chained (encryptStep (aes128Key key) 0) (aes128Key key).chain
      (blocks 16 (n / 16) input)).1, b.length = 16 := by
    refine chained_forall (I := fun _ ↦ True) (J := fun _ ↦ True) (fun chain' pin _ _ ↦ ?_)
      (fun _ _ _ _ ↦ trivial) trivial fun _ _ ↦ trivial
    exact length_encryptBlock {} key smChain0 (.inl rfl) (.inl rfl) pin
  intro enc
  have henc : enc = _ := congrArg (·.2.1) (hres (List.replicate n 0))
  have hzero : (List.replicate (n + 1) (0 : UInt8)).drop n = [0] := by
    rw [List.drop_replicate, Nat.add_sub_cancel_left]
    rfl
  have hnone : (List.replicate n (0 : UInt8)).drop n = [] := by
    rw [List.drop_replicate, Nat.sub_self]
    rfl
  dsimp only at henc
  rw [hnone, List.append_nil] at henc
  refine ⟨?_, ?_⟩
  · rw [henc, flatten_length hlength, chained_length, blocks_length, hall]
  · rw [encrypt, hres, henc]
    exact congrArg _ hzero

theorem aes128Decrypt_aes128Encrypt (key : Bytes) {s code : Bytes}
    (hcode : code.map toLower = (aes128Encrypt s key).map toLower)
    (hs : 2 * (padded s).length < 2 ^ 31) :
    aes128Decrypt code key = padded s ++ [0] ∧ code.length = 2 * (padded s).length := by
  set n := (padded s).length with hn
  have hmod : n % 16 = 0 := by
    rw [hn, length_padded]
    exact Nat.mul_mod_left ..
  rw [aes128Encrypt_eq, ← hn] at hcode
  obtain ⟨hplain, hlen, -⟩ := License.hexString2sz_recased hcode
  cases Nat.eq_zero_or_pos n with
  | inl h0 =>
    have hnil : padded s = [] := List.length_eq_zero_iff.mp (hn ▸ h0)
    have hnone : (encrypt (aes128Key key) (padded s) (List.replicate n 0) n 0).2.1 = [] := by
      rw [h0]
      rfl
    rw [hnone] at hplain hlen
    have hcode : code = [] := List.length_eq_zero_iff.mp hlen
    rw [hcode, hn, hnil]
    exact ⟨rfl, rfl⟩
  | inr hpos =>
    have hcount : n / 16 < 2 ^ 31 := by omega
    obtain ⟨henc, hmore⟩ := encrypt_result key (padded s) hpos hmod hcount
    have hback : (decrypt (aes128Key key) (encrypt (aes128Key key) (padded s)
          (List.replicate (n + 1) 0) n 0).2.1 (List.replicate (n + 1) 0) n 0).2.1 =
        (padded s).take n ++ (List.replicate (n + 1) 0).drop n :=
      (decrypt_encrypt {} key smChain0 (.inl rfl) (.inl rfl) (by decide) 0 hpos hmod le_rfl
        hcount).2.2.1
    rw [henc] at hlen
    have hcon : code.length / 2 = n := by omega
    have hone : n + 1 - n = 1 := Nat.add_sub_cancel_left ..
    have hzero : (List.replicate (n + 1) (0 : UInt8)).drop n = [0] := by
      rw [List.drop_replicate, hone]
      rfl
    rw [aes128Decrypt, hplain, hcon, henc, hone]
    rw [hmore, hzero, hn, List.take_length] at hback
    exact ⟨hback, hlen⟩

/-! ### The cipher of the licenses -/

def blockOf (s : Bytes) : License.Block := Vector.ofFn fun j ↦ s.getD j 0

theorem toList_blockOf {s : Bytes} (hs : s.length = 16) :
    (blockOf s).toList = s := by
  refine List.ext_getElem ?_ fun i h₁ h₂ ↦ ?_
  · rw [Vector.length_toList, hs]
  · simp [blockOf, List.getD, h₂]

theorem blockOf_toList (block : License.Block) : blockOf block.toList = block := by
  have h := License.block_eq block []
  rwa [List.append_nil] at h

theorem length_decryptBlock (c₀ : CRegister) (key chain : Bytes) {keylength blockSize : ℕ}
    (hk : keylength = 16 ∨ keylength = 24 ∨ keylength = 32)
    (hb : blockSize = 16 ∨ blockSize = 24 ∨ blockSize = 32) (input : Bytes) :
    ((decryptBlock (makeKey c₀ key chain keylength blockSize).2 input).2.getD []).length =
      blockSize := by
  rw [decryptBlock_invCipher c₀ key chain hk hb, Option.getD_some, length_outputBytes]
  omega

theorem aes128_block (key input : Bytes) :
    ((encryptBlock (aes128Key key) input).2.getD []).length = 16 ∧
      ((decryptBlock (aes128Key key) input).2.getD []).length = 16 ∧
      (input.length = 16 → (decryptBlock (aes128Key key)
        ((encryptBlock (aes128Key key) input).2.getD [])).2.getD [] = input) :=
  ⟨length_encryptBlock {} key smChain0 (.inl rfl) (.inl rfl) input,
    length_decryptBlock {} key smChain0 (.inl rfl) (.inl rfl) input,
    decryptBlock_encryptBlock {} key smChain0 (.inl rfl) (.inl rfl)⟩

def registerCipher : License.BlockCipher where
  encryptBlock key block := blockOf ((encryptBlock (aes128Key key.toList) block.toList).2.getD [])
  decryptBlock key block := blockOf ((decryptBlock (aes128Key key.toList) block.toList).2.getD [])
  decrypt_encrypt key block := by
    have h := aes128_block key.toList block.toList
    rw [toList_blockOf h.1, h.2.2 Vector.length_toList, blockOf_toList]

theorem toList_blocksOf {n : ℕ} {s : Bytes} (hn : n ≤ s.length) :
    (License.blocksOf n s).map Vector.toList = blocks 16 (n / 16) s := by
  rw [License.blocksOf, blocks, List.map_map]
  refine List.map_congr_left fun i hi ↦ List.ext_getElem ?_ fun j h₁ h₂ ↦ ?_
  · have hlt := List.mem_range.mp hi
    simp only [Function.comp_apply, Vector.length_toList, List.length_take, List.length_drop]
    omega
  · have hj : j < 16 := by simpa using h₁
    have hlt := List.mem_range.mp hi
    have hin : 16 * i + j < s.length := by omega
    simp [List.getD, hin]

theorem overBlocks_ecb (step : Bytes → Bytes → Bytes × Bytes) {f : Bytes → Bytes}
    {g : License.Block → License.Block} (hg : ∀ block, (g block).toList = f block.toList)
    (hstep : ∀ chain' pin, step chain' pin = (f pin, chain')) (key input result : Bytes) {n : ℕ}
    (hlen : n ≤ input.length) (hcount : n / 16 < 2 ^ 31) :
    (overBlocks step (aes128Key key) input result n).2.1 = License.ecb g input result n := by
  obtain ⟨hinit, hsize, -⟩ := makeKey_spec {} key smChain0 (.inl rfl) (.inl rfl)
  have hi : (aes128Key key).keyInit = true := hinit
  have hs : (aes128Key key).blockSize = 16 := hsize
  by_cases hn : n = 0 ∨ n % 16 ≠ 0
  · rw [License.ecb, if_pos hn, overBlocks, hs, if_pos hn]
    split <;> rfl
  · rw [not_or, not_not] at hn
    have hfun : step = fun chain' pin ↦ (f pin, chain') := funext fun c ↦ funext (hstep c)
    have hblocks : (License.blocksOf n input).flatMap (fun block ↦ (g block).toList) =
        ((blocks 16 (n / 16) input).map f).flatten := by
      rw [← toList_blocksOf hlen, List.map_map, List.flatMap]
      exact congrArg _ (List.map_congr_left fun block _ ↦ hg block)
    rw [License.ecb, if_neg (by omega),
      overBlocks_eq step input result (by omega) hn.2 hcount _ hi hs, hfun, hblocks]
    dsimp only
    rw [chained_map]

theorem aes128Encrypt_license (s : Bytes) (key : License.Block)
    (hcount : (padded s).length / 16 < 2 ^ 31) :
    License.aes128Encrypt registerCipher s key = aes128Encrypt s key.toList := by
  have hblock := fun block : License.Block ↦ toList_blockOf (aes128_block key.toList block.toList).1
  have hecb := overBlocks_ecb (encryptStep (aes128Key key.toList) 0) hblock (fun _ _ ↦ rfl)
    key.toList (padded s) (List.replicate (padded s).length 0) le_rfl hcount
  rw [aes128Encrypt_eq, encrypt, hecb]
  have hlen : (if s.length % 16 ≠ 0 then (s.length + 16) / 16 * 16 else s.length) =
      (s.length + 15) / 16 * 16 := by
    split <;> omega
  simp only [License.aes128Encrypt, hlen, length_padded]
  rfl

theorem aes128Decrypt_license (code : Bytes) (key : License.Block)
    (hcount : code.length / 2 / 16 < 2 ^ 31) :
    License.aes128Decrypt registerCipher code key = aes128Decrypt code key.toList := by
  have hblock :=
    fun block : License.Block ↦ toList_blockOf (aes128_block key.toList block.toList).2.1
  have hecb := overBlocks_ecb (decryptStep (aes128Key key.toList) 0) hblock (fun _ _ ↦ rfl)
  rw [aes128Decrypt, decrypt, hecb]
  · rfl
  · rw [List.length_append, List.length_replicate]
    omega
  · exact hcount

/-! ### Main results -/

section

variable (c₀ c₁ : CRegister) (key chain : Bytes) {keylength blockSize : ℕ}
  (hk : keylength = 16 ∨ keylength = 24 ∨ keylength = 32)
  (hb : blockSize = 16 ∨ blockSize = 24 ∨ blockSize = 32)

include hk hb

/-- The tables and the unrolled rounds compute the cipher as it is described over bytes. -/
theorem register_rijndael (input : Bytes) :
    let c := (makeKey c₀ key chain keylength blockSize).2
    let key := keyColumn key
    let state := inputState (blockSize / 4) input
    IsSubByte sBox ∧
      (encryptBlock c input).2 =
        some (outputBytes (cipher invSBox_sBox (keylength / 4) (blockSize / 4) key state)) ∧
      (decryptBlock c input).2 =
        some (outputBytes (invCipher invSBox_sBox (keylength / 4) (blockSize / 4) key state)) :=
  ⟨isSubByte_sBox, encryptBlock_cipher c₀ key chain hk hb input,
    decryptBlock_invCipher c₀ key chain hk hb input⟩

omit hk hb in
theorem register_rijndael_license :
    (encryptBlock (makeKey {} License.secretKey.toList smChain0 16 16).2
      (ascii "0123456789abcdef")).2 =
      some (outputBytes (cipher invSBox_sBox 4 4 (keyColumn License.secretKey.toList)
        (inputState 4 (ascii "0123456789abcdef")))) :=
  (register_rijndael {} License.secretKey.toList smChain0 (.inl rfl) (.inl rfl) _).2.1

/-- Two registers with the same key and chain: what one encrypts the other decrypts, in every
mode. -/
theorem register_modes_round_trip (hchain : blockSize ≤ chain.length) (iMode : ℕ)
    {input : Bytes} (result result' : Bytes) {n : ℕ} (hn : 0 < n) (hmod : n % blockSize = 0)
    (hlen : n ≤ input.length) (hcount : n / blockSize < 2 ^ 31) :
    let r := encrypt (makeKey c₀ key chain keylength blockSize).2 input result n iMode
    let r' := decrypt (makeKey c₁ key chain keylength blockSize).2 r.2.1 result' n iMode
    r.1 = true ∧ r'.1 = true ∧ r'.2.1 = input.take n ++ result'.drop n ∧
      r'.2.2.chain = r.2.2.chain := by
  have hsame : (makeKey c₁ key chain keylength blockSize).2 =
      (makeKey c₀ key chain keylength blockSize).2 := by
    simp only [makeKey, hk, hb, not_true_eq_false, if_false]
  rw [hsame]
  exact decrypt_encrypt c₀ key chain hk hb hchain iMode hn hmod hlen hcount

omit hk hb in
theorem register_modes_round_trip_cbc :
    let key := ascii "0123456789abcdef01234567"
    let r :=
      encrypt (makeKey {} key smChain0 24 32).2 (List.replicate 64 7) (List.replicate 64 0) 64 1
    (decrypt (makeKey {} key smChain0 24 32).2 r.2.1 (List.replicate 64 0) 64 1).2.1 =
      (List.replicate 64 7).take 64 ++ (List.replicate 64 0).drop 64 :=
  (register_modes_round_trip {} {} _ smChain0 (.inr (.inl rfl)) (.inr (.inr rfl)) (by decide) 1 _ _
    (by decide) (by decide) (by decide) (by decide)).2.2.1

/-- A text in two calls is encrypted as it is in one. -/
theorem register_two_calls (iMode : ℕ) (input result : Bytes) {n m : ℕ} (hn : 0 < n) (hm : 0 < m)
    (hnmod : n % blockSize = 0) (hmmod : m % blockSize = 0) (hlen : n ≤ input.length)
    (hcount : (n + m) / blockSize < 2 ^ 31) :
    let c := (makeKey c₀ key chain keylength blockSize).2
    let r := encrypt c input result n iMode
    let r' := encrypt r.2.2 (input.drop n) (result.drop n) m iMode
    let whole := encrypt c input result (n + m) iMode
    whole.2.1 = r.2.1.take n ++ r'.2.1 ∧ whole.2.2 = r'.2.2 := by
  intro c r r' whole
  obtain ⟨hinit, hsize, -⟩ := makeKey_spec c₀ key chain hk hb
  have hpos : 0 < blockSize := by omega
  have hdiv : (n + m) / blockSize = n / blockSize + m / blockSize :=
    Nat.add_div_of_dvd_right (Nat.dvd_of_mod_eq_zero hnmod)
  have hfirst := (Nat.div_le_div_right (c := blockSize) (Nat.le_add_right n m)).trans_lt hcount
  have hsecond := (Nat.div_le_div_right (c := blockSize) (Nat.le_add_left m n)).trans_lt hcount
  have hsum :
      (n + m) % blockSize = 0 := by rw [Nat.add_mod, hnmod, hmmod, Nat.zero_add, Nat.zero_mod]
  have hall : blockSize * (n / blockSize) = n := Nat.mul_div_cancel' (Nat.dvd_of_mod_eq_zero hnmod)
  set step := encryptStep c iMode
  set e := chained step c.chain (blocks blockSize (n / blockSize) input)
  have hr : r = (true, e.1.flatten ++ result.drop n, { c with chain := e.2 }) :=
    overBlocks_eq step input result hn hnmod hfirst c hinit hsize
  set e' := chained step e.2 (blocks blockSize (m / blockSize) (input.drop n))
  have hr' : r' = (true, e'.1.flatten ++ (result.drop n).drop m, { c with chain := e'.2 }) := by
    have hc' : r' = encrypt { c with chain := e.2 } (input.drop n) (result.drop n) m iMode := by
      rw [show r' = encrypt r.2.2 (input.drop n) (result.drop n) m iMode from rfl, hr]
    exact hc'.trans (overBlocks_eq step _ _ hm hmmod hsecond { c with chain := e.2 } hinit hsize)
  have hwhole := overBlocks_eq step input result (Nat.add_pos_left hn m) hsum hcount c hinit hsize
  have htake : r.2.1.take n = e.1.flatten := by
    have hlength : ∀ b ∈ e.1, b.length = blockSize :=
      chained_forall (I := fun _ ↦ True)
        (fun chain' pin _ hp ↦ length_encryptStep c₀ key chain hk hb iMode hp)
        (fun _ _ _ _ ↦ trivial) trivial fun b h ↦ length_of_mem_blocks (hall.trans_le hlen) h
    have hflat : e.1.flatten.length = n := by
      rw [flatten_length hlength, chained_length, blocks_length, hall]
    rw [hr, ← hflat, List.take_left]
  rw [hdiv, blocks_add, chained_append, hall] at hwhole
  rw [htake, hr', show whole = _ from hwhole]
  dsimp only
  rw [List.flatten_append, List.append_assoc, List.drop_drop]
  exact ⟨rfl, rfl⟩

omit hk hb in
theorem register_two_calls_cfb :
    let c := (makeKey {} (ascii "0123456789abcdef") smChain0 16 16).2
    let r := encrypt c (List.replicate 48 7) (List.replicate 48 0) 16 2
    (encrypt c (List.replicate 48 7) (List.replicate 48 0) (16 + 32) 2).2.2 =
      (encrypt r.2.2 ((List.replicate 48 7).drop 16) ((List.replicate 48 0).drop 16) 32 2).2.2 :=
  (register_two_calls {} _ smChain0 (.inl rfl) (.inl rfl) 2 _ _ (by decide) (by decide) (by decide)
    (by decide) (by decide) (by decide)).2

end

/-- The text comes back with the zeros that filled up its last block and one more, whatever the case
of the digits; and this is the cipher the licenses are written with. -/
theorem aes128_text_round_trip (key : License.Block) {s code : Bytes}
    (hcode : code.map toLower = (aes128Encrypt s key.toList).map toLower)
    (hs : 2 * (padded s).length < 2 ^ 31) :
    aes128Decrypt code key.toList = padded s ++ [0] ∧
      License.aes128Encrypt registerCipher s key = aes128Encrypt s key.toList ∧
      License.aes128Decrypt registerCipher code key = aes128Decrypt code key.toList := by
  obtain ⟨hback, hlen⟩ := aes128Decrypt_aes128Encrypt key.toList hcode hs
  refine ⟨hback, aes128Encrypt_license s key ?_, aes128Decrypt_license code key ?_⟩
  · omega
  · omega

theorem aes128_text_round_trip_license :
    aes128Decrypt (aes128Encrypt (ascii "0a:1b:2c") License.secretKey.toList)
      License.secretKey.toList =
      padded (ascii "0a:1b:2c") ++ [0] :=
  (aes128_text_round_trip License.secretKey rfl (by decide)).1

end NavCaster.Service.Register
