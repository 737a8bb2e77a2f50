import NavCaster.Library.Scan
import Mathlib.Data.Nat.Bitwise
import Mathlib.Logic.Equiv.Basic
import Mathlib.Logic.Function.Iterate

namespace NavCaster.Service.License

open NavCaster.Library.Strto NavCaster.Library.Scan

abbrev Block := Vector UInt8 16

structure LicenseInfo where
  serverLimit : Int := 0
  clientLimit : Int := 0
  enablePull : Bool := false
  enablePush : Bool := false
  expireDays : UInt32 := 0
  machineId : Bytes := []
  deriving DecidableEq

def crcBit (c : UInt32) : UInt32 :=
  if c &&& 1 ≠ 0 then (0xEDB88320 : UInt32) ^^^ (c >>> 1) else c >>> 1

def crcTable (i : UInt32) : UInt32 := crcBit^[8] i

def crc32 (data : Bytes) : UInt32 :=
  data.foldl (fun c b ↦ crcTable ((c ^^^ b.toUInt32) &&& 0xFF) ^^^ (c >>> 8)) 0xFFFFFFFF ^^^
    0xFFFFFFFF

def clamp (limit : Int) : Int :=
  let limit := if limit < 0 then 0 else limit
  if 0xFFFF < limit then 0xFFFF else limit

def flags (info : LicenseInfo) : UInt8 :=
  (if info.enablePull then 0x01 else 0) ||| (if info.enablePush then 0x02 else 0)

def pack (info : LicenseInfo) (fp : UInt32) : Block :=
  let ed := info.expireDays
  let sl := UInt16.ofNat (clamp info.serverLimit).toNat
  let cl := UInt16.ofNat (clamp info.clientLimit).toNat
  #v[78, 67, 0x01, flags info,
    fp.toUInt8, (fp >>> 8).toUInt8, (fp >>> 16).toUInt8, (fp >>> 24).toUInt8,
    ed.toUInt8, (ed >>> 8).toUInt8, (ed >>> 16).toUInt8, (ed >>> 24).toUInt8,
    sl.toUInt8, (sl >>> 8).toUInt8, cl.toUInt8, (cl >>> 8).toUInt8]

def word32 (b₀ b₁ b₂ b₃ : UInt8) : UInt32 :=
  b₀.toUInt32 ||| b₁.toUInt32 <<< 8 ||| b₂.toUInt32 <<< 16 ||| b₃.toUInt32 <<< 24

def word16 (b₀ b₁ : UInt8) : UInt32 := b₀.toUInt32 ||| b₁.toUInt32 <<< 8

def unpack (buf : Block) (expectFp : UInt32) (info : LicenseInfo) : Bool × LicenseInfo :=
  if buf[0] ≠ 78 ∨ buf[1] ≠ 67 then (false, info)
  else if buf[2] ≠ 0x01 then (false, info)
  else if word32 buf[4] buf[5] buf[6] buf[7] ≠ expectFp then (false, info)
  else (true, { info with
    enablePull := buf[3] &&& 0x01 ≠ 0
    enablePush := buf[3] &&& 0x02 ≠ 0
    expireDays := word32 buf[8] buf[9] buf[10] buf[11]
    serverLimit := (word16 buf[12] buf[13]).toNat
    clientLimit := (word16 buf[14] buf[15]).toNat })

def normalizeMac (mac : Bytes) : Bytes := (mac.filter fun b ↦ (hexDigit b).isSome).map toLower

def machineFingerprint (normalizedMac : Bytes) : UInt32 := crc32 normalizedMac

/-- The encryption of a block with a key, and the decryption, which undoes it. -/
structure BlockCipher where
  encryptBlock : Block → Block → Block
  decryptBlock : Block → Block → Block
  decrypt_encrypt : ∀ key block, decryptBlock key (encryptBlock key block) = block

def blocksOf (n : Nat) (s : Bytes) : List Block :=
  (List.range (n / 16)).map fun i ↦ Vector.ofFn fun j ↦ s.getD (16 * i + j) 0

/-- Goes over `n` bytes block by block, where these are whole blocks. -/
def ecb (f : Block → Block) (input result : Bytes) (n : Nat) : Bytes :=
  if n = 0 ∨ n % 16 ≠ 0 then result
  else (blocksOf n input).flatMap (fun block ↦ (f block).toList) ++ result.drop n

def sz2HexString (input : Bytes) (type : Int) : Bytes :=
  let digits := if type = 0 then ascii "0123456789ABCDEF" else ascii "0123456789abcdef"
  input.flatMap fun (b : UInt8) ↦ [digits.getD (b >>> 4).toNat 0, digits.getD (b &&& 0x0f).toNat 0]

/-- Ends at what is no digit. -/
def hexString2sz : Bytes → Bytes
  | b :: b' :: s =>
    match hexDigit b, hexDigit b' with
    | some high, some low => UInt8.ofNat (high <<< 4 ||| low) :: hexString2sz s
    | _, _ => []
  | _ => []

section

variable (aes : BlockCipher)

/-- Zeros fill up the last block. -/
def aes128Encrypt (src : Bytes) (key : Block) : Bytes :=
  let srcBuffLen := if src.length % 16 ≠ 0 then (src.length + 16) / 16 * 16 else src.length
  let strSrc := src ++ List.replicate (srcBuffLen - src.length) 0
  sz2HexString (ecb (aes.encryptBlock key) strSrc (List.replicate srcBuffLen 0) srcBuffLen) 0

/-- The text has one more byte than was decrypted. -/
def aes128Decrypt (src : Bytes) (key : Block) : Bytes :=
  let conlen := src.length / 2
  let plain := hexString2sz src
  let strPlainText := plain ++ List.replicate (conlen + 1 - plain.length) 0
  ecb (aes.decryptBlock key) strPlainText (List.replicate (conlen + 1) 0) conlen

def secretKey : Block := Vector.ofFn fun j ↦ (ascii "caster_sino").getD j 0

def encode (info : LicenseInfo) (mac : Bytes) : Bytes :=
  aes128Encrypt aes (pack info (machineFingerprint (normalizeMac mac))).toList secretKey

def decode (license mac : Bytes) (outInfo : LicenseInfo) : Bool × LicenseInfo :=
  if license.length ≠ 32 then (false, outInfo)
  else if license.any fun b ↦ (hexDigit b).isNone then (false, outInfo)
  else
    let norm := normalizeMac mac
    let plain := aes128Decrypt aes license secretKey
    if plain.length < 16 then (false, outInfo)
    else unpack (Vector.ofFn fun j ↦ plain.getD j 0) (machineFingerprint norm)
      { outInfo with machineId := norm }

end

theorem mod_or_byte (n k : ℕ) : n % 2 ^ k ||| (n >>> k % 2 ^ 8) <<< k = n % 2 ^ (k + 8) := by
  apply Nat.eq_of_testBit_eq
  intro i
  simp only [Nat.testBit_or, Nat.testBit_mod_two_pow, Nat.testBit_shiftLeft, Nat.testBit_shiftRight]
  grind

theorem byte_shiftLeft_mod {n k w : ℕ} (h : k + 8 ≤ w) :
    (n % 2 ^ 8) <<< k % 2 ^ w = (n % 2 ^ 8) <<< k := by
  refine Nat.mod_eq_of_lt ?_
  have hbyte : n % 2 ^ 8 < 2 ^ 8 := Nat.mod_lt _ (by decide)
  calc (n % 2 ^ 8) <<< k = (n % 2 ^ 8) * 2 ^ k := Nat.shiftLeft_eq _ _
    _ < 2 ^ 8 * 2 ^ k := Nat.mul_lt_mul_of_pos_right hbyte (Nat.two_pow_pos k)
    _ = 2 ^ (k + 8) := by rw [Nat.pow_add, Nat.mul_comm]
    _ ≤ 2 ^ w := Nat.pow_le_pow_right (by decide) h

theorem word32_bytes (x : UInt32) :
    word32 x.toUInt8 (x >>> 8).toUInt8 (x >>> 16).toUInt8 (x >>> 24).toUInt8 = x := by
  rw [← UInt32.toNat_inj]
  simp only [word32, UInt32.toNat_or, UInt32.toNat_shiftLeft, UInt8.toNat_toUInt32,
    UInt32.toNat_toUInt8, UInt32.toNat_shiftRight, UInt32.reduceToNat, Nat.reduceMod]
  rw [byte_shiftLeft_mod (by decide), byte_shiftLeft_mod (by decide),
    byte_shiftLeft_mod (by decide), mod_or_byte, mod_or_byte, mod_or_byte]
  exact Nat.mod_eq_of_lt x.toNat_lt

theorem word16_bytes (x : UInt16) : (word16 x.toUInt8 (x >>> 8).toUInt8).toNat = x.toNat := by
  simp only [word16, UInt32.toNat_or, UInt32.toNat_shiftLeft, UInt8.toNat_toUInt32,
    UInt16.toNat_toUInt8, UInt16.toNat_shiftRight, UInt32.reduceToNat, UInt16.reduceToNat,
    Nat.reduceMod]
  rw [byte_shiftLeft_mod (by decide), mod_or_byte]
  exact Nat.mod_eq_of_lt x.toNat_lt

theorem clamp_range (limit : Int) : 0 ≤ clamp limit ∧ clamp limit < 2 ^ 16 := by
  unfold clamp
  dsimp only
  split_ifs <;> omega

theorem word16_clamp (limit : Int) :
    let l := UInt16.ofNat (clamp limit).toNat
    ((word16 l.toUInt8 (l >>> 8).toUInt8).toNat : Int) = clamp limit := by
  have hrange := clamp_range limit
  have hlt : (clamp limit).toNat < 2 ^ 16 := by omega
  dsimp only
  rw [word16_bytes, UInt16.toNat_ofNat_of_lt' hlt, Int.toNat_of_nonneg hrange.1]

theorem flags_pull (info : LicenseInfo) : (flags info &&& 0x01 ≠ 0) = (info.enablePull = true) := by
  unfold flags
  cases info.enablePull <;> cases info.enablePush <;> decide

theorem flags_push (info : LicenseInfo) : (flags info &&& 0x02 ≠ 0) = (info.enablePush = true) := by
  unfold flags
  cases info.enablePull <;> cases info.enablePush <;> decide

/-- What is packed is read back, with the limits as they fit in, where the fingerprint is
expected. -/
theorem unpack_pack (info out : LicenseInfo) (fp expectFp : UInt32) :
    unpack (pack info fp) expectFp out =
      if fp = expectFp then
        (true, { out with
          enablePull := info.enablePull
          enablePush := info.enablePush
          expireDays := info.expireDays
          serverLimit := clamp info.serverLimit
          clientLimit := clamp info.clientLimit })
      else (false, out) := by
  have hserver := word16_clamp info.serverLimit
  have hclient := word16_clamp info.clientLimit
  have hfp := word32_bytes fp
  have hexpire := word32_bytes info.expireDays
  by_cases h : fp = expectFp
  · simp_all [unpack, pack, flags_pull, flags_push]
  · simp_all [unpack, pack]

theorem hexDigit_toLower (b : UInt8) : hexDigit (toLower b) = hexDigit b := by
  have hall : ∀ n < 256, hexDigit (toLower (UInt8.ofNat n)) = hexDigit (UInt8.ofNat n) := by
    decide +kernel
  simpa using hall b.toNat b.toNat_lt

theorem hexDigit_upper {n : ℕ} (hn : n < 16) :
    hexDigit ((ascii "0123456789ABCDEF").getD n 0) = some n := by
  have hall : ∀ n < 16, hexDigit ((ascii "0123456789ABCDEF").getD n 0) = some n := by decide
  exact hall n hn

theorem nibbles (b : UInt8) :
    (b >>> 4).toNat < 16 ∧ (b &&& 0x0f).toNat < 16 ∧
      UInt8.ofNat ((b >>> 4).toNat <<< 4 ||| (b &&& 0x0f).toNat) = b := by
  have hall : ∀ n < 256, (UInt8.ofNat n >>> 4).toNat < 16 ∧ (UInt8.ofNat n &&& 0x0f).toNat < 16 ∧
      UInt8.ofNat ((UInt8.ofNat n >>> 4).toNat <<< 4 ||| (UInt8.ofNat n &&& 0x0f).toNat) =
        UInt8.ofNat n := by
    decide +kernel
  simpa using hall b.toNat b.toNat_lt

theorem hexString2sz_recased {s code : Bytes}
    (h : code.map toLower = (sz2HexString s 0).map toLower) :
    hexString2sz code = s ∧ code.length = 2 * s.length ∧ ∀ c ∈ code, (hexDigit c).isSome := by
  induction s generalizing code with
  | nil =>
    obtain rfl : code = [] := by simpa [sz2HexString] using h
    exact ⟨rfl, rfl, nofun⟩
  | cons b s ih =>
    obtain ⟨hhigh, hlow, hb⟩ := nibbles b
    match code with
    | [] => simp [sz2HexString] at h
    | [c] => simp [sz2HexString] at h
    | c :: c' :: code =>
      simp only [sz2HexString, List.flatMap_cons, if_true, List.cons_append, List.nil_append,
        List.map_cons, List.cons.injEq] at h
      obtain ⟨hc, hc', h⟩ := h
      have hrest :
          code.map toLower = (sz2HexString s 0).map toLower := by simpa [sz2HexString] using h
      obtain ⟨hread, hlen, hall⟩ := ih hrest
      have hdigit : hexDigit c = some (b >>> 4).toNat := by
        rw [← hexDigit_toLower, hc, hexDigit_toLower, hexDigit_upper hhigh]
      have hdigit' : hexDigit c' = some (b &&& 0x0f).toNat := by
        rw [← hexDigit_toLower, hc', hexDigit_toLower, hexDigit_upper hlow]
      refine ⟨?_, ?_, ?_⟩
      · simp only [hexString2sz, hdigit, hdigit', hb, hread]
      · simp only [List.length_cons, hlen]
        omega
      · simpa [hdigit, hdigit'] using hall

theorem block_eq (block : Block) (s : Bytes) :
    (Vector.ofFn fun j : Fin 16 ↦ (block.toList ++ s).getD j 0) = block := by
  apply Vector.ext
  intro j hj
  have hlen : j < block.toList.length := by simpa using hj
  simp [List.getElem?_append_left hlen, hj]

theorem blocksOf_one (block : Block) (s : Bytes) : blocksOf 16 (block.toList ++ s) = [block] := by
  unfold blocksOf
  simp only [Nat.reduceDiv, List.range_one, List.map_cons, List.map_nil, Nat.mul_zero, Nat.zero_add]
  rw [block_eq]

theorem ecb_one (f : Block → Block) (block : Block) (s result : Bytes) :
    ecb f (block.toList ++ s) result 16 = (f block).toList ++ result.drop 16 := by
  simp [ecb, blocksOf_one]

variable (aes : BlockCipher)

theorem encode_eq (info : LicenseInfo) (mac : Bytes) :
    encode aes info mac = sz2HexString
      (aes.encryptBlock secretKey (pack info (machineFingerprint (normalizeMac mac)))).toList
        0 := by
  have hecb (block : Block) (result : Bytes) :
      ecb (aes.encryptBlock secretKey) block.toList result 16 =
      (aes.encryptBlock secretKey block).toList ++ result.drop 16 := by
    simpa using ecb_one (aes.encryptBlock secretKey) block [] result
  simp [encode, aes128Encrypt, hecb]

theorem aes128Decrypt_recased {block : Block} {code : Bytes} (key : Block)
    (h : code.map toLower = (sz2HexString (aes.encryptBlock key block).toList 0).map toLower) :
    aes128Decrypt aes code key = block.toList ++ [0] := by
  obtain ⟨hread, hlen, -⟩ := hexString2sz_recased h
  rw [Vector.length_toList] at hlen
  simp [aes128Decrypt, hread, hlen, ecb_one, aes.decrypt_encrypt]

/-- A license that was issued for a machine is accepted exactly on machines with the same
fingerprint, in whatever case its letters are written, and holds what it was issued with. -/
theorem license_round_trip (info out : LicenseInfo) (mac mac2 code : Bytes)
    (hcode : code.map toLower = (encode aes info mac).map toLower) :
    decode aes code mac2 out =
      if machineFingerprint (normalizeMac mac) = machineFingerprint (normalizeMac mac2) then
        (true, {
          serverLimit := max 0 (min info.serverLimit 65535)
          clientLimit := max 0 (min info.clientLimit 65535)
          enablePull := info.enablePull
          enablePush := info.enablePush
          expireDays := info.expireDays
          machineId := normalizeMac mac2 })
      else (false, { out with machineId := normalizeMac mac2 }) := by
  rw [encode_eq] at hcode
  obtain ⟨-, hlen, hdigits⟩ := hexString2sz_recased hcode
  have hplain := aes128Decrypt_recased aes secretKey hcode
  have hvalid : (code.any fun b ↦ (hexDigit b).isNone) = false := by
    simpa [Option.isSome_iff_ne_none] using hdigits
  have hclamp (limit : Int) : clamp limit = max 0 (min limit 65535) := by
    unfold clamp
    dsimp only
    split_ifs <;> omega
  unfold decode
  rw [if_neg (by simp [hlen]), hvalid, if_neg (by simp), hplain]
  dsimp only
  rw [if_neg (by simp), block_eq, unpack_pack]
  split_ifs <;> simp [hclamp]

def issued : LicenseInfo where
  serverLimit := 70000
  clientLimit := 5
  enablePull := true
  expireDays := 20000

/-- Encrypts the block of this license as AES does, and decrypts it again. -/
def onIssued : BlockCipher :=
  let plain : Block := #v[78, 67, 1, 1, 200, 185, 128, 48, 32, 78, 0, 0, 255, 255, 5, 0]
  let cipher : Block :=
    #v[54, 220, 111, 222, 40, 161, 103, 179, 38, 142, 125, 214, 92, 216, 152, 167]
  { encryptBlock := fun _ ↦ Equiv.swap plain cipher
    decryptBlock := fun _ ↦ Equiv.swap plain cipher
    decrypt_encrypt := fun _ block ↦ Equiv.swap_apply_self plain cipher block }

theorem license_round_trip_issued :
    decode onIssued (ascii "36dc6fde28a167b3268e7dd65cd898a7") (ascii "aabb-ccdd-eeff") {} =
      (true, {
        serverLimit := 65535
        clientLimit := 5
        enablePull := true
        expireDays := 20000
        machineId := ascii "aabbccddeeff" }) :=
  (license_round_trip onIssued issued {} (ascii "AA:BB:CC:DD:EE:FF") (ascii "aabb-ccdd-eeff")
    (ascii "36dc6fde28a167b3268e7dd65cd898a7") (by decide +kernel)).trans (by decide +kernel)

end NavCaster.Service.License
