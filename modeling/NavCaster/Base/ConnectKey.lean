import NavCaster.Library.Decimal

namespace NavCaster.Base.ConnectKey

open NavCaster.Library.Strto
open NavCaster.Library.Decimal

/-- `%d` of `sscanf`, with what it leaves. -/
def scanInt (s : Bytes) : Option (ℤ × Bytes) :=
  let (neg, s) := sign (s.dropWhile isSpace)
  match digits digit s with
  | ([], _) => none
  | (vs, rest) => some (if neg then -valueOf 10 vs else valueOf 10 vs, rest)

def scanDot : Bytes → Option Bytes
  | 46 :: s => some s
  | _ => none

def scanOctets (ip : Bytes) : Option (List ℤ) := do
  let (a, s) ← scanInt ip
  let (b, s) ← scanInt (← scanDot s)
  let (c, s) ← scanInt (← scanDot s)
  let (d, _) ← scanInt (← scanDot s)
  return [a, b, c, d]

def upperHexChar (d : ℕ) : UInt8 := UInt8.ofNat (if d < 10 then 48 + d else 55 + d)

def formatHex (width : ℕ) (n : ℤ) : Bytes :=
  ((Nat.digits 16 (n % 2 ^ 32).toNat).rightpad width 0).reverse.map upperHexChar

def hexIp (octets : List ℤ) : Bytes :=
  octets.zipIdx.foldl (fun buf p ↦ buf.take (p.2 * 2) ++ (formatHex 2 p.1).take (8 - p.2 * 2)) []

def hexPort (port : ℤ) : Bytes := (formatHex 4 port).take 4

def utilCalConnectKey (serverIP : Bytes) (serverPort : ℤ) (clientIP : Bytes) (clientPort : ℤ) :
    Option Bytes := do
  let octets1 ← scanOctets serverIP
  let octets2 ← scanOctets clientIP
  return (hexIp octets1 ++ hexPort serverPort ++ hexIp octets2 ++ hexPort clientPort).take 24

/-- `>>` of a stream to an `int` in hexadecimal; none where there is nothing to read, which leaves
the number unset. -/
def hexToDec (hexStr : Bytes) : Option ℤ :=
  match hexStr.dropWhile isSpace with
  | [] => none
  | s =>
    let (neg, s) := sign s
    let v : ℤ := valueOf 16 (digits hexDigit (skipHexMark s)).1
    some (max (-2 ^ 31) (min (2 ^ 31 - 1) (if neg then -v else v)))

def decimal (n : ℕ) : Bytes :=
  if n = 0 then [48] else (Nat.digits 10 n).reverse.map fun d ↦ UInt8.ofNat (48 + d)

def toText (n : ℤ) : Bytes := if n < 0 then 45 :: decimal n.natAbs else decimal n.natAbs

def decodeIp (hexIp : Bytes) : Option Bytes := do
  let a ← hexToDec ((hexIp.drop 0).take 2)
  let b ← hexToDec ((hexIp.drop 2).take 2)
  let c ← hexToDec ((hexIp.drop 4).take 2)
  let d ← hexToDec ((hexIp.drop 6).take 2)
  return toText a ++ [46] ++ toText b ++ [46] ++ toText c ++ [46] ++ toText d

structure Endpoints where
  serverIP : Bytes := []
  serverPort : ℤ := 0
  clientIP : Bytes := []
  clientPort : ℤ := 0
  deriving DecidableEq

/-- A key of another length is one of a relay. -/
def decodeKey (key : Bytes) : Option Endpoints :=
  if key.length ≠ 24 then some {}
  else do
    let serverIP ← decodeIp ((key.drop 0).take 8)
    let serverPort ← hexToDec ((key.drop 8).take 4)
    let clientIP ← decodeIp ((key.drop 12).take 8)
    let clientPort ← hexToDec ((key.drop 20).take 4)
    return { serverIP, serverPort, clientIP, clientPort }

structure Address where
  a : UInt8
  b : UInt8
  c : UInt8
  d : UInt8

namespace Address

def octets (x : Address) : List ℤ := [x.a.toNat, x.b.toNat, x.c.toNat, x.d.toNat]

def text (x : Address) : Bytes :=
  toText x.a.toNat ++ [46] ++ toText x.b.toNat ++ [46] ++ toText x.c.toNat ++ [46] ++
    toText x.d.toNat

end Address

variable {width n : ℕ}

theorem hexDigit_upperHexChar {d : ℕ} (h : d < 16) : hexDigit (upperHexChar d) = some d := by
  interval_cases d <;> rfl

theorem isSpace_upperHexChar {d : ℕ} (h : d < 16) : isSpace (upperHexChar d) = false := by
  interval_cases d <;> rfl

theorem sign_upperHexChar {d : ℕ} (h : d < 16) (s : Bytes) :
    sign (upperHexChar d :: s) = (false, upperHexChar d :: s) := by
  interval_cases d <;> rfl

theorem skipHexMark_upperHexChar {vs : List ℕ} (h : ∀ v ∈ vs, v < 16) :
    skipHexMark (vs.map upperHexChar) = vs.map upperHexChar := by
  have hmark {b : UInt8} (hb : hexDigit b = none) : b ∉ vs.map upperHexChar := by
    intro hmem
    obtain ⟨v, hv, rfl⟩ := List.mem_map.mp hmem
    rw [hexDigit_upperHexChar (h v hv)] at hb
    cases hb
  unfold skipHexMark
  split
  · next heq => exact absurd (heq ▸ by simp : (120 : UInt8) ∈ vs.map upperHexChar) (hmark rfl)
  · next heq => exact absurd (heq ▸ by simp : (88 : UInt8) ∈ vs.map upperHexChar) (hmark rfl)
  · rfl

theorem formatHex_eq (n : ℕ) {width : ℕ} (hpos : 0 < width) (hint : n < 2 ^ 32) : ∃ vs : List ℕ,
    formatHex width n = vs.map upperHexChar ∧ vs ≠ [] ∧ (∀ v ∈ vs, v < 16) ∧ valueOf 16 vs = n ∧
      vs.length = max (Nat.digits 16 n).length width := by
  have hcast : ((n : ℤ) % 2 ^ 32).toNat = n := by omega
  refine ⟨((Nat.digits 16 n).rightpad width 0).reverse, ?_, ?_, ?_, ?_, ?_⟩
  · rw [formatHex, hcast]
  · rw [← List.length_pos_iff]
    simp [List.rightpad]
    omega
  · intro v hv
    simp only [List.rightpad, List.mem_reverse, List.mem_append, List.mem_replicate] at hv
    rcases hv with hv | ⟨-, rfl⟩
    · exact Nat.digits_lt_base (by decide) hv
    · decide
  · rw [valueOf, List.reverse_reverse, List.rightpad, Nat.ofDigits_append_replicate_zero,
      Nat.ofDigits_digits]
  · simp [List.rightpad]
    omega

theorem length_formatHex (hpos : 0 < width) (h : n < 16 ^ width) (hint : n < 2 ^ 32) :
    (formatHex width n).length = width := by
  obtain ⟨vs, hvs, -, -, -, hlen⟩ := formatHex_eq n hpos hint
  rw [hvs, List.length_map, hlen]
  exact max_eq_right ((Nat.digits_length_le_iff (by decide) n).mpr h)

theorem hexToDec_formatHex (hpos : 0 < width) (hint : n < 2 ^ 31) :
    hexToDec (formatHex width n) = some (n : ℤ) := by
  obtain ⟨vs, hvs, hne, hlt, hval, -⟩ := formatHex_eq n hpos (by omega)
  obtain ⟨v, vs, rfl⟩ := List.exists_cons_of_ne_nil hne
  have hv : v < 16 := hlt v (by simp)
  have hdigits : digits hexDigit ((v :: vs).map upperHexChar) = (v :: vs, []) :=
    digits_map fun w hw ↦ hexDigit_upperHexChar (hlt w hw)
  have hspace : ((v :: vs).map upperHexChar).dropWhile isSpace = (v :: vs).map upperHexChar :=
    List.dropWhile_cons_of_neg (by rw [isSpace_upperHexChar hv]; exact Bool.false_ne_true)
  have hsign : sign ((v :: vs).map upperHexChar) = (false, (v :: vs).map upperHexChar) :=
    sign_upperHexChar hv _
  have hmark := skipHexMark_upperHexChar hlt
  rw [hexToDec, hvs, hspace, List.map_cons]
  dsimp only
  rw [← List.map_cons, hsign]
  dsimp only
  rw [hmark, hdigits]
  dsimp only
  rw [hval, if_neg Bool.false_ne_true]
  congr 1
  omega

theorem decimal_eq (n : ℕ) :
    ∃ vs : List ℕ, decimal n = vs.map (fun d ↦ UInt8.ofNat (48 + d)) ∧ vs ≠ [] ∧
    (∀ v ∈ vs, v < 10) ∧ valueOf 10 vs = n := by
  unfold decimal valueOf
  by_cases h : n = 0
  · exact ⟨[0], by simp [h], by simp, by simp, by simp [h]⟩
  · refine ⟨(Nat.digits 10 n).reverse, if_neg h, ?_, ?_, ?_⟩
    · rwa [Ne, List.reverse_eq_nil_iff, Nat.digits_eq_nil_iff_eq_zero]
    · exact fun v hv ↦ Nat.digits_lt_base (by decide) (List.mem_reverse.mp hv)
    · rw [List.reverse_reverse, Nat.ofDigits_digits]

theorem toText_natCast (n : ℕ) : toText n = decimal n := if_neg (by omega)

theorem scanInt_toText (n : ℕ) {s : Bytes} (h : ∀ b ∈ s.head?, digit b = none) :
    scanInt (toText n ++ s) = some ((n : ℤ), s) := by
  obtain ⟨vs, hvs, hne, hlt, hval⟩ := decimal_eq n
  obtain ⟨v, vs, rfl⟩ := List.exists_cons_of_ne_nil hne
  have hv : v < 10 := hlt v (by simp)
  have hdigits : digits digit ((v :: vs).map (fun d ↦ UInt8.ofNat (48 + d)) ++ s) = (v :: vs, s) :=
    digits_stop (fun w hw ↦ digit_decimal (hlt w hw)) h
  have hspace : ((v :: vs).map (fun d ↦ UInt8.ofNat (48 + d)) ++ s).dropWhile isSpace =
      (v :: vs).map (fun d ↦ UInt8.ofNat (48 + d)) ++ s :=
    List.dropWhile_cons_of_neg (by rw [isSpace_decimal hv]; exact Bool.false_ne_true)
  have hsign : sign ((v :: vs).map (fun d ↦ UInt8.ofNat (48 + d)) ++ s) =
      (false, (v :: vs).map (fun d ↦ UInt8.ofNat (48 + d)) ++ s) := sign_decimal hv _
  rw [toText_natCast, hvs, scanInt, hspace, hsign]
  dsimp only
  rw [hdigits]
  dsimp only
  rw [hval, if_neg Bool.false_ne_true]

theorem scanOctets_text (x : Address) : scanOctets x.text = some x.octets := by
  have hdot (s : Bytes) : ∀ b ∈ (46 :: s : Bytes).head?, digit b = none := by
    rintro b ⟨⟩
    rfl
  have hlast := scanInt_toText x.d.toNat (s := []) nofun
  rw [List.append_nil] at hlast
  simp only [Address.text, List.append_assoc, List.cons_append, List.nil_append, scanOctets]
  rw [scanInt_toText _ (hdot _)]
  change (scanInt (toText x.b.toNat ++ _)).bind _ = _
  rw [scanInt_toText _ (hdot _)]
  change (scanInt (toText x.c.toNat ++ _)).bind _ = _
  rw [scanInt_toText _ (hdot _)]
  change (scanInt (toText x.d.toNat)).bind _ = _
  rw [hlast]
  rfl

def Address.key (x : Address) : Bytes :=
  formatHex 2 x.a.toNat ++
    (formatHex 2 x.b.toNat ++ (formatHex 2 x.c.toNat ++ formatHex 2 x.d.toNat))

theorem length_octet (b : UInt8) : (formatHex 2 b.toNat).length = 2 := by
  have hb := b.toNat_lt
  exact length_formatHex (by decide) hb (by omega)

theorem length_port (p : Fin 65536) : (formatHex 4 (p : ℕ)).length = 4 :=
  length_formatHex (by decide) p.isLt (by omega)

theorem Address.length_key (x : Address) : x.key.length = 8 := by
  simp only [Address.key, List.length_append, length_octet]

theorem hexIp_octets (x : Address) : hexIp x.octets = x.key := by
  simp [hexIp, Address.octets, Address.key, List.take_of_length_le, length_octet]

theorem decodeIp_key (x : Address) : decodeIp x.key = some x.text := by
  have hoctet (b : UInt8) : hexToDec (formatHex 2 b.toNat) = some (b.toNat : ℤ) := by
    have hb := b.toNat_lt
    exact hexToDec_formatHex (by decide) (by omega)
  simp [decodeIp, Address.key, Address.text, List.drop_append, List.drop_of_length_le,
    List.take_of_length_le, length_octet, hoctet]

structure Connection where
  server : Address
  serverPort : Fin 65536
  client : Address
  clientPort : Fin 65536

namespace Connection

variable (c : Connection)

def key : Option Bytes :=
  utilCalConnectKey c.server.text (c.serverPort : ℕ) c.client.text (c.clientPort : ℕ)

def endpoints : Endpoints where
  serverIP := c.server.text
  serverPort := (c.serverPort : ℕ)
  clientIP := c.client.text
  clientPort := (c.clientPort : ℕ)

theorem key_eq : c.key = some (c.server.key ++
    (formatHex 4 (c.serverPort : ℕ) ++ (c.client.key ++ formatHex 4 (c.clientPort : ℕ)))) := by
  have hport (p : Fin 65536) : hexPort (p : ℕ) = formatHex 4 (p : ℕ) :=
    List.take_of_length_le (length_port p).le
  have hkey :
      c.key = some ((hexIp c.server.octets ++ hexPort (c.serverPort : ℕ) ++ hexIp c.client.octets ++
      hexPort (c.clientPort : ℕ)).take 24) := by
    rw [key, utilCalConnectKey, scanOctets_text, scanOctets_text]
    rfl
  rw [hkey, hexIp_octets, hexIp_octets, hport, hport, List.append_assoc, List.append_assoc,
    List.take_of_length_le]
  simp [Address.length_key, length_port]

theorem decodeKey_key {k : Bytes} (h : c.key = some k) :
    k.length = 24 ∧ decodeKey k = some c.endpoints := by
  have hport (p : Fin 65536) : hexToDec (formatHex 4 (p : ℕ)) = some ((p : ℕ) : ℤ) :=
    hexToDec_formatHex (by decide) (by omega)
  rw [key_eq, Option.some_inj] at h
  subst h
  refine ⟨by simp [Address.length_key, length_port], ?_⟩
  simp [decodeKey, endpoints, List.drop_append, List.drop_of_length_le, List.take_of_length_le,
    Address.length_key, length_port, decodeIp_key, hport]

theorem endpoints_injective : Function.Injective endpoints := by
  intro c c' h
  have htext {x y : Address} (hxy : x.text = y.text) : x = y := by
    have hoctets := congrArg scanOctets hxy
    rw [scanOctets_text, scanOctets_text, Option.some_inj] at hoctets
    obtain ⟨a, b, c, d⟩ := x
    obtain ⟨a', b', c', d'⟩ := y
    simpa [Address.octets, UInt8.toNat_inj] using hoctets
  obtain ⟨server, serverPort, client, clientPort⟩ := c
  obtain ⟨server', serverPort', client', clientPort'⟩ := c'
  simp only [endpoints, Endpoints.mk.injEq, Nat.cast_inj, Fin.val_inj] at h
  obtain ⟨hserver, rfl, hclient, rfl⟩ := h
  rw [htext hserver, htext hclient]

end Connection

/-- The key tells the two ends of the connection, and no other connection has it. -/
theorem connect_keys :
    (∀ c : Connection, ∃ k, c.key = some k ∧ k.length = 24 ∧ decodeKey k = some c.endpoints) ∧
    Function.Injective Connection.key := by
  refine ⟨fun c ↦ ⟨_, c.key_eq, c.decodeKey_key c.key_eq⟩, fun c c' h ↦ ?_⟩
  have hdecode := (c.decodeKey_key c.key_eq).2
  rw [(c'.decodeKey_key (h.symm.trans c.key_eq)).2] at hdecode
  exact Connection.endpoints_injective (Option.some_inj.mp hdecode).symm

end NavCaster.Base.ConnectKey
