import NavCaster.Base.MessageInterval
import NavCaster.Library.BitString

namespace NavCaster.Base.Layout

open NavCaster.Library.BitString
open NavCaster.Library.Strto (Bytes)
open NavCaster.Base.Bits
open NavCaster.Base.Rtcm

structure Signed (n : ℕ) where
  value : ℤ
  ge : -2 ^ (n - 1) ≤ value
  lt : value < 2 ^ (n - 1)

def Signed.bits {n : ℕ} (x : Signed n) : List Bool := toBits n (x.value % 2 ^ n).toNat

structure ReferencePoint where
  stationId : Fin (2 ^ 12)
  realizationYear : Fin (2 ^ 6)
  gps : Bool
  glo : Bool
  gal : Bool
  referenceStation : Bool
  x : Signed 38
  singleOscillator : Bool
  reserved : Bool
  y : Signed 38
  quarterCycle : Fin (2 ^ 2)
  z : Signed 38

structure PhysicalReference where
  nonPhysicalId : Fin (2 ^ 12)
  stationId : Fin (2 ^ 12)
  epochYear : Fin (2 ^ 6)
  x : Signed 38
  y : Signed 38
  z : Signed 38

def ReferencePoint.bits (number : ℕ) (p : ReferencePoint) : List Bool :=
  toBits 12 number ++
    (toBits 12 p.stationId ++ (toBits 6 p.realizationYear ++ ([p.gps] ++ ([p.glo] ++
    ([p.gal] ++ ([p.referenceStation] ++ (p.x.bits ++ ([p.singleOscillator] ++ ([p.reserved] ++
      (p.y.bits ++ (toBits 2 p.quarterCycle ++ p.z.bits)))))))))))

def encodeM1005 (p : ReferencePoint) : List Bool := p.bits 1005

def encodeM1006 (p : ReferencePoint) (antennaHeight : Fin (2 ^ 16)) : List Bool :=
  p.bits 1006 ++ toBits 16 antennaHeight

def encodeM1032 (p : PhysicalReference) : List Bool :=
  toBits 12 1032 ++ (toBits 12 p.nonPhysicalId ++ (toBits 12 p.stationId ++ (toBits 6 p.epochYear ++
    (p.x.bits ++ (p.y.bits ++ p.z.bits)))))

/-- A message with three bytes before its fields, and with any bytes behind them. -/
def message (b0 b1 b2 : UInt8) (fields : List Bool) (parity : Bytes) : Bytes :=
  b0 :: b1 :: b2 :: (pack fields ++ parity)

def Yields {α : Type} (data : Bytes) (bits : List Bool) (m : Reader α) (a : α) : Prop :=
  ∀ pos rest, (unpack data).drop pos = bits ++ rest → m pos = some (a, pos + bits.length)

variable {α β : Type} {data : Bytes} {bits bits' : List Bool}

theorem yields_pure (a : α) : Yields data [] (pure a) a :=
  fun _ _ _ ↦ rfl

theorem yields_bind {m : Reader α} {f : α → Reader β} {a : α} {b : β} (hm : Yields data bits m a)
    (hf : Yields data bits' (f a) b) : Yields data (bits ++ bits') (m >>= f) b := by
  intro pos rest h
  rw [List.append_assoc] at h
  have hdrop : (unpack data).drop (pos + bits.length) = bits' ++ rest := by
    rw [← List.drop_drop, h, List.drop_left]
  change (m pos).bind (fun p ↦ f p.1 p.2) = _
  rw [hm pos _ h]
  change f a (pos + bits.length) = _
  rw [hf _ _ hdrop, List.length_append, Nat.add_assoc]

theorem yields_append_nil {m : Reader α} {a : α} (h : Yields data (bits ++ []) m a) :
    Yields data bits m a :=
  List.append_nil bits ▸ h

theorem foldlM_bits (bits rest : List Bool) (pos acc : ℕ)
    (h : (unpack data).drop pos = bits ++ rest) (hacc : (acc + 1) * 2 ^ bits.length ≤ 2 ^ 64) :
    (List.range' pos bits.length).foldlM
      (fun bits i ↦ do
        let b ← data[i / 8]?
        return (bits * 2 + b.toNat / 2 ^ (7 - i % 8) % 2) % 2 ^ 64)
      acc = some (bits.foldl push acc) := by
  induction bits generalizing pos acc with
  | nil => rfl
  | cons b bits ih =>
    have hbit : (unpack data)[pos]? = some b := by
      rw [← Nat.add_zero pos, ← List.getElem?_drop, h]
      rfl
    rw [getElem?_unpack] at hbit
    obtain ⟨byte, hbyte, hb⟩ := Option.map_eq_some_iff.mp hbit
    have hdrop : (unpack data).drop (pos + 1) = bits ++ rest := by
      rw [← List.drop_drop, h]
      rfl
    have hroom : (push acc b + 1) * 2 ^ bits.length ≤ 2 ^ 64 := by
      have hle : push acc b + 1 ≤ (acc + 1) * 2 := by
        have hb := Bool.toNat_le b
        unfold push
        omega
      rw [List.length_cons, pow_succ', ← Nat.mul_assoc] at hacc
      exact (Nat.mul_le_mul_right _ hle).trans hacc
    have hlt : push acc b < 2 ^ 64 :=
      (Nat.le_mul_of_pos_right (push acc b + 1) (Nat.two_pow_pos bits.length)).trans hroom
    have hpush : (acc * 2 + byte.toNat / 2 ^ (7 - pos % 8) % 2) % 2 ^ 64 = push acc b := by
      rw [← Nat.toNat_testBit, hb, Nat.mul_comm acc]
      exact Nat.mod_eq_of_lt hlt
    rw [List.length_cons, List.range'_succ, List.foldlM_cons, hbyte]
    change List.foldlM _ ((acc * 2 + byte.toNat / 2 ^ (7 - pos % 8) % 2) % 2 ^ 64) _ = _
    rw [hpush, ih (pos + 1) (push acc b) hdrop hroom, List.foldl_cons]

theorem yields_utilGetbitu64Auto {n v : ℕ} (hn : n ≤ 64) (hv : v < 2 ^ n) :
    Yields data (toBits n v) (utilGetbitu64Auto data n) v := by
  intro pos rest h
  have hlen := length_toBits n v
  have hread : utilGetbitu64 data pos n = some v := by
    have hfold := foldlM_bits (toBits n v) rest pos 0 h
      (by rw [hlen, Nat.zero_add, Nat.one_mul]; exact Nat.pow_le_pow_right (by omega) hn)
    rw [hlen] at hfold
    rw [utilGetbitu64, hfold, ← ofBits, ofBits_toBits, Nat.mod_eq_of_lt hv]
  rw [utilGetbitu64Auto, hread, hlen]
  rfl

theorem yields_bit (b : Bool) : Yields data [b] (utilGetbitu64Auto data 1) b.toNat := by
  have hbit : toBits 1 b.toNat = [b] := by
    cases b <;> rfl
  have hone : Yields data (toBits 1 b.toNat) (utilGetbitu64Auto data 1) b.toNat :=
    yields_utilGetbitu64Auto (by decide) (Bool.toNat_lt b)
  rwa [hbit] at hone

theorem Signed.code_lt {n : ℕ} (x : Signed n) : (x.value % 2 ^ n).toNat < 2 ^ n := by
  have hmod := Int.emod_lt_of_pos x.value (pow_pos (by decide : (0 : ℤ) < 2) n)
  have hpos := Int.emod_nonneg x.value (pow_ne_zero n (by decide : (2 : ℤ) ≠ 0))
  zify
  rwa [Int.toNat_of_nonneg hpos]

theorem extendSign_code {n : ℕ} (hn : 0 < n) (hn' : n < 64) (x : Signed n) :
    extendSign (x.value % 2 ^ n).toNat n = x.value := by
  obtain ⟨k, rfl⟩ := Nat.exists_eq_succ_of_ne_zero hn.ne'
  obtain ⟨v, hge, hlt⟩ := x
  have hpow : 2 ^ k ≤ 2 ^ 62 := Nat.pow_le_pow_right (by decide) (by omega)
  have hpos : 0 < 2 ^ k := Nat.two_pow_pos k
  have hcast : ((2 ^ k : ℕ) : ℤ) = 2 ^ k := by push_cast; rfl
  rw [Nat.succ_sub_one, ← hcast] at hge hlt
  dsimp only
  rw [Nat.succ_eq_add_one, pow_succ, ← hcast]
  unfold extendSign
  rw [pow_succ, Nat.add_sub_cancel]
  generalize 2 ^ k = p at *
  rcases Int.lt_or_le v 0 with hneg | hnonneg
  · have hcode : v % (p * 2 : ℤ) = v + p * 2 := by
      rw [← Int.add_emod_right, Int.emod_eq_of_lt (by omega) (by omega)]
    have hhigh : (v + p * 2).toNat / p = 1 := Nat.div_eq_of_lt_le (by omega) (by omega)
    rw [hcode, hhigh, if_neg (by omega)]
    omega
  · have hcode : v % (p * 2 : ℤ) = v := Int.emod_eq_of_lt hnonneg (by omega)
    have hlow : v.toNat / p = 0 := Nat.div_eq_of_lt (by omega)
    rw [hcode, hlow, if_pos (.inr (.inr rfl)), if_pos (by omega)]
    omega

theorem yields_utilGetbits64Auto {n : ℕ} (hn : 0 < n) (hn' : n < 64) (x : Signed n) :
    Yields data x.bits (utilGetbits64Auto data n) x.value := by
  intro pos rest h
  have hread := yields_utilGetbitu64Auto hn'.le x.code_lt pos rest h
  obtain ⟨bits, hbits, heq⟩ := Option.map_eq_some_iff.mp hread
  obtain ⟨hcode, hpos⟩ := Prod.mk.inj heq
  rw [utilGetbits64Auto, utilGetbits64, hbits, hcode, hpos, Option.map_some, Option.map_some,
    extendSign_code hn hn']
  rfl

theorem yields_readStation {number : ℕ} (h : number < 2 ^ 12) (p : ReferencePoint) :
    Yields data (p.bits number) (readStation data)
      { gps := p.gps, glo := p.glo, gal := p.gal, ecef := ⟨p.x.value, p.y.value, p.z.value⟩ } := by
  have hflag (b : Bool) : decide (b.toNat ≠ 0) = b := by
    cases b <;> rfl
  have hstation : Yields data (p.bits number) (readStation data) _ :=
    yields_bind (yields_utilGetbitu64Auto (by decide) h) <|
    yields_bind (yields_utilGetbitu64Auto (by decide) p.stationId.isLt) <|
    yields_bind (yields_utilGetbitu64Auto (by decide) p.realizationYear.isLt) <|
    yields_bind (yields_bit p.gps) <|
    yields_bind (yields_bit p.glo) <|
    yields_bind (yields_bit p.gal) <|
    yields_bind (yields_bit p.referenceStation) <|
    yields_bind (yields_utilGetbits64Auto (by decide) (by decide) p.x) <|
    yields_bind (yields_bit p.singleOscillator) <|
    yields_bind (yields_bit p.reserved) <|
    yields_bind (yields_utilGetbits64Auto (by decide) (by decide) p.y) <|
    yields_bind (yields_utilGetbitu64Auto (by decide) p.quarterCycle.isLt) <|
    yields_append_nil <|
    yields_bind (yields_utilGetbits64Auto (by decide) (by decide) p.z) (yields_pure _)
  rwa [hflag, hflag, hflag] at hstation

theorem yields_decodeM1006 (p : ReferencePoint) (antennaHeight : Fin (2 ^ 16)) :
    Yields data (encodeM1006 p antennaHeight) (decodeM1006 data)
      { gps := p.gps, glo := p.glo, gal := p.gal, ecef := ⟨p.x.value, p.y.value, p.z.value⟩ } :=
  yields_bind (yields_readStation (by decide) p) <|
  yields_append_nil <|
  yields_bind (yields_utilGetbitu64Auto (by decide) antennaHeight.isLt) (yields_pure _)

theorem yields_decodeM1032 (p : PhysicalReference) :
    Yields data (encodeM1032 p) (decodeM1032 data) { ecef := ⟨p.x.value, p.y.value, p.z.value⟩ } :=
  yields_bind (yields_utilGetbitu64Auto (by decide) (by decide)) <|
  yields_bind (yields_utilGetbitu64Auto (by decide) p.nonPhysicalId.isLt) <|
  yields_bind (yields_utilGetbitu64Auto (by decide) p.stationId.isLt) <|
  yields_bind (yields_utilGetbitu64Auto (by decide) p.epochYear.isLt) <|
  yields_bind (yields_utilGetbits64Auto (by decide) (by decide) p.x) <|
  yields_bind (yields_utilGetbits64Auto (by decide) (by decide) p.y) <|
  yields_append_nil <|
  yields_bind (yields_utilGetbits64Auto (by decide) (by decide) p.z) (yields_pure _)

theorem exists_fields (b0 b1 b2 : UInt8) (fields : List Bool) (parity : Bytes) :
    ∃ rest, (unpack (message b0 b1 b2 fields parity)).drop (3 * 8) = fields ++ rest := by
  obtain ⟨rest, hrest⟩ := prefix_unpack_pack fields
  refine ⟨rest ++ unpack parity, ?_⟩
  have hstart : unpack (message b0 b1 b2 fields parity) =
      unpack [b0, b1, b2] ++ (unpack (pack fields) ++ unpack parity) := by
    rw [← unpack_append, ← unpack_append]
    rfl
  have hlen : 3 * 8 = (unpack [b0, b1, b2]).length := by
    rw [length_unpack]
    rfl
  rw [hstart, hlen, List.drop_left, ← hrest, List.append_assoc]

theorem messageNumber_eq {number : ℕ} {rest : List Bool} {msg : Bytes} (h : number < 2 ^ 12)
    (hbits : (unpack msg).drop (3 * 8) = toBits 12 number ++ rest) :
    messageNumber msg = number := by
  have hlen := congrArg List.length hbits
  rw [List.length_drop, length_unpack, List.length_append, length_toBits] at hlen
  match msg with
  | [] | [_] | [_, _] | [_, _, _] | [_, _, _, _] =>
    simp only [List.length_cons, List.length_nil] at hlen
    omega
  | b0 :: b1 :: b2 :: b3 :: b4 :: msg =>
    have hdrop : (unpack (b0 :: b1 :: b2 :: b3 :: b4 :: msg)).drop (3 * 8) =
        toBits 8 b3.toNat ++ (toBits 8 b4.toNat ++ unpack msg) := rfl
    have htake : toBits 8 b3.toNat ++ (toBits 8 b4.toNat).take 4 = toBits 12 number :=
      congrArg (List.take 12) (hdrop.symm.trans hbits)
    have hhigh := congrArg ofBits (List.take_append_drop 4 (toBits 8 b4.toNat))
    have hlow := ofBits_lt ((toBits 8 b4.toNat).drop 4)
    have hnumber := congrArg ofBits htake
    rw [ofBits_append, ofBits_toBits] at hhigh hnumber
    rw [ofBits_toBits, Nat.mod_eq_of_lt h, List.length_take, length_toBits] at hnumber
    change b3.toNat % 2 ^ 8 * 2 ^ 4 + _ = number at hnumber
    rw [List.length_drop, length_toBits] at hhigh hlow
    have hb3 := b3.toNat_lt
    have hb4 := b4.toNat_lt
    have hor : b3.toNat <<< 4 ||| b4.toNat >>> 4 = b3.toNat * 16 + b4.toNat / 16 := by
      rw [Nat.shiftLeft_eq, Nat.shiftRight_eq_div_pow, Nat.mul_comm,
        ← Nat.two_pow_add_eq_or_of_lt (by omega), Nat.mul_comm]
    rw [messageNumber, hor]
    omega

theorem decodeMessage_message {number : ℕ} {fields : List Bool} {decoder : Bytes → Reader Station}
    {station : Station} {st : DecodeRtcm} {now : ℤ} (b0 b1 b2 : UInt8) (parity : Bytes)
    (hnumber : number < 2 ^ 12) (hobserve : st.systems.observe number = st.systems)
    (hdecoder : fieldDecoder number = some decoder) (hstart : toBits 12 number <+: fields)
    (hyields : ∀ msg, Yields msg fields (decoder msg) station) :
    let msg := message b0 b1 b2 fields parity
    ∃ st', { st with msg }.decodeMessage now (messageNumber msg) = some st' ∧
      st'.position = some station.ecef ∧
      st'.systems = { st.systems with
        gps := station.gps || st.systems.gps
        glo := station.glo || st.systems.glo
        gal := station.gal || st.systems.gal } := by
  intro msg
  obtain ⟨rest, hbits⟩ := exists_fields b0 b1 b2 fields parity
  have hfields : decodeFields decoder msg = some station := by
    rw [decodeFields, hyields msg _ rest hbits]
    rfl
  obtain ⟨more, rfl⟩ := hstart
  rw [List.append_assoc] at hbits
  rw [messageNumber_eq hnumber hbits]
  obtain ⟨stat, -, hrecord⟩ := MessageInterval.exists_recordStat st.msgStats number now
  simp only [DecodeRtcm.decodeMessage, hrecord, hobserve, hdecoder, hfields]
  exact ⟨_, rfl, rfl, rfl⟩

/-- The position of a station comes through its messages as it is, and so do the satellite systems
that messages 1005 and 1006 tell of, which are added to those known before. -/
theorem station_round_trip (b0 b1 b2 : UInt8) (parity : Bytes) (now : ℤ) (st : DecodeRtcm) :
    (∀ p : ReferencePoint,
      let msg := message b0 b1 b2 (encodeM1005 p) parity
      ∃ st', { st with msg }.decodeMessage now (messageNumber msg) = some st' ∧
        st'.position = some ⟨p.x.value, p.y.value, p.z.value⟩ ∧
        st'.systems = { st.systems with
          gps := p.gps || st.systems.gps, glo := p.glo || st.systems.glo,
          gal := p.gal || st.systems.gal }) ∧
    (∀ (p : ReferencePoint) (antennaHeight : Fin (2 ^ 16)),
      let msg := message b0 b1 b2 (encodeM1006 p antennaHeight) parity
      ∃ st', { st with msg }.decodeMessage now (messageNumber msg) = some st' ∧
        st'.position = some ⟨p.x.value, p.y.value, p.z.value⟩ ∧
        st'.systems = { st.systems with
          gps := p.gps || st.systems.gps, glo := p.glo || st.systems.glo,
          gal := p.gal || st.systems.gal }) ∧
    ∀ p : PhysicalReference,
      let msg := message b0 b1 b2 (encodeM1032 p) parity
      ∃ st', { st with msg }.decodeMessage now (messageNumber msg) = some st' ∧
        st'.position = some ⟨p.x.value, p.y.value, p.z.value⟩ ∧ st'.systems = st.systems := by
  refine ⟨fun p ↦ ?_, fun p antennaHeight ↦ ?_, fun p ↦ ?_⟩
  · exact decodeMessage_message b0 b1 b2 parity (by decide) rfl rfl ⟨_, rfl⟩
      fun _ ↦ yields_readStation (by decide) p
  · exact decodeMessage_message b0 b1 b2 parity (by decide) rfl rfl
      ⟨_, (List.append_assoc _ _ _).symm⟩
      fun _ ↦ yields_decodeM1006 p antennaHeight
  · exact decodeMessage_message b0 b1 b2 parity (by decide) rfl rfl ⟨_, rfl⟩ fun _ ↦
      yields_decodeM1032 p

end NavCaster.Base.Layout
