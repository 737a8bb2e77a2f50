import NavCaster.Base.Extraction
import NavCaster.Library.Crc

namespace NavCaster.Base.Completeness

open NavCaster.Library
open NavCaster.Library.Crc
open Polynomial
open NavCaster.Library.Strto (Bytes)
open NavCaster.Base.Rtcm
open NavCaster.Base.Station
open NavCaster.Base.Extraction

def crc24q : Generator 24 where
  bits := 0x1864CFB
  le := by norm_num
  lt := by norm_num

def octets (bytes : Bytes) : List ℕ := bytes.map UInt8.toNat

theorem octets_lt (bytes : Bytes) : ∀ b ∈ octets bytes, b < 256 := by
  intro b hb
  obtain ⟨c, -, rfl⟩ := List.mem_map.mp hb
  exact c.toNat_lt

theorem crcBit_toNat {crc : UInt32} (h : crc.toNat < 2 ^ 24) :
    (crcBit crc).toNat = step crc24q crc.toNat := by
  have hshift : (crc <<< 1).toNat = crc.toNat <<< 1 := by
    rw [UInt32.toNat_shiftLeft, Nat.shiftLeft_eq, Nat.shiftLeft_eq]
    exact Nat.mod_eq_of_lt (by change crc.toNat * 2 < _; omega)
  have hbit : (crc <<< 1 &&& 0x1000000 ≠ 0) ↔ (crc.toNat <<< 1).testBit 24 = true := by
    rw [← hshift, Ne, ← UInt32.toNat_inj, UInt32.toNat_and]
    change ¬ (crc <<< 1).toNat &&& 2 ^ 24 = 0 ↔ _
    rw [Nat.and_two_pow]
    cases (crc <<< 1).toNat.testBit 24 <;> simp
  unfold crcBit step
  dsimp only
  by_cases hset : (crc.toNat <<< 1).testBit 24 = true
  · rw [if_pos (hbit.mpr hset), if_pos hset, UInt32.toNat_xor, hshift]
    rfl
  · rw [if_neg (mt hbit.mp hset), if_neg hset, hshift]

theorem shiftLeft_toNat (b : UInt8) {k : UInt32} (hk : k.toNat ≤ 16) :
    (b.toUInt32 <<< k).toNat = b.toNat <<< k.toNat := by
  have hk' : k.toNat % 32 = k.toNat := Nat.mod_eq_of_lt (by omega)
  rw [UInt32.toNat_shiftLeft, UInt8.toNat_toUInt32, hk']
  refine Nat.mod_eq_of_lt ?_
  rw [Nat.shiftLeft_eq]
  calc b.toNat * 2 ^ k.toNat ≤ 255 * 2 ^ 16 :=
        Nat.mul_le_mul (Nat.le_of_lt_succ b.toNat_lt) (Nat.pow_le_pow_right Nat.two_pos hk)
    _ < 2 ^ 32 := by norm_num

theorem crcByte_toNat {crc : UInt32} (h : crc.toNat < 2 ^ 24) (b : UInt8) :
    (crcByte crc b).toNat = stepByte crc24q crc.toNat b.toNat := by
  have hb : (b.toUInt32 <<< 16).toNat = b.toNat <<< 16 := shiftLeft_toNat b le_rfl
  have hiter : ∀ k (c : UInt32), c.toNat < 2 ^ 24 →
      (crcBit^[k] c).toNat = (step crc24q)^[k] c.toNat := by
    intro k
    induction k with
    | zero => exact fun _ _ ↦ rfl
    | succ k ih =>
      intro c hc
      have hbit := crcBit_toNat hc
      rw [Function.iterate_succ_apply, ih _ (hbit ▸ step_lt hc), hbit, Function.iterate_succ_apply]
  have hlt : b.toNat <<< 16 < 2 ^ 24 := by
    have hlt := b.toNat_lt
    rw [Nat.shiftLeft_eq]
    omega
  have hxor : (crc ^^^ b.toUInt32 <<< 16).toNat = crc.toNat ^^^ b.toNat <<< 16 := by
    rw [UInt32.toNat_xor, hb]
  unfold crcByte stepByte
  rw [hiter 8 _ (hxor ▸ Nat.xor_lt_two_pow h hlt), hxor]

theorem foldl_crcByte {crc : UInt32} (h : crc.toNat < 2 ^ 24) (buf : Bytes) :
    (buf.foldl crcByte crc).toNat = (octets buf).foldl (stepByte crc24q) crc.toNat := by
  induction buf generalizing crc with
  | nil => rfl
  | cons b buf ih =>
    have hbyte := crcByte_toNat h b
    have hlt : (crcByte crc b).toNat < 2 ^ 24 := by
      have hone := foldl_stepByte (g := crc24q) (by norm_num) h (octets_lt [b])
      exact hbyte ▸ hone.1
    rw [List.foldl_cons, ih hlt, hbyte]
    rfl

/-- The code's register holds the remainder. -/
theorem poly_calCRC24 (buf : Bytes) :
    poly (calCRC24 buf).toNat = (message (octets buf) * X ^ 24) %ₘ poly crc24q.bits := by
  rw [calCRC24, foldl_crcByte (by decide) buf, UInt32.toNat_zero]
  exact poly_foldl_stepByte (by norm_num) (octets_lt buf)

/-- A frame as a sender makes it. -/
structure Frame where
  payload : Bytes
  parity : Bytes
  two_le : 2 ≤ payload.length
  le : payload.length ≤ 1023
  three : parity.length = 3
  check :
    message (octets parity) =
      (message (octets ([0xD3, .ofNat (payload.length / 256), .ofNat payload.length] ++ payload)) *
        X ^ 24) %ₘ
        poly crc24q.bits

def Frame.header (f : Frame) : Bytes :=
  [0xD3, .ofNat (f.payload.length / 256), .ofNat f.payload.length]

def Frame.bytes (f : Frame) : Bytes := f.header ++ f.payload ++ f.parity

theorem length_bytes (f : Frame) : f.bytes.length = f.payload.length + 6 := by
  simp [Frame.bytes, Frame.header, f.three]

theorem checkHeader_bytes (f : Frame) : checkHeader f.bytes = f.bytes.length := by
  have hle := f.le
  have hlow : (UInt8.ofNat f.payload.length).toNat < 2 ^ 8 := UInt8.toNat_lt _
  have hhigh : (UInt8.ofNat (f.payload.length / 256) &&& 3).toNat = f.payload.length / 256 := by
    have hand := Nat.and_two_pow_sub_one_eq_mod (f.payload.length / 256) 2
    rw [UInt8.toNat_and, UInt8.toNat_ofNat', Nat.mod_eq_of_lt (by omega)]
    change f.payload.length / 256 &&& 2 ^ 2 - 1 = _
    rw [hand]
    omega
  rw [length_bytes]
  change 3 + ((UInt8.ofNat (f.payload.length / 256) &&& 3).toNat <<< 8 |||
    (UInt8.ofNat f.payload.length).toNat) + 3 = _
  rw [← Nat.shiftLeft_add_eq_or_of_lt hlow, hhigh, UInt8.toNat_ofNat', Nat.shiftLeft_eq]
  omega

theorem parity_toNat {bytes : Bytes} (h : bytes.length = 3) :
    ∃ crc, parity bytes = some crc ∧ poly crc.toNat = message (octets bytes) := by
  obtain ⟨c₀, c₁, c₂, rfl⟩ := List.length_eq_three.mp h
  have h₁ : c₁.toNat <<< 8 < 2 ^ 16 := by
    have hlt := c₁.toNat_lt
    rw [Nat.shiftLeft_eq]
    omega
  have hcrc : (c₀.toUInt32 <<< 16 ||| c₁.toUInt32 <<< 8 ||| c₂.toUInt32).toNat =
      c₀.toNat <<< 16 ||| (c₁.toNat <<< 8 ||| c₂.toNat) := by
    have h₁₆ : (c₀.toUInt32 <<< 16).toNat = c₀.toNat <<< 16 := shiftLeft_toNat c₀ le_rfl
    have h₈ : (c₁.toUInt32 <<< 8).toNat = c₁.toNat <<< 8 := shiftLeft_toNat c₁ (by decide)
    rw [UInt32.toNat_or, UInt32.toNat_or, h₁₆, h₈, UInt8.toNat_toUInt32, Nat.or_assoc]
  have h₂ := Nat.or_lt_two_pow h₁ (c₂.toNat_lt.trans (by norm_num : 2 ^ 8 < 2 ^ 16))
  refine ⟨_, rfl, ?_⟩
  rw [hcrc, poly_or h₂, poly_or c₂.toNat_lt]
  simp [octets, message]

theorem check_of_parity {buf bytes : Bytes} (hlen : bytes.length = 3)
    (h : parity bytes = some (calCRC24 buf)) :
    message (octets bytes) = (message (octets buf) * X ^ 24) %ₘ poly crc24q.bits := by
  obtain ⟨crc, hparity, hpoly⟩ := parity_toNat hlen
  rw [← hpoly, ← poly_calCRC24, Option.some_inj.mp (hparity.symm.trans h)]

theorem extracted_bytes (f : Frame) : Extracted f.bytes := by
  have hheader := checkHeader_bytes f
  have hlength := length_bytes f
  refine { start := by omega, length := hheader, check := ?_ }
  have hsplit : checkHeader f.bytes - 3 = (f.header ++ f.payload).length := by
    rw [hheader, hlength, List.length_append]
    change _ = 3 + _
    omega
  obtain ⟨crc, hparity, hpoly⟩ := parity_toNat f.three
  simp only [crcMatches]
  rw [hsplit, Frame.bytes, List.drop_left, List.take_left, hparity, decide_eq_true_eq,
    Option.some_inj, ← UInt32.toNat_inj]
  refine poly_injective ?_
  rw [hpoly, poly_calCRC24, f.check]
  rfl

def compose (items : List (Bytes × Frame)) : Bytes := items.flatMap fun p ↦ p.1 ++ p.2.bytes

theorem next_extracted {msg : Bytes} (hmsg : Extracted msg) (rest : Bytes) :
    next (msg ++ rest) = some ([msg], msg.length) := by
  have hsix := hmsg.length ▸ le_checkHeader hmsg.start
  have hmin : ¬ msg.length ≤ msgMinLength := by
    unfold msgMinLength
    omega
  have hzero : msg ≠ [] := by
    intro hnil
    simp [hnil] at hsix
  refine next_append rest ?_
  simp [next, hmin, hzero, hmsg.length, hmsg.check]

theorem next_junk {b : UInt8} {data : Bytes} (hb : b ≠ 0xD3) (hdata : 3 ≤ data.length) :
    next (b :: data) = some ([], 1) := by
  have hmin : msgMinLength ≤ data.length := hdata
  have hheader : checkHeader (b :: data) = 0 := by
    obtain _ | ⟨b₁, _ | ⟨b₂, rest⟩⟩ := data <;> simp [checkHeader, hb]
  simp [next, hmin, hheader]

theorem scan_junk {junk data : Bytes} (hjunk : 0xD3 ∉ junk) (hdata : 3 ≤ data.length) :
    scanner.scan (junk ++ data) = scanner.scan data := by
  induction junk with
  | nil => rfl
  | cons b junk ih =>
    rw [List.mem_cons, not_or] at hjunk
    have hlen : 3 ≤ (junk ++ data).length := by
      rw [List.length_append]
      omega
    have hnext := next_junk (Ne.symm hjunk.1) hlen
    rw [List.cons_append, Scanner.scan_some (S := scanner) hnext, List.drop_one, List.tail_cons,
      ih hjunk.2]
    rfl

theorem scan_compose {items : List (Bytes × Frame)} (hjunk : ∀ p ∈ items, 0xD3 ∉ p.1) :
    scanner.scan (compose items) = (items.map fun p ↦ p.2.bytes, []) := by
  induction items with
  | nil => exact Scanner.scan_none (S := scanner) rfl
  | cons p items ih =>
    have hlen : 3 ≤ (p.2.bytes ++ compose items).length := by
      rw [List.length_append, length_bytes]
      omega
    have hnext := next_extracted (extracted_bytes p.2) (compose items)
    rw [compose, List.flatMap_cons, List.append_assoc, ← compose,
      scan_junk (hjunk p List.mem_cons_self) hlen, Scanner.scan_some (S := scanner) hnext,
      List.drop_left, ih fun q hq ↦ hjunk q (List.mem_cons_of_mem _ hq)]
    rfl

def count (st : DecodeRtcm) (id : Nat) : ℤ := (entry st.msgStats id).count

structure Tallies (st : DecodeRtcm) (r : Run) : Prop where
  number : ∀ msg ∈ r.passed, messageNumber msg ≠ 0
  count : ∀ st', r.left = some st' → ∀ (id : Nat) (c : ℤ), count st id = int32 c →
    count st' id = int32 (c + (r.passed.map messageNumber).count id)

variable {st st' : DecodeRtcm} {clock : Nat → Int} {now : Int} {fuel : Nat}

theorem arrive_count {stat stat' : MsgStat} (h : stat.arrive now = some stat') :
    stat'.count = int32 (stat.count + 1) := by
  obtain ⟨first, hfirst, hcount⟩ : ∃ first : MsgStat,
      (if stat.count = 0 then { stat with firstTime := now } else stat) = first ∧
      first.count = stat.count := by
    split <;> exact ⟨_, rfl, rfl⟩
  unfold MsgStat.arrive at h
  simp only [hfirst, hcount] at h
  split at h
  · cases h
    rfl
  · split at h
    · split at h
      · cases h
      · cases h
        rfl
    · cases h
      rfl

theorem int32_succ (c : ℤ) : int32 (int32 c + 1) = int32 (c + 1) := Int.bmod_add_bmod

theorem int32_eq_iff (n : Nat) : int32 n = n ↔ n < 2 ^ 31 := by
  unfold int32
  rw [Int.bmod_eq_iff (by decide)]
  omega

theorem count_decodeMessage {id : Nat} (h : st.decodeMessage now id = some st') (id' : Nat) {c : ℤ}
    (hc : count st id' = int32 c) : count st' id' = int32 (c + if id = id' then 1 else 0) := by
  have hrecord := (decodeMessage_some h).2.2
  obtain ⟨stat, harrive, hinsert⟩ := MessageInterval.exists_recordStat st.msgStats id now
  rw [hinsert, Option.some_inj] at hrecord
  unfold count
  rw [← hrecord, MessageInterval.entry_insert]
  by_cases hid : id = id'
  · subst hid
    have hsucc := congrArg (fun n ↦ int32 (n + 1)) hc
    rw [if_pos rfl, if_pos rfl, arrive_count harrive]
    exact hsucc.trans (int32_succ c)
  · have hne : ¬ (id' : ℤ) = id := fun h ↦ hid (Int.ofNat_inj.mp h).symm
    rw [if_neg hne, if_neg hid, add_zero]
    exact hc

theorem tallies_congr {r : Run} (h : Tallies st' r) (hcount : ∀ id, count st id = count st' id) :
    Tallies st r where
  number := h.number
  count s hs id c hc := h.count s hs id c ((hcount id).symm.trans hc)

theorem tallies_stop (hstats : st'.msgStats = st.msgStats) : Tallies st { left := some st' } where
  number := by simp
  count := by
    rintro _ ⟨⟩ id c hc
    simpa [count, hstats] using hc

theorem tallies_loop (st : DecodeRtcm) (hfront : st.recycleFront = []) :
    Tallies st (loop clock false fuel st) := by
  induction fuel generalizing st with
  | zero => exact tallies_stop rfl
  | succ fuel ih =>
    rcases next_cases st.data with hnone | ⟨hskip, -⟩ | ⟨msg, rest, -, hdata, hmsg⟩
    · obtain ⟨s, hloop, -, -, hstats⟩ := loop_stop hfront hnone
      exact hloop ▸ tallies_stop hstats
    · rw [loop_skip hskip]
      exact tallies_congr (ih st.dropFront hfront) fun _ ↦ rfl
    · rw [loop_take hdata hmsg]
      split
      · split
        · exact { number := by simp, count := by simp }
        · have hdrop := ih { st with msg, data := rest }.dropFront hfront
          exact tallies_congr hdrop fun _ ↦ rfl
      · next hnumber =>
        split
        · exact { number := by simpa using hnumber, count := by simp }
        · next st' hst' =>
          have hrest := ih { st' with msg := [] } ((decodeMessage_some hst').2.1.trans hfront)
          refine { number := ?_, count := fun s hs id c hc ↦ ?_ }
          · simpa [hnumber] using hrest.number
          · have hone := count_decodeMessage hst' id (c := c) hc
            have hcount := hrest.count s hs id _ hone
            rw [hcount, List.map_cons, List.count_cons]
            simp only [beq_iff_eq]
            congr 1
            split <;> push_cast <;> omega

theorem tallies_decode (st : DecodeRtcm) (clock : Nat → Int) (chunk : Bytes) :
    Tallies st (st.decode clock chunk) := by
  let st' : DecodeRtcm :=
    { st with data := st.pending chunk false, recycleBack := [], recycleFront := [] }
  exact tallies_congr (tallies_loop st' rfl) fun _ ↦ rfl

theorem tallies_decodeAll (st : DecodeRtcm) (chunks : List ((Nat → Int) × Bytes)) :
    Tallies st (decodeAll st chunks) := by
  induction chunks generalizing st with
  | nil => exact tallies_stop rfl
  | cons p chunks ih =>
    have hfirst := tallies_decode st p.1 p.2
    simp only [decodeAll]
    split
    · exact hfirst
    · next st' hst' =>
      have hrest := ih st'
      refine { number := fun msg hmsg ↦ ?_, count := fun s hs id c hc ↦ ?_ }
      · rcases List.mem_append.mp hmsg with h | h
        · exact hfirst.number msg h
        · exact hrest.number msg h
      · have hcount := hrest.count s hs id _ (hfirst.count st' hst' id c hc)
        rw [hcount, List.map_append, List.count_append]
        push_cast
        rw [add_assoc]

/-- Every frame once and in order, the front of an empty buffer never read or erased, and each
number counted as often as it occurs. -/
structure Recovered (frames : List Bytes) (r : Run) : Prop where
  passed : r.passed = frames
  counts : ∃ st, r.left = some st ∧ ∀ id, count st id = (frames.map messageNumber).count id

/-- For every way in which the bytes come in; the counters are of 32 bits. -/
theorem recovered_iff {items : List (Bytes × Frame)} (hjunk : ∀ p ∈ items, 0xD3 ∉ p.1)
    (chunks : List ((Nat → Int) × Bytes)) (hchunks : stream chunks = compose items) :
    Recovered (items.map fun p ↦ p.2.bytes) (decodeAll {} chunks) ↔
      (∀ p ∈ items, messageNumber p.2.bytes ≠ 0 ∧ Complete p.2.bytes) ∧
      ∀ id, (items.map fun p ↦ messageNumber p.2.bytes).count id < 2 ^ 31 := by
  have htallies := tallies_decodeAll {} chunks
  have hscan := scan_compose hjunk
  have hreads (hnumber : ∀ p ∈ items, messageNumber p.2.bytes ≠ 0) :
      Reads (items.map fun p ↦ p.2.bytes, []) (decodeAll {} chunks) := by
    have hall := reads_decodeAll {} chunks rfl rfl
    change (∀ msg ∈ (scanner.scan (stream chunks)).1, _) →
      Reads (scanner.scan (stream chunks)) _ at hall
    rw [hchunks, hscan] at hall
    exact hall (List.forall_mem_map.mpr hnumber)
  have hcounts (hpassed : (decodeAll {} chunks).passed = items.map fun p ↦ p.2.bytes)
      {st : DecodeRtcm}
      (hst : (decodeAll {} chunks).left = some st) (id : Nat) :
      count st id = int32 ((items.map fun p ↦ messageNumber p.2.bytes).count id) := by
    have hcount := htallies.count st hst id 0 rfl
    rw [hpassed, List.map_map] at hcount
    simpa [Function.comp_def] using hcount
  constructor
  · intro h
    have hnumber : ∀ p ∈ items, messageNumber p.2.bytes ≠ 0 := fun p hp ↦
      htallies.number _ (h.passed ▸ List.mem_map_of_mem hp)
    obtain ⟨st, hst, hcount⟩ := h.counts
    have hall := readUpTo_snd.mp ((hreads hnumber).left_iff.mp ⟨st, hst⟩)
    refine ⟨fun p hp ↦ ⟨hnumber p hp, hall _ (List.mem_map_of_mem hp)⟩, fun id ↦ ?_⟩
    refine (int32_eq_iff _).mp ((hcounts h.passed hst id).symm.trans ?_)
    simpa [Function.comp_def] using hcount id
  · intro ⟨h, hlt⟩
    have hcomplete : ∀ msg ∈ items.map fun p ↦ p.2.bytes, Complete msg :=
      List.forall_mem_map.mpr fun p hp ↦ (h p hp).2
    have hrun := hreads fun p hp ↦ (h p hp).1
    have hpassed := hrun.passed.trans (readUpTo_fst hcomplete)
    obtain ⟨st, hst⟩ := hrun.left_iff.mpr (readUpTo_snd.mpr hcomplete)
    refine { passed := hpassed, counts := ⟨st, hst, fun id ↦ ?_⟩ }
    have hcount := (hcounts hpassed hst id).trans ((int32_eq_iff _).mpr (hlt id))
    simpa [Function.comp_def] using hcount

def stationFrame : Frame where
  payload := [0x3E, 0xD0] ++ List.replicate 17 0
  parity := [242, 75, 244]
  two_le := by decide
  le := by decide
  three := rfl
  check := check_of_parity rfl (by decide +kernel)

def stationItems : List (Bytes × Frame) := [([0x0A], stationFrame)]

theorem recovered_station :
    Recovered (stationItems.map fun p ↦ p.2.bytes)
      (decodeAll {} [(fun _ ↦ 0, 0x0A :: stationFrame.bytes)]) := by
  have hiff := @recovered_iff stationItems (by simp [stationItems])
    [(fun _ ↦ 0, 0x0A :: stationFrame.bytes)] (by simp [stream, compose, stationItems])
  refine hiff.mpr ⟨?_, fun id ↦ ?_⟩
  · simp only [stationItems, List.forall_mem_singleton]
    decide
  · exact lt_of_le_of_lt List.count_le_length (by decide)

def zeroFrame : Frame where
  payload := [0, 1]
  parity := [182, 195, 77]
  two_le := le_rfl
  le := by decide
  three := rfl
  check := check_of_parity rfl (by decide +kernel)

theorem not_recovered_zero :
    ¬ ∀ items : List (Bytes × Frame), (∀ p ∈ items, 0xD3 ∉ p.1) →
      ∀ chunks, stream chunks = compose items →
        Recovered (items.map fun p ↦ p.2.bytes) (decodeAll {} chunks) := by
  intro h
  have hrun :=
    h [([], zeroFrame)] (by simp) [(fun _ ↦ 0, zeroFrame.bytes)] (by simp [stream, compose])
  have hnumber := (tallies_decodeAll {} [(fun _ ↦ 0, zeroFrame.bytes)]).number
  rw [hrun.passed] at hnumber
  exact hnumber zeroFrame.bytes (List.mem_singleton_self _) (by decide)

end NavCaster.Base.Completeness
