import Mathlib.Algebra.Order.Floor.Ring
import Mathlib.Data.Rat.Floor
import Mathlib.Tactic.Linarith
import NavCaster.Base.Framing
import NavCaster.Library.Decimal
import NavCaster.Service.Request

namespace NavCaster.Service.Latlon

open NavCaster.Library.Strto
open NavCaster.Library.Scan
open NavCaster.Library.Decimal
open NavCaster.Base.Nmea
open NavCaster.Base.Framing
open NavCaster.Service.Request

def value : Reading → Option ℚ
  | .finite neg num den => some (if neg then -(num / den) else num / den)
  | _ => none

def atof (s : Bytes) : Option ℚ :=
  match strtod s with
  | none => some 0
  | some x => value x

def truncate (x : ℚ) : ℤ := if 0 ≤ x then ⌊x⌋ else ⌈x⌉

def fromRaw (raw : ℚ) : ℚ :=
  let deg := truncate (raw / 100)
  let min := raw - deg * 100
  deg + min / 60

def withSign (negative : Bool) (x : ℚ) : ℚ := if negative then -x else x

/-- What `parse_gga_to_latlon` writes to `lat` and `lon`, before it looks at their range. -/
def latlon (lat ns lon ew : Bytes) : Option (ℚ × ℚ) := do
  let rawLat ← atof lat
  let rawLon ← atof lon
  return (withSign (ns = [83] ∨ ns = [115]) (fromRaw rawLat),
    withSign (ew = [87] ∨ ew = [119]) (fromRaw rawLon))

def inRange (p : ℚ × ℚ) : Bool := |p.1| ≤ 90 ∧ |p.2| ≤ 180

def exact : Degrees (ℚ × ℚ) where
  latlon lat ns lon ew := (latlon lat ns lon ew).filter inRange
  initial := (0, 0)
  isZero p := p = (0, 0)

/-- The latitude and longitude that `parse_gga_to_latlon` computes, whether or not it then returns
true. -/
def computed (gga : Bytes) : Option (ℚ × ℚ) := parseGgaToLatlon { exact with latlon } gga

def degrees : Reading × Reading × Bool → Option ℚ
  | (deg, min, negative) => do
    let deg ← value deg
    let min ← value min
    return withSign negative (deg + min / 60)

/-- `$`, the talker, and the fields with their commas; a checksum behind the star. -/
structure GgaSentence where
  talker : Bytes
  utc : Bytes
  lat : Numeral
  ns : Bytes
  lon : Numeral
  ew : Bytes
  quality : Bytes
  more : List Bytes
  checksum : Bytes
  length_talker : talker.length = 2
  length_lat : lat.whole.length = 4
  length_lon : lon.whole.length = 5
  length_more : more.length = 8
  fixed : ∃ q, strtol quality = some q ∧ 0 < q
  filled : ∀ field ∈ utc :: ns :: ew :: quality :: more, field ≠ []
  plain : ∀ field ∈ talker :: utc :: ns :: ew :: quality :: more, 44 ∉ field ∧ 42 ∉ field

namespace GgaSentence

variable (g : GgaSentence)

def fields : List Bytes :=
  (g.talker ++ ascii "GGA") :: g.utc :: g.lat.text :: g.ns :: g.lon.text :: g.ew :: g.quality ::
    g.more

def bytes : Bytes := 36 :: (List.intercalate [44] g.fields ++ 42 :: g.checksum)

end GgaSentence

/-- Both compute a latitude and a longitude, and the same ones. -/
def Agree (msg : Bytes) : Prop :=
  ∃ gga lat lon, decodeGGA msg = .ok (some gga) ∧ degrees gga.lat = some lat ∧
    degrees gga.lon = some lon ∧
    computed msg = some (lat, lon)

/-- No field makes `decode_GGA` throw, the latitude is split where it should be, and a small letter
for the hemisphere, which only one of the two knows, changes nothing. -/
structure Alike (g : GgaSentence) : Prop where
  convertible : Convertible g.fields
  split : g.lat.frac ≠ none ∨ g.lat.whole.take 3 = [0, 0, 0]
  south : g.ns = [115] → g.lat.num = 0
  west : g.ew = [119] → g.lon.num = 0

variable {g : GgaSentence} {n : Numeral} {x : Reading}

theorem parseGgaToLatlon_exact (gga : Bytes) :
    parseGgaToLatlon exact gga = (computed gga).filter inRange := by
  unfold computed parseGgaToLatlon
  split
  · split_ifs <;> rfl
  · rfl

theorem plain_fields (g : GgaSentence) : ∀ field ∈ g.fields, 44 ∉ field ∧ 42 ∉ field := by
  have htext (n : Numeral) : 44 ∉ n.text ∧ 42 ∉ n.text :=
    ⟨fun h ↦ (mem_text h).elim nofun nofun, fun h ↦ (mem_text h).elim nofun nofun⟩
  have hplain := g.plain
  simp only [List.forall_mem_cons] at hplain
  obtain ⟨htalker, hutc, hns, hew, hquality, hmore⟩ := hplain
  simp only [GgaSentence.fields, List.forall_mem_cons]
  refine ⟨?_, hutc, htext _, hns, htext _, hew, hquality, hmore⟩
  simp only [List.mem_append, not_or]
  exact ⟨⟨htalker.1, by decide⟩, htalker.2, by decide⟩

theorem not_mem_intercalate {c d : UInt8} (hne : c ≠ d) {fields : List Bytes}
    (h : ∀ field ∈ fields, c ∉ field) :
    c ∉ List.intercalate [d] fields := by
  induction fields with
  | nil => exact List.not_mem_nil
  | cons field fields ih =>
    rw [List.forall_mem_cons] at h
    cases fields with
    | nil =>
      rw [List.intercalate_singleton]
      exact h.1
    | cons field' fields =>
      rw [List.intercalate_cons_cons, List.mem_append, List.mem_append, List.mem_singleton, not_or,
        not_or]
      exact ⟨⟨h.1, hne⟩, ih h.2⟩

theorem splitGGA_bytes (g : GgaSentence) : splitGGA g.bytes = g.fields := by
  have hstar : 42 ∉ List.intercalate [44] g.fields :=
    not_mem_intercalate (by decide) fun field hfield ↦ (plain_fields g field hfield).2
  have hall : ∀ b ∈ List.intercalate [44] g.fields, decide (b ≠ 42) = true :=
    fun b hb ↦ decide_eq_true fun heq ↦ hstar (heq ▸ hb)
  unfold splitGGA GgaSentence.bytes
  rw [List.dropWhile_cons_of_neg (by decide)]
  simp only [List.takeWhile_append_of_pos hall]
  rw [List.takeWhile_cons_of_neg (by decide), List.append_nil]
  exact List.splitOn_intercalate _ (fun field hfield ↦ (plain_fields g field hfield).1)
    (List.cons_ne_nil _ _)

theorem ggaFields_append {field : Bytes} (h : 44 ∉ field ∧ 42 ∉ field) (token s : Bytes) :
    ggaFields token (field ++ s) = ggaFields (token ++ field) s := by
  induction field generalizing token with
  | nil => rw [List.append_nil, List.nil_append]
  | cons b field ih =>
    simp only [List.mem_cons, not_or] at h
    obtain ⟨⟨hcomma, h₁⟩, hstar, h₂⟩ := h
    rw [List.cons_append, ggaFields, if_neg (Ne.symm hstar), if_neg (Ne.symm hcomma), ih ⟨h₁, h₂⟩,
      List.append_assoc]
    rfl

theorem ggaFields_intercalate {field : Bytes} {fields : List Bytes}
    (h : ∀ f ∈ field :: fields, 44 ∉ f ∧ 42 ∉ f) (token tail : Bytes) :
    ggaFields token (List.intercalate [44] (field :: fields) ++ 42 :: tail) =
      (token ++ field) :: fields := by
  induction fields generalizing field token with
  | nil =>
    rw [List.intercalate_singleton, ggaFields_append (h field (by simp)), ggaFields, if_pos rfl]
  | cons field' fields ih =>
    rw [List.forall_mem_cons] at h
    rw [List.intercalate_cons_cons, List.append_assoc, List.append_assoc, ggaFields_append h.1,
      List.singleton_append, ggaFields, if_neg (by decide), if_pos rfl, ih h.2, List.nil_append]

theorem findText_bytes (g : GgaSentence) : (findText (ascii "GGA,") g.bytes).map (ggaFields []) =
    some (ascii "GGA" :: g.fields.tail) := by
  obtain ⟨b₀, b₁, htalker⟩ := List.length_eq_two.mp g.length_talker
  have hname : ascii "GGA" = [71, 71, 65] := by decide +kernel
  have hpattern : ascii "GGA," = [71, 71, 65, 44] := by decide +kernel
  have hplain : ∀ f ∈ [71, 71, 65] :: g.fields.tail, 44 ∉ f ∧ 42 ∉ f := by
    rw [List.forall_mem_cons]
    exact ⟨by decide, fun f hf ↦ plain_fields g f (List.mem_of_mem_tail hf)⟩
  have hbytes :
      g.bytes = 36 :: b₀ :: b₁ :: (List.intercalate [44] ([71, 71, 65] :: g.fields.tail) ++
      42 :: g.checksum) := by
    simp [GgaSentence.bytes, GgaSentence.fields, htalker, hname, List.intercalate_cons_cons]
  have hfind : findText (ascii "GGA,") g.bytes =
      some (List.intercalate [44] ([71, 71, 65] :: g.fields.tail) ++ 42 :: g.checksum) := by
    rw [hbytes, hpattern]
    simp [GgaSentence.fields, List.intercalate_cons_cons, findText]
  rw [hfind, Option.map_some, ggaFields_intercalate hplain, hname, List.nil_append]

theorem computed_bytes (g : GgaSentence) :
    computed g.bytes = latlon g.lat.text g.ns g.lon.text g.ew := by
  obtain ⟨q, hq, hpos⟩ := g.fixed
  have htext (n : Numeral) : n.text ≠ [] := by
    obtain ⟨v, vs, hvs⟩ := List.exists_cons_of_ne_nil n.nonempty
    rw [Numeral.text, hvs]
    exact List.cons_ne_nil _ _
  unfold computed parseGgaToLatlon
  rw [findText_bytes]
  simp only [GgaSentence.fields, List.tail_cons, hq, Option.getD_some, htext, or_false,
    if_neg (not_le.mpr hpos)]

theorem atof_text (n : Numeral) : atof n.text = some n.value := by
  rw [atof, strtod_text]
  rfl

theorem fromRaw_value {k : ℕ} (hpos : 0 < k) (hlen : n.whole.length = k + 2) :
    fromRaw n.value =
      (n.take hpos).value + (n.drop (by omega : k < n.whole.length)).value / 60 := by
  have hk : k < n.whole.length := by omega
  have hsum := n.value_take_drop hpos hk
  have hmin := (n.drop hk).value_nonneg
  have hlt := (n.drop hk).value_lt
  have hdigits : (n.drop hk).whole.length = 2 := by
    change (n.whole.drop k).length = 2
    rw [List.length_drop]
    omega
  have hdeg := (n.take hpos).value_of_frac_none rfl
  rw [hdigits] at hlt
  rw [hlen, Nat.add_sub_cancel_left] at hsum
  generalize (n.drop hk).value = min at hsum hmin hlt ⊢
  generalize valueOf 10 (n.take hpos).whole = deg at hdeg
  rw [hdeg] at hsum ⊢
  have hfloor : ⌊n.value / 100⌋ = (deg : ℤ) := by
    rw [Int.floor_eq_iff, hsum]
    push_cast
    constructor <;> linarith
  have htruncate : truncate (n.value / 100) = deg := by
    rw [truncate, if_pos (div_nonneg n.value_nonneg (by norm_num)), hfloor]
  simp only [fromRaw, htruncate]
  rw [hsum]
  push_cast
  ring

theorem stod_text (n : Numeral) (h : stod n.text = .ok x) : x = .finite false n.num n.den := by
  simp only [stod, strtod_text] at h
  split_ifs at h
  cases h
  rfl

theorem gives_readAngle {negative : Bool} {k : ℕ} (hpos : 0 < k) (hk : k < n.whole.length)
    (hsplit : degreeLen n.text = k) :
    Gives (fun angle ↦ degrees angle =
      some (withSign negative ((n.take hpos).value + (n.drop hk).value / 60)))
        (readAngle n.text negative) := by
  have hle : k ≤ n.text.length := by
    rw [Numeral.text, List.length_append, digitText, List.length_map]
    omega
  rw [readAngle, hsplit, substr_of_le (Nat.zero_le _), substr_of_le hle, take_drop_length,
    List.drop_zero, n.text_take hpos hk.le, n.text_drop hk]
  refine gives_bind fun degText hdegText ↦ gives_bind fun deg hdeg ↦
    gives_bind fun minText hminText ↦
    gives_bind fun min hmin ↦ fun angle hangle ↦ ?_
  cases hdegText
  cases hminText
  cases hangle
  rw [stod_text _ hdeg, stod_text _ hmin]
  rfl

theorem degreeLen_text (n : Numeral) :
    degreeLen n.text = if n.frac ≠ none ∧ n.whole.length ≤ 4 then 2 else 3 := by
  have hno (vs : List ℕ) (hvs : ∀ v ∈ vs, v < 10) : 46 ∉ digitText vs := by
    intro h
    obtain ⟨v, hv, heq⟩ := List.mem_map.mp h
    have hdigit := digit_decimal (hvs v hv)
    rw [heq] at hdigit
    cases hdigit
  have hwhole := hno n.whole n.whole_lt
  have hlen : (digitText n.whole).length = n.whole.length := List.length_map _
  unfold degreeLen Numeral.text
  cases hfrac : n.frac with
  | none => simp [hwhole]
  | some ds =>
    have hidx : (digitText n.whole ++ 46 :: digitText ds).idxOf 46 = n.whole.length := by
      rw [List.idxOf_append_of_notMem hwhole, List.idxOf_cons_self, hlen, Nat.add_zero]
    simp [hidx]

theorem gives_angles (g : GgaSentence) :
    Gives (fun gga ↦ ∃ gga', gga = some gga' ∧ readAngle g.lat.text (g.ns = [83]) = .ok gga'.lat ∧
      readAngle g.lon.text (g.ew = [87]) = .ok gga'.lon) (decodeGGA g.bytes) := by
  obtain ⟨f7, f8, f9, f10, f11, f12, f13, f14, hmore⟩ : ∃ f7 f8 f9 f10 f11 f12 f13 f14,
      g.more = [f7, f8, f9, f10, f11, f12, f13, f14] := by
    match hmore : g.more, g.length_more with
    | [f7, f8, f9, f10, f11, f12, f13, f14], _ => exact ⟨f7, f8, f9, f10, f11, f12, f13, f14, rfl⟩
  rw [decodeGGA, splitGGA_bytes, GgaSentence.fields, hmore]
  refine gives_bind fun _ _ ↦ gives_bind fun _ _ ↦ gives_bind fun _ _ ↦ gives_bind fun _ _ ↦
    gives_bind fun _ _ ↦ gives_bind fun _ _ ↦ gives_bind fun _ _ ↦ gives_bind fun _ _ ↦
    gives_bind fun lat hlat ↦ gives_bind fun lon hlon ↦ fun gga hgga ↦ ?_
  cases hgga
  exact ⟨_, rfl, hlat, hlon⟩

def latDegrees (n : Numeral) (h : n.whole.length = 4) : ℚ :=
  if n.frac ≠ none then
    (n.take (by decide : 0 < 2)).value + (n.drop (by omega : 2 < n.whole.length)).value / 60
  else (n.take (by decide : 0 < 3)).value + (n.drop (by omega : 3 < n.whole.length)).value / 60

theorem degrees_lat {negative : Bool} (hlen : n.whole.length = 4) :
    Gives (fun angle ↦ degrees angle = some (withSign negative (latDegrees n hlen)))
      (readAngle n.text negative) := by
  have hsplit := degreeLen_text n
  unfold latDegrees
  by_cases hfrac : n.frac = none
  · simp only [hfrac, ne_eq, not_true_eq_false, false_and, if_false] at hsplit ⊢
    exact gives_readAngle (by decide) (by omega) hsplit
  · simp only [hfrac, ne_eq, not_false_eq_true, hlen, le_refl, and_self, if_true] at hsplit ⊢
    exact gives_readAngle (by decide) (by omega) hsplit

theorem degrees_lon {negative : Bool} (hlen : n.whole.length = 5) :
    Gives (fun angle ↦ degrees angle = some (withSign negative (fromRaw n.value)))
      (readAngle n.text negative) := by
  have hsplit := degreeLen_text n
  rw [if_neg (by omega)] at hsplit
  rw [fromRaw_value (by decide : 0 < 3) hlen]
  exact gives_readAngle (by decide) (by omega) hsplit

theorem fromRaw_nonneg (n : Numeral) (k : ℕ) (hpos : 0 < k) (hlen : n.whole.length = k + 2) :
    0 ≤ fromRaw n.value ∧ (fromRaw n.value = 0 ↔ n.num = 0) := by
  have hk : k < n.whole.length := by omega
  have hsum := n.value_take_drop hpos hk
  have hdeg := (n.take hpos).value_nonneg
  have hmin := (n.drop hk).value_nonneg
  rw [hlen, Nat.add_sub_cancel_left] at hsum
  rw [fromRaw_value hpos hlen, ← n.value_eq_zero]
  constructor
  · linarith
  · constructor <;> intro h <;> linarith

theorem latDegrees_eq_iff (hlen : n.whole.length = 4) :
    latDegrees n hlen = fromRaw n.value ↔ n.frac ≠ none ∨ n.whole.take 3 = [0, 0, 0] := by
  rw [fromRaw_value (by decide : 0 < 2) hlen, latDegrees]
  by_cases hfrac : n.frac = none
  · have htake {k : ℕ} (hpos : 0 < k) : (n.take hpos).value = valueOf 10 (n.whole.take k) :=
      (n.take hpos).value_of_frac_none rfl
    have hdrop {k : ℕ} (hk : k < n.whole.length) :
        (n.drop hk).value = valueOf 10 (n.whole.drop k) :=
      (n.drop hk).value_of_frac_none hfrac
    obtain ⟨a, b, c, d, hwhole⟩ : ∃ a b c d, n.whole = [a, b, c, d] := by
      match hwhole : n.whole, hlen with
      | [a, b, c, d], _ => exact ⟨a, b, c, d, rfl⟩
    simp only [hfrac, ne_eq, not_true_eq_false, if_false, false_or, htake, hdrop, hwhole]
    simp only [valueOf, List.take_succ_cons, List.take_zero, List.drop_succ_cons, List.drop_zero,
      List.reverse_cons, List.reverse_nil, List.nil_append, List.cons_append, Nat.ofDigits_cons,
      Nat.ofDigits_nil, List.cons.injEq, and_true]
    push_cast
    constructor
    · intro h
      have hzero : 540 * (a : ℚ) * 10 + 540 * b + 50 * c = 0 := by
        linarith
      have hnat : 540 * a * 10 + 540 * b + 50 * c = 0 := by
        exact_mod_cast hzero
      omega
    · rintro ⟨rfl, rfl, rfl⟩
      norm_num
  · simp [hfrac]

theorem withSign_eq_iff (letter : Bytes) {x y : ℚ} {capital small : Bytes} (hne : capital ≠ small)
    (hx : 0 ≤ x) (hy : 0 ≤ y) :
    withSign (letter = capital) x = withSign (letter = capital ∨ letter = small) y ↔
      x = y ∧ (letter = small → y = 0) := by
  by_cases hcapital : letter = capital
  · subst hcapital
    simp [withSign, hne]
  · by_cases hsmall : letter = small
    · subst hsmall
      have hleft : withSign (letter = capital) x = x := by
        simp [withSign, hcapital]
      have hright : withSign (letter = capital ∨ letter = letter) y = -y := by
        simp [withSign]
      rw [hleft, hright]
      constructor
      · intro h
        exact ⟨by linarith, fun _ ↦ by linarith⟩
      · rintro ⟨rfl, hzero⟩
        rw [hzero rfl, neg_zero]
    · simp [withSign, hcapital, hsmall]

/-- Just the sentences that both read alike. -/
theorem agree_iff (g : GgaSentence) : Agree g.bytes ↔ Alike g := by
  obtain ⟨hlatpos, hlatzero⟩ := fromRaw_nonneg g.lat 2 (by decide) g.length_lat
  obtain ⟨hlonpos, hlonzero⟩ := fromRaw_nonneg g.lon 3 (by decide) g.length_lon
  have hdegpos : 0 ≤ latDegrees g.lat g.length_lat := by
    have htake {k : ℕ} (hpos : 0 < k) := (g.lat.take hpos).value_nonneg
    have hdrop {k : ℕ} (hk : k < g.lat.whole.length) := (g.lat.drop hk).value_nonneg
    unfold latDegrees
    split_ifs
    · exact add_nonneg (htake _) (div_nonneg (hdrop _) (by norm_num))
    · exact add_nonneg (htake _) (div_nonneg (hdrop _) (by norm_num))
  have hlatitude := withSign_eq_iff g.ns (by decide : ([83] : Bytes) ≠ [115]) hdegpos hlatpos
  have hlongitude := withSign_eq_iff g.ew (by decide : ([87] : Bytes) ≠ [119]) hlonpos hlonpos
  rw [latDegrees_eq_iff, hlatzero] at hlatitude
  rw [hlonzero, and_iff_right rfl] at hlongitude
  have hcomputed : computed g.bytes = some
      (withSign (g.ns = [83] ∨ g.ns = [115]) (fromRaw g.lat.value),
        withSign (g.ew = [87] ∨ g.ew = [119]) (fromRaw g.lon.value)) := by
    rw [computed_bytes, latlon, atof_text, atof_text]
    rfl
  constructor
  · rintro ⟨gga, lat, lon, hgga, hlat, hlon, hsame⟩
    obtain ⟨gga', heq, hreadLat, hreadLon⟩ := gives_angles g _ hgga
    cases heq
    obtain ⟨hlatEq, hlonEq⟩ := Prod.mk.inj (Option.some.inj (hsame.symm.trans hcomputed))
    have hdegLat := hlat.symm.trans (degrees_lat g.length_lat _ hreadLat)
    have hdegLon := hlon.symm.trans (degrees_lon g.length_lon _ hreadLon)
    rw [hlatEq, Option.some_inj, eq_comm] at hdegLat
    rw [hlonEq, Option.some_inj, eq_comm] at hdegLon
    obtain ⟨hsplit, hsouth⟩ := hlatitude.mp hdegLat
    have hconvertible := (returns_decodeGGA g.bytes).mp ⟨_, hgga⟩
    rw [splitGGA_bytes] at hconvertible
    exact
      { convertible := hconvertible
        split := hsplit
        south := hsouth
        west := hlongitude.mp hdegLon }
  · intro h
    have hconvertible := h.convertible
    rw [← splitGGA_bytes] at hconvertible
    obtain ⟨gga, hgga⟩ := (returns_decodeGGA g.bytes).mpr hconvertible
    obtain ⟨gga', rfl, hreadLat, hreadLon⟩ := gives_angles g _ hgga
    refine ⟨gga', _, _, hgga, degrees_lat g.length_lat _ hreadLat,
      degrees_lon g.length_lon _ hreadLon, ?_⟩
    rw [hcomputed, hlatitude.mpr ⟨h.split, h.south⟩, hlongitude.mpr h.west]

/-- `$GPGGA,120000,3000,N,11400,E,1,8,1,50,M,0,M,1,1*64` -/
def pointless : GgaSentence where
  talker := ascii "GP"
  utc := ascii "120000"
  lat := .integer [3, 0, 0, 0] (by decide) (by decide)
  ns := ascii "N"
  lon := .integer [1, 1, 4, 0, 0] (by decide) (by decide)
  ew := ascii "E"
  quality := ascii "1"
  more := [ascii "8", ascii "1", ascii "50", ascii "M", ascii "0", ascii "M", ascii "1", ascii "1"]
  checksum := ascii "64"
  length_talker := by decide +kernel
  length_lat := rfl
  length_lon := rfl
  length_more := rfl
  fixed := ⟨1, rfl, Int.one_pos⟩
  filled := by decide +kernel
  plain := by decide +kernel

/-- A latitude of 30 degrees, without a point, is one of 300 degrees for `decode_GGA`. -/
theorem not_agree : ¬ ∀ g : GgaSentence, Agree g.bytes := by
  intro h
  obtain ⟨gga, lat, lon, hgga, hlat, -, hsame⟩ := h pointless
  have hdecoded :
      ((decodeGGA pointless.bytes).toOption.bind id).bind (degrees ·.lat) = some 300 := by
    decide +kernel
  have hcomputed : (computed pointless.bytes).map Prod.fst = some 30 := by decide +kernel
  rw [hgga] at hdecoded
  rw [hsame] at hcomputed
  cases hcomputed
  cases hlat.symm.trans hdecoded

end NavCaster.Service.Latlon
