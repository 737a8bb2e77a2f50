import NavCaster.Base.ConnectKey
import NavCaster.Library.Calendar
import NavCaster.Library.Scan

namespace NavCaster.Service.ExpiryDate

open NavCaster.Library.Strto (Bytes digit digits isSpace sign strtol valueOf)
open NavCaster.Library.Decimal NavCaster.Library.Calendar
open NavCaster.Library.Scan (ascii cstr)
open NavCaster.Base.ConnectKey (decimal decimal_eq toText toText_natCast)

def atoi (s : Bytes) : ℤ := (strtol (cstr s)).getD 0

def number (d : Bytes) (pos len : ℕ) : ℤ := atoi ((d.drop pos).take len)

def dateToDays (d : Bytes) : UInt32 :=
  if d.length < 10 then 0
  else
    let y := number d 0 4
    let m := number d 5 2
    let day := number d 8 2
    if y < 1970 ∨ m < 1 ∨ m > 12 ∨ day < 1 ∨ day > 31 then 0
    else
      let t := timegm { year := y - 1900, mon := m - 1, mday := day }
      if t < 0 then 0 else UInt32.ofInt (t / 86400)

def setw (width : ℕ) (s : Bytes) : Bytes := List.replicate (width - s.length) 48 ++ s

def daysToDate (days : UInt32) : Bytes :=
  let tm := gmtime (days.toNat * 86400)
  setw 4 (toText (tm.year + 1900)) ++ 45 ::
    (setw 2 (toText (tm.mon + 1)) ++ 45 :: setw 2 (toText tm.mday))

def text (d : Date) : Bytes :=
  setw 4 (toText d.year) ++ 45 :: (setw 2 (toText (d.month + 1)) ++ 45 :: setw 2 (toText d.day))

/-- The string is rejected, or the date that it stands for is printed as it is written. -/
def Kept (d : Bytes) : Prop := dateToDays d = 0 ∨ daysToDate (dateToDays d) = d.take 10

/-- The string is too short, or one of its numbers is out of range. -/
def Rejected (d : Bytes) : Prop :=
  d.length < 10 ∨ number d 0 4 < 1970 ∨ number d 5 2 < 1 ∨ number d 5 2 > 12 ∨ number d 8 2 < 1 ∨
    number d 8 2 > 31

/-- The string is rejected, its numbers are those of the day 0, or it starts with a day of the
calendar from 1970 on. -/
def Plain (d : Bytes) : Prop :=
  Rejected d ∨ (number d 0 4 = 1970 ∧ number d 5 2 = 1 ∧ number d 8 2 = 1) ∨
    ∃ date : Date, 1970 ≤ date.year ∧ d.take 10 = text date

theorem length_decimal_le_iff {n w : ℕ} (hw : 1 ≤ w) : (decimal n).length ≤ w ↔ n < 10 ^ w := by
  unfold decimal
  split
  · next h =>
    subst h
    simpa using hw
  · rw [List.length_map, List.length_reverse, Nat.digits_length_le_iff (by decide)]

theorem length_setw (w : ℕ) (s : Bytes) : (setw w s).length = max w s.length := by
  unfold setw
  rw [List.length_append, List.length_replicate]
  omega

theorem setw_toText {n w : ℕ} (hw : 1 ≤ w) (hn : n < 10 ^ w) : ∃ vs : List ℕ,
    setw w (toText n) = digitText vs ∧ vs.length = w ∧ (∀ v ∈ vs, v < 10) ∧ valueOf 10 vs = n := by
  obtain ⟨vs, hvs, -, hlt, hval⟩ := decimal_eq n
  have hlen := (length_decimal_le_iff hw).mpr hn
  rw [hvs, List.length_map] at hlen
  refine ⟨List.replicate (w - vs.length) 0 ++ vs, ?_, ?_, ?_, ?_⟩
  · unfold setw digitText
    rw [toText_natCast, hvs, List.length_map, List.map_append, List.map_replicate]
    rfl
  · rw [List.length_append, List.length_replicate]
    omega
  · intro v hv
    obtain hv | hv := List.mem_append.mp hv
    · rw [List.eq_of_mem_replicate hv]
      decide
    · exact hlt v hv
  · have hzero (k : ℕ) : valueOf 10 (List.replicate k 0) = 0 := by
      unfold valueOf
      rw [List.reverse_replicate, Nat.ofDigits_replicate_zero]
    rw [valueOf_append, hzero, hval]
    omega

theorem atoi_digitText {vs : List ℕ} (hne : vs ≠ []) (hlt : ∀ v ∈ vs, v < 10) :
    atoi (digitText vs) = valueOf 10 vs := by
  obtain ⟨v, vs, rfl⟩ := List.exists_cons_of_ne_nil hne
  have hv := hlt v List.mem_cons_self
  have hcstr : cstr (digitText (v :: vs)) = digitText (v :: vs) := by
    apply List.takeWhile_eq_self_iff.mpr
    intro b hb
    obtain ⟨w, hw, rfl⟩ := List.mem_map.mp hb
    have := hlt w hw
    interval_cases w <;> rfl
  have hdigits := digits_digitText hlt (s := []) nofun
  rw [List.append_nil] at hdigits
  have hspace : (digitText (v :: vs)).dropWhile isSpace = digitText (v :: vs) :=
    List.dropWhile_cons_of_neg (by rw [isSpace_decimal hv]; exact Bool.false_ne_true)
  have hsign : sign (digitText (v :: vs)) = (false, digitText (v :: vs)) := sign_decimal hv _
  unfold atoi strtol
  rw [hcstr, hspace, hsign]
  dsimp only
  rw [hdigits]
  rfl

theorem day_le_31 (date : Date) : date.day ≤ 31 := by
  obtain ⟨l, hl, hday⟩ := date.day_le
  have hmem := List.mem_of_getElem? hl
  unfold monthLengths at hmem
  split at hmem <;> simp at hmem <;> omega

structure Digits (date : Date) where
  year : List ℕ
  month : List ℕ
  day : List ℕ
  length : year.length = 4 ∧ month.length = 2 ∧ day.length = 2
  lt : ∀ vs ∈ [year, month, day], ∀ v ∈ vs, v < 10
  value : valueOf 10 year = date.year ∧ valueOf 10 month = date.month + 1 ∧
    valueOf 10 day = date.day
  text : text date = digitText year ++ 45 :: (digitText month ++ 45 :: digitText day)

theorem exists_digits {date : Date} (hlow : 0 ≤ date.year) (hhigh : date.year ≤ 9999) :
    Nonempty (Digits date) := by
  have hmonth := month_lt date
  have hday31 := day_le_31 date
  obtain ⟨year, hyear⟩ := Int.eq_ofNat_of_zero_le hlow
  obtain ⟨ys, hys, hylen, hylt, hyval⟩ := setw_toText (n := year) (w := 4) (by decide) (by omega)
  obtain ⟨ms, hms, hmlen, hmlt, hmval⟩ :=
    setw_toText (n := date.month + 1) (w := 2) (by decide) (by omega)
  obtain ⟨ds, hds, hdlen, hdlt, hdval⟩ :=
    setw_toText (n := date.day) (w := 2) (by decide) (by omega)
  push_cast at hms
  refine ⟨⟨ys, ms, ds, ⟨hylen, hmlen, hdlen⟩, ?_, ?_, ?_⟩⟩
  · simp only [List.forall_mem_cons]
    exact ⟨hylt, hmlt, hdlt, nofun⟩
  · exact ⟨by rw [hyval, hyear], hmval, hdval⟩
  · unfold text
    rw [hyear, hys, hms, hds]

theorem length_text {date : Date} (hlow : 0 ≤ date.year) (hhigh : date.year ≤ 9999) :
    (text date).length = 10 := by
  obtain ⟨x⟩ := exists_digits hlow hhigh
  obtain ⟨hy, hm, hday⟩ := x.length
  simp [x.text, digitText, hy, hm, hday]

theorem number_text {d : Bytes} {date : Date} (hd : d.take 10 = text date) (hlow : 0 ≤ date.year)
    (hhigh : date.year ≤ 9999) : 10 ≤ d.length ∧ number d 0 4 = date.year ∧
      number d 5 2 = date.month + 1 ∧ number d 8 2 = date.day := by
  have hlength := congrArg List.length hd
  rw [length_text hlow hhigh, List.length_take] at hlength
  obtain ⟨x⟩ := exists_digits hlow hhigh
  obtain ⟨hylen, hmlen, hdlen⟩ := x.length
  obtain ⟨hyval, hmval, hdval⟩ := x.value
  have hlen (vs : List ℕ) : (digitText vs).length = vs.length := List.length_map _
  have hpart (pos len : ℕ) (hle : pos + len ≤ 10) :
      (d.drop pos).take len = ((text date).drop pos).take len := by
    rw [← hd, List.drop_take, List.take_take, Nat.min_eq_left (by omega)]
  have hvalue {vs : List ℕ} (hmem : vs ∈ [x.year, x.month, x.day]) (hpos : 0 < vs.length) :
      atoi (digitText vs) = valueOf 10 vs :=
    atoi_digitText (List.ne_nil_of_length_pos hpos) (x.lt vs hmem)
  refine ⟨by omega, ?_, ?_, ?_⟩ <;> unfold number
  · rw [hpart 0 4 (by omega), x.text, List.drop_zero, List.take_left' ((hlen _).trans hylen),
      hvalue (by simp) (by omega), hyval]
  · have hdrop : (digitText x.year ++ 45 :: (digitText x.month ++ 45 :: digitText x.day)).drop 5 =
        digitText x.month ++ 45 :: digitText x.day := by
      rw [List.drop_append, hlen, hylen, List.drop_eq_nil_of_le (by rw [hlen]; omega)]
      rfl
    rw [hpart 5 2 (by omega), x.text, hdrop, List.take_left' ((hlen _).trans hmlen),
      hvalue (by simp) (by omega), hmval]
    rfl
  · have hdrop : (digitText x.year ++ 45 :: (digitText x.month ++ 45 :: digitText x.day)).drop 8 =
        digitText x.day := by
      rw [List.drop_append, hlen, hylen, List.drop_eq_nil_of_le (by rw [hlen]; omega),
        List.nil_append, List.drop_succ_cons, List.drop_append, hlen, hmlen,
        List.drop_eq_nil_of_le (by rw [hlen]; omega)]
      rfl
    rw [hpart 8 2 (by omega), x.text, hdrop, List.take_of_length_le (by rw [hlen]; omega),
      hvalue (by simp) (by omega), hdval]

theorem daysToDate_eq (days : UInt32) : daysToDate days = text (ofNumber days.toNat) := by
  have hdiv : (days.toNat : ℤ) * 86400 / 86400 = days.toNat := Int.mul_ediv_cancel _ (by decide)
  unfold daysToDate gmtime text
  dsimp only
  rw [hdiv, Int.sub_add_cancel]

theorem length_sign_le (s : Bytes) : (sign s).2.length ≤ s.length := by
  fun_cases sign <;> simp

theorem digits_digit (s : Bytes) :
    (digits digit s).1.length ≤ s.length ∧ ∀ v ∈ (digits digit s).1, v < 10 := by
  induction s with
  | nil => exact ⟨Nat.le_refl 0, nofun⟩
  | cons b s ih =>
    unfold digits
    split
    · exact ⟨Nat.zero_le _, nofun⟩
    · next v hv =>
      unfold digit at hv
      split at hv
      · next hb =>
        obtain rfl := Option.some.inj hv
        have hb' : b.toNat ≤ 57 := hb.2
        refine ⟨Nat.succ_le_succ ih.1, ?_⟩
        rw [List.forall_mem_cons]
        exact ⟨by omega, ih.2⟩
      · cases hv

theorem atoi_lt (s : Bytes) : atoi s < 10 ^ s.length := by
  unfold atoi strtol
  dsimp only
  have hlen : (sign ((cstr s).dropWhile isSpace)).2.length ≤ s.length :=
    ((length_sign_le _).trans (List.dropWhile_suffix _).length_le).trans
      (List.takeWhile_prefix _).length_le
  generalize sign ((cstr s).dropWhile isSpace) = p at hlen ⊢
  have hpow : (0 : ℤ) < 10 ^ s.length := by positivity
  obtain ⟨hdigits, hlt⟩ := digits_digit p.2
  have hval : valueOf 10 (digits digit p.2).1 < 10 ^ s.length :=
    (valueOf_lt hlt).trans_le (Nat.pow_le_pow_right (by decide) (hdigits.trans hlen))
  have hval' : (valueOf 10 (digits digit p.2).1 : ℤ) < 10 ^ s.length := by exact_mod_cast hval
  cases hvs : (digits digit p.2).1 with
  | nil => exact hpow
  | cons v vs =>
    rw [hvs] at hval'
    dsimp only
    rw [Option.getD_some]
    split <;> omega

theorem dayNumber_range {y day : ℤ} {m : ℕ} (hlow : 1970 ≤ y) (hhigh : y < 10000) (hday : 1 ≤ day)
    (hday' : day ≤ 31) : 0 ≤ dayNumber y m day ∧ dayNumber y m day < 2 ^ 32 := by
  have hfirst : daysBeforeYear 1970 = 719162 := rfl
  have hlast : daysBeforeYear 10000 = 3652059 := rfl
  have hle := daysBeforeYear_strictMono.monotone hlow
  have hlt := daysBeforeYear_strictMono hhigh
  have hsum := congrArg List.sum (List.take_append_drop m (monthLengths y))
  rw [List.sum_append, sum_monthLengths] at hsum
  have hyear : yearLength y ≤ 366 := by
    unfold yearLength
    split <;> decide
  unfold dayNumber
  omega

theorem dayNumber_eq_zero {y day : ℤ} {m : ℕ} (hlow : 1970 ≤ y) (hday : 1 ≤ day)
    (h : dayNumber y m day = 0) : y = 1970 ∧ m = 0 ∧ day = 1 := by
  have hfirst : daysBeforeYear 1970 = 719162 := rfl
  have hle := daysBeforeYear_strictMono.monotone hlow
  unfold dayNumber at h
  have hsum : ((monthLengths y).take m).sum = 0 := by omega
  refine ⟨daysBeforeYear_strictMono.injective (by omega), ?_, by omega⟩
  cases m with
  | zero => rfl
  | succ m =>
    unfold monthLengths at hsum
    rw [List.take_succ_cons, List.sum_cons] at hsum
    omega

theorem dateToDays_of_rejected {d : Bytes} (h : Rejected d) : dateToDays d = 0 := by
  unfold dateToDays
  split
  · rfl
  · next hlen => exact if_pos (h.resolve_left hlen)

/-- Otherwise the day of the month is counted from its first day, whether or not the month has
it. -/
theorem toNat_dateToDays {d : Bytes} (h : ¬ Rejected d) : ((dateToDays d).toNat : ℤ) =
    dayNumber (number d 0 4) (number d 5 2 - 1).toNat (number d 8 2) := by
  unfold Rejected at h
  push Not at h
  obtain ⟨hlen, hy, hm, hm', hday, hday'⟩ := h
  have hfour := atoi_lt ((d.drop 0).take 4)
  have hlength : ((d.drop 0).take 4).length = 4 := by
    rw [List.length_take, List.length_drop]
    omega
  rw [hlength] at hfour
  obtain ⟨hlow, hhigh⟩ := dayNumber_range (m := (number d 5 2 - 1).toNat) hy hfour hday hday'
  have ht : timegm { year := number d 0 4 - 1900, mon := number d 5 2 - 1, mday := number d 8 2 } =
      86400 * dayNumber (number d 0 4) (number d 5 2 - 1).toNat (number d 8 2) := by
    have hdiv : (number d 5 2 - 1) / 12 = 0 := by omega
    have hmod : (number d 5 2 - 1) % 12 = number d 5 2 - 1 := by omega
    unfold timegm
    dsimp only
    rw [hdiv, hmod, Int.sub_add_cancel]
    simp only [mul_zero, add_zero]
  unfold dateToDays
  dsimp only
  rw [if_neg (by omega), if_neg (by omega), ht, if_neg (by omega),
    Int.mul_ediv_cancel_left _ (by decide)]
  unfold UInt32.ofInt
  rw [UInt32.toNat_ofNat']
  omega

theorem dateToDays_text {d : Bytes} {date : Date} (hd : d.take 10 = text date)
    (hlow : 1970 ≤ date.year)
    (hhigh : date.year ≤ 9999) : ((dateToDays d).toNat : ℤ) = date.number := by
  obtain ⟨hlen, hy, hm, hday⟩ := number_text hd (by omega) hhigh
  have hmonth := month_lt date
  have hpos := date.day_pos
  have hday31 := day_le_31 date
  have hmonth' : (number d 5 2 - 1).toNat = date.month := by omega
  have haccepted : ¬ Rejected d := by
    unfold Rejected
    omega
  rw [toNat_dateToDays haccepted, hy, hmonth', hday]
  rfl

theorem year_le_of_text {d : Bytes} {date : Date} (hd : d.take 10 = text date)
    (hlow : 0 ≤ date.year) :
    date.year ≤ 9999 := by
  obtain ⟨year, hyear⟩ := Int.eq_ofNat_of_zero_le hlow
  have hlen := congrArg List.length hd
  unfold text at hlen
  simp only [List.length_take, List.length_append, List.length_cons, length_setw] at hlen
  have hfour : (toText date.year).length ≤ 4 := by omega
  rw [hyear, toText_natCast, length_decimal_le_iff (by decide)] at hfour
  omega

theorem kept_iff (d : Bytes) : Kept d ↔ Plain d := by
  constructor
  · intro h
    by_cases hrejected : Rejected d
    · exact .inl hrejected
    have hdays := toNat_dateToDays hrejected
    have hranges := hrejected
    unfold Rejected at hranges
    push Not at hranges
    obtain ⟨-, hy, hm, hm', hday, -⟩ := hranges
    rcases h with hzero | hkept
    · rw [hzero] at hdays
      obtain ⟨hyear, hmonth, hone⟩ := dayNumber_eq_zero hy hday hdays.symm
      exact .inr (.inl ⟨hyear, by omega, hone⟩)
    · refine .inr (.inr ⟨_, ?_, hkept.symm.trans (daysToDate_eq _)⟩)
      rw [← not_lt, year_lt_iff, number_ofNumber]
      have hfirst : daysBeforeYear 1970 = 719162 := rfl
      omega
  · rintro (hrejected | ⟨hy, hm, hday⟩ | ⟨date, hlow, hd⟩)
    · exact .inl (dateToDays_of_rejected hrejected)
    · by_cases hrejected : Rejected d
      · exact .inl (dateToDays_of_rejected hrejected)
      · have hdays := toNat_dateToDays hrejected
        rw [hy, hm, hday] at hdays
        have hzero : dayNumber 1970 (1 - 1 : ℤ).toNat 1 = 0 := rfl
        exact .inl (UInt32.toNat_inj.mp (by rw [hzero] at hdays; exact_mod_cast hdays))
    · have hnumber := dateToDays_text hd hlow (year_le_of_text hd (by omega))
      right
      rw [daysToDate_eq, hnumber, ofNumber_number, hd]

theorem accepted {date : Date} (hlow : 1970 ≤ date.year) (hhigh : date.year ≤ 9999)
    (hfirst : (date.year, date.month, date.day) ≠ (1970, 0, 1)) : dateToDays (text date) ≠ 0 := by
  have htake : (text date).take 10 = text date :=
    List.take_of_length_le (length_text (by omega) hhigh).le
  have hnumber := dateToDays_text htake hlow hhigh
  intro hzero
  rw [hzero] at hnumber
  have hpos := date.day_pos
  obtain ⟨hyear, hmonth, hday⟩ := dayNumber_eq_zero hlow (by omega) hnumber.symm
  exact hfirst (by rw [hyear, hmonth]; congr 2; omega)

/-- A date is kept in exactly these cases, and each day from 1970-01-02 to 9999-12-31 is
accepted. -/
theorem dates_kept (d : Bytes) : (Kept d ↔ Plain d) ∧
    ∀ date : Date, 1970 ≤ date.year → date.year ≤ 9999 →
      (date.year, date.month, date.day) ≠ (1970, 0, 1) → dateToDays (text date) ≠ 0 :=
  ⟨kept_iff d, fun _ ↦ accepted⟩

/-- The last day of a leap February, with a text behind it. -/
theorem dates_kept_february :
    Kept (ascii "2028-02-29T00:00") ∧ dateToDays (ascii "2028-02-29") ≠ 0 := by
  let date : Date := ⟨2028, 1, 29, by decide, 29, rfl, le_rfl⟩
  have htext : ascii "2028-02-29" = text date := by decide +kernel
  have htake : (ascii "2028-02-29T00:00").take 10 = text date := by decide +kernel
  obtain ⟨hkept, haccepted⟩ := dates_kept (ascii "2028-02-29T00:00")
  refine ⟨hkept.mpr (.inr (.inr ⟨date, by decide, htake⟩)), ?_⟩
  rw [htext]
  exact haccepted date (by decide) (by decide) (by decide)

/-- The month does not have the day. -/
theorem not_dates_kept : ¬ ∀ d, Kept d := by
  intro h
  have hdays : dateToDays (ascii "2026-02-30") = 20514 ∧ daysToDate 20514 = ascii "2026-03-02" := by
    decide +kernel
  have hkept := h (ascii "2026-02-30")
  unfold Kept at hkept
  rw [hdays.1, hdays.2] at hkept
  revert hkept
  decide

end NavCaster.Service.ExpiryDate
