import Mathlib.Data.Int.ConditionallyCompleteOrder
import Mathlib.Data.Fin.VecNotation
import Mathlib.Order.SuccPred.LinearLocallyFinite
import Mathlib.Data.Int.SuccPred
import Mathlib.Tactic.IntervalCases
import Mathlib.Tactic.Ring

namespace NavCaster.Library.Calendar

def IsLeap (y : ℤ) : Prop := y % 4 = 0 ∧ (y % 100 ≠ 0 ∨ y % 400 = 0)

instance (y : ℤ) : Decidable (IsLeap y) := inferInstanceAs (Decidable (_ ∧ _))

def monthLengths (y : ℤ) : List ℕ :=
  [31, if IsLeap y then 29 else 28, 31, 30, 31, 30, 31, 31, 30, 31, 30, 31]

def yearLength (y : ℤ) : ℕ := if IsLeap y then 366 else 365

def daysBeforeYear (y : ℤ) : ℤ := 365 * (y - 1) + (y - 1) / 4 - (y - 1) / 100 + (y - 1) / 400

/-- The year with the `n`-th day: the quotient by the mean length, or one of its neighbours. -/
def yearOf (n : ℤ) : ℤ :=
  let y := 400 * n / 146097 + 1
  if n < daysBeforeYear y then y - 1 else if daysBeforeYear (y + 1) ≤ n then y + 1 else y

/-- The part of a division into parts of the given lengths where a position lies, and the position
in it. -/
def locate : List ℕ → ℕ → ℕ × ℕ
  | [], n => (0, n)
  | l :: ls, n => if n < l then (0, n) else
    let p := locate ls (n - l)
    (p.1 + 1, p.2)

theorem locate_sum {ls : List ℕ} {i r l : ℕ} (hi : ls[i]? = some l) (hr : r < l) :
    locate ls ((ls.take i).sum + r) = (i, r) := by
  induction ls generalizing i with
  | nil => cases hi
  | cons l' ls ih =>
    cases i with
    | zero =>
      cases hi
      simp [locate, hr]
    | succ i =>
      have hrest := ih (i := i) (by simpa using hi)
      rw [List.take_succ_cons, List.sum_cons, locate, if_neg (by omega)]
      have hsub : l' + (ls.take i).sum + r - l' = (ls.take i).sum + r := by omega
      rw [hsub, hrest]

theorem locate_spec {ls : List ℕ} {n : ℕ} (hn : n < ls.sum) :
    ∃ l, ls[(locate ls n).1]? = some l ∧ (locate ls n).2 < l ∧
      (ls.take (locate ls n).1).sum + (locate ls n).2 = n := by
  induction ls generalizing n with
  | nil => cases hn
  | cons l ls ih =>
    rw [locate]
    split
    · next hlt => exact ⟨l, rfl, hlt, by simp⟩
    · next hle =>
      rw [List.sum_cons] at hn
      obtain ⟨l', hl', hlt, hsum⟩ := ih (n := n - l) (by omega)
      refine ⟨l', by simpa using hl', hlt, ?_⟩
      dsimp only
      rw [List.take_succ_cons, List.sum_cons]
      omega

theorem sum_monthLengths (y : ℤ) : (monthLengths y).sum = yearLength y := by
  unfold monthLengths yearLength
  split <;> rfl

theorem daysBeforeYear_succ (y : ℤ) : daysBeforeYear (y + 1) = daysBeforeYear y + yearLength y := by
  unfold daysBeforeYear yearLength
  split <;> unfold IsLeap at * <;> omega

theorem daysBeforeYear_strictMono : StrictMono daysBeforeYear := by
  refine strictMono_int_of_lt_succ fun y ↦ ?_
  rw [daysBeforeYear_succ]
  unfold yearLength
  split <;> omega

theorem yearOf_spec (n : ℤ) :
    daysBeforeYear (yearOf n) ≤ n ∧ n < daysBeforeYear (yearOf n + 1) := by
  unfold yearOf
  dsimp only
  split_ifs with hlow hhigh
  · refine ⟨?_, by rwa [Int.sub_add_cancel]⟩
    unfold daysBeforeYear
    omega
  · refine ⟨hhigh, ?_⟩
    unfold daysBeforeYear
    omega
  · exact ⟨not_lt.mp hlow, not_le.mp hhigh⟩

theorem yearOf_eq {n y : ℤ} (hlow : daysBeforeYear y ≤ n) (hhigh : n < daysBeforeYear (y + 1)) :
    yearOf n = y := by
  obtain ⟨hlow', hhigh'⟩ := yearOf_spec n
  have hle := daysBeforeYear_strictMono.lt_iff_lt.mp (hlow.trans_lt hhigh')
  have hge := daysBeforeYear_strictMono.lt_iff_lt.mp (hlow'.trans_lt hhigh)
  omega

/-- A day of the calendar. The months are counted from 0 and the days of a month from 1. -/
@[ext]
structure Date where
  year : ℤ
  month : ℕ
  day : ℕ
  day_pos : 1 ≤ day
  day_le : ∃ l, (monthLengths year)[month]? = some l ∧ day ≤ l

/-- The days from 1970-01-01 to a day of a month, which need not be one that the month has. -/
def dayNumber (year : ℤ) (month : ℕ) (day : ℤ) : ℤ :=
  daysBeforeYear year + ((monthLengths year).take month).sum + (day - 1) - 719162

namespace Date

variable (d : Date)

def number : ℤ := dayNumber d.year d.month d.day

/-- The place in the year, from 0 on. -/
def place : ℕ := ((monthLengths d.year).take d.month).sum + (d.day - 1)

theorem place_lt : d.place < yearLength d.year := by
  obtain ⟨l, hl, hday⟩ := d.day_le
  have hpos := d.day_pos
  have hsplit := congrArg List.sum (List.take_append_drop (d.month + 1) (monthLengths d.year))
  rw [List.sum_append, List.take_add_one, hl, List.sum_append, Option.toList_some,
    List.sum_singleton, sum_monthLengths] at hsplit
  unfold place
  omega

theorem number_eq : d.number + 719162 = daysBeforeYear d.year + d.place := by
  have hpos := d.day_pos
  unfold number dayNumber place
  omega

theorem number_range : daysBeforeYear d.year ≤ d.number + 719162 ∧
    d.number + 719162 < daysBeforeYear (d.year + 1) := by
  have hlt := d.place_lt
  rw [d.number_eq, daysBeforeYear_succ]
  omega

end Date

def splitYear (n : ℤ) : ℤ × ℕ :=
  let y := yearOf (n + 719162)
  (y, (n + 719162 - daysBeforeYear y).toNat)

theorem splitYear_spec (n : ℤ) : (splitYear n).2 < yearLength (splitYear n).1 ∧
    daysBeforeYear (splitYear n).1 + (splitYear n).2 - 719162 = n := by
  obtain ⟨hlow, hhigh⟩ := yearOf_spec (n + 719162)
  rw [daysBeforeYear_succ] at hhigh
  unfold splitYear
  dsimp only
  omega

def ofNumber (n : ℤ) : Date :=
  let p := splitYear n
  let q := locate (monthLengths p.1) p.2
  { year := p.1
    month := q.1
    day := q.2 + 1
    day_pos := by omega
    day_le := by
      have hsum : p.2 < (monthLengths p.1).sum := by
        rw [sum_monthLengths]
        exact (splitYear_spec n).1
      obtain ⟨l, hl, hlt, -⟩ := locate_spec hsum
      exact ⟨l, hl, hlt⟩ }

theorem number_ofNumber (n : ℤ) : (ofNumber n).number = n := by
  obtain ⟨hlt, hsum⟩ := splitYear_spec n
  rw [← sum_monthLengths] at hlt
  obtain ⟨l, -, -, hmonth⟩ := locate_spec hlt
  unfold Date.number dayNumber ofNumber
  dsimp only
  omega

theorem ofNumber_number (d : Date) : ofNumber d.number = d := by
  obtain ⟨l, hl, hday⟩ := d.day_le
  have hpos := d.day_pos
  have hyear : yearOf (d.number + 719162) = d.year := yearOf_eq d.number_range.1 d.number_range.2
  have hsplit : splitYear d.number = (d.year, d.place) := by
    unfold splitYear
    rw [hyear, d.number_eq]
    dsimp only
    congr 1
    omega
  have hlocate : locate (monthLengths d.year) d.place = (d.month, d.day - 1) :=
    locate_sum hl (by omega)
  rw [Date.ext_iff]
  unfold ofNumber
  dsimp only
  rw [hsplit]
  dsimp only
  rw [hlocate]
  exact ⟨rfl, rfl, by omega⟩

theorem year_lt_iff (d : Date) (y : ℤ) : d.year < y ↔ d.number + 719162 < daysBeforeYear y := by
  obtain ⟨hlow, hhigh⟩ := d.number_range
  constructor
  · intro h
    exact hhigh.trans_le (daysBeforeYear_strictMono.monotone (by omega))
  · intro h
    exact daysBeforeYear_strictMono.lt_iff_lt.mp (hlow.trans_lt h)

/-- The fields of a point of time, counted as `struct tm` does. -/
structure Tm where
  sec : ℤ := 0
  min : ℤ := 0
  hour : ℤ := 0
  mday : ℤ
  mon : ℤ
  year : ℤ

def timegm (tm : Tm) : ℤ :=
  86400 * dayNumber (tm.year + 1900 + tm.mon / 12) (tm.mon % 12).toNat tm.mday +
    3600 * tm.hour + 60 * tm.min + tm.sec

def gmtime (t : ℤ) : Tm where
  sec := t % 60
  min := t / 60 % 60
  hour := t / 3600 % 24
  mday := (ofNumber (t / 86400)).day
  mon := (ofNumber (t / 86400)).month
  year := (ofNumber (t / 86400)).year - 1900

theorem month_lt (d : Date) : d.month < 12 := by
  obtain ⟨l, hl, -⟩ := d.day_le
  exact (List.getElem?_eq_some_iff.mp hl).1

theorem timegm_date (d : Date) {year mon mday : ℤ} (hyear : year + 1900 = d.year)
    (hmon : mon = d.month)
    (hmday : mday = d.day) : timegm { mday, mon, year } = 86400 * d.number := by
  have hmonth := month_lt d
  have hdiv : mon / 12 = 0 := by omega
  have hmod : (mon % 12).toNat = d.month := by omega
  unfold timegm Date.number
  dsimp only
  rw [hdiv, hmod, hyear, hmday, add_zero]
  simp only [mul_zero, add_zero]

/-- What `gmtime_r` splits up, `timegm` puts together. -/
theorem timegm_gmtime (t : ℤ) : timegm (gmtime t) = t := by
  have hyear : (gmtime t).year + 1900 = (ofNumber (t / 86400)).year := Int.sub_add_cancel _ _
  have hdate := timegm_date (ofNumber (t / 86400)) hyear rfl rfl
  rw [number_ofNumber] at hdate
  unfold timegm at hdate ⊢
  dsimp only [gmtime] at hdate ⊢
  omega

end NavCaster.Library.Calendar
