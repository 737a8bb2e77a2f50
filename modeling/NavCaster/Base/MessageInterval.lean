import NavCaster.Base.Rtcm

namespace NavCaster.Base.MessageInterval

open NavCaster.Library
open NavCaster.Library.Double
open NavCaster.Base.Rtcm

def arriveAll (times : List ℤ) : Option MsgStat := times.foldlM MsgStat.arrive {}

structure Arrival where
  id : ℤ
  now : ℤ

def decodeMessage (stats : MsgStats) (arrival : Arrival) : Option MsgStats :=
  recordStat stats arrival.id arrival.now

def decodeMessages (arrivals : List Arrival) : Option MsgStats := arrivals.foldlM decodeMessage ∅

def times (id : ℤ) (arrivals : List Arrival) : List ℤ := (arrivals.filter (·.id = id)).map (·.now)

/-- The message arrives at `t` and then `n` times more, always `p` seconds after the last time. -/
def every (t p : ℤ) (n : ℕ) : List ℤ := (List.range (n + 1)).map fun i : ℕ ↦ t + i * p

inductive Arrives (stat : MsgStat) (now : ℤ) (stat' : MsgStat) : Prop
  | opens (hcount : int32 (stat.windowCount + 1) = 1) (hcount' : stat'.windowCount = 1)
    (hstart : stat'.windowStart = now) (hinterval : stat'.interval = stat.interval)
  | closes (hcount : int32 (stat.windowCount + 1) ≠ 1)
      (helapsed : 300 ≤ int64 (now - stat.windowStart))
    (hcount' : stat'.windowCount = 1) (hstart : stat'.windowStart = now)
    (hinterval : stat'.interval = max 1 (toInt 32 (round (ofInt (int64 (now - stat.windowStart)) /
      ofInt (int32 (int32 (stat.windowCount + 1) - 1))))))
  | inside (hcount : int32 (stat.windowCount + 1) ≠ 1)
      (helapsed : int64 (now - stat.windowStart) < 300)
    (hcount' : stat'.windowCount = int32 (stat.windowCount + 1))
    (hstart : stat'.windowStart = stat.windowStart) (hinterval : stat'.interval = stat.interval)

theorem int32_sub_one {n : ℤ} (h : int32 (int32 n - 1) = 0) : int32 n = 1 := by
  have hdvd : (2 ^ 32 : ℤ) ∣ int32 n - 1 := Int.dvd_of_bmod_eq_zero h
  have hlow : -(2 ^ 32 / 2) ≤ int32 n := Int.le_bmod (by decide)
  have hhigh : int32 n < (2 ^ 32 + 1) / 2 := Int.bmod_lt (by decide)
  omega

/-- No arrival divides by zero: the window is opened instead. -/
theorem arrive_some (stat : MsgStat) (now : ℤ) :
    ∃ stat', stat.arrive now = some stat' ∧ Arrives stat now stat' := by
  obtain ⟨first, hfirst, hcount, hstart, hinterval⟩ : ∃ first : MsgStat,
      (if stat.count = 0 then { stat with firstTime := now } else stat) = first ∧
      first.windowCount = stat.windowCount ∧ first.windowStart = stat.windowStart ∧
      first.interval = stat.interval := by
    split <;> exact ⟨_, rfl, rfl, rfl, rfl⟩
  unfold MsgStat.arrive
  simp only [hfirst]
  rw [hcount, hstart]
  by_cases hopens : int32 (stat.windowCount + 1) = 1
  · rw [if_pos hopens]
    exact ⟨_, rfl, .opens hopens hopens rfl hinterval⟩
  rw [if_neg hopens]
  by_cases hcloses : int64 (now - stat.windowStart) ≥ 300
  · rw [if_pos hcloses, if_neg (mt int32_sub_one hopens)]
    refine ⟨_, rfl, .closes hopens hcloses rfl rfl ?_⟩
    dsimp only
    split <;> omega
  · rw [if_neg hcloses]
    exact ⟨_, rfl, .inside hopens (not_le.mp hcloses) rfl rfl hinterval⟩

theorem arriveAll_some (history : List ℤ) :
    ∃ stat, arriveAll history = some stat ∧ 1 ≤ stat.interval := by
  induction history using List.reverseRecOn with
  | nil => exact ⟨{}, rfl, le_rfl⟩
  | append_singleton history now ih =>
    obtain ⟨stat, hrun, hinterval⟩ := ih
    obtain ⟨stat', harrive, harrives⟩ := arrive_some stat now
    refine ⟨stat', ?_, ?_⟩
    · unfold arriveAll at hrun ⊢
      rw [List.foldlM_append, hrun]
      simpa using harrive
    · cases harrives <;> omega

section Period

structure Period (t p old : ℤ) (n : ℕ) (stat : MsgStat) : Prop where
  window : ∃ m k : ℕ, n = m + k ∧ stat.windowStart = t + m * p ∧ stat.windowCount = k + 1 ∧
    k * p < 300 ∧
    (m = 0 ∧ stat.interval = old ∨ 300 ≤ m * p ∧ stat.interval = p)

variable {t p old : ℤ} {n : ℕ} {stat stat' : MsgStat}

theorem Period.interval (h : Period t p old n stat) (hp : 1 ≤ p) :
    stat.interval = if n * p < 300 then old else p := by
  obtain ⟨m, k, rfl, -, -, hk, ⟨rfl, hinterval⟩ | ⟨hm, hinterval⟩⟩ := h.window
  · rw [hinterval, Nat.zero_add, if_pos hk]
  · have hle : (m : ℤ) * p ≤ (m + k : ℕ) * p := by
      apply Int.mul_le_mul_of_nonneg_right <;> omega
    rw [hinterval, if_neg (by omega)]

theorem interval_of_gaps {k : ℕ} (hk : k < 300) (hp : 1 ≤ p) (hp' : p ≤ 2147483647) :
    toInt 32 (round (ofInt ((k + 1) * p) / ofInt (k + 1))) = p := by
  obtain ⟨q, rfl⟩ := Int.eq_ofNat_of_zero_le (show 0 ≤ p by omega)
  have hmul : q * (k + 1) ≤ 2147483647 * 300 := Nat.mul_le_mul (by omega) (by omega)
  have hdiv :=
    ofInt_div (a := q) (b := k + 1) (whole_of_le (by omega)) (whole_of_le (by omega)) (by omega)
    (by omega) (by omega)
  have hwhole : Whole q := whole_of_le (by omega)
  rw [Nat.mul_comm] at hdiv
  push_cast at hdiv
  rw [hdiv, round_ofInt hwhole, toInt_ofInt hwhole (by norm_num; omega)]

theorem int32_of_lt {i : ℤ} (hlow : -2147483648 ≤ i) (hhigh : i < 2147483648) : int32 i = i :=
  Int.bmod_eq_of_le (by omega) (by omega)

theorem int64_of_lt {i : ℤ} (hlow : -9223372036854775808 ≤ i) (hhigh : i < 9223372036854775808) :
    int64 i = i :=
  Int.bmod_eq_of_le (by omega) (by omega)

theorem Period.arrive (h : Period t p old n stat) (hp : 1 ≤ p) (hp' : p ≤ 2147483647)
    (harrives : Arrives stat (t + (n + 1 : ℕ) * p) stat') : Period t p old (n + 1) stat' := by
  obtain ⟨m, k, rfl, hstart, hcount, hk, hinterval⟩ := h.window
  have hgap : (t + (m + k + 1 : ℕ) * p) - (t + m * p) = (k + 1) * p := by
    push_cast
    ring
  have hkp : (k : ℤ) ≤ k * p := le_mul_of_one_le_right (by omega) hp
  have hsucc : ((k : ℤ) + 1) * p = k * p + p := by ring
  have helapsed : int64 (t + (m + k + 1 : ℕ) * p - stat.windowStart) = (k + 1) * p := by
    rw [hstart, hgap]
    exact int64_of_lt (by omega) (by omega)
  have hnext : int32 (stat.windowCount + 1) = k + 2 := by
    rw [hcount, int32_of_lt (by omega) (by omega)]
    omega
  cases harrives with
  | opens hopens _ _ _ => omega
  | closes _ hclose hcount' hstart' hinterval' =>
    -- the message that closes the window has been counted: k + 2 messages with k + 1 gaps
    have hgaps : int32 (int32 (stat.windowCount + 1) - 1) = k + 1 := by
      rw [hnext, int32_of_lt (by omega) (by omega)]
      omega
    rw [hgaps, helapsed, interval_of_gaps (by omega) hp hp', max_eq_right hp] at hinterval'
    have hle : ((k : ℤ) + 1) * p ≤ (m + k + 1 : ℕ) * p := by
      apply Int.mul_le_mul_of_nonneg_right <;> omega
    rw [helapsed] at hclose
    exact ⟨m + k + 1, 0, by omega, hstart', hcount', by omega, .inr ⟨by omega, hinterval'⟩⟩
  | inside _ hinside hcount' hstart' hinterval' =>
    rw [helapsed] at hinside
    refine ⟨m, k + 1, by omega, by omega, by omega, ?_, ?_⟩
    · push_cast
      omega
    · rw [hinterval']
      exact hinterval

theorem arriveAll_append {before after : List ℤ} {first : MsgStat}
    (h : arriveAll before = some first) :
    arriveAll (before ++ after) = after.foldlM MsgStat.arrive first := by
  unfold arriveAll at h ⊢
  rw [List.foldlM_append, h]
  rfl

theorem windowStart_of_opens {before : List ℤ} (h : arriveAll (before ++ [t]) = some stat)
    (hcount : stat.windowCount = 1) : stat.windowStart = t := by
  obtain ⟨prev, hprev, -⟩ := arriveAll_some before
  obtain ⟨stat', harrive, harrives⟩ := arrive_some prev t
  rw [arriveAll_append hprev] at h
  obtain rfl : stat' = stat := by
    simpa [harrive] using h
  cases harrives with
  | opens _ _ hstart _ => exact hstart
  | closes _ _ _ hstart _ => exact hstart
  | inside hne _ hcount' _ _ => exact absurd (hcount'.symm.trans hcount) hne

theorem every_succ (t p : ℤ) (n : ℕ) :
    every t p (n + 1) = every t p n ++ [t + (n + 1 : ℕ) * p] := by
  unfold every
  rw [List.range_succ, List.map_append]
  rfl

theorem period_run {before : List ℤ} {first : MsgStat} (h : arriveAll (before ++ [t]) = some first)
    (hcount : first.windowCount = 1) (hp : 1 ≤ p) (hp' : p ≤ 2147483647) (n : ℕ) :
    ∃ stat, arriveAll (before ++ every t p n) = some stat ∧ Period t p first.interval n stat := by
  induction n with
  | zero =>
    have hstart := windowStart_of_opens h hcount
    have hevery : every t p 0 = [t] := by simp [every]
    rw [hevery]
    exact ⟨first, h, 0, 0, rfl, by omega, hcount, by omega, .inl ⟨rfl, rfl⟩⟩
  | succ n ih =>
    obtain ⟨stat, hrun, hperiod⟩ := ih
    obtain ⟨stat', harrive, harrives⟩ := arrive_some stat (t + (n + 1 : ℕ) * p)
    refine ⟨stat', ?_, hperiod.arrive hp hp' harrives⟩
    rw [every_succ, ← List.append_assoc, arriveAll_append hrun]
    simpa using harrive

end Period

section Numbers

variable {id : ℤ} {stats stats' : MsgStats}

theorem entry_insert (stats : MsgStats) (id id' : ℤ) (stat : MsgStat) :
    entry (stats.insert id' stat) id = if id = id' then stat else entry stats id := by
  unfold entry
  rw [Table.lookup_insert_if]
  split <;> rfl

theorem exists_recordStat (stats : MsgStats) (id now : ℤ) :
    ∃ stat, (entry stats id).arrive now = some stat ∧
      recordStat stats id now = some (stats.insert id stat) := by
  obtain ⟨stat, harrive, -⟩ := arrive_some (entry stats id) now
  refine ⟨stat, harrive, ?_⟩
  rw [recordStat, harrive, Option.map_some]

theorem entry_decodeMessages (arrivals : List Arrival) :
    ∃ stats, decodeMessages arrivals = some stats ∧
    ∀ id, arriveAll (times id arrivals) = some (entry stats id) := by
  induction arrivals using List.reverseRecOn with
  | nil => exact ⟨∅, rfl, fun _ ↦ rfl⟩
  | append_singleton arrivals arrival ih =>
    obtain ⟨stats, hrun, hentry⟩ := ih
    obtain ⟨stat, harrive, hrecord⟩ := exists_recordStat stats arrival.id arrival.now
    refine ⟨stats.insert arrival.id stat, ?_, fun id ↦ ?_⟩
    · unfold decodeMessages at hrun ⊢
      rw [List.foldlM_append, hrun]
      simp [decodeMessage, hrecord]
    · have htimes : times id (arrivals ++ [arrival]) =
          times id arrivals ++ if arrival.id = id then [arrival.now] else [] := by
        unfold times
        rw [List.filter_append, List.map_append]
        congr 1
        by_cases hid : arrival.id = id <;> simp [hid]
      rw [htimes, arriveAll_append (hentry id), entry_insert]
      by_cases hid : arrival.id = id
      · subst hid
        simpa using harrive
      · rw [if_neg hid, if_neg (Ne.symm hid)]
        rfl

end Numbers

/-- Whenever a window is opened and the messages of the number then come with a constant period, the
interval is the period as soon as the window is closed; a period has to fit into the interval. -/
theorem intervals_estimated (arrivals : List Arrival) :
    ∃ stats, decodeMessages arrivals = some stats ∧ ∀ id, 1 ≤ (entry stats id).interval ∧
      ∀ before t p n first, times id arrivals = before ++ every t p n → 1 ≤ p → p ≤ 2147483647 →
        arriveAll (before ++ [t]) = some first → first.windowCount = 1 →
        (entry stats id).interval = if n * p < 300 then first.interval else p := by
  obtain ⟨stats, hrun, hentry⟩ := entry_decodeMessages arrivals
  refine ⟨stats, hrun, fun id ↦ ⟨?_, ?_⟩⟩
  · obtain ⟨stat, hstat, hinterval⟩ := arriveAll_some (times id arrivals)
    rw [hentry id] at hstat
    cases hstat
    exact hinterval
  · intro before t p n first htimes hp hp' hfirst hcount
    obtain ⟨stat, hstat, hperiod⟩ := period_run hfirst hcount hp hp' n
    rw [← htimes, hentry id] at hstat
    cases hstat
    exact hperiod.interval hp

/-- A message every 30 seconds, with another one between them. -/
theorem intervals_estimated_half_minute :
    ∃ stats,
      decodeMessages ((every 100 30 10).flatMap fun now ↦ [⟨1005, now⟩, ⟨1074, now + 1⟩]) =
        some stats ∧
      (entry stats 1005).interval = 30 ∧ (entry stats 1074).interval = 30 := by
  obtain ⟨stats, hrun, hestimated⟩ :=
    intervals_estimated ((every 100 30 10).flatMap fun now ↦ [⟨1005, now⟩, ⟨1074, now + 1⟩])
  exact ⟨stats, hrun,
    (hestimated 1005).2 [] 100 30 10 _ (by decide) (by decide) (by decide) rfl (by decide),
    (hestimated 1074).2 [] 101 30 10 _ (by decide) (by decide) (by decide) rfl (by decide)⟩

/-- Two messages that are 2 ^ 31 seconds apart. -/
theorem not_intervals_estimated : ¬∀ (id t p : ℤ) (n : ℕ), 1 ≤ p → 300 ≤ n * p → ∀ stats,
    decodeMessages ((every t p n).map (⟨id, ·⟩)) = some stats → (entry stats id).interval = p := by
  intro h
  obtain ⟨stats, hrun, hentry⟩ := entry_decodeMessages ((every 0 2147483648 1).map (⟨1005, ·⟩))
  have hp := h 1005 0 2147483648 1 (by decide) (by decide) stats hrun
  have hone : (arriveAll [0, 2147483648]).map (·.interval) = some 1 := by decide +kernel
  have hstat := hentry 1005
  change arriveAll [0, 2147483648] = _ at hstat
  rw [hstat, Option.map_some, hp] at hone
  exact absurd hone (by decide)

end NavCaster.Base.MessageInterval
