import NavCaster.Auth.Account
import NavCaster.Library.Decimal

namespace NavCaster.Http.Statistics

open NavCaster.Library.Strto NavCaster.Library.Decimal
open NavCaster.Auth.Account (Json)

structure Tm where
  year : Int
  month : Int
  day : Int
  hour : Int := 0
  minute : Int := 0
  second : Int := 0
  isdst : Int := 0

/-- The calendar of the local time zone: `strptime` with `%Y-%m-%d`, `mktime`, which gives the time
and puts the fields right, and `localtime_r`. -/
structure Zone where
  strptime : Bytes → Option Tm
  mktime : Tm → Int × Tm
  localtime : Int → Tm

namespace Zone

variable (zone : Zone)

def dayOf (date : Bytes) : Option (Int × Int) :=
  (zone.strptime date).map fun tm ↦
    let (start, tm) := zone.mktime tm
    (start, (zone.mktime { tm with day := tm.day + 1 }).1)

def midnight (now : Int) : Int :=
  (zone.mktime { zone.localtime now with hour := 0, minute := 0, second := 0 }).1

/-- A time as a number, or as a date; 0 where there is none. -/
def parseTimeParam (param : Option Bytes) : Int :=
  match param with
  | none => 0
  | some s =>
    if s = [] then 0
    else match stol s with
      | .ok v => v
      | .error _ => ((zone.strptime s).map fun tm ↦ (zone.mktime tm).1).getD 0

end Zone

/-- The four kinds of sessions that are counted. -/
inductive Kind
  | mpt | usr | pull | push
  deriving DecidableEq

def kindOf (isMpt : Bool) (type : Int) : Kind :=
  if isMpt = true ∧ type = 5 then .pull
  else if isMpt = false ∧ type = 6 then .push
  else if isMpt then .mpt
  else .usr

structure Share where
  kind : Kind
  name : Bytes := []
  overlapStart : Int
  overlapEnd : Int
  deriving DecidableEq

structure Range where
  start : Int
  stop : Int

/-- `none` where it throws, and no share where the session is not in the range. An open session
lasts up to now. -/
def share (r : Range) (now : Int) (isMpt : Bool) (entry : Json) : Option (Option Share) :=
  match entry with
  | .object _ => do
    let kind := kindOf isMpt (← entry.value Json.getInt "type" 0)
    let ct ← entry.value Json.getLongLong "connect_time" 0
    let dt ← entry.value Json.getLongLong "disconnect_time" 0
    let dt := if dt = 0 then now else dt
    if dt < r.start ∨ r.stop ≤ ct then return none
    let name ← if kind = .pull ∨ kind = .push then some [] else entry.value Json.getString "name" []
    return some { kind, name, overlapStart := max ct r.start, overlapEnd := min dt r.stop }
  | _ => some none

structure Totals where
  connections : Kind → Nat := fun _ ↦ 0
  duration : Kind → Int := fun _ ↦ 0
  names : Kind → Finset Bytes := fun _ ↦ ∅
  hourly : Kind → List Nat

/-- The buckets of a share, from its ends as they are counted from the start of the range. -/
abbrev Buckets := Int → Int → Int × Int

def mark (b e : Int) (hourly : List Nat) : List Nat :=
  hourly.mapIdx fun i n ↦ if b ≤ i ∧ i ≤ e then n + 1 else n

def Totals.add (r : Range) (buckets : Buckets) (t : Totals) (s : Share) : Totals :=
  let (b, e) := buckets (s.overlapStart - r.start) (s.overlapEnd - r.start)
  { connections := Function.update t.connections s.kind (t.connections s.kind + 1)
    duration :=
      if s.kind = .pull ∨ s.kind = .push then t.duration
      else Function.update t.duration s.kind (t.duration s.kind + (s.overlapEnd - s.overlapStart))
    names :=
      if s.name = [] then t.names
      else Function.update t.names s.kind (insert s.name (t.names s.kind))
    hourly := Function.update t.hourly s.kind (mark b e (t.hourly s.kind)) }

structure Logs where
  mpt : List Json
  usr : List Json

def Logs.shares (logs : Logs) (r : Range) (now : Int) : Option (List Share) := do
  let mpt ← logs.mpt.mapM (share r now true)
  let usr ← logs.usr.mapM (share r now false)
  return mpt.reduceOption ++ usr.reduceOption

def peak (hourly : List Nat) : Nat := hourly.foldl max 0

structure Stats where
  start : Int
  stop : Int
  connections : Kind → Nat
  peakConcurrent : Kind → Nat
  avgDurationMpt : Int
  avgDurationUsr : Int
  uniqueMountpoints : Nat
  uniqueUsers : Nat
  hourly : Kind → List Nat
  bucketSecs : Int

/-- The numbers over all shares of a range, in so many buckets of so many seconds. -/
def aggregate (r : Range) (secs : Int) (count : Nat) (buckets : Buckets) (shares : List Share) :
    Stats :=
  let t := shares.foldl (Totals.add r buckets) { hourly := fun _ ↦ List.replicate count 0 }
  let avg (k : Kind) := if 0 < t.connections k then (t.duration k).tdiv (t.connections k) else 0
  { start := r.start
    stop := r.stop
    connections := t.connections
    peakConcurrent := fun k ↦ peak (t.hourly k)
    avgDurationMpt := avg .mpt
    avgDurationUsr := avg .usr
    uniqueMountpoints := (t.names .mpt).card
    uniqueUsers := (t.names .usr).card
    hourly := t.hourly
    bucketSecs := secs }

def toInt (n : Int) : Int := n.bmod (2 ^ 32)

def bucketSecs (rangeSecs : Int) : Int :=
  if rangeSecs ≤ 48 * 3600 then 3600 else if rangeSecs ≤ 31 * 86400 then 86400 else 7 * 86400

def numHours (rangeSecs : Int) : Nat :=
  let n := toInt ((rangeSecs + bucketSecs rangeSecs - 1).tdiv (bucketSecs rangeSecs))
  if n ≤ 0 then 1 else if 200 < n then 200 else n.toNat

def overviewBuckets (secs : Int) (count : Nat) : Buckets := fun hStart hEnd ↦
  let b := toInt (hStart.tdiv secs)
  let e := toInt (hEnd.tdiv secs)
  (if b < 0 then 0 else b, if (count : Int) ≤ e then count - 1 else e)

def dailyBuckets : Buckets := fun hStart hEnd ↦
  (max 0 (toInt (hStart.tdiv 3600)), min (24 - 1) (toInt (hEnd.tdiv 3600)))

structure OverviewParams where
  start : Option Bytes := none
  stop : Option Bytes := none
  date : Option Bytes := none

/-- The range that is asked for: a day, or what lies between two times. -/
def overviewRange (zone : Zone) (now : Int) (params : OverviewParams) : Range :=
  let given : Int × Int := (zone.parseTimeParam params.start, zone.parseTimeParam params.stop)
  let (start, stop) := ((params.date.bind fun d ↦ if d = [] then none else zone.dayOf d)).getD given
  { start := if start = 0 then zone.midnight now else start
    stop := if stop = 0 then now + 1 else stop }

/-- `none` where it throws. -/
def handleGetStatsOverview (zone : Zone) (now : Int) (params : OverviewParams) (logs : Logs) :
    Option Stats :=
  let r := overviewRange zone now params
  let rangeSecs := max 1 (r.stop - r.start)
  let secs := bucketSecs rangeSecs
  let count := numHours rangeSecs
  (logs.shares r now).map (aggregate r secs count (overviewBuckets secs count))

def dailyStats (r : Range) (now : Int) (logs : Logs) : Option Stats :=
  (logs.shares r now).map (aggregate r 3600 24 dailyBuckets)

inductive Daily
  | invalidDate
  | failed
  | ok (stats : Stats)

/-- The answer, and what is in the cache for the day after it. -/
def handleGetStatsDaily (zone : Zone) (now : Int) (date : Bytes) (logs : Logs)
    (cached : Option Stats) :
    Daily × Option Stats :=
  if date.length ≠ 10 ∨ date[4]? ≠ some 45 ∨ date[7]? ≠ some 45 then (.invalidDate, cached)
  else match zone.dayOf date with
    | none => (.invalidDate, cached)
    | some (start, stop) =>
      match (if stop ≤ now then cached else none) with
      | some stats => (.ok stats, cached)
      | none =>
        match dailyStats ⟨start, stop⟩ now logs with
        | none => (.failed, cached)
        | some stats => (.ok stats, if stop ≤ now then some stats else cached)

/-- What the two statistics are to have in common. -/
structure Same (a b : Stats) : Prop where
  connections : a.connections = b.connections
  peakConcurrent : a.peakConcurrent = b.peakConcurrent
  avgDuration : a.avgDurationMpt = b.avgDurationMpt ∧ a.avgDurationUsr = b.avgDurationUsr
  unique : a.uniqueMountpoints = b.uniqueMountpoints ∧ a.uniqueUsers = b.uniqueUsers
  hourly : a.hourly = b.hourly

structure Date where
  year : Nat
  month : Nat
  day : Nat
  year_range : 1 ≤ year ∧ year ≤ 9999
  month_range : 1 ≤ month ∧ month ≤ 12
  day_range : 1 ≤ day ∧ day ≤ 31

namespace Date

def daysIn (year month : Nat) : Nat :=
  if month = 2 then (if year % 4 = 0 ∧ (year % 100 ≠ 0 ∨ year % 400 = 0) then 29 else 28)
  else if month ∈ [4, 6, 9, 11] then 30
  else 31

variable (d : Date)

def yearDigits : List Nat := [d.year / 1000, d.year / 100 % 10, d.year / 10 % 10, d.year % 10]

def text : Bytes :=
  digitText d.yearDigits ++ 45 :: (digitText [d.month / 10, d.month % 10] ++
    45 :: digitText [d.day / 10, d.day % 10])

def Follows (e : Date) : Prop :=
  e.year = d.year ∧ e.month = d.month ∧ e.day = d.day + 1 ∨
    d.day = daysIn d.year d.month ∧ e.day = 1 ∧
      (e.year = d.year ∧ e.month = d.month + 1 ∨ e.year = d.year + 1 ∧ d.month = 12 ∧ e.month = 1)

end Date

/-- The three statistics of a day, at the same moment and without a cache. -/
def Agree (zone : Zone) (now : Int) (logs : Logs) (d e : Date) : Prop :=
  ∃ a b c, handleGetStatsOverview zone now { date := some d.text } logs = some a ∧
    handleGetStatsOverview zone now { start := some d.text, stop := some e.text } logs = some b ∧
    (handleGetStatsDaily zone now d.text logs none).1 = .ok c ∧ Same a b ∧ Same a c

section

variable {r : Range} {secs : Int} {count : Nat} {buckets : Buckets}

/-- The buckets of a session lie in their vector. -/
theorem overviewBuckets_inside (hStart hEnd : Int) {i : Int}
    (h : (overviewBuckets secs count hStart hEnd).1 ≤ i ∧
      i ≤ (overviewBuckets secs count hStart hEnd).2) :
    0 ≤ i ∧ i < count := by
  unfold overviewBuckets at h
  dsimp only at h
  split_ifs at h <;> omega

theorem dailyBuckets_inside (hStart hEnd : Int) {i : Int}
    (h : (dailyBuckets hStart hEnd).1 ≤ i ∧ i ≤ (dailyBuckets hStart hEnd).2) : 0 ≤ i ∧ i < 24 := by
  unfold dailyBuckets at h
  dsimp only at h
  omega

theorem overviewBuckets_day : overviewBuckets 3600 24 = dailyBuckets := by
  funext hStart hEnd
  simp only [overviewBuckets, dailyBuckets, Prod.mk.injEq]
  constructor <;> split_ifs <;> omega

theorem numHours_eq_iff {rangeSecs : Int} (hpos : 0 < rangeSecs) (hle : rangeSecs ≤ 48 * 3600)
    (n : Nat) :
    numHours rangeSecs = n ↔ (n - 1) * 3600 < rangeSecs ∧ rangeSecs ≤ n * 3600 := by
  have hsecs : bucketSecs rangeSecs = 3600 := if_pos hle
  have hdiv : toInt ((rangeSecs + 3600 - 1).tdiv 3600) = (rangeSecs + 3599) / 3600 := by
    rw [Int.tdiv_eq_ediv_of_nonneg (by omega)]
    unfold toInt
    rw [Int.bmod_eq_of_le (by omega) (by omega)]
    omega
  unfold numHours
  rw [hsecs, hdiv]
  dsimp only
  split_ifs <;> omega

theorem length_mark (b e : Int) (hourly : List Nat) : (mark b e hourly).length = hourly.length := by
  simp [mark]

theorem length_hourly (shares : List Share) (k : Kind) :
    ((aggregate r secs count buckets shares).hourly k).length = count := by
  have hfold (t : Totals) (ht : ∀ k, (t.hourly k).length = count) :
      ((shares.foldl (Totals.add r buckets) t).hourly k).length = count := by
    induction shares generalizing t with
    | nil => exact ht k
    | cons s shares ih =>
      refine ih _ fun k' ↦ ?_
      simp only [Totals.add, Function.update_apply]
      split_ifs
      · rw [length_mark, ht]
      · exact ht k'
  exact hfold _ fun _ ↦ List.length_replicate

end

theorem mark_comm (b e b' e' : Int) (hourly : List Nat) :
    mark b e (mark b' e' hourly) = mark b' e' (mark b e hourly) := by
  unfold mark
  rw [List.mapIdx_mapIdx, List.mapIdx_mapIdx]
  congr 1
  funext i n
  dsimp only [Function.comp_apply]
  split_ifs <;> rfl

theorem update_comm {α : Type} (f : Kind → α) (g g' : α → α) (hcomm : ∀ a, g (g' a) = g' (g a))
    (k k' : Kind) :
    Function.update (Function.update f k (g (f k))) k' (g' (Function.update f k (g (f k)) k')) =
      Function.update (Function.update f k' (g' (f k'))) k
        (g (Function.update f k' (g' (f k')) k)) := by
  funext j
  by_cases hk : k = k'
  · subst hk
    by_cases hj : j = k <;> simp [hj, hcomm]
  · by_cases hj : j = k
    · subst hj
      simp [hk]
    · by_cases hj' : j = k'
      · subst hj'
        simp [Ne.symm hk]
      · simp [hj, hj']

theorem add_right_comm (r : Range) (buckets : Buckets) (t : Totals) (s s' : Share) :
    Totals.add r buckets (Totals.add r buckets t s) s' =
      Totals.add r buckets (Totals.add r buckets t s') s := by
  have hconnections := update_comm t.connections (· + 1) (· + 1) (fun _ ↦ rfl) s.kind s'.kind
  have hduration := update_comm t.duration (· + (s.overlapEnd - s.overlapStart))
    (· + (s'.overlapEnd - s'.overlapStart)) (by intro a; omega) s.kind s'.kind
  have hnames := update_comm t.names (insert s.name) (insert s'.name)
    (fun a ↦ Finset.insert_comm _ _ a) s.kind s'.kind
  have hhourly := update_comm t.hourly
    (mark (buckets (s.overlapStart - r.start) (s.overlapEnd - r.start)).1
      (buckets (s.overlapStart - r.start) (s.overlapEnd - r.start)).2)
    (mark (buckets (s'.overlapStart - r.start) (s'.overlapEnd - r.start)).1
      (buckets (s'.overlapStart - r.start) (s'.overlapEnd - r.start)).2)
    (fun a ↦ mark_comm _ _ _ _ a) s.kind s'.kind
  unfold Totals.add
  dsimp only at hconnections hduration hnames hhourly ⊢
  rw [hconnections, hhourly]
  congr 1
  · split_ifs <;> first | exact hduration | rfl
  · split_ifs <;> first | exact hnames | rfl

theorem aggregate_perm {r : Range} {secs : Int} {count : Nat} {buckets : Buckets}
    {shares shares' : List Share} (h : shares.Perm shares') :
    aggregate r secs count buckets shares = aggregate r secs count buckets shares' := by
  have hfold (t : Totals) :
      shares.foldl (Totals.add r buckets) t = shares'.foldl (Totals.add r buckets) t :=
    h.foldl_eq' (fun s _ s' _ t ↦ add_right_comm r buckets t s s') t
  unfold aggregate
  rw [hfold]

theorem stol_text (d : Date) : stol d.text = .ok d.year := by
  have hyear := d.year_range
  have hlt : ∀ v ∈ d.yearDigits, v < 10 := by
    simp only [Date.yearDigits, List.mem_cons, List.not_mem_nil, or_false]
    omega
  have hdigits : digits digit d.text = (d.yearDigits, d.text.drop 4) :=
    digits_digitText hlt (s := 45 :: (digitText [d.month / 10, d.month % 10] ++
      45 :: digitText [d.day / 10, d.day % 10])) (by simp [digit])
  have hvalue : valueOf 10 d.yearDigits = d.year := by
    simp only [valueOf, Date.yearDigits, List.reverse_cons, List.reverse_nil, List.nil_append,
      List.cons_append, Nat.ofDigits_cons, Nat.ofDigits_nil]
    omega
  obtain ⟨s, hs⟩ : ∃ s, d.text = UInt8.ofNat (48 + d.year / 1000) :: s := ⟨_, rfl⟩
  have hfirst : d.year / 1000 < 10 := by omega
  have hspace : d.text.dropWhile isSpace = d.text := by
    rw [hs, List.dropWhile_cons_of_neg (by rw [isSpace_decimal hfirst]; exact Bool.false_ne_true)]
  have hsign : sign d.text = (false, d.text) := by
    rw [hs]
    exact sign_decimal hfirst s
  have hstrtol : strtol d.text = some (d.year : Int) := by
    unfold strtol
    rw [hspace, hsign]
    dsimp only
    rw [hdigits, ← hvalue]
    rfl
  unfold stol
  rw [hstrtol]
  dsimp only
  rw [if_pos (by omega)]

theorem parseTimeParam_date (zone : Zone) (d : Date) :
    zone.parseTimeParam (some d.text) = d.year := by
  have hne : d.text ≠ [] := by simp [Date.text, digitText, Date.yearDigits]
  simp [Zone.parseTimeParam, hne, stol_text]

theorem Date.Follows.year {d e : Date} (h : d.Follows e) :
    e.year = d.year ∨ e.year = d.year + 1 := by
  unfold Date.Follows at h
  omega

theorem overview_dates (zone : Zone) (now : Int) (logs : Logs) {d e : Date} (h : d.Follows e)
    {s : Stats}
    (hs :
      handleGetStatsOverview zone now { start := some d.text, stop := some e.text } logs = some s)
    (k : Kind) : (s.hourly k).length = 1 := by
  have hd := d.year_range
  have he := e.year_range
  have hyear := h.year
  have hrange : overviewRange zone now { start := some d.text, stop := some e.text } =
      ⟨d.year, e.year⟩ := by
    unfold overviewRange
    simp only [parseTimeParam_date, Option.bind_none, Option.getD_none]
    rw [if_neg (by omega), if_neg (by omega)]
  have hsecs : max 1 ((e.year : Int) - d.year) = 1 := by omega
  unfold handleGetStatsOverview at hs
  rw [hrange] at hs
  dsimp only at hs
  rw [hsecs] at hs
  obtain ⟨shares, -, rfl⟩ := Option.map_eq_some_iff.mp hs
  rw [length_hourly]
  exact (numHours_eq_iff (by omega) (by omega) 1).mpr (by omega)

theorem handleGetStatsDaily_ok {zone : Zone} {now : Int} {date : Bytes} {logs : Logs} {s : Stats}
    (hs : (handleGetStatsDaily zone now date logs none).1 = .ok s) :
    ∃ start stop, zone.dayOf date = some (start, stop) ∧
      dailyStats ⟨start, stop⟩ now logs = some s := by
  unfold handleGetStatsDaily at hs
  split_ifs at hs
  cases hday : zone.dayOf date with
  | none => simp [hday] at hs
  | some day =>
    obtain ⟨start, stop⟩ := day
    refine ⟨start, stop, rfl, ?_⟩
    simp only [hday, ite_self] at hs
    cases hstats : dailyStats ⟨start, stop⟩ now logs with
    | none => simp [hstats] at hs
    | some stats =>
      simp only [hstats, Daily.ok.injEq] at hs
      rw [hs]

theorem daily_hours {r : Range} {now : Int} {logs : Logs} {s : Stats}
    (hs : dailyStats r now logs = some s) (k : Kind) : (s.hourly k).length = 24 := by
  obtain ⟨shares, -, rfl⟩ := Option.map_eq_some_iff.mp hs
  exact length_hourly shares k

/-- The statistics of a day agree with those of the range that the day is, if and only if it has 24
hours, the last of which may not be whole. -/
theorem overview_daily_iff (zone : Zone) (now : Int) (logs : Logs) {d : Date} {start stop : Int}
    {a c : Stats} (hday : zone.dayOf d.text = some (start, stop)) (hepoch : start ≠ 0 ∧ stop ≠ 0)
    (hlen : start < stop ∧ stop - start ≤ 48 * 3600)
    (ha : handleGetStatsOverview zone now { date := some d.text } logs = some a)
    (hc : (handleGetStatsDaily zone now d.text logs none).1 = .ok c) :
    Same a c ↔ 23 * 3600 < stop - start ∧ stop - start ≤ 24 * 3600 := by
  have hne : d.text ≠ [] := by simp [Date.text, digitText, Date.yearDigits]
  have hrange : overviewRange zone now { date := some d.text } = ⟨start, stop⟩ := by
    unfold overviewRange
    simp [hne, hday, hepoch.1, hepoch.2]
  have hsecs : max 1 (stop - start) = stop - start := by omega
  obtain ⟨start', stop', hday', hc⟩ := handleGetStatsDaily_ok hc
  cases hday.symm.trans hday'
  unfold handleGetStatsOverview at ha
  rw [hrange] at ha
  dsimp only at ha
  rw [hsecs, show bucketSecs (stop - start) = 3600 from if_pos hlen.2] at ha
  have hcount := numHours_eq_iff (by omega) hlen.2 24
  have hlength : ∀ k, (a.hourly k).length = numHours (stop - start) := by
    obtain ⟨shares, -, rfl⟩ := Option.map_eq_some_iff.mp ha
    exact length_hourly shares
  constructor
  · intro hsame
    have h24 := daily_hours hc .mpt
    rw [← hsame.hourly, hlength] at h24
    simpa using hcount.mp h24
  · intro h
    rw [hcount.mpr (by simpa using h), overviewBuckets_day] at ha
    cases ha.symm.trans hc
    exact ⟨rfl, rfl, ⟨rfl, rfl⟩, ⟨rfl, rfl⟩, rfl⟩

/-- The statistics of a day never agree: as two dates it has one bucket. -/
theorem statistics_disagree (zone : Zone) (now : Int) (logs : Logs) {d e : Date}
    (hd : d.Follows e) :
    ¬ Agree zone now logs d e := by
  rintro ⟨a, b, c, -, hb, hc, hab, hac⟩
  obtain ⟨start, stop, -, hc⟩ := handleGetStatsDaily_ok hc
  have hone := overview_dates zone now logs hd hb .mpt
  have hday := daily_hours hc .mpt
  rw [← hab.hourly] at hone
  rw [← hac.hourly] at hday
  omega

def scanDate (s : Bytes) : Option Tm :=
  match digits digit s with
  | (year, 45 :: s) =>
    match digits digit s with
    | (month, 45 :: s) =>
      some { year := valueOf 10 year - 1900, month := valueOf 10 month - 1,
             day := valueOf 10 (digits digit s).1 }
    | _ => none
  | _ => none

def daysBefore (year month : Int) : Int :=
  let y := if month < 2 then year - 1 else year
  let m := if month < 2 then month + 10 else month - 2
  y * 365 + y / 4 - y / 100 + y / 400 + (153 * m + 2) / 5 - 719468

def utc : Zone where
  strptime := scanDate
  mktime tm :=
    ((daysBefore (tm.year + 1900) tm.month + tm.day - 1) * 86400 + tm.hour * 3600 + tm.minute * 60 +
      tm.second, tm)
  localtime now :=
    { year := 70, month := 0, day := 1 + now / 86400, hour := now % 86400 / 3600,
      minute := now % 3600 / 60, second := now % 60 }

def august (day : Fin 30) : Date where
  year := 2026
  month := 8
  day := day + 1
  year_range := by decide
  month_range := by decide
  day_range := by omega

def oneHour : Logs where
  mpt := [.object [("type", .number ⟨1, 1, 1⟩), ("name", .string (Library.Scan.ascii "M")),
    ("connect_time", .number ⟨1785571200, 1785571200, 1785571200⟩),
    ("disconnect_time", .number ⟨1785574800, 1785574800, 1785574800⟩)]]
  usr := []

theorem statistics_disagree_august : ¬ Agree utc 1785700000 oneHour (august 0) (august 1) :=
  statistics_disagree utc 1785700000 oneHour (.inl ⟨rfl, rfl, rfl⟩)

/-- As a day it has one session, and as two dates it has none. -/
theorem not_statistics_agree :
    (handleGetStatsOverview utc 1785700000 { date := some (august 0).text } oneHour).map
      (·.connections .mpt) = some 1 ∧
    (handleGetStatsOverview utc 1785700000
      { start := some (august 0).text, stop := some (august 1).text }
      oneHour).map (·.connections .mpt) = some 0 ∧
    ¬ ∀ (zone : Zone) (now : Int) (logs : Logs) (d e : Date), d.Follows e →
      Agree zone now logs d e := by
  have hday : (handleGetStatsOverview utc 1785700000 { date := some (august 0).text } oneHour).map
      (·.connections .mpt) = some 1 := by
    decide +kernel
  have hdates : (handleGetStatsOverview utc 1785700000
      { start := some (august 0).text, stop := some (august 1).text } oneHour).map
        (·.connections .mpt) = some 0 := by
    decide +kernel
  refine ⟨hday, hdates, fun h ↦ ?_⟩
  obtain ⟨a, b, c, ha, hb, -, hab, -⟩ :=
    h utc 1785700000 oneHour (august 0) (august 1) (.inl ⟨rfl, rfl, rfl⟩)
  rw [ha, Option.map_some, Option.some_inj] at hday
  rw [hb, Option.map_some, Option.some_inj, ← hab.connections, hday] at hdates
  cases hdates

end NavCaster.Http.Statistics
