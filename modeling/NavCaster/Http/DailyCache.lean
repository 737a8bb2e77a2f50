import NavCaster.Core.Compensation
import NavCaster.Http.Statistics
import NavCaster.Library.Machine

namespace NavCaster.Http.DailyCache

open NavCaster.Library NavCaster.Library.Strto NavCaster.Library.Scan
open NavCaster.Auth.Account (Json)
open NavCaster.Http.Statistics
open NavCaster.Core

/-- The histories of the bases and of the rovers. -/
inductive Side
  | mpt | usr
  deriving DecidableEq

def Side.isMpt : Side → Bool
  | mpt => true
  | usr => false

structure Entry where
  name : Bytes
  type : Int
  connectTime : Int
  lastUpdate : Int
  disconnectTime : Int := 0
  sendTotal : Int := 0
  recvTotal : Int := 0
  deriving DecidableEq

def integer (n : Int) : Json := .number ⟨n.bmod (2 ^ 32), n, n⟩

def Entry.toJson (e : Entry) : Json :=
  .object
    [("name", .string e.name), ("type", integer e.type), ("connect_time", integer e.connectTime),
      ("last_update", integer e.lastUpdate), ("disconnect_time", integer e.disconnectTime),
    ("send_total", integer e.sendTotal), ("recv_total", integer e.recvTotal)]

def field (connectTime : Int) (connectKey : Bytes) : Bytes :=
  ascii (toString connectTime) ++ 95 :: connectKey

abbrev History := Table Bytes (Table Bytes Entry)

/-- The histories, what the nodes know of their sessions, and what is kept of the day. -/
structure State where
  now : Int
  history : Side → History
  live : Side → Table (Bytes × Bytes) Entry
  cached : Option Stats

/-- All hashes of a history, which are read field by field; of two fields that are the same, the
last one read is kept. -/
def scanHgetallPrefix (names : List Bytes) (h : History) : Table Bytes Entry :=
  names.foldl (fun result name ↦
    (Table.toPairs ((h.lookup name).getD ∅)).foldl (fun result e ↦ Table.assign result e.1 e.2)
      result) ∅

def Complete (names : List Bytes) (h : History) : Prop :=
  (∀ name ∈ names, name ∈ h.keys) ∧ ∀ name ∈ h.keys, name ∈ names

instance (names : List Bytes) (h : History) : Decidable (Complete names h) :=
  inferInstanceAs (Decidable (_ ∧ _))

def values (names : List Bytes) (h : History) : List Json :=
  (Table.toPairs (scanHgetallPrefix names h)).map fun e ↦ e.2.toJson

def State.logs (s : State) (mptNames usrNames : List Bytes) : Logs :=
  ⟨values mptNames (s.history .mpt), values usrNames (s.history .usr)⟩

def compensate (now keyExpireTime : Int) (e : Entry) : Entry :=
  if e.disconnectTime = 0 ∧ keyExpireTime < Compensation.sub64 now e.lastUpdate then
    { e with disconnectTime := e.lastUpdate }
  else e

def cleanupStaleHistory (now keyExpireTime : Int) (h : History) : History :=
  Table.filterMap
    (fun _ row ↦ some (Table.filterMap (fun _ e ↦ some (compensate now keyExpireTime e)) row)) h

inductive Action
  | tick (seconds : Nat)
  | register (side : Side) (node connectKey name : Bytes) (type : Int)
  | refresh (side : Side) (node connectKey : Bytes) (totals : Option (Int × Int))
  | withdraw (side : Side) (node connectKey : Bytes) (totals : Option (Int × Int))
  | crash (node : Bytes)
  | cleanup (keyExpireTime : Int)
  | expire
  | query (mptNames usrNames : List Bytes)

def Entry.withTotals (e : Entry) (totals : Option (Int × Int)) : Entry :=
  match totals with
  | none => e
  | some (sendTotal, recvTotal) => { e with sendTotal, recvTotal }

def State.hset (s : State) (side : Side) (connectKey : Bytes) (e : Entry) : State :=
  let h := Table.put (s.history side) e.name (field e.connectTime connectKey) e
  { s with history := Function.update s.history side h }

/-- The daily statistics of one day, over the histories that the nodes write. Each command is
performed as it is sent; a node that refreshes or flushes its sessions does so one after the
other. -/
def machine (zone : Zone) (date : Bytes) : Machine State Action Daily where
  step s
    | .tick seconds => some ({ s with now := s.now + seconds }, [])
    | .register side node connectKey name type =>
      let e : Entry := { name, type, connectTime := s.now, lastUpdate := s.now }
      some ({ s.hset side connectKey e with
        live := Function.update s.live side ((s.live side).insert (node, connectKey) e) }, [])
    | .refresh side node connectKey totals =>
      match (s.live side).lookup (node, connectKey) with
      | none => none
      | some e =>
        let e := { e.withTotals totals with lastUpdate := s.now }
        some ({ s.hset side connectKey e with
          live := Function.update s.live side ((s.live side).insert (node, connectKey) e) }, [])
    | .withdraw side node connectKey totals =>
      match (s.live side).lookup (node, connectKey) with
      | none => none
      | some e =>
        let e := { e.withTotals totals with disconnectTime := s.now, lastUpdate := s.now }
        some ({ s.hset side connectKey e with
          live := Function.update s.live side ((s.live side).erase (node, connectKey)) }, [])
    | .crash node =>
      some ({ s with live := fun side ↦
        Table.filterMap (fun key e ↦ if key.1 = node then none else some e) (s.live side) }, [])
    | .cleanup keyExpireTime =>
      some ({ s with history :=
        fun side ↦ cleanupStaleHistory s.now keyExpireTime (s.history side) }, [])
    | .expire => some ({ s with cached := none }, [])
    | .query mptNames usrNames =>
      if Complete mptNames (s.history .mpt) ∧ Complete usrNames (s.history .usr) then
        let (answer, cached) :=
          handleGetStatsDaily zone s.now date (s.logs mptNames usrNames) s.cached
        some ({ s with cached }, [answer])
      else none

def start (now : Int) : State := ⟨now, fun _ ↦ ∅, fun _ ↦ ∅, none⟩

/-- What is answered is what would be without the cache, in whatever order the hashes are read. -/
def Transparent (zone : Zone) (date : Bytes) (s : State) : Prop :=
  ∀ mptNames usrNames, Complete mptNames (s.history .mpt) → Complete usrNames (s.history .usr) →
    (handleGetStatsDaily zone s.now date (s.logs mptNames usrNames) s.cached).1 =
      (handleGetStatsDaily zone s.now date (s.logs mptNames usrNames) none).1

def Over (zone : Zone) (date : Bytes) (t : Int) : Prop :=
  ∀ start stop, zone.dayOf date = some (start, stop) → stop ≤ t

/-- No session gets the field of another one; and once the day is kept, no session is closed at a
time before its end, and none that was closed at such a time is written again. -/
def Harmless (zone : Zone) (date : Bytes) (s : State) : Action → Prop
  | .register side _ connectKey _ _ =>
    ∀ name, Table.entry (s.history side) name (field s.now connectKey) = none
  | .refresh side node connectKey _ | .withdraw side node connectKey _ =>
    s.cached = none ∨ ∀ e e', (s.live side).lookup (node, connectKey) = some e →
      Table.entry (s.history side) e.name (field e.connectTime connectKey) = some e' →
      e'.disconnectTime = 0 ∨ Over zone date e'.disconnectTime
  | .cleanup keyExpireTime =>
    s.cached = none ∨ ∀ side name f e, Table.entry (s.history side) name f = some e →
      e.disconnectTime = 0 → keyExpireTime < Compensation.sub64 s.now e.lastUpdate →
      Over zone date e.lastUpdate
  | _ => True

def shareOf (r : Range) (now : Int) (side : Side) (e : Entry) : Option Share :=
  let kind := kindOf side.isMpt (e.type.bmod (2 ^ 32))
  let dt := if e.disconnectTime = 0 then now else e.disconnectTime
  if dt < r.start ∨ r.stop ≤ e.connectTime then none
  else some {
    kind
    name := if kind = .pull ∨ kind = .push then [] else e.name
    overlapStart := max e.connectTime r.start
    overlapEnd := min dt r.stop }

theorem share_toJson (r : Range) (now : Int) (side : Side) (e : Entry) :
    share r now side.isMpt e.toJson = some (shareOf r now side e) := by
  have htype : e.toJson.value Json.getInt "type" 0 = some (e.type.bmod (2 ^ 32)) := rfl
  have hconnect : e.toJson.value Json.getLongLong "connect_time" 0 = some e.connectTime := rfl
  have hdisconnect : e.toJson.value Json.getLongLong "disconnect_time" 0 = some e.disconnectTime :=
    rfl
  have hname : e.toJson.value Json.getString "name" [] = some e.name := rfl
  obtain ⟨members, hmembers⟩ : ∃ members, e.toJson = .object members := ⟨_, rfl⟩
  rw [hmembers] at htype hconnect hdisconnect hname ⊢
  unfold share shareOf
  simp only [htype, hconnect, hdisconnect, hname, Option.bind_eq_bind, Option.bind_some,
    Option.pure_def]
  split_ifs <;> rfl

theorem closeStale_toJson (codec : Compensation.HistoryCodec) (hcodec : codec.integer = integer)
    (now keyExpireTime : Int) (e : Entry) :
    Compensation.closeStale codec now keyExpireTime e.toJson =
      if e.disconnectTime = 0 ∧ keyExpireTime < Compensation.sub64 now e.lastUpdate then
        some (compensate now keyExpireTime e).toJson
      else none := by
  have hdisconnect : e.toJson.find "disconnect_time" = some (integer e.disconnectTime) := rfl
  have hlast : e.toJson.find "last_update" = some (integer e.lastUpdate) := rfl
  have hread (n : Int) : (integer n).getLongLong = some n := rfl
  unfold Compensation.closeStale compensate
  simp only [hdisconnect, hlast, hread, hcodec, Option.bind_eq_bind, Option.bind_some, ne_eq,
    ite_not]
  by_cases hopen : e.disconnectTime = 0
  · by_cases hstale : keyExpireTime < Compensation.sub64 now e.lastUpdate
    · simp [hopen, hstale, Compensation.setMember, Entry.toJson]
    · simp [hopen, hstale]
  · simp [hopen]

/-- A session that is open, or was closed when the day was over, has the same share at any time
since. -/
theorem shareOf_congr {r : Range} {side : Side} {now now' : Int} {e e' : Entry}
    (hrange : r.start ≤ r.stop) (hnow : r.stop ≤ now) (hnow' : r.stop ≤ now')
    (hname : e'.name = e.name) (htype : e'.type = e.type)
    (hconnect : e'.connectTime = e.connectTime)
    (h : e.disconnectTime = 0 ∨ r.stop ≤ e.disconnectTime)
    (h' : e'.disconnectTime = 0 ∨ r.stop ≤ e'.disconnectTime) :
    shareOf r now' side e' = shareOf r now side e := by
  have hclosed {now : Int} {e : Entry} (hnow : r.stop ≤ now)
      (h : e.disconnectTime = 0 ∨ r.stop ≤ e.disconnectTime) :
      r.stop ≤ if e.disconnectTime = 0 then now else e.disconnectTime := by
    split_ifs <;> omega
  have hdt := hclosed hnow h
  have hdt' := hclosed hnow' h'
  unfold shareOf
  rw [hname, htype, hconnect]
  generalize (if e.disconnectTime = 0 then now else e.disconnectTime) = dt at hdt ⊢
  generalize (if e'.disconnectTime = 0 then now' else e'.disconnectTime) = dt' at hdt' ⊢
  dsimp only
  rw [min_eq_right hdt, min_eq_right hdt']
  have hin : (dt < r.start ∨ r.stop ≤ e.connectTime) ↔
      (dt' < r.start ∨ r.stop ≤ e.connectTime) := by omega
  simp only [hin]

def Unique (h : History) : Prop :=
  ∀ name name' f e e', Table.entry h name f = some e → Table.entry h name' f = some e' →
    name = name'

theorem entry_eq (h : History) (name f : Bytes) :
    Table.entry h name f = ((h.lookup name).getD ∅).lookup f := by
  unfold Table.entry
  cases h.lookup name <;> simp

theorem lookup_scan {h : History} {names : List Bytes} (hunique : Unique h)
    (hnames : Complete names h) {f : Bytes} {e : Entry} :
    (scanHgetallPrefix names h).lookup f = some e ↔ ∃ name, Table.entry h name f = some e := by
  have hmem {f : Bytes} {e : Entry} :
      (f, e) ∈ names.flatMap (fun name ↦ Table.toPairs ((h.lookup name).getD ∅)) ↔
        ∃ name ∈ names, Table.entry h name f = some e := by
    simp only [List.mem_flatMap, Table.mem_toPairs, entry_eq]
  have hfun : ∀ f e e', (f, e) ∈ names.flatMap (fun name ↦ Table.toPairs ((h.lookup name).getD ∅)) →
      (f, e') ∈ names.flatMap (fun name ↦ Table.toPairs ((h.lookup name).getD ∅)) → e = e' := by
    intro f e e' he he'
    obtain ⟨name, -, he⟩ := hmem.mp he
    obtain ⟨name', -, he'⟩ := hmem.mp he'
    obtain rfl := hunique name name' f e e' he he'
    exact Option.some.inj (he.symm.trans he')
  unfold scanHgetallPrefix
  rw [← List.foldl_flatMap, Table.lookup_foldl_assign hfun, hmem]
  constructor
  · rintro (⟨name, -, he⟩ | ⟨-, he⟩)
    · exact ⟨name, he⟩
    · simp at he
  · rintro ⟨name, he⟩
    obtain ⟨row, hrow, -⟩ := Option.bind_eq_some_iff.mp he
    exact .inl ⟨name, hnames.2 name (Table.mem_of_lookup hrow), he⟩

def Holds (r : Range) (now : Int) (side : Side) (h : History) (f : Bytes) (s : Share) : Prop :=
  ∃ name e, Table.entry h name f = some e ∧ shareOf r now side e = some s

def sharesOf (r : Range) (now : Int) (side : Side) (names : List Bytes) (h : History) :
    List (Bytes × Share) :=
  (Table.toPairs (scanHgetallPrefix names h)).filterMap fun e ↦
    (shareOf r now side e.2).map fun s ↦ (e.1, s)

section

variable {r : Range} {now now' : Int} {side : Side} {names names' : List Bytes} {h h' : History}

theorem mem_sharesOf (hunique : Unique h) (hnames : Complete names h) {f : Bytes} {s : Share} :
    (f, s) ∈ sharesOf r now side names h ↔ Holds r now side h f s := by
  unfold sharesOf Holds
  simp only [List.mem_filterMap, Option.map_eq_some_iff, Prod.mk.injEq]
  constructor
  · rintro ⟨⟨f', e⟩, he, s', hs, rfl, rfl⟩
    obtain ⟨name, he⟩ := (lookup_scan hunique hnames).mp (Table.mem_toPairs.mp he)
    exact ⟨name, e, he, hs⟩
  · rintro ⟨name, e, he, hs⟩
    exact ⟨(f, e), Table.mem_toPairs.mpr ((lookup_scan hunique hnames).mpr ⟨name, he⟩), s, hs, rfl,
      rfl⟩

theorem nodup_sharesOf : (sharesOf r now side names h).Nodup := by
  have hfields : (Table.toPairs (scanHgetallPrefix names h)).Pairwise fun e e' ↦ e.1 ≠ e'.1 :=
    List.pairwise_map.mp (Table.toPairs_nodup _)
  refine List.Pairwise.filterMap _ (fun e e' hne b hb b' hb' heq ↦ hne ?_) hfields
  obtain ⟨s, -, rfl⟩ := Option.map_eq_some_iff.mp hb
  obtain ⟨s', -, rfl⟩ := Option.map_eq_some_iff.mp hb'
  exact (Prod.mk.inj heq).1

theorem perm_sharesOf (hunique : Unique h) (hnames : Complete names h) (hunique' : Unique h')
    (hnames' : Complete names' h')
    (hholds : ∀ f s, Holds r now side h f s ↔ Holds r now' side h' f s) :
    (sharesOf r now side names h).Perm (sharesOf r now' side names' h') := by
  refine (List.perm_ext_iff_of_nodup nodup_sharesOf nodup_sharesOf).mpr ?_
  rintro ⟨f, s⟩
  rw [mem_sharesOf hunique hnames, mem_sharesOf hunique' hnames', hholds]

variable (r now side names h) in
theorem mapM_share : (values names h).mapM (share r now side.isMpt) =
    some ((Table.toPairs (scanHgetallPrefix names h)).map fun e ↦ shareOf r now side e.2) := by
  unfold values
  induction Table.toPairs (scanHgetallPrefix names h) with
  | nil => rfl
  | cons e entries ih => simp [List.mapM_cons, share_toJson, ih]

theorem reduceOption_share :
    ((Table.toPairs (scanHgetallPrefix names h)).map fun e ↦ shareOf r now side e.2).reduceOption =
      (sharesOf r now side names h).map Prod.snd := by
  simp [sharesOf, List.reduceOption, List.filterMap_map, List.map_filterMap, Option.map_map,
    Function.comp_def]

end

theorem dailyStats_congr {r : Range} {s s' : State}
    {mptNames usrNames mptNames' usrNames' : List Bytes} (hunique : ∀ side, Unique (s.history side))
    (hunique' : ∀ side, Unique (s'.history side)) (hmpt : Complete mptNames (s.history .mpt))
    (husr : Complete usrNames (s.history .usr)) (hmpt' : Complete mptNames' (s'.history .mpt))
    (husr' : Complete usrNames' (s'.history .usr))
    (hholds : ∀ side f sh, Holds r s.now side (s.history side) f sh ↔
      Holds r s'.now side (s'.history side) f sh) :
    dailyStats r s.now (s.logs mptNames usrNames) =
      dailyStats r s'.now (s'.logs mptNames' usrNames') := by
  have hlogs (s : State) (mptNames usrNames : List Bytes) :
      (s.logs mptNames usrNames).shares r s.now =
        some ((sharesOf r s.now .mpt mptNames (s.history .mpt)).map Prod.snd ++
          (sharesOf r s.now .usr usrNames (s.history .usr)).map Prod.snd) := by
    have hm := mapM_share r s.now .mpt mptNames (s.history .mpt)
    have hu := mapM_share r s.now .usr usrNames (s.history .usr)
    simp only [Side.isMpt] at hm hu
    simp only [Logs.shares, State.logs, hm, hu, reduceOption_share, Option.bind_eq_bind,
      Option.bind_some, Option.pure_def]
  have hperm {side : Side} {names names' : List Bytes} (hnames : Complete names (s.history side))
      (hnames' : Complete names' (s'.history side)) :=
    (perm_sharesOf (hunique side) hnames (hunique' side) hnames' (hholds side)).map Prod.snd
  unfold dailyStats
  rw [hlogs, hlogs, Option.map_some, Option.map_some,
    aggregate_perm ((hperm hmpt hmpt').append (hperm husr husr'))]

structure SameSession (e e' : Entry) : Prop where
  name : e'.name = e.name
  type : e'.type = e.type
  connectTime : e'.connectTime = e.connectTime

section

variable {r : Range} {now now' : Int} {side : Side} {h h' : History}

theorem holds_congr (hentry : ∀ name f, (Table.entry h' name f).bind (shareOf r now' side) =
      (Table.entry h name f).bind (shareOf r now side)) (f : Bytes) (s : Share) :
    Holds r now side h f s ↔ Holds r now' side h' f s := by
  have hbind (now : Int) (h : History) : Holds r now side h f s ↔
      ∃ name, (Table.entry h name f).bind (shareOf r now side) = some s := by
    simp [Holds, Option.bind_eq_some_iff]
  simp only [hbind, hentry]

theorem shareOf_later (hrange : r.start ≤ r.stop) (hnow : r.stop ≤ now) (hle : now ≤ now')
    (e : Entry) :
    shareOf r now' side e = shareOf r now side e := by
  by_cases hopen : e.disconnectTime = 0
  · exact shareOf_congr hrange hnow (hnow.trans hle) rfl rfl rfl (.inl hopen) (.inl hopen)
  · simp [shareOf, hopen]

theorem shareOf_new {e : Entry} (h : r.stop ≤ e.connectTime) : shareOf r now side e = none := by
  simp [shareOf, h]

theorem entry_cleanup (keyExpireTime : Int) (name f : Bytes) :
    Table.entry (cleanupStaleHistory now keyExpireTime h) name f =
      (Table.entry h name f).map (compensate now keyExpireTime) := by
  unfold Table.entry cleanupStaleHistory
  rw [Table.lookup_filterMap]
  cases h.lookup name with
  | none => rfl
  | some row =>
    simp only [Option.bind_some, Table.lookup_filterMap]
    cases row.lookup f <;> rfl

theorem compensate_same (now keyExpireTime : Int) (e : Entry) :
    SameSession e (compensate now keyExpireTime e) := by
  unfold compensate
  split_ifs <;> exact ⟨rfl, rfl, rfl⟩

theorem shareOf_compensate (hrange : r.start ≤ r.stop) (hnow : r.stop ≤ now) {keyExpireTime : Int}
    {e : Entry}
    (h : e.disconnectTime = 0 → keyExpireTime < Compensation.sub64 now e.lastUpdate →
      r.stop ≤ e.lastUpdate) :
    shareOf r now side (compensate now keyExpireTime e) = shareOf r now side e := by
  unfold compensate
  split_ifs with hstale
  · exact shareOf_congr hrange hnow hnow rfl rfl rfl (.inl hstale.1) (.inr (h hstale.1 hstale.2))
  · rfl

theorem Unique.put {name f : Bytes} {e : Entry} (hunique : Unique h)
    (hname : ∀ name' e', Table.entry h name' f = some e' → name' = name) :
    Unique (Table.put h name f e) := by
  have hcases {name' f' : Bytes} {e' : Entry}
      (he : Table.entry (Table.put h name f e) name' f' = some e') :
      name' = name ∧ f' = f ∨ Table.entry h name' f' = some e' := by
    rw [Table.entry_put] at he
    split_ifs at he with hkey
    · exact .inl hkey
    · exact .inr he
  intro name₁ name₂ f' e₁ e₂ h₁ h₂
  rcases hcases h₁ with ⟨rfl, rfl⟩ | h₁ <;> rcases hcases h₂ with ⟨hname₂, hf⟩ | h₂
  · exact hname₂.symm
  · exact (hname _ _ h₂).symm
  · exact (hname _ _ (hf ▸ h₁)).trans hname₂.symm
  · exact hunique _ _ _ _ _ h₁ h₂

theorem Unique.cleanup (hunique : Unique h) (keyExpireTime : Int) :
    Unique (cleanupStaleHistory now keyExpireTime h) := by
  intro name name' f e e' he he'
  rw [entry_cleanup, Option.map_eq_some_iff] at he he'
  obtain ⟨e₁, h₁, -⟩ := he
  obtain ⟨e₂, h₂, -⟩ := he'
  exact hunique _ _ _ _ _ h₁ h₂

end

section

variable (zone : Zone) (date : Bytes)

def Kept (s : State) : Prop :=
  ∀ stats, s.cached = some stats → ∃ start stop, zone.dayOf date = some (start, stop) ∧
    stop ≤ s.now ∧
    ∀ mptNames usrNames, Complete mptNames (s.history .mpt) → Complete usrNames (s.history .usr) →
      dailyStats ⟨start, stop⟩ s.now (s.logs mptNames usrNames) = some stats

structure Inv (s : State) : Prop where
  unique : ∀ side, Unique (s.history side)
  live : ∀ side node connectKey e, (s.live side).lookup (node, connectKey) = some e →
    e.disconnectTime = 0 ∧
    ∃ e', Table.entry (s.history side) e.name (field e.connectTime connectKey) = some e' ∧
      SameSession e e'
  cached : Kept zone date s

variable {zone date} {s s' : State}

theorem inv_start (now : Int) : Inv zone date (start now) where
  unique _ name name' f e e' h := by simp [start, Table.entry] at h
  live _ node connectKey e h := by simp [start] at h
  cached stats h := by cases h

/-- The cache stays right as long as no session of the day gets another share. -/
theorem Inv.cached_of_holds (hi : Inv zone date s) (hcached : s'.cached = s.cached)
    (hnow : s.now ≤ s'.now) (hunique : ∀ side, Unique (s'.history side))
    (hholds : ∀ stats start stop, s.cached = some stats → zone.dayOf date = some (start, stop) →
      stop ≤ s.now → ∀ side f sh, Holds ⟨start, stop⟩ s.now side (s.history side) f sh ↔
        Holds ⟨start, stop⟩ s'.now side (s'.history side) f sh) : Kept zone date s' := by
  intro stats hstats
  rw [hcached] at hstats
  obtain ⟨start, stop, hday, hstop, hfresh⟩ := hi.cached stats hstats
  refine ⟨start, stop, hday, hstop.trans hnow, fun mptNames usrNames hmpt husr ↦ ?_⟩
  have hkeys (h : History) : Complete h.keys h := ⟨fun _ ↦ id, fun _ ↦ id⟩
  rw [← hfresh _ _ (hkeys _) (hkeys _)]
  exact (dailyStats_congr hi.unique hunique (hkeys _) (hkeys _) hmpt husr
    (hholds stats start stop hstats hday hstop)).symm

theorem entry_hset (side side' : Side) (connectKey : Bytes) (e : Entry) (name f : Bytes) :
    Table.entry ((s.hset side connectKey e).history side') name f =
      if side' = side ∧ name = e.name ∧ f = field e.connectTime connectKey then some e
      else Table.entry (s.history side') name f := by
  unfold State.hset
  dsimp only
  by_cases hside : side' = side
  · subst hside
    rw [Function.update_self, Table.entry_put]
    simp
  · rw [Function.update_of_ne hside, if_neg fun h ↦ hside h.1]

theorem Inv.hset (hi : Inv zone date s) {side : Side} {connectKey : Bytes} {e : Entry}
    {live : Side → Table (Bytes × Bytes) Entry}
    (hstored : (∀ name, Table.entry (s.history side) name (field e.connectTime connectKey) = none) ∨
      ∃ e', Table.entry (s.history side) e.name (field e.connectTime connectKey) = some e' ∧
        SameSession e e')
    (hshare : ∀ stats start stop, s.cached = some stats → zone.dayOf date = some (start, stop) →
      stop ≤ s.now → shareOf ⟨start, stop⟩ s.now side e =
        (Table.entry (s.history side) e.name (field e.connectTime connectKey)).bind
          (shareOf ⟨start, stop⟩ s.now side))
    (hlive : ∀ side' node connectKey' x, (live side').lookup (node, connectKey') = some x →
      (s.live side').lookup (node, connectKey') = some x ∨
        side' = side ∧ connectKey' = connectKey ∧ x = e ∧ e.disconnectTime = 0) :
    Inv zone date { s.hset side connectKey e with live } := by
  have hunique : ∀ side', Unique ((s.hset side connectKey e).history side') := by
    intro side'
    by_cases hside : side' = side
    · subst hside
      unfold State.hset
      simp only [Function.update_self]
      refine (hi.unique side').put fun name' e' he' ↦ ?_
      rcases hstored with hfresh | ⟨e₀, he₀, -⟩
      · rw [hfresh] at he'
        cases he'
      · exact hi.unique side' _ _ _ _ _ he' he₀
    · simp only [State.hset, Function.update_of_ne hside]
      exact hi.unique side'
  refine ⟨hunique, ?_, ?_⟩
  · intro side' node connectKey' x hx
    dsimp only at hx ⊢
    rcases hlive side' node connectKey' x hx with hx | ⟨rfl, rfl, rfl, hopen⟩
    · obtain ⟨hopen, x', hx', hsame⟩ := hi.live side' node connectKey' x hx
      refine ⟨hopen, ?_⟩
      rw [entry_hset]
      split_ifs with hkey
      · -- the record of this session is the one that is written
        obtain ⟨rfl, hname, hfield⟩ := hkey
        rcases hstored with hfresh | ⟨e₀, he₀, hsame₀⟩
        · rw [hname, hfield] at hx'
          rw [hfresh] at hx'
          cases hx'
        · rw [hname, hfield, he₀] at hx'
          obtain rfl := Option.some.inj hx'
          exact ⟨e, rfl, hname.symm, hsame₀.type.symm.trans hsame.type,
            hsame₀.connectTime.symm.trans hsame.connectTime⟩
      · exact ⟨x', hx', hsame⟩
    · exact ⟨hopen, x, by simp [entry_hset], ⟨rfl, rfl, rfl⟩⟩
  · refine hi.cached_of_holds rfl le_rfl hunique fun stats start stop hstats hday hstop side' ↦ ?_
    refine holds_congr fun name f ↦ ?_
    dsimp only
    rw [entry_hset]
    split_ifs with hkey
    · obtain ⟨rfl, rfl, rfl⟩ := hkey
      exact hshare stats start stop hstats hday hstop
    · rfl

theorem Inv.rewrite (hi : Inv zone date s)
    (hzone : ∀ start stop, zone.dayOf date = some (start, stop) → start ≤ stop)
    {side : Side} {node connectKey : Bytes} {e e₂ : Entry}
    {live : Side → Table (Bytes × Bytes) Entry}
    (he : (s.live side).lookup (node, connectKey) = some e) (hsame : SameSession e e₂)
    (hclosed : e₂.disconnectTime = 0 ∨ e₂.disconnectTime = s.now)
    (hok : s.cached = none ∨ ∀ e e', (s.live side).lookup (node, connectKey) = some e →
      Table.entry (s.history side) e.name (field e.connectTime connectKey) = some e' →
      e'.disconnectTime = 0 ∨ Over zone date e'.disconnectTime)
    (hlive : ∀ side' node connectKey' x, (live side').lookup (node, connectKey') = some x →
      (s.live side').lookup (node, connectKey') = some x ∨
        side' = side ∧ connectKey' = connectKey ∧ x = e₂ ∧ e₂.disconnectTime = 0) :
    Inv zone date { s.hset side connectKey e₂ with live } := by
  obtain ⟨-, e', he', hsame'⟩ := hi.live side node connectKey e he
  have hkey : Table.entry (s.history side) e₂.name (field e₂.connectTime connectKey) = some e' := by
    rw [hsame.name, hsame.connectTime, he']
  refine hi.hset (.inr ⟨e', hkey, ?_⟩) ?_ hlive
  · exact ⟨hsame'.name.trans hsame.name.symm, hsame'.type.trans hsame.type.symm,
      hsame'.connectTime.trans hsame.connectTime.symm⟩
  · intro stats start stop hstats hday hstop
    rcases hok with hnone | hok
    · rw [hstats] at hnone
      cases hnone
    rw [hkey, Option.bind_some]
    refine shareOf_congr (hzone start stop hday) hstop hstop (hsame.name.trans hsame'.name.symm)
      (hsame.type.trans hsame'.type.symm) (hsame.connectTime.trans hsame'.connectTime.symm) ?_ ?_
    · exact (hok e e' he he').imp_right fun hover ↦ hover start stop hday
    · exact hclosed.imp_right fun hnow ↦ hstop.trans_eq hnow.symm

theorem cached_query (now : Int) (logs : Logs) (cached : Option Stats) :
    (handleGetStatsDaily zone now date logs cached).2 = cached ∨
      ∃ start stop, zone.dayOf date = some (start, stop) ∧ stop ≤ now ∧
        (handleGetStatsDaily zone now date logs cached).2 = dailyStats ⟨start, stop⟩ now logs := by
  unfold handleGetStatsDaily
  split_ifs
  · exact .inl rfl
  cases hday : zone.dayOf date with
  | none => exact .inl rfl
  | some day =>
    obtain ⟨start, stop⟩ := day
    dsimp only
    by_cases hover : stop ≤ now
    · cases cached with
      | some stats => simp [hover]
      | none =>
        cases hstats : dailyStats ⟨start, stop⟩ now logs with
        | none => simp [hover]
        | some stats => exact .inr ⟨start, stop, rfl, hover, by simp [hover, hstats]⟩
    · cases dailyStats ⟨start, stop⟩ now logs <;> simp [hover]

theorem step_query {mptNames usrNames : List Bytes}
    (h : Complete mptNames (s.history .mpt) ∧ Complete usrNames (s.history .usr)) :
    (machine zone date).step s (.query mptNames usrNames) =
      some ({ s with cached :=
        (handleGetStatsDaily zone s.now date (s.logs mptNames usrNames) s.cached).2 },
        [(handleGetStatsDaily zone s.now date (s.logs mptNames usrNames) s.cached).1]) :=
  if_pos h

theorem lookup_update_insert {live : Side → Table (Bytes × Bytes) Entry} {side side' : Side}
    {node node' connectKey connectKey' : Bytes} {e x : Entry}
    (h : (Function.update live side ((live side).insert (node, connectKey) e) side').lookup
      (node', connectKey') = some x) :
    (live side').lookup (node', connectKey') = some x ∨ side' = side ∧ connectKey' = connectKey ∧
      x = e := by
  by_cases hside : side' = side
  · subst hside
    rw [Function.update_self, Table.lookup_insert_if] at h
    split_ifs at h with hkey
    · exact .inr ⟨rfl, (Prod.mk.inj hkey).2, (Option.some.inj h).symm⟩
    · exact .inl h
  · rw [Function.update_of_ne hside] at h
    exact .inl h

theorem lookup_update_erase {live : Side → Table (Bytes × Bytes) Entry} {side side' : Side}
    {key key' : Bytes × Bytes} {x : Entry}
    (h : (Function.update live side ((live side).erase key) side').lookup key' = some x) :
    (live side').lookup key' = some x := by
  by_cases hside : side' = side
  · subst hside
    rw [Function.update_self, Table.lookup_erase_if] at h
    split_ifs at h
    exact h
  · rw [Function.update_of_ne hside] at h
    exact h

theorem withTotals_same (e : Entry) (totals : Option (Int × Int)) :
    SameSession e (e.withTotals totals) ∧
    (e.withTotals totals).disconnectTime = e.disconnectTime := by
  cases totals <;> exact ⟨⟨rfl, rfl, rfl⟩, rfl⟩

theorem Inv.tick (hi : Inv zone date s)
    (hzone : ∀ start stop, zone.dayOf date = some (start, stop) → start ≤ stop) (seconds : Nat) :
    Inv zone date { s with now := s.now + seconds } := by
  refine ⟨hi.unique, hi.live, hi.cached_of_holds rfl (by dsimp only; omega) hi.unique ?_⟩
  intro stats start stop hstats hday hstop side
  apply holds_congr
  intro name f
  dsimp only
  congr 1
  funext e
  exact shareOf_later (hzone start stop hday) hstop (by omega) e

theorem Inv.cleanup (hi : Inv zone date s)
    (hzone : ∀ start stop, zone.dayOf date = some (start, stop) → start ≤ stop)
    {keyExpireTime : Int}
    (hok : s.cached = none ∨ ∀ side name f e, Table.entry (s.history side) name f = some e →
      e.disconnectTime = 0 → keyExpireTime < Compensation.sub64 s.now e.lastUpdate →
      Over zone date e.lastUpdate) :
    Inv zone date { s with
      history := fun side ↦ cleanupStaleHistory s.now keyExpireTime (s.history side) } := by
  have hunique : ∀ side, Unique (cleanupStaleHistory s.now keyExpireTime (s.history side)) :=
    fun side ↦ (hi.unique side).cleanup keyExpireTime
  refine ⟨hunique, fun side node connectKey e he ↦ ?_, hi.cached_of_holds rfl le_rfl hunique ?_⟩
  · obtain ⟨hopen, e', he', hsame⟩ := hi.live side node connectKey e he
    have hsame' := compensate_same s.now keyExpireTime e'
    refine ⟨hopen, compensate s.now keyExpireTime e', by rw [entry_cleanup, he']; rfl, ?_⟩
    exact ⟨hsame'.name.trans hsame.name, hsame'.type.trans hsame.type,
      hsame'.connectTime.trans hsame.connectTime⟩
  · intro stats start stop hstats hday hstop side
    apply holds_congr
    intro name f
    dsimp only
    rw [entry_cleanup]
    cases he : Table.entry (s.history side) name f with
    | none => rfl
    | some e =>
      apply shareOf_compensate (hzone start stop hday) hstop
      intro hopen hstale
      rcases hok with hnone | hok
      · rw [hstats] at hnone
        cases hnone
      · exact hok side name f e he hopen hstale start stop hday

theorem Inv.query (hi : Inv zone date s) {mptNames usrNames : List Bytes}
    (hmpt : Complete mptNames (s.history .mpt)) (husr : Complete usrNames (s.history .usr)) :
    Inv zone date
      { s with cached :=
        (handleGetStatsDaily zone s.now date (s.logs mptNames usrNames) s.cached).2 } := by
  refine ⟨hi.unique, hi.live, fun stats hstats ↦ ?_⟩
  dsimp only at hstats ⊢
  have hquery := @cached_query zone date s.now (s.logs mptNames usrNames) s.cached
  rcases hquery with hsame | ⟨start, stop, hday, hstop, hfresh⟩
  · exact hi.cached stats (hsame ▸ hstats)
  · refine ⟨start, stop, hday, hstop, fun mptNames' usrNames' hmpt' husr' ↦ ?_⟩
    rw [← hstats, hfresh]
    exact dailyStats_congr hi.unique hi.unique hmpt' husr' hmpt husr fun _ _ _ ↦ Iff.rfl

theorem inv_step (hzone : ∀ start stop, zone.dayOf date = some (start, stop) → start ≤ stop)
    (s : State) (a : Action) (s' : State) (answers : List Daily) (hi : Inv zone date s)
    (hok : Harmless zone date s a) (hs : (machine zone date).step s a = some (s', answers)) :
    Inv zone date s' := by
  cases a with
  | tick seconds =>
    cases hs
    exact hi.tick hzone seconds
  | register side node connectKey name type =>
    cases hs
    refine hi.hset (.inl hok) ?_ ?_
    · intro stats start stop _ _ hstop
      rw [shareOf_new hstop]
      dsimp only
      rw [hok name]
      rfl
    · intro side' node' connectKey' x hx
      exact (lookup_update_insert hx).imp_right fun ⟨hside, hkey, hx⟩ ↦ ⟨hside, hkey, hx, rfl⟩
  | refresh side node connectKey totals =>
    simp only [machine] at hs
    split at hs
    · cases hs
    next e he =>
    cases hs
    obtain ⟨hsame, hopen⟩ := withTotals_same e totals
    have hopen : (e.withTotals totals).disconnectTime = 0 :=
      hopen.trans (hi.live side node connectKey e he).1
    refine hi.rewrite hzone he ⟨hsame.name, hsame.type, hsame.connectTime⟩ (.inl hopen) hok ?_
    intro side' node' connectKey' x hx
    exact (lookup_update_insert hx).imp_right fun ⟨hside, hkey, hx⟩ ↦ ⟨hside, hkey, hx, hopen⟩
  | withdraw side node connectKey totals =>
    simp only [machine] at hs
    split at hs
    · cases hs
    next e he =>
    cases hs
    obtain ⟨hsame, -⟩ := withTotals_same e totals
    refine hi.rewrite hzone he ⟨hsame.name, hsame.type, hsame.connectTime⟩ (.inr rfl) hok ?_
    exact fun side' node' connectKey' x hx ↦ .inl (lookup_update_erase hx)
  | crash node =>
    cases hs
    refine ⟨hi.unique, fun side node' connectKey e he ↦ hi.live side node' connectKey e ?_,
      hi.cached⟩
    dsimp only at he
    rw [Table.lookup_filterMap] at he
    obtain ⟨e', he', h⟩ := Option.bind_eq_some_iff.mp he
    dsimp only at h
    split_ifs at h
    rw [he', h]
  | cleanup keyExpireTime =>
    cases hs
    exact hi.cleanup hzone hok
  | expire =>
    cases hs
    exact ⟨hi.unique, hi.live, nofun⟩
  | query mptNames usrNames =>
    by_cases hcomplete : Complete mptNames (s.history .mpt) ∧ Complete usrNames (s.history .usr)
    · rw [step_query hcomplete] at hs
      cases hs
      exact hi.query hcomplete.1 hcomplete.2
    · simp [machine, hcomplete] at hs

theorem Inv.transparent (hi : Inv zone date s) : Transparent zone date s := by
  intro mptNames usrNames hmpt husr
  cases hcached : s.cached with
  | none => rfl
  | some stats =>
    obtain ⟨start, stop, hday, hstop, hfresh⟩ := hi.cached stats hcached
    unfold handleGetStatsDaily
    split_ifs
    · rfl
    · simp [hday, hstop, hfresh mptNames usrNames hmpt husr]

/-- While no step does harm to the day, what is answered from the cache is what would be
computed. -/
theorem daily_cache_transparent
    (hzone : ∀ start stop, zone.dayOf date = some (start, stop) → start ≤ stop)
    {now : Int} (h : (machine zone date).Reach (Harmless zone date) (start now) s) :
    Transparent zone date s :=
  (h.invariant (inv_start now) (inv_step hzone)).transparent

end

section

def noon : State := start 1785585600

def base : Action := .register .mpt (ascii "n") (ascii "c") (ascii "M") 1

def nextNoon : State :=
  (((machine utc (august 0).text).exec noon [base, .tick 86400]).map Prod.fst).getD noon

/-- The day is asked for while the session lasts, which ends afterwards. -/
theorem daily_cache_transparent_lasting : ∃ s,
    (machine utc (august 0).text).Reach (Harmless utc (august 0).text) noon s ∧ s.cached.isSome ∧
      Transparent utc (august 0).text s := by
  have hzone : ∀ start stop, utc.dayOf (august 0).text = some (start, stop) → start ≤ stop := by
    have hday : utc.dayOf (august 0).text = some (1785542400, 1785628800) := by decide +kernel
    rintro start stop h
    cases hday.symm.trans h
    decide
  have hnext : (machine utc (august 0).text).Reach (Harmless utc (august 0).text) noon nextNoon :=
    (Machine.Reach.refl.tail (a := base) (fun name ↦ rfl) rfl).tail (a := .tick 86400) trivial rfl
  have hcomplete : Complete [ascii "M"] (nextNoon.history .mpt) ∧
      Complete [] (nextNoon.history .usr) := by
    decide +kernel
  have hlive : (nextNoon.live .mpt).lookup (ascii "n", ascii "c") =
      some ⟨ascii "M", 1, 1785585600, 1785585600, 0, 0, 0⟩ := by
    decide +kernel
  have hrecord : Table.entry (nextNoon.history .mpt) (ascii "M") (field 1785585600 (ascii "c")) =
      some ⟨ascii "M", 1, 1785585600, 1785585600, 0, 0, 0⟩ := by
    decide +kernel
  have hquery : Harmless utc (august 0).text nextNoon (.query [ascii "M"] []) := trivial
  have hasked := hnext.tail hquery (step_query hcomplete)
  have hwithdraw : Harmless utc (august 0).text
      { nextNoon with cached := (handleGetStatsDaily utc nextNoon.now (august 0).text
          (nextNoon.logs [ascii "M"] []) nextNoon.cached).2 }
      (.withdraw .mpt (ascii "n") (ascii "c") none) := by
    refine .inr fun e e' he he' ↦ .inl ?_
    obtain rfl := Option.some.inj (hlive.symm.trans he)
    obtain rfl := Option.some.inj (hrecord.symm.trans he')
    rfl
  have hended := hasked.tail hwithdraw rfl
  exact ⟨_, hended, by decide +kernel, daily_cache_transparent hzone hended⟩

/-- The node crashes an hour after noon, the day is asked for when it is over, and the session is
closed at the time of the crash when a node starts again. -/
def crashed : List Action :=
  [base, .tick 3600, .refresh .mpt (ascii "n") (ascii "c") none, .crash (ascii "n"), .tick 43200,
    .query [ascii "M"] [], .cleanup 30]

def averageMpt : Daily → Option Int
  | .ok stats => some stats.avgDurationMpt
  | _ => none

/-- The average that is kept is that of a session which lasted to the end of the day. -/
theorem not_daily_cache_transparent : ∃ s answers,
    (machine utc (august 0).text).exec noon crashed = some (s, answers) ∧
    averageMpt (handleGetStatsDaily utc s.now (august 0).text (s.logs [ascii "M"] []) s.cached).1 =
      some 43200 ∧
    averageMpt (handleGetStatsDaily utc s.now (august 0).text (s.logs [ascii "M"] []) none).1 =
      some 3600 ∧
    ¬ Transparent utc (august 0).text s := by
  have hrun : ((machine utc (august 0).text).exec noon crashed).map (fun p ↦
      (averageMpt
        (handleGetStatsDaily utc p.1.now (august 0).text (p.1.logs [ascii "M"] []) p.1.cached).1,
        averageMpt
          (handleGetStatsDaily utc p.1.now (august 0).text (p.1.logs [ascii "M"] []) none).1,
        decide (Complete [ascii "M"] (p.1.history .mpt) ∧ Complete [] (p.1.history .usr)))) =
      some (some 43200, some 3600, true) := by
    decide +kernel
  obtain ⟨⟨s, answers⟩, hexec, h⟩ := Option.map_eq_some_iff.mp hrun
  obtain ⟨hcached, h⟩ := Prod.mk.inj h
  obtain ⟨hfresh, hcomplete⟩ := Prod.mk.inj h
  obtain ⟨hmpt, husr⟩ := of_decide_eq_true hcomplete
  refine ⟨s, answers, hexec, hcached, hfresh, fun htransparent ↦ ?_⟩
  dsimp only at hcached hfresh
  rw [htransparent _ _ hmpt husr, hfresh] at hcached
  exact absurd hcached (by decide)

end

end NavCaster.Http.DailyCache
