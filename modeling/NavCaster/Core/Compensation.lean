import NavCaster.Auth.Account
import NavCaster.Library.Table

namespace NavCaster.Core.Compensation

open NavCaster.Library NavCaster.Library.Scan
open NavCaster.Library.Strto (Bytes)
open NavCaster.Auth.Account (Json)

abbrev Database := Table Bytes (Table Bytes Bytes)

/-- Gives a member that is there another value. -/
def setMember (key : String) (value : Json) : Json → Json
  | .object members => .object (members.map fun m ↦ (m.1, if m.1 = key then value else m.2))
  | j => j

/-- Numbers are read as 64-bit integers. What is read of a text can be written with the time of its
last update as that of the disconnection, and is read back. -/
structure HistoryCodec where
  parse : Bytes → Option Json
  dump : Json → Bytes
  integer : Int → Json
  getLongLong_integer : ∀ n, -2 ^ 63 ≤ n → n < 2 ^ 63 → (integer n).getLongLong = some n
  int64 : ∀ text entry key v n, parse text = some entry → entry.find key = some v →
    v.getLongLong = some n → -2 ^ 63 ≤ n ∧ n < 2 ^ 63
  read_back : ∀ text entry v n, parse text = some entry → entry.find "last_update" = some v →
    v.getLongLong = some n →
    parse (cstr (dump (setMember "disconnect_time" (integer n) entry))) =
      some (setMember "disconnect_time" (integer n) entry)

section

variable (codec : HistoryCodec) (now keyExpireTime : Int)

def sub64 (a b : Int) : Int := (a - b).bmod (2 ^ 64)

/-- The record as it is written back, if it is; what throws is passed over. -/
def closeStale (entry : Json) : Option Json := do
  let disconnectTime ← (← entry.find "disconnect_time").getLongLong
  if disconnectTime ≠ 0 then none
  let lastUpdate ← (← entry.find "last_update").getLongLong
  if keyExpireTime < sub64 now lastUpdate then
    some (setMember "disconnect_time" (codec.integer lastUpdate) entry)
  else none

def compensateField (key : Bytes) (db : Database) (field : Bytes × Bytes) : Database :=
  match (codec.parse (cstr field.2)).bind (closeStale codec now keyExpireTime) with
  | none => db
  | some entry => Table.put db key field.1 (cstr (codec.dump entry))

/-- The fields of a hash, as `HGETALL` gives them before any of them is changed. -/
def compensateKey (db : Database) (key : Bytes) : Database :=
  (Table.toPairs ((db.lookup key).getD ∅)).foldl (compensateField codec now keyExpireTime key) db

/-- `keys` are those that `SCAN` returns, one batch after the other. -/
def scanAndCompensate (keys : List Bytes) (db : Database) : Database :=
  keys.foldl (compensateKey codec now keyExpireTime) db

def cleanupStaleHistory (mptKeys usrKeys : List Bytes) (db : Database) : Database :=
  scanAndCompensate codec now keyExpireTime usrKeys
    (scanAndCompensate codec now keyExpireTime mptKeys db)

end

def logMptPrefix : Bytes := ascii "LOG:MPT:"

def logUsrPrefix : Bytes := ascii "LOG:USR:"

def Scanned (start : Bytes) (db : Database) (keys : List Bytes) : Prop :=
  ∀ key, key ∈ keys ↔ key ∈ db ∧ start <+: key

def IsHistory (key : Bytes) : Prop := logMptPrefix <+: key ∨ logUsrPrefix <+: key

instance (key : Bytes) : Decidable (IsHistory key) := inferInstanceAs (Decidable (_ ∨ _))

structure Open (entry : Json) (lastUpdate : Int) : Prop where
  disconnectTime : ∃ v, entry.find "disconnect_time" = some v ∧ v.getLongLong = some 0
  lastUpdate : ∃ v, entry.find "last_update" = some v ∧ v.getLongLong = some lastUpdate

/-- The record is to be closed, at this time. -/
def Stale (now keyExpireTime : Int) (entry : Json) (lastUpdate : Int) : Prop :=
  Open entry lastUpdate ∧ lastUpdate < now - keyExpireTime

/-- The time of the disconnection is set in the records that are to be closed, and nothing else
is. -/
structure Compensated (codec : HistoryCodec) (now keyExpireTime : Int)
    (db db' : Database) : Prop where
  others : ∀ key field, ¬ IsHistory key → Table.entry db' key field = Table.entry db key field
  absent : ∀ key field, Table.entry db key field = none → Table.entry db' key field = none
  closed : ∀ key field text entry lastUpdate, IsHistory key → Table.entry db key field = some text →
    codec.parse (cstr text) = some entry → Stale now keyExpireTime entry lastUpdate →
    ((Table.entry db' key field).map cstr).bind codec.parse =
      some (setMember "disconnect_time" (codec.integer lastUpdate) entry)
  kept : ∀ key field text, IsHistory key → Table.entry db key field = some text →
    (∀ entry lastUpdate, codec.parse (cstr text) = some entry →
      ¬ Stale now keyExpireTime entry lastUpdate) →
    Table.entry db' key field = some text

section

variable (codec : HistoryCodec) (now keyExpireTime : Int)

def renew (text : Bytes) : Bytes :=
  (((codec.parse (cstr text)).bind (closeStale codec now keyExpireTime)).map fun entry ↦
    cstr (codec.dump entry)).getD text

theorem entry_compensateField {key : Bytes} {db : Database} {field : Bytes × Bytes}
    (h : Table.entry db key field.1 = some field.2) (key' name : Bytes) :
    Table.entry (compensateField codec now keyExpireTime key db field) key' name =
      if key' = key ∧ name = field.1 then some (renew codec now keyExpireTime field.2)
      else Table.entry db key' name := by
  unfold compensateField renew
  cases (codec.parse (cstr field.2)).bind (closeStale codec now keyExpireTime) with
  | none =>
    simp only [Option.map_none, Option.getD_none]
    split_ifs with hfield
    · rw [hfield.1, hfield.2, h]
    · rfl
  | some entry => simp [Table.entry_put]

theorem entry_foldl {key : Bytes} (fields : List (Bytes × Bytes)) (db : Database)
    (h : ∀ field ∈ fields, Table.entry db key field.1 = some field.2)
    (hnodup : (fields.map Prod.fst).Nodup) (key' name : Bytes) :
    Table.entry (fields.foldl (compensateField codec now keyExpireTime key) db) key' name =
      if key' = key ∧ name ∈ fields.map Prod.fst then
        (Table.entry db key' name).map (renew codec now keyExpireTime)
      else Table.entry db key' name := by
  induction fields generalizing db with
  | nil => simp
  | cons field fields ih =>
    obtain ⟨hfield, hfields⟩ := List.forall_mem_cons.mp h
    obtain ⟨hnot, hnodup⟩ := List.nodup_cons.mp hnodup
    have hentry := entry_compensateField codec now keyExpireTime hfield
    have hrest : ∀ other ∈ fields,
        Table.entry (compensateField codec now keyExpireTime key db field) key other.1 =
          some other.2 := by
      intro other hother
      rw [hentry, if_neg, hfields other hother]
      rintro ⟨-, heq⟩
      exact hnot (heq ▸ List.mem_map_of_mem hother)
    rw [List.foldl_cons, ih _ hrest hnodup, hentry]
    by_cases hkey : key' = key
    · by_cases hname : name = field.1
      · subst hkey hname
        simp [hnot, hfield]
      · have hmem : name ∈ (field :: fields).map Prod.fst ↔ name ∈ fields.map Prod.fst := by
          simp [hname]
        simp only [hkey, hname, hmem, and_false, if_false]
    · simp [hkey]

theorem entry_compensateKey (db : Database) (key key' name : Bytes) :
    Table.entry (compensateKey codec now keyExpireTime db key) key' name =
      if key' = key then (Table.entry db key' name).map (renew codec now keyExpireTime)
      else Table.entry db key' name := by
  have hrow (name : Bytes) : Table.entry db key name = ((db.lookup key).getD ∅).lookup name := by
    unfold Table.entry
    cases db.lookup key <;> simp
  have hpairs : ∀ field ∈ Table.toPairs ((db.lookup key).getD ∅),
      Table.entry db key field.1 = some field.2 := by
    intro field hfield
    rw [hrow]
    exact Table.mem_toPairs.mp hfield
  unfold compensateKey
  rw [entry_foldl codec now keyExpireTime _ db hpairs (Table.toPairs_nodup _)]
  by_cases hkey : key' = key
  · subst hkey
    simp only [true_and, if_true]
    split_ifs with hmem
    · rfl
    · have hnone : Table.entry db key' name = none := by
        rw [hrow]
        refine Option.eq_none_iff_forall_ne_some.mpr fun text htext ↦ hmem ?_
        exact List.mem_map_of_mem (Table.mem_toPairs.mpr htext)
      rw [hnone]
      rfl
  · simp [hkey]

theorem mem_compensateField {key key' : Bytes} {db : Database} {field : Bytes × Bytes}
    (h : key' ∈ compensateField codec now keyExpireTime key db field) : key' = key ∨ key' ∈ db := by
  unfold compensateField at h
  cases hclose : (codec.parse (cstr field.2)).bind (closeStale codec now keyExpireTime) with
  | none => exact .inr (by simpa [hclose] using h)
  | some entry => simpa [hclose, Table.put] using h

theorem mem_scan {keys : List Bytes} {db : Database} {key : Bytes}
    (h : key ∈ scanAndCompensate codec now keyExpireTime keys db) : key ∈ keys ∨ key ∈ db := by
  unfold scanAndCompensate at h
  induction keys generalizing db with
  | nil => exact .inr h
  | cons key' keys ih =>
    have hkey : ∀ (fields : List (Bytes × Bytes)) (db : Database),
        key ∈ fields.foldl (compensateField codec now keyExpireTime key') db → key = key' ∨
          key ∈ db := by
      intro fields
      induction fields with
      | nil => exact fun _ ↦ .inr
      | cons field fields ihf =>
        intro db hmem
        rcases ihf _ hmem with heq | hmem
        · exact .inl heq
        · exact mem_compensateField codec now keyExpireTime hmem
    rcases ih h with hmem | hmem
    · exact .inl (List.mem_cons_of_mem _ hmem)
    · rcases hkey _ _ hmem with rfl | hmem
      · exact .inl List.mem_cons_self
      · exact .inr hmem

theorem find_setMember (key key' : String) (value entry : Json) :
    (setMember key value entry).find key' =
      if key' = key then (entry.find key').map fun _ ↦ value else entry.find key' := by
  cases entry with
  | object members =>
    simp only [setMember, Json.find]
    induction members with
    | nil => simp
    | cons m members ih =>
      obtain ⟨name, v⟩ := m
      rw [List.map_cons, List.lookup_cons, List.lookup_cons, ih]
      cases h : key' == name with
      | false => rfl
      | true =>
        obtain rfl := eq_of_beq h
        by_cases hkey : key' = key <;> simp [hkey]
  | _ => simp [setMember, Json.find]

theorem setMember_setMember (key : String) (value entry : Json) :
    setMember key value (setMember key value entry) = setMember key value entry := by
  cases entry with
  | object members =>
    simp only [setMember, List.map_map, Json.object.injEq]
    apply List.map_congr_left
    intro m _
    by_cases h : m.1 = key <;> simp [h]
  | _ => rfl

theorem closeStale_eq_some {entry entry' : Json} :
    closeStale codec now keyExpireTime entry = some entry' ↔
      ∃ lastUpdate, Open entry lastUpdate ∧ keyExpireTime < sub64 now lastUpdate ∧
        entry' = setMember "disconnect_time" (codec.integer lastUpdate) entry := by
  simp only [closeStale, Option.bind_eq_bind, Option.bind_eq_some_iff, ne_eq, ite_not]
  constructor
  · rintro ⟨v, hv, disconnectTime, hj, h⟩
    split_ifs at h with hzero
    · obtain ⟨w, hw, h⟩ := Option.bind_eq_some_iff.mp h
      obtain ⟨lastUpdate, hlast, h⟩ := Option.bind_eq_some_iff.mp h
      split_ifs at h with hstale
      exact ⟨lastUpdate, ⟨⟨v, hv, hzero ▸ hj⟩, w, hw, hlast⟩, hstale, (Option.some.inj h).symm⟩
    · cases h
  · rintro ⟨lastUpdate, ⟨⟨v, hv, hj⟩, w, hw, hlast⟩, hstale, rfl⟩
    exact ⟨v, hv, 0, hj, by simp [hw, hlast, hstale]⟩

theorem closeStale_closed {entry entry' : Json} {lastUpdate : Int} (hopen : Open entry lastUpdate)
    (h : closeStale codec now keyExpireTime
      (setMember "disconnect_time" (codec.integer lastUpdate) entry) = some entry') :
    entry' = setMember "disconnect_time" (codec.integer lastUpdate) entry := by
  obtain ⟨w, hw, hlast⟩ := hopen.lastUpdate
  obtain ⟨again, hagain, -, rfl⟩ := (closeStale_eq_some codec now keyExpireTime).mp h
  obtain ⟨w', hw', hlast'⟩ := hagain.lastUpdate
  have hsame : again = lastUpdate := by
    rw [find_setMember, if_neg (by decide), hw] at hw'
    obtain rfl := Option.some.inj hw'
    exact Option.some.inj (hlast'.symm.trans hlast)
  rw [hsame, setMember_setMember]

/-- A record that has been looked at is left as it is when it is looked at again. -/
theorem renew_renew (text : Bytes) :
    renew codec now keyExpireTime (renew codec now keyExpireTime text) =
      renew codec now keyExpireTime text := by
  cases h : (codec.parse (cstr text)).bind (closeStale codec now keyExpireTime) with
  | none => simp [renew, h]
  | some entry' =>
    obtain ⟨entry, hparse, hclose⟩ := Option.bind_eq_some_iff.mp h
    obtain ⟨lastUpdate, hopen, hstale, rfl⟩ :=
      (closeStale_eq_some codec now keyExpireTime).mp hclose
    obtain ⟨w, hw, hlast⟩ := hopen.lastUpdate
    have hback := codec.read_back _ _ _ _ hparse hw hlast
    have hrenew : renew codec now keyExpireTime text =
        cstr (codec.dump (setMember "disconnect_time" (codec.integer lastUpdate) entry)) := by
      simp [renew, h]
    rw [hrenew, renew, cstr_cstr, hback, Option.bind_some]
    cases hagain : closeStale codec now keyExpireTime
        (setMember "disconnect_time" (codec.integer lastUpdate) entry) with
    | none => rfl
    | some entry' => rw [closeStale_closed codec now keyExpireTime hopen hagain]; rfl

theorem renew_comp_renew : renew codec now keyExpireTime ∘ renew codec now keyExpireTime =
    renew codec now keyExpireTime := funext (renew_renew codec now keyExpireTime)

theorem entry_scan (keys : List Bytes) (db : Database) (key name : Bytes) :
    Table.entry (scanAndCompensate codec now keyExpireTime keys db) key name =
      if key ∈ keys then (Table.entry db key name).map (renew codec now keyExpireTime)
      else Table.entry db key name := by
  unfold scanAndCompensate
  induction keys generalizing db with
  | nil => simp
  | cons key' keys ih =>
    rw [List.foldl_cons, ih, entry_compensateKey]
    by_cases hkey : key = key'
    · simp [hkey, renew_comp_renew]
    · simp [hkey]

theorem entry_scanned {start : Bytes} {db : Database} {keys : List Bytes}
    (h : Scanned start db keys) (key name : Bytes) :
    Table.entry (scanAndCompensate codec now keyExpireTime keys db) key name =
      if start <+: key then (Table.entry db key name).map (renew codec now keyExpireTime)
      else Table.entry db key name := by
  rw [entry_scan]
  cases hentry : Table.entry db key name with
  | none => simp
  | some text =>
    obtain ⟨row, hrow, -⟩ := Option.bind_eq_some_iff.mp hentry
    have hmem : key ∈ keys ↔ start <+: key := by
      simp [h key, Table.mem_of_lookup hrow]
    simp only [hmem]

theorem entry_cleanup {db : Database} {mptKeys usrKeys : List Bytes}
    (hmpt : Scanned logMptPrefix db mptKeys)
    (husr : Scanned logUsrPrefix (scanAndCompensate codec now keyExpireTime mptKeys db) usrKeys)
    (key name : Bytes) :
    Table.entry (cleanupStaleHistory codec now keyExpireTime mptKeys usrKeys db) key name =
      if IsHistory key then (Table.entry db key name).map (renew codec now keyExpireTime)
      else Table.entry db key name := by
  rw [cleanupStaleHistory, entry_scanned codec now keyExpireTime husr,
    entry_scanned codec now keyExpireTime hmpt]
  unfold IsHistory
  by_cases h : logMptPrefix <+: key <;> by_cases h' : logUsrPrefix <+: key <;>
    simp [h, h', renew_comp_renew]

/-- The time since the session was last seen has 64 bits, or comes out past the expiry time all the
same, which it does not where that is not negative. -/
def Representable (lastUpdate : Int) : Prop :=
  now - lastUpdate < 2 ^ 63 ∨ keyExpireTime < now - lastUpdate - 2 ^ 64

variable {now keyExpireTime}

theorem sub64_of_lt {lastUpdate : Int} (hnow : 0 ≤ now) (hupper : lastUpdate < 2 ^ 63)
    (h : now - lastUpdate < 2 ^ 63) : sub64 now lastUpdate = now - lastUpdate := by
  unfold sub64
  rw [Int.bmod_eq_of_le] <;> omega

theorem sub64_of_le {lastUpdate : Int} (hnow : now < 2 ^ 63) (hlower : -2 ^ 63 ≤ lastUpdate)
    (h : 2 ^ 63 ≤ now - lastUpdate) : sub64 now lastUpdate = now - lastUpdate - 2 ^ 64 := by
  unfold sub64
  rw [← Int.sub_bmod_right, Int.bmod_eq_of_le] <;> omega

/-- The difference that is computed is past the expiry time for the sessions that are out of date,
where it has 64 bits. -/
theorem lt_sub64_iff {lastUpdate : Int} (hnow : 0 ≤ now) (hnow' : now < 2 ^ 63)
    (hlower : -2 ^ 63 ≤ lastUpdate) (hupper : lastUpdate < 2 ^ 63) :
    keyExpireTime < sub64 now lastUpdate ↔
      lastUpdate < now - keyExpireTime ∧ Representable now keyExpireTime lastUpdate := by
  unfold Representable
  by_cases h : now - lastUpdate < 2 ^ 63
  · rw [sub64_of_lt hnow hupper h]
    omega
  · rw [sub64_of_le hnow' hlower (by omega)]
    omega

variable {codec}

theorem renew_of_closed {text : Bytes} {entry : Json} {lastUpdate : Int}
    (hparse : codec.parse (cstr text) = some entry) (hopen : Open entry lastUpdate)
    (hstale : keyExpireTime < sub64 now lastUpdate) :
    renew codec now keyExpireTime text =
      cstr (codec.dump (setMember "disconnect_time" (codec.integer lastUpdate) entry)) := by
  have hclose := (closeStale_eq_some codec now keyExpireTime).mpr ⟨lastUpdate, hopen, hstale, rfl⟩
  simp [renew, hparse, hclose]

theorem renew_of_kept {text : Bytes}
    (h : ∀ entry lastUpdate, codec.parse (cstr text) = some entry → Open entry lastUpdate →
      ¬ keyExpireTime < sub64 now lastUpdate) :
    renew codec now keyExpireTime text = text := by
  have hnone : (codec.parse (cstr text)).bind (closeStale codec now keyExpireTime) = none := by
    refine Option.eq_none_iff_forall_ne_some.mpr fun entry' hentry' ↦ ?_
    obtain ⟨entry, hparse, hclose⟩ := Option.bind_eq_some_iff.mp hentry'
    obtain ⟨lastUpdate, hopen, hstale, -⟩ := (closeStale_eq_some codec now keyExpireTime).mp hclose
    exact h entry lastUpdate hparse hopen hstale
  simp [renew, hnone]

theorem Open.unique {entry : Json} {lastUpdate lastUpdate' : Int} (h : Open entry lastUpdate)
    (h' : Open entry lastUpdate') : lastUpdate = lastUpdate' := by
  obtain ⟨w, hw, hlast⟩ := h.lastUpdate
  obtain ⟨w', hw', hlast'⟩ := h'.lastUpdate
  obtain rfl := Option.some.inj (hw.symm.trans hw')
  exact Option.some.inj (hlast.symm.trans hlast')

theorem Open.int64 {text : Bytes} {entry : Json} {lastUpdate : Int} (hopen : Open entry lastUpdate)
    (hparse : codec.parse text = some entry) : -2 ^ 63 ≤ lastUpdate ∧ lastUpdate < 2 ^ 63 := by
  obtain ⟨w, hw, hlast⟩ := hopen.lastUpdate
  exact codec.int64 _ _ _ _ _ hparse hw hlast

variable {db : Database} {mptKeys usrKeys : List Bytes}

theorem compensated_cleanup (hnow : 0 ≤ now) (hnow' : now < 2 ^ 63)
    (hmpt : Scanned logMptPrefix db mptKeys)
    (husr : Scanned logUsrPrefix (scanAndCompensate codec now keyExpireTime mptKeys db) usrKeys)
    (hrepresentable : ∀ key field text entry lastUpdate, IsHistory key →
      Table.entry db key field = some text → codec.parse (cstr text) = some entry →
      Open entry lastUpdate → Representable now keyExpireTime lastUpdate) :
    Compensated codec now keyExpireTime db
      (cleanupStaleHistory codec now keyExpireTime mptKeys usrKeys db) := by
  have hentry := entry_cleanup codec now keyExpireTime hmpt husr
  refine ⟨fun key field hkey ↦ ?_, fun key field hnone ↦ ?_, ?_, ?_⟩
  · rw [hentry, if_neg hkey]
  · simp [hentry, hnone]
  · intro key field text entry lastUpdate hkey htext hparse hstale
    obtain ⟨hlower, hupper⟩ := hstale.1.int64 hparse
    have hcomp := hrepresentable key field text entry lastUpdate hkey htext hparse hstale.1
    have hlt := (lt_sub64_iff hnow hnow' hlower hupper).mpr ⟨hstale.2, hcomp⟩
    obtain ⟨w, hw, hlast⟩ := hstale.1.lastUpdate
    have hback := codec.read_back _ _ _ _ hparse hw hlast
    simp [hentry, hkey, htext, renew_of_closed hparse hstale.1 hlt, cstr_cstr, hback]
  · intro key field text hkey htext hkept
    have hrenew : renew codec now keyExpireTime text = text := by
      apply renew_of_kept
      intro entry lastUpdate hparse hopen hlt
      obtain ⟨hlower, hupper⟩ := hopen.int64 hparse
      exact hkept entry lastUpdate hparse
        ⟨hopen, ((lt_sub64_iff hnow hnow' hlower hupper).mp hlt).1⟩
    simp [hentry, hkey, htext, hrenew]

theorem representable_of_compensated (hnow : 0 ≤ now) (hnow' : now < 2 ^ 63)
    (hexpire : keyExpireTime < 2 ^ 31) (hmpt : Scanned logMptPrefix db mptKeys)
    (husr : Scanned logUsrPrefix (scanAndCompensate codec now keyExpireTime mptKeys db) usrKeys)
    (h : Compensated codec now keyExpireTime db
      (cleanupStaleHistory codec now keyExpireTime mptKeys usrKeys db))
    {key field text : Bytes} {entry : Json} {lastUpdate : Int} (hkey : IsHistory key)
    (htext : Table.entry db key field = some text) (hparse : codec.parse (cstr text) = some entry)
    (hopen : Open entry lastUpdate) : Representable now keyExpireTime lastUpdate := by
  by_contra hcomp
  obtain ⟨hlower, hupper⟩ := hopen.int64 hparse
  have hlate : 2 ^ 63 ≤ now - lastUpdate := by
    unfold Representable at hcomp
    omega
  have hrenew : renew codec now keyExpireTime text = text := by
    apply renew_of_kept
    intro entry' lastUpdate' hparse' hopen' hlt
    obtain rfl := Option.some.inj (hparse.symm.trans hparse')
    obtain rfl := hopen.unique hopen'
    exact hcomp ((lt_sub64_iff hnow hnow' hlower hupper).mp hlt).2
  have hclosed := h.closed key field text entry lastUpdate hkey htext hparse ⟨hopen, by omega⟩
  -- the record would have to be closed already
  have hsame : entry = setMember "disconnect_time" (codec.integer lastUpdate) entry := by
    simpa [entry_cleanup codec now keyExpireTime hmpt husr, hkey, htext, hrenew,
      hparse] using hclosed
  obtain ⟨v, hv, hzero⟩ := hopen.disconnectTime
  rw [hsame, find_setMember, if_pos rfl, Option.map_eq_some_iff] at hv
  obtain ⟨-, -, rfl⟩ := hv
  rw [codec.getLongLong_integer lastUpdate hlower hupper] at hzero
  obtain rfl := Option.some.inj hzero
  omega

/-- The records that are out of date are closed, all else is kept, and to do it again changes
nothing, exactly where the time since each open session was last seen has 64 bits. -/
theorem cleanup_compensates (hnow : 0 ≤ now) (hnow' : now < 2 ^ 63)
    (hexpire : keyExpireTime < 2 ^ 31) (hmpt : Scanned logMptPrefix db mptKeys)
    (husr : Scanned logUsrPrefix (scanAndCompensate codec now keyExpireTime mptKeys db) usrKeys) :
    (Compensated codec now keyExpireTime db
        (cleanupStaleHistory codec now keyExpireTime mptKeys usrKeys db) ∧
      ∀ mptKeys' usrKeys',
        Scanned logMptPrefix (cleanupStaleHistory codec now keyExpireTime mptKeys usrKeys db)
          mptKeys' →
        Scanned logUsrPrefix (scanAndCompensate codec now keyExpireTime mptKeys'
          (cleanupStaleHistory codec now keyExpireTime mptKeys usrKeys db)) usrKeys' →
        ∀ key field,
          Table.entry (cleanupStaleHistory codec now keyExpireTime mptKeys' usrKeys'
            (cleanupStaleHistory codec now keyExpireTime mptKeys usrKeys db)) key field =
          Table.entry (cleanupStaleHistory codec now keyExpireTime mptKeys usrKeys db) key field) ↔
    ∀ key field text entry lastUpdate, IsHistory key → Table.entry db key field = some text →
      codec.parse (cstr text) = some entry → Open entry lastUpdate →
      Representable now keyExpireTime lastUpdate := by
  constructor
  · rintro ⟨h, -⟩ key field text entry lastUpdate hkey htext hparse hopen
    exact representable_of_compensated hnow hnow' hexpire hmpt husr h hkey htext hparse hopen
  · intro hrepresentable
    refine ⟨compensated_cleanup hnow hnow' hmpt husr hrepresentable, ?_⟩
    intro mptKeys' usrKeys' hmpt' husr' key field
    rw [entry_cleanup codec now keyExpireTime hmpt' husr',
      entry_cleanup codec now keyExpireTime hmpt husr]
    split_ifs
    · rw [Option.map_map, renew_comp_renew]
    · rfl

end

section

def record (disconnectTime lastUpdate : Int) : Json :=
  .object
    [("disconnect_time", .number ⟨disconnectTime.bmod (2 ^ 32), disconnectTime, disconnectTime⟩),
      ("last_update", .number ⟨lastUpdate.bmod (2 ^ 32), lastUpdate, lastUpdate⟩)]

structure Texts where
  lastUpdate : Int
  opened : Bytes
  ended : Bytes
  lower : -2 ^ 63 ≤ lastUpdate
  upper : lastUpdate < 2 ^ 63
  distinct : ended ≠ opened
  noNul : cstr ended = ended

def Texts.parse (texts : Texts) (text : Bytes) : Option Json :=
  if text = texts.opened then some (record 0 texts.lastUpdate)
  else if text = texts.ended then some (record texts.lastUpdate texts.lastUpdate)
  else none

theorem Texts.parse_eq_some {texts : Texts} {text : Bytes} {entry : Json}
    (h : texts.parse text = some entry) :
    ∃ d, (d = 0 ∨ d = texts.lastUpdate) ∧ entry = record d texts.lastUpdate := by
  unfold Texts.parse at h
  split_ifs at h
  · exact ⟨0, .inl rfl, (Option.some.inj h).symm⟩
  · exact ⟨_, .inr rfl, (Option.some.inj h).symm⟩

theorem open_record {d lastUpdate n : Int} (h : Open (record d lastUpdate) n) : n = lastUpdate := by
  obtain ⟨v, hv, hn⟩ := h.lastUpdate
  have heq : some (Json.number ⟨lastUpdate.bmod (2 ^ 32), lastUpdate, lastUpdate⟩) = some v := hv
  obtain rfl := Option.some.inj heq
  exact (Option.some.inj hn).symm

def Texts.codec (texts : Texts) : HistoryCodec where
  parse := texts.parse
  dump _ := texts.ended
  integer n := .number ⟨n.bmod (2 ^ 32), n, n⟩
  getLongLong_integer _ _ _ := rfl
  int64 := by
    intro text entry key v n hparse hfind hn
    have hlower := texts.lower
    have hupper := texts.upper
    obtain ⟨d, hd, rfl⟩ := texts.parse_eq_some hparse
    rw [record, Json.find, List.lookup_cons] at hfind
    split at hfind
    · obtain rfl := Option.some.inj hfind
      obtain rfl : d = n := Option.some.inj hn
      omega
    · rw [List.lookup_cons] at hfind
      split at hfind
      · obtain rfl := Option.some.inj hfind
        obtain rfl : texts.lastUpdate = n := Option.some.inj hn
        omega
      · cases hfind
  read_back := by
    intro text entry v n hparse hfind hn
    obtain ⟨d, -, rfl⟩ := texts.parse_eq_some hparse
    have heq :
        some (Json.number ⟨texts.lastUpdate.bmod (2 ^ 32), texts.lastUpdate, texts.lastUpdate⟩) =
        some v := hfind
    obtain rfl := Option.some.inj heq
    obtain rfl : texts.lastUpdate = n := Option.some.inj hn
    rw [Texts.parse, texts.noNul, if_neg texts.distinct, if_pos rfl]
    simp [record, setMember]

def crashed (texts : Texts) : Database :=
  Table.put ∅ (ascii "LOG:MPT:RTK_01") (ascii "100_c1") texts.opened

theorem mem_crashed {texts : Texts} {key : Bytes} :
    key ∈ crashed texts ↔ key = ascii "LOG:MPT:RTK_01" := by
  unfold crashed Table.put
  rw [AList.mem_insert, or_iff_left (AList.notMem_empty key)]

theorem scanned_crashed (texts : Texts) :
    Scanned logMptPrefix (crashed texts) [ascii "LOG:MPT:RTK_01"] := by
  intro key
  rw [mem_crashed, List.mem_singleton, and_iff_left_of_imp]
  rintro rfl
  decide

theorem scanned_crashed_usr (texts : Texts) (now keyExpireTime : Int) :
    Scanned logUsrPrefix (scanAndCompensate texts.codec now keyExpireTime [ascii "LOG:MPT:RTK_01"]
      (crashed texts)) [] := by
  intro key
  simp only [List.not_mem_nil, false_iff, not_and]
  intro hmem hprefix
  have hkey : key = ascii "LOG:MPT:RTK_01" := by
    simpa [mem_crashed] using mem_scan texts.codec now keyExpireTime hmem
  subst hkey
  exact absurd hprefix (by decide)

def recent : Texts where
  lastUpdate := 160
  opened := ascii "\x7b\"disconnect_time\":0,\"last_update\":160\x7d"
  ended := ascii "\x7b\"disconnect_time\":160,\"last_update\":160\x7d"
  lower := by decide
  upper := by decide
  distinct := by decide
  noNul := by decide

def ancient : Texts where
  lastUpdate := -2 ^ 63
  opened := ascii "\x7b\"disconnect_time\":0,\"last_update\":-9223372036854775808\x7d"
  ended :=
    ascii "\x7b\"disconnect_time\":-9223372036854775808,\"last_update\":-9223372036854775808\x7d"
  lower := by decide
  upper := by decide
  distinct := by decide +kernel
  noNul := by decide +kernel

theorem cleanup_compensates_recent :
    Compensated recent.codec 200 30 (crashed recent)
      (cleanupStaleHistory recent.codec 200 30 [ascii "LOG:MPT:RTK_01"] [] (crashed recent)) :=
  ((cleanup_compensates (by decide) (by decide) (by decide) (scanned_crashed recent)
    (scanned_crashed_usr recent 200 30)).mpr fun _ _ _ _ lastUpdate _ _ hparse hopen ↦ by
      obtain ⟨d, -, rfl⟩ := recent.parse_eq_some hparse
      obtain rfl := open_record hopen
      exact .inl (by decide)).1

/-- A record from the least time of 64 bits is open, but the difference to it has 65. -/
theorem not_cleanup_compensates :
    Scanned logMptPrefix (crashed ancient) [ascii "LOG:MPT:RTK_01"] ∧
    Scanned logUsrPrefix (scanAndCompensate ancient.codec 1790000000 30 [ascii "LOG:MPT:RTK_01"]
      (crashed ancient)) [] ∧
    Stale 1790000000 30 (record 0 (-2 ^ 63)) (-2 ^ 63) ∧
    Table.entry (cleanupStaleHistory ancient.codec 1790000000 30 [ascii "LOG:MPT:RTK_01"] []
      (crashed ancient)) (ascii "LOG:MPT:RTK_01") (ascii "100_c1") = some ancient.opened ∧
    ¬ Compensated ancient.codec 1790000000 30 (crashed ancient)
      (cleanupStaleHistory ancient.codec 1790000000 30 [ascii "LOG:MPT:RTK_01"] []
        (crashed ancient)) := by
  have hstale : Stale 1790000000 30 (record 0 (-2 ^ 63)) (-2 ^ 63) :=
    ⟨⟨⟨_, rfl, rfl⟩, _, rfl, rfl⟩, by decide⟩
  have hsame :
      Table.entry (cleanupStaleHistory ancient.codec 1790000000 30 [ascii "LOG:MPT:RTK_01"] []
      (crashed ancient)) (ascii "LOG:MPT:RTK_01") (ascii "100_c1") = some ancient.opened := by
    decide +kernel
  have hnoNul : cstr ancient.opened = ancient.opened := by decide +kernel
  have hparse : ancient.codec.parse ancient.opened = some (record 0 (-2 ^ 63)) := by
    simp [Texts.codec, Texts.parse, ancient]
  refine ⟨scanned_crashed ancient, scanned_crashed_usr ancient 1790000000 30, hstale, hsame,
    fun h ↦ ?_⟩
  have hclosed := h.closed (ascii "LOG:MPT:RTK_01") (ascii "100_c1") ancient.opened
    (record 0 (-2 ^ 63)) (-2 ^ 63) (by decide) (by decide +kernel) (hnoNul ▸ hparse) hstale
  rw [hsame, Option.map_some, Option.bind_some, hnoNul, hparse, Option.some_inj] at hclosed
  have htime := congrArg (fun entry ↦ (entry.find "disconnect_time").bind Json.getLongLong) hclosed
  exact absurd htime (by decide)

end

end NavCaster.Core.Compensation
