import NavCaster.Core.Access
import NavCaster.Core.Message
import NavCaster.Library.Double

namespace NavCaster.Core.Connections

open NavCaster.Library
open NavCaster.Library.Double (ofInt)
open NavCaster.Core.Message
open NavCaster.Core.Access

/-- A connection is registered as a base, under its channel, or as a rover, under its user. -/
inductive Role
  | base | rover
  deriving DecidableEq

inductive RegisterType
  | unknown | server | client | nearest | alias | pull | push
  deriving DecidableEq

/-- `caster_cb_item`. The callback and its argument are one value, which is whatever the connection
has to be called back with. -/
structure CbItem (A : Type) where
  connectKey : String
  channel : String
  userName : String
  groupUid : String
  arg : A
  deriving DecidableEq

structure Call (A : Type) where
  arg : A
  reply : CasterReply
  str : String
  deriving DecidableEq

/-- The parts of `server_status` and `client_status` that are set when a connection registers. -/
structure ConnStatus where
  channel : String
  type : RegisterType
  userName : String
  deriving DecidableEq

structure StreamTotals where
  sendTotal : Float := 0
  recvTotal : Float := 0

structure Options where
  enableMult : Role → Bool := fun r ↦ r = .rover
  keepEarly : Role → Bool := fun _ ↦ false
  uploadStat : Role → Bool := fun _ ↦ true

namespace Role

def operateType : Role → BroadcastType
  | base => .serverOperate
  | rover => .clientOperate

def row {A : Type} (r : Role) (item : CbItem A) : String :=
  match r with
  | base => item.channel
  | rover => item.userName

def kickReason : Role → String
  | base => "New same name Base Login, kick out this Connect!"
  | rover => "New same name Rover Login, kick out this Connect!"

end Role

inductive Command (A : Type)
  | hsetexState (r : Role) (connectKey : String) (s : ConnStatus)
  | hsetexStream (connectKey : String)
  | hsetexRecord (r : Role) (row connectKey : String)
  | hgetallRecord (r : Role) (ctx : CbItem A)
  | hexpireRecord (r : Role) (row connectKey : String)
  | hdelRecord (r : Role) (row connectKey : String)
  | hdelState (r : Role) (connectKey : String)
  | publish (msg : BroadcastMsg String)

structure Registry (A : Type) where
  registerMap : Role → Table String (Table String (CbItem A)) := fun _ ↦ ∅
  statusMap : Role → Table String ConnStatus := fun _ ↦ ∅
  streamStatusMap : Table String StreamTotals := ∅
  kickMap : Table String (CbItem A) := ∅

structure Outcome (A : Type) where
  code : Nat
  registry : Registry A
  commands : List (Command A) := []
  calls : List (Call A) := []

variable {A : Type}

namespace Registry

def setRegisterMap (reg : Registry A) (r : Role) (m : Table String (Table String (CbItem A))) :
    Registry A :=
  { reg with registerMap := Function.update reg.registerMap r m }

def setStatusMap (reg : Registry A) (r : Role) (m : Table String ConnStatus) : Registry A :=
  { reg with statusMap := Function.update reg.statusMap r m }

def entry (reg : Registry A) (r : Role) (row connectKey : String) : Option (CbItem A) :=
  Table.entry (reg.registerMap r) row connectKey

end Registry

/-- Only a rover that asks for a nearest mount point is checked by its login. -/
def checkLogin (r : Role) (p : AccessPolicy) (type : RegisterType) (groupUid channel : String) :
    Option String :=
  match r, type with
  | .rover, .nearest => p.checkNearestMountLogin (normalizeAccessGroupUid groupUid) channel
  | _, _ => p.checkMountAccess (normalizeAccessGroupUid groupUid) channel

def connStatus (type : RegisterType) (item : CbItem A) : ConnStatus :=
  { channel := item.channel, type, userName := item.userName }

/-- The row of the connection and its statuses, which are made before the key is looked up. -/
def openRecord (r : Role) (type : RegisterType) (item : CbItem A) (reg : Registry A) : Registry A :=
  let reg := reg.setRegisterMap r (Table.openRow (reg.registerMap r) (r.row item))
  let reg := reg.setStatusMap r
    (Table.insertNew (reg.statusMap r) item.connectKey (connStatus type item))
  { reg with streamStatusMap := Table.insertNew reg.streamStatusMap item.connectKey {} }

/-- Only the rovers are entered in the kick map. -/
def enterKick (r : Role) (item : CbItem A) (m : Table String (CbItem A)) :
    Table String (CbItem A) :=
  match r with
  | .base => m
  | .rover => m.insert item.connectKey item

def enterRecord (r : Role) (item : CbItem A) (reg : Registry A) : Registry A :=
  let reg := reg.setRegisterMap r
    (Table.put (reg.registerMap r) (r.row item) item.connectKey item)
  { reg with kickMap := enterKick r item reg.kickMap }

/-- The part of the registration that follows the access check. -/
def insertRecord (r : Role) (type : RegisterType) (item : CbItem A) (reg : Registry A) :
    Outcome A :=
  let key := item.connectKey
  let reg := openRecord r type item reg
  let sent : List (Command A) := [.hsetexState r key (connStatus type item), .hsetexStream key]
  match reg.entry r (r.row item) key with
  | some _ => { code := 1, registry := reg, commands := sent }
  | none =>
    let item := { item with groupUid := normalizeAccessGroupUid item.groupUid }
    { code := 0
      registry := enterRecord r item reg
      commands := sent ++ [.hsetexRecord r (r.row item) key, .hgetallRecord r item] }

def registerChannel (r : Role) (p : AccessPolicy) (type : RegisterType) (item : CbItem A)
    (reg : Registry A) : Outcome A :=
  match checkLogin r p type item.groupUid item.channel with
  | some reason => { code := 1, registry := reg, calls := [⟨item.arg, .err, reason⟩] }
  | none => insertRecord r type item reg

def registerBaseChannel : AccessPolicy → RegisterType → CbItem A → Registry A → Outcome A :=
  registerChannel .base

def registerRoverChannel : AccessPolicy → RegisterType → CbItem A → Registry A → Outcome A :=
  registerChannel .rover

def withdrawChannel (opts : Options) (r : Role) (row key : String) (reg : Registry A) : Outcome A :=
  match (reg.registerMap r).lookup row with
  | none => { code := 1, registry := reg }
  | some _ =>
    match reg.entry r row key with
    | none => { code := 2, registry := reg }
    | some _ =>
      let reg := reg.setRegisterMap r (Table.drop (reg.registerMap r) row key)
      let reg := { reg with kickMap := reg.kickMap.erase key }
      let sent : List (Command A) := [.hdelRecord r row key]
      match (reg.statusMap r).lookup key with
      | none => { code := 3, registry := reg, commands := sent }
      | some _ =>
        let reg := reg.setStatusMap r ((reg.statusMap r).erase key)
        { code := 0
          registry := { reg with streamStatusMap := reg.streamStatusMap.erase key }
          commands := sent ++ if opts.uploadStat r then [.hdelState r key] else [] }

def withdrawBaseChannel (opts : Options) (channel key : String) : Registry A → Outcome A :=
  withdrawChannel opts .base channel key

def withdrawRoverChannel (opts : Options) (userName key : String) : Registry A → Outcome A :=
  withdrawChannel opts .rover userName key

def statusMsg (r : Role) (channel key : String) (status : CasterReply) (reason : String) :
    BroadcastMsg String where
  type := r.operateType
  operate := replyToOperate status
  target := key
  msgStr := channel
  reasonStr := reason

def sendStatusChannel (r : Role) (channel key : String) (status : CasterReply) (reason : String) :
    Command A := .publish (statusMsg r channel key status reason)

def sendStatusBaseChannel : String → String → CasterReply → String → Command A :=
  sendStatusChannel .base

def sendStatusRoverChannel : String → String → CasterReply → String → Command A :=
  sendStatusChannel .rover

/-- The connections to evict with the reason, or none when the login stands. -/
def evicted (opts : Options) (r : Role) (item : CbItem A) (records : List String) :
    List String × String × Bool :=
  if item.connectKey ∉ records then ([item.connectKey], "Can't Find Recored", false)
  else if records.length ≠ 1 ∧ opts.enableMult r = false then
    if opts.keepEarly r then
      ([item.connectKey], "Base already online ,don't allow base duplicate logins", false)
    else (records.filter (· ≠ item.connectKey), r.kickReason, true)
  else ([], "", true)

/-- The reply to the registration: evictions are broadcast, and a login that stands is confirmed. -/
def redisRegisterCallback (opts : Options) (r : Role) (item : CbItem A) (records : List String) :
    List (Command A) × List (Call A) :=
  let (keys, reason, stands) := evicted opts r item records
  (keys.map fun key ↦ sendStatusChannel r item.channel key .err reason,
    if stands then [⟨item.arg, .ok, ""⟩] else [])

def redisRegisterBaseCallback (opts : Options) :
    CbItem A → List String → List (Command A) × List (Call A) := redisRegisterCallback opts .base

def redisRegisterRoverCallback (opts : Options) :
    CbItem A → List String → List (Command A) × List (Call A) := redisRegisterCallback opts .rover

/-- The map in which a status change looks for its channel: the other way round than the type of
the broadcast is set by `send_status_base_channel` and `send_status_rover_channel`. -/
def broadcastMap : BroadcastType → Option Role
  | .clientOperate => some .base
  | .serverOperate => some .rover
  | _ => none

def broadcastResponse (msg : BroadcastMsg String) (reg : Registry A) : Nat × List (Call A) :=
  match broadcastMap msg.type with
  | none => (1, [])
  | some r =>
    if msg.operate = .delete ∧ msg.target ≠ "" then
      let reason := if msg.reasonStr = "" then "Force offline by administrator" else msg.reasonStr
      (0, (reg.kickMap.lookup msg.target).toList.map fun item ↦ ⟨item.arg, .err, reason⟩)
    else
      let call (item : CbItem A) : Call A := ⟨item.arg, operateToReply msg.operate, msg.reasonStr⟩
      match (reg.registerMap r).lookup msg.msgStr with
      | none => (2, [])
      | some row =>
        if msg.target = "" then (0, (Table.toPairs row).map fun e ↦ call e.2)
        else match row.lookup msg.target with
          | none => (3, [])
          | some item => (0, [call item])

def modifyStream (connectKey : String) (f : StreamTotals → StreamTotals) (reg : Registry A) :
    Registry A :=
  match reg.streamStatusMap.lookup connectKey with
  | none => reg
  | some totals => { reg with streamStatusMap := reg.streamStatusMap.insert connectKey (f totals) }

def addSend (connectKey : String) (size : ℤ) : Registry A → Registry A :=
  modifyStream connectKey fun totals ↦ { totals with sendTotal := totals.sendTotal + ofInt size }

def addRecv (connectKey : String) (size : ℤ) : Registry A → Registry A :=
  modifyStream connectKey fun totals ↦ { totals with recvTotal := totals.recvTotal + ofInt size }

def clearOverdueItem (reg : Registry A) : Registry A :=
  { reg with registerMap := fun r ↦ Table.dropEmpty (reg.registerMap r) }

def recordRenewals (r : Role) (reg : Registry A) : List (Command A) :=
  (Table.toPairs (reg.registerMap r)).flatMap fun row ↦
    (Table.toPairs row.2).map fun e ↦ .hexpireRecord r (r.row e.2) e.2.connectKey

def stateRenewals (r : Role) (reg : Registry A) : List (Command A) :=
  (Table.toPairs (reg.statusMap r)).map fun e ↦ .hsetexState r e.1 e.2

def uploadRecordItem (reg : Registry A) : List (Command A) :=
  ((Table.toPairs reg.streamStatusMap).map fun e ↦ .hsetexStream e.1) ++
    stateRenewals .base reg ++ stateRenewals .rover reg ++
      recordRenewals .base reg ++ recordRenewals .rover reg

namespace Registry

variable {reg reg' : Registry A}

theorem entry_setRegisterMap (reg : Registry A) (r r' : Role)
    (m : Table String (Table String (CbItem A))) (row key : String) :
    (reg.setRegisterMap r m).entry r' row key =
      if r' = r then Table.entry m row key else reg.entry r' row key := by
  simp only [entry, setRegisterMap, Function.update_apply]
  split <;> rfl

structure Same (reg reg' : Registry A) : Prop where
  entry : ∀ r row key, reg'.entry r row key = reg.entry r row key
  kickMap : reg'.kickMap = reg.kickMap

theorem Same.refl (reg : Registry A) : Same reg reg := ⟨fun _ _ _ ↦ rfl, rfl⟩

structure Entered (r : Role) (item : CbItem A) (reg reg' : Registry A) : Prop where
  fresh : reg.entry r (r.row item) item.connectKey = none
  entry : ∀ r' row key, reg'.entry r' row key =
    if r' = r ∧ row = r.row item ∧ key = item.connectKey then some item else reg.entry r' row key
  kickMap : reg'.kickMap = enterKick r item reg.kickMap

structure Withdrawn (r : Role) (row key : String) (reg reg' : Registry A) : Prop where
  present : reg.entry r row key ≠ none
  entry : ∀ r' row' key', reg'.entry r' row' key' =
    if r' = r ∧ row' = row ∧ key' = key then none else reg.entry r' row' key'
  kickMap : reg'.kickMap = reg.kickMap.erase key

end Registry

open Registry

theorem same_openRecord (r : Role) (type : RegisterType) (item : CbItem A) (reg : Registry A) :
    Same reg (openRecord r type item reg) := by
  refine ⟨fun r' row key ↦ ?_, rfl⟩
  change ((reg.setRegisterMap r _).entry r' row key) = _
  rw [entry_setRegisterMap]
  split
  · next h => subst h; exact Table.entry_openRow _ _ _ _
  · rfl

theorem entered_enterRecord {r : Role} {item : CbItem A} {reg : Registry A}
    (h : reg.entry r (r.row item) item.connectKey = none) :
    Entered r item reg (enterRecord r item reg) := by
  refine ⟨h, fun r' row key ↦ ?_, rfl⟩
  change (reg.setRegisterMap r _).entry r' row key = _
  rw [entry_setRegisterMap]
  by_cases hr : r' = r
  · subst hr
    rw [if_pos rfl, Table.entry_put]
    simp only [true_and]
    rfl
  · simp only [hr, false_and, if_false]

theorem Registry.Same.entered {r : Role} {item : CbItem A} {reg₀ reg reg' : Registry A}
    (h : Same reg₀ reg) (h' : Entered r item reg reg') : Entered r item reg₀ reg' := by
  refine ⟨(h.entry _ _ _).symm.trans h'.fresh, fun r' row key ↦ ?_, ?_⟩
  · rw [h'.entry, h.entry]
  · rw [h'.kickMap, h.kickMap]

theorem registerChannel_cases (r : Role) (p : AccessPolicy) (type : RegisterType) (item : CbItem A)
    (reg : Registry A) :
    Same reg (registerChannel r p type item reg).registry ∨
      Entered r { item with groupUid := normalizeAccessGroupUid item.groupUid } reg
        (registerChannel r p type item reg).registry := by
  unfold registerChannel
  split
  · exact .inl (.refl reg)
  · have hsame := same_openRecord r type item reg
    unfold insertRecord
    dsimp only
    split
    · exact .inl hsame
    · next hnone =>
      refine .inr (hsame.entered (entered_enterRecord hnone))

theorem withdrawChannel_absent (opts : Options) {r : Role} {row key : String} {reg : Registry A}
    (h : reg.entry r row key = none) : (withdrawChannel opts r row key reg).registry = reg := by
  unfold withdrawChannel
  split
  · rfl
  · rw [h]

theorem withdrawn_withdrawChannel (opts : Options) {r : Role} {row key : String} {reg : Registry A}
    (h : reg.entry r row key ≠ none) :
    Withdrawn r row key reg (withdrawChannel opts r row key reg).registry := by
  have hentry (r' : Role) (row' key' : String) :
      (reg.setRegisterMap r (Table.drop (reg.registerMap r) row key)).entry r' row' key' =
        if r' = r ∧ row' = row ∧ key' = key then none else reg.entry r' row' key' := by
    rw [entry_setRegisterMap]
    by_cases hr : r' = r
    · subst hr
      rw [if_pos rfl, Table.entry_drop]
      simp only [true_and]
      rfl
    · simp only [hr, false_and, if_false]
  obtain ⟨item, hitem⟩ := Option.ne_none_iff_exists'.mp h
  obtain ⟨rowMap, hrow, -⟩ := Option.bind_eq_some_iff.mp hitem
  unfold withdrawChannel
  rw [hrow]
  dsimp only
  rw [hitem]
  dsimp only
  split
  · exact ⟨h, hentry, rfl⟩
  · exact ⟨h, hentry, rfl⟩

theorem withdrawChannel_cases (opts : Options) (r : Role) (row key : String) (reg : Registry A) :
    Same reg (withdrawChannel opts r row key reg).registry ∨
      Withdrawn r row key reg (withdrawChannel opts r row key reg).registry := by
  by_cases h : reg.entry r row key = none
  · rw [withdrawChannel_absent opts h]
    exact .inl (.refl reg)
  · exact .inr (withdrawn_withdrawChannel opts h)

theorem entry_withdrawChannel (opts : Options) (r r' : Role) (row row' key key' : String)
    (reg : Registry A) : (withdrawChannel opts r row key reg).registry.entry r' row' key' =
      if r' = r ∧ row' = row ∧ key' = key then none else reg.entry r' row' key' := by
  by_cases h : reg.entry r row key = none
  · rw [withdrawChannel_absent opts h]
    split
    · next hp =>
      obtain ⟨rfl, rfl, rfl⟩ := hp
      exact h
    · rfl
  · exact (withdrawn_withdrawChannel opts h).entry r' row' key'

theorem same_clearOverdueItem (reg : Registry A) : Same reg (clearOverdueItem reg) :=
  ⟨fun r row key ↦ Table.entry_dropEmpty (reg.registerMap r) row key, rfl⟩

end NavCaster.Core.Connections
