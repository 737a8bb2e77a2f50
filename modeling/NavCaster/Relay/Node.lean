import NavCaster.Library.Table
import NavCaster.Relay.Record
import Mathlib.Logic.Function.Basic

namespace NavCaster.Relay.Node

open NavCaster.Library
open NavCaster.Core.Message
open NavCaster.Relay.Record

inductive OperateType
  | create | destroy | update
  deriving DecidableEq

structure ConnectInfo where
  type : RelayKind
  operate : OperateType
  connectKey : String
  mountPoint : String
  mountPara : String
  addr : String
  port : Int
  ntripAuth : String
  httpHost : String
  deriving DecidableEq

/-- What one node holds for the pull relays, or for the push relays. -/
structure RelayTables where
  recordMap : Table String RelayRecord := ∅
  statusMap : Table String RelayStatus := ∅
  recordDistributed : Table String RecordText := ∅
  connectionCount : Nat := 0
  objMap : Table String ConnectInfo := ∅

inductive Command
  | setMasterNx (nodeId : String)
  | getMaster
  | setMasterIfEq (nodeId : String)
  | hgetallRecord (k : RelayKind)
  | hgetallStat (k : RelayKind)
  | hgetallNode
  | publishNode (nodeId : String) (msg : RelayMsg)
  | hsetexStat (k : RelayKind) (uid : String) (s : RelayStatus)
  | hdelStat (k : RelayKind) (uid : String)
  deriving DecidableEq

inductive Reply
  | setMaster (r : Option String)
  | keepMaster (renewed : Bool)
  | syncList (k : RelayKind) (entries : List (String × RecordText))
  | syncStat (k : RelayKind) (entries : List (String × StatusText))
  | syncClusterNode
  deriving DecidableEq

/-- The relay side of one process: `caster_internal` with its connections to the store, and the
relay objects of `ntrip_caster`. Commands are executed, and replies delivered, in the order in
which they were sent. -/
structure RelayNode where
  live : Bool := false
  isMaster : Bool := false
  currentMasterId : String := ""
  tables : RelayKind → RelayTables := fun _ ↦ {}
  pubQueue : List Command := []
  replies : List Reply := []
  inbox : List RelayMsg := []

namespace RelayNode

def send (n : RelayNode) (cs : List Command) : RelayNode := { n with pubQueue := n.pubQueue ++ cs }

def setTables (n : RelayNode) (k : RelayKind) (t : RelayTables) : RelayNode :=
  { n with tables := Function.update n.tables k t }

section

variable (n : RelayNode) (k k' : RelayKind) (t : RelayTables) (cs : List Command)

@[simp] theorem send_live : (n.send cs).live = n.live := rfl
@[simp] theorem send_isMaster : (n.send cs).isMaster = n.isMaster := rfl
@[simp] theorem send_tables : (n.send cs).tables = n.tables := rfl
@[simp] theorem send_pubQueue : (n.send cs).pubQueue = n.pubQueue ++ cs := rfl
@[simp] theorem send_replies : (n.send cs).replies = n.replies := rfl
@[simp] theorem send_inbox : (n.send cs).inbox = n.inbox := rfl
@[simp] theorem setTables_live : (n.setTables k t).live = n.live := rfl
@[simp] theorem setTables_isMaster : (n.setTables k t).isMaster = n.isMaster := rfl
@[simp] theorem setTables_pubQueue : (n.setTables k t).pubQueue = n.pubQueue := rfl
@[simp] theorem setTables_replies : (n.setTables k t).replies = n.replies := rfl
@[simp] theorem setTables_inbox : (n.setTables k t).inbox = n.inbox := rfl
@[simp] theorem setTables_same : (n.setTables k t).tables k = t := Function.update_self ..

theorem setTables_tables :
    (n.setTables k t).tables k' = if k' = k then t else n.tables k' := by
  simp only [setTables, Function.update_apply]

end

end RelayNode

/-- `Carrier<T>`: an existing object under the key is stopped and replaced. -/
def createObject (m : Table String ConnectInfo) (req : ConnectInfo) : Table String ConnectInfo :=
  (m.erase req.connectKey).insert req.connectKey req

def destroyObject (m : Table String ConnectInfo) (req : ConnectInfo) : Table String ConnectInfo :=
  m.erase req.connectKey

def operateObject (m : Table String ConnectInfo) (req : ConnectInfo) : Table String ConnectInfo :=
  match req.operate with
  | .create => createObject m req
  | .destroy => destroyObject m req
  | .update => m

def connectInfo (k : RelayKind) (op : OperateType) (record : RelayProto) : ConnectInfo where
  type := k
  operate := op
  connectKey := record.uid
  mountPoint := record.target.loginMpt
  mountPara := record.target.targetMpt
  addr := record.target.targetIp
  port := record.target.targetPort
  ntripAuth :=
    if record.target.targetAccount = "" then ""
    else record.target.targetAccount ++ ":" ++ record.target.targetPassword
  httpHost := record.target.targetIp ++ ":" ++ toString record.target.targetPort

def relayOperate : BroadcastOperateType → Option OperateType
  | .active => some .create
  | .inactive => some .destroy
  | .update => some .update
  | _ => none

def processRelayOf (k : RelayKind) (msg : RelayMsg) (m : Table String ConnectInfo) :
    Nat × Table String ConnectInfo :=
  match msg.msgStr.toProto, relayOperate msg.operate with
  | some record, some op => (0, operateObject m (connectInfo k op record))
  | _, _ => (1, m)

theorem mem_createObject {m : Table String ConnectInfo} {req : ConnectInfo} {u : String} :
    u ∈ createObject m req ↔ u = req.connectKey ∨ u ∈ m := by
  rw [createObject, AList.mem_insert, AList.mem_erase]
  by_cases h : u = req.connectKey <;> simp [h]

theorem processRelayOf_active {k : RelayKind} {msg : RelayMsg} (h : msg.operate = .active)
    (m : Table String ConnectInfo) : (processRelayOf k msg m).2 =
      match msg.msgStr.toProto with
      | none => m
      | some record => createObject m (connectInfo k .create record) := by
  unfold processRelayOf
  rw [h]
  cases msg.msgStr.toProto <;> rfl

theorem processRelayOf_inactive {k : RelayKind} {msg : RelayMsg} (h : msg.operate = .inactive)
    (m : Table String ConnectInfo) : (processRelayOf k msg m).2 =
      match msg.msgStr.toProto with
      | none => m
      | some record => m.erase record.uid := by
  unfold processRelayOf
  rw [h]
  cases msg.msgStr.toProto <;> rfl

theorem processRelayOf_update {k : RelayKind} {msg : RelayMsg} (h : msg.operate = .update)
    (m : Table String ConnectInfo) : (processRelayOf k msg m).2 = m := by
  unfold processRelayOf
  rw [h]
  cases msg.msgStr.toProto <;> rfl

def relayKindOf : BroadcastType → Option RelayKind
  | .pullOperate => some .pull
  | .rushOperate => some .push
  | _ => none

@[simp] theorem relayKindOf_broadcastType (k : RelayKind) :
    relayKindOf k.broadcastType = some k := by cases k <;> rfl

def processRelay (msg : RelayMsg) (n : RelayNode) : Nat × RelayNode :=
  match relayKindOf msg.type with
  | none => (1, n)
  | some k =>
    let (code, m) := processRelayOf k msg (n.tables k).objMap
    (code, n.setTables k { n.tables k with objMap := m })

def statusUploads (k : RelayKind) (t : RelayTables) : List Command :=
  (Table.toPairs t.statusMap).map fun e ↦ .hsetexStat k e.1 e.2

def uploadRelayStatus (n : RelayNode) : RelayNode :=
  n.send (statusUploads .pull (n.tables .pull) ++ statusUploads .push (n.tables .push))

def trySetMasterNode (self : String) (n : RelayNode) : RelayNode :=
  n.send [.setMasterNx self, .getMaster]

def downloadActiveItem (n : RelayNode) : RelayNode :=
  n.send [.hgetallStat .pull, .hgetallStat .push]

def timeoutCallback (self : String) (n : RelayNode) : RelayNode :=
  downloadActiveItem (trySetMasterNode self (uploadRelayStatus n))

theorem timeoutCallback_pubQueue (self : String) (n : RelayNode) :
    (timeoutCallback self n).pubQueue = n.pubQueue ++
      (statusUploads .pull (n.tables .pull) ++ statusUploads .push (n.tables .push) ++
        [.setMasterNx self, .getMaster, .hgetallStat .pull, .hgetallStat .push]) := by
  simp [timeoutCallback, downloadActiveItem, trySetMasterNode, uploadRelayStatus]

def syncClusterState (n : RelayNode) : RelayNode :=
  n.send [.hgetallRecord .pull, .hgetallRecord .push, .hgetallStat .pull, .hgetallStat .push,
    .hgetallNode]

def taskMsg (k : RelayKind) (operate : BroadcastOperateType) (target : String) (msgStr : RelayText)
    (reasonStr : String) : RelayMsg :=
  { type := k.broadcastType, operate, target, msgStr, reasonStr }

abbrev Distribution := Table String RecordText × List RelayMsg

/-- The first loop: start what is enabled and has no status, and restart what was distributed
with another text. -/
def distributeRecord (k : RelayKind) (statusMap : Table String RelayStatus) (d : Distribution)
    (e : String × RelayRecord) : Distribution :=
  match statusMap.lookup e.1, e.2.isEnabled with
  | none, true =>
    (d.1.insert e.1 e.2.toString,
      d.2 ++ [taskMsg k .active e.1 (.record e.2.toString) k.activeReason])
  | some s, true =>
    if d.1.lookup e.1 = some e.2.toString then d
    else (d.1.erase e.1, d.2 ++ [taskMsg k .inactive e.1 (.status s) k.changedReason])
  | _, false => d

/-- The second loop: stop what has a status and no enabled record. -/
def distributeStatus (k : RelayKind) (recordMap : Table String RelayRecord) (d : Distribution)
    (e : String × RelayStatus) : Distribution :=
  if (recordMap.lookup e.1).any RelayRecord.isEnabled then d
  else (d.1.erase e.1, d.2 ++ [taskMsg k .inactive e.1 (.status e.2) k.inactiveReason])

def distribute (k : RelayKind) (t : RelayTables) : Distribution :=
  (Table.toPairs t.statusMap).foldl (distributeStatus k t.recordMap)
    ((Table.toPairs t.recordMap).foldl (distributeRecord k t.statusMap) (t.recordDistributed, []))

/-- Every message goes to the channel of the node itself. -/
def relayTaskDistribution (k : RelayKind) (self : String) (n : RelayNode) : RelayNode :=
  let (d, msgs) := distribute k (n.tables k)
  (n.setTables k { n.tables k with recordDistributed := d }).send (msgs.map (.publishNode self))

def relayPullTaskDistribution : String → RelayNode → RelayNode := relayTaskDistribution .pull
def relayPushTaskDistribution : String → RelayNode → RelayNode := relayTaskDistribution .push

def relayTaskResponseOf (k : RelayKind) (self : String) (req : RelayMsg) (n : RelayNode) :
    Nat × RelayNode :=
  let uid := req.target
  let t := n.tables k
  match req.operate with
  | .active =>
    if uid ∈ t.statusMap then (2, n)
    else
      let stat := (({ uid } : RelayStatus).setNodeInfo self self).updateState "" 0
      (0, (processRelay req (n.setTables k { t with statusMap := t.statusMap.insert uid stat })).2)
  | .inactive =>
    if uid ∈ t.statusMap then
      let n' := (processRelay req n).2
      let t' := n'.tables k
      (0, (n'.setTables k { t' with statusMap := t'.statusMap.erase uid }).send [.hdelStat k uid])
    else (3, n)
  | .update => if uid ∈ t.statusMap then (0, (processRelay req n).2) else (3, n)
  | _ => (0, n)

def relayTaskResponse (self : String) (req : RelayMsg) (n : RelayNode) : Nat × RelayNode :=
  match relayKindOf req.type with
  | some k => relayTaskResponseOf k self req n
  | none => (0, n)

def startedTables (k : RelayKind) (self : String) (req : RelayMsg) (t : RelayTables) :
    RelayTables :=
  { t with
    statusMap := t.statusMap.insert req.target
      ((({ uid := req.target } : RelayStatus).setNodeInfo self self).updateState "" 0)
    objMap := (processRelayOf k req t.objMap).2 }

def stoppedTables (k : RelayKind) (req : RelayMsg) (t : RelayTables) : RelayTables :=
  { t with
    statusMap := t.statusMap.erase req.target
    objMap := (processRelayOf k req t.objMap).2 }

inductive ResponseCase (self : String) (req : RelayMsg) (n : RelayNode) : RelayNode → Prop
  | ignored : ResponseCase self req n n
  | started (k : RelayKind) : relayKindOf req.type = some k → req.operate = .active →
      req.target ∉ (n.tables k).statusMap →
      ResponseCase self req n (n.setTables k (startedTables k self req (n.tables k)))
  | stopped (k : RelayKind) : relayKindOf req.type = some k → req.operate = .inactive →
      req.target ∈ (n.tables k).statusMap →
      ResponseCase self req n
        ((n.setTables k (stoppedTables k req (n.tables k))).send [.hdelStat k req.target])

theorem processRelay_of_kind {k : RelayKind} {req : RelayMsg} (h : relayKindOf req.type = some k)
    (n : RelayNode) : (processRelay req n).2 =
      n.setTables k { n.tables k with objMap := (processRelayOf k req (n.tables k).objMap).2 } := by
  simp only [processRelay, h]

theorem setTables_setTables (n : RelayNode) (k : RelayKind) (t t' : RelayTables) :
    (n.setTables k t).setTables k t' = n.setTables k t' := by
  simp only [RelayNode.setTables, Function.update_idem]

theorem setTables_self (n : RelayNode) (k : RelayKind) : n.setTables k (n.tables k) = n := by
  simp only [RelayNode.setTables, Function.update_eq_self]

theorem relayTaskResponse_of_kind {k : RelayKind} {req : RelayMsg}
    (hk : relayKindOf req.type = some k) (self : String) (n : RelayNode) :
    (relayTaskResponse self req n).2 =
      match req.operate, (n.tables k).statusMap.lookup req.target with
      | .active, none => n.setTables k (startedTables k self req (n.tables k))
      | .inactive, some _ =>
        (n.setTables k (stoppedTables k req (n.tables k))).send [.hdelStat k req.target]
      | _, _ => n := by
  simp only [relayTaskResponse, hk, relayTaskResponseOf]
  cases hs : (n.tables k).statusMap.lookup req.target with
  | none =>
    have hu : req.target ∉ (n.tables k).statusMap := AList.lookup_eq_none.mp hs
    cases ho : req.operate with
    | active =>
      simp only [if_neg hu, processRelay_of_kind hk, setTables_setTables, RelayNode.setTables_same]
      rfl
    | _ => simp only [if_neg hu]
  | some s =>
    have hu : req.target ∈ (n.tables k).statusMap := Table.mem_of_lookup hs
    cases ho : req.operate with
    | inactive =>
      simp only [if_pos hu, processRelay_of_kind hk, setTables_setTables, RelayNode.setTables_same]
      rfl
    | update =>
      simp only [if_pos hu, processRelay_of_kind hk, processRelayOf_update ho]
      exact setTables_self n k
    | _ => simp only [if_pos hu]

theorem response_cases (self : String) (req : RelayMsg) (n : RelayNode) :
    ResponseCase self req n (relayTaskResponse self req n).2 := by
  cases hk : relayKindOf req.type with
  | none =>
    simp only [relayTaskResponse, hk]
    exact .ignored
  | some k =>
    rw [relayTaskResponse_of_kind hk]
    split
    · next ho hs => exact .started k hk ho (AList.lookup_eq_none.mp hs)
    · next ho hs => exact .stopped k hk ho (Table.mem_of_lookup hs)
    · exact .ignored

theorem ResponseCase.frame {self : String} {req : RelayMsg} {n x : RelayNode}
    (h : ResponseCase self req n x) : x.live = n.live ∧ x.isMaster = n.isMaster ∧
      x.replies = n.replies ∧ x.inbox = n.inbox := by
  cases h <;> exact ⟨rfl, rfl, rfl, rfl⟩

theorem ResponseCase.pubQueue {self : String} {req : RelayMsg} {n x : RelayNode}
    (h : ResponseCase self req n x) :
    x.pubQueue = n.pubQueue ∨ ∃ k, x.pubQueue = n.pubQueue ++ [.hdelStat k req.target] := by
  cases h with
  | ignored => exact .inl rfl
  | started k => exact .inl rfl
  | stopped k => exact .inr ⟨k, rfl⟩

def updateRelayInfo (k : RelayKind) (taskKey connectKey : String) (state : Int) (n : RelayNode) :
    RelayNode :=
  let t := n.tables k
  match t.statusMap.lookup taskKey with
  | none => n
  | some s =>
    let s' := s.updateState connectKey state
    (n.setTables k { t with statusMap := t.statusMap.insert taskKey s' }).send
      [.hsetexStat k taskKey s']

theorem updateRelayInfo_none {k : RelayKind} {u : String} {n : RelayNode}
    (h : (n.tables k).statusMap.lookup u = none) (c : String) (i : Int) :
    updateRelayInfo k u c i n = n := by
  simp only [updateRelayInfo, h]

theorem updateRelayInfo_some {k : RelayKind} {u : String} {n : RelayNode} {s : RelayStatus}
    (h : (n.tables k).statusMap.lookup u = some s) (c : String) (i : Int) :
    updateRelayInfo k u c i n =
      (n.setTables k { n.tables k with
        statusMap := (n.tables k).statusMap.insert u (s.updateState c i) }).send
        [.hsetexStat k u (s.updateState c i)] := by
  simp only [updateRelayInfo, h]

theorem updateRelayInfo_frame (k : RelayKind) (u c : String) (i : Int) (n : RelayNode) :
    (updateRelayInfo k u c i n).live = n.live ∧
      (updateRelayInfo k u c i n).isMaster = n.isMaster ∧
      (updateRelayInfo k u c i n).replies = n.replies ∧
      (updateRelayInfo k u c i n).inbox = n.inbox := by
  cases h : (n.tables k).statusMap.lookup u with
  | none => rw [updateRelayInfo_none h]; exact ⟨rfl, rfl, rfl, rfl⟩
  | some s => rw [updateRelayInfo_some h]; exact ⟨rfl, rfl, rfl, rfl⟩

theorem updateRelayInfo_pubQueue (k : RelayKind) (u c : String) (i : Int) (n : RelayNode) :
    (updateRelayInfo k u c i n).pubQueue = n.pubQueue ∨
      ∃ s, (updateRelayInfo k u c i n).pubQueue = n.pubQueue ++ [.hsetexStat k u s] := by
  cases h : (n.tables k).statusMap.lookup u with
  | none => rw [updateRelayInfo_none h]; exact .inl rfl
  | some s => rw [updateRelayInfo_some h]; exact .inr ⟨_, rfl⟩

theorem updateRelayInfo_objMap (k k' : RelayKind) (u c : String) (i : Int) (n : RelayNode) :
    ((updateRelayInfo k u c i n).tables k').objMap = (n.tables k').objMap := by
  cases h : (n.tables k).statusMap.lookup u with
  | none => rw [updateRelayInfo_none h]
  | some s =>
    rw [updateRelayInfo_some h, RelayNode.send_tables, RelayNode.setTables_tables]
    split
    · next hk => subst hk; rfl
    · rfl

def updatePullBaseInfo : String → String → Int → RelayNode → RelayNode := updateRelayInfo .pull
def updatePushRoverInfo : String → String → Int → RelayNode → RelayNode := updateRelayInfo .push

def redisSetMasterCallback (self : String) (r : Option String) (n : RelayNode) : RelayNode :=
  let n := match r with
    | some masterId => { n with currentMasterId := masterId }
    | none => n
  n.send [.setMasterIfEq self]

def redisKeepMasterCallback (renewed : Bool) (n : RelayNode) : RelayNode :=
  let n := { n with isMaster := renewed }
  if renewed then syncClusterState n else n

def listRecords (entries : List (String × RecordText)) : Table String RelayRecord :=
  entries.foldl (fun m e ↦ Table.insertNew m e.1 (RelayRecord.fromString ⟨e.1, .invalid ""⟩ e.2)) ∅

def redisSyncListCallback (k : RelayKind) (entries : List (String × RecordText)) (n : RelayNode) :
    RelayNode :=
  n.setTables k { n.tables k with recordMap := listRecords entries }

def redisSyncPullListCallback : List (String × RecordText) → RelayNode → RelayNode :=
  redisSyncListCallback .pull

def redisSyncPushListCallback : List (String × RecordText) → RelayNode → RelayNode :=
  redisSyncListCallback .push

def listStatus (m : Table String RelayStatus × Nat) (e : String × StatusText) :
    Table String RelayStatus × Nat :=
  match e.2.parse with
  | none => m
  | some s => (Table.insertNew m.1 e.1 s, if s.running then m.2 + 1 else m.2)

def listStatuses (entries : List (String × StatusText)) : Table String RelayStatus × Nat :=
  entries.foldl listStatus (∅, 0)

theorem lookup_listStatus {m : Table String RelayStatus × Nat} {e : String × StatusText}
    {u : String} {s : RelayStatus} (h : (listStatus m e).1.lookup u = some s) :
    m.1.lookup u = some s ∨ u = e.1 ∧ e.2.parse = some s := by
  unfold listStatus at h
  split at h
  · exact .inl h
  · next s' hs' =>
    rw [Table.lookup_insertNew] at h
    split at h
    · next hu => exact .inr ⟨hu.1, hs'.trans h⟩
    · exact .inl h

theorem mem_listStatus {m : Table String RelayStatus × Nat} {e : String × StatusText} {u : String} :
    u ∈ (listStatus m e).1 ↔ u ∈ m.1 ∨ u = e.1 ∧ e.2.parse ≠ none := by
  unfold listStatus
  split
  · next hp => simp [hp]
  · next s hp => simp [hp, Table.mem_insertNew, or_comm]

theorem lookup_listStatuses {entries : List (String × StatusText)} {u : String} {s : RelayStatus}
    (h : (listStatuses entries).1.lookup u = some s) :
    ∃ v, (u, v) ∈ entries ∧ v.parse = some s := by
  have hfold : ∀ m :
      Table String RelayStatus × Nat, (entries.foldl listStatus m).1.lookup u = some s →
      m.1.lookup u = some s ∨ ∃ v, (u, v) ∈ entries ∧ v.parse = some s := by
    clear h
    induction entries with
    | nil => exact fun m h ↦ .inl h
    | cons e entries ih =>
      intro m h
      obtain h | ⟨v, hv, hp⟩ := ih _ h
      · obtain h | ⟨rfl, hp⟩ := lookup_listStatus h
        · exact .inl h
        · exact .inr ⟨e.2, List.mem_cons_self .., hp⟩
      · exact .inr ⟨v, .tail e hv, hp⟩
  obtain h | h := hfold _ h
  · cases h
  · exact h

theorem mem_listStatuses {entries : List (String × StatusText)} {u : String} :
    u ∈ (listStatuses entries).1 ↔ ∃ v, (u, v) ∈ entries ∧ v.parse ≠ none := by
  have hfold : ∀ m : Table String RelayStatus × Nat, u ∈ (entries.foldl listStatus m).1 ↔
      u ∈ m.1 ∨ ∃ v, (u, v) ∈ entries ∧ v.parse ≠ none := by
    induction entries with
    | nil => simp
    | cons e entries ih =>
      intro m
      rw [List.foldl_cons, ih, mem_listStatus, or_assoc]
      refine or_congr_right ⟨?_, ?_⟩
      · rintro (⟨rfl, hp⟩ | ⟨v, hv, hp⟩)
        · exact ⟨e.2, List.mem_cons_self .., hp⟩
        · exact ⟨v, .tail e hv, hp⟩
      · rintro ⟨v, hv, hp⟩
        rcases List.mem_cons.mp hv with rfl | hv
        · exact .inl ⟨rfl, hp⟩
        · exact .inr ⟨v, hv, hp⟩
  rw [listStatuses, hfold]
  exact or_iff_right (AList.notMem_empty u)

def redisSyncStatCallback (k : RelayKind) (entries : List (String × StatusText)) (n : RelayNode) :
    RelayNode :=
  let (m, count) := listStatuses entries
  n.setTables k { n.tables k with statusMap := m, connectionCount := count }

def redisSyncPullStatCallback : List (String × StatusText) → RelayNode → RelayNode :=
  redisSyncStatCallback .pull

def redisSyncPushStatCallback : List (String × StatusText) → RelayNode → RelayNode :=
  redisSyncStatCallback .push

def redisSyncClusterNodeCallback (self : String) (n : RelayNode) : RelayNode :=
  relayPushTaskDistribution self (relayPullTaskDistribution self n)

def callback (self : String) : Reply → RelayNode → RelayNode
  | .setMaster r => redisSetMasterCallback self r
  | .keepMaster renewed => redisKeepMasterCallback renewed
  | .syncList .pull entries => redisSyncPullListCallback entries
  | .syncList .push entries => redisSyncPushListCallback entries
  | .syncStat .pull entries => redisSyncPullStatCallback entries
  | .syncStat .push entries => redisSyncPushStatCallback entries
  | .syncClusterNode => redisSyncClusterNodeCallback self

theorem callback_syncList (self : String) (k : RelayKind) (entries : List (String × RecordText)) :
    callback self (.syncList k entries) = redisSyncListCallback k entries := by cases k <;> rfl

theorem callback_syncStat (self : String) (k : RelayKind) (entries : List (String × StatusText)) :
    callback self (.syncStat k entries) = redisSyncStatCallback k entries := by cases k <;> rfl

theorem callback_frame (self : String) (r : Reply) (n : RelayNode) :
    (callback self r n).live = n.live ∧ (callback self r n).replies = n.replies ∧
      (callback self r n).inbox = n.inbox := by
  cases r with
  | setMaster r => cases r <;> exact ⟨rfl, rfl, rfl⟩
  | keepMaster renewed => cases renewed <;> exact ⟨rfl, rfl, rfl⟩
  | syncList k entries => cases k <;> exact ⟨rfl, rfl, rfl⟩
  | syncStat k entries => cases k <;> exact ⟨rfl, rfl, rfl⟩
  | syncClusterNode => exact ⟨rfl, rfl, rfl⟩

theorem callback_isMaster (self : String) (r : Reply) (n : RelayNode) :
    (callback self r n).isMaster = match r with
      | .keepMaster renewed => renewed
      | _ => n.isMaster := by
  cases r with
  | setMaster r => cases r <;> rfl
  | keepMaster renewed => cases renewed <;> rfl
  | syncList k entries => cases k <;> rfl
  | syncStat k entries => cases k <;> rfl
  | syncClusterNode => rfl

def issued (self : String) (n : RelayNode) : Reply → List Command
  | .setMaster _ => [.setMasterIfEq self]
  | .keepMaster true =>
    [.hgetallRecord .pull, .hgetallRecord .push, .hgetallStat .pull, .hgetallStat .push,
      .hgetallNode]
  | .syncClusterNode =>
    (distribute .pull (n.tables .pull)).2.map (.publishNode self) ++
      (distribute .push (n.tables .push)).2.map (.publishNode self)
  | _ => []

theorem callback_pubQueue (self : String) (r : Reply) (n : RelayNode) :
    (callback self r n).pubQueue = n.pubQueue ++ issued self n r := by
  cases r with
  | setMaster r => cases r <;> rfl
  | keepMaster renewed => cases renewed <;> simp [callback, redisKeepMasterCallback, issued,
      syncClusterState]
  | syncList k entries => rw [callback_syncList]; simp [redisSyncListCallback, issued]
  | syncStat k entries => rw [callback_syncStat]; simp [redisSyncStatCallback, issued]
  | syncClusterNode =>
    simp [callback, redisSyncClusterNodeCallback, relayPushTaskDistribution,
      relayPullTaskDistribution, relayTaskDistribution, issued, RelayNode.setTables_tables]

theorem callback_tables (self : String) (r : Reply) (n : RelayNode) (k : RelayKind) :
    (callback self r n).tables k = match r with
      | .syncList k' entries =>
        if k = k' then { n.tables k with recordMap := listRecords entries } else n.tables k
      | .syncStat k' entries =>
        if k = k' then { n.tables k with
          statusMap := (listStatuses entries).1, connectionCount := (listStatuses entries).2 }
        else n.tables k
      | .syncClusterNode =>
        { n.tables k with recordDistributed := (distribute k (n.tables k)).1 }
      | _ => n.tables k := by
  cases r with
  | setMaster r => cases r <;> rfl
  | keepMaster renewed => cases renewed <;> rfl
  | syncList k' entries =>
    rw [callback_syncList]
    by_cases h : k = k'
    · subst h; simp [redisSyncListCallback]
    · simp [redisSyncListCallback, RelayNode.setTables_tables, h]
  | syncStat k' entries =>
    rw [callback_syncStat]
    by_cases h : k = k'
    · subst h; simp [redisSyncStatCallback]
    · simp [redisSyncStatCallback, RelayNode.setTables_tables, h]
  | syncClusterNode =>
    cases k <;> simp [callback, redisSyncClusterNodeCallback, relayPushTaskDistribution,
      relayPullTaskDistribution, relayTaskDistribution, RelayNode.setTables_tables]

theorem callback_objMap (self : String) (r : Reply) (n : RelayNode) (k : RelayKind) :
    ((callback self r n).tables k).objMap = (n.tables k).objMap := by
  rw [callback_tables]
  cases r with
  | syncList k' entries => dsimp only; split <;> rfl
  | syncStat k' entries => dsimp only; split <;> rfl
  | _ => rfl

theorem mem_statusMap_updateRelayInfo {k k' : RelayKind} {v c u : String} {i : Int}
    {n : RelayNode} :
    u ∈ ((updateRelayInfo k v c i n).tables k').statusMap ↔ u ∈ (n.tables k').statusMap := by
  cases hv : (n.tables k).statusMap.lookup v with
  | none => rw [updateRelayInfo_none hv]
  | some s =>
    rw [updateRelayInfo_some hv, RelayNode.send_tables, RelayNode.setTables_tables]
    split
    · next hk =>
      subst hk
      rw [AList.mem_insert]
      exact or_iff_right_of_imp fun he ↦ he ▸ Table.mem_of_lookup hv
    · rfl

theorem relayTaskResponse_stop {k : RelayKind} {self u reason : String} {text : RelayText}
    {n : RelayNode} (h : u ∈ (n.tables k).statusMap) :
    (relayTaskResponse self (taskMsg k .inactive u text reason) n).2 =
      (n.setTables k (stoppedTables k (taskMsg k .inactive u text reason) (n.tables k))).send
        [.hdelStat k u] := by
  obtain ⟨s, hs⟩ := Table.mem_iff_lookup.mp h
  rw [relayTaskResponse_of_kind (relayKindOf_broadcastType k)]
  simp only [taskMsg, hs]

end NavCaster.Relay.Node
