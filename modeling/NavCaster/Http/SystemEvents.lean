import NavCaster.Http.Login

namespace NavCaster.Http.SystemEvents

open NavCaster.Library
open NavCaster.Library.Strto (Bytes stol)
open NavCaster.Library.Scan (ascii)
open NavCaster.Auth.Account (Json Number)
open NavCaster.Http.Login (HttpRequest HttpResponse internalError)

/-- The texts of the database stand as the values that are read back from them. -/
inductive Value
  | hash (fields : Table Bytes Json)
  | list (items : List Json)
  | string (value : Json)

abbrev Database := Table Bytes Value

/-- A value of another type is left alone. -/
def hset (key field : Bytes) (value : Json) (db : Database) : Database :=
  match db.lookup key with
  | none => db.insert key (.hash ((∅ : Table Bytes Json).insert field value))
  | some (.hash fields) => db.insert key (.hash (fields.insert field value))
  | some _ => db

def lrange (key : Bytes) (start stop : Nat) (db : Database) : Option (List Json) :=
  match db.lookup key with
  | none => some []
  | some (.list items) => some ((items.drop start).take (stop + 1 - start))
  | some _ => none

structure Node where
  nodeId : Bytes
  nodeName : Bytes
  hostname : Bytes
  listenPort : Int
  httpPort : Int
  processId : Int
  isMaster : Bool
  deriving DecidableEq

inductive EventKind
  | start | stop | masterAcquired | masterLost
  deriving DecidableEq

def EventKind.name : EventKind → Bytes
  | start => ascii "start"
  | stop => ascii "stop"
  | masterAcquired => ascii "master_acquired"
  | masterLost => ascii "master_lost"

structure NodeEvent where
  kind : EventKind
  node : Node
  timestamp : Int
  deriving DecidableEq

def number (n : Int) : Json := .number ⟨n, n, n⟩

def NodeEvent.toJson (e : NodeEvent) : Json :=
  let common := [("event", Json.string e.kind.name), ("node_id", .string e.node.nodeId)]
  let own := match e.kind with
    | .start =>
      [("node_name", Json.string e.node.nodeName), ("hostname", .string e.node.hostname),
        ("listen_port", number e.node.listenPort), ("http_port", number e.node.httpPort),
        ("process_id", number e.node.processId)]
    | .stop => [("node_name", .string e.node.nodeName)]
    | .masterAcquired | .masterLost => []
  .object (common ++ own ++ [("timestamp", number e.timestamp)])

def logNodePrefix : Bytes := ascii "LOG:NODE:"

def decimal (n : Int) : Bytes := ascii (toString n)

def NodeEvent.write (e : NodeEvent) (db : Database) : Database :=
  hset (logNodePrefix ++ e.node.nodeId) (decimal e.timestamp ++ ascii "_" ++ e.kind.name) e.toJson
    db

def flushOnlineHistory (connected : Bool) (now : Int) (node : Node) (db : Database) :
    Database × List NodeEvent :=
  if node.nodeId ≠ [] ∧ connected = true then
    let e : NodeEvent := ⟨.stop, node, now⟩
    (e.write db, [e])
  else (db, [])

def cleanupStaleHistory (now : Int) (node : Node) (db : Database) : Database × List NodeEvent :=
  if node.nodeId ≠ [] then
    let e : NodeEvent := ⟨.start, node, now⟩
    (e.write db, [e])
  else (db, [])

def redisKeepMasterCallback (renewed : Bool) (ts : Int) (node : Node) (db : Database) :
    Database × List NodeEvent :=
  if renewed = true ∧ node.isMaster = false then
    let e : NodeEvent := ⟨.masterAcquired, node, ts⟩
    (e.write db, [e])
  else if renewed = false ∧ node.isMaster = true then
    let e : NodeEvent := ⟨.masterLost, node, ts⟩
    (e.write db, [e])
  else (db, [])

def isNodeKey (key : Bytes) : Bool := 9 < key.length && key.take 9 = logNodePrefix

/-- `command` is what others do with a key that is not one of a node. -/
inductive Action
  | start (now : Int) (node : Node)
  | stop (connected : Bool) (now : Int) (node : Node)
  | keepMaster (renewed : Bool) (ts : Int) (node : Node)
  | command (key : Bytes) (value : Option Value)

def step (db : Database) : Action → Option (Database × List NodeEvent)
  | .start now node => some (cleanupStaleHistory now node db)
  | .stop connected now node => some (flushOnlineHistory connected now node db)
  | .keepMaster renewed ts node => some (redisKeepMasterCallback renewed ts node db)
  | .command key value =>
    if isNodeKey key then none
    else match value with
      | none => some (db.erase key, [])
      | some value => some (db.insert key value, [])

def machine : Machine Database Action NodeEvent where
  step := step

def limitParam (req : HttpRequest) : Int :=
  match req.queryParams.lookup (ascii "limit") with
  | none => 100
  | some text =>
    match stol text with
    | .ok limit => limit
    | .error _ => 100

def readLimit (req : HttpRequest) : Nat :=
  if limitParam req ≤ 0 ∨ 500 < limitParam req then 100 else (limitParam req).toNat

def getUInt64 : Json → Option Nat
  | .number n => some (n.toInt64 % 2 ^ 64).toNat
  | _ => none

def timestamp (item : Json) : Option Nat := item.value getUInt64 "timestamp" 0

/-- `none` where a comparison throws. -/
def newestFirst (items : List Json) : Option (List Json) :=
  if 2 ≤ items.length ∧ items.any (fun item ↦ (timestamp item).isNone) = true then none
  else some (items.mergeSort fun a b ↦ (timestamp b).getD 0 ≤ (timestamp a).getD 0)

def isObject : Json → Bool
  | .object _ => true
  | _ => false

def answer (items : List Json) : HttpResponse :=
  ⟨200, .object [("items", .array items), ("count", number items.length)]⟩

/-- A list that is refused counts as an empty one. -/
def handleGetSystemEvents (req : HttpRequest) (db : Database) : HttpResponse :=
  let limit := readLimit req
  let nodeKeys := db.keys.filter isNodeKey
  let items := nodeKeys.flatMap fun key ↦ ((lrange key 0 (limit - 1) db).getD []).filter isObject
  match newestFirst items with
  | none => internalError
  | some items => answer (items.take limit)

/-- The items are the newest of the events, as many as the limit allows, in descending order. -/
def Newest (limit : Nat) (events : List NodeEvent) (items : List Json) : Prop :=
  ∃ shown rest : List NodeEvent, events.Perm (shown ++ rest) ∧
    shown.length = min limit events.length ∧
    items = shown.map NodeEvent.toJson ∧ shown.Pairwise (fun a b ↦ b.timestamp ≤ a.timestamp) ∧
    ∀ a ∈ shown, ∀ b ∈ rest, b.timestamp ≤ a.timestamp

def Reaches (req : HttpRequest) (db : Database) (events : List NodeEvent) : Prop :=
  ∃ items, handleGetSystemEvents req db = answer items ∧ Newest (readLimit req) events items

theorem readLimit_bounds (req : HttpRequest) : 1 ≤ readLimit req ∧ readLimit req ≤ 500 := by
  unfold readLimit
  split
  · decide
  · next hlimit =>
    rw [not_or] at hlimit
    omega

theorem readLimit_eq {req : HttpRequest} {text : Bytes} {limit : Nat}
    (htext : req.queryParams.lookup (ascii "limit") = some text)
    (hlimit : stol text = .ok (limit : Int)) (hpos : 1 ≤ limit)
    (hmax : limit ≤ 500) : readLimit req = limit := by
  have hparam : limitParam req = limit := by
    unfold limitParam
    rw [htext]
    dsimp only
    rw [hlimit]
  unfold readLimit
  rw [hparam, if_neg (by omega)]
  omega

/-- The nodes keep their events in hashes. -/
def NodeHashes (db : Database) : Prop :=
  ∀ key, isNodeKey key = true → ∀ value, db.lookup key = some value → ∃ fields, value = .hash fields

theorem NodeHashes.hset {db : Database} (h : NodeHashes db) (key field : Bytes) (value : Json) :
    NodeHashes (hset key field value db) := by
  intro key' hkey' value' hvalue'
  unfold SystemEvents.hset at hvalue'
  split at hvalue'
  · rw [Table.lookup_insert_if] at hvalue'
    split at hvalue'
    · cases hvalue'
      exact ⟨_, rfl⟩
    · exact h key' hkey' value' hvalue'
  · rw [Table.lookup_insert_if] at hvalue'
    split at hvalue'
    · cases hvalue'
      exact ⟨_, rfl⟩
    · exact h key' hkey' value' hvalue'
  · exact h key' hkey' value' hvalue'

theorem step_nodeHashes {db db' : Database} {a : Action} {es : List NodeEvent} (h : NodeHashes db)
    (hstep : step db a = some (db', es)) : NodeHashes db' := by
  cases a with
  | start now node =>
    obtain rfl : (cleanupStaleHistory now node db).1 = db' :=
      congrArg Prod.fst (Option.some_inj.mp hstep)
    unfold cleanupStaleHistory
    split
    · exact h.hset _ _ _
    · exact h
  | stop connected now node =>
    obtain rfl : (flushOnlineHistory connected now node db).1 = db' :=
      congrArg Prod.fst (Option.some_inj.mp hstep)
    unfold flushOnlineHistory
    split
    · exact h.hset _ _ _
    · exact h
  | keepMaster renewed ts node =>
    obtain rfl : (redisKeepMasterCallback renewed ts node db).1 = db' :=
      congrArg Prod.fst (Option.some_inj.mp hstep)
    unfold redisKeepMasterCallback
    split
    · exact h.hset _ _ _
    · split
      · exact h.hset _ _ _
      · exact h
  | command key value =>
    obtain ⟨hkey, heq⟩ := Option.ite_none_left_eq_some.mp hstep
    intro key' hkey' value' hvalue'
    have hne : key' ≠ key := fun heq ↦ hkey (heq ▸ hkey')
    refine h key' hkey' value' ?_
    cases value with
    | none =>
      cases heq
      rwa [AList.lookup_erase_ne hne] at hvalue'
    | some value =>
      cases heq
      rwa [AList.lookup_insert_ne hne] at hvalue'

theorem handleGetSystemEvents_empty {db : Database} (h : NodeHashes db) (req : HttpRequest) :
    handleGetSystemEvents req db = answer [] := by
  have hitems : ((db.keys.filter isNodeKey).flatMap fun key ↦
      ((lrange key 0 (readLimit req - 1) db).getD []).filter isObject) = [] := by
    refine List.flatMap_eq_nil_iff.mpr fun key hmem ↦ ?_
    obtain ⟨hkey, hnode⟩ := List.mem_filter.mp hmem
    obtain ⟨value, hvalue⟩ := Table.mem_iff_lookup.mp (show key ∈ db from hkey)
    obtain ⟨fields, rfl⟩ := h key hnode value hvalue
    unfold lrange
    rw [hvalue]
    rfl
  unfold handleGetSystemEvents
  dsimp only
  rw [hitems]
  simp [newestFirst]

theorem newest_nil_iff {limit : Nat} {events : List NodeEvent} (hlimit : 1 ≤ limit) :
    Newest limit events [] ↔ events = [] := by
  constructor
  · rintro ⟨shown, rest, -, hlength, hitems, -⟩
    obtain rfl := List.map_eq_nil_iff.mp hitems.symm
    refine List.eq_nil_of_length_eq_zero ?_
    rw [List.length_nil] at hlength
    omega
  · rintro rfl
    exact ⟨[], [], .nil, by simp, rfl, .nil, by simp⟩

theorem exec_nodeHashes {as : List Action} {db : Database} {es : List NodeEvent}
    (h : machine.exec ∅ as = some (db, es)) : NodeHashes db := by
  have hinit : NodeHashes ∅ := by
    intro key _ value hvalue
    cases hvalue
  have hmeets : machine.Meets (fun _ _ ↦ True) ∅ as :=
    Machine.meets_of_forall (fun _ _ _ ↦ trivial) _
  exact (Machine.reach_of_exec hmeets h).invariant hinit fun _ _ _ _ ht _ hu ↦ step_nodeHashes ht hu

theorem NodeHashes.reaches {db : Database} (h : NodeHashes db) (req : HttpRequest)
    (es : List NodeEvent) :
    Reaches req db es ↔ Newest (readLimit req) es [] := by
  unfold Reaches
  rw [handleGetSystemEvents_empty h]
  constructor
  · rintro ⟨items, hanswer, hnewest⟩
    cases hanswer
    exact hnewest
  · exact fun hnewest ↦ ⟨[], rfl, hnewest⟩

/-- No event of a node reaches the operator. -/
theorem reaches_iff {as : List Action} {db : Database} {es : List NodeEvent} (req : HttpRequest)
    (h : machine.exec ∅ as = some (db, es)) : Reaches req db es ↔ es = [] :=
  ((exec_nodeHashes h).reaches req es).trans (newest_nil_iff (readLimit_bounds req).1)

def casterNode : Node where
  nodeId := ascii "n1"
  nodeName := ascii "caster"
  hostname := ascii "host"
  listenPort := 2101
  httpPort := 8080
  processId := 1
  isMaster := false

theorem reaches_iff_started :
    ∃ db es, machine.exec ∅ [.start 1700000000 casterNode] = some (db, es) ∧
    (Reaches {} db es ↔ es = []) := by
  obtain ⟨db, es, hrun⟩ : ∃ db es, machine.exec ∅ [.start 1700000000 casterNode] = some (db, es) :=
    ⟨_, _, rfl⟩
  exact ⟨db, es, hrun, reaches_iff {} hrun⟩

theorem not_reaches_started :
    ¬ ∀ as db es req, machine.exec ∅ as = some (db, es) → Reaches req db es := by
  intro h
  obtain ⟨db, es, hrun, hne⟩ :
      ∃ db es, machine.exec ∅ [.start 1700000000 casterNode] = some (db, es) ∧ es ≠ [] :=
        ⟨_, _, rfl, nofun⟩
  have hreaches := h _ db es {} hrun
  rw [(exec_nodeHashes hrun).reaches, newest_nil_iff (by decide)] at hreaches
  exact hne hreaches

end NavCaster.Http.SystemEvents
