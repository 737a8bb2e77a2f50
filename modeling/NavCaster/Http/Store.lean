import NavCaster.Http.Accounts
import NavCaster.Library.Utf8

namespace NavCaster.Http.Store

open NavCaster.Library
open NavCaster.Library.Strto (Bytes)
open NavCaster.Library.Scan
open NavCaster.Http.Accounts

/-- What the handlers use of the JSON library, over the values that texts denote: `dump` throws for
a string that is not UTF-8, `set` for what is neither an object nor `null`, `value` for a member
that is no string and for what is no object. The answer of a handler is `ok` and the members of
`reply`, that of a list is an object of `listing`. -/
structure JsonLibrary (D : Type) where
  parse : Bytes → Option D
  dump : D → Option Bytes
  isNull : D → Bool
  ofString : Bytes → D
  ofTrue : D
  value : String → Bytes → D → Option Bytes
  contains : String → D → Bool
  set : String → D → D → Option D
  reply : List (String × Bytes) → Option Bytes
  listing : List (Bytes × D) → Option Bytes
  parse_dump : ∀ d text, dump d = some text → parse (cstr text) = some d
  value_set : ∀ key s d d', set key (ofString s) d = some d' →
    ∀ default, value key default d' = some s
  value_utf8 : ∀ text d key default s, parse text = some d → value key default d = some s →
    s ≠ default →
    Utf8.isUtf8 s
  reply_isSome : ∀ members : List (String × Bytes), (∀ m ∈ members, Utf8.isUtf8 m.2) →
    (reply members).isSome

/-- A segment of a path is the text that a decoder gives, which ends at a NUL. -/
structure Request extends HttpRequest where
  noNul : ∀ seg ∈ pathSegments, 0 ∉ seg

/-- A command is answered, or does not reach the database, or takes effect and its answer is
lost. -/
inductive Link
  | up | down | lost
  deriving DecidableEq

def Link.run (l : Link) (command : Bool → Database → Bool × Database) (db : Database) :
    Bool × Database :=
  match l with
  | up => command true db
  | down => (false, db)
  | lost => (false, (command true db).2)

structure Links where
  command : Link
  after : Link

structure Result where
  resp : HttpResponse
  db : Database
  published : List (Bytes × Bytes) := []

def keySourceRecord : Bytes := ascii "MPT:RECORD"
def keyAliasRule : Bytes := ascii "ALIAS:RULE"
def keyAccessGroup : Bytes := ascii "ACCESS:GROUP"
def keyAccessItem : Bytes := ascii "ACCESS:ITEM"
def keyPullRecord : Bytes := ascii "PULL:RECORD"
def keyPullState : Bytes := ascii "PULL:STAT"
def keyPushRecord : Bytes := ascii "PUSH:RECORD"
def keyPushState : Bytes := ascii "PUSH:STAT"

inductive After
  | nothing
  | publish (message : Bytes)
  | hdel (key : Bytes)

def After.run (l : Link) (field : Bytes) (db : Database) : After → Database × List (Bytes × Bytes)
  | nothing => (db, [])
  | publish message => (db, if l = .down then [] else [(ascii "CASTER:CONF", message)])
  | hdel key => ((l.run (Accounts.hdel · key field) db).2, [])

def publishAlias : After := .publish (ascii "ALIAS")
def publishAccess : After := .publish (ascii "ACCESS")

variable {D : Type} (json : JsonLibrary D) (l : Links) (req : Request) (db : Database)

/-- A text that does not parse is handed on as a string. -/
def JsonLibrary.read (text : Bytes) : D := (json.parse (cstr text)).getD (json.ofString (cstr text))

def hget (l : Link) (key field : Bytes) : Option D :=
  if l = .up then (Table.entry db key (cstr field)).map json.read else none

def hgetall (l : Link) (key : Bytes) : List (Bytes × D) :=
  if l = .up then (Table.toPairs ((db.lookup key).getD ∅)).map fun p ↦ (cstr p.1, json.read p.2)
  else []

/-- The members are read one after the other until one is not empty. -/
def firstValue (body : D) : List String → Option Bytes
  | [] => some []
  | key :: keys =>
    match json.value key [] body with
    | none => none
    | some [] => firstValue body keys
    | some s => some s

def answer (statusCode : ℕ) (members : List (String × Bytes))
    (p : Database × List (Bytes × Bytes)) : Result :=
  match json.reply members with
  | none => ⟨internalError, p.1, p.2⟩
  | some body => ⟨⟨statusCode, body⟩, p.1, p.2⟩

def refuse (statusCode : ℕ) (text : String) : Result := ⟨.error statusCode text, db, []⟩

def throw : Result := ⟨internalError, db, []⟩

def getOne (key : Bytes) : Result :=
  if getResourceId req.toHttpRequest = [] then refuse db 400 "Missing ID"
  else match hget json db l.command key (getResourceId req.toHttpRequest) with
    | none => refuse db 404 "Not found"
    | some data =>
      if json.isNull data then refuse db 404 "Not found"
      else match json.dump data with
        | none => throw db
        | some body => ⟨⟨200, body⟩, db, []⟩

def getAll (key : Bytes) : Result :=
  match json.listing (hgetall json db l.command key) with
  | none => throw db
  | some body => ⟨⟨200, body⟩, db, []⟩

/-- The body is named by the first of `names` that is there, and changed by `dress` before it is
stored. -/
def create (key : Bytes) (names : List String) (dress : Bytes → D → Option D)
    (missing conflict : String) (reply : Bytes → List (String × Bytes)) (after : After) : Result :=
  match json.parse req.body with
  | none => refuse db 400 "Invalid JSON"
  | some body =>
    match firstValue json body names with
    | none => throw db
    | some field =>
      if field = [] then refuse db 400 missing
      else match (dress field body).bind fun doc ↦ json.dump doc with
        | none => throw db
        | some text =>
          match l.command.run (hsetnx · key field text) db with
          | (false, db) => refuse db 409 conflict
          | (true, db) => answer json 201 (reply field) (after.run l.after field db)

def write (key field : Bytes) (doc : Option D) (after : After) : Result :=
  match doc.bind fun doc ↦ json.dump doc with
  | none => throw db
  | some text =>
    match l.command.run (hset · key field text) db with
    | (false, db) => refuse db 500 "Redis error"
    | (true, db) => answer json 200 [] (after.run l.after field db)

def update (key : Bytes) (dress : Bytes → D → Option D) (after : After) : Result :=
  if getResourceId req.toHttpRequest = [] then refuse db 400 "Missing ID"
  else match json.parse req.body with
    | none => refuse db 400 "Invalid JSON"
    | some body =>
      write json l db key (getResourceId req.toHttpRequest)
        (dress (getResourceId req.toHttpRequest) body) after

def remove (key field : Bytes) (missing : String) (after : After) : Result :=
  match l.command.run (hdel · key field) db with
  | (false, db) => refuse db 404 missing
  | (true, db) => answer json 200 [] (after.run l.after field db)

def delete (key : Bytes) (after : After) : Result :=
  if getResourceId req.toHttpRequest = [] then refuse db 400 "Missing ID"
  else remove json l db key (getResourceId req.toHttpRequest) "Not found" after

def asIs (_ : Bytes) (body : D) : Option D := some body

def setUid (uid : Bytes) (body : D) : Option D := json.set "uid" (json.ofString uid) body

def setEnabled (_ : Bytes) (body : D) : Option D :=
  if json.contains "enabled" body then some body else json.set "enabled" json.ofTrue body

/-- An item keeps the `uid` that it has. -/
def setMount (mount : Bytes) (body : D) : Option D :=
  (json.value "uid" mount body).bind fun uid ↦
    (json.set "uid" (json.ofString uid) body).bind fun body ↦
      json.set "mount_point_name" (json.ofString mount) body

def mountNames : List String := ["mount_point_name", "mountpoint", "mount"]

def itemKey (groupUid : Bytes) : Bytes := cstr (keyAccessItem ++ ascii ":" ++ groupUid)

def handleGetSources : Result := getAll json l db keySourceRecord

def handleGetSource : Result := getOne json l req db keySourceRecord

def handleCreateSource : Result :=
  create json l req db keySourceRecord ["mountpoint"] asIs "Missing mountpoint"
    "Source already exists"
    (fun mountpoint ↦ [("mountpoint", mountpoint)]) .nothing

def handleUpdateSource : Result := update json l req db keySourceRecord asIs .nothing

def handleDeleteSource : Result := delete json l req db keySourceRecord .nothing

def handleGetAliases : Result := getAll json l db keyAliasRule

def handleGetAlias : Result := getOne json l req db keyAliasRule

def handleCreateAlias : Result :=
  create json l req db keyAliasRule ["uid", "alias_name", "alias_mpt", "name"] asIs
    "Missing alias uid"
    "Alias already exists" (fun uid ↦ [("alias", uid)]) publishAlias

def handleUpdateAlias : Result := update json l req db keyAliasRule asIs publishAlias

def handleDeleteAlias : Result := delete json l req db keyAliasRule publishAlias

def handleGetAccessGroups : Result := getAll json l db keyAccessGroup

def handleGetAccessGroup : Result := getOne json l req db keyAccessGroup

def handleCreateAccessGroup : Result :=
  create json l req db keyAccessGroup ["uid", "group_uid"] (setUid json) "Missing group uid"
    "Group already exists" (fun uid ↦ [("uid", uid)]) publishAccess

def handleUpdateAccessGroup : Result :=
  update json l req db keyAccessGroup (setUid json) publishAccess

def builtInGroups : List Bytes := [ascii "default", ascii "SYSTEM"]

def isBuiltIn (id : Bytes) : Bool := id = ascii "default" || id = ascii "SYSTEM"

def handleDeleteAccessGroup : Result :=
  if getResourceId req.toHttpRequest = [] then refuse db 400 "Missing ID"
  else if isBuiltIn (getResourceId req.toHttpRequest) then
    refuse db 403 "Built-in group cannot be deleted"
  else remove json l db keyAccessGroup (getResourceId req.toHttpRequest) "Not found" publishAccess

def handleGetAccessItems : Result :=
  if getResourceId req.toHttpRequest = [] then refuse db 400 "Missing group_uid"
  else getAll json l db (itemKey (getResourceId req.toHttpRequest))

def handleCreateAccessItem : Result :=
  if getResourceId req.toHttpRequest = [] then refuse db 400 "Missing group_uid"
  else create json l req db (itemKey (getResourceId req.toHttpRequest)) mountNames (setMount json)
    "Missing mountpoint" "Item already exists" (fun _ ↦ []) publishAccess

/-- The group is named by the body, or else by the path. -/
def itemNames (body : D) (names : List String) : Option (Bytes × Bytes) :=
  (json.value "group_uid" (getResourceId req.toHttpRequest) body).bind fun groupUid ↦
    (firstValue json body names).map fun mount ↦ (groupUid, mount)

def handleUpdateAccessItem : Result :=
  match json.parse req.body with
  | none => refuse db 400 "Invalid JSON"
  | some body =>
    match itemNames json req body mountNames with
    | none => throw db
    | some (groupUid, mount) =>
      if groupUid = [] ∨ mount = [] then refuse db 400 "Missing group_uid or mountpoint"
      else write json l db (itemKey groupUid) mount (setMount json mount body) publishAccess

def handleDeleteAccessItem : Result :=
  match json.parse req.body with
  | none => refuse db 400 "Invalid JSON, need group_uid and mountpoint"
  | some body =>
    match itemNames json req body (mountNames ++ ["uid"]) with
    | none => throw db
    | some (groupUid, mount) =>
      if groupUid = [] ∨ mount = [] then refuse db 400 "Missing group_uid or mountpoint"
      else remove json l db (itemKey groupUid) mount "Item not found" publishAccess

def handleGetPulls : Result := getAll json l db keyPullRecord

def handleGetPull : Result := getOne json l req db keyPullRecord

def handleCreatePull : Result :=
  create json l req db keyPullRecord ["uid"] (setEnabled json) "Missing uid"
    "Pull record already exists"
    (fun uid ↦ [("uid", uid)]) .nothing

def handleUpdatePull : Result := update json l req db keyPullRecord asIs (.hdel keyPullState)

def handleDeletePull : Result := delete json l req db keyPullRecord (.hdel keyPullState)

def handleGetPushs : Result := getAll json l db keyPushRecord

def handleGetPush : Result := getOne json l req db keyPushRecord

def handleCreatePush : Result :=
  create json l req db keyPushRecord ["uid"] (setEnabled json) "Missing uid"
    "Push record already exists"
    (fun uid ↦ [("uid", uid)]) .nothing

def handleUpdatePush : Result := update json l req db keyPushRecord asIs (.hdel keyPushState)

def handleDeletePush : Result := delete json l req db keyPushRecord (.hdel keyPushState)

inductive Collection
  | source | aliasRule | group | pull | push

def Collection.key : Collection → Bytes
  | source => keySourceRecord
  | aliasRule => keyAliasRule
  | group => keyAccessGroup
  | pull => keyPullRecord
  | push => keyPushRecord

inductive Call
  | getAll (c : Collection)
  | getOne (c : Collection)
  | create (c : Collection)
  | update (c : Collection)
  | delete (c : Collection)
  | getItems
  | createItem
  | updateItem
  | deleteItem

def Call.handle : Call → Result
  | getAll .source => handleGetSources json l db
  | getAll .aliasRule => handleGetAliases json l db
  | getAll .group => handleGetAccessGroups json l db
  | getAll .pull => handleGetPulls json l db
  | getAll .push => handleGetPushs json l db
  | getOne .source => handleGetSource json l req db
  | getOne .aliasRule => handleGetAlias json l req db
  | getOne .group => handleGetAccessGroup json l req db
  | getOne .pull => handleGetPull json l req db
  | getOne .push => handleGetPush json l req db
  | create .source => handleCreateSource json l req db
  | create .aliasRule => handleCreateAlias json l req db
  | create .group => handleCreateAccessGroup json l req db
  | create .pull => handleCreatePull json l req db
  | create .push => handleCreatePush json l req db
  | update .source => handleUpdateSource json l req db
  | update .aliasRule => handleUpdateAlias json l req db
  | update .group => handleUpdateAccessGroup json l req db
  | update .pull => handleUpdatePull json l req db
  | update .push => handleUpdatePush json l req db
  | delete .source => handleDeleteSource json l req db
  | delete .aliasRule => handleDeleteAlias json l req db
  | delete .group => handleDeleteAccessGroup json l req db
  | delete .pull => handleDeletePull json l req db
  | delete .push => handleDeletePush json l req db
  | getItems => handleGetAccessItems json l req db
  | createItem => handleCreateAccessItem json l req db
  | updateItem => handleUpdateAccessItem json l req db
  | deleteItem => handleDeleteAccessItem json l req db

def Call.reads : Call → Prop
  | getAll _ | getOne _ | getItems => True
  | _ => False

/-- What a command must find in its field to take effect. -/
inductive Need
  | absent | present | any

def Need.Met (docs : Option D) : Need → Prop
  | absent => docs = none
  | present => docs.isSome
  | any => True

def Call.need : Call → Need
  | create _ | createItem => .absent
  | delete _ | deleteItem => .present
  | _ => .any

structure Edit (D : Type) where
  key : Bytes
  field : Bytes
  info : Option D

def Edit.apply (docs : Bytes → Bytes → Option D) (e : Edit D) (key field : Bytes) : Option D :=
  if key = e.key ∧ field = e.field then e.info else docs key field

def replay (edits : List (Edit D)) (docs : Bytes → Bytes → Option D) : Bytes → Bytes → Option D :=
  edits.foldl Edit.apply docs

def askCreate (key : Bytes) (names : List String) (dress : Bytes → D → Option D) :
    Option (Edit D) :=
  (json.parse req.body).bind fun body ↦ (firstValue json body names).bind fun field ↦
    (dress field body).map fun doc ↦ ⟨key, cstr field, some doc⟩

def askUpdate (key : Bytes) (dress : Bytes → D → Option D) : Option (Edit D) :=
  (json.parse req.body).bind fun body ↦ (dress (getResourceId req.toHttpRequest) body).map fun doc ↦
    ⟨key, cstr (getResourceId req.toHttpRequest), some doc⟩

def askDelete (key : Bytes) : Option (Edit D) :=
  some ⟨key, cstr (getResourceId req.toHttpRequest), none⟩

def Call.asked : Call → Option (Edit D)
  | create .group => askCreate json req keyAccessGroup ["uid", "group_uid"] (setUid json)
  | create .source => askCreate json req keySourceRecord ["mountpoint"] asIs
  | create .aliasRule =>
    askCreate json req keyAliasRule ["uid", "alias_name", "alias_mpt", "name"] asIs
  | create .pull => askCreate json req keyPullRecord ["uid"] (setEnabled json)
  | create .push => askCreate json req keyPushRecord ["uid"] (setEnabled json)
  | update .group => askUpdate json req keyAccessGroup (setUid json)
  | update c => askUpdate json req c.key asIs
  | delete .group =>
    if isBuiltIn (getResourceId req.toHttpRequest) then none else askDelete req keyAccessGroup
  | delete c => askDelete req c.key
  | createItem =>
    askCreate json req (itemKey (getResourceId req.toHttpRequest)) mountNames (setMount json)
  | updateItem =>
    (json.parse req.body).bind fun body ↦ (itemNames json req body mountNames).bind fun p ↦
      (setMount json p.2 body).map fun doc ↦ ⟨itemKey p.1, cstr p.2, some doc⟩
  | deleteItem => (json.parse req.body).bind fun body ↦
      (itemNames json req body (mountNames ++ ["uid"])).map fun p ↦ ⟨itemKey p.1, cstr p.2, none⟩
  | _ => none

def view (key field : Bytes) : Option D := (Table.entry db key field).map json.read

/-- The states of the relays, which the nodes write. -/
def stateKeys : List Bytes := [keyPullState, keyPushState]

def Made (db' : Database) (e : Edit D) : Prop :=
  ∀ key field, key ∉ stateKeys → view json db' key field = e.apply (view json db) key field

def Takes (need : Need) (asked : Option (Edit D)) (db' : Database) : Prop :=
  ∃ e, asked = some e ∧ need.Met (view json db e.key e.field) ∧ Made json db db' e

/-- A success has made the edit, and a failure has not, unless the answer of the database was
lost. -/
def Ends (need : Need) (asked : Option (Edit D)) (r : Result) : Prop :=
  (r.resp.succeeded ∧ Takes json db need asked r.db) ∨
    (¬ r.resp.succeeded ∧ (r.db = db ∨ (l.command = .lost ∧ Takes json db need asked r.db)))

def After.Harmless (a : After) : Prop := ∀ key, a = .hdel key → key ∈ stateKeys

variable {json l req db}

theorem ends_refuse {need : Need} {asked : Option (Edit D)} {statusCode : ℕ} (h : 300 ≤ statusCode)
    (text : String) : Ends json l db need asked (refuse db statusCode text) :=
  .inr ⟨HttpResponse.not_succeeded_error h text, .inl rfl⟩

theorem ends_throw {need : Need} {asked : Option (Edit D)} : Ends json l db need asked (throw db) :=
  ends_refuse (by decide) _

theorem run_cases {link : Link} {command : Bool → Database → Bool × Database} {db' : Database}
    {found : Prop}
    (hcommand : ∀ connected, command connected db = (false, db) ∨
      (command connected db = (true, db') ∧ found)) :
    (link.run command db = (true, db') ∧ found) ∨ link.run command db = (false, db) ∨
      (link = .lost ∧ link.run command db = (false, db') ∧ found) := by
  cases link with
  | up =>
    obtain h | h := hcommand true
    · exact .inr (.inl h)
    · exact .inl h
  | down => exact .inr (.inl rfl)
  | lost =>
    unfold Link.run
    obtain h | ⟨h, hfound⟩ := hcommand true
    · rw [h]
      exact .inr (.inl rfl)
    · rw [h]
      exact .inr (.inr ⟨rfl, rfl, hfound⟩)

theorem hset_found (key field text : Bytes) (connected : Bool) :
    Accounts.hset connected key field text db = (false, db) ∨
      (Accounts.hset connected key field text db =
        (true, Table.put db key (cstr field) (cstr text)) ∧
        Need.any.Met (view json db key (cstr field))) :=
  (@hset_cases connected db key field text).imp_right fun h ↦ ⟨h, trivial⟩

theorem hsetnx_found (key field text : Bytes) (connected : Bool) :
    Accounts.hsetnx connected key field text db = (false, db) ∨
      (Accounts.hsetnx connected key field text db =
        (true, Table.put db key (cstr field) (cstr text)) ∧
        Need.absent.Met (view json db key (cstr field))) := by
  unfold Accounts.hsetnx
  split
  · next h =>
    refine .inr ⟨rfl, ?_⟩
    change (Table.entry db key (cstr field)).map json.read = none
    rw [h.2]
    rfl
  · exact .inl rfl

theorem hdel_found (key field : Bytes) (connected : Bool) :
    Accounts.hdel connected key field db = (false, db) ∨
      (Accounts.hdel connected key field db = (true, Table.drop db key (cstr field)) ∧
        Need.present.Met (view json db key (cstr field))) := by
  unfold Accounts.hdel
  split
  · next h =>
    refine .inr ⟨rfl, ?_⟩
    change ((Table.entry db key (cstr field)).map json.read).isSome
    rw [Option.isSome_map]
    exact h.2
  · exact .inl rfl

theorem view_after {a : After} (ha : a.Harmless) {link : Link} {field key f : Bytes}
    (hkey : key ∉ stateKeys) :
    view json (a.run link field db).1 key f = view json db key f := by
  cases a with
  | nothing => rfl
  | publish message => rfl
  | hdel key' =>
    have hne : key ≠ key' := fun h ↦ hkey (h ▸ ha key' rfl)
    have hdrop : view json (Table.drop db key' (cstr field)) key f = view json db key f := by
      unfold view
      rw [Table.entry_drop, if_neg fun h ↦ hne h.1]
    change view json (link.run (Accounts.hdel · key' field) db).2 key f = _
    obtain ⟨h, -⟩ | h | ⟨-, h, -⟩ := @run_cases db link _ _ _ (@hdel_found D json db key' field)
    all_goals rw [h]
    · exact hdrop
    · exact hdrop

theorem Made.after {db' : Database} {e : Edit D} (h : Made json db db' e) {a : After}
    (ha : a.Harmless) (link : Link)
    (field : Bytes) : Made json db (a.run link field db').1 e := fun key f hkey ↦
  (view_after ha hkey).trans (h key f hkey)

theorem made_put {key field text : Bytes} {doc : D} (hdoc : json.dump doc = some text) :
    Made json db (Table.put db key (cstr field) (cstr text)) ⟨key, cstr field, some doc⟩ :=
      fun key' field' _ ↦ by
  have hread : json.read (cstr text) = doc := by
    unfold JsonLibrary.read
    rw [cstr_cstr, json.parse_dump doc text hdoc]
    rfl
  unfold view Edit.apply
  rw [Table.entry_put]
  split
  · rw [Option.map_some, hread]
  · rfl

theorem made_drop {key field : Bytes} :
    Made json db (Table.drop db key (cstr field)) ⟨key, cstr field, none⟩ := fun key' field' _ ↦ by
  unfold view Edit.apply
  rw [Table.entry_drop]
  split
  · rfl
  · rfl

theorem answer_db (statusCode : ℕ) (members : List (String × Bytes))
    (p : Database × List (Bytes × Bytes)) :
    (answer json statusCode members p).db = p.1 := by
  unfold answer
  cases json.reply members with
  | none => rfl
  | some body => rfl

theorem answer_succeeded {statusCode : ℕ} (hcode : 200 ≤ statusCode ∧ statusCode < 300)
    {members : List (String × Bytes)} (hmembers : ∀ m ∈ members, Utf8.isUtf8 m.2)
    (p : Database × List (Bytes × Bytes)) : (answer json statusCode members p).resp.succeeded := by
  obtain ⟨body, hbody⟩ := Option.isSome_iff_exists.mp (json.reply_isSome members hmembers)
  unfold answer
  rw [hbody]
  exact hcode

/-- The end of every handler that changes the database. -/
theorem ends_command {command : Bool → Database → Bool × Database} {db' : Database} {e : Edit D}
    {need : Need} {asked : Option (Edit D)} (hasked : asked = some e) (hmade : Made json db db' e)
    (hcommand : ∀ connected, command connected db = (false, db) ∨
      (command connected db = (true, db') ∧ need.Met (view json db e.key e.field)))
    {failed done : ℕ} (hfailed : 300 ≤ failed) (hdone : 200 ≤ done ∧ done < 300) (text : String)
    {members : List (String × Bytes)} (hmembers : ∀ m ∈ members, Utf8.isUtf8 m.2)
    {a : After} (ha : a.Harmless) (field : Bytes) :
    Ends json l db need asked
      (match l.command.run command db with
        | (false, db) => refuse db failed text
        | (true, db) => answer json done members (a.run l.after field db)) := by
  obtain ⟨h, hfound⟩ | h | ⟨hlost, h, hfound⟩ := @run_cases db l.command command db' _ hcommand
  · rw [h]
    refine .inl ⟨answer_succeeded hdone hmembers _, e, hasked, hfound, ?_⟩
    dsimp only
    rw [answer_db]
    exact hmade.after ha l.after field
  · rw [h]
    exact ends_refuse hfailed text
  · rw [h]
    exact .inr
      ⟨HttpResponse.not_succeeded_error hfailed text, .inr ⟨hlost, e, hasked, hfound, hmade⟩⟩

theorem firstValue_utf8 {text field : Bytes} {body : D} (hparse : json.parse text = some body)
    (hne : field ≠ []) {names : List String} (h : firstValue json body names = some field) :
    Utf8.isUtf8 field := by
  induction names with
  | nil =>
    cases h
    exact absurd rfl hne
  | cons key names ih =>
    unfold firstValue at h
    split at h
    · cases h
    · exact ih h
    · next hvalue =>
      cases h
      exact json.value_utf8 text body key [] _ hparse hvalue hne

theorem ends_create {key : Bytes} {names : List String} {dress : Bytes → D → Option D}
    {missing conflict : String} {reply : Bytes → List (String × Bytes)} {a : After}
    (hreply : ∀ field, Utf8.isUtf8 field → ∀ m ∈ reply field, Utf8.isUtf8 m.2) (ha : a.Harmless) :
    Ends json l db .absent (askCreate json req key names dress)
      (create json l req db key names dress missing conflict reply a) := by
  unfold create
  cases hbody : json.parse req.body with
  | none => exact ends_refuse (by decide) _
  | some body =>
    dsimp only
    cases hfield : firstValue json body names with
    | none => exact ends_throw
    | some field =>
      dsimp only
      by_cases hne : field = []
      · rw [if_pos hne]
        exact ends_refuse (by decide) _
      · rw [if_neg hne]
        cases htext : (dress field body).bind fun doc ↦ json.dump doc with
        | none => exact ends_throw
        | some text =>
          obtain ⟨doc, hdress, hdump⟩ := Option.bind_eq_some_iff.mp htext
          have hasked : askCreate json req key names dress = some ⟨key, cstr field, some doc⟩ := by
            unfold askCreate
            rw [hbody, Option.bind_some, hfield, Option.bind_some, hdress]
            rfl
          apply ends_command hasked (made_put hdump) (hsetnx_found key field text) (by decide)
            (by decide) conflict (hreply field (firstValue_utf8 hbody hne hfield)) ha

theorem ends_write {asked : Option (Edit D)} {key field : Bytes} {doc : Option D} {a : After}
    (ha : a.Harmless) (hasked : ∀ d, doc = some d → asked = some ⟨key, cstr field, some d⟩) :
    Ends json l db .any asked (write json l db key field doc a) := by
  unfold write
  cases htext : doc.bind fun doc ↦ json.dump doc with
  | none => exact ends_throw
  | some text =>
    obtain ⟨d, hdoc, hdump⟩ := Option.bind_eq_some_iff.mp htext
    apply ends_command (hasked d hdoc) (made_put hdump) (hset_found key field text) (by decide)
      (by decide) "Redis error" (fun m hm ↦ absurd hm List.not_mem_nil) ha

theorem ends_update {key : Bytes} {dress : Bytes → D → Option D} {a : After} (ha : a.Harmless) :
    Ends json l db .any (askUpdate json req key dress) (update json l req db key dress a) := by
  unfold update
  split
  · exact ends_refuse (by decide) _
  · cases hbody : json.parse req.body with
    | none => exact ends_refuse (by decide) _
    | some body =>
      apply ends_write ha
      intro d hd
      unfold askUpdate
      rw [hbody, Option.bind_some, hd]
      rfl

theorem ends_remove {asked : Option (Edit D)} {key field : Bytes} {missing : String} {a : After}
    (ha : a.Harmless) (hasked : asked = some ⟨key, cstr field, none⟩) :
    Ends json l db .present asked (remove json l db key field missing a) := by
  unfold remove
  apply ends_command hasked made_drop (hdel_found key field) (by decide) (by decide) missing
    (fun m hm ↦ absurd hm List.not_mem_nil) ha

theorem ends_delete {key : Bytes} {a : After} (ha : a.Harmless) :
    Ends json l db .present (askDelete req key) (delete json l req db key a) := by
  unfold delete
  split
  · exact ends_refuse (by decide) _
  · exact ends_remove ha rfl

theorem harmless_nothing : After.nothing.Harmless := fun _ h ↦ by cases h

theorem harmless_publish (message : Bytes) : (After.publish message).Harmless :=
  fun _ h ↦ by cases h

theorem harmless_hdel {key : Bytes} (hkey : key ∈ stateKeys) :
    (After.hdel key).Harmless := fun _ h ↦ by
  cases h
  exact hkey

theorem harmless_pull : (After.hdel keyPullState).Harmless := harmless_hdel List.mem_cons_self

theorem harmless_push : (After.hdel keyPushState).Harmless :=
  harmless_hdel (.tail _ List.mem_cons_self)

theorem utf8_single (name : String) (field : Bytes) (h : Utf8.isUtf8 field) :
    ∀ m ∈ [(name, field)], Utf8.isUtf8 m.2 := fun m hm ↦ by
  rw [List.mem_singleton.mp hm]
  exact h

theorem ends_createItem :
    Ends json l db .absent (Call.createItem.asked json req)
      (handleCreateAccessItem json l req db) := by
  unfold handleCreateAccessItem
  split
  · exact ends_refuse (by decide) _
  · exact ends_create (fun _ _ m hm ↦ absurd hm List.not_mem_nil) (harmless_publish _)

theorem ends_updateItem :
    Ends json l db .any (Call.updateItem.asked json req)
      (handleUpdateAccessItem json l req db) := by
  unfold handleUpdateAccessItem Call.asked
  cases hbody : json.parse req.body with
  | none => exact ends_refuse (by decide) _
  | some body =>
    dsimp only
    cases hnames : itemNames json req body mountNames with
    | none => exact ends_throw
    | some p =>
      dsimp only
      split
      · exact ends_refuse (by decide) _
      · apply ends_write (harmless_publish _)
        intro d hd
        rw [Option.bind_some, hnames, Option.bind_some, hd]
        rfl

theorem ends_deleteItem :
    Ends json l db .present (Call.deleteItem.asked json req)
      (handleDeleteAccessItem json l req db) := by
  unfold handleDeleteAccessItem Call.asked
  cases hbody : json.parse req.body with
  | none => exact ends_refuse (by decide) _
  | some body =>
    dsimp only
    cases hnames : itemNames json req body (mountNames ++ ["uid"]) with
    | none => exact ends_throw
    | some p =>
      dsimp only
      split
      · exact ends_refuse (by decide) _
      · apply ends_remove (harmless_publish _)
        rw [Option.bind_some, hnames]
        rfl

theorem asked_deleteGroup : (Call.delete .group).asked json req =
    if isBuiltIn (getResourceId req.toHttpRequest) then none
    else askDelete req keyAccessGroup := rfl

theorem isBuiltIn_of_mem {id : Bytes} (h : id ∈ builtInGroups) : isBuiltIn id = true := by
  obtain rfl | h := List.mem_cons.mp h
  · decide +kernel
  · obtain rfl := List.mem_singleton.mp h
    decide +kernel

theorem ends_deleteGroup :
    Ends json l db .present ((Call.delete .group).asked json req)
      (handleDeleteAccessGroup json l req db) := by
  rw [asked_deleteGroup]
  unfold handleDeleteAccessGroup
  by_cases hid : getResourceId req.toHttpRequest = []
  · rw [if_pos hid]
    exact ends_refuse (by decide) _
  · rw [if_neg hid]
    by_cases hbuiltIn : isBuiltIn (getResourceId req.toHttpRequest) = true
    · rw [if_pos hbuiltIn, if_pos hbuiltIn]
      exact ends_refuse (by decide) _
    · rw [if_neg hbuiltIn, if_neg hbuiltIn]
      exact ends_remove (harmless_publish _) rfl

theorem ends_handle {call : Call} (hcall : ¬ call.reads) :
    Ends json l db call.need (call.asked json req) (call.handle json l req db) := by
  cases call with
  | getAll c => exact absurd trivial hcall
  | getOne c => exact absurd trivial hcall
  | getItems => exact absurd trivial hcall
  | create c =>
    cases c with
    | source => exact ends_create (utf8_single _) harmless_nothing
    | aliasRule => exact ends_create (utf8_single _) (harmless_publish _)
    | group => exact ends_create (utf8_single _) (harmless_publish _)
    | pull => exact ends_create (utf8_single _) harmless_nothing
    | push => exact ends_create (utf8_single _) harmless_nothing
  | update c =>
    cases c with
    | source => exact ends_update harmless_nothing
    | aliasRule => exact ends_update (harmless_publish _)
    | group => exact ends_update (harmless_publish _)
    | pull => exact ends_update harmless_pull
    | push => exact ends_update harmless_push
  | delete c =>
    cases c with
    | source => exact ends_delete harmless_nothing
    | aliasRule => exact ends_delete (harmless_publish _)
    | group => exact ends_deleteGroup
    | pull => exact ends_delete harmless_pull
    | push => exact ends_delete harmless_push
  | createItem => exact ends_createItem
  | updateItem => exact ends_updateItem
  | deleteItem => exact ends_deleteItem

theorem getAll_db (key : Bytes) : (getAll json l db key).db = db := by
  unfold getAll
  split
  · rfl
  · rfl

def shown (json : JsonLibrary D) : Option D → HttpResponse
  | none => .error 404 "Not found"
  | some data =>
    if json.isNull data then .error 404 "Not found"
    else match json.dump data with
      | none => internalError
      | some body => ⟨200, body⟩

theorem getOne_eq (key : Bytes) (hid : getResourceId req.toHttpRequest ≠ []) :
    getOne json l req db key =
      ⟨shown json (hget json db l.command key (getResourceId req.toHttpRequest)), db, []⟩ := by
  unfold getOne shown
  rw [if_neg hid]
  cases hget json db l.command key (getResourceId req.toHttpRequest) with
  | none => rfl
  | some data =>
    dsimp only
    split
    · rfl
    · cases json.dump data with
      | none => rfl
      | some body => rfl

theorem getOne_db (key : Bytes) : (getOne json l req db key).db = db := by
  by_cases hid : getResourceId req.toHttpRequest = []
  · unfold getOne
    rw [if_pos hid]
    rfl
  · rw [getOne_eq key hid]

theorem reads_handle {call : Call} (hcall : call.reads) : (call.handle json l req db).db = db := by
  cases call with
  | getAll c => cases c <;> exact getAll_db _
  | getOne c => cases c <;> exact getOne_db _
  | getItems =>
    change (handleGetAccessItems json l req db).db = db
    unfold handleGetAccessItems
    split
    · rfl
    · exact getAll_db _
  | create c => exact hcall.elim
  | update c => exact hcall.elim
  | delete c => exact hcall.elim
  | createItem => exact hcall.elim
  | updateItem => exact hcall.elim
  | deleteItem => exact hcall.elim

theorem not_state :
    ∀ key ∈ [keySourceRecord, keyAliasRule, keyAccessGroup, keyPullRecord, keyPushRecord],
    key ∉ stateKeys := by decide +kernel

theorem Collection.key_not_state (c : Collection) : c.key ∉ stateKeys := by
  apply not_state
  cases c <;> simp [Collection.key]

theorem not_group : ∀ key ∈ [keySourceRecord, keyAliasRule, keyPullRecord, keyPushRecord],
    key ≠ keyAccessGroup := by decide +kernel

theorem Collection.eq_group {c : Collection} (h : c.key = keyAccessGroup) : c = .group := by
  cases c with
  | source => exact absurd h (not_group _ (by simp [Collection.key]))
  | aliasRule => exact absurd h (not_group _ (by simp [Collection.key]))
  | group => rfl
  | pull => exact absurd h (not_group _ (by simp [Collection.key]))
  | push => exact absurd h (not_group _ (by simp [Collection.key]))

theorem itemKey_take (groupUid : Bytes) : (itemKey groupUid).take 8 = keyAccessItem.take 8 := by
  have hcut : itemKey groupUid = keyAccessItem ++ cstr (ascii ":" ++ groupUid) := by
    unfold itemKey cstr
    rw [List.append_assoc, List.takeWhile_append_of_pos]
    decide +kernel
  rw [hcut, List.take_append_of_le_length (by decide +kernel)]

theorem not_item : ∀ key ∈ keyAccessGroup :: stateKeys, keyAccessItem.take 8 ≠ key.take 8 :=
  by decide +kernel

theorem itemKey_ne (groupUid : Bytes) : itemKey groupUid ≠ keyAccessGroup := fun h ↦
  not_item keyAccessGroup List.mem_cons_self ((itemKey_take groupUid).symm.trans (congrArg _ h))

theorem itemKey_not_state (groupUid : Bytes) : itemKey groupUid ∉ stateKeys := fun h ↦
  not_item _ (.tail _ h) (itemKey_take groupUid).symm

theorem askCreate_some {key : Bytes} {names : List String} {dress : Bytes → D → Option D}
    {e : Edit D} (h : askCreate json req key names dress = some e) :
    ∃ body field doc, dress field body = some doc ∧ e = ⟨key, cstr field, some doc⟩ := by
  obtain ⟨body, -, h⟩ := Option.bind_eq_some_iff.mp h
  obtain ⟨field, -, h⟩ := Option.bind_eq_some_iff.mp h
  obtain ⟨doc, hdoc, rfl⟩ := Option.map_eq_some_iff.mp h
  exact ⟨body, field, doc, hdoc, rfl⟩

theorem askUpdate_some {key : Bytes} {dress : Bytes → D → Option D} {e : Edit D}
    (h : askUpdate json req key dress = some e) :
    ∃ body field doc, dress field body = some doc ∧ e = ⟨key, cstr field, some doc⟩ := by
  obtain ⟨body, -, h⟩ := Option.bind_eq_some_iff.mp h
  obtain ⟨doc, hdoc, rfl⟩ := Option.map_eq_some_iff.mp h
  exact ⟨body, _, doc, hdoc, rfl⟩

theorem cstr_getResourceId (req : Request) :
    cstr (getResourceId req.toHttpRequest) = getResourceId req.toHttpRequest := by
  have hnul : 0 ∉ getResourceId req.toHttpRequest := by
    unfold getResourceId
    cases hlast : req.pathSegments.getLast? with
    | none => exact List.not_mem_nil
    | some seg => exact req.noNul seg (List.mem_of_getLast? hlast)
  apply List.takeWhile_eq_self_iff.mpr
  intro b hb
  simpa using fun h : b = 0 ↦ hnul (h ▸ hb)

variable (json) in
/-- The document carries the name under which it is stored, which ends at a NUL. -/
def Named (field : Bytes) (doc : D) : Prop :=
  ∃ uid, json.value "uid" [] doc = some uid ∧ cstr uid = field

variable (json) in
def GroupEdit (e : Edit D) : Prop :=
  (∃ doc, e.info = some doc ∧ Named json e.field doc) ∨ (e.info = none ∧ e.field ∉ builtInGroups)

theorem groupEdit_setUid {field : Bytes} {body doc : D} {e : Edit D}
    (hdoc : setUid json field body = some doc)
    (he : e = ⟨keyAccessGroup, cstr field, some doc⟩) : GroupEdit json e := by
  subst he
  exact .inl ⟨doc, rfl, field, json.value_set "uid" field body doc hdoc [], rfl⟩

theorem asked_cases {call : Call} {e : Edit D} (h : call.asked json req = some e) :
    (∃ c : Collection, e.key = c.key ∧ (c = .group → GroupEdit json e)) ∨
      ∃ groupUid, e.key = itemKey groupUid := by
  have hcreate (c : Collection) (hc : c ≠ .group) {names : List String}
      {dress : Bytes → D → Option D}
      (h : askCreate json req c.key names dress = some e) :
      ∃ c : Collection, e.key = c.key ∧ (c = .group → GroupEdit json e) := by
    obtain ⟨-, field, doc, -, rfl⟩ := askCreate_some h
    exact ⟨c, rfl, fun hgroup ↦ absurd hgroup hc⟩
  have hupdate (c : Collection) (hc : c ≠ .group) {dress : Bytes → D → Option D}
      (h : askUpdate json req c.key dress = some e) :
      ∃ c : Collection, e.key = c.key ∧ (c = .group → GroupEdit json e) := by
    obtain ⟨-, field, doc, -, rfl⟩ := askUpdate_some h
    exact ⟨c, rfl, fun hgroup ↦ absurd hgroup hc⟩
  have hdelete (c : Collection) (hc : c ≠ .group) (h : askDelete req c.key = some e) :
      ∃ c : Collection, e.key = c.key ∧ (c = .group → GroupEdit json e) := by
    cases h
    exact ⟨c, rfl, fun hgroup ↦ absurd hgroup hc⟩
  cases call with
  | getAll c => cases h
  | getOne c => cases h
  | getItems => cases h
  | create c =>
    apply Or.inl
    cases c with
    | source => exact hcreate .source Collection.noConfusion h
    | aliasRule => exact hcreate .aliasRule Collection.noConfusion h
    | group =>
      obtain ⟨body, field, doc, hdoc, he⟩ := askCreate_some h
      exact ⟨.group, congrArg Edit.key he, fun _ ↦ groupEdit_setUid hdoc he⟩
    | pull => exact hcreate .pull Collection.noConfusion h
    | push => exact hcreate .push Collection.noConfusion h
  | update c =>
    apply Or.inl
    cases c with
    | source => exact hupdate .source Collection.noConfusion h
    | aliasRule => exact hupdate .aliasRule Collection.noConfusion h
    | group =>
      obtain ⟨body, field, doc, hdoc, he⟩ := askUpdate_some h
      exact ⟨.group, congrArg Edit.key he, fun _ ↦ groupEdit_setUid hdoc he⟩
    | pull => exact hupdate .pull Collection.noConfusion h
    | push => exact hupdate .push Collection.noConfusion h
  | delete c =>
    apply Or.inl
    cases c with
    | source => exact hdelete .source Collection.noConfusion h
    | aliasRule => exact hdelete .aliasRule Collection.noConfusion h
    | group =>
      rw [asked_deleteGroup] at h
      split at h
      · cases h
      · next hid =>
        cases h
        refine ⟨.group, rfl, fun _ ↦ .inr ⟨rfl, ?_⟩⟩
        rw [cstr_getResourceId]
        exact fun hmem ↦ hid (isBuiltIn_of_mem hmem)
    | pull => exact hdelete .pull Collection.noConfusion h
    | push => exact hdelete .push Collection.noConfusion h
  | createItem =>
    obtain ⟨-, field, doc, -, rfl⟩ := askCreate_some h
    exact .inr ⟨_, rfl⟩
  | updateItem =>
    obtain ⟨body, -, h⟩ := Option.bind_eq_some_iff.mp h
    obtain ⟨p, -, h⟩ := Option.bind_eq_some_iff.mp h
    obtain ⟨doc, -, rfl⟩ := Option.map_eq_some_iff.mp h
    exact .inr ⟨p.1, rfl⟩
  | deleteItem =>
    obtain ⟨body, -, h⟩ := Option.bind_eq_some_iff.mp h
    obtain ⟨p, -, rfl⟩ := Option.map_eq_some_iff.mp h
    exact .inr ⟨p.1, rfl⟩

theorem asked_not_state {call : Call} {e : Edit D} (h : call.asked json req = some e) :
    e.key ∉ stateKeys := by
  obtain ⟨c, hkey, -⟩ | ⟨groupUid, hkey⟩ := asked_cases h
  · rw [hkey]
    exact c.key_not_state
  · rw [hkey]
    exact itemKey_not_state groupUid

theorem asked_group {call : Call} {e : Edit D} (hasked : call.asked json req = some e)
    (hkey : e.key = keyAccessGroup) : GroupEdit json e := by
  obtain ⟨c, hc, hgroup⟩ | ⟨groupUid, hitem⟩ := asked_cases hasked
  · exact hgroup (Collection.eq_group (hc.symm.trans hkey))
  · exact absurd (hitem.symm.trans hkey) (itemKey_ne groupUid)

/-- A request, or what the start and the stop of a relay write into its record. -/
inductive Action
  | request (call : Call) (req : Request) (l : Links)
  | relay (push : Bool) (field text : Bytes)

def relayKey (push : Bool) : Bytes := if push then keyPushRecord else keyPullRecord

abbrev Turn := Action × Option HttpResponse

variable (json)

def step (db : Database) : Action → Option HttpResponse × Database
  | .request call req l =>
    let r := call.handle json l req db
    (some r.resp, r.db)
  | .relay push field text => (none, Table.put db (relayKey push) field text)

def play (db : Database) : List Action → List Turn × Database
  | [] => ([], db)
  | a :: as =>
    let p := step json db a
    let q := play p.2 as
    ((a, p.1) :: q.1, q.2)

/-- The edits that are made in the turns, in their order: those of the requests that succeeded,
which found what they need, none of the requests that failed, unless the answer of the database was
lost, and those of the relays. -/
inductive Accounted : (Bytes → Bytes → Option D) → List Turn → List (Edit D) → Prop
  | nil {docs} : Accounted docs [] []
  | read {docs call req l resp turns made} (hcall : call.reads)
      (hrest : Accounted docs turns made) :
      Accounted docs ((.request call req l, some resp) :: turns) made
  | accepted {docs call req l resp turns e made} (hresp : resp.succeeded)
      (hasked : call.asked json req = some e)
      (hneed : call.need.Met (docs e.key e.field)) (hrest : Accounted (e.apply docs) turns made) :
      Accounted docs ((.request call req l, some resp) :: turns) (e :: made)
  | refused {docs call req l resp turns made} (hresp : ¬ resp.succeeded)
      (hrest : Accounted docs turns made) :
      Accounted docs ((.request call req l, some resp) :: turns) made
  | lost {docs call req l resp turns e made} (hresp : ¬ resp.succeeded) (hlink : l.command = .lost)
      (hasked : call.asked json req = some e) (hneed : call.need.Met (docs e.key e.field))
      (hrest : Accounted (e.apply docs) turns made) :
      Accounted docs ((.request call req l, some resp) :: turns) (e :: made)
  | relay {docs push field text turns made}
      (hrest :
        Accounted (Edit.apply docs ⟨relayKey push, field, some (json.read text)⟩) turns made) :
      Accounted docs ((.relay push field text, none) :: turns)
        (⟨relayKey push, field, some (json.read text)⟩ :: made)

variable {json}

def Agree (docs docs' : Bytes → Bytes → Option D) : Prop :=
  ∀ key field, key ∉ stateKeys → docs key field = docs' key field

theorem Agree.apply {docs docs' : Bytes → Bytes → Option D} (h : Agree docs docs') (e : Edit D) :
    Agree (e.apply docs) (e.apply docs') := fun key field hkey ↦ by
  unfold Edit.apply
  rw [h key field hkey]

theorem Accounted.congr {docs docs' : Bytes → Bytes → Option D} {turns : List Turn}
    {made : List (Edit D)} (h : Accounted json docs turns made) (hdocs : Agree docs docs') :
    Accounted json docs' turns made := by
  induction h generalizing docs' with
  | nil => exact .nil
  | read hcall _ ih => exact .read hcall (ih hdocs)
  | accepted hresp hasked hneed _ ih =>
    rw [hdocs _ _ (asked_not_state hasked)] at hneed
    exact .accepted hresp hasked hneed (ih (hdocs.apply _))
  | refused hresp _ ih => exact .refused hresp (ih hdocs)
  | lost hresp hlink hasked hneed _ ih =>
    rw [hdocs _ _ (asked_not_state hasked)] at hneed
    exact .lost hresp hlink hasked hneed (ih (hdocs.apply _))
  | relay _ ih => exact .relay (ih (hdocs.apply _))

theorem replay_congr {docs docs' : Bytes → Bytes → Option D} {key field : Bytes}
    (edits : List (Edit D)) (h : docs key field = docs' key field) :
    replay edits docs key field = replay edits docs' key field := by
  induction edits generalizing docs docs' with
  | nil => exact h
  | cons e edits ih =>
    apply ih
    unfold Edit.apply
    rw [h]

theorem made_relay (push : Bool) (field text : Bytes) :
    Made json db (Table.put db (relayKey push) field text)
    ⟨relayKey push, field, some (json.read text)⟩ := fun key f _ ↦ by
  unfold view Edit.apply
  rw [Table.entry_put]
  split
  · rfl
  · rfl

theorem exists_accounted (as : List Action) (db : Database) :
    ∃ made, Accounted json (view json db) (play json db as).1 made ∧
      Agree (view json (play json db as).2) (replay made (view json db)) := by
  induction as generalizing db with
  | nil => exact ⟨[], .nil, fun _ _ _ ↦ rfl⟩
  | cons a as ih =>
    obtain ⟨made, hmade, hview⟩ := ih (step json db a).2
    have hedit {e : Edit D} (he : Made json db (step json db a).2 e) :
        Agree (view json (play json db (a :: as)).2) (replay (e :: made) (view json db)) :=
      fun key field hkey ↦ (hview key field hkey).trans (replay_congr made (he key field hkey))
    cases a with
    | relay push field text =>
      have he := @made_relay D json db push field text
      exact ⟨_, .relay (hmade.congr he), hedit he⟩
    | request call req l =>
      have hsame (hdb : (call.handle json l req db).db = db) :
          view json (step json db (.request call req l)).2 = view json db :=
            congrArg (view json) hdb
      by_cases hcall : call.reads
      · have hdocs := hsame (reads_handle hcall)
        rw [hdocs] at hmade hview
        exact ⟨made, .read hcall hmade, hview⟩
      · obtain ⟨hresp, e, hasked, hneed, he⟩ | ⟨hresp, hdb | ⟨hlink, e, hasked, hneed, he⟩⟩ :=
          @ends_handle D json l req db call hcall
        · exact ⟨e :: made, .accepted hresp hasked hneed (hmade.congr he), hedit he⟩
        · have hdocs := hsame hdb
          rw [hdocs] at hmade hview
          exact ⟨made, .refused hresp hmade, hview⟩
        · exact ⟨e :: made, .lost hresp hlink hasked hneed (hmade.congr he), hedit he⟩

theorem getOne_handle (c : Collection) :
    (Call.getOne c).handle json l req db = getOne json l req db c.key := by
  cases c <;> rfl

/-- After any run, whatever commands fail or lose their answers in it, the hashes hold what the
accounted edits leave, and a request for a document shows it. -/
theorem accepted_is_stored (json : JsonLibrary D) (db : Database) (as : List Action) :
    ∃ made, Accounted json (view json db) (play json db as).1 made ∧
      Agree (view json (play json db as).2) (replay made (view json db)) ∧
      ∀ c req after, getResourceId req.toHttpRequest ≠ [] →
        ((Call.getOne c).handle json ⟨.up, after⟩ req (play json db as).2).resp =
          shown json
            (replay made (view json db) c.key (cstr (getResourceId req.toHttpRequest))) := by
  obtain ⟨made, hmade, hview⟩ := @exists_accounted D json as db
  refine ⟨made, hmade, hview, fun c req after hid ↦ ?_⟩
  rw [getOne_handle, getOne_eq c.key hid, ← hview c.key _ c.key_not_state]
  rfl

/-- A value without numbers and lists. -/
inductive Plain
  | null
  | text (s : Bytes)
  | object (members : List (String × Bytes))
  deriving DecidableEq

def sourceText : Bytes := ascii "\x7b\"mountpoint\":\"A\"\x7d"

def source : Plain := .object [("mountpoint", ascii "A")]

def groupText : Bytes := ascii "\x7b\"uid\":\"SYSTEM\"\x7d"

def group : Plain := .object [("uid", ascii "SYSTEM")]

def documents : List (Bytes × Plain) := [(sourceText, source), (groupText, group)]

def Plain.members : Plain → List (String × Bytes)
  | object members => members
  | _ => []

theorem documents_lookup : ∀ p ∈ documents, documents.lookup (cstr p.1) = some p.2 :=
  by decide +kernel

theorem documents_utf8 : ∀ p ∈ documents, ∀ m ∈ p.2.members, Utf8.isUtf8 m.2 := by decide +kernel

theorem mem_of_lookup {A B : Type} [BEq A] [LawfulBEq A] {l : List (A × B)} {k : A} {b : B}
    (h : l.lookup k = some b) : (k, b) ∈ l := by
  obtain ⟨l₁, l₂, heq, _⟩ := List.lookup_eq_some_iff.1 h
  rw [heq]
  exact List.mem_append_right _ (List.mem_cons_self ..)

def plainLibrary : JsonLibrary Plain where
  parse text := documents.lookup text
  dump d := (documents.find? (·.2 = d)).map Prod.fst
  isNull d := d = .null
  ofString := .text
  ofTrue := .text (ascii "true")
  value key default
    | .object members => some ((members.lookup key).getD default)
    | _ => none
  contains key
    | .object members => (members.lookup key).isSome
    | _ => false
  set key v d :=
    match v, d with
    | .text s, .object members => some (.object ((key, s) :: members.filter (·.1 ≠ key)))
    | .text s, .null => some (.object [(key, s)])
    | _, _ => none
  reply members := some (ascii "\x7b" ++
    members.flatMap (fun m ↦ ascii "\"" ++ ascii m.1 ++ ascii "\":\"" ++ m.2 ++ ascii "\",") ++
    ascii "\"ok\":true\x7d")
  listing _ := none
  parse_dump d text h := by
    obtain ⟨p, hfind, rfl⟩ := Option.map_eq_some_iff.1 h
    have hdoc := List.find?_some hfind
    rw [← of_decide_eq_true hdoc]
    exact documents_lookup p (List.mem_of_find?_eq_some hfind)
  value_set key s d d' h default := by
    cases d with
    | null =>
      cases h
      simp
    | text t => cases h
    | object members =>
      cases h
      simp
  value_utf8 text d key default s hparse hvalue hne := by
    cases d with
    | object members =>
      have hs : (members.lookup key).getD default = s := Option.some.inj hvalue
      cases hkey : members.lookup key with
      | none =>
        rw [hkey] at hs
        exact absurd hs.symm hne
      | some s' =>
        rw [hkey] at hs
        rw [← hs]
        exact documents_utf8 _ (mem_of_lookup hparse) _ (mem_of_lookup hkey)
    | null => cases hvalue
    | text t => cases hvalue
  reply_isSome _ _ := rfl

def creation : Action :=
  .request (.create .source) ⟨⟨[ascii "api", ascii "sources"], sourceText⟩, by decide +kernel⟩
    ⟨.up, .up⟩

theorem creation_is_stored :
    ((play plainLibrary ∅ [creation]).1.map fun t ↦ t.2.map (·.statusCode)) = [some 201] ∧
    ∃ made, Accounted plainLibrary (view plainLibrary ∅) (play plainLibrary ∅ [creation]).1 made ∧
      Agree (view plainLibrary (play plainLibrary ∅ [creation]).2)
        (replay made (view plainLibrary ∅)) ∧
      ∀ c req after, getResourceId req.toHttpRequest ≠ [] →
        ((Call.getOne c).handle plainLibrary ⟨.up, after⟩ req
          (play plainLibrary ∅ [creation]).2).resp =
          shown plainLibrary
            (replay made (view plainLibrary ∅) c.key (cstr (getResourceId req.toHttpRequest))) :=
  ⟨by decide +kernel, accepted_is_stored plainLibrary ∅ [creation]⟩

variable (json) in
structure Kept (docs docs' : Bytes → Option D) : Prop where
  builtIn : ∀ field ∈ builtInGroups, (docs field).isSome → (docs' field).isSome
  named : ∀ field doc, docs' field = some doc → docs field = some doc ∨ Named json field doc

theorem Kept.refl (docs : Bytes → Option D) : Kept json docs docs :=
  ⟨fun _ _ h ↦ h, fun _ _ h ↦ .inl h⟩

theorem Kept.trans {docs docs' docs'' : Bytes → Option D} (h : Kept json docs docs')
    (h' : Kept json docs' docs'') :
    Kept json docs docs'' where
  builtIn field hfield hsome := h'.builtIn field hfield (h.builtIn field hfield hsome)
  named field doc hdoc := (h'.named field doc hdoc).elim (h.named field doc) .inr

theorem Made.kept {db' : Database} {e : Edit D} (h : Made json db db' e)
    (he : e.key = keyAccessGroup → GroupEdit json e) :
    Kept json (view json db keyAccessGroup) (view json db' keyAccessGroup) := by
  have hview (field : Bytes) :
      view json db' keyAccessGroup field = e.apply (view json db) keyAccessGroup field :=
    h keyAccessGroup field (not_state _ (by simp))
  unfold Edit.apply at hview
  constructor
  · intro field hfield hsome
    rw [hview]
    split
    · next hedit =>
      obtain ⟨doc, hinfo, -⟩ | ⟨-, hnot⟩ := he hedit.1.symm
      · rw [hinfo]
        rfl
      · exact absurd (hedit.2 ▸ hfield) hnot
    · exact hsome
  · intro field doc hdoc
    rw [hview] at hdoc
    split at hdoc
    · next hedit =>
      obtain ⟨doc', hinfo, hnamed⟩ | ⟨hinfo, -⟩ := he hedit.1.symm
      · cases hinfo.symm.trans hdoc
        exact .inr (hedit.2 ▸ hnamed)
      · cases hinfo.symm.trans hdoc
    · exact .inl hdoc

theorem kept_step (db : Database) (a : Action) :
    Kept json (view json db keyAccessGroup) (view json (step json db a).2 keyAccessGroup) := by
  cases a with
  | relay push field text =>
    apply (made_relay push field text).kept
    intro hkey
    cases push with
    | true => exact absurd hkey (not_group _ (by simp [relayKey]))
    | false => exact absurd hkey (not_group _ (by simp [relayKey]))
  | request call req l =>
    have hsame {db' : Database} (hdb : db' = db) :
        Kept json (view json db keyAccessGroup) (view json db' keyAccessGroup) := hdb ▸ .refl _
    by_cases hcall : call.reads
    · exact hsame (reads_handle hcall)
    · obtain ⟨-, e, hasked, -, he⟩ | ⟨-, hdb | ⟨-, e, hasked, -, he⟩⟩ :=
        @ends_handle D json l req db call hcall
      · exact he.kept (asked_group hasked)
      · exact hsame hdb
      · exact he.kept (asked_group hasked)

theorem kept_play (as : List Action) (db : Database) :
    Kept json (view json db keyAccessGroup) (view json (play json db as).2 keyAccessGroup) := by
  induction as generalizing db with
  | nil => exact .refl _
  | cons a as ih => exact (kept_step db a).trans (ih _)

/-- Whatever is asked and whatever fails, a built-in group that is there stays, and every group that
is written carries its own name. -/
theorem groups_keep_their_names (json : JsonLibrary D) (db : Database) (as : List Action) :
    (∀ field ∈ builtInGroups, (view json db keyAccessGroup field).isSome →
      (view json (play json db as).2 keyAccessGroup field).isSome) ∧
    ∀ field doc, view json (play json db as).2 keyAccessGroup field = some doc →
      view json db keyAccessGroup field = some doc ∨ Named json field doc :=
  ⟨(kept_play as db).builtIn, (kept_play as db).named⟩

def groupCreation : Action :=
  .request (.create .group)
    ⟨⟨[ascii "api", ascii "access", ascii "groups"], groupText⟩, by decide +kernel⟩
    ⟨.up, .up⟩

def groupDeletion : Action :=
  .request (.delete .group)
    ⟨⟨[ascii "api", ascii "access", ascii "groups", ascii "SYSTEM"], []⟩, by decide +kernel⟩
      ⟨.up, .up⟩

theorem groups_keep_their_names_created :
    let db := (play plainLibrary ∅ [groupCreation]).2
    view plainLibrary db keyAccessGroup (ascii "SYSTEM") = some group ∧
      ((play plainLibrary db [groupDeletion]).1.map fun t ↦ t.2.map (·.statusCode)) = [some 403] ∧
      (∀ field ∈ builtInGroups, (view plainLibrary db keyAccessGroup field).isSome →
        (view plainLibrary (play plainLibrary db [groupDeletion]).2 keyAccessGroup field).isSome) ∧
      ∀ field doc, view plainLibrary db keyAccessGroup field = some doc →
        view plainLibrary ∅ keyAccessGroup field = some doc ∨ Named plainLibrary field doc :=
  ⟨by decide +kernel, by decide +kernel, (groups_keep_their_names plainLibrary _ [groupDeletion]).1,
    (groups_keep_their_names plainLibrary ∅ [groupCreation]).2⟩

end NavCaster.Http.Store
