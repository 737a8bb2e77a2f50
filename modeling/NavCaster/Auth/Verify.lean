import NavCaster.Auth.Account
import NavCaster.Library.Multimap
import NavCaster.Library.Table
import NavCaster.Library.Utf8

namespace NavCaster.Auth.Verify

open NavCaster.Library
open NavCaster.Library.Strto (Bytes Exn stol)
open NavCaster.Library.Scan NavCaster.Library.Utf8
open NavCaster.Auth.Account

instance : LawfulBEq Bytes := inferInstance

inductive AuthType
  | unknown | server | client | source
  deriving DecidableEq

inductive AuthReply
  | err | ok | active | inactive | string | integer | double | nil
  deriving DecidableEq

inductive AuthBroadcastType
  | unknown | accountStatusUpdate | accountActive | accountInactive
  | unnamedStatusUpdate | unnamedActive | unnamedInactive
  deriving DecidableEq

structure AuthOpt where
  serverAnonymousLogin : Bool
  serverOnlineProtection : Bool
  clientAnonymousLogin : Bool
  clientOnlineProtection : Bool
  sourceAnonymousLogin : Bool

namespace AuthOpt

variable (opt : AuthOpt)

def verifiesAnonymous : AuthType → Bool
  | .server => opt.serverAnonymousLogin
  | .client => opt.clientAnonymousLogin
  | .source => opt.sourceAnonymousLogin
  | .unknown => false

def recordsAnonymous : AuthType → Bool
  | .server => opt.serverAnonymousLogin
  | .client => opt.clientAnonymousLogin
  | _ => false

def protects : AuthType → Bool
  | .server => opt.serverOnlineProtection
  | .client => opt.clientOnlineProtection
  | _ => false

end AuthOpt

inductive Realm
  | registered | unnamed
  deriving DecidableEq

def AuthOpt.realm (opt : AuthOpt) (type : AuthType) : Realm :=
  if opt.recordsAnonymous type then .unnamed else .registered

structure AuthCbItem (K A : Type) where
  connectKey : K
  userName : K
  arg : A

structure AuthCtx (K A : Type) where
  type : AuthType
  userName : K
  userPwd : Bytes
  connectKey : K
  arg : A

structure AuthBroadcastItem where
  type : AuthBroadcastType
  connectKey : Bytes
  channel : Bytes
  para : Bytes
  status : AuthReply
  reason : Bytes
  deriving DecidableEq

inductive AuthCommand (K A : Type)
  | hsetUnnamed (ctx : AuthCtx K A)
  | hgetActive (ctx : AuthCtx K A)
  | hsetexRecord (r : Realm) (userName connectKey : K)
  | hgetallRecord (r : Realm) (ctx : AuthCtx K A)
  | hexpireRecord (r : Realm) (userName connectKey : K)
  | hdelRecord (r : Realm) (userName connectKey : K)

structure Logins (K A : Type) where
  registerMap : Realm → Table K (Table K (AuthCbItem K A)) := fun _ ↦ ∅
  limitMap : Realm → Table K AuthLimit := fun _ ↦ ∅
  registerStatusMap : Table K Unit := ∅

structure AuthCall (A : Type) where
  arg : A
  type : AuthReply
  str : Bytes
  groupUid : Bytes := []
  deriving DecidableEq

variable {K A : Type} [DecidableEq K]

def Logins.setRegisterMap (s : Logins K A) (r : Realm) (m : Table K (Table K (AuthCbItem K A))) :
    Logins K A :=
  { s with registerMap := Function.update s.registerMap r m }

def Logins.setLimitMap (s : Logins K A) (r : Realm) (m : Table K AuthLimit) : Logins K A :=
  { s with limitMap := Function.update s.limitMap r m }

def Logins.entry (s : Logins K A) (r : Realm) (userName connectKey : K) : Option (AuthCbItem K A) :=
  Table.entry (s.registerMap r) userName connectKey

def verify (opt : AuthOpt) (ctx : AuthCtx K A) : AuthCommand K A :=
  if opt.verifiesAnonymous ctx.type then .hsetUnnamed ctx else .hgetActive ctx

/-- The callback is entered before the answer is known. -/
def addLoginRecord (opt : AuthOpt) (ctx : AuthCtx K A) (s : Logins K A) :
    Logins K A × List (AuthCommand K A) :=
  let r := opt.realm ctx.type
  let item : AuthCbItem K A := ⟨ctx.connectKey, ctx.userName, ctx.arg⟩
  ({ s.setRegisterMap r (Table.putNew (s.registerMap r) ctx.userName ctx.connectKey item) with
      registerStatusMap := Table.insertNew s.registerStatusMap ctx.connectKey () },
    [.hsetexRecord r ctx.userName ctx.connectKey, .hgetallRecord r ctx])

def addLogoutRecord (opt : AuthOpt) (userName connectKey : K) (type : AuthType) (s : Logins K A) :
    Nat × Logins K A × List (AuthCommand K A) :=
  let r := opt.realm type
  match (s.registerMap r).lookup userName with
  | none => (1, s, [])
  | some row =>
    if connectKey ∈ row then
      let s' := s.setRegisterMap r (Table.drop (s.registerMap r) userName connectKey)
      let sent := [.hdelRecord r userName connectKey]
      if connectKey ∈ s.registerStatusMap then
        (0, { s' with registerStatusMap := s.registerStatusMap.erase connectKey }, sent)
      else (3, s', sent)
    else (2, s, [])

def renewals (r : Realm) (s : Logins K A) : List (AuthCommand K A) :=
  (Table.toPairs (s.registerMap r)).flatMap fun row ↦
    (Table.toPairs row.2).map fun e ↦ .hexpireRecord r e.2.userName e.2.connectKey

def uploadRecordItem (s : Logins K A) : List (AuthCommand K A) :=
  renewals .registered s ++ renewals .unnamed s

/-- A reply of Redis, with its texts up to their first NUL; only an array has elements. -/
inductive RedisReply
  | nil
  | error
  | status
  | integer
  | string (s : Bytes)
  | array (fields : List (Bytes × Bytes))

def RedisReply.elements : RedisReply → List (Bytes × Bytes)
  | array fields => fields
  | _ => []

/-- What a handler does: it reads what is not there, an exception leaves it, or it returns, with
what it has called back and published. -/
inductive Handled (A : Type)
  | undefined
  | throws
  | done (s : Logins Bytes A) (calls : List (AuthCall A)) (sent : List AuthBroadcastItem)

/-- `none` where the text cannot be written as JSON. -/
def sendChangeAuthStatus (userName connectKey : Bytes) (status : AuthReply) (reason : Bytes) :
    Option AuthBroadcastItem :=
  if isUtf8 userName ∧ isUtf8 connectKey ∧ isUtf8 reason then
    some
      { type := .accountStatusUpdate
        connectKey
        channel := userName
        para := []
        status
        reason }
  else none

def AuthBroadcastType.realm : AuthBroadcastType → Option Realm
  | accountStatusUpdate => some .registered
  | unnamedStatusUpdate => some .unnamed
  | _ => none

/-- A broadcast without a connection is for all connections of the user. -/
def broadcastResponse (req : AuthBroadcastItem) (s : Logins Bytes A) : Nat × List (AuthCall A) :=
  match req.type.realm with
  | none => (1, [])
  | some r =>
    match (s.registerMap r).lookup req.channel with
    | none => (2, [])
    | some row =>
      if req.connectKey = [] then
        (0, (Table.toPairs row).map fun e ↦ ⟨e.2.arg, req.status, req.reason, []⟩)
      else match row.lookup req.connectKey with
        | none => (3, [])
        | some item => (0, [⟨item.arg, req.status, req.reason, []⟩])

theorem mem_broadcastResponse {req : AuthBroadcastItem} {call : AuthCall A} {s : Logins Bytes A}
    (h : call ∈ (broadcastResponse req s).2) :
    ∃ r connectKey item, req.type.realm = some r ∧
      s.entry r req.channel connectKey = some item ∧ call.arg = item.arg := by
  unfold broadcastResponse at h
  split at h
  · cases h
  · next r hr =>
    split at h
    · cases h
    · next row hrow =>
      have hentry : ∀ k, s.entry r req.channel k = row.lookup k := fun k ↦ by
        unfold Logins.entry Table.entry
        rw [hrow, Option.bind_some]
      split at h
      · obtain ⟨e, he, rfl⟩ := List.mem_map.mp h
        exact ⟨r, e.1, e.2, hr, (hentry e.1).trans (Table.mem_toPairs.mp he), rfl⟩
      · split at h
        · cases h
        · next item hitem =>
          cases List.mem_singleton.mp h
          exact ⟨r, req.connectKey, item, hr, (hentry req.connectKey).trans hitem, rfl⟩

def redisAddTempCallback (ctx : AuthCtx Bytes A) (_reply : Option RedisReply) (s : Logins Bytes A) :
    Handled A :=
  let limits := Table.insertNew (s.limitMap .unnamed) ctx.userName { connectLimit := 9999 }
  .done (s.setLimitMap .unnamed limits) [⟨ctx.arg, .ok, [], ascii "default"⟩] []

def userNotActive : Bytes := ascii "User Not active or existed!"

def userPasswordError : Bytes := ascii "User Password Error!"

/-- `parse` is the JSON parser, whose exceptions are not caught. -/
def redisVerifyCallback (parse : Bytes → Option Json) (ctx : AuthCtx Bytes A)
    (reply : Option RedisReply) (s : Logins Bytes A) : Handled A :=
  match reply with
  | some .nil => .done s [⟨ctx.arg, .err, userNotActive, []⟩] []
  | some (.string str) =>
    match parse str with
    | none => .throws
    | some info =>
      let limit := (AuthLimit.fromString info).1
      if limit.password ≠ ctx.userPwd then .done s [⟨ctx.arg, .err, userPasswordError, []⟩] []
      else
        .done (s.setLimitMap .registered ((s.limitMap .registered).insert ctx.userName limit))
          [⟨ctx.arg, .ok, [], normalizeGroupUid limit.group⟩] []
  | _ => .done s [] []

abbrev Record := Int × Bytes

/-- The conversions are made outside of the `try`. -/
def readRecords (fields : List (Bytes × Bytes)) : Except Exn (List Record) :=
  fields.mapM fun e ↦ do return (← stol e.2, e.1)

def upperLimit : Bytes := ascii "User Connects Upper Limit , kick out this Connect!"

def cantFindRecord : Bytes := ascii "Can't Find Recored"

def cantFindActiveInfo : Bytes := ascii "Can't Find User Active Info"

/-- The text of the exception, without the place of the byte. -/
def dumpError : Bytes := ascii "[json.exception.type_error.316] invalid UTF-8 byte"

/-- The record that a round of the loop is about, and those it leaves. With protection it is the
latest, which goes with all of its time. Otherwise those of the earliest time go first, and it is
the first of the others; `none` where there are none. -/
def kick (protect : Bool) (records : List Record) : Option (Record × List Record) :=
  if protect then
    records.getLast?.map fun r ↦ (r, Multimap.erase r.1 records)
  else
    records.head?.bind fun r ↦
      let rest := Multimap.erase r.1 records
      rest.head?.map fun r' ↦ (r', rest)

theorem length_erase_lt {r : Record} {records : List Record} (h : r ∈ records) :
    (Multimap.erase r.1 records).length < records.length :=
  List.length_filter_lt_length_iff_exists.mpr ⟨r, h, by simp⟩

theorem length_of_kick {protect : Bool} {records rest : List Record} {r : Record}
    (h : kick protect records = some (r, rest)) : rest.length < records.length := by
  unfold kick at h
  split at h
  · obtain ⟨r, hr, he⟩ := Option.map_eq_some_iff.mp h
    cases he
    exact length_erase_lt (List.mem_of_getLast? hr)
  · obtain ⟨r, hr, he⟩ := Option.bind_eq_some_iff.mp h
    obtain ⟨r', -, he'⟩ := Option.map_eq_some_iff.mp he
    cases he'
    exact length_erase_lt (List.mem_of_head? hr)

inductive KickEnd
  | undefined
  | dumpError (sent : List AuthBroadcastItem)
  | done (check : Bool) (sent : List AuthBroadcastItem)

def kickLoop (protect : Bool) (limit : Nat) (userName connectKey : Bytes) (records : List Record)
    (check : Bool) (sent : List AuthBroadcastItem) : KickEnd :=
  if limit < records.length then
    match _h : kick protect records with
    | none => .undefined
    | some (r, rest) =>
      if r.2 = connectKey then kickLoop protect limit userName connectKey rest false sent
      else match sendChangeAuthStatus userName r.2 .err upperLimit with
        | none => .dumpError sent
        | some item => kickLoop protect limit userName connectKey rest check (sent ++ [item])
  else .done check sent
termination_by records.length
decreasing_by all_goals exact length_of_kick _h

def fail (ctx : AuthCtx Bytes A) (reason : Bytes) (sent : List AuthBroadcastItem)
    (s : Logins Bytes A) :
    Handled A :=
  match sendChangeAuthStatus ctx.userName ctx.connectKey .err reason with
  | none => .throws
  | some item => .done s [] (sent ++ [item])

def redisAddLoginCallback (opt : AuthOpt) (ctx : AuthCtx Bytes A) (reply : Option RedisReply)
    (s : Logins Bytes A) : Handled A :=
  match reply with
  | none => .undefined
  | some r =>
    match readRecords r.elements with
    | .error _ => .throws
    | .ok records =>
      if ctx.connectKey ∈ r.elements.map Prod.fst then
        match (s.limitMap .registered).lookup ctx.userName with
        | none => fail ctx cantFindActiveInfo [] s
        | some limit =>
          match kickLoop (opt.protects ctx.type) limit.size ctx.userName ctx.connectKey
              (Multimap.ofList records) true [] with
          | .undefined => .undefined
          | .dumpError sent => fail ctx dumpError sent s
          | .done false sent => fail ctx upperLimit sent s
          | .done true sent => .done s [⟨ctx.arg, .ok, [], normalizeGroupUid limit.group⟩] sent
      else fail ctx cantFindRecord [] s

/-- The broadcast of an error goes to the connection with the earliest record, and among those with
an account. -/
def redisAddUnnameCallback (ctx : AuthCtx Bytes A) (reply : Option RedisReply)
    (s : Logins Bytes A) :
    Handled A :=
  match reply with
  | none => .undefined
  | some r =>
    match readRecords r.elements with
    | .error _ => .throws
    | .ok records =>
      if ctx.connectKey ∈ r.elements.map Prod.fst then
        .done s [⟨ctx.arg, .ok, [], ascii "default"⟩] []
      else match Multimap.ofList records with
        | [] => .undefined
        | first :: _ =>
          match sendChangeAuthStatus ctx.userName first.2 .err cantFindRecord with
          | none => .throws
          | some item => .done s [] [item]

def handleReply (parse : Bytes → Option Json) (opt : AuthOpt) :
    AuthCommand Bytes A → Option RedisReply → Logins Bytes A → Handled A
  | .hsetUnnamed ctx, reply, s => redisAddTempCallback ctx reply s
  | .hgetActive ctx, reply, s => redisVerifyCallback parse ctx reply s
  | .hgetallRecord .registered ctx, reply, s => redisAddLoginCallback opt ctx reply s
  | .hgetallRecord .unnamed ctx, reply, s => redisAddUnnameCallback ctx reply s
  | _, _, s => .done s [] []

end NavCaster.Auth.Verify
