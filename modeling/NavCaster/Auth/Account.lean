import NavCaster.Library.Scan

namespace NavCaster.Auth.Account

open NavCaster.Library.Strto (Bytes)
open NavCaster.Library.Scan

/-- A number of a JSON text, as it is converted to `int`, to `int64_t`, and to `double` and from
there to `int64_t`. -/
structure Number where
  toInt : Int
  toInt64 : Int
  doubleToInt64 : Int
  deriving DecidableEq

inductive Json
  | null
  | bool (b : Bool)
  | number (n : Number)
  | string (s : Bytes)
  | array (items : List Json)
  | object (members : List (String × Json))

namespace Json

def find (key : String) : Json → Option Json
  | object members => members.lookup key
  | _ => none

/-- A truth value is read as a number by `int` alone. -/
def getInt : Json → Option Int
  | number n => some n.toInt
  | bool b => some (if b then 1 else 0)
  | _ => none

def getInt64 : Json → Option Int
  | number n => some n.toInt64
  | _ => none

def getLongLong : Json → Option Int
  | number n => some n.toInt64
  | bool b => some (if b then 1 else 0)
  | _ => none

def getDouble : Json → Option Int
  | number n => some n.doubleToInt64
  | _ => none

def getString : Json → Option Bytes
  | string s => some s
  | _ => none

/-- The member, or the default where there is none; `none` where it throws, which is so for what is
no object, and for a member of another type. -/
def value {α : Type} (get : Json → Option α) (key : String) (default : α) : Json → Option α
  | object members =>
    match members.lookup key with
    | none => some default
    | some j => get j
  | _ => none

end Json

structure AuthLimit where
  account : Bytes := []
  password : Bytes := []
  active : Bool := false
  type : Int := 0
  dateLimit : Int := 0
  timeLimit : Int := 0
  access : Int := 0
  connectLimit : Int := 0
  group : Bytes := []
  expire : Int := 0
  deriving DecidableEq

def normalizeGroupUid (groupUid : Bytes) : Bytes :=
  if groupUid = [] then ascii "default" else groupUid

namespace AuthLimit

open Json

def readActive (info : Json) : Option Bool :=
  match info.find "active" with
  | some (.bool b) => some b
  | _ => (info.value getInt "active" 0).map (· == 1)

/-- A default that is read from another member throws even where it is not needed. -/
def readExpire (key : String) (info : Json) : Option Int := do
  let expireTime ← info.value getDouble "expire_time" 0
  info.value getInt64 key expireTime

def readConnectLimit (info : Json) : Option Int := do
  let connectionLimit ← info.value getInt "connection_limit" 0
  let limit ← info.value getInt "connect_limit" connectionLimit
  return if limit ≤ 0 then 9999 else limit

def fields (info : Json) : List (AuthLimit → Option AuthLimit) :=
  [fun l ↦ do return { l with account := ← info.value getString "account" [] },
    fun l ↦ do return { l with password := ← info.value getString "password" [] },
    fun l ↦ do return { l with active := ← readActive info },
    fun l ↦ do return { l with type := ← info.value getInt "type" 0 },
    fun l ↦ do return { l with dateLimit := ← readExpire "date_limit" info },
    fun l ↦ do
      let availableSeconds ← info.value getInt "available_seconds" 0
      return { l with timeLimit := ← info.value getInt64 "time_limit" availableSeconds },
    fun l ↦ do return { l with access := ← info.value getInt "access" 0 },
    fun l ↦ do return { l with connectLimit := ← readConnectLimit info },
    fun l ↦ do
      let group ← info.value getString "group" []
      return { l with group := normalizeGroupUid (← info.value getString "group_uid" group) },
    fun l ↦ do return { l with expire := ← readExpire "expire" info }]

/-- The first field that throws ends the reading; those before it keep what they were given. -/
def fill : List (AuthLimit → Option AuthLimit) → AuthLimit → AuthLimit × Nat
  | [], l => (l, 0)
  | f :: fs, l =>
    match f l with
    | none => (l, 1)
    | some l' => fill fs l'

/-- The number of connections as its comparison with a `size_t` takes it. -/
def size (l : AuthLimit) : Nat := (l.connectLimit % 2 ^ 64).toNat

/-- The part of `fromString` behind the parser, with its return code, which nobody looks at. -/
def fromString (info : Json) : AuthLimit × Nat := fill (fields info) {}

end AuthLimit

end NavCaster.Auth.Account
