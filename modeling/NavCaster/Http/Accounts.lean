import NavCaster.Auth.Account
import NavCaster.Library.Table

namespace NavCaster.Http.Accounts

open NavCaster.Library
open NavCaster.Library.Strto (Bytes)
open NavCaster.Library.Scan
open NavCaster.Auth.Account (Json)

abbrev Database := Table Bytes (Table Bytes Bytes)

/-- What is written of a parsed text is read back, up to a NUL too, which it does not have. -/
structure JsonCodec where
  parse : Bytes → Option Json
  dump : Json → Bytes
  parse_dump : ∀ text j, parse text = some j → parse (cstr (dump j)) = some j

structure HttpRequest where
  pathSegments : List Bytes
  body : Bytes

structure HttpResponse where
  statusCode : Nat
  body : Bytes
  deriving DecidableEq

namespace HttpResponse

def succeeded (resp : HttpResponse) : Prop := 200 ≤ resp.statusCode ∧ resp.statusCode < 300

instance (resp : HttpResponse) : Decidable resp.succeeded := inferInstanceAs (Decidable (_ ∧ _))

def error (statusCode : Nat) (text : String) : HttpResponse :=
  ⟨statusCode, ascii "\x7b\"error\":\"" ++ ascii text ++ ascii "\"\x7d"⟩

theorem succeeded_mk {statusCode : Nat} (h : 200 ≤ statusCode ∧ statusCode < 300) (body : Bytes) :
    (HttpResponse.mk statusCode body).succeeded := h

theorem not_succeeded_error {statusCode : Nat} (h : 300 ≤ statusCode) (text : String) :
    ¬ (error statusCode text).succeeded := fun hs ↦ absurd hs.2 (Nat.not_lt.mpr h)

end HttpResponse

def keyAccountRecord : Bytes := ascii "ACT:RECORD"

def hset (connected : Bool) (key field value : Bytes) (db : Database) : Bool × Database :=
  if connected then (true, Table.put db key (cstr field) (cstr value)) else (false, db)

def hsetnx (connected : Bool) (key field value : Bytes) (db : Database) : Bool × Database :=
  if connected = true ∧ Table.entry db key (cstr field) = none then
    (true, Table.put db key (cstr field) (cstr value))
  else (false, db)

def hdel (connected : Bool) (key field : Bytes) (db : Database) : Bool × Database :=
  if connected = true ∧ (Table.entry db key (cstr field)).isSome then
    (true, Table.drop db key (cstr field))
  else (false, db)

def getResourceId (req : HttpRequest) : Bytes := req.pathSegments.getLast?.getD []

def internalError : HttpResponse := .error 500 "Internal Server Error"

variable (codec : JsonCodec) (connected : Bool) (req : HttpRequest) (db : Database)

def okBody (members : List (String × Json)) : Bytes :=
  codec.dump (.object (members ++ [("ok", .bool true)]))

/-- An account name that is no string, or a body that is no object, throws. -/
def handleCreateAccount : HttpResponse × Database :=
  match codec.parse req.body with
  | none => (.error 400 "Invalid JSON", db)
  | some body =>
    match body.value Json.getString "account" [] with
    | none => (internalError, db)
    | some [] => (.error 400 "Missing account field", db)
    | some account =>
      match hsetnx connected keyAccountRecord account (codec.dump body) db with
      | (false, db) => (.error 409 "Account already exists", db)
      | (true, db) => (⟨201, okBody codec [("account", .string account)]⟩, db)

def handleUpdateAccount : HttpResponse × Database :=
  if getResourceId req = [] then (.error 400 "Missing account name", db)
  else match codec.parse req.body with
    | none => (.error 400 "Invalid JSON", db)
    | some body =>
      match hset connected keyAccountRecord (getResourceId req) (codec.dump body) db with
      | (false, db) => (.error 500 "Redis error", db)
      | (true, db) => (⟨200, okBody codec []⟩, db)

def handleDeleteAccount : HttpResponse × Database :=
  if getResourceId req = [] then (.error 400 "Missing account name", db)
  else match hdel connected keyAccountRecord (getResourceId req) db with
    | (false, db) => (.error 404 "Account not found", db)
    | (true, db) => (⟨200, okBody codec []⟩, db)

inductive Edit
  | put (name : Bytes) (info : Json)
  | remove (name : Bytes)

def Edit.name : Edit → Bytes
  | put name _ => name
  | remove name => name

def Edit.info : Edit → Option Json
  | put _ info => some info
  | remove _ => none

def left (name : Bytes) (edits : List Edit) : Option Json :=
  (edits.reverse.find? (·.name = name)).bind Edit.info

theorem left_concat (name : Bytes) (edits : List Edit) (e : Edit) :
    left name (edits ++ [e]) = if e.name = name then e.info else left name edits := by
  unfold left
  rw [List.reverse_concat, List.find?_cons]
  by_cases h : e.name = name
  · rw [if_pos h, decide_eq_true h]
    rfl
  · rw [if_neg h, decide_eq_false h]

inductive AccountCall
  | create | update | delete

def AccountCall.handle : AccountCall → HttpResponse × Database
  | create => handleCreateAccount codec connected req db
  | update => handleUpdateAccount codec connected req db
  | delete => handleDeleteAccount codec connected req db

def AccountCall.edit : AccountCall → Option Edit
  | create => (codec.parse req.body).bind fun body ↦
      (body.value Json.getString "account" []).map fun account ↦ .put (cstr account) body
  | update => (codec.parse req.body).map fun body ↦ .put (cstr (getResourceId req)) body
  | delete => some (.remove (cstr (getResourceId req)))

/-- A successful request makes its edit in the hash of the accounts, and a failed one makes none. -/
structure Handles (call : AccountCall) (db' : Database) (e : Edit) : Prop where
  edit : call.edit codec req = some e
  readable : ∀ j ∈ e.info, codec.parse (cstr (codec.dump j)) = some j
  entry : ∀ key name, Table.entry db' key name =
    if key = keyAccountRecord ∧ name = e.name then e.info.map fun j ↦ cstr (codec.dump j)
    else Table.entry db key name

variable {codec connected req db}

theorem handles_put {call : AccountCall} {text : Bytes} {body : Json} {name : Bytes}
    (hbody : codec.parse text = some body)
    (hedit : call.edit codec req = some (.put (cstr name) body)) :
    Handles codec req db call
      (Table.put db keyAccountRecord (cstr name) (cstr (codec.dump body))) (.put (cstr name) body)
        where
  edit := hedit
  readable j hj := by
    cases hj
    exact codec.parse_dump text body hbody
  entry key field := Table.entry_put db keyAccountRecord key (cstr name) field _

theorem hset_cases (key field value : Bytes) :
    hset connected key field value db = (false, db) ∨
      hset connected key field value db = (true, Table.put db key (cstr field) (cstr value)) := by
  unfold hset
  split
  · exact .inr rfl
  · exact .inl rfl

theorem hsetnx_cases (key field value : Bytes) :
    hsetnx connected key field value db = (false, db) ∨
      hsetnx connected key field value db = (true, Table.put db key (cstr field) (cstr value)) := by
  unfold hsetnx
  split
  · exact .inr rfl
  · exact .inl rfl

theorem hdel_cases (key field : Bytes) :
    hdel connected key field db = (false, db) ∨
      hdel connected key field db = (true, Table.drop db key (cstr field)) := by
  unfold hdel
  split
  · exact .inr rfl
  · exact .inl rfl

def Ends (codec : JsonCodec) (req : HttpRequest) (db : Database) (call : AccountCall)
    (p : HttpResponse × Database) : Prop :=
  p.1.succeeded ∧ (∃ e, Handles codec req db call p.2 e) ∨ ¬ p.1.succeeded ∧ p.2 = db

theorem ends_error {call : AccountCall} {statusCode : Nat} (h : 300 ≤ statusCode) (text : String) :
    Ends codec req db call (.error statusCode text, db) :=
  .inr ⟨HttpResponse.not_succeeded_error h text, rfl⟩

theorem ends_handleCreateAccount :
    Ends codec req db .create (handleCreateAccount codec connected req db) := by
  unfold handleCreateAccount
  cases hbody : codec.parse req.body with
  | none => exact ends_error (by decide) _
  | some body =>
    dsimp only
    cases haccount : body.value Json.getString "account" [] with
    | none => exact ends_error (by decide) _
    | some account =>
      cases account with
      | nil => exact ends_error (by decide) _
      | cons b account =>
        dsimp only
        obtain h | h := @hsetnx_cases connected db keyAccountRecord (b :: account) (codec.dump body)
        · rw [h]
          exact ends_error (by decide) _
        · rw [h]
          refine .inl ⟨HttpResponse.succeeded_mk (by decide) _, _, handles_put hbody ?_⟩
          unfold AccountCall.edit
          rw [hbody, Option.bind_some, haccount]
          rfl

theorem ends_handleUpdateAccount :
    Ends codec req db .update (handleUpdateAccount codec connected req db) := by
  unfold handleUpdateAccount
  split
  · exact ends_error (by decide) _
  · cases hbody : codec.parse req.body with
    | none => exact ends_error (by decide) _
    | some body =>
      dsimp only
      obtain h | h :=
        @hset_cases connected db keyAccountRecord (getResourceId req) (codec.dump body)
      · rw [h]
        exact ends_error (by decide) _
      · rw [h]
        refine .inl ⟨HttpResponse.succeeded_mk (by decide) _, _, handles_put hbody ?_⟩
        unfold AccountCall.edit
        rw [hbody]
        rfl

theorem ends_handleDeleteAccount :
    Ends codec req db .delete (handleDeleteAccount codec connected req db) := by
  unfold handleDeleteAccount
  split
  · exact ends_error (by decide) _
  · obtain h | h := @hdel_cases connected db keyAccountRecord (getResourceId req)
    · rw [h]
      exact ends_error (by decide) _
    · rw [h]
      refine .inl ⟨HttpResponse.succeeded_mk (by decide) _, _, rfl, nofun, fun key field ↦ ?_⟩
      exact Table.entry_drop db keyAccountRecord key (cstr (getResourceId req)) field

theorem ends_handle (call : AccountCall) :
    Ends codec req db call (call.handle codec connected req db) := by
  cases call with
  | create => exact ends_handleCreateAccount
  | update => exact ends_handleUpdateAccount
  | delete => exact ends_handleDeleteAccount

end NavCaster.Http.Accounts
