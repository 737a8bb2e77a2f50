import NavCaster.Auth.Credentials
import NavCaster.Http.Accounts
import NavCaster.Library.Machine

namespace NavCaster.Auth.Administration

open NavCaster.Library
open NavCaster.Library.Strto (Bytes)
open NavCaster.Library.Scan
open NavCaster.Auth.Account NavCaster.Auth.Verify NavCaster.Auth.Credentials
open NavCaster.Http.Accounts

variable {A : Type}

def keyUnnamed : Bytes := ascii "ACT:UNNAMED"

def keyActive : Bytes := ascii "ACT:ACTIVE"

def keyRecord : Realm → Bytes → Bytes
  | .registered, userName => ascii "ACT:REC:" ++ userName
  | .unnamed, userName => ascii "ACT:UND:" ++ userName

/-- The commands of `verify_internal` in the database, with the time that they write. A record does
not expire while it is renewed. -/
def execute (time : Bytes) (db : Database) : AuthCommand Bytes A → Database × RedisReply
  | .hsetUnnamed ctx => (Table.put db keyUnnamed ctx.userName time, .integer)
  | .hgetActive ctx =>
    (db, match Table.entry db keyActive ctx.userName with
      | none => .nil
      | some text => .string (cstr text))
  | .hsetexRecord r userName connectKey =>
    (Table.put db (keyRecord r userName) connectKey time, .integer)
  | .hgetallRecord r ctx =>
    (db, .array (Table.toPairs ((db.lookup (keyRecord r ctx.userName)).getD ∅)))
  | .hexpireRecord _ _ _ => (db, .array [])
  | .hdelRecord r userName connectKey =>
    (Table.drop db (keyRecord r userName) connectKey, .integer)

/-- What the program does to the database: it serves a request, performs a command, or a record
expires. -/
inductive Action (A : Type)
  | request (call : AccountCall) (connected : Bool) (req : HttpRequest)
  | command (time : Bytes) (c : AuthCommand Bytes A)
  | expire (r : Realm) (userName connectKey : Bytes)

variable (codec : JsonCodec)

/-- Only successful requests are made. -/
def machine : Machine Database (Action A) Unit where
  step db
    | .request call connected req =>
      let p := call.handle codec connected req db
      if p.1.succeeded then some (p.2, []) else none
    | .command time c => some ((execute time db c).1, [])
    | .expire r userName connectKey => some (Table.drop db (keyRecord r userName) connectKey, [])

def Action.edit : Action A → Option Edit
  | request call _ req => call.edit codec req
  | _ => none

def leftBy (name : Bytes) (as : List (Action A)) : Option Json :=
  left name (as.filterMap (Action.edit codec))

/-- The accounts are kept as the requests have left them, and the hash that logins look into stays
empty. -/
structure Written (as : List (Action A)) (db : Database) : Prop where
  record : ∀ name, (Table.entry db keyAccountRecord name).bind codec.parse = leftBy codec name as
  active : ∀ name, Table.entry db keyActive name = none

theorem keyRecord_ne {key : Bytes} (r : Realm) (userName : Bytes)
    (h : key.take 8 ≠ ascii "ACT:REC:" ∧ key.take 8 ≠ ascii "ACT:UND:") :
    key ≠ keyRecord r userName := by
  rintro rfl
  cases r with
  | registered => exact h.1 (List.take_left' rfl)
  | unnamed => exact h.2 (List.take_left' rfl)

theorem entry_put_ne {db : Database} {key key' name name' value : Bytes} (h : key ≠ key') :
    Table.entry (Table.put db key' name' value) key name = Table.entry db key name := by
  rw [Table.entry_put, if_neg fun h' ↦ h h'.1]

theorem entry_drop_ne {db : Database} {key key' name name' : Bytes} (h : key ≠ key') :
    Table.entry (Table.drop db key' name') key name = Table.entry db key name := by
  rw [Table.entry_drop, if_neg fun h' ↦ h h'.1]

theorem entry_execute {key : Bytes} (hunnamed : key ≠ keyUnnamed)
    (hrecord : ∀ r userName, key ≠ keyRecord r userName) (time : Bytes) (db : Database)
    (c : AuthCommand Bytes A) (name : Bytes) :
    Table.entry (execute time db c).1 key name = Table.entry db key name := by
  cases c with
  | hsetUnnamed ctx => exact entry_put_ne hunnamed
  | hgetActive ctx => rfl
  | hsetexRecord r userName connectKey => exact entry_put_ne (hrecord r userName)
  | hgetallRecord r ctx => rfl
  | hexpireRecord r userName connectKey => rfl
  | hdelRecord r userName connectKey => exact entry_drop_ne (hrecord r userName)

theorem keyAccountRecord_ne (r : Realm) (userName : Bytes) :
    keyAccountRecord ≠ keyRecord r userName := keyRecord_ne r userName (by decide)

theorem keyActive_ne (r : Realm) (userName : Bytes) : keyActive ≠ keyRecord r userName :=
  keyRecord_ne r userName (by decide)

variable {codec}

theorem leftBy_concat (name : Bytes) (as : List (Action A)) (a : Action A) :
    leftBy codec name (as ++ [a]) =
      match a.edit codec with
      | some e => if e.name = name then e.info else leftBy codec name as
      | none => leftBy codec name as := by
  unfold leftBy
  rw [List.filterMap_append, List.filterMap_cons, List.filterMap_nil]
  cases a.edit codec with
  | none => rw [List.append_nil]
  | some e => exact left_concat name _ e

theorem written_request {as : List (Action A)} {db db' : Database} (h : Written codec as db)
    {call : AccountCall} {connected : Bool} {req : HttpRequest} {e : Edit}
    (he : Handles codec req db call db' e) :
    Written codec (as ++ [.request call connected req]) db' where
  record name := by
    have hedit : (Action.request call connected req : Action A).edit codec = some e := he.edit
    rw [leftBy_concat, hedit, he.entry]
    by_cases hname : e.name = name
    · rw [if_pos ⟨rfl, hname.symm⟩]
      dsimp only
      rw [if_pos hname]
      cases hinfo : e.info with
      | none => rfl
      | some info => exact he.readable info hinfo
    · rw [if_neg fun h' ↦ hname h'.2.symm]
      dsimp only
      rw [if_neg hname]
      exact h.record name
  active name := by
    rw [he.entry, if_neg fun h' ↦ absurd h'.1 (by decide)]
    exact h.active name

theorem written_step {as : List (Action A)} {db db' : Database} {es : List Unit}
    (h : Written codec as db) {a : Action A} (hstep : (machine codec).step db a = some (db', es)) :
    Written codec (as ++ [a]) db' := by
  cases a with
  | request call connected req =>
    have hends := @ends_handle codec connected req db call
    dsimp only [machine] at hstep
    split at hstep
    · next hok =>
      cases hstep
      obtain ⟨-, e, he⟩ | ⟨hno, -⟩ := hends
      · exact written_request h he
      · exact absurd hok hno
    · cases hstep
  | command time c =>
    cases hstep
    constructor
    · intro name
      rw [leftBy_concat, entry_execute (by decide) keyAccountRecord_ne]
      exact h.record name
    · intro name
      rw [entry_execute (by decide) keyActive_ne]
      exact h.active name
  | expire r userName connectKey =>
    cases hstep
    constructor
    · intro name
      rw [leftBy_concat, entry_drop_ne (keyAccountRecord_ne r userName)]
      exact h.record name
    · intro name
      rw [entry_drop_ne (keyActive_ne r userName)]
      exact h.active name

theorem written_exec {pre as : List (Action A)} {db db' : Database} {es : List Unit}
    (h : Written codec pre db) (hrun : (machine codec).exec db as = some (db', es)) :
    Written codec (pre ++ as) db' := by
  induction as generalizing pre db es with
  | nil =>
    cases hrun
    rwa [List.append_nil]
  | cons a as ih =>
    rw [Machine.exec] at hrun
    split at hrun
    · cases hrun
    · next u es' hu =>
      obtain ⟨p, hp, he⟩ := Option.map_eq_some_iff.mp hrun
      cases he
      have hrest := ih (written_step h hu) hp
      rwa [List.append_assoc] at hrest

theorem written_empty : Written codec ([] : List (Action A)) ∅ := ⟨fun _ ↦ rfl, fun _ ↦ rfl⟩

def LeftLive (codec : JsonCodec) (as : List (Action A)) (userName userPwd : Bytes) (now : Int) :
    Prop :=
  ∃ info, leftBy codec userName as = some info ∧
    info.value Json.getString "password" [] = some userPwd ∧ Live now info

theorem administration (opt : AuthOpt) (ctx : AuthCtx Bytes A)
    (hnamed : opt.verifiesAnonymous ctx.type = false) {as : List (Action A)} {db : Database}
    {es : List Unit} (hrun : (machine codec).exec ∅ as = some (db, es)) (time : Bytes) (now : Int)
    (s : Logins Bytes A) :
    (Answers (handleReply codec.parse opt (verify opt ctx)
        (some (execute time db (verify opt ctx)).2) s) ctx.arg .ok ↔
      LeftLive codec as ctx.userName ctx.userPwd now) ↔
      ¬ LeftLive codec as ctx.userName ctx.userPwd now := by
  have hwritten := written_exec written_empty hrun
  have hsent : verify opt ctx = .hgetActive ctx := if_neg (by rw [hnamed]; exact Bool.false_ne_true)
  have hreply : (execute time db (verify opt ctx)).2 = .nil := by
    rw [hsent]
    dsimp only [execute]
    rw [hwritten.active]
  have hno : ¬ Answers (handleReply codec.parse opt (verify opt ctx)
      (some (execute time db (verify opt ctx)).2) s) ctx.arg .ok := by
    rw [hreply, hsent]
    rintro ⟨_, _, _, h⟩
    cases h
  exact ⟨fun h hleft ↦ hno (h.mpr hleft),
    fun hleft ↦ ⟨fun h ↦ absurd h hno, fun h ↦ absurd h hleft⟩⟩

def accountText : Bytes := ascii "\x7b\"account\":\"u\",\"active\":true,\"password\":\"p\"\x7d"

def accountInfo : Json :=
  .object
    [("account", .string (ascii "u")), ("active", .bool true), ("password", .string (ascii "p"))]

def accountCodec : JsonCodec where
  parse text := if text = accountText then some accountInfo else none
  dump
    | .object (_ :: ("ok", _) :: _) => ascii "\x7b\"account\":\"u\",\"ok\":true\x7d"
    | _ => accountText
  parse_dump text j h := by
    split at h
    · cases h
      rfl
    · cases h

def creation : List (Action Nat) := [.request .create true ⟨[], accountText⟩]

theorem exec_creation :
    (machine accountCodec).exec ∅ creation =
      some (Table.put ∅ keyAccountRecord (ascii "u") accountText, []) := by
  rfl

theorem leftLive_creation : LeftLive accountCodec creation (ascii "u") (ascii "p") 1 :=
  ⟨accountInfo, rfl, rfl, rfl, 0, rfl, .inl rfl⟩

theorem administration_creation :
    (Answers (handleReply accountCodec.parse ⟨false, false, false, false, false⟩
        (verify ⟨false, false, false, false, false⟩ login)
        (some (execute [] (Table.put ∅ keyAccountRecord (ascii "u") accountText)
          (verify ⟨false, false, false, false, false⟩ login)).2) {}) 7 .ok ↔
      LeftLive accountCodec creation (ascii "u") (ascii "p") 1) ↔
      ¬ LeftLive accountCodec creation (ascii "u") (ascii "p") 1 :=
  administration ⟨false, false, false, false, false⟩ login rfl exec_creation [] 1 {}

theorem not_administration :
    ¬ ∀ (codec : JsonCodec) (opt : AuthOpt) (ctx : AuthCtx Bytes Nat) (as : List (Action Nat))
      (db : Database) (es : List Unit) (time : Bytes) (now : Int) (s : Logins Bytes Nat),
      opt.verifiesAnonymous ctx.type = false → (machine codec).exec ∅ as = some (db, es) →
      (Answers (handleReply codec.parse opt (verify opt ctx)
          (some (execute time db (verify opt ctx)).2) s) ctx.arg .ok ↔
        LeftLive codec as ctx.userName ctx.userPwd now) := by
  intro h
  have hopen := (h accountCodec ⟨false, false, false, false, false⟩ login creation _ _ [] 1 {} rfl
    exec_creation).mpr leftLive_creation
  obtain ⟨_, _, _, h⟩ := hopen
  cases h

end NavCaster.Auth.Administration
