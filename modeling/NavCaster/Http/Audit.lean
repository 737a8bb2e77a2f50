import NavCaster.Auth.Account

namespace NavCaster.Http.Audit

open NavCaster.Library.Strto (Bytes)
open NavCaster.Library.Scan (ascii)
open NavCaster.Auth.Account (Json)

inductive Method
  | get | post | put | delete | patch | other
  deriving DecidableEq

structure HttpRequest where
  method : Method
  path : Bytes
  body : Bytes

structure HttpResponse where
  statusCode : Nat
  body : Bytes

/-- `tolower` goes over the bytes of a key, of which it knows the ASCII letters. -/
def lower (key : String) : String := key.map Char.toLower

/-- The names that are masked. -/
def masks (key : String) : Bool :=
  ["password", "token", "secret", "admin_password"].contains (lower key)

def maskString : Json → Json
  | .string _ => .string (ascii "***")
  | v => v

mutual

/-- An array is not looked into, and neither is what stands under one of the names. -/
def maskSecrets : Json → Json
  | .object members => .object (maskMembers members)
  | j => j

def maskMembers : List (String × Json) → List (String × Json)
  | [] => []
  | (k, v) :: members => (k, if masks k then maskString v else maskSecrets v) :: maskMembers members

end

def methodStr : Method → Bytes
  | .get => ascii "GET"
  | .post => ascii "POST"
  | .put => ascii "PUT"
  | .delete => ascii "DELETE"
  | .patch => ascii "PATCH"
  | .other => ascii "?"

/-- The first segment behind `/api/`, and the last one if there is another. -/
def inferTarget (path : Bytes) : Bytes × Bytes :=
  if path.length < 6 ∨ path.take 5 ≠ ascii "/api/" then ([], [])
  else match ((path.drop 5).splitOn 47).filter (· ≠ []) with
    | [] => ([], [])
    | [s] => (s, [])
    | s :: segments => (s, segments.getLast?.getD [])

/-- A text is not always one of JSON, nor can every value be written as a text. What is masked in a
value that was read can be written, and is read back. -/
structure AuditCodec where
  parse : Bytes → Option Json
  dump : Json → Option Bytes
  parse_nil : parse [] = none
  read_back : ∀ text j, parse text = some j →
    (dump (maskSecrets j)).bind parse = some (maskSecrets j)

structure AuditLog where
  seq : Int
  entries : List Bytes

def auditKeep : Nat := 50000

def integer (n : Int) : Json := .number ⟨n.bmod (2 ^ 32), n, n⟩

variable (codec : AuditCodec)

def payload (body : Bytes) : Json :=
  if body = [] then .null
  else match codec.parse body with
    | some j => maskSecrets j
    | none => .string body

/-- `none` where it throws. -/
def dumpPayload : Json → Option Bytes
  | .null => some []
  | j => codec.dump j

def payloadText (body : Bytes) : Option Bytes := dumpPayload codec (payload codec body)

def errorMessage (resp : HttpResponse) : Option Json :=
  if 400 ≤ resp.statusCode then
    match codec.parse resp.body with
    | some err => (err.find "error").bind fun e ↦ e.getString.map .string
    | none => none
  else none

/-- Only requests that change something are recorded, and no login. -/
def audited (req : HttpRequest) : Bool :=
  req.method ∈ [Method.post, .put, .delete, .patch] ∧ req.path ≠ ascii "/api/auth/login"

def entry (id now : Int) (nodeId : Bytes) (req : HttpRequest) (resp : HttpResponse)
    (actor clientIp text : Bytes) : Json :=
  let target := inferTarget req.path
  .object ([("id", integer id), ("timestamp", integer now),
    ("actor", .string (if actor = [] then ascii "anonymous" else actor)),
    ("source_ip", .string clientIp), ("node_id", .string nodeId),
    ("action", .string (methodStr req.method ++ 32 :: req.path)),
    ("target_type", .string target.1), ("target_id", .string target.2),
    ("payload", .string text), ("result", integer resp.statusCode)] ++
      ((errorMessage codec resp).map fun e ↦ ("error_message", e)).toList)

/-- The number of an entry is used up also where the entry cannot be written. -/
def writeAudit (connected : Bool) (now : Int) (nodeId : Bytes) (req : HttpRequest)
    (resp : HttpResponse) (actor clientIp : Bytes) (log : AuditLog) : AuditLog :=
  if connected && audited req then
    let id := log.seq + 1
    match (payloadText codec req.body).bind fun text ↦
        codec.dump (entry codec id now nodeId req resp actor clientIp text) with
    | none => { log with seq := id }
    | some s => ⟨id, (s :: log.entries).take auditKeep⟩
  else log

/-- The payload of the entry that is written about a request. -/
def recordedPayload (req : HttpRequest) : Option Bytes :=
  if audited req then payloadText codec req.body else none

/-- A field of the API for a credential, in any letter case. -/
def Credential (key : String) : Prop :=
  lower key ∈ ["password", "admin_password", "old_password", "target_password", "token", "secret"]

mutual

/-- Two values differ at most in the strings of credentials, at any depth. -/
inductive DifferInSecrets : Json → Json → Prop
  | same (j : Json) : DifferInSecrets j j
  | array {items items' : List Json} : ItemsDiffer items items' →
    DifferInSecrets (.array items) (.array items')
  | object {members members' : List (String × Json)} : MembersDiffer members members' →
    DifferInSecrets (.object members) (.object members')

inductive ItemsDiffer : List Json → List Json → Prop
  | nil : ItemsDiffer [] []
  | cons {j j' : Json} {items items' : List Json} : DifferInSecrets j j' →
      ItemsDiffer items items' →
    ItemsDiffer (j :: items) (j' :: items')

inductive MembersDiffer : List (String × Json) → List (String × Json) → Prop
  | nil : MembersDiffer [] []
  | secret {k : String} (s s' : Bytes) {members members' : List (String × Json)} : Credential k →
    MembersDiffer members members' →
    MembersDiffer ((k, .string s) :: members) ((k, .string s') :: members')
  | inside {k : String} {v v' : Json} {members members' : List (String × Json)} :
    DifferInSecrets v v' → MembersDiffer members members' →
    MembersDiffer ((k, v) :: members) ((k, v') :: members')

end

mutual

/-- Two values differ at most in strings under the names that are masked, which are reached through
objects alone, and through none of these names. -/
inductive DifferInMasked : Json → Json → Prop
  | same (j : Json) : DifferInMasked j j
  | object {members members' : List (String × Json)} : MembersMasked members members' →
    DifferInMasked (.object members) (.object members')

inductive MembersMasked : List (String × Json) → List (String × Json) → Prop
  | nil : MembersMasked [] []
  | masked {k : String} (s s' : Bytes) {members members' : List (String × Json)} : masks k = true →
    MembersMasked members members' →
    MembersMasked ((k, .string s) :: members) ((k, .string s') :: members')
  | inside {k : String} {v v' : Json} {members members' : List (String × Json)} : masks k = false →
    DifferInMasked v v' → MembersMasked members members' →
    MembersMasked ((k, v) :: members) ((k, v') :: members')
  | same (m : String × Json) {members members' : List (String × Json)} :
    MembersMasked members members' → MembersMasked (m :: members) (m :: members')

end

theorem membersMasked_refl (members : List (String × Json)) : MembersMasked members members := by
  induction members with
  | nil => exact .nil
  | cons m members ih => exact .same m ih

theorem maskSecrets_atom {j : Json} (h : ∀ members, j ≠ .object members) : maskSecrets j = j := by
  cases j with
  | object members => exact absurd rfl (h members)
  | _ => rfl

theorem maskSecrets_eq_iff_of_atom {j : Json} (h : ∀ members, j ≠ .object members) (j' : Json) :
    maskSecrets j = maskSecrets j' ↔ DifferInMasked j j' := by
  rw [maskSecrets_atom h]
  constructor
  · intro heq
    have hatom : ∀ members, j' ≠ .object members := by
      rintro members rfl
      exact h _ heq
    rw [maskSecrets_atom hatom] at heq
    rw [heq]
    exact .same j'
  · intro hdiffer
    cases hdiffer with
    | same => exact (maskSecrets_atom h).symm
    | object => exact absurd rfl (h _)

theorem maskString_eq_iff (v v' : Json) :
    maskString v = maskString v' ↔ v = v' ∨ ∃ s s', v = .string s ∧ v' = .string s' := by
  cases v <;> cases v' <;> simp [maskString]

mutual

theorem maskSecrets_eq_iff (j j' : Json) :
    maskSecrets j = maskSecrets j' ↔ DifferInMasked j j' := by
  match j with
  | .object members =>
    cases j' with
    | object members' =>
      simp only [maskSecrets, Json.object.injEq, maskMembers_eq_iff members members']
      constructor
      · exact .object
      · intro h
        cases h with
        | same => exact membersMasked_refl members
        | object h => exact h
    | _ => exact iff_of_false (by simp [maskSecrets]) (by rintro ⟨⟩)
  | .null | .bool _ | .number _ | .string _ | .array _ =>
    exact maskSecrets_eq_iff_of_atom (by simp) j'

theorem maskMembers_eq_iff (members members' : List (String × Json)) :
    maskMembers members = maskMembers members' ↔ MembersMasked members members' := by
  match members, members' with
  | [], [] => exact iff_of_true rfl .nil
  | [], (_, _) :: _ => exact iff_of_false (by simp [maskMembers]) (by rintro ⟨⟩)
  | (_, _) :: _, [] => exact iff_of_false (by simp [maskMembers]) (by rintro ⟨⟩)
  | (k, v) :: members, (k', v') :: members' =>
    have hrest := maskMembers_eq_iff members members'
    have hvalue := maskSecrets_eq_iff v v'
    rw [maskMembers, maskMembers, List.cons_eq_cons, Prod.mk.injEq, hrest]
    constructor
    · rintro ⟨⟨rfl, hv⟩, hmembers⟩
      cases hk : masks k with
      | false =>
        simp only [hk, Bool.false_eq_true, if_false, hvalue] at hv
        exact .inside hk hv hmembers
      | true =>
        simp only [hk, if_true] at hv
        obtain rfl | ⟨s, s', rfl, rfl⟩ := (maskString_eq_iff v v').mp hv
        · exact .same (k, v) hmembers
        · exact .masked s s' hk hmembers
    · intro h
      cases h with
      | masked s s' hk hmembers => exact ⟨⟨rfl, by simp [hk, maskString]⟩, hmembers⟩
      | inside hk hv hmembers => exact ⟨⟨rfl, by simp [hk, hvalue.mpr hv]⟩, hmembers⟩
      | same m hmembers => exact ⟨⟨rfl, rfl⟩, hmembers⟩

end

theorem payload_parsed {body : Bytes} {j : Json} (h : codec.parse body = some j) :
    payload codec body = maskSecrets j := by
  have hne : body ≠ [] := by
    rintro rfl
    rw [codec.parse_nil] at h
    cases h
  simp [payload, hne, h]

/-- What is read back says what the value is, of which nothing is read back for `null` alone. -/
theorem read_dumpPayload {j : Json} (h : (codec.dump j).bind codec.parse = some j) :
    (dumpPayload codec j).bind codec.parse = (match j with | .null => none | j => some j) := by
  cases j with
  | null => exact codec.parse_nil
  | _ => exact h

theorem dumpPayload_eq_iff {m m' : Json} (h : (codec.dump m).bind codec.parse = some m)
    (h' : (codec.dump m').bind codec.parse = some m') :
    dumpPayload codec m = dumpPayload codec m' ↔ m = m' := by
  refine ⟨fun htext ↦ ?_, fun heq ↦ by rw [heq]⟩
  have hmatch := congrArg (·.bind codec.parse) htext
  rw [read_dumpPayload codec h, read_dumpPayload codec h'] at hmatch
  cases m <;> cases m' <;> simp at hmatch ⊢ <;> exact hmatch

theorem payloadText_eq_iff {body body' : Bytes} {j j' : Json} (h : codec.parse body = some j)
    (h' : codec.parse body' = some j') :
    payloadText codec body = payloadText codec body' ↔ DifferInMasked j j' := by
  unfold payloadText
  rw [payload_parsed codec h, payload_parsed codec h',
    dumpPayload_eq_iff codec (codec.read_back body j h) (codec.read_back body' j' h'),
    maskSecrets_eq_iff]

/-- Two requests that differ at most in the strings of credentials are recorded with the same
payload if and only if they are no logins and masking gets at all that they differ in. -/
theorem secrets_masked (codec : AuditCodec) {req req' : HttpRequest} {j j' : Json}
    (hmethod : req'.method = req.method) (hpath : req'.path = req.path)
    (hj : codec.parse req.body = some j) (hj' : codec.parse req'.body = some j') :
    (DifferInSecrets j j' → recordedPayload codec req = recordedPayload codec req') ↔
      (DifferInSecrets j j' → audited req = false ∨ DifferInMasked j j') := by
  refine imp_congr_right fun _ ↦ ?_
  have haudited : audited req' = audited req := by
    unfold audited
    rw [hmethod, hpath]
  unfold recordedPayload
  rw [haudited]
  cases audited req with
  | false => simp
  | true => simp [payloadText_eq_iff codec hj hj']

def memberText (key : String) (value : Bytes) : Bytes :=
  ascii "\x7b\"" ++ ascii key ++ ascii "\":\"" ++ value ++ ascii "\"\x7d"

theorem memberText_inj {key : String} {value value' : Bytes} :
    memberText key value = memberText key value' ↔ value = value' := by
  simp [memberText]

def parseMember (key : String) (text : Bytes) : Option Json :=
  ([ascii "a", ascii "b", ascii "***"].find? fun value ↦ text = memberText key value).map
    fun value ↦
    .object [(key, .string value)]

theorem parseMember_eq_some {key : String} {text : Bytes} {j : Json} :
    parseMember key text = some j ↔ ∃ value ∈ [ascii "a", ascii "b", ascii "***"],
      text = memberText key value ∧ j = .object [(key, .string value)] := by
  unfold parseMember
  rw [Option.map_eq_some_iff]
  constructor
  · rintro ⟨value, hfind, rfl⟩
    exact ⟨value, List.mem_of_find?_eq_some hfind, by simpa using List.find?_some hfind, rfl⟩
  · rintro ⟨value, hmem, rfl, rfl⟩
    have hsome : (([ascii "a", ascii "b", ascii "***"].find? fun v ↦
        memberText key value = memberText key v)).isSome := by
      rw [List.find?_isSome]
      exact ⟨value, hmem, by simp⟩
    obtain ⟨v, hv⟩ := Option.isSome_iff_exists.mp hsome
    obtain rfl : value = v := memberText_inj.mp (by simpa using List.find?_some hv)
    exact ⟨value, hv, rfl⟩

def oneMember (key : String) : AuditCodec where
  parse := parseMember key
  dump
    | .object [(k, .string value)] => some (memberText k value)
    | _ => none
  parse_nil := by simp [parseMember, memberText, ascii]
  read_back := by
    intro text j h
    obtain ⟨value, hmem, rfl, rfl⟩ := parseMember_eq_some.mp h
    simp only [maskSecrets, maskMembers]
    cases masks key with
    | false =>
      exact parseMember_eq_some.mpr ⟨value, hmem, rfl, rfl⟩
    | true =>
      exact parseMember_eq_some.mpr ⟨ascii "***", by simp, rfl, rfl⟩

def update (key : String) (value : Bytes) : HttpRequest where
  method := .put
  path := ascii "/api/config/auth"
  body := memberText key value

theorem parse_update (key : String) {value : Bytes}
    (h : value ∈ [ascii "a", ascii "b", ascii "***"]) :
    (oneMember key).parse (update key value).body = some (.object [(key, .string value)]) :=
  parseMember_eq_some.mpr ⟨value, h, rfl, rfl⟩

theorem secrets_masked_password :
    let j := Json.object [("password", .string (ascii "a"))]
    let j' := Json.object [("password", .string (ascii "b"))]
    (DifferInSecrets j j' → recordedPayload (oneMember "password") (update "password" (ascii "a")) =
        recordedPayload (oneMember "password") (update "password" (ascii "b"))) ↔
      (DifferInSecrets j j' → audited (update "password" (ascii "a")) = false ∨
        DifferInMasked j j') :=
  secrets_masked (oneMember "password") rfl rfl (parse_update "password" (by simp))
    (parse_update "password" (by simp))

theorem differ_member {key : String} (h : Credential key) (s s' : Bytes) :
    DifferInSecrets (.object [(key, .string s)]) (.object [(key, .string s')]) :=
  .object (.secret s s' h .nil)

/-- The old password is recorded as it is, and in an array no password is masked. -/
theorem not_secrets_masked :
    recordedPayload (oneMember "old_password") (update "old_password" (ascii "a")) =
      some (update "old_password" (ascii "a")).body ∧
    (∃ items items', DifferInSecrets (.array items) (.array items') ∧
      maskSecrets (.array items) ≠ maskSecrets (.array items')) ∧
    ¬ ∀ (codec : AuditCodec) (req req' : HttpRequest) (j j' : Json), req'.method = req.method →
      req'.path = req.path → codec.parse req.body = some j → codec.parse req'.body = some j' →
      DifferInSecrets j j' → recordedPayload codec req = recordedPayload codec req' := by
  have hrecorded (value : Bytes) (h : value ∈ [ascii "a", ascii "b", ascii "***"]) :
      recordedPayload (oneMember "old_password") (update "old_password" value) =
        some (memberText "old_password" value) := by
    have haudited : audited (update "old_password" value) = true := by simp [audited, update, ascii]
    have hmasks : masks "old_password" = false := by decide +kernel
    unfold recordedPayload payloadText
    rw [haudited, payload_parsed _ (parse_update "old_password" h)]
    simp [maskSecrets, maskMembers, hmasks, dumpPayload, oneMember]
  refine ⟨hrecorded (ascii "a") (by simp), ?_, fun h ↦ ?_⟩
  · refine ⟨[.object [("password", .string (ascii "a"))]],
      [.object [("password", .string (ascii "b"))]], .array (.cons (differ_member ?_ _ _) .nil), ?_⟩
    · unfold Credential
      decide +kernel
    · simp [maskSecrets, ascii]
  · have hsame := h (oneMember "old_password") (update "old_password" (ascii "a"))
      (update "old_password" (ascii "b")) _ _ rfl rfl (parse_update _ (by simp))
        (parse_update _ (by simp))
      (differ_member (by unfold Credential; decide +kernel) _ _)
    rw [hrecorded _ (by simp), hrecorded _ (by simp), Option.some_inj, memberText_inj] at hsame
    exact absurd hsame (by decide +kernel)

end NavCaster.Http.Audit
