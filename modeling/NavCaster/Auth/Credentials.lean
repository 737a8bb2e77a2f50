import NavCaster.Auth.Verify

namespace NavCaster.Auth.Credentials

open NavCaster.Library.Strto (Bytes)
open NavCaster.Library.Scan
open NavCaster.Auth.Account NavCaster.Auth.Verify

variable {A : Type} {parse : Bytes → Option Json}

theorem fill_preserves {α : Type} (get : AuthLimit → α) {fs : List (AuthLimit → Option AuthLimit)}
    (h : ∀ f ∈ fs, ∀ l l', f l = some l' → get l' = get l) (l : AuthLimit) :
    get (AuthLimit.fill fs l).1 = get l := by
  induction fs generalizing l with
  | nil => rfl
  | cons f fs ih =>
    rw [AuthLimit.fill]
    cases hf : f l with
    | none => rfl
    | some l' =>
      have hrest := ih (fun g hg ↦ h g (List.mem_cons_of_mem f hg)) l'
      exact hrest.trans (h f List.mem_cons_self l l' hf)

theorem fromString_password (info : Json) :
    (AuthLimit.fromString info).1.password =
      match info.value Json.getString "account" [], info.value Json.getString "password" [] with
      | some _, some stored => stored
      | _, _ => [] := by
  unfold AuthLimit.fromString AuthLimit.fields
  cases info.value Json.getString "account" [] with
  | none => rfl
  | some account =>
    cases info.value Json.getString "password" [] with
    | none => rfl
    | some stored =>
      refine fill_preserves AuthLimit.password ?_ ({ account, password := stored } : AuthLimit)
      intro f hf l l' h
      simp only [List.mem_cons, List.not_mem_nil, or_false] at hf
      obtain rfl | rfl | rfl | rfl | rfl | rfl | rfl | rfl := hf <;>
        · obtain ⟨x, -, h⟩ := Option.bind_eq_some_iff.mp h
          first
            | cases h
              rfl
            | obtain ⟨y, -, h⟩ := Option.bind_eq_some_iff.mp h
              cases h
              rfl

structure StoredAccount (parse : Bytes → Option Json) where
  text : Bytes
  members : List (String × Json)
  parsed : parse text = some (.object members)

namespace StoredAccount

def info (a : StoredAccount parse) : Json := .object a.members

def reply : Option (StoredAccount parse) → RedisReply
  | none => .nil
  | some a => .string a.text

end StoredAccount

def Live (now : Int) (info : Json) : Prop :=
  AuthLimit.readActive info = some true ∧
    ∃ expire, AuthLimit.readExpire "expire" info = some expire ∧ (expire = 0 ∨ now < expire)

def Permitted (stored : Option (StoredAccount parse)) (userPwd : Bytes) (now : Int) : Prop :=
  ∃ a, stored = some a ∧ a.info.value Json.getString "password" [] = some userPwd ∧ Live now a.info

def Answers (h : Handled A) (arg : A) (type : AuthReply) : Prop :=
  ∃ s str groupUid, h = .done s [⟨arg, type, str, groupUid⟩] []

/-- The right password is presented for a live account only. Where the account name or the password
is no string, the empty password takes the place of the right one. -/
def LiveIfOpened (info : Json) (userPwd : Bytes) (now : Int) : Prop :=
  match info.value Json.getString "account" [], info.value Json.getString "password" [] with
  | some _, some stored => stored = userPwd → Live now info
  | none, some stored =>
    if userPwd = [] then stored = [] ∧ Live now info else stored = userPwd → ¬ Live now info
  | _, none => userPwd ≠ []

theorem answers_ok {ctx : AuthCtx Bytes A} {s : Logins Bytes A} {a : StoredAccount parse} :
    Answers (redisVerifyCallback parse ctx (some (.string a.text)) s) ctx.arg .ok ↔
      (AuthLimit.fromString a.info).1.password = ctx.userPwd := by
  unfold redisVerifyCallback
  dsimp only
  rw [a.parsed]
  dsimp only
  split
  · next hne =>
    refine ⟨fun ⟨_, _, _, h⟩ ↦ ?_, fun h ↦ absurd h hne⟩
    cases h
  · next heq => exact ⟨fun _ ↦ not_not.mp heq, fun _ ↦ ⟨_, _, _, rfl⟩⟩

theorem answers_err {ctx : AuthCtx Bytes A} {s : Logins Bytes A} {a : StoredAccount parse} :
    Answers (redisVerifyCallback parse ctx (some (.string a.text)) s) ctx.arg .err ↔
      (AuthLimit.fromString a.info).1.password ≠ ctx.userPwd := by
  unfold redisVerifyCallback
  dsimp only
  rw [a.parsed]
  dsimp only
  split
  · next hne => exact ⟨fun _ ↦ hne, fun _ ↦ ⟨_, _, _, rfl⟩⟩
  · next heq =>
    refine ⟨fun ⟨_, _, _, h⟩ ↦ ?_, fun h ↦ absurd h heq⟩
    cases h

theorem permitted_some {a : StoredAccount parse} {userPwd : Bytes} {now : Int} :
    Permitted (some a) userPwd now ↔
      a.info.value Json.getString "password" [] = some userPwd ∧ Live now a.info := by
  refine ⟨?_, fun h ↦ ⟨a, rfl, h⟩⟩
  rintro ⟨a', ha, h⟩
  cases ha
  exact h

theorem password_iff_permitted {a : StoredAccount parse} {userPwd : Bytes} {now : Int} :
    ((AuthLimit.fromString a.info).1.password = userPwd ↔ Permitted (some a) userPwd now) ↔
      LiveIfOpened a.info userPwd now := by
  rw [permitted_some, fromString_password]
  unfold LiveIfOpened
  generalize Live now a.info = live
  cases a.info.value Json.getString "account" [] with
  | some account =>
    cases a.info.value Json.getString "password" [] with
    | some stored =>
      rw [Option.some.injEq]
      exact ⟨fun h hpwd ↦ (h.mp hpwd).2, fun h ↦ ⟨fun hpwd ↦ ⟨hpwd, h hpwd⟩, And.left⟩⟩
    | none =>
      dsimp only
      rw [eq_comm]
      simp
  | none =>
    cases a.info.value Json.getString "password" [] with
    | some stored =>
      dsimp only
      rw [Option.some.injEq]
      by_cases hpwd : userPwd = []
      · rw [if_pos hpwd, hpwd]
        simp
      · rw [if_neg hpwd, eq_comm]
        simp [hpwd]
    | none =>
      dsimp only
      rw [eq_comm]
      simp

theorem credentials (opt : AuthOpt) (ctx : AuthCtx Bytes A) (s : Logins Bytes A)
    (stored : Option (StoredAccount parse)) (now : Int)
    (hnamed : opt.verifiesAnonymous ctx.type = false) :
    let h := handleReply parse opt (verify opt ctx) (some (StoredAccount.reply stored)) s
    ((Permitted stored ctx.userPwd now → Answers h ctx.arg .ok) ∧
      (¬ Permitted stored ctx.userPwd now → Answers h ctx.arg .err)) ↔
      ∀ a, stored = some a → LiveIfOpened a.info ctx.userPwd now := by
  have hsent : verify opt ctx = .hgetActive ctx := if_neg (by rw [hnamed]; exact Bool.false_ne_true)
  rw [hsent]
  dsimp only
  cases stored with
  | none =>
    refine ⟨fun _ ↦ nofun, fun _ ↦ ⟨?_, fun _ ↦ ⟨_, _, _, rfl⟩⟩⟩
    rintro ⟨a, ha, -⟩
    cases ha
  | some a =>
    have hiff := @password_iff_permitted parse a ctx.userPwd now
    dsimp only [handleReply, StoredAccount.reply]
    rw [answers_ok, answers_err]
    constructor
    · rintro ⟨hok, herr⟩ a' ha
      cases ha
      exact hiff.mp ⟨fun h ↦ by_contra fun hno ↦ herr hno h, hok⟩
    · intro h
      have hsame := hiff.mpr (h a rfl)
      exact ⟨hsame.mpr, fun hno hpwd ↦ hno (hsame.mp hpwd)⟩

def readAccount (active : Bool) : Bytes → Option Json := fun _ ↦
  some (.object [("password", .string (ascii "p")), ("active", .bool active)])

def account (active : Bool) : StoredAccount (readAccount active) where
  text := []
  members := [("password", .string (ascii "p")), ("active", .bool active)]
  parsed := rfl

def login : AuthCtx Bytes Nat := ⟨.server, ascii "u", ascii "p", [], 7⟩

theorem credentials_active :
    let h := handleReply (readAccount true) ⟨false, false, false, false, false⟩
      (verify ⟨false, false, false, false, false⟩ login)
      (some (StoredAccount.reply (some (account true)))) {}
    ((Permitted (some (account true)) (ascii "p") 1 → Answers h 7 .ok) ∧
      (¬ Permitted (some (account true)) (ascii "p") 1 → Answers h 7 .err)) :=
  (credentials ⟨false, false, false, false, false⟩ login {} (some (account true)) 1 rfl).mpr
    fun a ha ↦ by
      cases ha
      exact fun _ ↦ ⟨rfl, 0, rfl, .inl rfl⟩

theorem not_credentials :
    ¬ ∀ (parse : Bytes → Option Json) (opt : AuthOpt) (ctx : AuthCtx Bytes Nat)
      (s : Logins Bytes Nat) (stored : Option (StoredAccount parse)) (now : Int),
      opt.verifiesAnonymous ctx.type = false →
      let h := handleReply parse opt (verify opt ctx) (some (StoredAccount.reply stored)) s
      ((Permitted stored ctx.userPwd now → Answers h ctx.arg .ok) ∧
        (¬ Permitted stored ctx.userPwd now → Answers h ctx.arg .err)) := by
  intro h
  obtain ⟨-, herr⟩ := h (readAccount false) ⟨false, false, false, false, false⟩ login {}
    (some (account false)) 1 rfl
  have hinactive : ¬ Permitted (some (account false)) (ascii "p") 1 := by
    rw [permitted_some]
    rintro ⟨-, hactive, -⟩
    cases hactive
  have hno : (AuthLimit.fromString (account false).info).1.password ≠ login.userPwd :=
    @answers_err _ _ login {} (account false) |>.mp (herr hinactive)
  exact hno rfl

end NavCaster.Auth.Credentials
