import NavCaster.Auth.Account
import NavCaster.Library.Machine
import NavCaster.Library.Table

namespace NavCaster.Http.Login

open NavCaster.Library
open NavCaster.Library.Strto (Bytes)
open NavCaster.Library.Scan (ascii)
open NavCaster.Auth.Account (Json Number)

structure HttpApiConfig where
  adminUser : Bytes := ascii "admin"
  adminPassword : Bytes := ascii "admin"
  deriving DecidableEq

inductive Section
  | service | core | auth
  deriving DecidableEq

/-- `conf` are the keys `CONF:*` of the database, as the values that are read back from their
texts. -/
structure HttpHandler where
  config : HttpApiConfig
  activeTokens : Table Bytes Bytes := ∅
  conf : Section → Option Json := fun _ ↦ none

/-- `body` is what the parser makes of the body, and nothing where it throws. -/
structure HttpRequest where
  pathSegments : List Bytes := []
  queryParams : Table Bytes Bytes := ∅
  body : Option Json := none

structure HttpResponse where
  statusCode : Nat
  body : Json

def error (statusCode : Nat) (text : String) : HttpResponse :=
  ⟨statusCode, .object [("error", .string text.toUTF8.toList)]⟩

def internalError : HttpResponse := error 500 "Internal Server Error"

def Section.ofId (id : Bytes) : Option Section :=
  if id = ascii "service" then some service
  else if id = ascii "core" then some core
  else if id = ascii "auth" then some auth
  else none

def getResourceId (req : HttpRequest) : Bytes := req.pathSegments.getLast?.getD []

def erase (key : String) : Json → Json
  | .object members => .object (members.filter (·.1 ≠ key))
  | j => j

namespace HttpHandler

variable (connected : Bool) (s : HttpHandler)

/-- A connection that is down answers no command. -/
def get (sec : Section) : Json := if connected then (s.conf sec).getD .null else .null

def set (sec : Section) (value : Json) : Bool × HttpHandler :=
  if connected then (true, { s with conf := Function.update s.conf sec (some value) })
  else (false, s)

def generateToken (token user : Bytes) : HttpHandler :=
  { s with activeTokens := s.activeTokens.insert token user }

/-- A member of the stored credentials; `none` where it throws. -/
def storedMember (key : String) : Json → Option Bytes
  | .object members => (Json.object members).value Json.getString key []
  | _ => some []

/-- `token` is the token that is drawn. -/
def handleLogin (token : Bytes) (req : HttpRequest) : HttpResponse × HttpHandler :=
  match req.body with
  | none => (error 400 "Invalid JSON body", s)
  | some body =>
    match body.value Json.getString "username" [], body.value Json.getString "password" [] with
    | some user, some pass =>
      let granted : HttpResponse × HttpHandler :=
        (⟨200, .object [("token", .string token), ("username", .string user)]⟩,
          s.generateToken token user)
      if user = s.config.adminUser ∧ pass = s.config.adminPassword then granted
      else
        let authConf := s.get connected .auth
        match storedMember "admin_user" authConf, storedMember "admin_password" authConf with
        | some redisUser, some redisPass =>
          if redisUser ≠ [] ∧ user = redisUser ∧ pass = redisPass then granted
          else (error 401 "Invalid credentials", s)
        | _, _ => (internalError, s)
    | _, _ => (internalError, s)

def currentPassword : Option Bytes :=
  match s.get connected .auth with
  | .object members =>
    (Json.object members).value Json.getString "admin_password" s.config.adminPassword
  | _ => some s.config.adminPassword

def save (sec : Section) (value : Json) : HttpResponse × HttpHandler :=
  match s.set connected sec value with
  | (false, s) => (error 500 "Redis error", s)
  | (true, s) => (⟨200, .object [("ok", .bool true)]⟩, s)

def handleUpdateConfig (req : HttpRequest) : HttpResponse × HttpHandler :=
  match Section.ofId (getResourceId req), req.body with
  | none, _ => (error 404 "Unknown config section", s)
  | some _, none => (error 400 "Invalid JSON", s)
  | some .auth, some body =>
    match body.value Json.getString "old_password" [] with
    | none => (internalError, s)
    | some [] => (error 400 "需要输入当前密码", s)
    | some oldPassword =>
      match s.currentPassword connected with
      | none => (internalError, s)
      | some current =>
        if oldPassword ≠ current then (error 403 "当前密码错误", s)
        else s.save connected .auth (erase "old_password" body)
  | some sec, some body => s.save connected sec body

def saveConfig (sec : Section) (value : Json) : HttpHandler := (s.set connected sec value).2

end HttpHandler

structure AuthVerifyOpt where
  redisHost : Bytes
  redisPort : Int
  redisPassword : Bytes
  baseAnonymousLogin : Bool
  baseOnlineProtection : Bool
  roverAnonymousLogin : Bool
  roverOnlineProtection : Bool
  sourceAnonymousLogin : Bool

def AuthVerifyOpt.toJson (opt : AuthVerifyOpt) : Json :=
  .object
    [("redis_host", .string opt.redisHost),
      ("redis_port", .number ⟨opt.redisPort, opt.redisPort, opt.redisPort⟩),
      ("redis_password", .string opt.redisPassword),
      ("base_anonymous_login", .bool opt.baseAnonymousLogin),
      ("base_online_protection", .bool opt.baseOnlineProtection),
      ("rover_anonymous_login", .bool opt.roverAnonymousLogin),
      ("rover_online_protection", .bool opt.roverOnlineProtection),
      ("source_anonymous_login", .bool opt.sourceAnonymousLogin)]

structure Options where
  service : Json
  core : Json
  auth : AuthVerifyOpt

/-- The service is started again, which writes the configuration to the database. -/
def startHttpApi (connected : Bool) (opts : Options) (s : HttpHandler) : HttpHandler :=
  let s : HttpHandler := { s with activeTokens := ∅ }
  let s := s.saveConfig connected .service opts.service
  let s := s.saveConfig connected .core opts.core
  s.saveConfig connected .auth opts.auth.toJson

inductive Action
  | put (connected : Bool) (req : HttpRequest)
  | restart (connected : Bool) (opts : Options)

def machine : Machine HttpHandler Action Unit where
  step s
    | .put connected req =>
      let p := s.handleUpdateConfig connected req
      if p.1.statusCode = 200 then some (p.2, []) else none
    | .restart connected opts => some (startHttpApi connected opts s, [])

abbrev Credentials := Bytes × Bytes

def HttpApiConfig.credentials (config : HttpApiConfig) : Credentials :=
  (config.adminUser, config.adminPassword)

def Action.change : Action → Option Json
  | put _ req => if Section.ofId (getResourceId req) = some .auth then req.body else none
  | restart _ _ => none

/-- What a change does not mention stays as it is. -/
def replace (credentials : Credentials) (body : Json) : Credentials :=
  (((body.find "admin_user").bind Json.getString).getD credentials.1,
    ((body.find "admin_password").bind Json.getString).getD credentials.2)

/-- The user name and the password that have been set last. -/
def lastSet (config : HttpApiConfig) (as : List Action) : Credentials :=
  (as.filterMap Action.change).foldl replace config.credentials

/-- A stored user name that is not empty, with its password. -/
def stored (body : Json) : Option Credentials := do
  let user ← HttpHandler.storedMember "admin_user" body
  let pass ← HttpHandler.storedMember "admin_password" body
  if user = [] then none else some (user, pass)

def settle (credentials : Option Credentials) : Action → Option Credentials
  | .put connected req => ((Action.put connected req).change.map stored).getD credentials
  | .restart connected _ => if connected then none else credentials

/-- The credentials of the last change, unless the service has been started since. -/
def inForce (as : List Action) : Option Credentials := as.foldl settle none

/-- Exactly one pair of user name and password can log in. -/
def Accepts (s : HttpHandler) (credentials : Credentials) : Prop :=
  ∀ token req body user pass, req.body = some body →
    body.value Json.getString "username" [] = some user →
    body.value Json.getString "password" [] = some pass →
    ((s.handleLogin true token req).1.statusCode = 200 ↔ (user, pass) = credentials)

variable {s s' : HttpHandler} {as : List Action} {es : List Unit}

theorem stored_eq_some {body : Json} {user pass : Bytes} : stored body = some (user, pass) ↔
    HttpHandler.storedMember "admin_user" body = some user ∧
      HttpHandler.storedMember "admin_password" body = some pass ∧ user ≠ [] := by
  unfold stored
  cases HttpHandler.storedMember "admin_user" body with
  | none => simp
  | some user' =>
    cases HttpHandler.storedMember "admin_password" body with
    | none => simp
    | some pass' =>
      simp only [Option.bind_eq_bind, Option.bind_some, Option.some_inj]
      by_cases hnil : user' = []
      · rw [if_pos hnil]
        refine iff_of_false nofun ?_
        rintro ⟨rfl, -, hne⟩
        exact hne hnil
      · rw [if_neg hnil, Option.some_inj, Prod.mk.injEq]
        refine and_congr_right fun huser ↦ ?_
        subst huser
        exact (and_iff_left hnil).symm

theorem handleLogin_iff {token user pass : Bytes} {req : HttpRequest} {body : Json}
    (hbody : req.body = some body) (huser : body.value Json.getString "username" [] = some user)
    (hpass : body.value Json.getString "password" [] = some pass) :
    (s.handleLogin true token req).1.statusCode = 200 ↔
      (user, pass) = s.config.credentials ∨ stored (s.get true .auth) = some (user, pass) := by
  rw [stored_eq_some]
  unfold HttpHandler.handleLogin
  simp only [hbody, huser, hpass]
  by_cases hconfig : user = s.config.adminUser ∧ pass = s.config.adminPassword
  · rw [if_pos hconfig]
    exact iff_of_true rfl (.inl (Prod.ext hconfig.1 hconfig.2))
  · rw [if_neg hconfig]
    have hne : (user, pass) ≠ s.config.credentials := fun heq ↦ hconfig (Prod.mk.inj heq)
    rw [or_iff_right hne]
    cases HttpHandler.storedMember "admin_user" (s.get true .auth) with
    | none => exact iff_of_false (show ¬ (500 : Nat) = 200 by decide) nofun
    | some redisUser =>
      cases HttpHandler.storedMember "admin_password" (s.get true .auth) with
      | none => exact iff_of_false (show ¬ (500 : Nat) = 200 by decide) (by simp)
      | some redisPass =>
        simp only [Option.some_inj]
        by_cases hredis : redisUser ≠ [] ∧ user = redisUser ∧ pass = redisPass
        · rw [if_pos hredis]
          obtain ⟨hnil, rfl, rfl⟩ := hredis
          exact iff_of_true rfl ⟨rfl, rfl, hnil⟩
        · rw [if_neg hredis]
          refine iff_of_false (show ¬ (401 : Nat) = 200 by decide) ?_
          rintro ⟨rfl, rfl, hnil⟩
          exact hredis ⟨hnil, rfl, rfl⟩

theorem storedMember_erase {key : String} (hkey : key ≠ "old_password") (body : Json) :
    HttpHandler.storedMember key (erase "old_password" body) =
      HttpHandler.storedMember key body := by
  cases body with
  | object members =>
    have hlookup : (members.filter (·.1 ≠ "old_password")).lookup key = members.lookup key := by
      induction members with
      | nil => rfl
      | cons member members ih =>
        obtain ⟨name, value⟩ := member
        rw [List.filter_cons]
        by_cases hname : name = "old_password"
        · have hne : (key == name) = false := by simp [hname, hkey]
          rw [if_neg (by simp [hname]), ih, List.lookup_cons, hne]
        · rw [if_pos (by simp [hname]), List.lookup_cons, List.lookup_cons, ih]
    unfold erase HttpHandler.storedMember Json.value
    dsimp only
    rw [hlookup]
  | _ => rfl

theorem stored_erase (body : Json) : stored (erase "old_password" body) = stored body := by
  unfold stored
  rw [storedMember_erase (by decide), storedMember_erase (by decide)]

theorem save_succeeded {connected : Bool} {sec : Section} {value : Json}
    (h : (s.save connected sec value).1.statusCode = 200) :
    (s.save connected sec value).2.config = s.config ∧
      (s.save connected sec value).2.get true .auth = if sec = .auth then value
        else s.get true .auth := by
  cases connected with
  | true =>
    refine ⟨rfl, ?_⟩
    cases sec <;> rfl
  | false => exact absurd h (show ¬ (500 : Nat) = 200 by decide)

/-- A successful change is what the database has from then on. -/
theorem handleUpdateConfig_succeeded {connected : Bool} {req : HttpRequest}
    (h : (s.handleUpdateConfig connected req).1.statusCode = 200) :
    (s.handleUpdateConfig connected req).2.config = s.config ∧
      stored ((s.handleUpdateConfig connected req).2.get true .auth) =
        ((Action.put connected req).change.map stored).getD (stored (s.get true .auth)) := by
  unfold HttpHandler.handleUpdateConfig at h ⊢
  cases hid : Section.ofId (getResourceId req) with
  | none =>
    rw [hid] at h
    exact absurd h (show ¬ (404 : Nat) = 200 by decide)
  | some sec =>
    cases hbody : req.body with
    | none =>
      rw [hid, hbody] at h
      exact absurd h (show ¬ (400 : Nat) = 200 by decide)
    | some body =>
      have hchange : (Action.put connected req).change = if sec = .auth then some body
          else none := by
        simp only [Action.change, hid, hbody, Option.some_inj]
      rw [hid, hbody] at h
      rw [hchange]
      cases sec with
      | service =>
        obtain ⟨hconfig, hget⟩ := save_succeeded h
        exact ⟨hconfig, congrArg stored hget⟩
      | core =>
        obtain ⟨hconfig, hget⟩ := save_succeeded h
        exact ⟨hconfig, congrArg stored hget⟩
      | auth =>
        dsimp only at h ⊢
        split at h
        · exact absurd h (show ¬ (500 : Nat) = 200 by decide)
        · exact absurd h (show ¬ (400 : Nat) = 200 by decide)
        · split at h
          · exact absurd h (show ¬ (500 : Nat) = 200 by decide)
          · split at h
            · exact absurd h (show ¬ (403 : Nat) = 200 by decide)
            · next hold =>
              rw [if_neg hold]
              obtain ⟨hconfig, hget⟩ := save_succeeded h
              exact ⟨hconfig, (congrArg stored hget).trans (stored_erase body)⟩

theorem startHttpApi_stored (connected : Bool) (opts : Options) :
    (startHttpApi connected opts s).config = s.config ∧
      stored ((startHttpApi connected opts s).get true .auth) =
        if connected then none else stored (s.get true .auth) := by
  cases connected with
  | true => exact ⟨rfl, rfl⟩
  | false => exact ⟨rfl, rfl⟩

theorem exec_settle (h : machine.exec s as = some (s', es)) :
    s'.config = s.config ∧
      stored (s'.get true .auth) = as.foldl settle (stored (s.get true .auth)) := by
  induction as generalizing s es with
  | nil =>
    cases h
    exact ⟨rfl, rfl⟩
  | cons a as ih =>
    obtain ⟨t, es₁, es₂, hstep, hexec, _⟩ := Machine.step_of_exec_cons h
    have hsettle : t.config = s.config ∧
        stored (t.get true .auth) = settle (stored (s.get true .auth)) a := by
      cases a with
      | put connected req =>
        obtain ⟨hstatus, heq⟩ := Option.ite_none_right_eq_some.mp hstep
        cases heq
        exact handleUpdateConfig_succeeded hstatus
      | restart connected opts =>
        cases hstep
        exact startHttpApi_stored connected opts
    obtain ⟨hconfig, hstored⟩ := ih hexec
    refine ⟨hconfig.trans hsettle.1, ?_⟩
    rw [hstored, hsettle.2, List.foldl_cons]

def loginRequest (credentials : Credentials) : HttpRequest where
  body := some (.object [("username", .string credentials.1), ("password", .string credentials.2)])

/-- The credentials that have been set last are the only ones that can log in just when they are the
configured ones, and no others have been stored since. -/
theorem accepts_iff {config : HttpApiConfig} (h : machine.exec { config } as = some (s, es)) :
    Accepts s (lastSet config as) ↔
      lastSet config as = config.credentials ∧
        ∀ credentials ∈ inForce as, credentials = config.credentials := by
  obtain ⟨hconfig, hstored⟩ := exec_settle h
  have hforce : stored (s.get true .auth) = inForce as := hstored
  have hlogin : ∀ credentials, Accepts s (lastSet config as) →
      credentials = config.credentials ∨ inForce as = some credentials →
        credentials = lastSet config as := by
    rintro ⟨user, pass⟩ haccepts hcredentials
    refine (haccepts [] (loginRequest (user, pass)) _ user pass rfl rfl rfl).mp ?_
    rw [handleLogin_iff rfl rfl rfl, hconfig, hforce]
    exact hcredentials
  constructor
  · intro haccepts
    have hlast := hlogin config.credentials haccepts (.inl rfl)
    refine ⟨hlast.symm, fun credentials hmem ↦ ?_⟩
    exact (hlogin credentials haccepts (.inr hmem)).trans hlast.symm
  · rintro ⟨hlast, hother⟩ token req body user pass hbody huser hpass
    rw [handleLogin_iff hbody huser hpass, hconfig, hforce, hlast]
    refine ⟨fun hcredentials ↦ ?_, .inl⟩
    rcases hcredentials with heq | heq
    · exact heq
    · exact hother _ heq

def options : Options where
  service := .object []
  core := .object []
  auth :=
    { redisHost := ascii "127.0.0.1"
      redisPort := 6379
      redisPassword := []
      baseAnonymousLogin := false
      baseOnlineProtection := false
      roverAnonymousLogin := false
      roverOnlineProtection := false
      sourceAnonymousLogin := false }

def changeToRoot : Action :=
  .put true
    { pathSegments := [ascii "api", ascii "config", ascii "auth"]
      body := some (.object
        [("admin_user", .string (ascii "root")), ("admin_password", .string (ascii "secret")),
          ("old_password", .string (ascii "admin"))]) }

def changed : List Action := [.restart true options, changeToRoot]

theorem accepts_iff_changed : ∃ s es, machine.exec { config := {} } changed = some (s, es) ∧
    (Accepts s (lastSet {} changed) ↔
      lastSet {} changed = HttpApiConfig.credentials {} ∧
        ∀ credentials ∈ inForce changed, credentials = HttpApiConfig.credentials {}) ∧
    lastSet {} changed = (ascii "root", ascii "secret") :=
  ⟨_, _, rfl, accepts_iff rfl, rfl⟩

/-- The next start undoes the change. -/
theorem not_accepts_restarted : ¬ ∀ config as s es, machine.exec { config } as = some (s, es) →
    Accepts s (lastSet config as) := by
  intro h
  have haccepts := h {} [.restart true options, changeToRoot, .restart true options] _ _ rfl
  have hlogin :=
    haccepts [] (loginRequest (ascii "root", ascii "secret")) _ (ascii "root") (ascii "secret") rfl
      rfl rfl
  have hstatus := hlogin.mpr (by decide)
  revert hstatus
  decide

end NavCaster.Http.Login
