import NavCaster.Http.Audit
import NavCaster.Http.Login
import NavCaster.Http.Routes
import NavCaster.Library.Utf8

namespace NavCaster.Http.Api

open NavCaster.Library
open NavCaster.Library.Strto (Bytes)
open NavCaster.Library.Scan (ascii)
open NavCaster.Auth.Account (Json)
open NavCaster.Http.Server
open NavCaster.Http.Routes
open NavCaster.Http.Audit (AuditCodec AuditLog)

/-- What the interface stands before; `world` is what the other handlers read and change. -/
structure State (W : Type) where
  login : Login.HttpHandler
  audit : AuditLog
  world : W

/-- `rest` are the handlers that leave the tokens, the configuration and the audit log alone. -/
structure Site (W : Type) where
  codec : AuditCodec
  files : StaticFiles.Server
  rest : Endpoint → HttpRequest → State W → Option HttpResponse × W

/-- What a request meets: whether the database answers, the token that would be drawn, the time. -/
structure Env where
  connected : Bool
  token : Bytes
  now : ℤ
  nodeId : Bytes

def validateToken (login : Login.HttpHandler) (token : Bytes) : Bool :=
  token ≠ [] && (login.activeTokens.lookup token).isSome

def lookupUser (login : Login.HttpHandler) (token : Bytes) : Bytes :=
  if token = [] then [] else (login.activeTokens.lookup token).getD []

def invalidateToken (login : Login.HttpHandler) (token : Bytes) : Login.HttpHandler :=
  { login with activeTokens := login.activeTokens.erase token }

/-- All that follows the first seven bytes, whatever these are. -/
def authorizationTail (req : HttpRequest) : Option Bytes :=
  (req.headers.lookup (ascii "Authorization")).bind fun auth ↦
    if 7 < auth.length then some (auth.drop 7) else none

def okBody : Bytes := ascii "\x7b\"ok\":true\x7d"

def handleLogout (req : HttpRequest) (login : Login.HttpHandler) :
    HttpResponse × Login.HttpHandler :=
  ({ body := okBody },
    match authorizationTail req with
    | some token => invalidateToken login token
    | none => login)

def handleGetHealth : HttpResponse where
  body := ascii "\x7b\"status\":\"ok\"\x7d"

/-- The tokens of a request for the stream, in the order in which they are tried. -/
def presented (req : HttpRequest) : List Bytes :=
  (req.queryParams.lookup (ascii "token")).toList ++ (authorizationTail req).toList

def toAudit : Server.Method → Audit.Method
  | .get => .get
  | .post => .post
  | .put => .put
  | .delete => .delete
  | .options => .other
  | .patch => .patch

namespace Site

variable {W : Type} (site : Site W) (env : Env)

def loginRequest (req : HttpRequest) : Login.HttpRequest where
  pathSegments := req.pathSegments
  queryParams := req.queryParams
  body := site.codec.parse req.body

/-- What was read of a request can be written. -/
def render (resp : Login.HttpResponse) : HttpResponse where
  statusCode := resp.statusCode
  body := (site.codec.dump resp.body).getD []

def handle (e : Endpoint) (req : HttpRequest) (s : State W) : Option HttpResponse × State W :=
  if e = .login then
    let (resp, login) := s.login.handleLogin env.connected env.token (site.loginRequest req)
    (some (site.render resp), { s with login })
  else if e = .logout then
    let (resp, login) := handleLogout req s.login
    (some resp, { s with login })
  else if e = .updateConfig then
    let (resp, login) := s.login.handleUpdateConfig env.connected (site.loginRequest req)
    (some (site.render resp), { s with login })
  else if e = .getHealth then (some handleGetHealth, s)
  else if e = .sseStream ∧ (presented req).all (!validateToken s.login ·) then
    (some { statusCode := 401, contentType := ascii "text/html" }, s)
  else
    let (resp, world) := site.rest e req s
    (resp, { s with world })

def writeAudit (req : HttpRequest) (resp : HttpResponse) (actor clientIp : Bytes) (log : AuditLog) :
    AuditLog :=
  Audit.writeAudit site.codec env.connected env.now env.nodeId
    ⟨toAudit req.method, req.path, req.body⟩
    ⟨resp.statusCode, resp.body⟩ actor clientIp log

def parse (req : EvhttpRequest) : HttpRequest := parseRequest site.files.uridecode req

def server : HttpServer Endpoint (State W) where
  routes
  publicPaths
  files := site.files
  uridecode := site.files.uridecode
  authValidator s := validateToken s.login
  actorResolver s := lookupUser s.login
  handle := site.handle env
  auditSink req resp actor clientIp s :=
    { s with audit := site.writeAudit env req resp actor clientIp s.audit }

end Site

inductive Event
  | granted (token user : Bytes)
  | revoked (token : Bytes)
  | restarted
  | answered (env : Env) (req : EvhttpRequest) (outcome : Outcome Endpoint)
  | foreign (drawn : ℕ) (pushed : List Bytes)

/-- `elsewhere` is what the other nodes do: they change the configuration and all the rest, draw
numbers of entries and push entries, the oldest first. -/
inductive Action (W : Type)
  | request (env : Env) (req : EvhttpRequest)
  | restart (connected : Bool) (opts : Login.Options)
  | elsewhere (world : W) (conf : Login.Section → Option Json) (drawn : ℕ) (pushed : List Bytes)

section

variable {W : Type} (site : Site W)

/-- The user who asks for a token. -/
def asked (req : HttpRequest) : Bytes :=
  ((site.codec.parse req.body).bind (·.value Json.getString "username" [])).getD []

/-- A token is handed out with the answer that it has been, and given back with its logout. -/
def tokenEvents (env : Env) (req : HttpRequest) : Outcome Endpoint → List Event
  | .ran e _ _ resp =>
    if e = .login then if resp.statusCode = 200 then [.granted env.token (asked site req)] else []
    else if e = .logout then (authorizationTail req).toList.map .revoked
    else []
  | _ => []

def pushAudit (drawn : ℕ) (pushed : List Bytes) (log : AuditLog) : AuditLog :=
  ⟨log.seq + drawn, (pushed.reverse ++ log.entries).take Audit.auditKeep⟩

def machine : Machine (State W) (Action W) Event where
  step s
    | .request env req =>
      let r := (site.server env).handleRequest req s
      some (r.2, .answered env req r.1 :: tokenEvents site env (site.parse req) r.1)
    | .restart connected opts =>
      some ({ s with login := Login.startHttpApi connected opts s.login }, [.restarted])
    | .elsewhere world conf drawn pushed =>
      some (⟨{ s.login with conf }, pushAudit drawn pushed s.audit, world⟩, [.foreign drawn pushed])

/-- Who has been given which token. -/
def Event.apply (f : Bytes → Option Bytes) : Event → Bytes → Option Bytes
  | granted token user => Function.update f token (some user)
  | revoked token => Function.update f token none
  | restarted => fun _ ↦ none
  | answered .. => f
  | foreign .. => f

/-- The user to whom a token was given last, unless it has been given back or the service was
started since. -/
def holder (es : List Event) : Bytes → Option Bytes := es.foldl Event.apply fun _ ↦ none

def State.users (s : State W) : Bytes → Option Bytes := s.login.activeTokens.lookup

theorem handleLogin_cases (connected : Bool) (token : Bytes) (req : Login.HttpRequest)
    (login : Login.HttpHandler) :
    ((login.handleLogin connected token req).1.statusCode = 200 ∧
      ∃ body user, req.body = some body ∧ body.value Json.getString "username" [] = some user ∧
        (login.handleLogin connected token req).2 = login.generateToken token user) ∨
    ((login.handleLogin connected token req).1.statusCode ≠ 200 ∧
      (login.handleLogin connected token req).2 = login) := by
  rw [Login.HttpHandler.handleLogin]
  cases hbody : req.body with
  | none => exact Or.inr ⟨show (400 : ℕ) ≠ 200 by omega, rfl⟩
  | some body =>
    dsimp only
    split
    · next user pass huser _ =>
      split
      · exact Or.inl ⟨rfl, body, user, rfl, huser, rfl⟩
      · split
        · split
          · exact Or.inl ⟨rfl, body, user, rfl, huser, rfl⟩
          · exact Or.inr ⟨show (401 : ℕ) ≠ 200 by omega, rfl⟩
        · exact Or.inr ⟨show (500 : ℕ) ≠ 200 by omega, rfl⟩
    · exact Or.inr ⟨show (500 : ℕ) ≠ 200 by omega, rfl⟩

theorem handleUpdateConfig_activeTokens (connected : Bool) (req : Login.HttpRequest)
    (login : Login.HttpHandler) :
    (login.handleUpdateConfig connected req).2.activeTokens = login.activeTokens := by
  have hsave :
      ∀ sec value, (login.save connected sec value).2.activeTokens = login.activeTokens := by
    intro sec value
    cases connected with
    | true => rfl
    | false => rfl
  rw [Login.HttpHandler.handleUpdateConfig]
  split
  · rfl
  · rfl
  · split
    · rfl
    · rfl
    · split
      · rfl
      · split
        · rfl
        · exact hsave _ _
  · exact hsave _ _

section

variable {site} {env : Env} {req : HttpRequest} {s : State W} {e : Endpoint} {actor ip : Bytes}

theorem users_insert (login : Login.HttpHandler) (token user : Bytes) :
    (login.generateToken token user).activeTokens.lookup =
      Function.update login.activeTokens.lookup token (some user) := by
  funext t
  rw [Login.HttpHandler.generateToken, Table.lookup_insert_if, Function.update_apply]

theorem users_erase (login : Login.HttpHandler) (token : Bytes) :
    (invalidateToken login token).activeTokens.lookup =
      Function.update login.activeTokens.lookup token none := by
  funext t
  rw [invalidateToken, Table.lookup_erase_if, Function.update_apply]

/-- What a handler does with the tokens is what its events say. -/
theorem handle_users :
    (site.handle env e req s).2.users =
      (tokenEvents site env req
        (.ran e actor ip ((site.handle env e req s).1.getD internalError))).foldl
        Event.apply s.users := by
  rw [tokenEvents]
  by_cases hlogin : e = .login
  · simp only [Site.handle, hlogin, if_true, Option.getD_some]
    obtain ⟨hstatus, body, user, hbody, huser, hstate⟩ | ⟨hstatus, hstate⟩ :=
      handleLogin_cases env.connected env.token (site.loginRequest req) s.login
    · have hasked : asked site req = user := by
        rw [asked, show site.codec.parse req.body = some body from hbody, Option.bind_some, huser,
          Option.getD_some]
      rw [if_pos (show (site.render _).statusCode = 200 from hstatus), hasked]
      exact (congrArg (fun l : Login.HttpHandler ↦ l.activeTokens.lookup) hstate).trans
        (users_insert ..)
    · rw [if_neg (show ¬ (site.render _).statusCode = 200 from hstatus)]
      exact congrArg (fun l : Login.HttpHandler ↦ l.activeTokens.lookup) hstate
  · by_cases hlogout : e = .logout
    · simp only [Site.handle, hlogout, if_neg (show Endpoint.logout ≠ .login from nofun), if_true,
        handleLogout]
      cases authorizationTail req with
      | none => rfl
      | some token => exact users_erase s.login token
    · simp only [Site.handle, if_neg hlogin, if_neg hlogout]
      split
      · exact congrArg (fun (t : Table Bytes Bytes) a ↦ t.lookup a)
          (handleUpdateConfig_activeTokens ..)
      · split
        · rfl
        · split
          · rfl
          · rfl

theorem run_users {r : RouteEntry Endpoint} :
    ((site.server env).run r req actor ip s).2.users =
      (site.handle env r.handler req s).2.users := by
  rw [HttpServer.run]
  cases r.isRaw with
  | true => rfl
  | false => rfl

theorem tokenEvents_of_not_ran {o : Outcome Endpoint}
    (h : ∀ e actor ip resp, o ≠ .ran e actor ip resp) :
    tokenEvents site env req o = [] := by
  cases o with
  | ran e actor ip resp => exact absurd rfl (h e actor ip resp)
  | _ => rfl

end

/-- A handler that is not public is reached with a valid token alone. -/
theorem request_cases (site : Site W) (env : Env) (req : EvhttpRequest) (s : State W) :
    (∃ o, (site.server env).handleRequest req s = (o, s) ∧
      (∀ e actor ip resp, o ≠ .ran e actor ip resp) ∧
      ∀ resp, o = .replied resp → resp.statusCode = 401 →
        validateToken s.login (bearerToken (site.parse req)) = false) ∨
    ∃ r ∈ routes, matchRoute r (site.parse req) = true ∧
      (r.handler.isPublic = true ∨ validateToken s.login (bearerToken (site.parse req)) = true) ∧
      (site.server env).handleRequest req s =
        (site.server env).run r (site.parse req)
          (named (lookupUser s.login (bearerToken (site.parse req))))
          (clientIp (site.parse req) req.peer) s := by
  obtain ⟨o, heq, hran, hrefused⟩ | ⟨r, hroute, hallowed, heq⟩ :=
    (site.server env).handleRequest_cases req s
  · exact Or.inl ⟨o, heq, hran, fun resp ho hstatus ↦ (hrefused ⟨resp, ho, hstatus⟩).2⟩
  · apply Or.inr
    have hmatch : matchRoute r (site.parse req) = true :=
      List.find?_some (p := fun r ↦ matchRoute r (site.parse req)) hroute
    refine ⟨r, List.mem_of_find?_eq_some hroute, hmatch, ?_, heq⟩
    obtain hpublic | hbearer := hallowed
    · exact Or.inl (isPublic_of_path hpublic hroute)
    · exact Or.inr hbearer

section

variable {site} {s t : State W} {a : Action W} {as : List (Action W)} {es : List Event}

theorem step_users (h : (machine site).step s a = some (t, es)) :
    t.users = es.foldl Event.apply s.users := by
  cases a with
  | request env req =>
    cases h
    rw [List.foldl_cons, Event.apply]
    obtain ⟨o, heq, hran, _⟩ | ⟨r, _, _, _, heq⟩ := request_cases site env req s
    · rw [heq, tokenEvents_of_not_ran hran]
      rfl
    · rw [heq, run_users]
      exact handle_users
  | restart connected opts =>
    cases h
    have htokens : (Login.startHttpApi connected opts s.login).activeTokens = ∅ := by
      cases connected with
      | true => rfl
      | false => rfl
    funext token
    exact congrArg (fun t : Table Bytes Bytes ↦ t.lookup token) htokens
  | elsewhere world conf drawn pushed =>
    cases h
    rfl

theorem exec_users (h : (machine site).exec s as = some (t, es)) :
    t.users = es.foldl Event.apply s.users := by
  induction as generalizing s es with
  | nil =>
    cases h
    rfl
  | cons a as ih =>
    obtain ⟨u, es₁, es₂, hstep, hexec, rfl⟩ := Machine.step_of_exec_cons h
    rw [ih hexec, step_users hstep, List.foldl_append]

theorem users_eq_none (hs : s.login.activeTokens = ∅) : s.users = fun _ ↦ none := by
  funext token
  rw [State.users, hs]
  rfl

theorem exec_holder (hs : s.login.activeTokens = ∅) (h : (machine site).exec s as = some (t, es)) :
    t.users = holder es := by
  rw [exec_users h, users_eq_none hs]
  rfl

theorem validateToken_iff {token : Bytes} :
    validateToken t.login token = true ↔ token ≠ [] ∧ ∃ user, t.users token = some user := by
  rw [validateToken, Bool.and_eq_true, decide_eq_true_eq, Option.isSome_iff_exists]
  rfl

theorem bearerToken_mem_presented {req : HttpRequest} (h : bearerToken req ≠ []) :
    bearerToken req ∈ presented req := by
  rw [bearerToken] at h ⊢
  rw [presented, authorizationTail]
  cases hauth : req.headers.lookup (ascii "Authorization") with
  | none =>
    rw [hauth] at h
    exact absurd rfl h
  | some auth =>
    rw [hauth] at h
    dsimp only at h ⊢
    split at h
    · next hbearer => simp [if_pos hbearer, if_pos hbearer.1]
    · exact absurd rfl h

theorem public_routes : ∀ r ∈ routes, r.handler.isPublic = true →
    r.handler = .login ∧ r.pattern = ascii "/api/auth/login" ∧ r.isRaw = false ∨
    r.handler = .getHealth ∧ r.method = .get ∧ r.isRaw = false ∨
    r.handler = .sseStream ∧ r.isRaw = true := by
  decide +kernel

variable {env : Env} {req : EvhttpRequest} {parsed : HttpRequest}

theorem writeAudit_skips {resp : HttpResponse} {actor ip : Bytes} {log : AuditLog}
    (h : parsed.method = .get ∨ parsed.path = ascii "/api/auth/login") :
    site.writeAudit env parsed resp actor ip log = log := by
  have haudited : Audit.audited ⟨toAudit parsed.method, parsed.path, parsed.body⟩ = false := by
    obtain hget | hpath := h
    · rw [hget]
      rfl
    · simp [Audit.audited, hpath]
  rw [Site.writeAudit, Audit.writeAudit, haudited, Bool.and_false, if_neg Bool.false_ne_true]

/-- Without a token a request changes nothing but what a login does. -/
theorem run_public {r : RouteEntry Endpoint} {actor ip : Bytes} (hr : r ∈ routes)
    (hmatch : matchRoute r parsed = true) (hpublic : r.handler.isPublic = true)
    (hpresented : ∀ token ∈ presented parsed, validateToken t.login token = false) :
    ∃ login resp, (site.server env).run r parsed actor ip t =
      (.ran r.handler actor ip resp, { t with login }) ∧
      login.conf = t.login.conf ∧ (r.handler = .login ∨ login = t.login) ∧
      (r.handler = .sseStream → resp.statusCode = 401) := by
  rw [matchRoute, Bool.and_eq_true, decide_eq_true_eq] at hmatch
  obtain ⟨hmethod, hpath⟩ := hmatch
  rw [HttpServer.run]
  obtain ⟨hlogin, hpattern, hraw⟩ | ⟨hhealth, hget, hraw⟩ | ⟨hsse, hraw⟩ :=
    public_routes r hr hpublic
  · have heq : parsed.path = ascii "/api/auth/login" := by
      rw [hpattern] at hpath
      obtain heq | ⟨hstar, _⟩ := matchPattern_cases hpath
      · exact heq.symm
      · exact absurd hstar (by decide)
    simp only [Site.server, Site.handle, hlogin, hraw, if_true, writeAudit_skips (Or.inr heq)]
    refine ⟨_, _, rfl, ?_, Or.inl trivial, fun h ↦ by cases h⟩
    obtain ⟨_, body, user, _, _, hstate⟩ | ⟨_, hstate⟩ :=
      handleLogin_cases env.connected env.token (site.loginRequest parsed) t.login
    · exact (congrArg Login.HttpHandler.conf hstate).trans rfl
    · exact congrArg Login.HttpHandler.conf hstate
  · have hskip : parsed.method = .get := hmethod.symm.trans hget
    simp only [Site.server, Site.handle, hhealth, hraw, reduceCtorEq, if_false, if_true,
      writeAudit_skips (Or.inl hskip)]
    exact ⟨t.login, _, rfl, rfl, Or.inr rfl, fun h ↦ by cases h⟩
  · have hrefused : (presented parsed).all (!validateToken t.login ·) = true := by
      apply List.all_eq_true.2
      intro token htoken
      rw [hpresented token htoken]
      rfl
    simp only [Site.server, Site.handle, hsse, hraw, hrefused, reduceCtorEq, if_false, if_true,
      and_self]
    exact ⟨t.login, _, rfl, rfl, Or.inr rfl, fun _ ↦ rfl⟩

/-- In every run, a handler that is not public acts for the user to whom the token of the request
was given and who holds it still, no such token is refused, and a request without one changes
nothing but what a login does. -/
theorem only_holders_act (hs : s.login.activeTokens = ∅)
    (h : (machine site).exec s as = some (t, es)) {o : Outcome Endpoint} {u : State W}
    (hrequest : (site.server env).handleRequest req t = (o, u)) :
    (∀ e actor ip resp, o = .ran e actor ip resp → e.isPublic = true ∨
      bearerToken (site.parse req) ≠ [] ∧
      ∃ user, holder es (bearerToken (site.parse req)) = some user ∧ actor = named user) ∧
    (∀ resp, o = .replied resp → resp.statusCode = 401 →
      bearerToken (site.parse req) = [] ∨ holder es (bearerToken (site.parse req)) = none) ∧
    ((∀ token ∈ presented (site.parse req), token = [] ∨ holder es token = none) →
      ∃ login : Login.HttpHandler, u = { t with login } ∧ login.conf = t.login.conf ∧
        (login = t.login ∨ ∃ actor ip resp, o = .ran .login actor ip resp) ∧
        ∀ actor ip resp, o = .ran .sseStream actor ip resp → resp.statusCode = 401) := by
  have husers := exec_holder hs h
  have hvalid : ∀ token, validateToken t.login token = true ↔
      token ≠ [] ∧ ∃ user, holder es token = some user := by
    intro token
    rw [validateToken_iff, husers]
  obtain ⟨o', heq, hran, hrefused⟩ | ⟨r, hr, hmatch, hallowed, heq⟩ := request_cases site env req t
  · rw [heq] at hrequest
    cases hrequest
    refine ⟨fun e actor ip resp ho ↦ absurd ho (hran e actor ip resp), ?_, ?_⟩
    · intro resp ho hstatus
      by_cases hnil : bearerToken (site.parse req) = []
      · exact Or.inl hnil
      · apply Or.inr
        apply Option.eq_none_iff_forall_ne_some.2
        intro user huser
        have hinvalid := hrefused resp ho hstatus
        rw [(hvalid _).2 ⟨hnil, user, huser⟩] at hinvalid
        cases hinvalid
    · intro _
      exact ⟨t.login, rfl, rfl, Or.inl rfl, fun actor ip resp ho ↦ absurd ho (hran _ actor ip resp)⟩
  · have hran : (site.server env).handleRequest req t = (o, u) → ∃ resp, o = .ran r.handler
        (named (lookupUser t.login (bearerToken (site.parse req))))
          (clientIp (site.parse req) req.peer) resp := by
      intro hrequest
      rw [heq] at hrequest
      exact ⟨_, (congrArg Prod.fst hrequest).symm⟩
    obtain ⟨resp, rfl⟩ := hran hrequest
    refine ⟨?_, fun resp ↦ nofun, ?_⟩
    · intro e actor ip resp' ho
      cases ho
      obtain hpublic | hbearer := hallowed
      · exact Or.inl hpublic
      · obtain ⟨hnil, user, huser⟩ := (hvalid _).1 hbearer
        refine Or.inr ⟨hnil, user, huser, congrArg named ?_⟩
        rw [← husers] at huser
        rw [lookupUser, if_neg hnil]
        exact congrArg (Option.getD · []) huser
    · intro hnone
      have hinvalid :
          ∀ token ∈ presented (site.parse req), validateToken t.login token = false := by
        intro token htoken
        apply Bool.eq_false_iff.2
        intro htrue
        obtain ⟨hnil, user, huser⟩ := (hvalid token).1 htrue
        obtain hnil' | hnone' := hnone token htoken
        · exact hnil hnil'
        · rw [hnone'] at huser
          cases huser
      have hpublic : r.handler.isPublic = true := by
        obtain hpublic | hbearer := hallowed
        · exact hpublic
        · rw [hinvalid _ (bearerToken_mem_presented ((hvalid _).1 hbearer).1)] at hbearer
          cases hbearer
      obtain ⟨login, resp', hrun, hconf, hlogin, hstream⟩ := run_public hr hmatch hpublic hinvalid
      rw [heq, hrun] at hrequest
      cases hrequest
      refine ⟨login, rfl, hconf, ?_, ?_⟩
      · obtain hhandler | hsame := hlogin
        · exact Or.inr ⟨_, _, _, by rw [hhandler]⟩
        · exact Or.inl hsame
      · intro actor ip resp'' ho
        obtain ⟨hhandler, _, _, hresp⟩ := Outcome.ran.inj ho
        rw [← hresp]
        exact hstream hhandler

end

structure Entry where
  env : Env
  req : HttpRequest
  resp : HttpResponse
  actor : Bytes
  clientIp : Bytes

/-- What the log gets, from a request of this node or from the other nodes. -/
inductive Item
  | own (x : Entry)
  | foreign (drawn : ℕ) (pushed : List Bytes)

/-- The request of a handler, by the user who holds its token. The stream is not recorded. -/
def recorded (f : Bytes → Option Bytes) : Event → Option Item
  | .answered env req (.ran e _ _ resp) =>
    if e = .sseStream then none
    else
      let token := bearerToken (site.parse req)
      some (.own
        { env
          req := site.parse req
          resp
          actor := named (if token = [] then [] else (f token).getD [])
          clientIp := clientIp (site.parse req) req.peer })
  | .foreign drawn pushed => some (.foreign drawn pushed)
  | _ => none

def trail : (Bytes → Option Bytes) → List Event → List Item
  | _, [] => []
  | f, e :: es => (recorded site f e).toList ++ trail (e.apply f) es

def Item.write (log : AuditLog) : Item → AuditLog
  | own x => site.writeAudit x.env x.req x.resp x.actor x.clientIp log
  | foreign drawn pushed => pushAudit drawn pushed log

def writeTrail (log : AuditLog) (items : List Item) : AuditLog := items.foldl (Item.write site) log

section

variable {site} {s t : State W} {a : Action W} {as : List (Action W)} {es : List Event}

theorem trail_append (f : Bytes → Option Bytes) (es es' : List Event) :
    trail site f (es ++ es') = trail site f es ++ trail site (es.foldl Event.apply f) es' := by
  induction es generalizing f with
  | nil => rfl
  | cons e es ih => rw [List.cons_append, trail, trail, ih, List.append_assoc, List.foldl_cons]

theorem trail_tokenEvents (f : Bytes → Option Bytes) (env : Env) (req : HttpRequest)
    (o : Outcome Endpoint) : trail site f (tokenEvents site env req o) = [] := by
  cases o with
  | ran e actor ip resp =>
    rw [tokenEvents]
    split
    · split
      · rfl
      · rfl
    · split
      · cases authorizationTail req with
        | none => rfl
        | some token => rfl
      · rfl
  | _ => rfl

theorem isRaw_iff : ∀ r ∈ routes, (r.isRaw = true ↔ r.handler = .sseStream) := by decide +kernel

theorem handle_audit (env : Env) (e : Endpoint) (req : HttpRequest) :
    (site.handle env e req s).2.audit = s.audit := by
  rw [Site.handle]
  split
  · rfl
  · split
    · rfl
    · split
      · rfl
      · split
        · rfl
        · split
          · rfl
          · rfl

theorem step_audit (h : (machine site).step s a = some (t, es)) :
    t.audit = writeTrail site s.audit (trail site s.users es) := by
  cases a with
  | request env req =>
    cases h
    rw [trail, trail_tokenEvents, List.append_nil]
    obtain ⟨o, heq, hran, _⟩ | ⟨r, hr, _, _, heq⟩ := request_cases site env req s
    · have hnone : recorded site s.users (.answered env req o) = none := by
        cases o with
        | ran e actor ip resp => exact absurd rfl (hran e actor ip resp)
        | _ => rfl
      rw [heq, hnone]
      rfl
    · rw [heq, HttpServer.run]
      by_cases hstream : r.handler = .sseStream
      · simp only [(isRaw_iff r hr).2 hstream, if_true, recorded, hstream]
        exact handle_audit env _ _
      · have hraw : r.isRaw = false :=
          Bool.eq_false_iff.2 fun htrue ↦ hstream ((isRaw_iff r hr).1 htrue)
        simp only [hraw, recorded, if_neg hstream, Bool.false_eq_true, if_false]
        exact congrArg (site.writeAudit env _ _ _ _) (handle_audit env _ _)
  | restart connected opts =>
    cases h
    rfl
  | elsewhere world conf drawn pushed =>
    cases h
    rfl

theorem exec_audit (h : (machine site).exec s as = some (t, es)) :
    t.audit = writeTrail site s.audit (trail site s.users es) := by
  induction as generalizing s es with
  | nil =>
    cases h
    rfl
  | cons a as ih =>
    obtain ⟨u, es₁, es₂, hstep, hexec, rfl⟩ := Machine.step_of_exec_cons h
    rw [ih hexec, step_audit hstep, step_users hstep, trail_append]
    exact (List.foldl_append ..).symm

/-- Only requests that change something are recorded, and while the database answers. -/
def Entry.audited (x : Entry) : Bool :=
  x.env.connected && Audit.audited ⟨toAudit x.req.method, x.req.path, x.req.body⟩

def Entry.text (codec : AuditCodec) (x : Entry) (id : ℤ) : Option Bytes :=
  (Audit.payloadText codec x.req.body).bind fun text ↦
    codec.dump
      (Audit.entry codec id x.env.now x.env.nodeId ⟨toAudit x.req.method, x.req.path, x.req.body⟩
      ⟨x.resp.statusCode, x.resp.body⟩ x.actor x.clientIp text)

def Item.drawn : Item → ℕ
  | own x => if x.audited then 1 else 0
  | foreign drawn _ => drawn

/-- An entry that cannot be written uses up its number all the same. -/
def Item.texts (codec : AuditCodec) (seq : ℤ) : Item → List Bytes
  | own x => if x.audited then (x.text codec (seq + 1)).toList else []
  | foreign _ pushed => pushed

/-- Each entry under the number that follows all those drawn before it. -/
def texts (codec : AuditCodec) : ℤ → List Item → List Bytes
  | _, [] => []
  | seq, x :: items => x.texts codec seq ++ texts codec (seq + x.drawn) items

theorem writeAudit_eq (x : Entry) (log : AuditLog) :
    site.writeAudit x.env x.req x.resp x.actor x.clientIp log =
      if x.audited then
        { seq := log.seq + 1
          entries :=
            match x.text site.codec (log.seq + 1) with
            | some text => (text :: log.entries).take Audit.auditKeep
            | none => log.entries }
      else log := by
  rw [Site.writeAudit, Audit.writeAudit, Entry.audited]
  split
  · dsimp only
    rw [Entry.text]
    split
    · next heq => rw [heq]
    · next heq => rw [heq]
  · rfl

theorem take_append_take {A : Type} (l l' : List A) (n : ℕ) :
    (l ++ l'.take n).take n = (l ++ l').take n := by
  rw [List.take_append, List.take_append, List.take_take, Nat.min_eq_left (Nat.sub_le ..)]

theorem write_eq (x : Item) (log : AuditLog) (hlog : log.entries.length ≤ Audit.auditKeep) :
    x.write site log =
      ⟨log.seq + x.drawn,
        ((x.texts site.codec log.seq).reverse ++ log.entries).take Audit.auditKeep⟩ := by
  have hkept : log.entries.take Audit.auditKeep = log.entries := List.take_of_length_le hlog
  cases x with
  | own x =>
    rw [Item.write, writeAudit_eq, Item.drawn, Item.texts]
    cases x.audited with
    | false => simp [hkept]
    | true =>
      cases x.text site.codec (log.seq + 1) with
      | none => simp [hkept]
      | some text => simp
  | foreign drawn pushed => rfl

theorem writeTrail_eq (items : List Item) (log : AuditLog)
    (hlog : log.entries.length ≤ Audit.auditKeep) :
    writeTrail site log items =
      { seq := log.seq + (items.map Item.drawn).sum
        entries :=
          ((texts site.codec log.seq items).reverse ++ log.entries).take Audit.auditKeep } := by
  induction items generalizing log with
  | nil =>
    rw [writeTrail, List.foldl_nil]
    simp [texts, List.take_of_length_le hlog]
  | cons x items ih =>
    have hstep : writeTrail site log (x :: items) = writeTrail site (x.write site log) items := rfl
    have hseq : log.seq + x.drawn + (items.map Item.drawn).sum =
        log.seq + ((x :: items).map Item.drawn).sum := by
      rw [List.map_cons, List.sum_cons]
      push_cast
      omega
    rw [hstep, write_eq x log hlog, ih _ (List.length_take_le ..), hseq]
    apply congrArg (AuditLog.mk _)
    rw [texts, List.reverse_append, List.append_assoc]
    exact take_append_take ..

/-- In every run, whatever the other nodes do, each request that changes something uses up the next
number and leaves one entry, unless this cannot be written, under the name of the user to whom its
token was given. The last 50000 entries are kept. -/
theorem audit_is_trail (hs : s.login.activeTokens = ∅)
    (hlog : s.audit.entries.length ≤ Audit.auditKeep)
    (h : (machine site).exec s as = some (t, es)) :
    t.audit.seq = s.audit.seq + ((trail site (fun _ ↦ none) es).map Item.drawn).sum ∧
      t.audit.entries =
        ((texts site.codec s.audit.seq (trail site (fun _ ↦ none) es)).reverse ++
          s.audit.entries).take Audit.auditKeep := by
  have haudit := exec_audit h
  rw [users_eq_none hs, writeTrail_eq _ _ hlog] at haudit
  rw [haudit]
  exact ⟨rfl, rfl⟩

end

end

def names : List String :=
  ["action", "actor", "error_message", "id", "node_id", "password", "payload", "result",
    "source_ip", "target_id", "target_type", "timestamp", "token", "username"]

/-- A string without control characters, which throws where it is not of UTF-8. -/
def stringText (s : Bytes) : Option Bytes :=
  if Utf8.isUtf8 s then
    some (34 :: s.flatMap (fun b ↦ if b = 34 ∨ b = 92 then [92, b] else [b]) ++ [34])
  else none

def scalarText : Json → Option Bytes
  | .string s => stringText s
  | .number n => some (ascii (toString n.toInt64))
  | _ => none

def memberText (members : List (String × Json)) (name : String) : Option (List Bytes) :=
  match members.lookup name with
  | none => some []
  | some v => (scalarText v).map fun text ↦ [34 :: ascii name ++ 34 :: 58 :: text]

/-- An object of such values, whose members come in the order of their names. -/
def flatText : Json → Option Bytes
  | .object members =>
    (names.mapM (memberText members)).map fun texts ↦ 123 :: [44].intercalate texts.flatten ++ [125]
  | v => scalarText v

def admin : Bytes := ascii "admin"

def credentials (password : Bytes) : Json :=
  .object [("password", .string password), ("username", .string admin)]

def parseCredentials (text : Bytes) : Option Json :=
  ([admin, ascii "***"].find? fun password ↦ flatText (credentials password) = some text).map
    credentials

theorem parseCredentials_eq_some {text : Bytes} {j : Json} (h : parseCredentials text = some j) :
    ∃ password, j = credentials password := by
  obtain ⟨password, _, heq⟩ := Option.map_eq_some_iff.1 h
  exact ⟨password, heq.symm⟩

theorem find_masked :
    (flatText (credentials (ascii "***"))).bind (fun text ↦
      [admin, ascii "***"].find? fun password ↦ flatText (credentials password) = some text) =
      some (ascii "***") := by
  decide +kernel

theorem parseCredentials_masked :
    (flatText (credentials (ascii "***"))).bind parseCredentials =
      some (credentials (ascii "***")) := by
  obtain ⟨text, htext, hfind⟩ := Option.bind_eq_some_iff.1 find_masked
  rw [htext, Option.bind_some, parseCredentials, hfind]
  rfl

theorem maskSecrets_credentials (password : Bytes) :
    Audit.maskSecrets (credentials password) = credentials (ascii "***") := by
  have hmasks : Audit.masks "password" = true ∧ Audit.masks "username" = false := by decide +kernel
  simp [credentials, Audit.maskSecrets, Audit.maskMembers, Audit.maskString, hmasks]

def credentialsCodec : AuditCodec where
  parse := parseCredentials
  dump := flatText
  parse_nil := by decide
  read_back := by
    intro text j h
    obtain ⟨password, rfl⟩ := parseCredentials_eq_some h
    rw [maskSecrets_credentials]
    exact parseCredentials_masked

def bareSite : Site Unit where
  codec := credentialsCodec
  files :=
    { webRoot := []
      cwd := []
      isDirectory := fun _ ↦ false
      isRegularFile := fun _ ↦ false
      contents := fun _ ↦ none
      uridecode := fun s ↦ some (StaticFiles.percentDecode s) }
  rest _ _ s := (some {}, s.world)

def start : State Unit where
  login := { config := {} }
  audit := ⟨0, []⟩
  world := ()

def env : Env where
  connected := true
  token := ascii "0f"
  now := 0
  nodeId := ascii "node"

def credentialsText : Bytes :=
  ascii "\x7b\"password\":\"admin\",\"username\":\"admin\"\x7d"

def loginRequest : EvhttpRequest where
  method := .post
  uri := ascii "/api/auth/login"
  path := some (ascii "/api/auth/login")
  body := credentialsText

def authorization : Bytes × Bytes := (ascii "Authorization", ascii "Bearer 0f")

def getSources : EvhttpRequest where
  method := .get
  uri := ascii "/api/sources"
  path := some (ascii "/api/sources")
  headers := [authorization]

theorem only_holders_act_login :
    ∃ t es, (machine bareSite).exec start [.request env loginRequest] = some (t, es) ∧
    ∀ e actor ip resp, ((bareSite.server env).handleRequest getSources t).1 = .ran e actor ip resp →
      e.isPublic = true ∨ bearerToken (bareSite.parse getSources) ≠ [] ∧
        ∃ user, holder es (bearerToken (bareSite.parse getSources)) = some user ∧
          actor = named user := by
  have hexec : (machine bareSite).exec start [.request env loginRequest] = some (_, _) := rfl
  exact ⟨_, _, hexec, (only_holders_act rfl hexec Prod.mk.eta.symm).1⟩

def createAccount : EvhttpRequest where
  method := .post
  uri := ascii "/api/accounts"
  path := some (ascii "/api/accounts")
  headers := [authorization]
  body := credentialsText

/-- Its body is a byte that is not of UTF-8. -/
def deleteAccount : EvhttpRequest where
  method := .delete
  uri := ascii "/api/accounts/u"
  path := some (ascii "/api/accounts/u")
  headers := [authorization]
  body := [255]

def logout : EvhttpRequest where
  method := .post
  uri := ascii "/api/auth/logout"
  path := some (ascii "/api/auth/logout")
  headers := [authorization]

def session : List (Action Unit) :=
  [.request env loginRequest, .request env createAccount, .request env deleteAccount,
    .elsewhere () (fun _ ↦ none) 1 [ascii "\x7b\"id\":3\x7d"], .request env logout]

def sessionLog : List Bytes :=
  [[ascii "\x7b\"action\":\"POST /api/auth/logout\",", ascii "\"actor\":\"admin\",",
    ascii "\"id\":4,",
      ascii "\"node_id\":\"node\",", ascii "\"payload\":\"\",", ascii "\"result\":200,",
      ascii "\"source_ip\":\"\",", ascii "\"target_id\":\"logout\",",
      ascii "\"target_type\":\"auth\",", ascii "\"timestamp\":0\x7d"].flatten,
    ascii "\x7b\"id\":3\x7d",
    [ascii "\x7b\"action\":\"POST /api/accounts\",", ascii "\"actor\":\"admin\",",
      ascii "\"id\":1,", ascii "\"node_id\":\"node\",", ascii "\"payload\":\"\x7b\\\"password\\\":",
      ascii "\\\"***\\\",\\\"username\\\":", ascii "\\\"admin\\\"\x7d\",", ascii "\"result\":200,",
      ascii "\"source_ip\":\"\",", ascii "\"target_id\":\"\",",
      ascii "\"target_type\":\"accounts\",", ascii "\"timestamp\":0\x7d"].flatten]

theorem audit_is_trail_session : ∃ t es, (machine bareSite).exec start session = some (t, es) ∧
    (t.audit.seq = start.audit.seq + ((trail bareSite (fun _ ↦ none) es).map Item.drawn).sum ∧
      t.audit.entries =
        ((texts bareSite.codec start.audit.seq (trail bareSite (fun _ ↦ none) es)).reverse ++
          start.audit.entries).take Audit.auditKeep) ∧
    t.audit.seq = 4 ∧ t.audit.entries = sessionLog := by
  have hlog : ((machine bareSite).exec start session).map
      (fun p ↦ (p.1.audit.seq, p.1.audit.entries)) = some (4, sessionLog) := by
    decide +kernel
  obtain ⟨⟨t, es⟩, hexec, heq⟩ := Option.map_eq_some_iff.1 hlog
  obtain ⟨hseq, hentries⟩ := Prod.mk.inj heq
  exact ⟨t, es, hexec, audit_is_trail rfl (Nat.zero_le _) hexec, hseq, hentries⟩

end NavCaster.Http.Api
