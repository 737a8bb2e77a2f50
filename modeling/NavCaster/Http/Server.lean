import NavCaster.Http.StaticFiles
import NavCaster.Library.Percent
import NavCaster.Library.Scan
import NavCaster.Library.Table

namespace NavCaster.Http.Server

open NavCaster.Library
open NavCaster.Library.Strto (Bytes)
open NavCaster.Library.Scan (ascii cstr)

inductive Method
  | get | post | put | delete | options | patch
  deriving DecidableEq

/-- A request as the library hands it over, where the query and the headers are lists in their
order. -/
structure EvhttpRequest where
  method : Method
  uri : Bytes
  path : Option Bytes
  query : List (Bytes × Bytes) := []
  headers : List (Bytes × Bytes) := []
  body : Bytes := []
  peer : Option Bytes := none

structure HttpRequest where
  method : Method
  uri : Bytes
  path : Bytes
  body : Bytes
  headers : Table Bytes Bytes
  queryParams : Table Bytes Bytes
  pathSegments : List Bytes

structure HttpResponse where
  statusCode : ℕ := 200
  contentType : Bytes := ascii "application/json"
  body : Bytes := []

structure RouteEntry (H : Type) where
  method : Method
  pattern : Bytes
  handler : H
  isRaw : Bool := false

/-- The handlers are named, and `handle` is what they do: they answer or throw, and change what the
server stands before. -/
structure HttpServer (H S : Type) where
  routes : List (RouteEntry H)
  publicPaths : List Bytes
  files : StaticFiles.Server
  uridecode : Bytes → Option Bytes
  authValidator : S → Bytes → Bool
  actorResolver : S → Bytes → Bytes
  handle : H → HttpRequest → S → Option HttpResponse × S
  auditSink : HttpRequest → HttpResponse → Bytes → Bytes → S → S

inductive Outcome (H : Type)
  | replied (resp : HttpResponse)
  | served (file : StaticFiles.Reply)
  | ran (handler : H) (actor clientIp : Bytes) (resp : HttpResponse)

/-- A later value of a name replaces an earlier one. -/
def toTable (pairs : List (Bytes × Bytes)) : Table Bytes Bytes :=
  pairs.foldl (fun t pair ↦ t.insert pair.1 pair.2) ∅

def segments (path : Bytes) : List Bytes := ((path.drop 1).splitOn 47).filter (· ≠ [])

/-- The text ends where a NUL is decoded. -/
def decodeSegment (uridecode : Bytes → Option Bytes) (seg : Bytes) : Bytes :=
  match uridecode seg with
  | some decoded => cstr decoded
  | none => seg

def parseRequest (uridecode : Bytes → Option Bytes) (req : EvhttpRequest) : HttpRequest where
  method := req.method
  uri := req.uri
  path := req.path.getD (ascii "/")
  body := req.body
  headers := toTable req.headers
  queryParams := toTable req.query
  pathSegments := (segments (req.path.getD (ascii "/"))).map (decodeSegment uridecode)

def star : Bytes := ascii "/*"

def matchPattern (pattern path : Bytes) : Bool :=
  if pattern = path then true
  else if star <:+ pattern then
    let pre := pattern.take (pattern.length - 2)
    pre.length < path.length && path.take pre.length = pre && path[pre.length]? = some 47
  else false

def matchRoute {H : Type} (route : RouteEntry H) (request : HttpRequest) : Bool :=
  route.method = request.method && matchPattern route.pattern request.path

/-- The prefix of a pattern need not end at a slash of the path. -/
def isPublicPath (publicPaths : List Bytes) (path : Bytes) : Bool :=
  publicPaths.any fun p ↦ path =
    p || (star <:+ p && path.take (p.length - 2) = p.take (p.length - 2))

def bearer : Bytes := ascii "Bearer "

def bearerToken (parsed : HttpRequest) : Bytes :=
  match parsed.headers.lookup (ascii "Authorization") with
  | some auth => if 7 < auth.length ∧ auth.take 7 = bearer then auth.drop 7 else []
  | none => []

/-- The first address of a proxy's list comes before the one of the connection. -/
def clientIp (parsed : HttpRequest) (peer : Option Bytes) : Bytes :=
  match parsed.headers.lookup (ascii "X-Forwarded-For") with
  | some xff => xff.takeWhile (· ≠ 44)
  | none => peer.getD []

def unauthorized : HttpResponse where
  statusCode := 401
  body := ascii "\x7b\"error\":\"Unauthorized\",\"message\":\"Invalid or missing token\"\x7d"

def notFound : HttpResponse where
  statusCode := 404
  body := ascii "\x7b\"error\":\"Not Found\"\x7d"

def internalError : HttpResponse where
  statusCode := 500
  body := ascii "\x7b\"error\":\"Internal Server Error\"\x7d"

def anonymous : Bytes := ascii "anonymous"

def named (user : Bytes) : Bytes := if user = [] then anonymous else user

namespace HttpServer

variable {H S : Type} (srv : HttpServer H S)

/-- Files are served before a token is asked for. -/
def staticReply (parsed : HttpRequest) : Option StaticFiles.Reply :=
  if srv.files.webRoot ≠ [] ∧ parsed.method = .get ∧ ¬ ascii "/api/" <+: parsed.path then
    srv.files.serveStaticFile parsed.path
  else none

/-- What a raw handler answers is not audited. -/
def run (route : RouteEntry H) (parsed : HttpRequest) (actor ip : Bytes) (s : S) : Outcome H × S :=
  let (resp, s) := srv.handle route.handler parsed s
  let resp := resp.getD internalError
  (.ran route.handler actor ip resp, if route.isRaw then s
    else srv.auditSink parsed resp actor ip s)

def handleRequest (req : EvhttpRequest) (s : S) : Outcome H × S :=
  let parsed := parseRequest srv.uridecode req
  if parsed.method = .options then (.replied { statusCode := 204 }, s)
  else
    match srv.staticReply parsed with
    | some file => (.served file, s)
    | none =>
      let token := bearerToken parsed
      if !isPublicPath srv.publicPaths parsed.path && !srv.authValidator s token then
        (.replied unauthorized, s)
      else
        match srv.routes.find? (matchRoute · parsed) with
        | none => (.replied notFound, s)
        | some route =>
          srv.run route parsed (named (srv.actorResolver s token)) (clientIp parsed req.peer) s

variable (req : EvhttpRequest) (s : S)

/-- A handler is only reached on a public path or with a token, over the first route that
matches. -/
theorem handleRequest_cases :
    (∃ o, srv.handleRequest req s = (o, s) ∧ (∀ h actor ip resp, o ≠ .ran h actor ip resp) ∧
      ((∃ resp, o = .replied resp ∧ resp.statusCode = 401) →
        isPublicPath srv.publicPaths (parseRequest srv.uridecode req).path = false ∧
          srv.authValidator s (bearerToken (parseRequest srv.uridecode req)) = false)) ∨
    ∃ route, srv.routes.find? (matchRoute · (parseRequest srv.uridecode req)) = some route ∧
      (isPublicPath srv.publicPaths (parseRequest srv.uridecode req).path = true ∨
        srv.authValidator s (bearerToken (parseRequest srv.uridecode req)) = true) ∧
      srv.handleRequest req s =
        srv.run route (parseRequest srv.uridecode req)
          (named (srv.actorResolver s (bearerToken (parseRequest srv.uridecode req))))
          (clientIp (parseRequest srv.uridecode req) req.peer) s := by
  rw [handleRequest]
  generalize parseRequest srv.uridecode req = parsed
  by_cases hoptions : parsed.method = .options
  · apply Or.inl
    refine ⟨_, if_pos hoptions, fun _ _ _ _ ↦ nofun, ?_⟩
    intro ⟨resp, heq, hstatus⟩
    cases heq
    cases hstatus
  · simp only [if_neg hoptions]
    cases hfile : srv.staticReply parsed with
    | some file => exact Or.inl ⟨_, rfl, fun _ _ _ _ ↦ nofun, fun ⟨_, heq, _⟩ ↦ nomatch heq⟩
    | none =>
      dsimp only
      cases hpublic : isPublicPath srv.publicPaths parsed.path with
      | true =>
        cases hroute : srv.routes.find? (matchRoute · parsed) with
        | none =>
          apply Or.inl
          refine ⟨_, rfl, fun _ _ _ _ ↦ nofun, ?_⟩
          intro ⟨resp, heq, hstatus⟩
          cases heq
          cases hstatus
        | some route => exact Or.inr ⟨route, rfl, Or.inl rfl, rfl⟩
      | false =>
        cases hvalid : srv.authValidator s (bearerToken parsed) with
        | false => exact Or.inl ⟨_, rfl, fun _ _ _ _ ↦ nofun, fun _ ↦ ⟨rfl, rfl⟩⟩
        | true =>
          cases hroute : srv.routes.find? (matchRoute · parsed) with
          | none =>
            apply Or.inl
            refine ⟨_, rfl, fun _ _ _ _ ↦ nofun, ?_⟩
            intro ⟨resp, heq, hstatus⟩
            cases heq
            cases hstatus
          | some route => exact Or.inr ⟨route, rfl, Or.inr rfl, rfl⟩

end HttpServer

end NavCaster.Http.Server
