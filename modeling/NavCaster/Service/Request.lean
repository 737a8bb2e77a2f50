import NavCaster.Auth.Verify
import NavCaster.Base.Base64
import NavCaster.Library.Lines

namespace NavCaster.Service.Request

open NavCaster.Library.Strto NavCaster.Library.Lines NavCaster.Library.Scan
open NavCaster.Base.Base64
open NavCaster.Auth.Verify (AuthType)

inductive ConnectType
  | unknown | source | server | client | nearest
  deriving DecidableEq

structure ListenerOpt where
  enableSourceLogin : Bool
  enableServerLogin : Bool
  enableClientLogin : Bool
  enableHeaderNoCrlf : Bool

/-- The connection as its socket gives it, and what the caster answers about a mount point. -/
structure Env where
  connectKey : Bytes
  ip : Bytes
  port : Nat
  checkNearestMpt : Bytes → Bool
  checkAliasMpt : Bytes → Bool

/-- The arithmetic of a position report: the latitude and longitude that its four fields give, if
they are in range; those that a request has without one; and whether both are 0. -/
structure Degrees (P : Type) where
  latlon : Bytes → Bytes → Bytes → Bytes → Option P
  initial : P
  isZero : P → Bool

structure ConnectInfo (P : Type) where
  connectKey : Bytes
  type : ConnectType := .unknown
  operateCreate : Bool := false
  mountPoint : Bytes
  mountPara : Bytes
  userBase64 : Bytes := []
  userName : Bytes := []
  userPwd : Bytes := []
  httpHost : Bytes := []
  httpChunked : Bytes := []
  userAgent : Bytes := []
  mountInfo : Bytes := []
  ntripVersion : Bytes := []
  ntripGga : Bytes := []
  ntripAuth : Bytes := []
  ip : Bytes
  port : Nat
  position : P
  groupUid : Bytes := []

variable {P : Type}

def isMountChar (b : UInt8) : Bool :=
  (97 ≤ b && b ≤ 122) || (65 ≤ b && b ≤ 90) || (48 ≤ b && b ≤ 57) || b = 95 || b = 46 || b = 45

def checkMountIsValid (mount : Bytes) : Bool := mount.all isMountChar

/-- The path and what follows its question mark. -/
def splitPath (path : Bytes) : Bytes × Bytes :=
  let path := if path.head? = some 47 then path else 47 :: path
  ((path.takeWhile (· ≠ 63)).drop 1, (path.dropWhile (· ≠ 63)).drop 1)

def extractPath (path : Bytes) : Option Bytes :=
  let mount := (splitPath path).1
  if checkMountIsValid mount then some mount else none

def extractPara (path : Bytes) : Bytes := (splitPath path).2

def ggaFields (token : Bytes) : Bytes → List Bytes
  | [] => if token = [] then [] else [token]
  | b :: s =>
    if b = 42 then [token]
    else if b = 44 then token :: ggaFields [] s
    else ggaFields (token ++ [b]) s

def parseGgaToLatlon (geo : Degrees P) (gga : Bytes) : Option P :=
  match (findText (ascii "GGA,") gga).map (ggaFields []) with
  | some (_ :: _ :: lat :: ns :: lon :: ew :: quality :: _) =>
    if (strtol quality).getD 0 ≤ 0 ∨ lat = [] ∨ lon = [] then none else geo.latlon lat ns lon ew
  | _ => none

/-- The bytes that the credentials are copied to, with the NUL behind them. -/
def authSize : Nat := 256

/-- `none` where the credentials do not fit. -/
def decodeBasicAuthentication (authentication : Bytes) : Option Bytes :=
  let auth :=
    if (findText (ascii "Basic ") authentication).isSome ∧ (ascii "Basic").isPrefixOf authentication
    then ((scanWord (authentication.drop 5)).map Prod.fst).getD []
    else []
  if auth.length < authSize then some (utilBase64Decode auth) else none

/-- The key and the value of a header line. One byte between the colon and the value is passed over,
whatever it is. -/
def headerItem (line : Bytes) : Option (Bytes × Bytes) :=
  let keyValue := cstr line
  if 58 ∈ keyValue then
    some (keyValue.takeWhile (· ≠ 58), (keyValue.dropWhile (· ≠ 58)).drop 2)
  else none

/-- The reading goes on after the line: it is neither too long, nor empty, nor without a colon. -/
def lineItem (line : Bytes) : Option (Bytes × Bytes) :=
  if 1024 < line.length then none else headerItem line

/-- The items of the header lines that are complete, with what is left in the buffer. -/
def readHeaders (buf : Bytes) : List (Bytes × Bytes) × Bytes :=
  match _h : readln buf with
  | none => ([], buf)
  | some (line, rest) =>
    match lineItem line with
    | none => ([], rest)
    | some item =>
      let (items, left) := readHeaders rest
      (item :: items, left)
termination_by buf.length
decreasing_by exact readln_length _h

def field (items : List (Bytes × Bytes)) (key : String) : Option Bytes :=
  items.reverse.lookup (ascii key)

def ConnectInfo.setUser (auth decodeID : Bytes) (info : ConnectInfo P) : ConnectInfo P :=
  if 58 ∈ decodeID then
    { info with
      ntripAuth := auth
      userBase64 := decodeID
      userName := decodeID.takeWhile (· ≠ 58)
      userPwd := (decodeID.dropWhile (· ≠ 58)).drop 1 }
  else info

def headerPosition (geo : Degrees P) (gga : Bytes) : Option P :=
  if gga = [] then none else parseGgaToLatlon geo gga

def trailingPosition (geo : Degrees P) (trailing : Bytes) : Option P :=
  if 0 < trailing.length ∧ trailing.length < 4096 then parseGgaToLatlon geo trailing else none

/-- The position behind the header is looked at only where the header gives none, or gives 0. -/
def ConnectInfo.locate (geo : Degrees P) (trailing : Bytes) (info : ConnectInfo P) :
    ConnectInfo P :=
  let info := { info with position := (headerPosition geo info.ntripGga).getD info.position }
  if geo.isZero info.position then
    match trailingPosition geo trailing with
    | some pos => { info with position := pos, ntripGga := trailing }
    | none => info
  else info

def ConnectInfo.setFields (items : List (Bytes × Bytes)) (info : ConnectInfo P) : ConnectInfo P :=
  { info with
    httpHost := (field items "Host").getD []
    httpChunked := (field items "Transfer-Encoding").getD []
    userAgent := ((field items "User-Agent").or (field items "Source-Agent")).getD []
    mountInfo := (field items "STR").getD []
    ntripVersion := (field items "Ntrip-Version").getD []
    ntripGga := (field items "Ntrip-GGA").getD [] }

inductive Abort
  | invalidMount | overrun
  deriving DecidableEq

def decodeBuffereventReq (env : Env) (geo : Degrees P) (url buf : Bytes) :
    Except Abort (ConnectInfo P × Bytes) :=
  match extractPath url with
  | none => .error .invalidMount
  | some mountPoint =>
    let (items, left) := readHeaders buf
    let info : ConnectInfo P :=
      { connectKey := env.connectKey, mountPoint, mountPara := extractPara url, ip := env.ip
        port := env.port, position := geo.initial }
    let info := info.setFields items
    match field items "Authorization" with
    | none => .ok (info.locate geo left, left)
    | some auth =>
      match decodeBasicAuthentication auth with
      | none => .error .overrun
      | some decodeID => .ok ((info.setUser auth decodeID).locate geo left, left)

/-- What the listener does with a request. After an overrun nothing is known. A request is handed on
with its bytes behind the header; the source table is not verified for nobody. -/
inductive Verdict (P : Type)
  | undefined
  | reject
  | accept (verify : Option AuthType) (info : ConnectInfo P) (left : Bytes)

def Abort.verdict : Abort → Verdict P
  | invalidMount => .reject
  | overrun => .undefined

variable (opt : ListenerOpt) (env : Env) (geo : Degrees P)

def processGetRequest (url buf : Bytes) : Verdict P :=
  match decodeBuffereventReq env geo url buf with
  | .error e => e.verdict
  | .ok (info, left) =>
    if info.mountPoint = [] then
      if !opt.enableSourceLogin then .reject
      else if info.userName = [] ∧ info.userPwd = [] then
        .accept none { info with type := .source } left
      else .accept (some .source) { info with type := .source } left
    else if !opt.enableClientLogin then .reject
    else if env.checkNearestMpt info.mountPoint then
      .accept (some .client) { info with type := .nearest } left
    else .accept (some .client) { info with type := .client } left

def processServerRequest (url buf : Bytes) (finish : ConnectInfo P → ConnectInfo P) : Verdict P :=
  if !opt.enableServerLogin then .reject
  else match decodeBuffereventReq env geo url buf with
    | .error e => e.verdict
    | .ok (info, left) =>
      if env.checkNearestMpt info.mountPoint then .reject
      else if env.checkAliasMpt info.mountPoint then .reject
      else .accept (some .server) (finish { info with type := .server }) left

def processPostRequest (url buf : Bytes) : Verdict P :=
  processServerRequest opt env geo url buf id

/-- The secret takes the place of the user and of the password. -/
def processSourceRequest (url secret buf : Bytes) : Verdict P :=
  processServerRequest opt env geo url buf fun info ↦
    if secret = [] then info
    else { info with userBase64 := secret ++ 58 :: secret, userName := secret, userPwd := secret }

inductive Method
  | get (url : Bytes)
  | post (url : Bytes)
  | source (url secret : Bytes)
  deriving DecidableEq

def Method.url : Method → Bytes
  | get url => url
  | post url => url
  | source url _ => url

def elements : Nat → Bytes → List Bytes
  | 0, _ => []
  | n + 1, s =>
    match scanUntil (fun b ↦ b = 32 || b = 124 || b = 10) s with
    | none => []
    | some (element, rest) => element :: elements n (skipSpace rest)

def isHttp (element : Bytes) : Bool := element = ascii "HTTP/1.1" || element = ascii "HTTP/1.0"

/-- The request line; `none` where it throws. -/
def parseHeader (header : Bytes) : Option Method :=
  match elements 4 (cstr header) with
  | [e0, e1, e2, e3] =>
    if e0 = ascii "SOURCE" then
      if isHttp e3 then some (.source e2 e1) else none
    else parseHttp e0 e1 e2
  | [e0, e1, e2] =>
    if e0 = ascii "SOURCE" then
      if isHttp e2 then some (.source e1 []) else some (.source e2 e1)
    else parseHttp e0 e1 e2
  | [e0, e1] =>
    if e0 = ascii "SOURCE" then
      if isHttp e1 then none else some (.source e1 [])
    else none
  | _ => none
where
  parseHttp (e0 e1 e2 : Bytes) : Option Method :=
    if isHttp e2 then
      if e0 = ascii "GET" then some (.get e1)
      else if e0 = ascii "POST" then some (.post e1)
      else none
    else none

/-- The request line, with what follows it. Without its end it is accepted on demand. -/
def readHeader (buf : Bytes) : Option (Bytes × Bytes) :=
  match readln buf with
  | some r => some r
  | none =>
    if opt.enableHeaderNoCrlf ∧ buf.length < 255 then some (buf, []) else none

def processBevRequest (buf : Bytes) : Verdict P :=
  match readHeader opt buf with
  | none => .reject
  | some (header, rest) =>
    if 255 < header.length ∨ header.length < 9 then .reject
    else match parseHeader header with
      | none => .reject
      | some (.get url) => processGetRequest opt env geo url rest
      | some (.post url) => processPostRequest opt env geo url rest
      | some (.source url secret) => processSourceRequest opt env geo url secret rest

/-- `AUTH::Verify`: the group of the user, if it is let in. -/
abbrev Verify := AuthType → Bytes → Bytes → Option Bytes

inductive Result (P : Type)
  | undefined
  | rejected
  | pushed (info : ConnectInfo P) (left : Bytes)

def createRequest (reply : Option Bytes) (info : ConnectInfo P) (left : Bytes) : Result P :=
  match reply with
  | none => .rejected
  | some groupUid =>
    .pushed { info with
      operateCreate := true
      groupUid := if groupUid = [] then ascii "default" else groupUid } left

/-- `later` arrives while the request is decided. -/
def Verdict.result (verify : Verify) (later : Bytes) : Verdict P → Result P
  | undefined => .undefined
  | reject => .rejected
  | accept none info left => createRequest (some (ascii "default")) info (left ++ later)
  | accept (some type) info left =>
    createRequest (verify type info.userName info.userPwd) info (left ++ later)

/-- The first read event decides. -/
def bevReadCallback (verify : Verify) : List Bytes → Result P
  | [] => .rejected
  | data :: later => (processBevRequest opt env geo data).result verify later.flatten

end NavCaster.Service.Request
