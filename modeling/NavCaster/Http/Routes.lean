import NavCaster.Http.Server

namespace NavCaster.Http.Routes

open NavCaster.Library
open NavCaster.Library.Percent (Encodes)
open NavCaster.Library.Strto (Bytes)
open NavCaster.Library.Scan (ascii cstr)
open NavCaster.Http.Server

inductive Endpoint
  | login | logout | getAccounts | getAccount | createAccount | updateAccount | deleteAccount
  | getAccountActives | getSources | getSource | createSource | updateSource | deleteSource
  | getServers | kickServer | getServer | getClients | kickClient | getClient | getStreams
  | getStream | getAliases | getAlias | createAlias | updateAlias | deleteAlias | getAccessGroups
  | getAccessGroup | createAccessGroup | updateAccessGroup | deleteAccessGroup | getAccessItems
  | createAccessItem | updateAccessItem | deleteAccessItem | getPulls | getPullStates | getPull
  | createPull | updatePull | deletePull | getPushs | getPushStates | getPush | createPush
  | updatePush | deletePush | relayStart | relayStop | getNodes | getNodeHistory | getNode
  | getMountpointSubscribers | getStatus | getHealth | getServerLogs | getClientLogs
  | getStatsOverview | getStatsDaily | getStatsMptRanking | getStatsMptHistory
  | getStatsUsrRanking | getStatsUsrHistory | getConfigs | getConfig | updateConfig
  | getMonitorRedis | getMonitorRedisKeys | getMonitorRedisHistory | getMonitorCluster | getAudit
  | getLogsRing | getSystemEvents | setNodeLogLevel | fetchSourcetable | localSourcetable
  | sseStream
  deriving DecidableEq

def route (method : Method) (pattern : String) (handler : Endpoint) : RouteEntry Endpoint where
  method
  pattern := ascii pattern
  handler

def routeRaw (method : Method) (pattern : String) (handler : Endpoint) : RouteEntry Endpoint :=
  { route method pattern handler with isRaw := true }

def routes : List (RouteEntry Endpoint) :=
  [route .post "/api/auth/login" .login,
    route .post "/api/auth/logout" .logout,
    route .get "/api/accounts" .getAccounts,
    route .get "/api/accounts/*" .getAccount,
    route .post "/api/accounts" .createAccount,
    route .put "/api/accounts/*" .updateAccount,
    route .delete "/api/accounts/*" .deleteAccount,
    route .get "/api/accounts/active" .getAccountActives,
    route .get "/api/sources" .getSources,
    route .get "/api/sources/*" .getSource,
    route .post "/api/sources" .createSource,
    route .put "/api/sources/*" .updateSource,
    route .delete "/api/sources/*" .deleteSource,
    route .get "/api/servers" .getServers,
    route .post "/api/servers/kick/*" .kickServer,
    route .get "/api/servers/*" .getServer,
    route .get "/api/clients" .getClients,
    route .post "/api/clients/kick/*" .kickClient,
    route .get "/api/clients/*" .getClient,
    route .get "/api/streams" .getStreams,
    route .get "/api/streams/*" .getStream,
    route .get "/api/aliases" .getAliases,
    route .get "/api/aliases/*" .getAlias,
    route .post "/api/aliases" .createAlias,
    route .put "/api/aliases/*" .updateAlias,
    route .delete "/api/aliases/*" .deleteAlias,
    route .get "/api/access/groups" .getAccessGroups,
    route .get "/api/access/groups/*" .getAccessGroup,
    route .post "/api/access/groups" .createAccessGroup,
    route .put "/api/access/groups/*" .updateAccessGroup,
    route .delete "/api/access/groups/*" .deleteAccessGroup,
    route .get "/api/access/items/*" .getAccessItems,
    route .post "/api/access/items/*" .createAccessItem,
    route .put "/api/access/items/*" .updateAccessItem,
    route .delete "/api/access/items/*" .deleteAccessItem,
    route .get "/api/relays/pull" .getPulls,
    route .get "/api/relays/pull/status" .getPullStates,
    route .get "/api/relays/pull/*" .getPull,
    route .post "/api/relays/pull" .createPull,
    route .put "/api/relays/pull/*" .updatePull,
    route .delete "/api/relays/pull/*" .deletePull,
    route .get "/api/relays/push" .getPushs,
    route .get "/api/relays/push/status" .getPushStates,
    route .get "/api/relays/push/*" .getPush,
    route .post "/api/relays/push" .createPush,
    route .put "/api/relays/push/*" .updatePush,
    route .delete "/api/relays/push/*" .deletePush,
    route .post "/api/relays/pull/start/*" .relayStart,
    route .post "/api/relays/pull/stop/*" .relayStop,
    route .post "/api/relays/push/start/*" .relayStart,
    route .post "/api/relays/push/stop/*" .relayStop,
    route .get "/api/nodes" .getNodes,
    route .get "/api/nodes/history/*" .getNodeHistory,
    route .get "/api/nodes/*" .getNode,
    route .get "/api/mountpoints/subscribers" .getMountpointSubscribers,
    route .get "/api/status" .getStatus,
    route .get "/api/status/health" .getHealth,
    route .get "/api/logs/servers" .getServerLogs,
    route .get "/api/logs/clients" .getClientLogs,
    route .get "/api/stats/overview" .getStatsOverview,
    route .get "/api/stats/daily/*" .getStatsDaily,
    route .get "/api/stats/mountpoints/ranking" .getStatsMptRanking,
    route .get "/api/stats/mountpoints/history/*" .getStatsMptHistory,
    route .get "/api/stats/users/ranking" .getStatsUsrRanking,
    route .get "/api/stats/users/history/*" .getStatsUsrHistory,
    route .get "/api/config" .getConfigs,
    route .get "/api/config/*" .getConfig,
    route .put "/api/config/*" .updateConfig,
    route .get "/api/monitor/redis" .getMonitorRedis,
    route .get "/api/monitor/redis/keys" .getMonitorRedisKeys,
    route .get "/api/monitor/redis/history" .getMonitorRedisHistory,
    route .get "/api/monitor/cluster" .getMonitorCluster,
    route .get "/api/audit" .getAudit,
    route .get "/api/logs/ring" .getLogsRing,
    route .get "/api/system/events" .getSystemEvents,
    route .post "/api/nodes/log-level/*" .setNodeLogLevel,
    route .post "/api/utils/sourcetable" .fetchSourcetable,
    route .get "/api/utils/sourcetable/local" .localSourcetable,
    routeRaw .get "/api/events/stream" .sseStream]

def publicPaths : List Bytes :=
  [ascii "/api/auth/login", ascii "/api/status/health", ascii "/api/events/stream"]

def getResourceId (req : HttpRequest) : Bytes := req.pathSegments.getLast?.getD []

/-- The handlers that a request reaches without a token. -/
def Endpoint.isPublic (e : Endpoint) : Bool := e ∈ [login, getHealth, sseStream]

def dir (pattern : Bytes) : Bytes := pattern.dropLast

theorem dir_append_star (pre : Bytes) : dir (pre ++ star) = pre ++ [47] := by
  have hstar : pre ++ star = (pre ++ [47]) ++ [42] := by
    rw [List.append_assoc]
    rfl
  rw [dir, hstar, List.dropLast_concat]

theorem matchPattern_star (pre seg : Bytes) :
    matchPattern (pre ++ star) (pre ++ 47 :: seg) = true := by
  rw [matchPattern]
  by_cases heq : pre ++ star = pre ++ 47 :: seg
  · exact if_pos heq
  · have hlength : (pre ++ star).length - 2 = pre.length := by
      rw [List.length_append]
      exact Nat.add_sub_cancel ..
    rw [if_neg heq, if_pos (List.suffix_append pre star), hlength, List.take_left]
    simp

theorem matchPattern_cases {pattern path : Bytes} (h : matchPattern pattern path = true) :
    pattern = path ∨ star <:+ pattern ∧ dir pattern <+: path := by
  rw [matchPattern] at h
  split at h
  · next heq => exact Or.inl heq
  · split at h
    · next hstar =>
      apply Or.inr
      refine ⟨hstar, ?_⟩
      obtain ⟨pre, rfl⟩ := hstar
      have hlength : (pre ++ star).length - 2 = pre.length := by
        rw [List.length_append]
        exact Nat.add_sub_cancel ..
      rw [hlength, List.take_left] at h
      simp only [Bool.and_eq_true, decide_eq_true_eq] at h
      obtain ⟨⟨_, hpre⟩, hslash⟩ := h
      obtain ⟨hlt, hat⟩ := List.getElem?_eq_some_iff.1 hslash
      have htake := List.take_append_getElem hlt
      rw [hat, hpre] at htake
      rw [dir_append_star, htake]
      exact List.take_prefix ..
    · cases h

theorem prefix_of_prefix_append {d p seg : Bytes} (hseg : 47 ∉ seg) (h : d ++ [47] <+: p ++ seg) :
    d ++ [47] <+: p := by
  obtain hp | ⟨t, ht⟩ := List.prefix_or_prefix_of_prefix h (List.prefix_append p seg)
  · exact hp
  · obtain rfl | ⟨t, b, rfl⟩ := List.eq_nil_or_concat' t
    · rw [List.append_nil] at ht
      exact ht ▸ List.prefix_refl _
    · have hb : b = 47 := by
        have hlast := congrArg List.getLast? ht
        simpa using hlast
      rw [← ht, List.prefix_append_right_inj, hb] at h
      exact absurd (h.subset (List.mem_append_right t (List.mem_singleton_self _))) hseg

def status : Bytes := ascii "status"

def Apart (earlier later : RouteEntry Endpoint) : Prop :=
  earlier.method ≠ later.method ∨ ¬ star <:+ later.pattern ∨
    (star <:+ earlier.pattern ∧ ¬ dir earlier.pattern <+: dir later.pattern) ∨
    (¬ star <:+ earlier.pattern ∧
      (¬ dir later.pattern <+: earlier.pattern ∨
        earlier.pattern = dir later.pattern ++ status ∧ later.handler ∈ [.getPull, .getPush]))

instance (earlier later : RouteEntry Endpoint) : Decidable (Apart earlier later) :=
  inferInstanceAs (Decidable (_ ∨ _ ∨ _ ∨ _))

theorem routes_table :
    (∀ p ∈ publicPaths, ¬ star <:+ p ∧
      ∀ r ∈ routes, matchPattern r.pattern p = true → r.handler.isPublic = true) ∧
    routes.Pairwise Apart ∧
    ∀ r ∈ routes, r.handler ∈ [.getPull, .getPush] →
      (routes.find? fun e ↦ e.method =
        r.method && matchPattern e.pattern (dir r.pattern ++ status)).map
        RouteEntry.handler ≠ some r.handler := by
  decide +kernel

theorem isPublic_of_path {req : HttpRequest} {r : RouteEntry Endpoint}
    (hpath : isPublicPath publicPaths req.path = true)
    (hroute : routes.find? (matchRoute · req) = some r) : r.handler.isPublic = true := by
  obtain ⟨p, hp, hmatch⟩ := List.any_eq_true.1 hpath
  obtain ⟨hstar, hpublic⟩ := routes_table.1 p hp
  have heq : req.path = p := by simpa [hstar] using hmatch
  have hfound := List.find?_some hroute
  rw [matchRoute, Bool.and_eq_true, heq] at hfound
  exact hpublic r (List.mem_of_find?_eq_some hroute) hfound.2

theorem find?_of_pairwise {A : Type} {R : A → A → Prop} {p : A → Bool} {l : List A}
    (hl : l.Pairwise R) {a : A} (ha : a ∈ l) (hp : p a = true) (hR : ∀ b ∈ l, R b a → p b = false) :
    l.find? p = some a := by
  induction hl with
  | nil => cases ha
  | @cons b l hb _ ih =>
    obtain rfl | htail := List.mem_cons.1 ha
    · rw [List.find?_cons, hp]
    · rw [List.find?_cons, hR b (List.mem_cons_self ..) (hb a htail)]
      exact ih htail fun c hc ↦ hR c (List.mem_cons_of_mem b hc)

theorem matchRoute_of_apart {earlier later : RouteEntry Endpoint} {req : HttpRequest}
    {pre seg : Bytes} (hapart : Apart earlier later) (hpattern : later.pattern = pre ++ star)
    (hseg : 47 ∉ seg) (hmethod : req.method = later.method) (hpath : req.path = pre ++ 47 :: seg)
    (hstatus : ¬ (seg = status ∧ later.handler ∈ [.getPull, .getPush])) :
    matchRoute earlier req = false := by
  cases hmatch : matchRoute earlier req with
  | false => rfl
  | true =>
    rw [matchRoute, Bool.and_eq_true, decide_eq_true_eq, hmethod, hpath] at hmatch
    obtain ⟨hsame, hmatch⟩ := hmatch
    have hsplit : pre ++ 47 :: seg = dir later.pattern ++ seg := by
      rw [hpattern, dir_append_star, List.append_assoc]
      rfl
    rw [hsplit] at hmatch
    obtain hne | hno | ⟨hstar, hdir⟩ | ⟨hstar, hexact⟩ := hapart
    · exact absurd hsame hne
    · exact absurd (hpattern ▸ List.suffix_append pre star) hno
    · have hprefix : dir earlier.pattern <+: dir later.pattern ++ seg := by
        obtain heq | ⟨_, hprefix⟩ := matchPattern_cases hmatch
        · exact heq ▸ List.dropLast_prefix _
        · exact hprefix
      obtain ⟨d, hd⟩ := hstar
      rw [← hd, dir_append_star] at hprefix hdir
      exact absurd (prefix_of_prefix_append hseg hprefix) hdir
    · obtain heq | ⟨hstar', _⟩ := matchPattern_cases hmatch
      · obtain hdir | ⟨hstatus', hhandler⟩ := hexact
        · exact absurd (heq ▸ List.prefix_append ..) hdir
        · rw [heq, List.append_cancel_left_eq] at hstatus'
          exact absurd ⟨hstatus', hhandler⟩ hstatus
      · exact absurd hstar' hstar

theorem getResourceId_parseRequest {uridecode : Bytes → Option Bytes} {req : EvhttpRequest}
    {pre seg : Bytes} (hpath : req.path = some (pre ++ 47 :: seg)) (hseg : 47 ∉ seg)
    (hne : seg ≠ []) :
    getResourceId (parseRequest uridecode req) = decodeSegment uridecode seg := by
  have hsegments : ∃ l, segments (pre ++ 47 :: seg) = l ++ [seg] := by
    have hkeep : [seg].filter (· ≠ []) = [seg] := by simp [hne]
    cases pre with
    | nil =>
      refine ⟨[], ?_⟩
      rw [segments, List.nil_append, List.drop_one, List.tail_cons, List.splitOn_eq_singleton hseg,
        hkeep]
      rfl
    | cons b pre =>
      refine ⟨(pre.splitOn 47).filter (· ≠ []), ?_⟩
      rw [segments, List.cons_append, List.drop_one, List.tail_cons, List.splitOn_append_cons_self,
        List.splitOn_eq_singleton hseg, List.filter_append, hkeep]
  obtain ⟨l, hl⟩ := hsegments
  have hparsed :
      (parseRequest uridecode req).pathSegments = (l ++ [seg]).map (decodeSegment uridecode) := by
    rw [← hl]
    simp only [parseRequest, hpath, Option.getD_some]
  rw [getResourceId, hparsed, List.map_append, List.map_singleton, List.getLast?_concat,
    Option.getD_some]

theorem decodeSegment_of_encodes {uridecode : Bytes → Option Bytes}
    (hdecode : ∀ s t, Encodes s t → uridecode s = some t) {name seg : Bytes}
    (hname : Encodes seg name) (hnul : 0 ∉ name) : decodeSegment uridecode seg = name := by
  have hcstr : cstr name = name := by
    apply List.takeWhile_eq_self_iff.2
    intro b hb
    have hzero : b ≠ 0 := fun heq ↦ hnul (heq ▸ hb)
    simp [hzero]
  simp only [decodeSegment, hdecode _ _ hname, hcstr]

section

variable {uridecode : Bytes → Option Bytes} {r : RouteEntry Endpoint} {req : EvhttpRequest}
  {pre name seg : Bytes}

theorem find?_entry (hr : r ∈ routes) (hpattern : r.pattern = pre ++ star) (hseg : 47 ∉ seg)
    (hmethod : req.method = r.method) (hpath : req.path = some (pre ++ 47 :: seg)) :
    routes.find? (matchRoute · (parseRequest uridecode req)) = some r ↔
      ¬ (seg = status ∧ r.handler ∈ [.getPull, .getPush]) := by
  have hparsed : (parseRequest uridecode req).path = pre ++ 47 :: seg := by
    simp only [parseRequest, hpath, Option.getD_some]
  constructor
  · intro hfound ⟨hstatus, hhandler⟩
    apply routes_table.2.2 r hr hhandler
    rw [hpattern, dir_append_star, List.append_assoc]
    simp only [matchRoute, parseRequest, hpath, hstatus, Option.getD_some, hmethod] at hfound
    exact congrArg (Option.map RouteEntry.handler) hfound
  · intro hstatus
    apply find?_of_pairwise routes_table.2.1 hr
    · rw [matchRoute, hpattern, hparsed, matchPattern_star, Bool.and_true, decide_eq_true_eq]
      exact hmethod.symm
    · exact fun b _ hapart ↦ matchRoute_of_apart hapart hpattern hseg hmethod hparsed hstatus

theorem getResourceId_entry (hdecode : ∀ s t, Encodes s t → uridecode s = some t)
    (hname : Encodes seg name) (hseg : 47 ∉ seg) (hne : name ≠ []) (hnul : 0 ∉ name)
    (hpath : req.path = some (pre ++ 47 :: seg)) :
    getResourceId (parseRequest uridecode req) = name := by
  have hseg' : seg ≠ [] := by
    intro hnil
    subst hnil
    cases hname
    exact hne rfl
  rw [getResourceId_parseRequest hpath hseg hseg', decodeSegment_of_encodes hdecode hname hnul]

/-- A name that is written in any way behind the path of a collection comes to the route of its
entries, other than `status` for the relays, and the handler reads the name back. -/
theorem every_name_addressed (hdecode : ∀ s t, Encodes s t → uridecode s = some t) (hr : r ∈ routes)
    (hpattern : r.pattern = pre ++ star) (hname : Encodes seg name) (hseg : 47 ∉ seg)
    (hne : name ≠ []) (hnul : 0 ∉ name) (hmethod : req.method = r.method)
    (hpath : req.path = some (pre ++ 47 :: seg)) :
    getResourceId (parseRequest uridecode req) = name ∧
      (routes.find? (matchRoute · (parseRequest uridecode req)) = some r ↔
        ¬ (seg = status ∧ r.handler ∈ [.getPull, .getPush])) :=
  ⟨getResourceId_entry hdecode hname hseg hne hnul hpath,
    find?_entry hr hpattern hseg hmethod hpath⟩

end

theorem hexDigit_of_hexDigit {b : UInt8} {x : ℕ} (h : Strto.hexDigit b = some x) :
    StaticFiles.hexDigit b = some (UInt8.ofNat x) := by
  revert x
  revert b
  decide +kernel

theorem percentDecode_of_encodes {s t : Bytes} (h : Encodes s t) :
    some (StaticFiles.percentDecode s) = some t := by
  induction h with
  | nil => rfl
  | self hb _ ih =>
    rw [StaticFiles.percentDecode]
    · exact congrArg _ (congrArg _ (Option.some_inj.1 ih))
    · intro _ _ _ heq
      exact absurd heq hb
  | @escape _ _ x y _ _ hx hy _ ih =>
    have hvalue : UInt8.ofNat x * 16 + UInt8.ofNat y = UInt8.ofNat (16 * x + y) := by
      rw [UInt8.ofNat_add, UInt8.ofNat_mul, UInt8.mul_comm]
      rfl
    simp only [StaticFiles.percentDecode, hexDigit_of_hexDigit hx, hexDigit_of_hexDigit hy, hvalue,
      Option.some_inj.1 ih]

def updateSource : RouteEntry Endpoint := route .put "/api/sources/*" .updateSource

def putSource : EvhttpRequest where
  method := .put
  uri := ascii "/api/sources/BASE%2F1"
  path := some (ascii "/api/sources" ++ 47 :: ascii "BASE%2F1")

theorem encodes_slash : Encodes (ascii "BASE%2F1") (ascii "BASE/1") :=
  Percent.encodes_encode (show Percent.unreserved 37 = false from rfl) (ascii "BASE/1")

theorem every_name_addressed_slash :
    getResourceId (parseRequest (fun s ↦ some (StaticFiles.percentDecode s)) putSource) =
      ascii "BASE/1" ∧
      (routes.find?
        (matchRoute · (parseRequest (fun s ↦ some (StaticFiles.percentDecode s)) putSource)) =
          some updateSource ↔
        ¬ (ascii "BASE%2F1" = status ∧ updateSource.handler ∈ [.getPull, .getPush])) :=
  every_name_addressed (fun _ _ ↦ percentDecode_of_encodes) (by simp [routes, updateSource])
    (show updateSource.pattern = ascii "/api/sources" ++ star from rfl) encodes_slash (by decide)
      (by decide)
    (by decide) rfl rfl

end NavCaster.Http.Routes
