import NavCaster.Library.Loop
import NavCaster.Library.Machine
import NavCaster.Library.Scan
import NavCaster.Library.Utf8

namespace NavCaster.Http.Sse

open NavCaster.Library
open NavCaster.Library.Strto (Bytes)
open NavCaster.Library.Scan (ascii)

/-- What is used of the JSON values. `dumps` tells that `dump` does not throw, as it does where a
string is not UTF-8. -/
structure JsonValues (V : Type) where
  object : V
  isNull : V → Bool
  empty : V → Bool
  dumps : V → Bool
  empty_object : empty object = true

structure SseClient where
  req : Nat
  channels : List Bytes
  wildcard : Bool
  deriving DecidableEq

def SseClient.subscribes (client : SseClient) (name : Bytes) : Bool :=
  client.wildcard || client.channels.contains name

inductive Chunk (V : Type)
  | event (name : Bytes) (data : V)
  | comment (text : Bytes)
  deriving DecidableEq

def Chunk.dataOf {V : Type} (name : Bytes) : Chunk V → Option V
  | event name' data => if name' = name then some data else none
  | comment _ => none

/-- `channels` has what is cached of each channel, and `sent` what has been written to the
connection of each request, the last first. -/
structure SseManager (V : Type) where
  clients : List SseClient := []
  channels : Table Bytes V := ∅
  maxClients : Nat := 0
  sent : Nat → List (Chunk V) := fun _ ↦ []

def star : Bytes := ascii "*"

def isBlank (b : UInt8) : Bool := b = 32 || b = 9

def trim (item : Bytes) : Bytes :=
  match item.dropWhile isBlank with
  | [] => item
  | rest => (rest.reverse.dropWhile isBlank).reverse

def parseChannels (csv : Bytes) : List Bytes × Bool :=
  if csv = [] ∨ csv = star then ([], true)
  else
    let items := (csv.splitOn 44).map trim
    let out := items.filter fun item ↦ item ≠ star && item ≠ []
    (out, items.contains star || out.isEmpty)

def newClient (req : Nat) (channels : Bytes) : SseClient :=
  ⟨req, (parseChannels channels).1, (parseChannels channels).2⟩

variable {V : Type} (values : JsonValues V)

def shown (data : Option V) : Option V :=
  data.filter fun data ↦ !values.isNull data && !values.empty data

namespace SseManager

variable (s : SseManager V)

def registerChannel (channel : Bytes) : SseManager V :=
  { s with channels := s.channels.insert channel values.object }

def sendSseEvent (req : Nat) (name : Bytes) (data : V) : SseManager V :=
  { s with sent := Function.update s.sent req (.event name data :: s.sent req) }

def sendSseComment (req : Nat) (text : Bytes) : SseManager V :=
  { s with sent := Function.update s.sent req (.comment text :: s.sent req) }

def broadcast (name : Bytes) (data : V) : SseManager V :=
  s.clients.foldl
    (fun s client ↦ if client.subscribes name then s.sendSseEvent client.req name data else s) s

def cached (name : Bytes) : V := (s.channels.lookup name).getD values.object

/-- The last value that has been sent; a client that has been sent none holds the empty object. -/
def holds (req : Nat) (name : Bytes) : V :=
  ((s.sent req).findSome? (Chunk.dataOf name)).getD values.object

variable {values s}

theorem cached_insert (name name' : Bytes) (data : V) :
    cached values { s with channels := s.channels.insert name data } name' =
      if name' = name then data else s.cached values name' := by
  unfold cached
  rw [Table.lookup_insert_if]
  split <;> rfl

theorem holds_sendSseEvent (req req' : Nat) (name name' : Bytes) (data : V) :
    (s.sendSseEvent req name data).holds values req' name' =
      if req' = req ∧ name' = name then data else s.holds values req' name' := by
  unfold holds sendSseEvent
  dsimp only
  by_cases hreq : req' = req
  · subst hreq
    rw [Function.update_self, List.findSome?_cons, Chunk.dataOf]
    by_cases hname : name' = name
    · simp [hname]
    · simp [hname, Ne.symm hname]
  · rw [Function.update_of_ne hreq]
    simp [hreq]

theorem holds_sendSseComment (req req' : Nat) (name : Bytes) (text : Bytes) :
    (s.sendSseComment req text).holds values req' name = s.holds values req' name := by
  unfold holds sendSseComment
  dsimp only
  by_cases hreq : req' = req
  · subst hreq
    rw [Function.update_self, List.findSome?_cons, Chunk.dataOf]
  · rw [Function.update_of_ne hreq]

variable (values) in
theorem foldl_send (clients : List SseClient) (name : Bytes) (data : V) (s : SseManager V) :
    let t := clients.foldl
      (fun s client ↦ if client.subscribes name then s.sendSseEvent client.req name data else s) s
    t.clients = s.clients ∧ t.channels = s.channels ∧ ∀ req name', t.holds values req name' =
      if name' = name ∧ ∃ client ∈ clients, client.req = req ∧ client.subscribes name = true then
        data
      else s.holds values req name' := by
  induction clients generalizing s with
  | nil => simp
  | cons client clients ih =>
    rw [List.foldl_cons]
    simp only [List.exists_mem_cons_iff]
    split
    · next hsub =>
      obtain ⟨hclients, hchannels, hholds⟩ := ih (s.sendSseEvent client.req name data)
      refine ⟨hclients, hchannels, fun req name' ↦ ?_⟩
      rw [hholds, holds_sendSseEvent]
      by_cases hname : name' = name
      · by_cases hreq : client.req = req
        · simp [hname, hreq, hsub]
        · simp [hname, hreq, Ne.symm hreq]
      · simp [hname]
    · next hsub =>
      obtain ⟨hclients, hchannels, hholds⟩ := ih s
      refine ⟨hclients, hchannels, fun req name' ↦ ?_⟩
      rw [hholds]
      simp [hsub]

variable (values) in
theorem foldl_comment (clients : List SseClient) (text : Bytes) (s : SseManager V) :
    let t := clients.foldl (fun s client ↦ s.sendSseComment client.req text) s
    t.clients = s.clients ∧ t.channels = s.channels ∧
      ∀ req name, t.holds values req name = s.holds values req name := by
  induction clients generalizing s with
  | nil => simp
  | cons client clients ih =>
    obtain ⟨hclients, hchannels, hholds⟩ := ih (s.sendSseComment client.req text)
    refine ⟨hclients, hchannels, fun req name ↦ ?_⟩
    exact (hholds req name).trans (holds_sendSseComment ..)

variable (values s)

/-- A round of the loop that sends a new client what there is. A value that `dump` refuses is cached
all the same. -/
def sendInitial (fetcher : Bytes → Option V) (client : SseClient) (s : SseManager V)
    (channel : Bytes × V) :
    SseManager V :=
  if client.subscribes channel.1 then
    match shown values (fetcher channel.1) with
    | none => s
    | some data =>
      let s := { s with channels := s.channels.insert channel.1 data }
      if values.dumps data then s.sendSseEvent client.req channel.1 data else s
  else s

/-- The number of clients is limited unless the limit is zero. -/
def addClient (req : Nat) (channels : Bytes) (fetcher : Bytes → Option V) : SseManager V × Int :=
  if 0 < s.maxClients ∧ s.maxClients ≤ s.clients.length then (s, -1)
  else
    let client := newClient req channels
    let s := { s with clients := s.clients ++ [client], sent := Function.update s.sent req [] }
    ((Table.toPairs s.channels).foldl (sendInitial values fetcher client) s, 0)

def removeClient (req : Nat) : SseManager V := { s with clients := s.clients.filter (·.req ≠ req) }

variable [DecidableEq V]

def poll (fetcher : Bytes → Option V) (s : SseManager V) (channel : Bytes × V) : SseManager V :=
  match fetcher channel.1 with
  | none => s
  | some newData =>
    if newData = s.cached values channel.1 then s
    else
      let s := { s with channels := s.channels.insert channel.1 newData }
      if values.dumps newData then s.broadcast channel.1 newData else s

def pollAndBroadcast (fetcher : Bytes → Option V) : SseManager V :=
  if s.clients = [] then s
  else
    let s := (Table.toPairs s.channels).foldl (poll values fetcher) s
    s.clients.foldl (fun s client ↦ s.sendSseComment client.req (ascii "keepalive")) s

end SseManager

variable [DecidableEq V]

/-- `fetcher` is what the channels have at the time; nothing where the fetching throws. -/
inductive Action (V : Type)
  | addClient (req : Nat) (channels : Bytes) (fetcher : Bytes → Option V)
  | removeClient (req : Nat)
  | poll (fetcher : Bytes → Option V)

def step (s : SseManager V) : Action V → Option (SseManager V × List Int)
  | .addClient req channels fetcher =>
    if ∃ client ∈ s.clients, client.req = req then none
    else some ((s.addClient values req channels fetcher).1,
      [(s.addClient values req channels fetcher).2])
  | .removeClient req => some (s.removeClient req, [])
  | .poll fetcher => some (s.pollAndBroadcast values fetcher, [])

def machine : Machine (SseManager V) (Action V) Int where
  step := step values

def init (names : List Bytes) (maxClients : Nat) : SseManager V :=
  names.foldl (fun s name ↦ s.registerChannel values name) { maxClients }

/-- Each client has what the channels that it subscribes to have now. -/
def UpToDate (fetcher : Bytes → Option V) (s : SseManager V) : Prop :=
  ∀ client ∈ s.clients, ∀ name ∈ s.channels, client.subscribes name = true →
    fetcher name = some (s.holds values client.req name)

def Fetched (fetcher : Bytes → Option V) (s : SseManager V) : Prop :=
  ∀ name ∈ s.channels, (fetcher name).isSome

/-- A snapshot can be written, and no other client lacks it; where there is none, the cache is
empty. -/
def Harmless (fetcher : Bytes → Option V) (s : SseManager V) (name : Bytes) : Prop :=
  match shown values (fetcher name) with
  | none => s.cached values name = values.object
  | some data => values.dumps data = true ∧
      (data = s.cached values name ∨ ∀ client ∈ s.clients, client.subscribes name = false)

def Writable (fetcher : Bytes → Option V) (s : SseManager V) (name : Bytes) : Prop :=
  ∀ data, fetcher name = some data → data ≠ s.cached values name → values.dumps data = true ∨
    ∀ client ∈ s.clients, client.subscribes name = false

def Ok (s : SseManager V) : Action V → Prop
  | .addClient req channels fetcher => ¬ (0 < s.maxClients ∧ s.maxClients ≤ s.clients.length) →
      ∀ name ∈ s.channels, (newClient req channels).subscribes name = true →
        Harmless values fetcher s name
  | .removeClient _ => True
  | .poll fetcher => ∀ name ∈ s.channels, Writable values fetcher s name

def Synced (s : SseManager V) : Prop :=
  ∀ client ∈ s.clients, ∀ name ∈ s.channels, client.subscribes name = true →
    s.holds values client.req name = s.cached values name

variable {values} {s t : SseManager V}

@[ext]
structure View (V : Type) where
  known : Prop
  clients : List SseClient
  cached : V
  holds : Nat → V

variable (values) in
def view (s : SseManager V) (name : Bytes) : View V where
  known := name ∈ s.channels
  clients := s.clients
  cached := s.cached values name
  holds := fun req ↦ s.holds values req name

def sendTo (name : Bytes) (data : V) (v : View V) : Nat → V := fun req ↦
  if ∃ client ∈ v.clients, client.req = req ∧ client.subscribes name = true then data
  else v.holds req

variable (values) in
def pollView (fetcher : Bytes → Option V) (name : Bytes) (v : View V) : View V :=
  match fetcher name with
  | none => v
  | some newData =>
    if newData = v.cached then v
    else
      { v with
        known := True
        cached := newData
        holds := if values.dumps newData then sendTo name newData v else v.holds }

variable (values) in
def initialView (fetcher : Bytes → Option V) (client : SseClient) (name : Bytes) (v : View V) :
    View V :=
  if client.subscribes name then
    match shown values (fetcher name) with
    | none => v
    | some data =>
      { v with
        known := True
        cached := data
        holds := if values.dumps data then Function.update v.holds client.req data else v.holds }
  else v

omit [DecidableEq V] in
theorem view_insert (s : SseManager V) (name name' : Bytes) (data : V) :
    view values { s with channels := s.channels.insert name data } name' =
      if name' = name then { view values s name' with known := True, cached := data }
      else view values s name' := by
  unfold view
  rw [SseManager.cached_insert, AList.mem_insert]
  split
  · next hname =>
    simp only [hname, true_or]
    rfl
  · next hname =>
    simp only [hname, false_or]
    rfl

omit [DecidableEq V] in
theorem view_broadcast (s : SseManager V) (name name' : Bytes) (data : V) :
    view values (s.broadcast name data) name' =
      if name' = name then
        { view values s name' with holds := sendTo name data (view values s name') }
      else view values s name' := by
  obtain ⟨hclients, hchannels, hholds⟩ := SseManager.foldl_send values s.clients name data s
  have hcached :
      SseManager.cached values (s.broadcast name data) name' = s.cached values name' := by
    unfold SseManager.cached SseManager.broadcast
    rw [hchannels]
  by_cases hname : name' = name
  · rw [if_pos hname]
    refine View.ext (by rw [view, view, SseManager.broadcast, hchannels]) hclients hcached
      (funext fun req ↦ (hholds req name').trans ?_)
    simp [sendTo, view, hname]
  · rw [if_neg hname]
    refine View.ext (by rw [view, view, SseManager.broadcast, hchannels]) hclients hcached
      (funext fun req ↦ (hholds req name').trans ?_)
    simp [view, hname]

omit [DecidableEq V] in
theorem view_sendSseEvent (s : SseManager V) (req : Nat) (name name' : Bytes) (data : V) :
    view values (s.sendSseEvent req name data) name' =
      if name' = name then
        { view values s name' with holds := Function.update (view values s name').holds req data }
      else view values s name' := by
  by_cases hname : name' = name
  · rw [if_pos hname]
    refine View.ext rfl rfl rfl (funext fun req' ↦ (SseManager.holds_sendSseEvent ..).trans ?_)
    simp [view, hname, Function.update_apply]
  · rw [if_neg hname]
    refine View.ext rfl rfl rfl (funext fun req' ↦ (SseManager.holds_sendSseEvent ..).trans ?_)
    simp [view, hname]

theorem view_poll (fetcher : Bytes → Option V) (s : SseManager V) (channel : Bytes × V)
    (name : Bytes) :
    view values (s.poll values fetcher channel) name =
      if name = channel.1 then pollView values fetcher name (view values s name)
      else view values s name := by
  unfold SseManager.poll pollView
  by_cases hname : name = channel.1
  · subst hname
    rw [if_pos rfl]
    cases fetcher channel.1 with
    | none => rfl
    | some newData =>
      dsimp only
      change _ = if newData = s.cached values channel.1 then _ else _
      split
      · rfl
      · split
        · rw [view_broadcast, if_pos rfl, view_insert, if_pos rfl]
          rfl
        · rw [view_insert, if_pos rfl]
  · rw [if_neg hname]
    cases fetcher channel.1 with
    | none => rfl
    | some newData =>
      dsimp only
      split
      · rfl
      · split
        · rw [view_broadcast, if_neg hname, view_insert, if_neg hname]
        · rw [view_insert, if_neg hname]

variable (values) in
theorem local_poll (fetcher : Bytes → Option V) :
    Local (fun _ ↦ True) (view values) (SseManager.poll values fetcher) fun channel ↦
      pollView values fetcher channel.1 where
  own_key s channel _ := (view_poll fetcher s channel channel.1).trans (if_pos rfl)
  other s channel name _ hne := (view_poll fetcher s channel name).trans (if_neg hne)

omit [DecidableEq V] in
theorem view_sendInitial (fetcher : Bytes → Option V) (client : SseClient) (s : SseManager V)
    (channel : Bytes × V) (name : Bytes) :
    view values (s.sendInitial values fetcher client channel) name =
      if name = channel.1 then initialView values fetcher client name (view values s name)
      else view values s name := by
  unfold SseManager.sendInitial initialView
  by_cases hname : name = channel.1
  · subst hname
    rw [if_pos rfl]
    split
    · cases shown values (fetcher channel.1) with
      | none => rfl
      | some data =>
        dsimp only
        split
        · rw [view_sendSseEvent, if_pos rfl, view_insert, if_pos rfl]
        · rw [view_insert, if_pos rfl]
    · rfl
  · rw [if_neg hname]
    split
    · cases shown values (fetcher channel.1) with
      | none => rfl
      | some data =>
        dsimp only
        split
        · rw [view_sendSseEvent, if_neg hname, view_insert, if_neg hname]
        · rw [view_insert, if_neg hname]
    · rfl

variable (values) in
omit [DecidableEq V] in
theorem local_sendInitial (fetcher : Bytes → Option V) (client : SseClient) :
    Local (fun _ ↦ True) (view values) (SseManager.sendInitial values fetcher client) fun channel ↦
      initialView values fetcher client channel.1 where
  own_key s channel _ := (view_sendInitial fetcher client s channel channel.1).trans (if_pos rfl)
  other s channel name _ hne := (view_sendInitial fetcher client s channel name).trans (if_neg hne)

theorem view_pollAndBroadcast (fetcher : Bytes → Option V) (hne : s.clients ≠ []) (name : Bytes) :
    view values (s.pollAndBroadcast values fetcher) name =
      if name ∈ s.channels then pollView values fetcher name (view values s name)
      else view values s name := by
  have hfold := (local_poll values fetcher).foldl_toPairs s.channels (fun _ _ ↦ trivial) s name
  unfold SseManager.pollAndBroadcast
  rw [if_neg hne]
  generalize (Table.toPairs s.channels).foldl (SseManager.poll values fetcher) s = t at hfold
  obtain ⟨hclients, hchannels, hholds⟩ :=
    SseManager.foldl_comment values t.clients (ascii "keepalive") t
  have hcached : ∀ u : SseManager V, u.channels = t.channels →
      u.cached values name = t.cached values name := by
    intro u hu
    rw [SseManager.cached, SseManager.cached, hu]
  refine Eq.trans (View.ext ?_ hclients (hcached _ hchannels) (funext fun req ↦ hholds req name)) ?_
    (b := view values t name)
  · dsimp only [view]
    rw [hchannels]
  · rw [hfold]
    by_cases hname : name ∈ s.channels
    · obtain ⟨w, hw⟩ := Table.mem_iff_lookup.mp hname
      rw [hw, if_pos hname]
    · rw [AList.lookup_eq_none.mpr hname, if_neg hname]

omit [DecidableEq V] in
theorem view_addClient {req : Nat} {channels : Bytes} (fetcher : Bytes → Option V)
    (hroom : ¬ (0 < s.maxClients ∧ s.maxClients ≤ s.clients.length)) (name : Bytes) :
    let client := newClient req channels
    let v : View V := { view values s name with
      clients := s.clients ++ [client]
      holds := Function.update (view values s name).holds req values.object }
    view values (s.addClient values req channels fetcher).1 name =
      if name ∈ s.channels then initialView values fetcher client name v else v := by
  intro client v
  let s' : SseManager V :=
    { s with clients := s.clients ++ [client], sent := Function.update s.sent req [] }
  have hview : view values s' name = v := by
    refine View.ext rfl rfl rfl (funext fun req' ↦ ?_)
    change ((Function.update s.sent req [] req').findSome? (Chunk.dataOf name)).getD values.object =
      Function.update (fun req ↦ s.holds values req name) req values.object req'
    by_cases hreq : req' = req
    · subst hreq
      rw [Function.update_self, Function.update_self]
      rfl
    · rw [Function.update_of_ne hreq, Function.update_of_ne hreq]
      rfl
  have hfold := (local_sendInitial values fetcher client).foldl_toPairs s.channels
    (fun _ _ ↦ trivial) s' name
  unfold SseManager.addClient
  rw [if_neg hroom]
  refine hfold.trans ?_
  rw [hview]
  by_cases hname : name ∈ s.channels
  · obtain ⟨w, hw⟩ := Table.mem_iff_lookup.mp hname
    rw [hw, if_pos hname]
  · rw [AList.lookup_eq_none.mpr hname, if_neg hname]

def View.Synced (name : Bytes) (v : View V) : Prop :=
  ∀ client ∈ v.clients, client.subscribes name = true → v.holds client.req = v.cached

theorem View.synced_poll {v : View V} {name : Bytes} (h : v.Synced name)
    (fetcher : Bytes → Option V) :
    (pollView values fetcher name v).Synced name ↔
      ∀ data, fetcher name = some data → data ≠ v.cached →
      values.dumps data = true ∨ ∀ client ∈ v.clients, client.subscribes name = false := by
  unfold pollView
  cases fetcher name with
  | none => exact iff_of_true h nofun
  | some data =>
    dsimp only
    by_cases hdata : data = v.cached
    · rw [if_pos hdata]
      refine iff_of_true h fun data' heq hne ↦ ?_
      cases heq
      exact absurd hdata hne
    · rw [if_neg hdata]
      cases hdumps : values.dumps data with
      | true =>
        refine iff_of_true (fun client hclient hsub ↦ ?_) fun data' heq _ ↦ ?_
        · exact if_pos ⟨client, hclient, rfl, hsub⟩
        · cases heq
          exact .inl hdumps
      | false =>
        constructor
        · rintro hsynced data' heq -
          cases heq
          refine .inr fun client hclient ↦ Bool.eq_false_iff.mpr fun hsub ↦ hdata ?_
          exact (hsynced client hclient hsub).symm.trans (h client hclient hsub)
        · intro hwritable client hclient hsub
          rcases hwritable data rfl hdata with hdumps' | hnone
          · cases hdumps.symm.trans hdumps'
          · cases (hnone client hclient).symm.trans hsub

omit [DecidableEq V] in
theorem View.synced_initial {v : View V} {name : Bytes} {client : SseClient} (h : v.Synced name)
    (hfresh : ∀ c ∈ v.clients, c.req ≠ client.req) (fetcher : Bytes → Option V) :
    (initialView values fetcher client name { v with
        clients := v.clients ++ [client]
        holds := Function.update v.holds client.req values.object }).Synced name ↔
      (client.subscribes name = true →
        match shown values (fetcher name) with
        | none => v.cached = values.object
        | some data => values.dumps data = true ∧
            (data = v.cached ∨ ∀ c ∈ v.clients, c.subscribes name = false)) := by
  unfold initialView
  cases hsub : client.subscribes name with
  | false =>
    refine iff_of_true (fun c hc hc' ↦ ?_) nofun
    rcases List.mem_append.mp hc with hc | hc
    · exact (Function.update_of_ne (hfresh c hc) ..).trans (h c hc hc')
    · cases List.mem_singleton.mp hc
      cases hsub.symm.trans hc'
  | true =>
    rw [if_pos rfl, forall_prop_of_true rfl]
    cases hshown : shown values (fetcher name) with
    | none =>
      dsimp only
      constructor
      · intro hsynced
        have hnew := hsynced client (List.mem_append_right _ (List.mem_singleton_self _)) hsub
        exact (hnew.symm.trans (Function.update_self ..))
      · intro hcached c hc hc'
        rcases List.mem_append.mp hc with hc | hc
        · exact (Function.update_of_ne (hfresh c hc) ..).trans (h c hc hc')
        · cases List.mem_singleton.mp hc
          exact (Function.update_self ..).trans hcached.symm
    | some data =>
      dsimp only
      cases hdumps : values.dumps data with
      | true =>
        rw [if_pos rfl]
        constructor
        · intro hsynced
          refine ⟨rfl,
            or_iff_not_imp_left.mpr fun hdata c hc ↦ Bool.eq_false_iff.mpr fun hc' ↦ hdata ?_⟩
          have hold := hsynced c (List.mem_append_left _ hc) hc'
          dsimp only at hold
          rw [Function.update_of_ne (hfresh c hc), Function.update_of_ne (hfresh c hc)] at hold
          exact hold.symm.trans (h c hc hc')
        · rintro ⟨-, hdata⟩ c hc hc'
          dsimp only
          rcases List.mem_append.mp hc with hc | hc
          · rw [Function.update_of_ne (hfresh c hc), Function.update_of_ne (hfresh c hc),
              h c hc hc']
            rcases hdata with hdata | hnone
            · exact hdata.symm
            · cases (hnone c hc).symm.trans hc'
          · cases List.mem_singleton.mp hc
            exact Function.update_self ..
      | false =>
        refine iff_of_false (fun hsynced ↦ ?_) nofun
        have hnew := hsynced client (List.mem_append_right _ (List.mem_singleton_self _)) hsub
        have hobject : values.object = data := (Function.update_self ..).symm.trans hnew
        have hempty := (Option.filter_eq_some_iff.mp hshown).2
        rw [← hobject, values.empty_object] at hempty
        simp at hempty

omit [DecidableEq V] in
theorem synced_iff : Synced values s ↔ ∀ name ∈ s.channels, (view values s name).Synced name :=
  ⟨fun h name hname client hclient ↦ h client hclient name hname,
    fun h client hclient name hname ↦ h name hname client hclient⟩

theorem pollView_known {v : View V} (hv : v.known) (fetcher : Bytes → Option V) (name : Bytes) :
    (pollView values fetcher name v).known := by
  unfold pollView
  cases fetcher name with
  | none => exact hv
  | some data =>
    dsimp only
    split
    · exact hv
    · trivial

omit [DecidableEq V] in
theorem initialView_known {v : View V} (hv : v.known) (fetcher : Bytes → Option V)
    (client : SseClient) (name : Bytes) : (initialView values fetcher client name v).known := by
  unfold initialView
  split
  · cases shown values (fetcher name) with
    | none => exact hv
    | some data => trivial
  · exact hv

omit [DecidableEq V] in
theorem synced_congr {f : Bytes → View V → View V} {v : Bytes → View V}
    (hv : ∀ name, (v name).known ↔ name ∈ s.channels)
    (hf : ∀ name, (v name).known → (f name (v name)).known)
    (hview : ∀ name, view values t name = if name ∈ s.channels then f name (v name) else v name) :
    Synced values t ↔ ∀ name ∈ s.channels, (f name (v name)).Synced name := by
  rw [synced_iff]
  refine forall_congr' fun name ↦ ?_
  have hname := hview name
  by_cases hmem : name ∈ s.channels
  · rw [if_pos hmem] at hname
    have hknown : name ∈ t.channels :=
      (congrArg View.known hname).mpr (hf name ((hv name).mpr hmem))
    rw [hname]
    exact iff_of_eq (by simp [hmem, hknown])
  · rw [if_neg hmem] at hname
    have hknown : name ∉ t.channels :=
      fun h ↦ hmem ((hv name).mp ((congrArg View.known hname).mp h))
    exact iff_of_true (absurd · hknown) (absurd · hmem)

theorem step_synced {a : Action V} {es : List Int} (h : Synced values s)
    (hstep : step values s a = some (t, es)) :
    Ok values s a ↔ Synced values t := by
  have hview := synced_iff.mp h
  cases a with
  | addClient req channels fetcher =>
    obtain ⟨hfresh, heq⟩ := Option.ite_none_left_eq_some.mp hstep
    cases heq
    by_cases hroom : 0 < s.maxClients ∧ s.maxClients ≤ s.clients.length
    · refine iff_of_true (absurd hroom) ?_
      unfold SseManager.addClient
      rw [if_pos hroom]
      exact h
    · refine (imp_iff_right hroom).trans ?_
      rw [synced_congr (fun _ ↦ Iff.rfl) (fun name hv ↦ initialView_known hv fetcher _ name)
        (view_addClient fetcher hroom)]
      refine forall₂_congr fun name hname ↦ Iff.symm ?_
      refine View.synced_initial (hview name hname) (fun c hc heq ↦ ?_) fetcher
      exact hfresh ⟨c, hc, heq⟩
  | removeClient req =>
    cases hstep
    exact iff_of_true trivial fun client hclient ↦ h client (List.mem_of_mem_filter hclient)
  | poll fetcher =>
    cases hstep
    by_cases hne : s.clients = []
    · refine iff_of_true (fun name _ data _ _ ↦ .inr fun client hclient ↦ ?_) ?_
      · rw [hne] at hclient
        cases hclient
      · unfold SseManager.pollAndBroadcast
        rw [if_pos hne]
        exact h
    · rw [synced_congr (fun _ ↦ Iff.rfl) (fun name hv ↦ pollView_known hv fetcher name)
        (view_pollAndBroadcast fetcher hne)]
      exact forall₂_congr fun name hname ↦ (View.synced_poll (hview name hname) fetcher).symm

theorem pollView_cached {v : View V} {fetcher : Bytes → Option V} {name : Bytes} {data : V}
    (h : fetcher name = some data) : (pollView values fetcher name v).cached = data := by
  unfold pollView
  rw [h]
  dsimp only
  split
  · next heq => exact heq.symm
  · rfl

/-- What is cached is what all have just when the next polls, whatever they fetch, leave nobody
behind. -/
theorem synced_iff_upToDate :
    Synced values t ↔ ∀ fetcher, Fetched fetcher t → Ok values t (.poll fetcher) →
    UpToDate values fetcher (t.pollAndBroadcast values fetcher) := by
  constructor
  · intro h fetcher hfetched hok client hclient name hname hsub
    have hstep : step values t (.poll fetcher) = some (t.pollAndBroadcast values fetcher, []) := rfl
    have hsynced := (step_synced h hstep).mp hok client hclient name hname hsub
    have hne : t.clients ≠ [] := by
      intro hnil
      rw [SseManager.pollAndBroadcast, if_pos hnil, hnil] at hclient
      cases hclient
    have hview : view values _ name = _ := view_pollAndBroadcast fetcher hne name
    by_cases hmem : name ∈ t.channels
    · obtain ⟨data, hdata⟩ := Option.isSome_iff_exists.mp (hfetched name hmem)
      rw [if_pos hmem] at hview
      have hcached : SseManager.cached values (t.pollAndBroadcast values fetcher) name = data :=
        (congrArg View.cached hview).trans (pollView_cached hdata)
      rw [hdata, hsynced, hcached]
    · rw [if_neg hmem] at hview
      exact absurd ((congrArg View.known hview).mp hname) hmem
  · intro h client hclient name hname hsub
    let fetcher : Bytes → Option V := fun name ↦ some (t.cached values name)
    have hok : Ok values t (.poll fetcher) := by
      intro name _ data heq hne
      exact absurd (Option.some_inj.mp heq).symm hne
    have hne : t.clients ≠ [] := List.ne_nil_of_mem hclient
    have hview : view values (t.pollAndBroadcast values fetcher) name = view values t name := by
      rw [view_pollAndBroadcast fetcher hne name, if_pos hname]
      exact if_pos rfl
    have hclients : (t.pollAndBroadcast values fetcher).clients = t.clients :=
      congrArg View.clients hview
    have hclient' : client ∈ (t.pollAndBroadcast values fetcher).clients := by
      rw [hclients]
      exact hclient
    have hname' : name ∈ (t.pollAndBroadcast values fetcher).channels :=
      (congrArg View.known hview).mpr hname
    have hup := Option.some_inj.mp (h fetcher (fun _ _ ↦ rfl) hok client hclient' name hname' hsub)
    exact (hup.trans (congrFun (congrArg View.holds hview) client.req)).symm

omit [DecidableEq V] in
theorem init_clients (names : List Bytes) (maxClients : Nat) :
    (init values names maxClients).clients = [] := by
  unfold init
  generalize hs : ({ maxClients } : SseManager V) = s
  have hclients : s.clients = [] := by rw [← hs]
  clear hs
  induction names generalizing s with
  | nil => exact hclients
  | cons name names ih => exact ih _ hclients

/-- As long as no snapshot changes the cache under other clients, every poll leaves every client up
to date; a snapshot that does, or a value that cannot be written, leaves one behind in the next
poll. -/
theorem upToDate_iff {names : List Bytes} {maxClients : Nat} {as : List (Action V)}
    {es es' : List Int} {a : Action V}
    (hok : (machine values).Meets (Ok values) (init values names maxClients) as)
    (hrun : (machine values).exec (init values names maxClients) as = some (s, es))
    (hstep : step values s a = some (t, es')) :
    (∀ fetcher, Fetched fetcher s → Ok values s (.poll fetcher) →
        UpToDate values fetcher (s.pollAndBroadcast values fetcher)) ∧
      (Ok values s a ↔ ∀ fetcher, Fetched fetcher t → Ok values t (.poll fetcher) →
        UpToDate values fetcher (t.pollAndBroadcast values fetcher)) := by
  have hinit : Synced values (init values names maxClients) := by
    intro client hclient
    rw [init_clients] at hclient
    cases hclient
  have hsynced : Synced values s := (Machine.reach_of_exec hok hrun).invariant hinit
    fun t a u es ht ha hu ↦ (step_synced ht hu).mp ha
  exact ⟨synced_iff_upToDate.mp hsynced, (step_synced hsynced hstep).trans synced_iff_upToDate⟩

def hashes : JsonValues (List (Bytes × Bytes)) where
  object := []
  isNull _ := false
  empty data := data.isEmpty
  dumps data := data.all fun row ↦ Utf8.isUtf8 row.1 && Utf8.isUtf8 row.2
  empty_object := rfl

def nodes : Bytes := ascii "nodes"

def alone (state : String) : Bytes → Option (List (Bytes × Bytes)) :=
  fun _ ↦ some [(ascii "n1", ascii state)]

theorem upToDate_alone : ∃ s es t es',
    (machine hashes).exec (init hashes [nodes] 200) [.addClient 1 star fun _ ↦ some []] =
      some (s, es) ∧
      step hashes s (.poll (alone "up")) = some (t, es') ∧
      (∀ fetcher, Fetched fetcher s → Ok hashes s (.poll fetcher) →
        UpToDate hashes fetcher (s.pollAndBroadcast hashes fetcher)) ∧
      (Ok hashes s (.poll (alone "up")) ↔
        ∀ fetcher, Fetched fetcher t → Ok hashes t (.poll fetcher) →
        UpToDate hashes fetcher (t.pollAndBroadcast hashes fetcher)) := by
  have hok :
      (machine hashes).Meets (Ok hashes) (init hashes [nodes] 200)
        [.addClient 1 star fun _ ↦ some []] := by
    refine ⟨fun _ name _ _ ↦ ?_, ?_⟩
    · let s : SseManager (List (Bytes × Bytes)) := { maxClients := 200 }
      change SseManager.cached hashes { s with channels := s.channels.insert nodes [] } name = []
      rw [SseManager.cached_insert]
      split <;> rfl
    · split <;> trivial
  exact ⟨_, _, _, _, rfl, rfl, upToDate_iff hok rfl rfl⟩

/-- Every poll of every run leaves every client up to date. -/
def AlwaysUpToDate {V : Type} [DecidableEq V] (values : JsonValues V) : Prop :=
  ∀ names maxClients as s es fetcher, (machine values).exec (init values names maxClients) as =
    some (s, es) →
    Fetched fetcher s → UpToDate values fetcher (s.pollAndBroadcast values fetcher)

/-- The snapshot of a second client hides a change from the first. -/
theorem not_alwaysUpToDate_second : ¬ AlwaysUpToDate hashes := by
  intro h
  have hup :=
    h [nodes] 200 [.addClient 1 star (alone "up"), .addClient 2 star (alone "down")]
      _ _ (alone "down")
    rfl fun _ _ ↦ rfl
  have hfirst := hup ⟨1, [], true⟩ (by decide) nodes (by decide) rfl
  revert hfirst
  decide

end NavCaster.Http.Sse
