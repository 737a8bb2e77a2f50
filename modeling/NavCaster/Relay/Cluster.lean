import NavCaster.Library.Machine
import NavCaster.Relay.Node

namespace NavCaster.Relay.Cluster

open NavCaster.Library
open NavCaster.Core.Message
open NavCaster.Relay.Record
open NavCaster.Relay.Node

/-- `_master_expire_time` and `_key_expire_time`. The store refuses an expiry of no seconds. -/
structure Config where
  masterExpireTime : Nat
  keyExpireTime : Nat
  keyExpireTime_pos : 0 < keyExpireTime := by decide

/-- The part of the store that the relays use. A value with a deadline is gone when the deadline
has come. -/
structure Store where
  now : Nat := 0
  master : Option (String × Nat) := none
  records : RelayKind → Table String RecordText := fun _ ↦ ∅
  status : RelayKind → Table String (StatusText × Nat) := fun _ ↦ ∅

namespace Store

def masterId (st : Store) : Option String := st.master.map Prod.fst

def setRecords (st : Store) (k : RelayKind) (m : Table String RecordText) : Store :=
  { st with records := Function.update st.records k m }

def setStatus (st : Store) (k : RelayKind) (m : Table String (StatusText × Nat)) : Store :=
  { st with status := Function.update st.status k m }

theorem setStatus_status (st : Store) (k k' : RelayKind) (m : Table String (StatusText × Nat)) :
    (st.setStatus k m).status k' = if k' = k then m else st.status k' := by
  simp only [setStatus, Function.update_apply]

def statusEntries (st : Store) (k : RelayKind) : List (String × StatusText) :=
  (Table.toPairs (st.status k)).map fun e ↦ (e.1, e.2.1)

def advance (d : Nat) (st : Store) : Store where
  now := st.now + d
  master := st.master.filter fun e ↦ st.now + d < e.2
  records := st.records
  status k := Table.filterMap (fun _ e ↦ if st.now + d < e.2 then some e else none) (st.status k)

/-- `SET NX EX`, `SET IFEQ EX`, `HSETEX EX FIELDS`, `HDEL`, and the reads with their replies. -/
def execute (cfg : Config) : Command → Store → Store × Option Reply
  | .setMasterNx nodeId, st =>
    match st.master with
    | none => ({ st with master := some (nodeId, st.now + cfg.masterExpireTime) }, none)
    | some _ => (st, none)
  | .getMaster, st => (st, some (.setMaster st.masterId))
  | .setMasterIfEq nodeId, st =>
    if st.masterId = some nodeId then
      ({ st with master := some (nodeId, st.now + cfg.masterExpireTime) }, some (.keepMaster true))
    else (st, some (.keepMaster false))
  | .hgetallRecord k, st => (st, some (.syncList k (Table.toPairs (st.records k))))
  | .hgetallStat k, st => (st, some (.syncStat k (st.statusEntries k)))
  | .hgetallNode, st => (st, some .syncClusterNode)
  | .publishNode _ _, st => (st, none)
  | .hsetexStat k uid s, st =>
    (st.setStatus k ((st.status k).insert uid (.state s, st.now + cfg.keyExpireTime)), none)
  | .hdelStat k uid, st => (st.setStatus k ((st.status k).erase uid), none)

theorem mem_statusEntries {st : Store} {k : RelayKind} {u : String} {v : StatusText} :
    (u, v) ∈ st.statusEntries k ↔ ∃ dl, (st.status k).lookup u = some (v, dl) := by
  simp only [statusEntries, List.mem_map, Prod.exists, Prod.mk.injEq, Table.mem_toPairs]
  constructor
  · rintro ⟨_, _, dl, h, rfl, rfl⟩
    exact ⟨dl, h⟩
  · rintro ⟨dl, h⟩
    exact ⟨u, v, dl, h, rfl, rfl⟩

theorem lookup_advance {st : Store} {d : Nat} {k : RelayKind} {u : String} {e : StatusText × Nat} :
    ((st.advance d).status k).lookup u = some e ↔
      (st.status k).lookup u = some e ∧ st.now + d < e.2 := by
  rw [advance, Table.lookup_filterMap, Option.bind_eq_some_iff]
  constructor
  · rintro ⟨e', he, h⟩
    split at h
    · next hd => cases h; exact ⟨he, hd⟩
    · cases h
  · exact fun ⟨he, hd⟩ ↦ ⟨e, he, if_pos hd⟩

theorem lookup_execute {cfg : Config} {c : Command} {st : Store} {k : RelayKind} {u : String}
    {e : StatusText × Nat} (h : (((st.execute cfg c).1).status k).lookup u = some e) :
    (st.status k).lookup u = some e ∨
      ∃ s, c = .hsetexStat k u s ∧ e = (.state s, st.now + cfg.keyExpireTime) := by
  cases c with
  | setMasterNx m => simp only [execute] at h; split at h <;> exact .inl h
  | setMasterIfEq m => simp only [execute] at h; split at h <;> exact .inl h
  | hsetexStat k' u' s =>
    rw [execute, setStatus_status] at h
    split at h
    · next hk =>
      subst hk
      rw [Table.lookup_insert_if] at h
      split at h
      · next hu => subst hu; exact .inr ⟨s, rfl, (Option.some.inj h).symm⟩
      · exact .inl h
    · exact .inl h
  | hdelStat k' u' =>
    rw [execute, setStatus_status] at h
    split at h
    · next hk =>
      subst hk
      rw [Table.lookup_erase_if] at h
      split at h
      · cases h
      · exact .inl h
    · exact .inl h
  | _ => exact .inl h

theorem execute_now (cfg : Config) (c : Command) (st : Store) :
    (st.execute cfg c).1.now = st.now := by
  cases c with
  | setMasterNx m => simp only [execute]; split <;> rfl
  | setMasterIfEq m => simp only [execute]; split <;> rfl
  | _ => rfl

end Store

inductive HttpRequest
  | create (body : RecordText)
  | update (id : String) (body : RecordText)
  | delete (id : String)
  | start (id : String)
  | stop (id : String)

/-- The second command of a handler, sent after the reply to the first. -/
inductive HttpCommand
  | hdelStat (k : RelayKind) (id : String)
  | hsetRecord (k : RelayKind) (id : String) (text : RecordText)

/-- `body.value("uid", "")` and the default for `enabled`; `none` where the body is refused. -/
def createBody : RecordText → Option (String × RecordText)
  | .object (.value uid) e t extra =>
    if uid = "" then none
    else some (uid, .object (.value uid) (if e = .absent then .value true else e) t extra)
  | _ => none

/-- `record["enabled"] = b` on the stored text, parsed once more if it is a JSON string. -/
def withEnabled (b : Bool) : RecordText → Option RecordText
  | .object u _ t extra => some (.object u (.value b) t extra)
  | .quoted (.object u _ t extra) => some (.object u (.value b) t extra)
  | .quoted .null => some (.object .absent (.value b) (some {}) "")
  | _ => none

def validJson : RecordText → Bool
  | .invalid _ => false
  | _ => true

def handleCreate (k : RelayKind) (body : RecordText) (st : Store) : Store × List HttpCommand :=
  match createBody body with
  | none => (st, [])
  | some (uid, text) => (st.setRecords k (Table.insertNew (st.records k) uid text), [])

def handleUpdate (k : RelayKind) (id : String) (body : RecordText) (st : Store) :
    Store × List HttpCommand :=
  if id = "" ∨ validJson body = false then (st, [])
  else (st.setRecords k ((st.records k).insert id body), [.hdelStat k id])

def handleDelete (k : RelayKind) (id : String) (st : Store) : Store × List HttpCommand :=
  if id = "" ∨ id ∉ st.records k then (st, [])
  else (st.setRecords k ((st.records k).erase id), [.hdelStat k id])

def handleSetEnabled (k : RelayKind) (b : Bool) (id : String) (st : Store) :
    Store × List HttpCommand :=
  if id = "" then (st, [])
  else match ((st.records k).lookup id).bind (withEnabled b) with
    | none => (st, [])
    | some text => (st, [.hsetRecord k id text])

def handleRelayStart (k : RelayKind) : String → Store → Store × List HttpCommand :=
  handleSetEnabled k true

def handleRelayStop (k : RelayKind) : String → Store → Store × List HttpCommand :=
  handleSetEnabled k false

def handleHttp (k : RelayKind) : HttpRequest → Store → Store × List HttpCommand
  | .create body => handleCreate k body
  | .update id body => handleUpdate k id body
  | .delete id => handleDelete k id
  | .start id => handleRelayStart k id
  | .stop id => handleRelayStop k id

theorem setRecords_self (st : Store) (k : RelayKind) : st.setRecords k (st.records k) = st := by
  simp only [Store.setRecords, Function.update_eq_self]

theorem handleHttp_store (k : RelayKind) (req : HttpRequest) (st : Store) :
    ∃ m, (handleHttp k req st).1 = st.setRecords k m := by
  have hself : ∃ m, st = st.setRecords k m := ⟨st.records k, (setRecords_self st k).symm⟩
  have hset (b : Bool) (id : String) : ∃ m, (handleSetEnabled k b id st).1 = st.setRecords k m := by
    unfold handleSetEnabled
    split
    · exact hself
    · split <;> exact hself
  cases req with
  | create body =>
    simp only [handleHttp, handleCreate]
    split
    · exact hself
    · exact ⟨_, rfl⟩
  | update id body =>
    simp only [handleHttp, handleUpdate]
    split
    · exact hself
    · exact ⟨_, rfl⟩
  | delete id =>
    simp only [handleHttp, handleDelete]
    split
    · exact hself
    · exact ⟨_, rfl⟩
  | start id => exact hset true id
  | stop id => exact hset false id

def HttpCommand.execute : HttpCommand → Store → Store
  | hdelStat k id, st => st.setStatus k ((st.status k).erase id)
  | hsetRecord k id text, st => st.setRecords k ((st.records k).insert id text)

theorem HttpCommand.lookup_execute {c : HttpCommand} {st : Store} {k : RelayKind} {u : String}
    {e : StatusText × Nat} (h : ((c.execute st).status k).lookup u = some e) :
    (st.status k).lookup u = some e := by
  cases c with
  | hdelStat k' id =>
    rw [HttpCommand.execute, Store.setStatus_status] at h
    split at h
    · next hk =>
      subst hk
      rw [Table.lookup_erase_if] at h
      split at h
      · cases h
      · exact h
    · exact h
  | hsetRecord k' id text => exact h

structure System where
  store : Store := {}
  nodes : String → RelayNode := fun _ ↦ {}
  http : List HttpCommand := []

inductive Action
  | start (n : String)
  | stop (n : String)
  | tick (n : String)
  | exec (n : String)
  | reply (n : String)
  | deliver (n : String) (i : Nat)
  | report (n : String) (k : RelayKind) (taskKey connectKey : String) (state : Int)
  | http (k : RelayKind) (req : HttpRequest)
  | httpExec (i : Nat)
  | advance (d : Nat)

structure Refresh where
  node : String
  kind : RelayKind
  uid : String
  deriving DecidableEq

def refreshOf (n : String) : Command → Option Refresh
  | .hsetexStat k uid _ => some ⟨n, k, uid⟩
  | _ => none

/-- A published message reaches the subscriber of the channel, which is the node of that id. -/
def messagesTo (n : String) : Command → List RelayMsg
  | .publishNode nodeId msg => if nodeId = n then [msg] else []
  | _ => []

theorem mem_messagesTo {n : String} {c : Command} {msg : RelayMsg} :
    msg ∈ messagesTo n c ↔ c = .publishNode n msg := by
  cases c with
  | publishNode nodeId msg' =>
    by_cases he : nodeId = n
    · simp [messagesTo, he, eq_comm]
    · simp [messagesTo, he]
  | _ => simp [messagesTo]

namespace System

def setNode (s : System) (n : String) (x : RelayNode) : System :=
  { s with nodes := Function.update s.nodes n x }

@[simp] theorem setNode_store (s : System) (n : String) (x : RelayNode) :
    (s.setNode n x).store = s.store := rfl

@[simp] theorem setNode_http (s : System) (n : String) (x : RelayNode) :
    (s.setNode n x).http = s.http := rfl

@[simp] theorem setNode_same (s : System) (n : String) (x : RelayNode) :
    (s.setNode n x).nodes n = x := Function.update_self ..

theorem setNode_nodes (s : System) (n m : String) (x : RelayNode) :
    (s.setNode n x).nodes m = if m = n then x else s.nodes m := by
  simp only [setNode, Function.update_apply]

def move (s : System) (n : String) (x : RelayNode) : System × List Refresh :=
  (s.setNode n x, (x.pubQueue.drop (s.nodes n).pubQueue.length).filterMap (refreshOf n))

/-- The store executes the command `c` of the node `n`, which has `cs` left to send. -/
def perform (cfg : Config) (s : System) (n : String) (c : Command) (cs : List Command) :
    System where
  store := (s.store.execute cfg c).1
  nodes m := { s.nodes m with
    pubQueue := if m = n then cs else (s.nodes m).pubQueue
    replies :=
      if m = n then (s.nodes m).replies ++ (s.store.execute cfg c).2.toList else (s.nodes m).replies
    inbox :=
      if (s.nodes m).live then (s.nodes m).inbox ++ messagesTo m c else (s.nodes m).inbox }
  http := s.http

def Offline (s : System) : Prop := ∀ n, s.nodes n = {}

end System

/-- `none` where the action is not possible. A process that stops loses its connections and
whatever it had not sent or received yet; started again, it has the same id and empty tables. -/
def step (cfg : Config) (s : System) : Action → Option (System × List Refresh)
  | .start n => if (s.nodes n).live then none else some (s.setNode n { live := true }, [])
  | .stop n => if (s.nodes n).live then some (s.setNode n {}, []) else none
  | .tick n => if (s.nodes n).live then some (s.move n (timeoutCallback n (s.nodes n))) else none
  | .exec n =>
    match (s.nodes n).pubQueue with
    | [] => none
    | c :: cs => some (s.perform cfg n c cs, [])
  | .reply n =>
    match (s.nodes n).replies with
    | [] => none
    | r :: rs => some (s.move n (callback n r { s.nodes n with replies := rs }))
  | .deliver n i =>
    match (s.nodes n).inbox[i]? with
    | none => none
    | some msg =>
      let x := { s.nodes n with inbox := (s.nodes n).inbox.eraseIdx i }
      some (s.move n (relayTaskResponse n msg x).2)
  | .report n k taskKey connectKey state =>
    if taskKey ∈ ((s.nodes n).tables k).objMap then
      some (s.move n (updateRelayInfo k taskKey connectKey state (s.nodes n)))
    else none
  | .http k req =>
    let (st, cs) := handleHttp k req s.store
    some ({ s with store := st, http := s.http ++ cs }, [])
  | .httpExec i =>
    match s.http[i]? with
    | none => none
    | some c => some ({ s with store := c.execute s.store, http := s.http.eraseIdx i }, [])
  | .advance d => some ({ s with store := s.store.advance d }, [])

def relayMachine (cfg : Config) : Machine System Action Refresh := ⟨step cfg⟩

inductive StepCase (cfg : Config) (s : System) : Action → System → List Refresh → Prop
  | start (n : String) : (s.nodes n).live = false →
      StepCase cfg s (.start n) (s.setNode n { live := true }) []
  | stop (n : String) : (s.nodes n).live = true → StepCase cfg s (.stop n) (s.setNode n {}) []
  | tick (n : String) : (s.nodes n).live = true →
      StepCase cfg s (.tick n) (s.move n (timeoutCallback n (s.nodes n))).1
        (s.move n (timeoutCallback n (s.nodes n))).2
  | exec (n : String) (c : Command) (cs : List Command) : (s.nodes n).pubQueue = c :: cs →
      StepCase cfg s (.exec n) (s.perform cfg n c cs) []
  | reply (n : String) (r : Reply) (rs : List Reply) : (s.nodes n).replies = r :: rs →
      StepCase cfg s (.reply n) (s.move n (callback n r { s.nodes n with replies := rs })).1
        (s.move n (callback n r { s.nodes n with replies := rs })).2
  | deliver (n : String) (i : Nat) (msg : RelayMsg) : (s.nodes n).inbox[i]? = some msg →
      StepCase cfg s (.deliver n i)
        (s.move n (relayTaskResponse n msg
          { s.nodes n with inbox := (s.nodes n).inbox.eraseIdx i }).2).1
        (s.move n (relayTaskResponse n msg
          { s.nodes n with inbox := (s.nodes n).inbox.eraseIdx i }).2).2
  | report (n : String) (k : RelayKind) (taskKey connectKey : String) (state : Int) :
      taskKey ∈ ((s.nodes n).tables k).objMap →
      StepCase cfg s (.report n k taskKey connectKey state)
        (s.move n (updateRelayInfo k taskKey connectKey state (s.nodes n))).1
        (s.move n (updateRelayInfo k taskKey connectKey state (s.nodes n))).2
  | http (k : RelayKind) (req : HttpRequest) :
      StepCase cfg s (.http k req) { s with
        store := (handleHttp k req s.store).1, http := s.http ++ (handleHttp k req s.store).2 } []
  | httpExec (i : Nat) (c : HttpCommand) : s.http[i]? = some c →
      StepCase cfg s (.httpExec i) { s with
        store := c.execute s.store, http := s.http.eraseIdx i } []
  | advance (d : Nat) :
      StepCase cfg s (.advance d) { s with store := s.store.advance d } []

theorem step_cases {cfg : Config} {s t : System} {a : Action} {es : List Refresh}
    (h : (relayMachine cfg).step s a = some (t, es)) : StepCase cfg s a t es := by
  change step cfg s a = some (t, es) at h
  cases a with
  | start n =>
    simp only [step] at h
    split at h
    · cases h
    · next hl => cases h; exact .start n (Bool.eq_false_iff.mpr hl)
  | stop n =>
    simp only [step] at h
    split at h
    · next hl => cases h; exact .stop n hl
    · cases h
  | tick n =>
    simp only [step] at h
    split at h
    · next hl => cases h; exact .tick n hl
    · cases h
  | exec n =>
    simp only [step] at h
    split at h
    · cases h
    · next c cs hq => cases h; exact .exec n c cs hq
  | reply n =>
    simp only [step] at h
    split at h
    · cases h
    · next r rs hr => cases h; exact .reply n r rs hr
  | deliver n i =>
    simp only [step] at h
    split at h
    · cases h
    · next msg hm => cases h; exact .deliver n i msg hm
  | report n k taskKey connectKey state =>
    simp only [step] at h
    split at h
    · next hk => cases h; exact .report n k taskKey connectKey state hk
    · cases h
  | http k req => cases h; exact .http k req
  | httpExec i =>
    simp only [step] at h
    split at h
    · cases h
    · next c hc => cases h; exact .httpExec i c hc
  | advance d => cases h; exact .advance d

def Quiet (s : System) : Prop := ∀ n, (s.nodes n).live = false → s.nodes n = {}

theorem System.Offline.quiet {s : System} (h : s.Offline) : Quiet s := fun n _ ↦ h n

theorem Quiet.live {s : System} (h : Quiet s) {n : String} (hn : s.nodes n ≠ {}) :
    (s.nodes n).live = true := by
  by_contra hl
  exact hn (h n (Bool.eq_false_iff.mpr hl))

theorem Quiet.live_of_queue {s : System} (h : Quiet s) {n : String} {c : Command}
    {cs : List Command} (hq : (s.nodes n).pubQueue = c :: cs) : (s.nodes n).live = true :=
  h.live fun he ↦ by rw [he] at hq; cases hq

theorem Quiet.live_of_replies {s : System} (h : Quiet s) {n : String} {r : Reply}
    {rs : List Reply} (hr : (s.nodes n).replies = r :: rs) : (s.nodes n).live = true :=
  h.live fun he ↦ by rw [he] at hr; cases hr

theorem Quiet.live_of_inbox {s : System} (h : Quiet s) {n : String} {i : Nat} {msg : RelayMsg}
    (hm : (s.nodes n).inbox[i]? = some msg) : (s.nodes n).live = true :=
  h.live fun he ↦ by rw [he] at hm; simp at hm

theorem Quiet.live_of_object {s : System} (h : Quiet s) {n : String} {k : RelayKind} {u : String}
    (hu : u ∈ ((s.nodes n).tables k).objMap) : (s.nodes n).live = true :=
  h.live fun he ↦ by rw [he] at hu; exact absurd hu (AList.notMem_empty u)

theorem Quiet.setNode {s : System} (h : Quiet s) {n : String} {x : RelayNode} (hx : x.live = true) :
    Quiet (s.setNode n x) := by
  intro m hm
  rw [System.setNode_nodes] at hm ⊢
  split at hm
  · rw [hx] at hm; cases hm
  · next hmn => rw [if_neg hmn]; exact h m hm

theorem quiet_step {cfg : Config} {s t : System} {a : Action} {es : List Refresh} (h : Quiet s)
    (hs : (relayMachine cfg).step s a = some (t, es)) : Quiet t := by
  cases step_cases hs with
  | start n _ => exact h.setNode rfl
  | stop n _ =>
    intro m hm
    rw [System.setNode_nodes] at hm ⊢
    split
    · rfl
    · next hmn => rw [if_neg hmn] at hm; exact h m hm
  | tick n hl => exact h.setNode hl
  | exec n c cs hq =>
    intro m hm
    have hl := h.live_of_queue hq
    have hmn : m ≠ n := fun he ↦ by subst he; exact absurd (hm.symm.trans hl) nofun
    have hm' := h m hm
    simp only [System.perform, if_neg hmn, hm']
    rfl
  | reply n r rs hr => exact h.setNode ((callback_frame n r _).1.trans (h.live_of_replies hr))
  | deliver n i msg hm =>
    exact h.setNode ((response_cases n msg _).frame.1.trans (h.live_of_inbox hm))
  | report n k u c i hu =>
    exact h.setNode ((updateRelayInfo_frame k u c i _).1.trans (h.live_of_object hu))
  | http k req => exact h
  | httpExec i c _ => exact h
  | advance d => exact h

inductive NodeCase (cfg : Config) (s : System) (m : String) : Action → RelayNode → Prop
  | same (a : Action) : NodeCase cfg s m a (s.nodes m)
  | reset (a : Action) (b : Bool) : NodeCase cfg s m a { live := b }
  | tick : NodeCase cfg s m (.tick m) (timeoutCallback m (s.nodes m))
  | exec (n : String) (c : Command) (cs : List Command) : (s.nodes n).pubQueue = c :: cs →
      NodeCase cfg s m (.exec n) ((s.perform cfg n c cs).nodes m)
  | reply (r : Reply) (rs : List Reply) : (s.nodes m).replies = r :: rs →
      NodeCase cfg s m (.reply m) (callback m r { s.nodes m with replies := rs })
  | deliver (i : Nat) (msg : RelayMsg) (x : RelayNode) : (s.nodes m).inbox[i]? = some msg →
      ResponseCase m msg { s.nodes m with inbox := (s.nodes m).inbox.eraseIdx i } x →
      NodeCase cfg s m (.deliver m i) x
  | report (k : RelayKind) (u c : String) (i : Int) : u ∈ ((s.nodes m).tables k).objMap →
      NodeCase cfg s m (.report m k u c i) (updateRelayInfo k u c i (s.nodes m))

theorem node_step {cfg : Config} {s t : System} {a : Action} {es : List Refresh}
    (hs : (relayMachine cfg).step s a = some (t, es)) (m : String) :
    NodeCase cfg s m a (t.nodes m) := by
  have hnode (n : String) (x : RelayNode) (hx : m = n → NodeCase cfg s m a x) :
      NodeCase cfg s m a ((s.setNode n x).nodes m) := by
    rw [System.setNode_nodes]
    split
    · next he => exact hx he
    · exact .same a
  cases step_cases hs with
  | start n _ => exact hnode n _ fun _ ↦ .reset _ true
  | stop n _ => exact hnode n _ fun _ ↦ .reset _ false
  | tick n _ => exact hnode n _ fun he ↦ by subst he; exact .tick
  | exec n c cs hq => exact .exec n c cs hq
  | reply n r rs hr => exact hnode n _ fun he ↦ by subst he; exact .reply r rs hr
  | deliver n i msg hm =>
    exact hnode n _ fun he ↦ by subst he; exact .deliver i msg _ hm (response_cases m msg _)
  | report n k u c i hu => exact hnode n _ fun he ↦ by subst he; exact .report k u c i hu
  | http k req => exact .same _
  | httpExec i c _ => exact .same _
  | advance d => exact .same _

def Only (n : String) (s : System) : Prop := ∀ m, m ≠ n → s.nodes m = {}

def StartsOnly (n : String) : Action → Prop
  | .start m => m = n
  | _ => True

instance (n : String) : DecidablePred (StartsOnly n)
  | .start m => inferInstanceAs (Decidable (m = n))
  | .stop _ | .tick _ | .exec _ | .reply _ | .deliver _ _ | .report _ _ _ _ _ | .http _ _
  | .httpExec _ | .advance _ => isTrue trivial

theorem Only.setNode {n : String} {s : System} (h : Only n s) {m : String} {x : RelayNode}
    (hm : m = n) : Only n (s.setNode m x) := by
  intro m' hm'
  rw [System.setNode_nodes, if_neg (fun he ↦ hm' (he.trans hm)), h m' hm']

theorem only_step {cfg : Config} {n : String} {s t : System} {a : Action} {es : List Refresh}
    (h : Only n s) (ha : StartsOnly n a) (hs : (relayMachine cfg).step s a = some (t, es)) :
    Only n t := by
  have hn {m : String} (hm : s.nodes m ≠ {}) : m = n := by
    by_contra hne
    exact hm (h m hne)
  cases step_cases hs with
  | start m _ => exact h.setNode ha
  | stop m hl => exact h.setNode (hn fun he ↦ by rw [he] at hl; cases hl)
  | tick m hl => exact h.setNode (hn fun he ↦ by rw [he] at hl; cases hl)
  | exec m c cs hq =>
    intro m' hm'
    have hm : m = n := hn fun he ↦ by rw [he] at hq; cases hq
    have hne : m' ≠ m := fun he ↦ hm' (he.trans hm)
    simp only [System.perform, if_neg hne, h m' hm']
    rfl
  | reply m r rs hr => exact h.setNode (hn fun he ↦ by rw [he] at hr; cases hr)
  | deliver m i msg hm => exact h.setNode (hn fun he ↦ by rw [he] at hm; simp at hm)
  | report m k u c i hu =>
    exact h.setNode (hn fun he ↦ by rw [he] at hu; exact absurd hu (AList.notMem_empty u))
  | http k req => exact h
  | httpExec i c _ => exact h
  | advance d => exact h

def defaultConfig : Config := { masterExpireTime := 15, keyExpireTime := 30 }

def execs (n : String) (j : Nat) : List Action := List.replicate j (.exec n)

def replies (n : String) (j : Nat) : List Action := List.replicate j (.reply n)

/-- A tick of `n`, which has `j` status fields to renew, up to the distribution that follows when
the renewal of the key succeeds. -/
def period (n : String) (j : Nat) : List Action :=
  [.tick n] ++ execs n (j + 4) ++ replies n 3 ++ execs n 1 ++ replies n 1 ++ execs n 5 ++
    replies n 5

end NavCaster.Relay.Cluster
