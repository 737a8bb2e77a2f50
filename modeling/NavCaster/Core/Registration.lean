import NavCaster.Core.Connections
import NavCaster.Library.Machine

namespace NavCaster.Core.Registration

open NavCaster.Library
open NavCaster.Core.Message
open NavCaster.Core.Access
open NavCaster.Core.Connections

variable {A : Type}

structure Config where
  opts : String → Options := fun _ ↦ {}
  keyExpireTime : Nat := 30

/-- The hashes that a registration fills: the records by row and connect key, and the statuses by
connect key, with their deadlines. -/
structure Store where
  now : Nat := 0
  records : Role → String → Table String Nat := fun _ _ ↦ ∅
  state : Role → Table String (ConnStatus × Nat) := fun _ ↦ ∅
  streams : Table String Nat := ∅

structure RecordReply (A : Type) where
  role : Role
  ctx : CbItem A
  records : List String

/-- One process: the registrations of its connections, and its connections to the store. -/
structure Node (A : Type) where
  live : Bool := false
  policy : AccessPolicy := {}
  registry : Registry A := {}
  pubQueue : List (Command A) := []
  replies : List (RecordReply A) := []
  inbox : List (BroadcastMsg String) := []

namespace Store

def setRecords (st : Store) (r : Role) (row : String) (m : Table String Nat) : Store :=
  { st with records := Function.update st.records r (Function.update (st.records r) row m) }

def setState (st : Store) (r : Role) (m : Table String (ConnStatus × Nat)) : Store :=
  { st with state := Function.update st.state r m }

/-- `HSETEX EX FIELDS`, `HEXPIRE FIELDS`, which renews what is there, `HDEL` and `HGETALL`. -/
def execute (cfg : Config) : Command A → Store → Store × Option (RecordReply A)
  | .hsetexState r key s, st =>
    (st.setState r ((st.state r).insert key (s, st.now + cfg.keyExpireTime)), none)
  | .hsetexStream key, st =>
    ({ st with streams := st.streams.insert key (st.now + cfg.keyExpireTime) }, none)
  | .hsetexRecord r row key, st =>
    (st.setRecords r row ((st.records r row).insert key (st.now + cfg.keyExpireTime)), none)
  | .hgetallRecord r ctx, st => (st, some ⟨r, ctx, (st.records r (r.row ctx)).keys⟩)
  | .hexpireRecord r row key, st =>
    if key ∈ st.records r row then
      (st.setRecords r row ((st.records r row).insert key (st.now + cfg.keyExpireTime)), none)
    else (st, none)
  | .hdelRecord r row key, st => (st.setRecords r row ((st.records r row).erase key), none)
  | .hdelState r key, st => (st.setState r ((st.state r).erase key), none)
  | .publish _, st => (st, none)

def advance (d : Nat) (st : Store) : Store where
  now := st.now + d
  records r row :=
    Table.filterMap (fun _ t ↦ if st.now + d < t then some t else none) (st.records r row)
  state r :=
    Table.filterMap (fun _ e ↦ if st.now + d < e.2 then some e else none) (st.state r)
  streams := Table.filterMap (fun _ t ↦ if st.now + d < t then some t else none) st.streams

end Store

def kickBroadcast (r : Role) (uid reason : String) : BroadcastMsg String where
  type := r.operateType
  operate := .delete
  target := uid
  msgStr := ""
  reasonStr := reason

/-- `known` says whether the status hash of the role has the uid. -/
def handleKick (r : Role) (uid : String) (known : Bool) : Option (BroadcastMsg String) :=
  if uid = "" then none
  else if known then some (kickBroadcast r uid "Force offline by administrator") else none

def handleKickServer : String → Bool → Option (BroadcastMsg String) := handleKick .base
def handleKickClient : String → Bool → Option (BroadcastMsg String) := handleKick .rover

def messages : Command A → List (BroadcastMsg String)
  | .publish msg => [msg]
  | _ => []

structure System (A : Type) where
  store : Store := {}
  nodes : String → Node A := fun _ ↦ {}

/-- A connection registers and withdraws when its session decides to; `announce` stands for a first
or last subscription to the channel on the node. -/
inductive Action (A : Type)
  | start (n : String)
  | stop (n : String)
  | policy (n : String) (p : AccessPolicy)
  | register (n : String) (r : Role) (type : RegisterType) (item : CbItem A)
  | withdraw (n : String) (r : Role) (row key : String)
  | announce (n : String) (r : Role) (channel : String) (active : Bool)
  | tick (n : String)
  | exec (n : String)
  | reply (n : String)
  | deliver (n : String) (i : Nat)
  | kick (r : Role) (uid : String)
  | advance (d : Nat)

structure Called (A : Type) where
  node : String
  call : Call A

def announceReason : Bool → String
  | true => "First subscribe in one Caster Node"
  | false => "one Caster Node unsubscribe this channel "

def announcement (r : Role) (channel : String) (active : Bool) : Command A :=
  sendStatusChannel r channel "" (if active then .active else .inactive) (announceReason active)

namespace System

variable (s : System A)

def setNode (n : String) (x : Node A) : System A :=
  { s with nodes := Function.update s.nodes n x }

def broadcast (msgs : List (BroadcastMsg String)) : System A :=
  { s with nodes := fun m ↦
      if (s.nodes m).live then { s.nodes m with inbox := (s.nodes m).inbox ++ msgs }
      else s.nodes m }

def apply (n : String) (o : Outcome A) : System A × List (Called A) :=
  (s.setNode n { s.nodes n with
      registry := o.registry, pubQueue := (s.nodes n).pubQueue ++ o.commands },
    o.calls.map (Called.mk n))

/-- The store executes the command `c` of the node `n`, which has `cs` left to send. -/
def perform (cfg : Config) (n : String) (c : Command A) (cs : List (Command A)) : System A :=
  let (st, r) := s.store.execute cfg c
  let x := { s.nodes n with pubQueue := cs, replies := (s.nodes n).replies ++ r.toList }
  ({ s with store := st }.setNode n x).broadcast (messages c)

def Offline : Prop := ∀ n, s.nodes n = {}

end System

def step (cfg : Config) (s : System A) : Action A → Option (System A × List (Called A))
  | .start n => if (s.nodes n).live then none else some (s.setNode n { live := true }, [])
  | .stop n => if (s.nodes n).live then some (s.setNode n {}, []) else none
  | .policy n p =>
    if (s.nodes n).live then some (s.setNode n { s.nodes n with policy := p }, []) else none
  | .register n r type item =>
    if (s.nodes n).live then
      some (s.apply n (registerChannel r (s.nodes n).policy type item (s.nodes n).registry))
    else none
  | .withdraw n r row key =>
    if (s.nodes n).live then
      some (s.apply n (withdrawChannel (cfg.opts n) r row key (s.nodes n).registry))
    else none
  | .announce n r channel active =>
    if (s.nodes n).live then
      some (s.setNode n { s.nodes n with
        pubQueue := (s.nodes n).pubQueue ++ [announcement r channel active] }, [])
    else none
  | .tick n =>
    if (s.nodes n).live then
      let reg := clearOverdueItem (s.nodes n).registry
      some (s.setNode n { s.nodes n with
        registry := reg, pubQueue := (s.nodes n).pubQueue ++ uploadRecordItem reg }, [])
    else none
  | .exec n =>
    match (s.nodes n).pubQueue with
    | [] => none
    | c :: cs => some (s.perform cfg n c cs, [])
  | .reply n =>
    match (s.nodes n).replies with
    | [] => none
    | r :: rs =>
      let (cs, calls) := redisRegisterCallback (cfg.opts n) r.role r.ctx r.records
      some (s.setNode n { s.nodes n with
        replies := rs, pubQueue := (s.nodes n).pubQueue ++ cs }, calls.map (Called.mk n))
  | .deliver n i =>
    match (s.nodes n).inbox[i]? with
    | none => none
    | some msg =>
      some (s.setNode n { s.nodes n with inbox := (s.nodes n).inbox.eraseIdx i },
        (broadcastResponse msg (s.nodes n).registry).2.map (Called.mk n))
  | .kick r uid =>
    match handleKick r uid (decide (uid ∈ s.store.state r)) with
    | none => none
    | some msg => some (s.broadcast [msg], [])
  | .advance d => some ({ s with store := s.store.advance d }, [])

def registrationMachine (cfg : Config) : Machine (System A) (Action A) (Called A) := ⟨step cfg⟩

inductive RegistryCase (s : System A) (m : String) : Action A → Registry A → Prop
  | same (a : Action A) (reg : Registry A) : (s.nodes m).registry.Same reg → RegistryCase s m a reg
  | reset (a : Action A) : RegistryCase s m a {}
  | entered (r : Role) (type : RegisterType) (item : CbItem A) (reg : Registry A) :
      Registry.Entered r { item with groupUid := normalizeAccessGroupUid item.groupUid }
        (s.nodes m).registry reg →
      RegistryCase s m (.register m r type item) reg
  | withdrawn (r : Role) (row key : String) (reg : Registry A) :
      Registry.Withdrawn r row key (s.nodes m).registry reg →
      RegistryCase s m (.withdraw m r row key) reg

namespace System

theorem setNode_nodes (s : System A) (n m : String) (x : Node A) :
    (s.setNode n x).nodes m = if m = n then x else s.nodes m := by
  simp only [setNode, Function.update_apply]

theorem broadcast_registry (s : System A) (msgs : List (BroadcastMsg String)) (m : String) :
    ((s.broadcast msgs).nodes m).registry = (s.nodes m).registry := by
  unfold broadcast
  dsimp only
  split <;> rfl

theorem perform_registry (cfg : Config) (s : System A) (n m : String) (c : Command A)
    (cs : List (Command A)) : ((s.perform cfg n c cs).nodes m).registry = (s.nodes m).registry := by
  rw [perform, broadcast_registry, setNode_nodes]
  split
  · next h => subst h; rfl
  · rfl

end System

theorem registry_step {cfg : Config} {s t : System A} {a : Action A} {es : List (Called A)}
    (hs : (registrationMachine cfg).step s a = some (t, es)) (m : String) :
    RegistryCase s m a (t.nodes m).registry := by
  have hnode (n : String) (x : Node A) (hx : m = n → RegistryCase s m a x.registry) :
      RegistryCase s m a ((s.setNode n x).nodes m).registry := by
    rw [System.setNode_nodes]
    split
    · next he => exact hx he
    · exact .same a _ (.refl _)
  have hsame (reg : Registry A) (h : reg = (s.nodes m).registry) : RegistryCase s m a reg :=
    .same a reg (h ▸ .refl _)
  change step cfg s a = some (t, es) at hs
  cases a with
  | start n =>
    simp only [step] at hs
    split at hs
    · cases hs
    · cases hs; exact hnode n _ fun _ ↦ .reset _
  | stop n =>
    simp only [step] at hs
    split at hs
    · cases hs; exact hnode n _ fun _ ↦ .reset _
    · cases hs
  | policy n p =>
    simp only [step] at hs
    split at hs
    · cases hs; exact hnode n _ fun he ↦ hsame _ (he ▸ rfl)
    · cases hs
  | register n r type item =>
    simp only [step] at hs
    split at hs
    · cases hs
      refine hnode n _ fun he ↦ ?_
      subst he
      rcases registerChannel_cases r (s.nodes m).policy type item (s.nodes m).registry with h | h
      · exact .same _ _ h
      · exact .entered r type item _ h
    · cases hs
  | withdraw n r row key =>
    simp only [step] at hs
    split at hs
    · cases hs
      refine hnode n _ fun he ↦ ?_
      subst he
      rcases withdrawChannel_cases (cfg.opts m) r row key (s.nodes m).registry with h | h
      · exact .same _ _ h
      · exact .withdrawn r row key _ h
    · cases hs
  | announce n r channel active =>
    simp only [step] at hs
    split at hs
    · cases hs; exact hnode n _ fun he ↦ hsame _ (he ▸ rfl)
    · cases hs
  | tick n =>
    simp only [step] at hs
    split at hs
    · cases hs
      exact hnode n _ fun he ↦ by subst he; exact .same _ _ (same_clearOverdueItem _)
    · cases hs
  | exec n =>
    simp only [step] at hs
    split at hs
    · cases hs
    · cases hs; exact hsame _ (System.perform_registry ..)
  | reply n =>
    simp only [step] at hs
    split at hs
    · cases hs
    · cases hs; exact hnode n _ fun he ↦ hsame _ (he ▸ rfl)
  | deliver n i =>
    simp only [step] at hs
    split at hs
    · cases hs
    · cases hs; exact hnode n _ fun he ↦ hsame _ (he ▸ rfl)
  | kick r uid =>
    simp only [step] at hs
    split at hs
    · cases hs
    · cases hs; exact hsame _ (System.broadcast_registry ..)
  | advance d => cases hs; exact hsame _ rfl

end NavCaster.Core.Registration
