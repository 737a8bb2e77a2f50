import NavCaster.Library.Table
import NavCaster.Service.Queue

namespace NavCaster.Service.Ownership

open NavCaster.Library
open NavCaster.Service.Queue (ProcessQueue)

inductive SessionType
  | source | server | client | nearest
  deriving DecidableEq

inductive OperateType
  | create | destroy
  deriving DecidableEq

/-- A request of the queue. `origin` is the session whose `stop` has made it; the code cannot see
it. -/
structure ConnectInfo (K : Type) where
  type : SessionType
  operate : OperateType
  connectKey : K
  origin : Option Nat := none
  deriving DecidableEq

structure Session where
  id : Nat
  bev : Option Nat
  stopped : Bool := false
  deriving DecidableEq

/-- `sockets` are the bufferevents that are not freed, with the keys of their sockets. `listening`
are the contexts of the listener's callbacks, `verifying` those that wait for an answer, `objects`
are the maps of the four carriers. -/
structure Caster (K : Type) where
  connectMap : Table K Nat := ∅
  sockets : Table Nat K := ∅
  nextBev : Nat := 0
  listening : List (Nat × K) := []
  verifying : List (SessionType × K) := []
  queue : ProcessQueue (ConnectInfo K) := {}
  objects : Table (SessionType × K) Session := ∅
  nextSession : Nat := 0

inductive Event
  | freed (bev : Nat) (held : Bool)
  | removed (session : Nat) (origin : Option Nat)
  deriving DecidableEq

inductive Decision
  | reject
  | verify (type : SessionType)
  | create (type : SessionType)
  deriving DecidableEq

inductive Action (K : Type)
  | accept (connectKey : K)
  | close (bev : Nat) (connectKey : K)
  | request (bev : Nat) (connectKey : K) (decision : Decision)
  | answer (type : SessionType) (connectKey : K) (ok : Bool)
  | stop (type : SessionType) (connectKey : K)
  /-- The processing event is run; what is started stops these sessions. -/
  | process (stops : List (SessionType × K))
  deriving DecidableEq

namespace Caster

variable {K : Type} [DecidableEq K] (s : Caster K)

def getBev (connectKey : K) : Option Nat := s.connectMap.lookup connectKey

def newBev (connectKey : K) : Caster K :=
  { s with
    connectMap := Table.insertNew s.connectMap connectKey s.nextBev
    sockets := s.sockets.insert s.nextBev connectKey
    nextBev := s.nextBev + 1 }

def refersTo (bev : Nat) : Bool := (Table.toPairs s.objects).any fun p ↦ p.2.bev = some bev

def delBev (connectKey : K) : Caster K × List Event :=
  match s.connectMap.lookup connectKey with
  | none => (s, [])
  | some bev =>
    ({ s with connectMap := s.connectMap.erase connectKey, sockets := s.sockets.erase bev },
      [.freed bev (s.refersTo bev)])

def push (req : ConnectInfo K) : Caster K := { s with queue := s.queue.pushAndActive req }

def processAcceptRequest (connectKey : K) : Caster K :=
  let s := s.newBev connectKey
  match s.getBev connectKey with
  | none => s
  | some bev => { s with listening := (bev, connectKey) :: s.listening.filter (·.1 ≠ bev) }

def processBevEvent (bev : Nat) (connectKey : K) : Caster K × List Event :=
  { s with listening := s.listening.erase (bev, connectKey) }.delBev connectKey

def createRequest (type : SessionType) (connectKey : K) (ok : Bool) : Caster K × List Event :=
  if ok then (s.push { type, operate := .create, connectKey }, []) else s.delBev connectKey

def processBevRequest (bev : Nat) (connectKey : K) (decision : Decision) : Caster K × List Event :=
  let s := { s with listening := s.listening.erase (bev, connectKey) }
  match decision with
  | .reject => s.delBev connectKey
  | .verify type => ({ s with verifying := (type, connectKey) :: s.verifying }, [])
  | .create type => s.createRequest type connectKey true

def stop (type : SessionType) (connectKey : K) : Caster K :=
  match s.objects.lookup (type, connectKey) with
  | none => s
  | some session =>
    if session.stopped then s
    else { s with objects :=
      s.objects.insert (type, connectKey) { session with stopped := true } }.push
      { type, operate := .destroy, connectKey, origin := some session.id }

def eraseObject (type : SessionType) (connectKey : K) (origin : Option Nat) :
    Caster K × List Event :=
  match s.objects.lookup (type, connectKey) with
  | none => (s, [])
  | some session =>
    let (s, es) := { s with objects := s.objects.erase (type, connectKey) }.delBev connectKey
    (s, .removed session.id origin :: es)

/-- The new session takes the bufferevent before an old one is stopped and erased. -/
def createObject (type : SessionType) (connectKey : K) : Caster K × List Event :=
  let session : Session := { id := s.nextSession, bev := s.getBev connectKey }
  let s := { s with nextSession := s.nextSession + 1 }
  let (s, es) := (s.stop type connectKey).eraseObject type connectKey none
  ({ s with objects := s.objects.insert (type, connectKey) session }, es)

def destroyObject (type : SessionType) (connectKey : K) (origin : Option Nat) :
    Caster K × List Event :=
  (s.stop type connectKey).eraseObject type connectKey origin

def operateObject (req : ConnectInfo K) : Caster K × List Event :=
  match req.operate with
  | .create => s.createObject req.type req.connectKey
  | .destroy => s.destroyObject req.type req.connectKey req.origin

def stopAll (stops : List (SessionType × K)) : Caster K := stops.foldl (fun s p ↦ s.stop p.1 p.2) s

def requestProcessCb (stops : List (SessionType × K)) : Caster K × List Event :=
  let s := { s with queue := { s.queue with active := false } }
  let (s, es) :=
    match s.queue.pop with
    | none => (s, [])
    | some (req, queue) =>
      let (s, es) := { s with queue }.operateObject req
      (s.stopAll stops, es)
  (if s.queue.notNull then { s with queue := s.queue.activePrrocesser } else s, es)

end Caster

variable {K : Type} [DecidableEq K]

def step (s : Caster K) : Action K → Option (Caster K × List Event)
  | .accept connectKey => some (s.processAcceptRequest connectKey, [])
  | .close bev connectKey =>
    if (bev, connectKey) ∈ s.listening then some (s.processBevEvent bev connectKey) else none
  | .request bev connectKey decision =>
    if (bev, connectKey) ∈ s.listening then some (s.processBevRequest bev connectKey decision)
    else none
  | .answer type connectKey ok =>
    if (type, connectKey) ∈ s.verifying then
      some ({ s with verifying := s.verifying.erase (type, connectKey) }.createRequest type
        connectKey ok)
    else none
  | .stop type connectKey => some (s.stop type connectKey, [])
  | .process stops => if s.queue.active then some (s.requestProcessCb stops) else none

def machine (K : Type) [DecidableEq K] : Machine (Caster K) (Action K) Event where
  step := step

/-- No accepted connection has the key of a socket that is open. -/
def DistinctKeys (s : Caster K) : Action K → Prop
  | .accept connectKey => ∀ p ∈ Table.toPairs s.sockets, p.2 ≠ connectKey
  | _ => True

instance (s : Caster K) : DecidablePred (DistinctKeys s)
  | .accept connectKey =>
    inferInstanceAs (Decidable (∀ p ∈ Table.toPairs s.sockets, p.2 ≠ connectKey))
  | .close _ _ | .request _ _ _ | .answer _ _ _ | .stop _ _ | .process _ => isTrue trivial

def awaited {A : Type} (contexts : List (A × K)) : Multiset K := (contexts.map Prod.snd : List K)

def creates (reqs : List (ConnectInfo K)) : Multiset K :=
  ((reqs.filter (·.operate = .create)).map ConnectInfo.connectKey : List K)

def destroys (reqs : List (ConnectInfo K)) : Multiset ((SessionType × K) × Option Nat) :=
  ((reqs.filter (·.operate = .destroy)).map fun req ↦ ((req.type, req.connectKey), req.origin) :
    List _)

def kept (objects : Table (SessionType × K) Session) : Multiset K :=
  ((Table.toPairs objects).map fun p ↦ p.1.2 : List K)

def halted (objects : Table (SessionType × K) Session) :
    Multiset ((SessionType × K) × Option Nat) :=
  (((Table.toPairs objects).filter (·.2.stopped)).map fun p ↦ (p.1, some p.2.id) : List _)

/-- Every key of the connect map is held by one context, queued request or session. -/
def holders (s : Caster K) : Multiset K :=
  awaited s.listening + awaited s.verifying + creates s.queue.queue + kept s.objects

/-- `owed` are keys that have lost their holder, `due` are requests taken out of the queue. -/
structure Inv (owed : Multiset K) (due : Multiset ((SessionType × K) × Option Nat))
    (s : Caster K) : Prop where
  paired : ∀ k b, s.connectMap.lookup k = some b ↔ s.sockets.lookup b = some k
  fresh : ∀ b ∈ s.sockets, b < s.nextBev
  balance : holders s + owed = (s.connectMap.keys : List K)
  listening : ∀ p ∈ s.listening, s.connectMap.lookup p.2 = some p.1
  sessions : ∀ p session, s.objects.lookup p = some session → session.bev = s.connectMap.lookup p.2
  account : destroys s.queue.queue + due = halted s.objects

variable {s s' : Caster K} {k : K} {type : SessionType} {owed : Multiset K}
  {due : Multiset ((SessionType × K) × Option Nat)}

theorem awaited_erase {A : Type} [DecidableEq A] {contexts : List (A × K)} {a : A}
    (h : (a, k) ∈ contexts) :
    awaited (contexts.erase (a, k)) + {k} = awaited contexts := by
  have hperm := (List.perm_cons_erase h).map Prod.snd
  unfold awaited
  rw [Multiset.coe_eq_coe.mpr hperm, add_comm, Multiset.singleton_add]
  rfl

theorem kept_erase {objects : Table (SessionType × K) Session} {session : Session}
    (h : objects.lookup (type, k) = some session) :
    kept (objects.erase (type, k)) + {k} = kept objects := by
  have hperm := (Table.toPairs_erase h).map fun p ↦ p.1.2
  unfold kept
  rw [Multiset.coe_eq_coe.mpr hperm, add_comm, Multiset.singleton_add]
  rfl

theorem kept_insert (objects : Table (SessionType × K) Session) (session : Session) :
    kept (objects.insert (type, k) session) = kept (objects.erase (type, k)) + {k} := by
  unfold kept
  rw [Table.toPairs_insert, add_comm, Multiset.singleton_add]
  rfl

theorem halted_insert (objects : Table (SessionType × K) Session) (session : Session) :
    halted (objects.insert (type, k) session) =
      halted (objects.erase (type, k)) + if session.stopped then {((type, k), some session.id)}
        else 0 := by
  unfold halted
  rw [Table.toPairs_insert, List.filter_cons]
  split
  · rw [add_comm, Multiset.singleton_add]
    rfl
  · rw [add_zero]

theorem halted_erase {objects : Table (SessionType × K) Session} {session : Session}
    (h : objects.lookup (type, k) = some session) :
    halted (objects.erase (type, k)) +
      (if session.stopped then {((type, k), some session.id)} else 0) =
      halted objects := by
  have hperm := ((Table.toPairs_erase h).filter (·.2.stopped)).map fun p ↦ (p.1, some p.2.id)
  unfold halted
  rw [Multiset.coe_eq_coe.mpr hperm, List.filter_cons]
  split
  · rw [add_comm, Multiset.singleton_add]
    rfl
  · rw [add_zero]

theorem mem_kept {objects : Table (SessionType × K) Session} {session : Session}
    (h : objects.lookup (type, k) = some session) : k ∈ kept objects :=
  List.mem_map_of_mem (f := fun p : (SessionType × K) × Session ↦ p.1.2) (Table.mem_toPairs.mpr h)

theorem mem_halted {objects : Table (SessionType × K) Session} {p : SessionType × K}
    {origin : Option Nat} (h : (p, origin) ∈ halted objects) :
    ∃ session, objects.lookup p = some session ∧ session.stopped = true ∧
      origin = some session.id := by
  obtain ⟨⟨q, session⟩, hmem, heq⟩ := List.mem_map.mp h
  obtain ⟨hpairs, hstopped⟩ := List.mem_filter.mp hmem
  cases heq
  exact ⟨session, Table.mem_toPairs.mp hpairs, hstopped, rfl⟩

theorem Inv.not_mem_holders (h : Inv {k} due s) : k ∉ holders s := by
  have hnodup : (holders s + {k}).Nodup := h.balance ▸ s.connectMap.keys_nodup
  have hcount := Multiset.nodup_iff_count_le_one.mp hnodup k
  rw [Multiset.count_add, Multiset.count_singleton_self] at hcount
  refine Multiset.count_eq_zero.mp ?_
  omega

omit [DecidableEq K] in
theorem mem_holders_of_listening {p : Nat × K} (h : p ∈ s.listening) : p.2 ∈ holders s := by
  have hmem : p.2 ∈ awaited s.listening := List.mem_map_of_mem h
  simp [holders, hmem]

theorem mem_holders_of_object {p : SessionType × K} {session : Session}
    (h : s.objects.lookup p = some session) : p.2 ∈ holders s := by
  have hmem : p.2 ∈ kept s.objects := mem_kept h
  simp [holders, hmem]

/-- What is owed is freed, and no session refers to it. -/
theorem Inv.delBev (h : Inv {k} due s) :
    ∃ b, s.sockets.lookup b = some k ∧
      s.delBev k = ({ s with connectMap := s.connectMap.erase k, sockets := s.sockets.erase b },
        [.freed b false]) ∧
      Inv 0 due (s.delBev k).1 := by
  have hnot := h.not_mem_holders
  have hmem : k ∈ s.connectMap := by
    have hkeys : k ∈ (s.connectMap.keys : Multiset K) := by
      rw [← h.balance]
      exact Multiset.mem_add.mpr (.inr (Multiset.mem_singleton_self k))
    exact hkeys
  obtain ⟨b, hb⟩ := Table.mem_iff_lookup.mp hmem
  have hsocket := (h.paired k b).mp hb
  have hheld : s.refersTo b = false := by
    refine List.any_eq_false.mpr fun p hp hbev ↦ ?_
    have hobject := Table.mem_toPairs.mp hp
    have hlookup := (h.sessions p.1 p.2 hobject).symm.trans (of_decide_eq_true hbev)
    have hkey := Option.some_inj.mp (((h.paired p.1.2 b).mp hlookup).symm.trans hsocket)
    exact hnot (hkey ▸ mem_holders_of_object hobject)
  have hdel :
      s.delBev k = ({ s with connectMap := s.connectMap.erase k, sockets := s.sockets.erase b },
      [.freed b false]) := by
    unfold Caster.delBev
    rw [hb]
    dsimp only
    rw [hheld]
  refine ⟨b, hsocket, hdel, ?_⟩
  rw [hdel]
  have hne : ∀ k' ∈ holders s, k' ≠ k := fun k' hk' heq ↦ hnot (heq ▸ hk')
  exact
    { paired := by
        intro k' b'
        dsimp only
        rw [Table.lookup_erase_if, Table.lookup_erase_if]
        by_cases hk : k' = k
        · subst hk
          refine iff_of_false (by simp) ?_
          split
          · simp
          · next hb' =>
            intro heq
            exact hb' (Option.some_inj.mp (((h.paired k' b').mpr heq).symm.trans hb))
        · rw [if_neg hk]
          split
          · next hb' =>
            subst hb'
            refine iff_of_false (fun heq ↦ hk ?_) (by simp)
            exact Option.some_inj.mp (((h.paired k' b').mp heq).symm.trans hsocket)
          · exact h.paired k' b'
      fresh := fun b' hb' ↦ h.fresh b' (AList.mem_erase.mp hb').2
      balance := by
        rw [add_zero]
        dsimp only
        rw [AList.keys_erase, ← Multiset.coe_erase, ← h.balance, add_comm, Multiset.singleton_add,
          Multiset.erase_cons_head]
        rfl
      listening := by
        intro p hp
        dsimp only
        rw [Table.lookup_erase_if, if_neg (hne _ (mem_holders_of_listening hp))]
        exact h.listening p hp
      sessions := by
        intro p session hp
        dsimp only
        rw [Table.lookup_erase_if, if_neg (hne _ (mem_holders_of_object hp))]
        exact h.sessions p session hp
      account := h.account }

omit [DecidableEq K] in
theorem creates_append (reqs reqs' : List (ConnectInfo K)) :
    creates (reqs ++ reqs') = creates reqs + creates reqs' := by
  simp only [creates, List.filter_append, List.map_append, ← Multiset.coe_add]

omit [DecidableEq K] in
theorem destroys_append (reqs reqs' : List (ConnectInfo K)) :
    destroys (reqs ++ reqs') = destroys reqs + destroys reqs' := by
  simp only [destroys, List.filter_append, List.map_append, ← Multiset.coe_add]

theorem Inv.stop (h : Inv owed due s) (type : SessionType) (k : K) :
    Inv owed due (s.stop type k) := by
  unfold Caster.stop
  split
  · exact h
  · next session hsession =>
    split
    · exact h
    · next hrunning =>
      let objects := s.objects.insert (type, k) { session with stopped := true }
      let req : ConnectInfo K :=
        { type, operate := .destroy, connectKey := k, origin := some session.id }
      have hkept : kept objects = kept s.objects := by
        rw [kept_insert, kept_erase hsession]
      have hhalted : halted objects = halted s.objects + {((type, k), some session.id)} := by
        have herase := halted_erase hsession
        rw [if_neg hrunning, add_zero] at herase
        rw [halted_insert, herase]
        rfl
      have hcreates : creates (s.queue.queue ++ [req]) = creates s.queue.queue := by
        rw [creates_append]
        exact add_zero _
      exact
        { paired := h.paired
          fresh := h.fresh
          balance := by
            refine Eq.trans ?_ h.balance
            change awaited s.listening + awaited s.verifying + creates (s.queue.queue ++ [req]) +
              kept objects +
              owed = _
            rw [hcreates, hkept]
            rfl
          listening := h.listening
          sessions := by
            intro p session' hp
            change objects.lookup p = _ at hp
            rw [Table.lookup_insert_if] at hp
            split at hp
            · next hpk =>
              subst hpk
              cases hp
              exact h.sessions _ session hsession
            · exact h.sessions p session' hp
          account := by
            change destroys (s.queue.queue ++ [req]) + due = halted objects
            rw [destroys_append, hhalted, ← h.account, add_right_comm]
            rfl }

theorem Inv.stopAll (h : Inv owed due s) (stops : List (SessionType × K)) :
    Inv owed due (s.stopAll stops) := by
  induction stops generalizing s with
  | nil => exact h
  | cons p stops ih => exact ih (h.stop p.1 p.2)

theorem Inv.pushCreate (h : Inv {k} due s) (type : SessionType) :
    Inv 0 due (s.push { type, operate := .create, connectKey := k }) where
  paired := h.paired
  fresh := h.fresh
  balance := by
    refine Eq.trans ?_ h.balance
    change awaited s.listening + awaited s.verifying + creates (s.queue.queue ++ [_]) +
      kept s.objects + 0 = _
    have hone : creates [{ type, operate := .create, connectKey := k }] = {k} := rfl
    rw [creates_append, hone, holders]
    abel
  listening := h.listening
  sessions := h.sessions
  account := by
    refine Eq.trans ?_ h.account
    change destroys (s.queue.queue ++ [_]) + due = _
    have hnone : destroys [{ type, operate := .create, connectKey := k }] = 0 := rfl
    rw [destroys_append, hnone, add_zero]

theorem Inv.unlisten (h : Inv 0 due s) {b : Nat} (hmem : (b, k) ∈ s.listening) :
    Inv {k} due { s with listening := s.listening.erase (b, k) } where
  paired := h.paired
  fresh := h.fresh
  balance := by
    refine Eq.trans ?_ h.balance
    rw [holders, holders, ← awaited_erase hmem]
    abel
  listening p hp := h.listening p (List.mem_of_mem_erase hp)
  sessions := h.sessions
  account := h.account

theorem Inv.unverify (h : Inv 0 due s) (hmem : (type, k) ∈ s.verifying) :
    Inv {k} due { s with verifying := s.verifying.erase (type, k) } where
  paired := h.paired
  fresh := h.fresh
  balance := by
    refine Eq.trans ?_ h.balance
    rw [holders, holders, ← awaited_erase hmem]
    abel
  listening := h.listening
  sessions := h.sessions
  account := h.account

theorem Inv.verify (h : Inv {k} due s) (type : SessionType) :
    Inv 0 due { s with verifying := (type, k) :: s.verifying } where
  paired := h.paired
  fresh := h.fresh
  balance := by
    refine Eq.trans ?_ h.balance
    have hcons : awaited ((type, k) :: s.verifying) = awaited s.verifying + {k} := by
      rw [add_comm, Multiset.singleton_add]
      rfl
    rw [holders, holders, hcons]
    abel
  listening := h.listening
  sessions := h.sessions
  account := h.account

theorem Inv.accept (h : Inv 0 due s) (hkey : ∀ b, s.sockets.lookup b ≠ some k) :
    s.processAcceptRequest k =
        { s with
          connectMap := s.connectMap.insert k s.nextBev
          sockets := s.sockets.insert s.nextBev k
          nextBev := s.nextBev + 1
          listening := (s.nextBev, k) :: s.listening } ∧
      Inv 0 due (s.processAcceptRequest k) := by
  have hnone : s.connectMap.lookup k = none :=
    Option.eq_none_iff_forall_ne_some.mpr fun b hb ↦ hkey b ((h.paired k b).mp hb)
  have hmem : k ∉ s.connectMap := AList.lookup_eq_none.mp hnone
  have hnew : s.sockets.lookup s.nextBev = none :=
    AList.lookup_eq_none.mpr fun hmem ↦ (h.fresh _ hmem).false
  have hfilter : s.listening.filter (·.1 ≠ s.nextBev) = s.listening := by
    refine List.filter_eq_self.mpr fun p hp ↦ decide_eq_true fun heq ↦ ?_
    have hsocket := (h.paired p.2 p.1).mp (h.listening p hp)
    rw [heq, hnew] at hsocket
    cases hsocket
  have hstate : s.processAcceptRequest k =
      { s with
        connectMap := s.connectMap.insert k s.nextBev
        sockets := s.sockets.insert s.nextBev k
        nextBev := s.nextBev + 1
        listening := (s.nextBev, k) :: s.listening } := by
    have hinsert : Table.insertNew s.connectMap k s.nextBev = s.connectMap.insert k s.nextBev :=
      if_neg hmem
    simp only [Caster.processAcceptRequest, Caster.newBev, Caster.getBev, hinsert,
      AList.lookup_insert, hfilter]
  refine ⟨hstate, ?_⟩
  rw [hstate]
  have hne : ∀ k' b, s.connectMap.lookup k' = some b → k' ≠ k := by
    rintro k' b hb rfl
    cases hnone.symm.trans hb
  exact
    { paired := by
        intro k' b'
        dsimp only
        rw [Table.lookup_insert_if, Table.lookup_insert_if]
        by_cases hk : k' = k
        · subst hk
          rw [if_pos rfl]
          split
          · next hb => exact iff_of_true (by rw [hb]) rfl
          · next hb => exact iff_of_false (fun heq ↦ hb (Option.some_inj.mp heq).symm) (hkey b')
        · rw [if_neg hk]
          split
          · next hb =>
            subst hb
            refine iff_of_false (fun heq ↦ ?_) fun heq ↦ hk (Option.some_inj.mp heq).symm
            cases hnew.symm.trans ((h.paired k' s.nextBev).mp heq)
          · exact h.paired k' b'
      fresh := by
        intro b hb
        rcases (AList.mem_insert _).mp hb with rfl | hb
        · exact Nat.lt_succ_self _
        · exact Nat.lt_succ_of_lt (h.fresh b hb)
      balance := by
        have hcons : awaited ((s.nextBev, k) :: s.listening) = awaited s.listening + {k} := by
          rw [add_comm, Multiset.singleton_add]
          rfl
        have hkeys : (s.connectMap.insert k s.nextBev).keys = k :: s.connectMap.keys := by
          rw [AList.keys_insert, List.erase_of_not_mem hmem]
        have hbalance := h.balance
        rw [holders, add_zero] at hbalance
        dsimp only
        rw [holders, hcons, hkeys, ← Multiset.cons_coe, ← hbalance, ← Multiset.singleton_add]
        abel
      listening := by
        intro p hp
        dsimp only
        rcases List.mem_cons.mp hp with rfl | hp
        · exact AList.lookup_insert _
        · rw [Table.lookup_insert_if, if_neg (hne _ _ (h.listening p hp))]
          exact h.listening p hp
      sessions := by
        intro p session hp
        have hmemk : p.2 ∈ s.connectMap := by
          have hkeys : p.2 ∈ (s.connectMap.keys : Multiset K) := by
            rw [← h.balance, add_zero]
            exact mem_holders_of_object hp
          exact hkeys
        have hpk : p.2 ≠ k := fun heq ↦ hmem (heq ▸ hmemk)
        dsimp only
        rw [Table.lookup_insert_if, if_neg hpk]
        exact h.sessions p session hp
      account := h.account }

theorem Inv.destroyObject {origin : Option Nat} (h : Inv 0 {((type, k), origin)} s) :
    ∃ b id, s.sockets.lookup b = some k ∧ origin = some id ∧
      (s.destroyObject type k origin).2 = [.removed id origin, .freed b false] ∧
      (s.destroyObject type k origin).1.sockets = s.sockets.erase b ∧
      (s.destroyObject type k origin).1.nextBev = s.nextBev ∧
      Inv 0 0 (s.destroyObject type k origin).1 := by
  have hmem : ((type, k), origin) ∈ halted s.objects := by
    rw [← h.account]
    exact Multiset.mem_add.mpr (.inr (Multiset.mem_singleton_self _))
  obtain ⟨session, hsession, hstopped, rfl⟩ := mem_halted hmem
  have hstop : s.stop type k = s := by
    unfold Caster.stop
    rw [hsession]
    exact if_pos hstopped
  have hout : Inv {k} 0 { s with objects := s.objects.erase (type, k) } :=
    { paired := h.paired
      fresh := h.fresh
      balance := by
        refine Eq.trans ?_ h.balance
        rw [holders, holders, ← kept_erase hsession]
        abel
      listening := h.listening
      sessions := by
        intro p session' hp
        dsimp only at hp
        rw [Table.lookup_erase_if] at hp
        split at hp
        · cases hp
        · exact h.sessions p session' hp
      account := by
        have herase := halted_erase hsession
        rw [if_pos hstopped, ← h.account] at herase
        rw [add_zero]
        exact (add_right_cancel herase).symm }
  obtain ⟨b, hb, hdel, hinv⟩ := hout.delBev
  rw [hdel] at hinv
  have hdestroy : s.destroyObject type k (some session.id) =
      ({ s with
        objects := s.objects.erase (type, k)
        connectMap := s.connectMap.erase k
        sockets := s.sockets.erase b },
        [.removed session.id (some session.id), .freed b false]) := by
    unfold Caster.destroyObject Caster.eraseObject
    rw [hstop, hsession]
    dsimp only
    rw [hdel]
  rw [hdestroy]
  exact ⟨b, session.id, hb, rfl, rfl, rfl, rfl, hinv⟩

theorem Inv.createObject (h : Inv {k} 0 s) (type : SessionType) :
    (s.createObject type k).2 = [] ∧ (s.createObject type k).1.sockets = s.sockets ∧
      (s.createObject type k).1.nextBev = s.nextBev ∧ Inv 0 0 (s.createObject type k).1 := by
  have hnone : s.objects.lookup (type, k) = none :=
    Option.eq_none_iff_forall_ne_some.mpr fun session hsession ↦
      h.not_mem_holders (mem_holders_of_object (p := (type, k)) hsession)
  have hcreate : s.createObject type k =
      ({ s with
        nextSession := s.nextSession + 1
        objects :=
          s.objects.insert (type, k) { id := s.nextSession, bev := s.connectMap.lookup k } },
            []) := by
    simp only [Caster.createObject, Caster.stop, Caster.eraseObject, Caster.getBev, hnone]
  have herase : s.objects.erase (type, k) = s.objects :=
    Table.erase_of_not_mem (AList.lookup_eq_none.mp hnone)
  rw [hcreate]
  refine ⟨rfl, rfl, rfl, ?_⟩
  exact
    { paired := h.paired
      fresh := h.fresh
      balance := by
        refine Eq.trans ?_ h.balance
        dsimp only
        rw [holders, holders, kept_insert, herase]
        abel
      listening := h.listening
      sessions := by
        intro p session hp
        dsimp only at hp
        rw [Table.lookup_insert_if] at hp
        split at hp
        · next hpk =>
          subst hpk
          cases hp
          rfl
        · exact h.sessions p session hp
      account := by
        dsimp only
        rw [halted_insert, herase]
        exact h.account.trans (add_zero _).symm }

def frees (b : Nat) (es : List Event) : Nat :=
  es.countP fun
    | .freed b' _ => b' = b
    | .removed _ _ => false

def unfreed (s : Caster K) (b : Nat) : Nat := if b ∈ s.sockets then 1 else 0

def made (s : Caster K) (b : Nat) : Nat := if b < s.nextBev then 1 else 0

structure Sound (s s' : Caster K) (es : List Event) : Prop where
  inv : Inv 0 0 s'
  once : ∀ b, frees b es + unfreed s' b + made s b = unfreed s b + made s' b
  held : ∀ b held, Event.freed b held ∈ es → held = false
  removed : ∀ id origin, Event.removed id origin ∈ es → origin = some id

theorem sound_quiet (h : Inv 0 0 s') (hsockets : s'.sockets = s.sockets)
    (hnext : s'.nextBev = s.nextBev) :
    Sound s s' [] where
  inv := h
  once b := by simp [frees, unfreed, made, hsockets, hnext]
  held := by simp
  removed := by simp

theorem sound_freed {b : Nat} (h : Inv 0 0 s') (hb : s.sockets.lookup b = some k)
    (hsockets : s'.sockets = s.sockets.erase b) (hnext : s'.nextBev = s.nextBev) :
    Sound s s' [.freed b false] where
  inv := h
  once b' := by
    have hmem := Table.mem_of_lookup hb
    by_cases hbb : b' = b
    · subst hbb
      simp [frees, unfreed, made, hsockets, hnext, hmem]
    · simp [frees, unfreed, made, hsockets, hnext, AList.mem_erase, hbb, Ne.symm hbb]
  held := by simp
  removed := by simp

theorem Sound.cons_removed {es : List Event} (h : Sound s s' es) (id : Nat) :
    Sound s s' (.removed id (some id) :: es) where
  inv := h.inv
  once b := by
    have honce := h.once b
    simpa [frees] using honce
  held b held hmem := h.held b held (by simpa using hmem)
  removed id' origin hmem := by
    rcases List.mem_cons.mp hmem with heq | hmem
    · cases heq
      rfl
    · exact h.removed id' origin hmem

theorem Sound.quiet {t : Caster K} {es : List Event} (h : Sound s s' es) (ht : Inv 0 0 t)
    (hsockets : t.sockets = s'.sockets) (hnext : t.nextBev = s'.nextBev) : Sound s t es where
  inv := ht
  once b := by
    have honce := h.once b
    simpa [unfreed, made, hsockets, hnext] using honce
  held := h.held
  removed := h.removed

theorem Sound.after {t : Caster K} {es : List Event} (h : Sound t s' es)
    (hsockets : t.sockets = s.sockets) (hnext : t.nextBev = s.nextBev) : Sound s s' es where
  inv := h.inv
  once b := by
    have honce := h.once b
    simpa [unfreed, made, hsockets, hnext] using honce
  held := h.held
  removed := h.removed

theorem sound_delBev (h : Inv {k} 0 s) : Sound s (s.delBev k).1 (s.delBev k).2 := by
  obtain ⟨b, hb, hdel, hinv⟩ := h.delBev
  rw [hdel] at hinv ⊢
  exact sound_freed hinv hb rfl rfl

theorem stop_frame (type : SessionType) (k : K) :
    (s.stop type k).sockets = s.sockets ∧ (s.stop type k).nextBev = s.nextBev := by
  unfold Caster.stop
  split
  · exact ⟨rfl, rfl⟩
  · split <;> exact ⟨rfl, rfl⟩

theorem stopAll_frame (stops : List (SessionType × K)) :
    (s.stopAll stops).sockets = s.sockets ∧ (s.stopAll stops).nextBev = s.nextBev := by
  induction stops generalizing s with
  | nil => exact ⟨rfl, rfl⟩
  | cons p stops ih =>
    have hframe := stop_frame (s := s) p.1 p.2
    have hrest := ih (s := s.stop p.1 p.2)
    exact ⟨hrest.1.trans hframe.1, hrest.2.trans hframe.2⟩

theorem Inv.queue {queue : ProcessQueue (ConnectInfo K)} (h : Inv owed due s)
    (hqueue : queue.queue = s.queue.queue) : Inv owed due { s with queue } where
  paired := h.paired
  fresh := h.fresh
  balance := by
    refine Eq.trans ?_ h.balance
    rw [holders, holders, hqueue]
  listening := h.listening
  sessions := h.sessions
  account := by
    refine Eq.trans ?_ h.account
    rw [hqueue]

theorem Inv.popCreate {queue : ProcessQueue (ConnectInfo K)} {req : ConnectInfo K} (h : Inv 0 0 s)
    (hqueue : s.queue.queue = req :: queue.queue) (hreq : req.operate = .create) :
    Inv {req.connectKey} 0 { s with queue } where
  paired := h.paired
  fresh := h.fresh
  balance := by
    refine Eq.trans ?_ h.balance
    have hcons : creates s.queue.queue = creates queue.queue + {req.connectKey} := by
      rw [hqueue, add_comm, Multiset.singleton_add, creates,
        List.filter_cons_of_pos (by simp [hreq])]
      rfl
    rw [holders, holders, hcons]
    abel
  listening := h.listening
  sessions := h.sessions
  account := by
    refine Eq.trans ?_ h.account
    rw [hqueue, destroys, destroys, List.filter_cons_of_neg (by simp [hreq])]

theorem Inv.popDestroy {queue : ProcessQueue (ConnectInfo K)} {req : ConnectInfo K} (h : Inv 0 0 s)
    (hqueue : s.queue.queue = req :: queue.queue) (hreq : req.operate = .destroy) :
    Inv 0 {((req.type, req.connectKey), req.origin)} { s with queue } where
  paired := h.paired
  fresh := h.fresh
  balance := by
    refine Eq.trans ?_ h.balance
    rw [holders, holders, hqueue, creates, creates, List.filter_cons_of_neg (by simp [hreq])]
  listening := h.listening
  sessions := h.sessions
  account := by
    refine Eq.trans ?_ h.account
    rw [hqueue, add_zero, add_comm, Multiset.singleton_add, destroys, destroys,
      List.filter_cons_of_pos (by simp [hreq])]
    rfl

theorem sound_operateObject {queue : ProcessQueue (ConnectInfo K)} {req : ConnectInfo K}
    (h : Inv 0 0 s) (hqueue : s.queue.queue = req :: queue.queue) :
    Sound s ({ s with queue }.operateObject req).1 ({ s with queue }.operateObject req).2 := by
  unfold Caster.operateObject
  cases hreq : req.operate with
  | create =>
    obtain ⟨hes, hsockets, hnext, hinv⟩ := (h.popCreate hqueue hreq).createObject req.type
    dsimp only
    rw [hes]
    exact sound_quiet hinv hsockets hnext
  | destroy =>
    obtain ⟨b, id, hb, horigin, hes, hsockets, hnext, hinv⟩ :=
      (h.popDestroy hqueue hreq).destroyObject
    dsimp only
    have hsound := (sound_freed (s := s) hinv hb hsockets hnext).cons_removed id
    rw [hes]
    exact horigin ▸ hsound

theorem Sound.reactivate {es : List Event} (h : Sound s s' es) :
    Sound s (if s'.queue.notNull then { s' with queue := s'.queue.activePrrocesser } else s')
      es := by
  split
  · exact h.quiet (h.inv.queue rfl) rfl rfl
  · exact h

theorem sound_requestProcessCb (h : Inv 0 0 s) (stops : List (SessionType × K)) :
    Sound s (s.requestProcessCb stops).1 (s.requestProcessCb stops).2 := by
  cases hpop : ProcessQueue.pop { s.queue with active := false } with
  | none =>
    let idle : Caster K := { s with queue := { s.queue with active := false } }
    have hquiet : Sound s idle [] := sound_quiet (h.queue rfl) rfl rfl
    simp only [Caster.requestProcessCb, hpop]
    exact hquiet.reactivate
  | some popped =>
    obtain ⟨req, queue⟩ := popped
    have hqueue : s.queue.queue = req :: queue.queue := by
      unfold ProcessQueue.pop at hpop
      split at hpop
      · cases hpop
      · next hlist =>
        cases hpop
        exact hlist
    have hsound := sound_operateObject h hqueue
    have hframe := stopAll_frame (s := ({ s with queue }.operateObject req).1) stops
    simp only [Caster.requestProcessCb, hpop]
    exact (hsound.quiet (hsound.inv.stopAll stops) hframe.1 hframe.2).reactivate

theorem sound_accept (h : Inv 0 0 s) (hkey : ∀ b, s.sockets.lookup b ≠ some k) :
    Sound s (s.processAcceptRequest k) [] := by
  obtain ⟨hstate, hinv⟩ := h.accept hkey
  refine ⟨hinv, fun b ↦ ?_, by simp, by simp⟩
  rw [hstate]
  have hnot : s.nextBev ∉ s.sockets := fun hmem ↦ (h.fresh _ hmem).false
  rcases lt_trichotomy b s.nextBev with hlt | rfl | hlt
  · have hopen : b ∈ s.sockets.insert s.nextBev k ↔ b ∈ s.sockets := by simp [hlt.ne]
    simp [frees, unfreed, made, hopen, hlt, Nat.lt_succ_of_lt hlt]
  · simp [frees, unfreed, made, hnot]
  · have hopen : b ∈ s.sockets.insert s.nextBev k ↔ b ∈ s.sockets := by simp [hlt.ne']
    simp [frees, unfreed, made, hopen, hlt.not_gt, (Nat.succ_le_of_lt hlt).not_gt]

theorem sound_processBevRequest {b : Nat} (h : Inv 0 0 s) (hmem : (b, k) ∈ s.listening)
    (decision : Decision) :
    Sound s (s.processBevRequest b k decision).1 (s.processBevRequest b k decision).2 := by
  have hun := h.unlisten hmem
  cases decision with
  | reject => exact (sound_delBev hun).after rfl rfl
  | verify type => exact sound_quiet (hun.verify type) rfl rfl
  | create type => exact sound_quiet (hun.pushCreate type) rfl rfl

theorem sound_createRequest (h : Inv {k} 0 s) (type : SessionType) (ok : Bool) :
    Sound s (s.createRequest type k ok).1 (s.createRequest type k ok).2 := by
  cases ok with
  | true => exact sound_quiet (h.pushCreate type) rfl rfl
  | false => exact sound_delBev h

theorem step_sound {a : Action K} {es : List Event} (h : Inv 0 0 s) (hok : DistinctKeys s a)
    (hstep : step s a = some (s', es)) : Sound s s' es := by
  have hpair : ∀ {p : Caster K × List Event}, Sound s p.1 p.2 → some p = some (s', es) →
      Sound s s' es := by
    rintro ⟨t, es⟩ hsound heq
    cases heq
    exact hsound
  cases a with
  | accept k =>
    have hkey : ∀ b, s.sockets.lookup b ≠ some k := fun b hb ↦
      hok (b, k) (Table.mem_toPairs.mpr hb) rfl
    exact hpair (sound_accept h hkey) hstep
  | close b k =>
    obtain ⟨hmem, heq⟩ := Option.ite_none_right_eq_some.mp hstep
    exact hpair ((sound_delBev (h.unlisten hmem)).after rfl rfl) heq
  | request b k decision =>
    obtain ⟨hmem, heq⟩ := Option.ite_none_right_eq_some.mp hstep
    exact hpair (sound_processBevRequest h hmem decision) heq
  | answer type k ok =>
    obtain ⟨hmem, heq⟩ := Option.ite_none_right_eq_some.mp hstep
    exact hpair ((sound_createRequest (h.unverify hmem) type ok).after rfl rfl) heq
  | stop type k =>
    exact hpair (sound_quiet (h.stop type k) (stop_frame type k).1 (stop_frame type k).2) hstep
  | process stops =>
    obtain ⟨-, heq⟩ := Option.ite_none_right_eq_some.mp hstep
    exact hpair (sound_requestProcessCb h stops) heq

theorem frees_append (b : Nat) (es es' : List Event) :
    frees b (es ++ es') = frees b es + frees b es' :=
  List.countP_append

theorem Sound.trans {t : Caster K} {es es' : List Event} (h : Sound s t es) (h' : Sound t s' es') :
    Sound s s' (es ++ es') where
  inv := h'.inv
  once b := by
    have honce := h.once b
    have honce' := h'.once b
    rw [frees_append]
    omega
  held b held hmem := by
    rcases List.mem_append.mp hmem with hmem | hmem
    · exact h.held b held hmem
    · exact h'.held b held hmem
  removed id origin hmem := by
    rcases List.mem_append.mp hmem with hmem | hmem
    · exact h.removed id origin hmem
    · exact h'.removed id origin hmem

theorem exec_sound {as : List (Action K)} {es : List Event} (h : Inv 0 0 s)
    (hok : (machine K).Meets DistinctKeys s as) (hrun : (machine K).exec s as = some (s', es)) :
    Sound s s' es := by
  induction as generalizing s es with
  | nil =>
    cases hrun
    exact sound_quiet h rfl rfl
  | cons a as ih =>
    obtain ⟨t, es₁, es₂, hstep, hexec, rfl⟩ := Machine.step_of_exec_cons hrun
    obtain ⟨ha, has⟩ := hok
    rw [hstep] at has
    have hsound := step_sound h ha hstep
    exact hsound.trans (ih hsound.inv has hexec)

theorem inv_init : Inv 0 0 ({} : Caster K) where
  paired _ _ := iff_of_false nofun nofun
  fresh := nofun
  balance := rfl
  listening := nofun
  sessions := nofun
  account := rfl

theorem Inv.count_holders (h : Inv 0 due s) {b : Nat} (hb : s.sockets.lookup b = some k) :
    (holders s).count k = 1 := by
  have hmem : k ∈ s.connectMap.keys := Table.mem_of_lookup ((h.paired k b).mpr hb)
  have hbalance := h.balance
  rw [add_zero] at hbalance
  rw [hbalance, Multiset.coe_count]
  exact List.count_eq_one_of_mem s.connectMap.keys_nodup hmem

/-- A stopped session waits for its DESTROY. -/
theorem Inv.not_stopped (h : Inv 0 0 s) (hqueue : s.queue.queue = []) {p : SessionType × K}
    {session : Session}
    (hsession : s.objects.lookup p = some session) : session.stopped = false := by
  have hnone : halted s.objects = 0 := by
    rw [← h.account, hqueue]
    rfl
  refine Bool.eq_false_iff.mpr fun hstopped ↦ ?_
  have hmem : (p, some session.id) ∈ halted s.objects :=
    List.mem_map_of_mem (f := fun q : (SessionType × K) × Session ↦ (q.1, some q.2.id))
      (List.mem_filter.mpr ⟨Table.mem_toPairs.mpr hsession, hstopped⟩)
  rw [hnone] at hmem
  exact Multiset.notMem_zero _ hmem

/-- What a run has freed and removed, and who frees the rest. -/
structure Owned (s : Caster K) (es : List Event) : Prop where
  once : ∀ b < s.nextBev, frees b es = if b ∈ s.sockets then 0 else 1
  unmade : ∀ b, s.nextBev ≤ b → frees b es = 0
  holder : ∀ b k, s.sockets.lookup b = some k → (holders s).count k = 1
  unheld : ∀ b held, .freed b held ∈ es → held = false
  own : ∀ id origin, .removed id origin ∈ es → origin = some id
  drained : s.queue.queue = [] → ∀ p session, s.objects.lookup p = some session →
    session.stopped = false

theorem sockets_owned {as : List (Action K)} {es : List Event}
    (hok : (machine K).Meets DistinctKeys {} as) (hrun : (machine K).exec {} as = some (s, es)) :
    Owned s es := by
  have hsound := exec_sound inv_init hok hrun
  have honce : ∀ b, frees b es + unfreed s b = made s b := by
    intro b
    have hb := hsound.once b
    have hmade : made ({} : Caster K) b = 0 := if_neg (Nat.not_lt_zero b)
    have hunfreed : unfreed ({} : Caster K) b = 0 := if_neg nofun
    omega
  exact
    { once := by
        intro b hlt
        have hb := honce b
        rw [made, if_pos hlt, unfreed] at hb
        split at hb
        · next hmem =>
          rw [if_pos hmem]
          omega
        · next hmem =>
          rw [if_neg hmem]
          omega
      unmade := by
        intro b hle
        have hb := honce b
        rw [made, if_neg (Nat.not_lt.mpr hle)] at hb
        omega
      holder := fun b k hb ↦ hsound.inv.count_holders hb
      unheld := hsound.held
      own := hsound.removed
      drained := fun hqueue p session ↦ hsound.inv.not_stopped hqueue }

def comeAndGo : List (Action Nat) :=
  [.accept 7, .accept 8, .request 0 7 (.verify .client), .close 1 8, .answer .client 7 true,
    .process [], .stop .client 7, .process [], .accept 7, .request 2 7 (.create .source),
    .process [(.source, 7)], .process []]

theorem sockets_owned_comeAndGo :
    ∃ s es, (machine Nat).exec {} comeAndGo = some (s, es) ∧ frees 0 es = 1 ∧ Owned s es := by
  have hok : (machine Nat).Meets DistinctKeys {} comeAndGo := by decide
  exact ⟨_, _, rfl, rfl, sockets_owned hok rfl⟩

end NavCaster.Service.Ownership
