import NavCaster.Relay.Cluster
import NavCaster.Relay.Distribution

namespace NavCaster.Relay.Round

open NavCaster.Library
open NavCaster.Core.Message
open NavCaster.Relay.Record
open NavCaster.Relay.Node
open NavCaster.Relay.Cluster
open NavCaster.Relay.Cluster.System
open NavCaster.Relay.Distribution

variable (cfg : Config) (n : String)

def execAll : List Command → System → System
  | [], s => s
  | c :: cs, s => execAll cs (s.perform cfg n c cs)

def replyAll : List Reply → System → System
  | [], s => s
  | r :: rs, s => replyAll rs (s.setNode n (callback n r { s.nodes n with replies := rs }))

def deliverAll : List RelayMsg → System → System
  | [], s => s
  | msg :: msgs, s =>
    deliverAll msgs (s.setNode n (relayTaskResponse n msg { s.nodes n with inbox := msgs }).2)

def flush (s : System) : System := execAll cfg n (s.nodes n).pubQueue s

def receive (s : System) : System := replyAll n (s.nodes n).replies s

def exchange (s : System) : System := receive n (flush cfg n s)

def distributing (s : System) : System :=
  flush cfg n <| exchange cfg n <| exchange cfg n <| exchange cfg n <|
    s.setNode n (timeoutCallback n (s.nodes n))

/-- One period of a node on its own: upload, synchronise, distribute, deliver all broadcasts. -/
def relayRound (s : System) : System :=
  let s' := distributing cfg n s
  flush cfg n (deliverAll n (s'.nodes n).inbox s')

def published (s : System) : List RelayMsg := ((distributing cfg n s).nodes n).inbox

variable {cfg n}

theorem execAll_reach {q : List Command} {s : System} (h : (s.nodes n).pubQueue = q) :
    (relayMachine cfg).Reachable s (execAll cfg n q s) := by
  induction q generalizing s with
  | nil => exact .refl
  | cons c q ih =>
    have hstep : (relayMachine cfg).step s (.exec n) = some (s.perform cfg n c q, []) := by
      change step cfg s (.exec n) = _
      rw [step, h]
    exact (Machine.Reach.refl.tail trivial hstep).trans (ih (if_pos rfl))

theorem replyAll_reach {rs : List Reply} {s : System} (h : (s.nodes n).replies = rs) :
    (relayMachine cfg).Reachable s (replyAll n rs s) := by
  induction rs generalizing s with
  | nil => exact .refl
  | cons r rs ih =>
    have hstep : (relayMachine cfg).step s (.reply n) =
        some (s.move n (callback n r { s.nodes n with replies := rs })) := by
      change step cfg s (.reply n) = _
      rw [step, h]
    refine (Machine.Reach.refl.tail trivial hstep).trans (ih ?_)
    rw [setNode_same, (callback_frame n r _).2.1]

theorem deliverAll_reach {msgs : List RelayMsg} {s : System} (h : (s.nodes n).inbox = msgs) :
    (relayMachine cfg).Reachable s (deliverAll n msgs s) := by
  induction msgs generalizing s with
  | nil => exact .refl
  | cons msg msgs ih =>
    have hstep : (relayMachine cfg).step s (.deliver n 0) =
        some (s.move n (relayTaskResponse n msg { s.nodes n with inbox := msgs }).2) := by
      change step cfg s (.deliver n 0) = _
      rw [step, h]
      rfl
    refine (Machine.Reach.refl.tail trivial hstep).trans (ih ?_)
    rw [setNode_same, (response_cases n msg _).frame.2.2.2]

theorem exchange_reach (s : System) : (relayMachine cfg).Reachable s (exchange cfg n s) :=
  (execAll_reach rfl).trans (replyAll_reach rfl)

theorem distributing_reach {s : System} (h : (s.nodes n).live = true) :
    (relayMachine cfg).Reachable s (distributing cfg n s) := by
  have htick :
      (relayMachine cfg).step s (.tick n) = some (s.move n (timeoutCallback n (s.nodes n))) := by
    change step cfg s (.tick n) = _
    rw [step, if_pos h]
  have h₀ : (relayMachine cfg).Reachable s (s.setNode n (timeoutCallback n (s.nodes n))) :=
    Machine.Reach.refl.tail trivial htick
  have h₁ := h₀.trans (exchange_reach (n := n) _)
  have h₂ := h₁.trans (exchange_reach (n := n) _)
  have h₃ := h₂.trans (exchange_reach (n := n) _)
  exact h₃.trans (execAll_reach rfl)

variable (cfg) in
theorem round_reach {s : System} (h : (s.nodes n).live = true) :
    (relayMachine cfg).Reachable s (relayRound cfg n s) := by
  have hd : (relayMachine cfg).Reachable s
      (deliverAll n ((distributing cfg n s).nodes n).inbox (distributing cfg n s)) :=
    (distributing_reach h).trans (deliverAll_reach rfl)
  exact hd.trans (execAll_reach rfl)

def executeAll (cfg : Config) : List Command → Store → Store × List Reply
  | [], st => (st, [])
  | c :: cs, st =>
    let (st', rs) := executeAll cfg cs (st.execute cfg c).1
    (st', (st.execute cfg c).2.toList ++ rs)

theorem executeAll_append (q l : List Command) (st : Store) : executeAll cfg (q ++ l) st =
    ((executeAll cfg l (executeAll cfg q st).1).1,
      (executeAll cfg q st).2 ++ (executeAll cfg l (executeAll cfg q st).1).2) := by
  induction q generalizing st with
  | nil => rfl
  | cons c q ih =>
    simp only [List.cons_append, executeAll, ih, List.append_assoc]

theorem execAll_store (q : List Command) (s : System) :
    (execAll cfg n q s).store = (executeAll cfg q s.store).1 := by
  induction q generalizing s with
  | nil => rfl
  | cons c q ih => exact ih _

theorem execAll_node {q : List Command} {s : System} (hl : (s.nodes n).live = true)
    (hq : (s.nodes n).pubQueue = q) : (execAll cfg n q s).nodes n = { s.nodes n with
      pubQueue := []
      replies := (s.nodes n).replies ++ (executeAll cfg q s.store).2
      inbox := (s.nodes n).inbox ++ q.flatMap (messagesTo n) } := by
  induction q generalizing s with
  | nil =>
    rw [execAll, executeAll, List.append_nil, List.flatMap_nil, List.append_nil, ← hq]
  | cons c q ih =>
    have hq' : ((s.perform cfg n c q).nodes n).pubQueue = q := if_pos rfl
    have hl' : ((s.perform cfg n c q).nodes n).live = true := hl
    rw [execAll, ih hl' hq']
    simp only [perform, if_true, hl, executeAll, List.append_assoc, List.flatMap_cons]

theorem flush_store (s : System) :
    (flush cfg n s).store = (executeAll cfg (s.nodes n).pubQueue s.store).1 := execAll_store _ s

variable (cfg) in
theorem flush_node {s : System} (hl : (s.nodes n).live = true) :
    (flush cfg n s).nodes n = { s.nodes n with
      pubQueue := []
      replies := (s.nodes n).replies ++ (executeAll cfg (s.nodes n).pubQueue s.store).2
      inbox := (s.nodes n).inbox ++ (s.nodes n).pubQueue.flatMap (messagesTo n) } :=
  execAll_node hl rfl

theorem callback_set_replies (r : Reply) (rs : List Reply) (x : RelayNode) :
    callback n r { x with replies := rs } = { callback n r x with replies := rs } := by
  cases r with
  | setMaster r => cases r <;> rfl
  | keepMaster renewed => cases renewed <;> rfl
  | syncList k entries => cases k <;> rfl
  | syncStat k entries => cases k <;> rfl
  | syncClusterNode => rfl

theorem replyAll_node {rs : List Reply} {s : System} (h : (s.nodes n).replies = rs) :
    (replyAll n rs s).nodes n =
      { rs.foldl (fun x r ↦ callback n r x) (s.nodes n) with replies := [] } := by
  induction rs generalizing s with
  | nil => rw [replyAll, List.foldl_nil, ← h]
  | cons r rs ih =>
    have hset : ∀ (l : List Reply) (x : RelayNode),
        { rs.foldl (fun x r ↦ callback n r x) { x with replies := l } with replies := [] } =
          { rs.foldl (fun x r ↦ callback n r x) x with replies := [] } := by
      clear ih h
      induction rs with
      | nil => exact fun _ _ ↦ rfl
      | cons r' rs ih => exact fun l x ↦ by rw [List.foldl_cons, callback_set_replies, ih]; rfl
    rw [replyAll, ih (by rw [setNode_same, (callback_frame n r _).2.1]), setNode_same,
      callback_set_replies, hset, List.foldl_cons]

theorem replyAll_store (rs : List Reply) (s : System) : (replyAll n rs s).store = s.store := by
  induction rs generalizing s with
  | nil => rfl
  | cons r rs ih => exact ih _

structure At (n : String) (s : System) (st : Store) (T : RelayKind → RelayTables)
    (q : List Command) : Prop where
  live : (s.nodes n).live = true
  replies : (s.nodes n).replies = []
  inbox : (s.nodes n).inbox = []
  store : s.store = st
  tables : (s.nodes n).tables = T
  queue : (s.nodes n).pubQueue = q

theorem at_exchange {s : System} {st st' : Store} {T T' : RelayKind → RelayTables}
    {q q' : List Command} {rs : List Reply} (h : At n s st T q)
    (hq : q.flatMap (messagesTo n) = []) (hexec : executeAll cfg q st = (st', rs))
    (ht : ∀ x : RelayNode, x.tables = T → (rs.foldl (fun x r ↦ callback n r x) x).tables = T')
    (hq' : ∀ x : RelayNode, x.tables = T → x.pubQueue = [] →
      (rs.foldl (fun x r ↦ callback n r x) x).pubQueue = q') :
    At n (exchange cfg n s) st' T' q' := by
  have hnode : (flush cfg n s).nodes n = { s.nodes n with pubQueue := [], replies := rs } := by
    rw [flush_node cfg h.live, h.queue, h.store, hexec, hq, h.replies, List.nil_append,
      List.append_nil]
  have hframe : ∀ (rs : List Reply) (x : RelayNode),
      (rs.foldl (fun x r ↦ callback n r x) x).live = x.live ∧
        (rs.foldl (fun x r ↦ callback n r x) x).inbox = x.inbox := by
    intro rs
    induction rs with
    | nil => exact fun x ↦ ⟨rfl, rfl⟩
    | cons r rs ih =>
      intro x
      have hf := callback_frame n r x
      exact ⟨(ih _).1.trans hf.1, (ih _).2.trans hf.2.2⟩
  have hrec : (exchange cfg n s).nodes n =
      { rs.foldl (fun x r ↦ callback n r x) { s.nodes n with pubQueue := [], replies := rs } with
        replies := [] } := by
    have hr : ((flush cfg n s).nodes n).replies = rs := by rw [hnode]
    rw [exchange, receive, hr, replyAll_node hr, hnode]
  refine ⟨?_, ?_, ?_, ?_, ?_, ?_⟩
  · rw [hrec]; exact (hframe rs _).1.trans h.live
  · rw [hrec]
  · rw [hrec]; exact (hframe rs _).2.trans h.inbox
  · rw [exchange, receive, replyAll_store, flush_store, h.queue, h.store, hexec]
  · rw [hrec]; exact ht _ h.tables
  · rw [hrec]; exact hq' _ h.tables rfl

def uploaded (cfg : Config) (T : RelayKind → RelayTables) (st : Store) : Store :=
  (executeAll cfg (statusUploads .pull (T .pull) ++ statusUploads .push (T .push)) st).1

def synced (st : Store) (T : RelayKind → RelayTables) (k : RelayKind) : RelayTables :=
  { T k with
    recordMap := listRecords (Table.toPairs (st.records k))
    statusMap := (listStatuses (st.statusEntries k)).1
    connectionCount := (listStatuses (st.statusEntries k)).2 }

def distributed (st : Store) (T : RelayKind → RelayTables) (k : RelayKind) : RelayTables :=
  { synced st T k with recordDistributed := (distribute k (synced st T k)).1 }

variable (cfg) in
theorem executeAll_upload (k : RelayKind) (l : List (String × RelayStatus)) (st : Store) :
    (executeAll cfg (l.map fun e ↦ .hsetexStat k e.1 e.2) st).2 = [] ∧
      (executeAll cfg (l.map fun e ↦ .hsetexStat k e.1 e.2) st).1.master = st.master := by
  induction l generalizing st with
  | nil => exact ⟨rfl, rfl⟩
  | cons e l ih => exact ih _

variable (cfg) in
theorem executeAll_uploads (T : RelayKind → RelayTables) (st : Store) :
    (executeAll cfg (statusUploads .pull (T .pull) ++ statusUploads .push (T .push)) st).2 = [] ∧
      (uploaded cfg T st).master = st.master := by
  rw [uploaded, executeAll_append]
  have hpull := executeAll_upload cfg .pull (Table.toPairs (T .pull).statusMap) st
  have hpush := executeAll_upload cfg .push (Table.toPairs (T .push).statusMap)
    (executeAll cfg (statusUploads .pull (T .pull)) st).1
  exact ⟨List.append_eq_nil_iff.mpr ⟨hpull.1, hpush.1⟩, hpush.2.trans hpull.2⟩

def renewed (cfg : Config) (n : String) (st : Store) : Store :=
  { st with master := some (n, st.now + cfg.masterExpireTime) }

structure Ready (n : String) (s : System) : Prop where
  live : (s.nodes n).live = true
  queue : (s.nodes n).pubQueue = []
  replies : (s.nodes n).replies = []
  inbox : (s.nodes n).inbox = []
  master : s.store.masterId = some n

theorem at_tick {s : System} (h : Ready n s) :
    At n (s.setNode n (timeoutCallback n (s.nodes n))) s.store (s.nodes n).tables
      (statusUploads .pull ((s.nodes n).tables .pull) ++
        statusUploads .push ((s.nodes n).tables .push) ++
        [.setMasterNx n, .getMaster, .hgetallStat .pull, .hgetallStat .push]) where
  live := by rw [setNode_same]; exact h.live
  replies := by rw [setNode_same]; exact h.replies
  inbox := by rw [setNode_same]; exact h.inbox
  store := rfl
  tables := by rw [setNode_same]; rfl
  queue := by rw [setNode_same, timeoutCallback_pubQueue, h.queue, List.nil_append]

theorem queue_no_messages {T : RelayKind → RelayTables} {cs : List Command}
    (hcs : cs.flatMap (messagesTo n) = []) :
    (statusUploads .pull (T .pull) ++ statusUploads .push (T .push) ++ cs).flatMap (messagesTo n) =
      [] := by
  rw [List.flatMap_append, hcs, List.append_nil, List.flatMap_eq_nil_iff]
  intro c hc
  have hup : ∀ k, c ∈ statusUploads k (T k) → messagesTo n c = [] := by
    intro k hc
    obtain ⟨e, _, rfl⟩ := List.mem_map.mp hc
    rfl
  exact (List.mem_append.mp hc).elim (hup .pull) (hup .push)

variable (cfg) in
theorem at_first {s : System} {st : Store} {T : RelayKind → RelayTables}
    (h : At n s st T (statusUploads .pull (T .pull) ++ statusUploads .push (T .push) ++
      [.setMasterNx n, .getMaster, .hgetallStat .pull, .hgetallStat .push]))
    (hm : st.masterId = some n) : ∃ T', (∀ st' k, synced st' T' k = synced st' T k) ∧
      At n (exchange cfg n s) (uploaded cfg T st) T' [.setMasterIfEq n] := by
  obtain ⟨hrs, hmaster⟩ := executeAll_uploads cfg T st
  have hm' : (uploaded cfg T st).masterId = some n := by
    rw [Store.masterId, hmaster]
    exact hm
  have hnx : (uploaded cfg T st).execute cfg (.setMasterNx n) = (uploaded cfg T st, none) := by
    obtain ⟨e, he, _⟩ := Option.map_eq_some_iff.mp hm'
    simp only [Store.execute, he]
  have hexec : executeAll cfg (statusUploads .pull (T .pull) ++ statusUploads .push (T .push) ++
      [.setMasterNx n, .getMaster, .hgetallStat .pull, .hgetallStat .push]) st =
      (uploaded cfg T st,
        [.setMaster (some n), .syncStat .pull ((uploaded cfg T st).statusEntries .pull),
          .syncStat .push ((uploaded cfg T st).statusEntries .push)]) := by
    rw [executeAll_append, hrs, List.nil_append]
    change ((executeAll cfg _ (uploaded cfg T st)).1, (executeAll cfg _ (uploaded cfg T st)).2) = _
    simp only [executeAll, hnx]
    simp only [Store.execute, hm']
    rfl
  refine ⟨fun k ↦ { T k with
      statusMap := (listStatuses ((uploaded cfg T st).statusEntries k)).1
      connectionCount := (listStatuses ((uploaded cfg T st).statusEntries k)).2 }, fun st' k ↦ rfl,
    at_exchange h (queue_no_messages rfl) hexec (fun x hx ↦ ?_) fun x hx hq ↦ ?_⟩
  · funext k
    rw [List.foldl_cons, List.foldl_cons, List.foldl_cons, List.foldl_nil]
    cases k <;> simp only [callback_tables, hx, reduceCtorEq, if_true, if_false]
  · simp only [List.foldl_cons, List.foldl_nil, callback_pubQueue, issued, List.append_nil, hq,
      List.nil_append]

variable (cfg) in
theorem at_second {s : System} {st : Store} {T : RelayKind → RelayTables}
    (h : At n s st T [.setMasterIfEq n]) (hm : st.masterId = some n) :
    At n (exchange cfg n s) (renewed cfg n st) T
      [.hgetallRecord .pull, .hgetallRecord .push, .hgetallStat .pull, .hgetallStat .push,
        .hgetallNode] := by
  have hexec : executeAll cfg [.setMasterIfEq n] st = (renewed cfg n st, [.keepMaster true]) := by
    simp only [executeAll, Store.execute, hm, if_true, renewed]
    rfl
  refine at_exchange h rfl hexec (fun x hx ↦ hx) fun x _ hq ↦ ?_
  rw [List.foldl_cons, List.foldl_nil, callback_pubQueue, hq]
  rfl

variable (cfg) in
theorem at_third {s : System} {st : Store} {T : RelayKind → RelayTables}
    (h : At n s st T [.hgetallRecord .pull, .hgetallRecord .push, .hgetallStat .pull,
      .hgetallStat .push, .hgetallNode]) :
    At n (exchange cfg n s) st (distributed st T)
      ((distribute .pull (synced st T .pull)).2.map (.publishNode n) ++
        (distribute .push (synced st T .push)).2.map (.publishNode n)) := by
  have hread (x : RelayNode) (hx : x.tables = T) (k : RelayKind) :
      (callback n (.syncStat .push (st.statusEntries .push)) <|
        callback n (.syncStat .pull (st.statusEntries .pull)) <|
        callback n (.syncList .push (Table.toPairs (st.records .push))) <|
        callback n (.syncList .pull (Table.toPairs (st.records .pull))) x).tables k =
        synced st T k := by
    cases k <;> simp only [callback_tables, hx, synced, reduceCtorEq, if_true, if_false]
  have hexec : executeAll cfg [.hgetallRecord .pull, .hgetallRecord .push, .hgetallStat .pull,
      .hgetallStat .push,
      .hgetallNode] st = (st, [.syncList .pull (Table.toPairs (st.records .pull)),
        .syncList .push (Table.toPairs (st.records .push)),
        .syncStat .pull (st.statusEntries .pull), .syncStat .push (st.statusEntries .push),
        .syncClusterNode]) := rfl
  refine at_exchange h rfl hexec (fun x hx ↦ funext fun k ↦ ?_) fun x hx hq ↦ ?_
  · rw [List.foldl_cons, List.foldl_cons, List.foldl_cons, List.foldl_cons, List.foldl_cons,
      List.foldl_nil, callback_tables]
    dsimp only
    rw [hread x hx, distributed]
  · rw [List.foldl_cons, List.foldl_cons, List.foldl_cons, List.foldl_cons, List.foldl_cons,
      List.foldl_nil, callback_pubQueue, issued, hread x hx, hread x hx]
    simp only [callback_pubQueue, issued, List.append_nil, List.nil_append, hq]

theorem executeAll_publish (msgs : List RelayMsg) (st : Store) :
    executeAll cfg (msgs.map (.publishNode n)) st = (st, []) := by
  induction msgs with
  | nil => rfl
  | cons msg msgs ih => simp only [List.map_cons, executeAll, Store.execute, ih, Option.toList,
      List.append_nil]

theorem messagesTo_publish (msgs : List RelayMsg) :
    (msgs.map (.publishNode n)).flatMap (messagesTo n) = msgs := by
  induction msgs with
  | nil => rfl
  | cons msg msgs ih =>
    rw [List.map_cons, List.flatMap_cons, ih, messagesTo, if_pos rfl, List.singleton_append]

def syncedStore (cfg : Config) (n : String) (s : System) : Store :=
  renewed cfg n (uploaded cfg (s.nodes n).tables s.store)

def view (cfg : Config) (n : String) (s : System) : RelayKind → RelayTables :=
  synced (syncedStore cfg n s) (s.nodes n).tables

structure Distributed (cfg : Config) (n : String) (s s' : System) : Prop where
  live : (s'.nodes n).live = true
  queue : (s'.nodes n).pubQueue = []
  replies : (s'.nodes n).replies = []
  inbox : (s'.nodes n).inbox =
    (distribute .pull (view cfg n s .pull)).2 ++ (distribute .push (view cfg n s .push)).2
  store : s'.store = syncedStore cfg n s
  tables : (s'.nodes n).tables = distributed (syncedStore cfg n s) (s.nodes n).tables

variable (cfg) in
theorem distributing_spec {s : System} (h : Ready n s) :
    Distributed cfg n s (distributing cfg n s) := by
  obtain ⟨T, hT, h₁⟩ := at_first cfg (at_tick h) h.master
  have hm : (uploaded cfg (s.nodes n).tables s.store).masterId = some n := by
    rw [Store.masterId, (executeAll_uploads cfg _ _).2]
    exact h.master
  have h₃ := at_third cfg (at_second cfg h₁ hm)
  have hview : synced (syncedStore cfg n s) T = view cfg n s := funext (hT _)
  change At n _ (syncedStore cfg n s) (distributed (syncedStore cfg n s) T)
    ((distribute .pull (synced (syncedStore cfg n s) T .pull)).2.map _ ++
      (distribute .push (synced (syncedStore cfg n s) T .push)).2.map _) at h₃
  rw [hview, ← List.map_append] at h₃
  have hnode := flush_node cfg h₃.live
  rw [h₃.queue, executeAll_publish, messagesTo_publish, h₃.replies, h₃.inbox, List.nil_append,
    List.nil_append] at hnode
  have htables : distributed (syncedStore cfg n s) T =
      distributed (syncedStore cfg n s) (s.nodes n).tables := by
    funext k
    rw [distributed, distributed, hT]
  unfold distributing
  -- what led to the last state is told by `h₃` and `hnode`
  generalize exchange cfg n (exchange cfg n (exchange cfg n _)) = t at h₃ hnode ⊢
  refine ⟨?_, ?_, ?_, ?_, ?_, ?_⟩
  · rw [hnode]; exact h₃.live
  · rw [hnode]
  · rw [hnode]
  · rw [hnode]
  · rw [flush_store, h₃.queue, h₃.store, executeAll_publish]
  · rw [hnode]; exact h₃.tables.trans htables

end NavCaster.Relay.Round
