import NavCaster.Relay.Round

namespace NavCaster.Relay.Reconcile

open NavCaster.Library
open NavCaster.Core.Message
open NavCaster.Relay.Record
open NavCaster.Relay.Node
open NavCaster.Relay.Cluster
open NavCaster.Relay.Cluster.System
open NavCaster.Relay.Distribution
open NavCaster.Relay.Round

variable {cfg : Config} {n : String}

abbrev Key := RelayKind × String

def stored (st : Store) (a : Key) : Option RelayStatus :=
  ((st.status a.1).lookup a.2).bind fun e ↦ e.1.parse

theorem lookup_listRecords (st : Store) (k : RelayKind) (f : String) :
    (listRecords (Table.toPairs (st.records k))).lookup f =
      ((st.records k).lookup f).map fun j ↦ ⟨f, j⟩ := by
  have hlocal : Local (fun _ : String × RecordText ↦ True)
      (fun m f ↦ AList.lookup f m) (fun (m : Table String RelayRecord) e ↦
        Table.insertNew m e.1 (RelayRecord.fromString ⟨e.1, .invalid ""⟩ e.2))
      fun e b ↦ some (b.getD ⟨e.1, e.2⟩) := by
    refine ⟨fun m e _ ↦ ?_, fun m e a _ ha ↦ ?_⟩
    · rw [Table.lookup_insertNew]
      by_cases he : e.1 ∈ m
      · obtain ⟨r, hr⟩ := Table.mem_iff_lookup.mp he
        simp [he, hr]
      · simp [he, AList.lookup_eq_none.mpr he, RelayRecord.fromString]
    · rw [Table.lookup_insertNew, if_neg fun h ↦ ha h.1]
  have h := hlocal.foldl_toPairs (st.records k) (fun _ _ ↦ trivial) ∅ f
  rw [listRecords, h]
  cases (st.records k).lookup f <;> rfl

theorem lookup_listStored (st : Store) (k : RelayKind) (f : String) :
    (listStatuses (st.statusEntries k)).1.lookup f = stored st (k, f) := by
  have hmem : ∀ s, stored st (k, f) = some s ↔
      ∃ v, (f, v) ∈ st.statusEntries k ∧ v.parse = some s := by
    intro s
    simp only [stored, Option.bind_eq_some_iff, Store.mem_statusEntries, Prod.exists]
    exact ⟨fun ⟨v, dl, h, hp⟩ ↦ ⟨v, ⟨dl, h⟩, hp⟩, fun ⟨v, ⟨dl, h⟩, hp⟩ ↦ ⟨v, dl, h, hp⟩⟩
  cases hs : stored st (k, f) with
  | none =>
    by_contra hne
    obtain ⟨s, h⟩ := Option.ne_none_iff_exists'.mp hne
    rw [(hmem s).mpr (lookup_listStatuses h)] at hs
    cases hs
  | some s =>
    obtain ⟨v, hv, hp⟩ := (hmem s).mp hs
    obtain ⟨s', h'⟩ := Table.mem_iff_lookup.mp
      (mem_listStatuses.mpr ⟨v, hv, fun hn ↦ by rw [hp] at hn; cases hn⟩)
    rw [(hmem s').mpr (lookup_listStatuses h')] at hs
    exact h'.trans hs

theorem stored_upload (k : RelayKind) (t : Table String RelayStatus) (st : Store) (a : Key) :
    stored (executeAll cfg ((Table.toPairs t).map fun e ↦ .hsetexStat k e.1 e.2) st).1 a =
      if a.1 = k then (t.lookup a.2).or (stored st a) else stored st a := by
  let upload (st : Store) (e : String × RelayStatus) : Store :=
    (st.execute cfg (.hsetexStat k e.1 e.2)).1
  have hfold : ∀ (l : List (String × RelayStatus)) (st : Store),
      (executeAll cfg (l.map fun e ↦ .hsetexStat k e.1 e.2) st).1 = l.foldl upload st := by
    intro l
    induction l with
    | nil => exact fun st ↦ rfl
    | cons e l ih => exact fun st ↦ ih _
  have hstep : ∀ (st : Store) (e : String × RelayStatus) (a : Key), stored (upload st e) a =
      if a = (k, e.1) then some e.2 else stored st a := by
    intro st e a
    obtain ⟨k', f⟩ := a
    simp only [upload, stored, Store.execute, Store.setStatus_status, Prod.mk.injEq]
    by_cases hk : k' = k
    · subst hk
      by_cases hf : f = e.1
      · subst hf; simp [StatusText.parse]
      · simp [hf]
    · simp [hk]
  have hlocal : Local (fun _ : String × RelayStatus ↦ True) (fun st f ↦ stored st (k, f)) upload
      fun e _ ↦ some e.2 := by
    refine ⟨fun st e _ ↦ ?_, fun st e f _ hf ↦ ?_⟩
    · rw [hstep, if_pos rfl]
    · rw [hstep, if_neg fun h ↦ hf (congrArg Prod.snd h)]
  rw [hfold]
  split
  · next hk =>
    subst hk
    have h := hlocal.foldl_toPairs t (fun _ _ ↦ trivial) st a.2
    rw [h]
    cases t.lookup a.2 <;> rfl
  · next hk =>
    generalize Table.toPairs t = l
    induction l generalizing st with
    | nil => rfl
    | cons e l ih => rw [List.foldl_cons, ih, hstep, if_neg fun h ↦ hk (congrArg Prod.fst h)]

theorem stored_uploaded (T : RelayKind → RelayTables) (st : Store) (a : Key) :
    stored (uploaded cfg T st) a = ((T a.1).statusMap.lookup a.2).or (stored st a) := by
  rw [uploaded, executeAll_append, statusUploads, statusUploads, stored_upload, stored_upload]
  obtain ⟨k, f⟩ := a
  cases k <;> simp

theorem syncedStore_records (s : System) : (syncedStore cfg n s).records = s.store.records := by
  have hup : ∀ (k : RelayKind) (l : List (String × RelayStatus)) (st : Store),
      (executeAll cfg (l.map fun e ↦ .hsetexStat k e.1 e.2) st).1.records = st.records := by
    intro k l
    induction l with
    | nil => exact fun st ↦ rfl
    | cons e l ih => exact fun st ↦ ih _
  rw [syncedStore, renewed, uploaded, executeAll_append]
  exact (hup _ _ _).trans (hup _ _ _)

structure Cell where
  record : Option RecordText
  stored : Option RelayStatus
  status : Option RelayStatus
  distributed : Option RecordText
  object : Option ConnectInfo

def enabledText (st : Store) (a : Key) : Option RecordText :=
  ((st.records a.1).lookup a.2).filter fun j ↦ RelayRecord.isEnabled ⟨a.2, j⟩

def cellOf (n : String) (s : System) (a : Key) : Cell where
  record := enabledText s.store a
  stored := Reconcile.stored s.store a
  status := ((s.nodes n).tables a.1).statusMap.lookup a.2
  distributed := ((s.nodes n).tables a.1).recordDistributed.lookup a.2
  object := ((s.nodes n).tables a.1).objMap.lookup a.2

namespace Cell

def merged (c : Cell) : Option RelayStatus := c.status.or c.stored

def accepted (n f : String) : RelayStatus :=
  (({ uid := f } : RelayStatus).setNodeInfo n n).updateState "" 0

def started (k : RelayKind) (j : RecordText) : Option ConnectInfo :=
  j.toProto.map (connectInfo k .create)

/-- One period: start, stop, or leave alone. -/
def period (n : String) (a : Key) (c : Cell) : Cell :=
  match c.record, c.merged with
  | none, none => { c with stored := none, status := none }
  | none, some _ => { c with stored := none, status := none, distributed := none, object := none }
  | some j, none =>
    { c with stored := none, status := some (accepted n a.2), distributed := some j
             object := started a.1 j }
  | some j, some s =>
    if c.distributed = some j then { c with stored := some s, status := some s }
    else { c with stored := none, status := none, distributed := none, object := none }

end Cell

variable (cfg) in
theorem view_status (s : System) (k : RelayKind) (f : String) :
    (view cfg n s k).statusMap.lookup f = (cellOf n s (k, f)).merged := by
  change (listStatuses ((syncedStore cfg n s).statusEntries k)).1.lookup f = _
  rw [lookup_listStored]
  exact stored_uploaded _ _ _

theorem view_enabled (s : System) (k : RelayKind) (f : String) :
    enabledRecord (view cfg n s k) f =
      (cellOf n s (k, f)).record.map fun j ↦ (⟨f, j⟩ : RelayRecord) := by
  change ((listRecords (Table.toPairs ((syncedStore cfg n s).records k))).lookup f).filter _ =
    (((s.store.records k).lookup f).filter _).map _
  rw [lookup_listRecords, syncedStore_records, Option.filter_map]
  rfl

abbrev Held := Option RelayStatus × Option ConnectInfo

def held (x : RelayNode) (a : Key) : Held :=
  ((x.tables a.1).statusMap.lookup a.2, (x.tables a.1).objMap.lookup a.2)

def respond (n : String) (x : RelayNode) (e : Key × RelayMsg) : RelayNode :=
  (relayTaskResponse n e.2 x).2

def answer (n : String) (e : Key × RelayMsg) (b : Held) : Held :=
  match e.2.operate, b.1 with
  | .active, none =>
    (some (Cell.accepted n e.1.2), e.2.msgStr.toProto.map (connectInfo e.1.1 .create))
  | .inactive, some _ => (none, none)
  | _, _ => b

def withdrawal (e : Key × RelayMsg) (b : Held) : Option Command :=
  match e.2.operate, b.1 with
  | .inactive, some _ => some (.hdelStat e.1.1 e.1.2)
  | _, _ => none

structure Fits (e : Key × RelayMsg) : Prop where
  kind : relayKindOf e.2.type = some e.1.1
  target : e.2.target = e.1.2
  operate : e.2.operate = .active ∨ e.2.operate = .inactive
  proto : ∃ p, e.2.msgStr.toProto = some p ∧ p.uid = e.1.2

theorem held_started {e : Key × RelayMsg} (he : Fits e) (ho : e.2.operate = .active)
    (x : RelayNode) (a : Key) :
    held (x.setTables e.1.1 (startedTables e.1.1 n e.2 (x.tables e.1.1))) a =
      if a = e.1 then
        (some (Cell.accepted n e.1.2), e.2.msgStr.toProto.map (connectInfo e.1.1 .create))
      else held x a := by
  obtain ⟨p, hp, hu⟩ := he.proto
  obtain ⟨⟨k, f⟩, msg⟩ := e
  obtain ⟨k', f'⟩ := a
  have ht : msg.target = f := he.target
  subst ht
  simp only [held, RelayNode.setTables_tables, Prod.mk.injEq]
  by_cases hk : k' = k
  · subst hk
    have hc : (connectInfo k' .create p).connectKey = msg.target := hu
    simp only [if_true, startedTables, processRelayOf_active ho, hp, createObject, hc, true_and,
      Table.lookup_insert_if, Table.lookup_erase_if, Cell.accepted, Option.map_some]
    split <;> rfl
  · simp only [hk, false_and, if_false]

theorem held_stopped {e : Key × RelayMsg} (he : Fits e) (ho : e.2.operate = .inactive)
    (x : RelayNode) (cs : List Command) (a : Key) :
    held ((x.setTables e.1.1 (stoppedTables e.1.1 e.2 (x.tables e.1.1))).send cs) a =
      if a = e.1 then (none, none) else held x a := by
  obtain ⟨p, hp, hu⟩ := he.proto
  obtain ⟨⟨k, f⟩, msg⟩ := e
  obtain ⟨k', f'⟩ := a
  have ht : msg.target = f := he.target
  subst ht
  simp only [held, RelayNode.send_tables, RelayNode.setTables_tables, Prod.mk.injEq]
  by_cases hk : k' = k
  · subst hk
    simp only [if_true, stoppedTables, processRelayOf_inactive ho, hp, hu, true_and,
      Table.lookup_erase_if]
    split <;> rfl
  · simp only [hk, false_and, if_false]

theorem respond_local : Local Fits held (respond n) (answer n) := by
  have hcases : ∀ (x : RelayNode) (e : Key × RelayMsg) (a : Key), Fits e →
      held (respond n x e) a = if a = e.1 then answer n e (held x e.1) else held x a := by
    intro x e a he
    have hsame (h : answer n e (held x e.1) = held x e.1) :
        held x a = if a = e.1 then answer n e (held x e.1) else held x a := by
      split
      · next ha => rw [ha, h]
      · rfl
    rw [respond, relayTaskResponse_of_kind he.kind, he.target]
    cases hs : (x.tables e.1.1).statusMap.lookup e.1.2 with
    | none =>
      rcases he.operate with ho | ho
      · have hans : answer n e (held x e.1) = (some (Cell.accepted n e.1.2),
            e.2.msgStr.toProto.map (connectInfo e.1.1 .create)) := by
          simp only [answer, ho, held, hs]
        simp only [ho, hans]
        exact held_started he ho x a
      · simp only [ho]
        exact hsame (by simp only [answer, ho, held, hs])
    | some s =>
      rcases he.operate with ho | ho
      · simp only [ho]
        exact hsame (by simp only [answer, ho, held, hs])
      · have hans : answer n e (held x e.1) = (none, none) := by simp only [answer, ho, held, hs]
        simp only [ho, hans]
        exact held_stopped he ho x _ a
  exact ⟨fun x e he ↦ (hcases x e e.1 he).trans (if_pos rfl),
    fun x e a he ha ↦ (hcases x e a he).trans (if_neg ha)⟩

theorem respond_pubQueue {e : Key × RelayMsg} (he : Fits e) (x : RelayNode) :
    (respond n x e).pubQueue = x.pubQueue ++ (withdrawal e (held x e.1)).toList := by
  rw [respond, relayTaskResponse_of_kind he.kind, he.target]
  cases hs : (x.tables e.1.1).statusMap.lookup e.1.2 with
  | none => rcases he.operate with ho | ho <;> simp [ho, withdrawal, held, hs]
  | some s => rcases he.operate with ho | ho <;> simp [ho, withdrawal, held, hs]

def tasks (t : RelayKind → RelayTables) (k : RelayKind) : List (Key × RelayMsg) :=
  (taskOrder (t k)).filterMap fun f ↦ (task k (t k) f).map fun msg ↦ ((k, f), msg)

theorem tasks_msgs (t : RelayKind → RelayTables) (k : RelayKind) :
    (tasks t k).map Prod.snd = (distribute k (t k)).2 := by
  rw [distribute_msgs, tasks, List.map_filterMap]
  refine List.filterMap_congr fun f _ ↦ ?_
  cases task k (t k) f <;> rfl

theorem mem_tasks {t : RelayKind → RelayTables} {k : RelayKind} {e : Key × RelayMsg} :
    e ∈ tasks t k ↔ e.1.1 = k ∧ task k (t k) e.1.2 = some e.2 := by
  obtain ⟨⟨k', f⟩, msg⟩ := e
  simp only [tasks, List.mem_filterMap, Option.map_eq_some_iff, Prod.mk.injEq]
  constructor
  · rintro ⟨f', _, msg', h, ⟨rfl, rfl⟩, rfl⟩
    exact ⟨rfl, h⟩
  · rintro ⟨rfl, h⟩
    exact ⟨f, mem_taskOrder_of_task k' _ (by rw [h]; nofun), msg, h, ⟨rfl, rfl⟩, rfl⟩

theorem tasks_nodup (t : RelayKind → RelayTables) (k : RelayKind) :
    ((tasks t k).map Prod.fst).Nodup := by
  have hmap : (tasks t k).map Prod.fst =
      ((taskOrder (t k)).filter fun f ↦ (task k (t k) f).isSome).map (Prod.mk k) := by
    rw [tasks, List.map_filterMap, ← List.filterMap_eq_map, List.filterMap_filter]
    refine List.filterMap_congr fun f _ ↦ ?_
    cases task k (t k) f <;> rfl
  rw [hmap]
  exact ((taskOrder_nodup (t k)).filter _).map fun f g h ↦ congrArg Prod.snd h

def allTasks (t : RelayKind → RelayTables) : List (Key × RelayMsg) := tasks t .pull ++ tasks t .push

theorem mem_allTasks {t : RelayKind → RelayTables} {e : Key × RelayMsg} :
    e ∈ allTasks t ↔ task e.1.1 (t e.1.1) e.1.2 = some e.2 := by
  rw [allTasks, List.mem_append, mem_tasks, mem_tasks]
  obtain ⟨⟨k, f⟩, msg⟩ := e
  cases k <;> simp

theorem allTasks_nodup (t : RelayKind → RelayTables) : ((allTasks t).map Prod.fst).Nodup := by
  rw [allTasks, List.map_append]
  refine (tasks_nodup t .pull).append (tasks_nodup t .push) fun a ha hb ↦ ?_
  obtain ⟨e, he, rfl⟩ := List.mem_map.mp ha
  obtain ⟨e', he', h⟩ := List.mem_map.mp hb
  have hk : RelayKind.push = .pull :=
    (mem_tasks.mp he').1.symm.trans ((congrArg Prod.fst h).trans (mem_tasks.mp he).1)
  cases hk

def Cell.task (a : Key) (c : Cell) : Option RelayMsg :=
  match c.record, c.merged with
  | none, none => none
  | none, some s => some (taskMsg a.1 .inactive a.2 (.status s) a.1.inactiveReason)
  | some j, none => some (taskMsg a.1 .active a.2 (.record j) a.1.activeReason)
  | some j, some s =>
    if c.distributed = some j then none
    else some (taskMsg a.1 .inactive a.2 (.status s) a.1.changedReason)

theorem enabledText_spec {st : Store} {a : Key} {j : RecordText} (h : enabledText st a = some j) :
    (st.records a.1).lookup a.2 = some j ∧ RelayRecord.toString ⟨a.2, j⟩ = j ∧
      ∃ p, j.toProto = some p := by
  obtain ⟨hj, hen⟩ := Option.filter_eq_some_iff.mp h
  obtain ⟨hs, p, hp, _⟩ := RelayRecord.toProto_of_enabled hen
  exact ⟨hj, hs, p, hp⟩

theorem view_task (s : System) (a : Key) :
    task a.1 (view cfg n s a.1) a.2 = (cellOf n s a).task a := by
  obtain ⟨k, f⟩ := a
  have hd : (view cfg n s k).recordDistributed.lookup f = (cellOf n s (k, f)).distributed := rfl
  simp only [task, view_enabled, view_status, hd, Cell.task]
  cases hr : (cellOf n s (k, f)).record with
  | none => cases (cellOf n s (k, f)).merged <;> rfl
  | some j =>
    have hj : RelayRecord.toString ⟨f, j⟩ = j := (enabledText_spec hr).2.1
    cases (cellOf n s (k, f)).merged with
    | none => simp only [Option.map_some, hj]
    | some st => simp only [Option.map_some, hj]

structure Cell.Named (f : String) (c : Cell) : Prop where
  record : ∀ j p, c.record = some j → j.toProto = some p → p.uid = f
  merged : ∀ st, c.merged = some st → st.uid = f

theorem fits_of_task {s : System} {a : Key} {msg : RelayMsg} (h : (cellOf n s a).Named a.2)
    (ht : (cellOf n s a).task a = some msg) : Fits (a, msg) := by
  have hstop {st : RelayStatus} {reason : String} (hm : (cellOf n s a).merged = some st) :
      Fits (a, taskMsg a.1 .inactive a.2 (.status st) reason) :=
    ⟨relayKindOf_broadcastType a.1, rfl, .inr rfl, _, rfl, h.merged st hm⟩
  unfold Cell.task at ht
  split at ht
  · cases ht
  · next hm => cases ht; exact hstop hm
  · next j hr hm =>
    cases ht
    obtain ⟨p, hp⟩ := (enabledText_spec hr).2.2
    exact ⟨relayKindOf_broadcastType a.1, rfl, .inl rfl, p, hp, h.record j p hr hp⟩
  · next hm =>
    split at ht
    · cases ht
    · cases ht; exact hstop hm

theorem respond_set_inbox (e : Key × RelayMsg) (l : List RelayMsg) (x : RelayNode) (he : Fits e) :
    respond n { x with inbox := l } e = { respond n x e with inbox := l } := by
  rw [respond, respond, relayTaskResponse_of_kind he.kind, relayTaskResponse_of_kind he.kind]
  dsimp only
  cases (x.tables e.1.1).statusMap.lookup e.2.target with
  | none =>
    rcases he.operate with ho | ho
    · simp only [ho]; rfl
    · simp only [ho]
  | some s =>
    rcases he.operate with ho | ho
    · simp only [ho]
    · simp only [ho]; rfl

theorem deliverAll_node {L : List (Key × RelayMsg)} (hL : ∀ e ∈ L, Fits e) {s : System}
    (hi : (s.nodes n).inbox = L.map Prod.snd) :
    (deliverAll n (L.map Prod.snd) s).nodes n =
      { L.foldl (respond n) (s.nodes n) with inbox := [] } := by
  induction L generalizing s with
  | nil =>
    have hi' : (s.nodes n).inbox = [] := hi
    rw [List.map_nil, deliverAll, List.foldl_nil, ← hi']
  | cons e L ih =>
    have he := hL e (List.mem_cons_self ..)
    have hrest : ∀ e ∈ L, Fits e := fun e h ↦ hL e (.tail _ h)
    have hset : ∀ (l : List RelayMsg) (x : RelayNode),
        { L.foldl (respond n) { x with inbox := l } with inbox := [] } =
          { L.foldl (respond n) x with inbox := [] } := by
      clear ih hi hL
      induction L with
      | nil => exact fun l x ↦ rfl
      | cons e' L ih =>
        intro l x
        rw [List.foldl_cons, respond_set_inbox _ _ _ (hrest e' (List.mem_cons_self ..)),
          ih fun e h ↦ hrest e (.tail _ h)]
        rfl
    have hx := respond_set_inbox (n := n) e (L.map Prod.snd) (s.nodes n) he
    rw [List.map_cons, deliverAll, ih hrest ?_]
    · rw [setNode_same, List.foldl_cons]
      change { L.foldl (respond n) (respond n { s.nodes n with inbox := L.map Prod.snd } e) with
        inbox := [] } = _
      rw [hx, hset]
    · rw [setNode_same]
      exact congrArg RelayNode.inbox hx

theorem deliverAll_store (msgs : List RelayMsg) (s : System) :
    (deliverAll n msgs s).store = s.store := by
  induction msgs generalizing s with
  | nil => rfl
  | cons msg msgs ih => exact ih _

variable (cfg n) in
theorem executeAll_withdraw {q : List Command} (hq : ∀ c ∈ q, ∃ a : Key, c = .hdelStat a.1 a.2)
    (st : Store) : (executeAll cfg q st).2 = [] ∧ q.flatMap (messagesTo n) = [] ∧
      (executeAll cfg q st).1.now = st.now ∧ (executeAll cfg q st).1.master = st.master ∧
      (executeAll cfg q st).1.records = st.records ∧
      ∀ a : Key, stored (executeAll cfg q st).1 a =
        if .hdelStat a.1 a.2 ∈ q then none else stored st a := by
  induction q generalizing st with
  | nil => exact ⟨rfl, rfl, rfl, rfl, rfl, fun a ↦ rfl⟩
  | cons c q ih =>
    obtain ⟨⟨k, f⟩, rfl⟩ := hq c (List.mem_cons_self ..)
    obtain ⟨hr, hm, hnow, hmaster, hrec, hst⟩ := ih (fun c h ↦ hq c (.tail _ h))
      (st.execute cfg (.hdelStat k f)).1
    refine ⟨hr, hm, hnow, hmaster, hrec, fun a ↦ (hst a).trans ?_⟩
    simp only [List.mem_cons, Command.hdelStat.injEq, Store.execute, stored,
      Store.setStatus_status]
    by_cases ha : a.1 = k
    · by_cases hf : a.2 = f
      · subst hf; simp [ha]
      · simp [ha, hf, AList.lookup_erase_ne hf]
    · simp [ha]

theorem respond_frame (L : List (Key × RelayMsg)) (x : RelayNode) :
    (L.foldl (respond n) x).live = x.live ∧ (L.foldl (respond n) x).replies = x.replies ∧
      ∀ k, ((L.foldl (respond n) x).tables k).recordDistributed =
        (x.tables k).recordDistributed := by
  induction L generalizing x with
  | nil => exact ⟨rfl, rfl, fun k ↦ rfl⟩
  | cons e L ih =>
    obtain ⟨hl, hr, hd⟩ := ih (respond n x e)
    have hcase : ResponseCase n e.2 x (respond n x e) := response_cases n e.2 x
    obtain ⟨hl', _, hr', _⟩ := hcase.frame
    refine ⟨hl.trans hl', hr.trans hr', fun k ↦ (hd k).trans ?_⟩
    generalize respond n x e = y at hcase
    cases hcase with
    | ignored => rfl
    | started k' => rw [RelayNode.setTables_tables]; split <;> simp [*, startedTables]
    | stopped k' =>
      rw [RelayNode.send_tables, RelayNode.setTables_tables]; split <;> simp [*, stoppedTables]

theorem executeAll_now (q : List Command) (st : Store) : (executeAll cfg q st).1.now = st.now := by
  induction q generalizing st with
  | nil => rfl
  | cons c q ih => exact (ih _).trans (Store.execute_now cfg c st)

theorem syncedStore_now (s : System) : (syncedStore cfg n s).now = s.store.now := executeAll_now _ _

theorem held_answered {t : RelayKind → RelayTables} (hL : ∀ e ∈ allTasks t, Fits e) (x : RelayNode)
    (a : Key) : held ((allTasks t).foldl (respond n) x) a = match task a.1 (t a.1) a.2 with
      | none => held x a
      | some msg => answer n (a, msg) (held x a) := by
  cases ht : task a.1 (t a.1) a.2 with
  | none =>
    refine respond_local.foldl_other hL (fun hm ↦ ?_) x
    obtain ⟨e, he, rfl⟩ := List.mem_map.mp hm
    rw [mem_allTasks, ht] at he
    cases he
  | some msg =>
    exact respond_local.foldl_own hL (allTasks_nodup t) (mem_allTasks (e := (a, msg)).mpr ht) x

theorem withdrawal_eq_some {e : Key × RelayMsg} {b : Held} {c : Command} :
    withdrawal e b = some c ↔
      e.2.operate = .inactive ∧ b.1 ≠ none ∧ c = .hdelStat e.1.1 e.1.2 := by
  unfold withdrawal
  split
  · next ho hs => simp [ho, hs, eq_comm]
  · next hne =>
    refine iff_of_false nofun fun ⟨ho, hs, _⟩ ↦ ?_
    obtain ⟨s, hs⟩ := Option.ne_none_iff_exists'.mp hs
    exact hne s ho hs

/-- The state after a period, in terms of the state before. -/
structure RoundSpec (cfg : Config) (n : String) (s s' : System) : Prop where
  ready : Ready n s'
  now : s'.store.now = s.store.now
  master : s'.store.master = some (n, s.store.now + cfg.masterExpireTime)
  records : s'.store.records = s.store.records
  cell : ∀ a, cellOf n s' a = (cellOf n s a).period n a

variable (cfg) in
theorem round_spec {s : System} (h : Ready n s) (hn : ∀ a, (cellOf n s a).Named a.2) :
    RoundSpec cfg n s (relayRound cfg n s) := by
  have hd := distributing_spec cfg h
  have hL : ∀ e ∈ allTasks (view cfg n s), Fits e := fun e he ↦
    fits_of_task (hn e.1) ((view_task s e.1).symm.trans (mem_allTasks.mp he))
  have hinbox :
      ((distributing cfg n s).nodes n).inbox = (allTasks (view cfg n s)).map Prod.snd := by
    rw [hd.inbox, allTasks, List.map_append, tasks_msgs, tasks_msgs]
  obtain ⟨hlive, hreplies, hdist⟩ :=
    respond_frame (n := n) (allTasks (view cfg n s)) ((distributing cfg n s).nodes n)
  have hqueue :
      ((allTasks (view cfg n s)).foldl (respond n) ((distributing cfg n s).nodes n)).pubQueue =
      (allTasks (view cfg n s)).filterMap fun e ↦
        withdrawal e (held ((distributing cfg n s).nodes n) e.1) := by
    rw [(respond_local (n := n)).foldl_emit hL (fun x e he ↦ respond_pubQueue he x)
      (allTasks_nodup _), hd.queue, List.nil_append]
  have hheld := held_answered (n := n) hL ((distributing cfg n s).nodes n)
  have hbefore : ∀ a : Key, held ((distributing cfg n s).nodes n) a =
      ((cellOf n s a).merged, (cellOf n s a).object) := by
    intro a
    rw [held, hd.tables, ← view_status cfg]
    rfl
  generalize hx : (allTasks (view cfg n s)).foldl (respond n) ((distributing cfg n s).nodes n) = x
    at hlive hreplies hdist hqueue hheld
  have hq : ∀ c ∈ x.pubQueue, ∃ a : Key, c = .hdelStat a.1 a.2 := by
    intro c hc
    rw [hqueue] at hc
    obtain ⟨e, _, he⟩ := List.mem_filterMap.mp hc
    exact ⟨e.1, (withdrawal_eq_some.mp he).2.2⟩
  obtain ⟨hrs, hms, hnow, hmaster, hrec, hst⟩ :=
    executeAll_withdraw cfg n hq (syncedStore cfg n s)
  have hnode :
      (deliverAll n ((distributing cfg n s).nodes n).inbox (distributing cfg n s)).nodes n =
      { x with inbox := [] } := by
    rw [hinbox, deliverAll_node hL hinbox, hx]
  have hstore :
      (relayRound cfg n s).store = (executeAll cfg x.pubQueue (syncedStore cfg n s)).1 := by
    rw [relayRound, flush_store, hnode, deliverAll_store, hd.store]
  have hfinal : (relayRound cfg n s).nodes n = { x with pubQueue := [], inbox := [] } := by
    have hlive' : ((deliverAll n ((distributing cfg n s).nodes n).inbox
        (distributing cfg n s)).nodes n).live = true := by
      rw [hnode]
      exact hlive.trans hd.live
    rw [relayRound, flush_node cfg hlive', hnode, deliverAll_store, hd.store]
    simp only [hrs, hms, List.append_nil]
  have hmem : ∀ a : Key, .hdelStat a.1 a.2 ∈ x.pubQueue ↔
      ∃ msg, (cellOf n s a).task a = some msg ∧ msg.operate = .inactive ∧
        (cellOf n s a).merged ≠ none := by
    intro a
    rw [hqueue, List.mem_filterMap]
    constructor
    · rintro ⟨⟨⟨k, f⟩, msg⟩, he, hw⟩
      obtain ⟨ho, hb, hc⟩ := withdrawal_eq_some.mp hw
      obtain ⟨k', f'⟩ := a
      cases hc
      rw [mem_allTasks, view_task s (_, _)] at he
      rw [hbefore] at hb
      exact ⟨msg, he, ho, hb⟩
    · rintro ⟨msg, ht, ho, hm⟩
      refine ⟨(a, msg), mem_allTasks.mpr ((view_task s a).trans ht), ?_⟩
      rw [withdrawal_eq_some, hbefore]
      exact ⟨ho, hm, rfl⟩
  have hrecords : (relayRound cfg n s).store.records = s.store.records := by
    rw [hstore, hrec, syncedStore_records]
  refine ⟨⟨?_, ?_, ?_, ?_, ?_⟩, ?_, ?_, hrecords, fun a ↦ ?_⟩
  · rw [hfinal]; exact hlive.trans hd.live
  · rw [hfinal]
  · rw [hfinal]; exact hreplies.trans hd.replies
  · rw [hfinal]
  · rw [Store.masterId, hstore, hmaster]; rfl
  · rw [hstore, hnow, syncedStore_now]
  · rw [hstore, hmaster, syncedStore, renewed]
    exact congrArg (fun t ↦ some (n, t + cfg.masterExpireTime)) (executeAll_now _ _)
  · have hcell : cellOf n (relayRound cfg n s) a = {
        record := (cellOf n s a).record
        stored := if .hdelStat a.1 a.2 ∈ x.pubQueue then none else (cellOf n s a).merged
        status := (held x a).1
        distributed := (distribute a.1 (view cfg n s a.1)).1.lookup a.2
        object := (held x a).2 } := by
      have hs : stored (syncedStore cfg n s) a = (cellOf n s a).merged := stored_uploaded _ _ _
      rw [← hs, ← hst, ← hstore]
      rw [cellOf, enabledText, hrecords, hfinal]
      rw [hdist, hd.tables]
      rfl
    rw [hcell, hheld, hbefore, distribute_lookup, view_task, view_enabled]
    have hd' : (view cfg n s a.1).recordDistributed.lookup a.2 = (cellOf n s a).distributed := rfl
    have hj : ∀ j, (cellOf n s a).record = some j → RelayRecord.toString ⟨a.2, j⟩ = j :=
      fun j h ↦ (enabledText_spec h).2.1
    rw [hd']
    simp only [hmem]
    generalize cellOf n s a = c at hj ⊢
    unfold Cell.task Cell.period
    cases hr : c.record with
    | none => cases hm : c.merged <;> simp [answer, taskMsg]
    | some j =>
      cases hm : c.merged with
      | none => simp [answer, taskMsg, hj j hr, RelayText.toProto, Cell.started]
      | some st => by_cases hdist : c.distributed = some j <;> simp [answer, taskMsg, hdist]

theorem published_eq_nil {s : System} (h : Ready n s) :
    published cfg n s = [] ↔ ∀ a, (cellOf n s a).task a = none := by
  rw [published, (distributing_spec cfg h).inbox, ← tasks_msgs, ← tasks_msgs, ← List.map_append,
    List.map_eq_nil_iff]
  change allTasks (view cfg n s) = [] ↔ _
  rw [List.eq_nil_iff_forall_not_mem]
  constructor
  · intro hnil a
    by_contra hne
    obtain ⟨msg, ht⟩ := Option.ne_none_iff_exists'.mp hne
    exact hnil (a, msg) (mem_allTasks.mpr ((view_task s a).trans ht))
  · intro hnone e he
    rw [mem_allTasks, view_task, hnone] at he
    cases he

end NavCaster.Relay.Reconcile
