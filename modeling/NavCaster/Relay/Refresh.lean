import NavCaster.Relay.Status

namespace NavCaster.Relay.Refresh

open NavCaster.Library
open NavCaster.Core.Message
open NavCaster.Relay.Record
open NavCaster.Relay.Node
open NavCaster.Relay.Cluster
open NavCaster.Relay.Cluster.System
open NavCaster.Relay.Status

/-- A status synchronisation lists only tasks that the node itself runs. -/
def ListsOwn (x : RelayNode) : Option Reply → Prop
  | some (.syncStat k entries) => ∀ u ∈ (listStatuses entries).1.keys, u ∈ (x.tables k).objMap
  | _ => True

/-- The synchronisations of a node list its own tasks, and a task is started from a record that
names it. -/
def SyncsOwn (s : System) : Action → Prop
  | .reply n => ListsOwn (s.nodes n) (s.nodes n).replies.head?
  | .deliver n i => ∀ msg ∈ (s.nodes n).inbox[i]?, msg.operate = .active →
      msg.msgStr.toProto.map RelayProto.uid = some msg.target
  | _ => True

instance (x : RelayNode) : DecidablePred (ListsOwn x)
  | some (.syncStat k entries) =>
    inferInstanceAs (Decidable (∀ u ∈ (listStatuses entries).1.keys, u ∈ (x.tables k).objMap))
  | none | some (.setMaster _) | some (.keepMaster _) | some (.syncList _ _)
  | some .syncClusterNode => isTrue trivial

instance : ∀ (s : System) (a : Action), Decidable (SyncsOwn s a)
  | s, .reply n => inferInstanceAs (Decidable (ListsOwn (s.nodes n) _))
  | s, .deliver n i => inferInstanceAs (Decidable (∀ msg ∈ (s.nodes n).inbox[i]?, _ → _))
  | _, .start _ | _, .stop _ | _, .tick _ | _, .exec _ | _, .report _ _ _ _ _ | _, .http _ _
  | _, .httpExec _ | _, .advance _ => isTrue trivial

def HoldsOwn (s : System) : Prop :=
  ∀ n k u, u ∈ ((s.nodes n).tables k).statusMap → u ∈ ((s.nodes n).tables k).objMap

/-- Whatever happens next, a node renews the status of a task only if it runs the task. -/
def RefreshesOwn (cfg : Config) (s : System) : Prop :=
  ∀ a t es, (relayMachine cfg).step s a = some (t, es) →
    ∀ r ∈ es, r.uid ∈ ((s.nodes r.node).tables r.kind).objMap

theorem holdsOwn_response {self : String} {msg : RelayMsg} {n x : RelayNode}
    (hx : ResponseCase self msg n x)
    (h : ∀ k u, u ∈ (n.tables k).statusMap → u ∈ (n.tables k).objMap) (hm : KeyedMsg msg)
    (ha : msg.operate = .active → msg.msgStr.toProto.map RelayProto.uid = some msg.target)
    (k : RelayKind) (u : String) (hu : u ∈ (x.tables k).statusMap) : u ∈ (x.tables k).objMap := by
  cases hx with
  | ignored => exact h k u hu
  | started k' hk ho _ =>
    rw [RelayNode.setTables_tables] at hu ⊢
    split at hu
    · next hkk =>
      subst hkk
      obtain ⟨record, hp, hr⟩ := Option.map_eq_some_iff.mp (ha ho)
      rw [if_pos rfl, startedTables, processRelayOf_active ho, hp]
      rw [startedTables, AList.mem_insert] at hu
      exact mem_createObject.mpr (hu.imp (fun he ↦ he.trans hr.symm) (h k u))
    · next hkk => rw [if_neg hkk]; exact h k u hu
  | stopped k' hk ho _ =>
    rw [RelayNode.send_tables, RelayNode.setTables_tables] at hu ⊢
    split at hu
    · next hkk =>
      subst hkk
      obtain ⟨record, hp, hr⟩ := hm ho
      rw [if_pos rfl, stoppedTables, processRelayOf_inactive ho, hp]
      rw [stoppedTables, AList.mem_erase] at hu
      exact AList.mem_erase.mpr ⟨hr ▸ hu.1, h k u hu.2⟩
    · next hkk => rw [if_neg hkk]; exact h k u hu

theorem holdsOwn_step {cfg : Config} {s t : System} {a : Action} {es : List Refresh}
    (hk : Keyed s) (h : HoldsOwn s) (ha : SyncsOwn s a)
    (hs : (relayMachine cfg).step s a = some (t, es)) : HoldsOwn t := by
  intro m k u hu
  have hx := node_step hs m
  revert hx hu
  generalize t.nodes m = x
  intro hu hx
  cases hx with
  | same => exact h m k u hu
  | reset => exact absurd hu (AList.notMem_empty u)
  | tick => exact h m k u hu
  | exec n c cs _ => exact h m k u hu
  | reply r rs hr =>
    rw [callback_tables] at hu ⊢
    cases r with
    | syncStat k' entries =>
      dsimp only at hu ⊢
      split at hu
      · next hkk =>
        subst hkk
        rw [if_pos rfl]
        rw [SyncsOwn, hr] at ha
        exact ha u hu
      · next hkk => rw [if_neg hkk]; exact h m k u hu
    | syncList k' entries =>
      dsimp only at hu ⊢
      split at hu
      · next hkk => rw [if_pos hkk]; exact h m k u hu
      · next hkk => rw [if_neg hkk]; exact h m k u hu
    | _ => exact h m k u hu
  | deliver i msg x hm hx =>
    exact holdsOwn_response hx (h m) ((hk.node m).received msg (List.mem_of_getElem? hm))
      (ha msg hm) k u hu
  | report k' v c i _ =>
    rw [updateRelayInfo_objMap]
    exact h m k u (mem_statusMap_updateRelayInfo.mp hu)

theorem refresh_cases {cfg : Config} {s t : System} {a : Action} {es : List Refresh}
    (hs : (relayMachine cfg).step s a = some (t, es)) {r : Refresh} (hr : r ∈ es) :
    r.uid ∈ ((s.nodes r.node).tables r.kind).statusMap := by
  have hmove {n : String} {x : RelayNode} {cs : List Command}
      (h : r ∈ (s.move n x).2) (hq : x.pubQueue = (s.nodes n).pubQueue ++ cs) :
      ∃ c ∈ cs, refreshOf n c = some r := by
    rw [move, hq, List.drop_left] at h
    exact List.mem_filterMap.mp h
  have hof {n : String} {c : Command} (h : refreshOf n c = some r) :
      ∃ st, c = .hsetexStat r.kind r.uid st ∧ r.node = n := by
    unfold refreshOf at h
    split at h
    · cases h; exact ⟨_, rfl, rfl⟩
    · cases h
  cases step_cases hs with
  | tick n _ =>
    obtain ⟨c, hc, h⟩ := hmove hr (timeoutCallback_pubQueue n _)
    obtain ⟨st, rfl, rfl⟩ := hof h
    simp only [statusUploads, List.mem_append, List.mem_map, Prod.exists,
      Command.hsetexStat.injEq, List.mem_cons, List.not_mem_nil, reduceCtorEq, or_false] at hc
    rcases hc with ⟨u, _, hm, hk, hu, _⟩ | ⟨u, _, hm, hk, hu, _⟩ <;>
      exact hk ▸ hu ▸ Table.mem_of_lookup (Table.mem_toPairs.mp hm)
  | reply n r' rs _ =>
    obtain ⟨c, hc, h⟩ := hmove hr (callback_pubQueue n r' _)
    obtain ⟨st, rfl, rfl⟩ := hof h
    exact absurd hc hsetexStat_issued
  | deliver n i msg _ =>
    obtain he | ⟨k, he⟩ := (response_cases n msg
      { s.nodes n with inbox := (s.nodes n).inbox.eraseIdx i }).pubQueue
    · obtain ⟨c, hc, _⟩ := hmove hr (by rw [he, List.append_nil])
      cases hc
    · obtain ⟨c, hc, h⟩ := hmove hr he
      obtain ⟨st, rfl, rfl⟩ := hof h
      simp at hc
  | report n k u c i _ =>
    cases hu : ((s.nodes n).tables k).statusMap.lookup u with
    | none =>
      rw [updateRelayInfo_none hu] at hr
      obtain ⟨c, hc, _⟩ := hmove hr (List.append_nil _).symm
      cases hc
    | some st =>
      rw [updateRelayInfo_some hu] at hr
      obtain ⟨c, hc, h⟩ := hmove hr rfl
      obtain ⟨st', rfl, rfl⟩ := hof h
      cases List.mem_singleton.mp hc
      exact Table.mem_of_lookup hu
  | _ => cases hr

/-- No status field outlives the last upload by more than the expiry time. -/
def Bounded (cfg : Config) (st : Store) : Prop :=
  ∀ k u e, (st.status k).lookup u = some e → e.2 ≤ st.now + cfg.keyExpireTime

def NotRun (k : RelayKind) (u : String) (s : System) : Prop :=
  ∀ n, u ∉ ((s.nodes n).tables k).objMap

def NotQueued (k : RelayKind) (u : String) (s : System) : Prop :=
  ∀ n st, Command.hsetexStat k u st ∉ (s.nodes n).pubQueue

theorem time_step {cfg : Config} {s t : System} {a : Action} {es : List Refresh}
    (hs : (relayMachine cfg).step s a = some (t, es)) : t.store.now = s.store.now ∨
      s.store.now ≤ t.store.now ∧
        ∀ k u e, (t.store.status k).lookup u = some e → t.store.now < e.2 := by
  cases step_cases hs with
  | exec n c cs _ => exact .inl (Store.execute_now cfg c s.store)
  | http k req =>
    obtain ⟨m, hm⟩ := handleHttp_store k req s.store
    have ht : (handleHttp k req s.store).1.now = s.store.now := by rw [hm]; rfl
    exact .inl ht
  | httpExec i c _ => cases c <;> exact .inl rfl
  | advance d => exact .inr ⟨Nat.le_add_right .., fun k u e h ↦ (Store.lookup_advance.mp h).2⟩
  | _ => exact .inl rfl

theorem time_mono {cfg : Config} {s t : System} {a : Action} {es : List Refresh}
    (hs : (relayMachine cfg).step s a = some (t, es)) : s.store.now ≤ t.store.now := by
  obtain h | h := time_step hs
  · exact Nat.le_of_eq h.symm
  · exact h.1

theorem bounded_step {cfg : Config} {s t : System} {a : Action} {es : List Refresh}
    (h : Bounded cfg s.store) (hs : (relayMachine cfg).step s a = some (t, es)) :
    Bounded cfg t.store := by
  intro k u e he
  have hm := time_mono hs
  obtain he | ⟨_, _, _, rfl⟩ := lookup_status_step hs he
  · exact Nat.le_trans (h k u e he) (Nat.add_le_add_right hm _)
  · exact Nat.add_le_add_right hm _

theorem bounded_empty (cfg : Config) : Bounded cfg {} := fun _ _ _ h ↦ by cases h

theorem hsetexStat_step {cfg : Config} {s : System} {m u : String} {a : Action} {x : RelayNode}
    {k : RelayKind} {st : RelayStatus} (hx : NodeCase cfg s m a x)
    (h : Command.hsetexStat k u st ∈ x.pubQueue) :
    Command.hsetexStat k u st ∈ (s.nodes m).pubQueue ∨
      u ∈ ((s.nodes m).tables k).statusMap := by
  cases hx with
  | same => exact .inl h
  | reset => cases h
  | tick => exact (hsetexStat_tick h).imp id Table.mem_of_lookup
  | exec n c cs hq =>
    simp only [perform] at h
    split at h
    · next he => subst he; exact .inl (hq ▸ .tail c h)
    · exact .inl h
  | reply r rs _ =>
    rw [callback_pubQueue] at h
    exact .inl ((List.mem_append.mp h).resolve_right hsetexStat_issued)
  | deliver i msg x _ hx =>
    obtain he | ⟨k', he⟩ := hx.pubQueue
    · exact .inl (he ▸ h)
    · rw [he] at h
      exact .inl ((List.mem_append.mp h).resolve_right (by simp))
  | report k' v c i _ =>
    cases hv : ((s.nodes m).tables k').statusMap.lookup v with
    | none => rw [updateRelayInfo_none hv] at h; exact .inl h
    | some st' =>
      rw [updateRelayInfo_some hv] at h
      rcases List.mem_append.mp h with h | h
      · exact .inl h
      · cases List.mem_singleton.mp h
        exact .inr (Table.mem_of_lookup hv)

theorem notQueued_step {cfg : Config} {s t : System} {a : Action} {es : List Refresh}
    {k : RelayKind} {u : String} (h : NotQueued k u s) (ho : HoldsOwn s) (hn : NotRun k u s)
    (hs : (relayMachine cfg).step s a = some (t, es)) : NotQueued k u t := by
  intro m st hq
  obtain hq | hu := hsetexStat_step (node_step hs m) hq
  · exact h m st hq
  · exact hn m (ho m k u hu)

/-- The field of a task that nobody uploads any more is as it was when time was `now`, and goes
when its deadline comes. -/
structure Fading (k : RelayKind) (u : String) (now deadline : Nat) (s : System) : Prop where
  notQueued : NotQueued k u s
  now_le : now ≤ s.store.now
  field : ∀ e, (s.store.status k).lookup u = some e →
    e.2 ≤ deadline ∧ (now < s.store.now → s.store.now < e.2)

theorem fading_step {cfg : Config} {s t : System} {a : Action} {es : List Refresh} {k : RelayKind}
    {u : String} {now deadline : Nat} (h : Fading k u now deadline s) (ho : HoldsOwn s)
    (hn : NotRun k u s) (hs : (relayMachine cfg).step s a = some (t, es)) :
    Fading k u now deadline t where
  notQueued := notQueued_step h.notQueued ho hn hs
  now_le := Nat.le_trans h.now_le (time_mono hs)
  field e he := by
    obtain hold | ⟨n, st, hq, _⟩ := lookup_status_step hs he
    · refine ⟨(h.field e hold).1, fun hlt ↦ ?_⟩
      obtain heq | hnew := time_step hs
      · rw [heq] at hlt ⊢
        exact (h.field e hold).2 hlt
      · exact hnew.2 k u e he
    · exact absurd hq (h.notQueued n st)

/-- In every run in which the synchronisations of a node list only its own tasks, a node renews the
status of a task only if it runs the task, and a field that nobody runs is gone when the expiry
time has passed. -/
theorem refresh_own (cfg : Config) {s t : System} (hs : s.Offline) (hk : KeyedStore s.store)
    (hb : Bounded cfg s.store) (h : (relayMachine cfg).Reach SyncsOwn s t) :
    RefreshesOwn cfg t ∧ ∀ k u, NotQueued k u t → ∀ t',
      (relayMachine cfg).Reach (fun s a ↦ SyncsOwn s a ∧ NotRun k u s) t t' →
        t.store.now + cfg.keyExpireTime ≤ t'.store.now → u ∉ t'.store.status k := by
  have hinv : Keyed t ∧ HoldsOwn t ∧ Bounded cfg t.store := by
    refine h.invariant (I := fun s ↦ Keyed s ∧ HoldsOwn s ∧ Bounded cfg s.store)
      ⟨keyed_offline hs hk, fun n k u hu ↦ ?_, hb⟩ fun _ _ _ _ hi ha hst ↦
        ⟨keyed_step hi.1 hst, holdsOwn_step hi.1 hi.2.1 ha hst, bounded_step hi.2.2 hst⟩
    rw [hs n] at hu
    exact absurd hu (AList.notMem_empty u)
  refine ⟨fun a t' es hst r hr ↦ hinv.2.1 _ _ _ (refresh_cases hst hr), ?_⟩
  intro k u hq t' h' hle hu
  have hfade : (Keyed t' ∧ HoldsOwn t') ∧
      Fading k u t.store.now (t.store.now + cfg.keyExpireTime) t' := by
    refine h'.invariant (I := fun s ↦ (Keyed s ∧ HoldsOwn s) ∧
        Fading k u t.store.now (t.store.now + cfg.keyExpireTime) s)
      ⟨⟨hinv.1, hinv.2.1⟩, hq, le_rfl,
        fun e he ↦ ⟨hinv.2.2 k u e he, fun hlt ↦ absurd hlt (Nat.lt_irrefl _)⟩⟩
      fun _ _ _ _ hi ha hst ↦ ⟨⟨keyed_step hi.1.1 hst, holdsOwn_step hi.1.1 hi.1.2 ha.1 hst⟩,
        fading_step hi.2 hi.1.2 ha.2 hst⟩
  obtain ⟨e, he⟩ := Table.mem_iff_lookup.mp hu
  have hpos := cfg.keyExpireTime_pos
  have hfield := hfade.2.field e he
  have hlt := hfield.2 (by omega)
  omega

def solo : List Action :=
  [.http .pull (.create (.object (.value "u") .absent (some {}) "")), .start "A"] ++
    period "A" 0 ++ [.exec "A", .deliver "A" 0] ++ period "A" 1 ++ [.stop "A"]

theorem refresh_own_solo : ∃ t t', (relayMachine defaultConfig).Reach SyncsOwn {} t ∧
    "u" ∈ t.store.status .pull ∧
      (relayMachine defaultConfig).step t (.advance 30) = some (t', []) ∧
        "u" ∉ t'.store.status .pull := by
  have hok : (relayMachine defaultConfig).Meets
      (fun s a ↦ SyncsOwn s a ∧ StartsOnly "A" a) {} solo := by decide +kernel
  obtain ⟨t, ht, hv⟩ := Machine.exists_reach (fun t : System ↦
    (decide ("u" ∈ t.store.status .pull), (t.nodes "A").live)) (v := (true, false)) hok
    (by decide +kernel)
  obtain ⟨hu, hl⟩ := Prod.mk.inj hv
  have hinv : Quiet t ∧ Only "A" t := ht.invariant (I := fun s ↦ Quiet s ∧ Only "A" s)
    ⟨fun _ _ ↦ rfl, fun _ _ ↦ rfl⟩ fun _ _ _ _ hi ha hst ↦
      ⟨quiet_step hi.1 hst, only_step hi.2 ha.2 hst⟩
  have hnode (n : String) : t.nodes n = {} := by
    by_cases h : n = "A"
    · exact hinv.1 n (h ▸ hl)
    · exact hinv.2 n h
  have hr := ht.mono fun _ _ h ↦ h.1
  have hnq : NotQueued .pull "u" t := fun n st h ↦ by rw [hnode n] at h; cases h
  have hnr : NotRun .pull "u" t := fun n h ↦ by rw [hnode n] at h; exact AList.notMem_empty _ h
  have hgone :=
    (refresh_own defaultConfig (fun _ ↦ rfl) keyedStore_empty (bounded_empty _) hr).2 .pull "u" hnq
    { t with store := t.store.advance 30 }
    (Machine.Reach.refl.tail (a := .advance 30) ⟨trivial, hnr⟩ rfl) (Nat.le_refl _)
  exact ⟨t, _, hr, of_decide_eq_true hu, rfl, hgone⟩

def sharing : List Action :=
  [.http .pull (.create (.object (.value "u") .absent (some {}) "")), .start "A", .start "B"] ++
    period "A" 0 ++ [.exec "A", .deliver "A" 0, .tick "A", .exec "A", .tick "B"] ++
    execs "B" 4 ++ replies "B" 3

theorem not_refresh_own : ¬ ∀ s t, s.Offline → KeyedStore s.store → Bounded defaultConfig s.store →
    (relayMachine defaultConfig).Reachable s t → RefreshesOwn defaultConfig t := by
  intro h
  let view : System → Option (List Refresh) × Bool := fun t ↦
    (((relayMachine defaultConfig).step t (.tick "B")).map Prod.snd,
      decide ("u" ∈ ((t.nodes "B").tables .pull).objMap))
  have hobs : ((relayMachine defaultConfig).exec {} sharing).map (fun p ↦ view p.1) =
      some (some [⟨"B", .pull, "u"⟩], false) := by decide +kernel
  obtain ⟨t, ht, hv⟩ :=
    Machine.exists_reach view (Machine.meets_of_forall (fun _ _ _ ↦ trivial) _) hobs
  obtain ⟨hstep, hB⟩ := Prod.mk.inj hv
  obtain ⟨p, hp, hes⟩ := Option.map_eq_some_iff.mp hstep
  have hown :=
    h {} t (fun _ ↦ rfl) keyedStore_empty (bounded_empty _) ht _ p.1 p.2 hp ⟨"B", .pull, "u"⟩
    (hes ▸ List.mem_cons_self ..)
  exact of_decide_eq_false hB hown

end NavCaster.Relay.Refresh
