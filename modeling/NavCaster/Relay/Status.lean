import NavCaster.Relay.Cluster
import NavCaster.Relay.Distribution

namespace NavCaster.Relay.Status

open NavCaster.Library
open NavCaster.Core.Message
open NavCaster.Relay.Record
open NavCaster.Relay.Node
open NavCaster.Relay.Cluster
open NavCaster.Relay.Cluster.System
open NavCaster.Relay.Distribution

def KeyedMsg (msg : RelayMsg) : Prop :=
  msg.operate = .inactive → ∃ record, msg.msgStr.toProto = some record ∧ record.uid = msg.target

structure KeyedNode (x : RelayNode) : Prop where
  statuses : ∀ k u st, (x.tables k).statusMap.lookup u = some st → st.uid = u
  uploads : ∀ k u st, Command.hsetexStat k u st ∈ x.pubQueue → st.uid = u
  published : ∀ nodeId msg, Command.publishNode nodeId msg ∈ x.pubQueue → KeyedMsg msg
  received : ∀ msg ∈ x.inbox, KeyedMsg msg
  listed : ∀ k entries, Reply.syncStat k entries ∈ x.replies →
    ∀ u v st, (u, v) ∈ entries → v.parse = some st → st.uid = u

def KeyedStore (st : Store) : Prop :=
  ∀ k u v dl s, (st.status k).lookup u = some (v, dl) → v.parse = some s → s.uid = u

structure Keyed (s : System) : Prop where
  store : KeyedStore s.store
  node : ∀ n, KeyedNode (s.nodes n)

theorem keyedNode_empty (b : Bool) : KeyedNode { live := b } where
  statuses _ _ _ h := by cases h
  uploads _ _ _ h := by cases h
  published _ _ h := by cases h
  received _ h := by cases h
  listed _ _ h := by cases h

theorem keyedStore_empty : KeyedStore {} := fun _ _ _ _ _ h ↦ by cases h

theorem keyed_offline {s : System} (h : s.Offline) (hs : KeyedStore s.store) : Keyed s :=
  ⟨hs, fun n ↦ by rw [h n]; exact keyedNode_empty false⟩

theorem keyedMsg_task {k : RelayKind} {t : RelayTables} {f : String} {msg : RelayMsg}
    (ht : ∀ u st, t.statusMap.lookup u = some st → st.uid = u) (h : task k t f = some msg) :
    KeyedMsg msg := by
  unfold task at h
  cases hs : t.statusMap.lookup f with
  | none =>
    rw [hs] at h
    cases hr : enabledRecord t f with
    | none => rw [hr] at h; cases h
    | some r => rw [hr] at h; cases h; exact fun ho ↦ by cases ho
  | some st =>
    rw [hs] at h
    have hst : ∀ reason, KeyedMsg (taskMsg k .inactive f (.status st) reason) :=
      fun _ _ ↦ ⟨_, rfl, ht f st hs⟩
    cases hr : enabledRecord t f with
    | none => rw [hr] at h; cases h; exact hst _
    | some r =>
      rw [hr] at h
      dsimp only at h
      split at h
      · cases h
      · cases h; exact hst _

theorem keyedMsg_issued {self nodeId : String} {n : RelayNode} {r : Reply} {msg : RelayMsg}
    (hn : KeyedNode n) (h : Command.publishNode nodeId msg ∈ issued self n r) : KeyedMsg msg := by
  have hof (k : RelayKind) (h : Command.publishNode nodeId msg ∈
      (distribute k (n.tables k)).2.map (.publishNode self)) : KeyedMsg msg := by
    obtain ⟨msg', hm, he⟩ := List.mem_map.mp h
    cases he
    rw [distribute_msgs] at hm
    obtain ⟨f, _, hf⟩ := List.mem_filterMap.mp hm
    exact keyedMsg_task (hn.statuses k) hf
  cases r with
  | syncClusterNode => exact (List.mem_append.mp h).elim (hof .pull) (hof .push)
  | keepMaster renewed => cases renewed <;> simp [issued] at h
  | _ => simp [issued] at h

theorem hsetexStat_issued {self u : String} {n : RelayNode} {r : Reply} {k : RelayKind}
    {st : RelayStatus} : Command.hsetexStat k u st ∉ issued self n r := by
  cases r with
  | keepMaster renewed => cases renewed <;> simp [issued]
  | _ => simp [issued]

theorem hsetexStat_tick {self u : String} {n : RelayNode} {k : RelayKind} {st : RelayStatus}
    (h : Command.hsetexStat k u st ∈ (timeoutCallback self n).pubQueue) :
    Command.hsetexStat k u st ∈ n.pubQueue ∨ (n.tables k).statusMap.lookup u = some st := by
  simp only [timeoutCallback_pubQueue, statusUploads, List.mem_append, List.mem_map, Prod.exists,
    Command.hsetexStat.injEq, List.mem_cons, List.not_mem_nil, reduceCtorEq, or_false] at h
  rcases h with h | ⟨_, _, h, rfl, rfl, rfl⟩ | ⟨_, _, h, rfl, rfl, rfl⟩
  · exact .inl h
  · exact .inr (Table.mem_toPairs.mp h)
  · exact .inr (Table.mem_toPairs.mp h)

theorem publishNode_tick {self nodeId : String} {n : RelayNode} {msg : RelayMsg}
    (h : Command.publishNode nodeId msg ∈ (timeoutCallback self n).pubQueue) :
    Command.publishNode nodeId msg ∈ n.pubQueue := by
  simpa [timeoutCallback_pubQueue, statusUploads] using h

theorem keyedNode_tick {x : RelayNode} (h : KeyedNode x) (self : String) :
    KeyedNode (timeoutCallback self x) where
  statuses := h.statuses
  uploads k u st hq := (hsetexStat_tick hq).elim (h.uploads k u st) (h.statuses k u st)
  published nodeId msg hq := h.published nodeId msg (publishNode_tick hq)
  received := h.received
  listed := h.listed

theorem keyedNode_callback {x : RelayNode} {r : Reply} {rs : List Reply} (h : KeyedNode x)
    (hr : x.replies = r :: rs) (self : String) :
    KeyedNode (callback self r { x with replies := rs }) where
  statuses k u st hu := by
    rw [callback_tables] at hu
    cases r with
    | syncStat k' entries =>
      dsimp only at hu
      split at hu
      · next hk =>
        subst hk
        obtain ⟨v, hv, hp⟩ := lookup_listStatuses hu
        exact h.listed k entries (hr ▸ List.mem_cons_self ..) u v st hv hp
      · exact h.statuses k u st hu
    | syncList k' entries => dsimp only at hu; split at hu <;> exact h.statuses k u st hu
    | _ => exact h.statuses k u st hu
  uploads k u st hq := by
    rw [callback_pubQueue] at hq
    exact h.uploads k u st ((List.mem_append.mp hq).resolve_right hsetexStat_issued)
  published nodeId msg hq := by
    rw [callback_pubQueue] at hq
    exact (List.mem_append.mp hq).elim (h.published nodeId msg)
      (keyedMsg_issued ⟨h.statuses, h.uploads, h.published, h.received,
        fun k es he ↦ h.listed k es (hr ▸ .tail r he)⟩)
  received := by rw [(callback_frame self r _).2.2]; exact h.received
  listed k entries he := by
    rw [(callback_frame self r _).2.1] at he
    exact h.listed k entries (hr ▸ .tail r he)

theorem keyedNode_response {self : String} {msg : RelayMsg} {n x : RelayNode} (h : KeyedNode n)
    (hx : ResponseCase self msg n x) : KeyedNode x where
  statuses k u st hu := by
    cases hx with
    | ignored => exact h.statuses k u st hu
    | started k' hk ho _ =>
      rw [RelayNode.setTables_tables] at hu
      split at hu
      · next hkk =>
        subst hkk
        rw [startedTables, Table.lookup_insert_if] at hu
        split at hu
        · next he => cases hu; exact he.symm
        · exact h.statuses k u st hu
      · exact h.statuses k u st hu
    | stopped k' hk ho _ =>
      rw [RelayNode.send_tables, RelayNode.setTables_tables] at hu
      split at hu
      · next hkk =>
        subst hkk
        rw [stoppedTables, Table.lookup_erase_if] at hu
        split at hu
        · cases hu
        · exact h.statuses k u st hu
      · exact h.statuses k u st hu
  uploads k u st hq := by
    obtain he | ⟨k', he⟩ := hx.pubQueue
    · exact h.uploads k u st (he ▸ hq)
    · rw [he] at hq
      exact h.uploads k u st ((List.mem_append.mp hq).resolve_right (by simp))
  published nodeId msg' hq := by
    obtain he | ⟨k', he⟩ := hx.pubQueue
    · exact h.published nodeId msg' (he ▸ hq)
    · rw [he] at hq
      exact h.published nodeId msg' ((List.mem_append.mp hq).resolve_right (by simp))
  received := by rw [hx.frame.2.2.2]; exact h.received
  listed := by rw [hx.frame.2.2.1]; exact h.listed

theorem keyedNode_report {n : RelayNode} (h : KeyedNode n) (k : RelayKind) (v c : String)
    (i : Int) :
    KeyedNode (updateRelayInfo k v c i n) := by
  cases hv : (n.tables k).statusMap.lookup v with
  | none => rw [updateRelayInfo_none hv]; exact h
  | some s =>
    rw [updateRelayInfo_some hv]
    have hs : (s.updateState c i).uid = v := h.statuses k v s hv
    refine ⟨fun k' u st hu ↦ ?_, fun k' u st hq ↦ ?_, fun id msg hq ↦ ?_, h.received, h.listed⟩
    · rw [RelayNode.send_tables, RelayNode.setTables_tables] at hu
      split at hu
      · next hk =>
        subst hk
        rw [Table.lookup_insert_if] at hu
        split at hu
        · next he => cases hu; exact hs.trans he.symm
        · exact h.statuses k' u st hu
      · exact h.statuses k' u st hu
    · rcases List.mem_append.mp hq with hq | hq
      · exact h.uploads k' u st hq
      · cases List.mem_singleton.mp hq
        exact hs
    · rcases List.mem_append.mp hq with hq | hq
      · exact h.published id msg hq
      · cases List.mem_singleton.mp hq

theorem execute_syncStat {cfg : Config} {c : Command} {st : Store} {k : RelayKind}
    {entries : List (String × StatusText)} (h : (st.execute cfg c).2 = some (.syncStat k entries)) :
    entries = st.statusEntries k := by
  cases c with
  | setMasterNx m => simp only [Store.execute] at h; split at h <;> cases h
  | setMasterIfEq m => simp only [Store.execute] at h; split at h <;> cases h
  | hgetallStat k' => cases h; rfl
  | _ => cases h

theorem keyedNode_step {cfg : Config} {s : System} {m : String} {a : Action} {x : RelayNode}
    (h : Keyed s) (hx : NodeCase cfg s m a x) : KeyedNode x := by
  cases hx with
  | same => exact h.node m
  | reset _ b => exact keyedNode_empty b
  | tick => exact keyedNode_tick (h.node m) m
  | exec n c cs hq =>
    have hsub : ∀ c', c' ∈ ((s.perform cfg n c cs).nodes m).pubQueue →
        c' ∈ (s.nodes m).pubQueue := by
      intro c' hc'
      simp only [perform] at hc'
      split at hc'
      · next he => subst he; exact hq ▸ .tail c hc'
      · exact hc'
    refine ⟨(h.node m).statuses, fun k u st hu ↦ (h.node m).uploads k u st (hsub _ hu),
      fun id msg hu ↦ (h.node m).published id msg (hsub _ hu), fun msg hu ↦ ?_,
      fun k entries he u v st hv hp ↦ ?_⟩
    · simp only [perform] at hu
      split at hu
      · rcases List.mem_append.mp hu with hu | hu
        · exact (h.node m).received msg hu
        · refine (h.node n).published m msg ?_
          rw [hq, ← mem_messagesTo.mp hu]
          exact List.mem_cons_self ..
      · exact (h.node m).received msg hu
    · simp only [perform] at he
      split at he
      · rcases List.mem_append.mp he with he | he
        · exact (h.node m).listed k entries he u v st hv hp
        · obtain rfl := execute_syncStat (Option.mem_toList.mp he)
          obtain ⟨dl, hl⟩ := Store.mem_statusEntries.mp hv
          exact h.store k u v dl st hl hp
      · exact (h.node m).listed k entries he u v st hv hp
  | reply r rs hr => exact keyedNode_callback (h.node m) hr m
  | deliver i msg x hm hx =>
    have hn : KeyedNode { s.nodes m with inbox := (s.nodes m).inbox.eraseIdx i } :=
      ⟨(h.node m).statuses, (h.node m).uploads, (h.node m).published,
        fun msg' hm' ↦ (h.node m).received msg' (List.mem_of_mem_eraseIdx hm'), (h.node m).listed⟩
    exact keyedNode_response hn hx
  | report k u c i _ => exact keyedNode_report (h.node m) k u c i

theorem lookup_status_step {cfg : Config} {s t : System} {a : Action} {es : List Refresh}
    (hs : (relayMachine cfg).step s a = some (t, es)) {k : RelayKind} {u : String}
    {e : StatusText × Nat} (h : (t.store.status k).lookup u = some e) :
    (s.store.status k).lookup u = some e ∨
      ∃ n st, Command.hsetexStat k u st ∈ (s.nodes n).pubQueue ∧
        e = (.state st, s.store.now + cfg.keyExpireTime) := by
  cases step_cases hs with
  | exec n c cs hq =>
    obtain h | ⟨st, rfl, he⟩ := Store.lookup_execute h
    · exact .inl h
    · exact .inr ⟨n, st, hq ▸ List.mem_cons_self .., he⟩
  | http k' req =>
    obtain ⟨m, hm⟩ := handleHttp_store k' req s.store
    rw [hm] at h
    exact .inl h
  | httpExec i c _ => exact .inl (HttpCommand.lookup_execute h)
  | advance d => exact .inl (Store.lookup_advance.mp h).1
  | _ => exact .inl h

theorem keyed_step {cfg : Config} {s t : System} {a : Action} {es : List Refresh} (h : Keyed s)
    (hs : (relayMachine cfg).step s a = some (t, es)) : Keyed t where
  node n := keyedNode_step h (node_step hs n)
  store k u v dl st hu hp := by
    obtain hu | ⟨n, st', hq, he⟩ := lookup_status_step hs hu
    · exact h.store k u v dl st hu hp
    · cases he
      cases hp
      exact (h.node n).uploads k u st hq

end NavCaster.Relay.Status
