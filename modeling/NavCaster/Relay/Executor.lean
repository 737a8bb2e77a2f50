import NavCaster.Relay.Cluster
import NavCaster.Relay.Distribution

namespace NavCaster.Relay.Executor

open NavCaster.Library
open NavCaster.Core.Message
open NavCaster.Relay.Record
open NavCaster.Relay.Node
open NavCaster.Relay.Cluster
open NavCaster.Relay.Cluster.System
open NavCaster.Relay.Distribution

/-- The message makes its receiver create the relay object `u`. -/
def Starts (k : RelayKind) (u : String) (msg : RelayMsg) : Prop :=
  relayKindOf msg.type = some k ∧ msg.operate = .active ∧
    ∃ record, msg.msgStr.toProto = some record ∧ record.uid = u

/-- The node runs the relay object `u`, or a message that starts it there is on its way. -/
inductive Claims (k : RelayKind) (u : String) (x : RelayNode) : Prop
  | runs : u ∈ (x.tables k).objMap → Claims k u x
  | received (msg : RelayMsg) : msg ∈ x.inbox → Starts k u msg → Claims k u x
  | sent (nodeId : String) (msg : RelayMsg) :
      Command.publishNode nodeId msg ∈ x.pubQueue → Starts k u msg → Claims k u x

/-- A distribution on the node now would start the relay object `u`. -/
def Distributes (k : RelayKind) (u : String) (x : RelayNode) : Prop :=
  ∃ f r, enabledRecord (x.tables k) f = some r ∧ f ∉ (x.tables k).statusMap ∧
    ∃ record, r.json.toProto = some record ∧ record.uid = u

/-- A master starts a relay object only while no other node has it or is about to get it. -/
def DistributesAlone (s : System) : Action → Prop
  | .reply n => (s.nodes n).replies.head? = some .syncClusterNode →
      ∀ k u, Distributes k u (s.nodes n) → ∀ m, m ≠ n → ¬ Claims k u (s.nodes m)
  | _ => True

def OneExecutor (s : System) (k : RelayKind) (u : String) : Prop :=
  ∀ m n, u ∈ ((s.nodes m).tables k).objMap → u ∈ ((s.nodes n).tables k).objMap → m = n

def OneClaimant (s : System) : Prop :=
  ∀ k u m n, Claims k u (s.nodes m) → Claims k u (s.nodes n) → m = n

def Addressed (s : System) : Prop :=
  ∀ n nodeId msg, Command.publishNode nodeId msg ∈ (s.nodes n).pubQueue → nodeId = n

theorem not_claims_empty (k : RelayKind) (u : String) (b : Bool) :
    ¬ Claims k u { live := b } := by
  intro h
  cases h with
  | runs h => exact AList.notMem_empty u h
  | received msg h _ => cases h
  | sent nodeId msg h _ => cases h

theorem starts_task {k k' : RelayKind} {u : String} {t : RelayTables} {f : String} {msg : RelayMsg}
    (h : task k' t f = some msg) (hs : Starts k u msg) : k = k' ∧
      ∃ r, enabledRecord t f = some r ∧ f ∉ t.statusMap ∧
        ∃ record, r.json.toProto = some record ∧ record.uid = u := by
  obtain ⟨hk, ho, record, hp, hu⟩ := hs
  unfold task at h
  cases hr : enabledRecord t f with
  | none =>
    cases hst : t.statusMap.lookup f with
    | none => rw [hr, hst] at h; cases h
    | some st => rw [hr, hst] at h; cases h; cases ho
  | some r =>
    cases hst : t.statusMap.lookup f with
    | none =>
      rw [hr, hst] at h
      cases h
      rw [taskMsg, relayKindOf_broadcastType] at hk
      have hen := ((enabledRecord_eq_some t).mp hr).2
      refine ⟨(Option.some.inj hk).symm, r, rfl, AList.lookup_eq_none.mp hst, record, ?_, hu⟩
      rw [← (RelayRecord.toProto_of_enabled hen).1]
      exact hp
    | some st =>
      rw [hr, hst] at h
      dsimp only at h
      split at h
      · cases h
      · cases h; cases ho

theorem distributes_of_published {self nodeId : String} {k : RelayKind} {u : String} {n : RelayNode}
    {msg : RelayMsg} (h : Command.publishNode nodeId msg ∈ issued self n .syncClusterNode)
    (hs : Starts k u msg) : nodeId = self ∧ Distributes k u n := by
  have hof (k' : RelayKind) (h : Command.publishNode nodeId msg ∈
      (distribute k' (n.tables k')).2.map (.publishNode self)) :
      nodeId = self ∧ Distributes k u n := by
    obtain ⟨msg', hm, he⟩ := List.mem_map.mp h
    cases he
    rw [distribute_msgs] at hm
    obtain ⟨f, _, hf⟩ := List.mem_filterMap.mp hm
    obtain ⟨rfl, r, hr⟩ := starts_task hf hs
    exact ⟨rfl, f, r, hr⟩
  exact (List.mem_append.mp h).elim (hof .pull) (hof .push)

theorem publishNode_issued {self nodeId : String} {n : RelayNode} {r : Reply} {msg : RelayMsg}
    (h : Command.publishNode nodeId msg ∈ issued self n r) :
    nodeId = self ∧ r = .syncClusterNode := by
  cases r with
  | syncClusterNode =>
    simp only [issued, List.mem_append, List.mem_map, Command.publishNode.injEq] at h
    obtain ⟨_, _, rfl, _⟩ | ⟨_, _, rfl, _⟩ := h <;> exact ⟨rfl, rfl⟩
  | keepMaster renewed => cases renewed <;> simp [issued] at h
  | _ => simp [issued] at h

theorem publishNode_step {cfg : Config} {s : System} {m nodeId : String} {a : Action}
    {x : RelayNode} {msg : RelayMsg} (hx : NodeCase cfg s m a x)
    (h : Command.publishNode nodeId msg ∈ x.pubQueue) :
    Command.publishNode nodeId msg ∈ (s.nodes m).pubQueue ∨
      a = .reply m ∧ (s.nodes m).replies.head? = some .syncClusterNode ∧
        Command.publishNode nodeId msg ∈ issued m (s.nodes m) .syncClusterNode := by
  cases hx with
  | same => exact .inl h
  | reset => cases h
  | tick =>
    simp [timeoutCallback_pubQueue, statusUploads] at h
    exact .inl h
  | exec n c cs hq =>
    simp only [perform] at h
    split at h
    · next he => subst he; exact .inl (hq ▸ .tail c h)
    · exact .inl h
  | reply r rs hr =>
    rw [callback_pubQueue] at h
    rcases List.mem_append.mp h with h | h
    · exact .inl h
    · obtain ⟨_, rfl⟩ := publishNode_issued h
      exact .inr ⟨rfl, by rw [hr]; rfl, h⟩
  | deliver i msg' x _ hx =>
    obtain he | ⟨k, he⟩ := hx.pubQueue
    · rw [he] at h; exact .inl h
    · simp [he] at h; exact .inl h
  | report k u c i _ =>
    obtain he | ⟨st, he⟩ := updateRelayInfo_pubQueue k u c i (s.nodes m)
    · rw [he] at h; exact .inl h
    · simp [he] at h; exact .inl h

theorem addressed_step {cfg : Config} {s t : System} {a : Action} {es : List Refresh}
    (h : Addressed s) (hs : (relayMachine cfg).step s a = some (t, es)) : Addressed t := by
  intro m nodeId msg hm
  obtain hm | ⟨_, _, hm⟩ := publishNode_step (node_step hs m) hm
  · exact h m nodeId msg hm
  · exact (publishNode_issued hm).1

theorem inbox_step {cfg : Config} {s : System} {m : String} {a : Action} {x : RelayNode}
    {msg : RelayMsg} (hx : NodeCase cfg s m a x) (h : msg ∈ x.inbox) :
    msg ∈ (s.nodes m).inbox ∨ ∃ n, Command.publishNode m msg ∈ (s.nodes n).pubQueue := by
  cases hx with
  | same => exact .inl h
  | reset => cases h
  | tick => exact .inl h
  | exec n c cs hq =>
    simp only [perform] at h
    split at h
    · rcases List.mem_append.mp h with h | h
      · exact .inl h
      · exact .inr ⟨n, hq ▸ mem_messagesTo.mp h ▸ List.mem_cons_self ..⟩
    · exact .inl h
  | reply r rs _ => rw [(callback_frame m r _).2.2] at h; exact .inl h
  | deliver i msg' x _ hx => rw [hx.frame.2.2.2] at h; exact .inl (List.mem_of_mem_eraseIdx h)
  | report k u c i _ => rw [(updateRelayInfo_frame k u c i _).2.2.2] at h; exact .inl h

theorem object_step {cfg : Config} {s : System} {m u : String} {a : Action} {x : RelayNode}
    {k : RelayKind} (hx : NodeCase cfg s m a x) (h : u ∈ (x.tables k).objMap) :
    u ∈ ((s.nodes m).tables k).objMap ∨ ∃ msg ∈ (s.nodes m).inbox, Starts k u msg := by
  cases hx with
  | same => exact .inl h
  | reset => exact absurd h (AList.notMem_empty u)
  | tick => exact .inl h
  | exec n c cs _ => exact .inl h
  | reply r rs _ =>
    rw [callback_tables] at h
    cases r with
    | syncList k' entries => dsimp only at h; split at h <;> exact .inl h
    | syncStat k' entries => dsimp only at h; split at h <;> exact .inl h
    | _ => exact .inl h
  | deliver i msg x hm hx =>
    cases hx with
    | ignored => exact .inl h
    | started k' hk ho _ =>
      rw [RelayNode.setTables_tables] at h
      split at h
      · next hkk =>
        subst hkk
        rw [startedTables, processRelayOf_active ho] at h
        cases hp : msg.msgStr.toProto with
        | none => rw [hp] at h; exact .inl h
        | some record =>
          rw [hp] at h
          rcases mem_createObject.mp h with rfl | h
          · exact .inr ⟨msg, List.mem_of_getElem? hm, hk, ho, record, hp, rfl⟩
          · exact .inl h
      · exact .inl h
    | stopped k' hk ho _ =>
      rw [RelayNode.send_tables, RelayNode.setTables_tables] at h
      split at h
      · next hkk =>
        subst hkk
        rw [stoppedTables, processRelayOf_inactive ho] at h
        cases hp : msg.msgStr.toProto with
        | none => rw [hp] at h; exact .inl h
        | some record => rw [hp] at h; exact .inl (AList.mem_erase.mp h).2
      · exact .inl h
  | report k' v c i _ => rw [updateRelayInfo_objMap] at h; exact .inl h

theorem claims_step {cfg : Config} {s t : System} {a : Action} {es : List Refresh}
    (hadr : Addressed s) (hs : (relayMachine cfg).step s a = some (t, es)) {m u : String}
    {k : RelayKind} (h : Claims k u (t.nodes m)) : Claims k u (s.nodes m) ∨
      a = .reply m ∧ (s.nodes m).replies.head? = some .syncClusterNode ∧
        Distributes k u (s.nodes m) := by
  cases h with
  | runs h =>
    obtain h | ⟨msg, hm, hst⟩ := object_step (node_step hs m) h
    · exact .inl (.runs h)
    · exact .inl (.received msg hm hst)
  | received msg h hst =>
    obtain h | ⟨n, h⟩ := inbox_step (node_step hs m) h
    · exact .inl (.received msg h hst)
    · have hmn : m = n := hadr n m msg h
      subst hmn
      exact .inl (.sent m msg h hst)
  | sent nodeId msg h hst =>
    obtain h | ⟨ha, hr, h⟩ := publishNode_step (node_step hs m) h
    · exact .inl (.sent nodeId msg h hst)
    · exact .inr ⟨ha, hr, (distributes_of_published h hst).2⟩

theorem oneClaimant_step {cfg : Config} {s t : System} {a : Action} {es : List Refresh}
    (hadr : Addressed s) (h : OneClaimant s) (ha : DistributesAlone s a)
    (hs : (relayMachine cfg).step s a = some (t, es)) : OneClaimant t := by
  intro k u m n hm hn
  obtain hm | ⟨rfl, hrm, hdm⟩ := claims_step hadr hs hm
  · obtain hn | ⟨rfl, hrn, hdn⟩ := claims_step hadr hs hn
    · exact h k u m n hm hn
    · by_contra hne
      exact ha hrn k u hdn m hne hm
  · by_contra hne
    obtain hn | ⟨he, _, _⟩ := claims_step hadr hs hn
    · exact ha hrm k u hdm n (Ne.symm hne) hn
    · exact hne (Action.reply.inj he)

/-- In every run in which a master starts a relay object only while no other node has it or is
about to get it, at most one node runs the object. -/
theorem one_executor (cfg : Config) {s t : System} (hs : s.Offline)
    (h : (relayMachine cfg).Reach DistributesAlone s t) : ∀ k u, OneExecutor t k u := by
  have hinv : Addressed t ∧ OneClaimant t := by
    refine h.invariant (I := fun s ↦ Addressed s ∧ OneClaimant s)
      ⟨fun n id msg hm ↦ ?_, fun k u m n hm ↦ ?_⟩
      fun _ _ _ _ hi ha hst ↦ ⟨addressed_step hi.1 hst, oneClaimant_step hi.1 hi.2 ha hst⟩
    · rw [hs n] at hm; cases hm
    · rw [hs m] at hm; exact absurd hm (not_claims_empty k u false)
  exact fun k u m n hm hn ↦ hinv.2 k u m n (.runs hm) (.runs hn)

theorem meets_distributesAlone {cfg : Config} {n : String} {s : System} {as : List Action}
    (h : Only n s) (has : ∀ a ∈ as, StartsOnly n a) :
    (relayMachine cfg).Meets DistributesAlone s as := by
  induction as generalizing s with
  | nil => trivial
  | cons a as ih =>
    have hok : DistributesAlone s a := by
      cases a with
      | reply m =>
        intro hr k u _ m' hm' hc
        have hmn : m = n := by
          by_contra hne
          rw [h m hne] at hr
          cases hr
        rw [h m' (hmn ▸ hm')] at hc
        exact not_claims_empty k u false hc
      | _ => trivial
    refine ⟨hok, ?_⟩
    split
    · trivial
    · next p hp =>
      exact ih (only_step h (has a (List.mem_cons_self ..)) hp) fun b hb ↦ has b (.tail a hb)

def activation : List Action :=
  [.http .pull (.create (.object (.value "u") .absent (some {}) "")), .start "A"] ++
    period "A" 0 ++ [.exec "A", .deliver "A" 0]

theorem one_executor_activation : ∃ t, (relayMachine defaultConfig).Reach DistributesAlone {} t ∧
    "u" ∈ ((t.nodes "A").tables .pull).objMap ∧ ∀ k u, OneExecutor t k u := by
  have hok : (relayMachine defaultConfig).Meets DistributesAlone {} activation :=
    meets_distributesAlone (fun _ _ ↦ rfl) (by decide : ∀ a ∈ activation, StartsOnly "A" a)
  obtain ⟨t, ht, hu⟩ := Machine.exists_reach
    (fun t : System ↦ decide ("u" ∈ ((t.nodes "A").tables .pull).objMap)) (v := true) hok
    (by decide +kernel)
  exact ⟨t, ht, of_decide_eq_true hu, one_executor defaultConfig (fun _ ↦ rfl) ht⟩

def Enabled (s : System) (k : RelayKind) (u : String) : Prop :=
  ∃ text, (s.store.records k).lookup u = some text ∧ RelayRecord.isEnabled ⟨u, text⟩ = true

/-- The node `A` starts a task as master and does not renew its key in time; the node `B` takes the
key over and starts the task again. -/
def takeover : List Action :=
  [.http .pull (.create (.object (.value "u") .absent (some {}) "")), .start "A", .start "B"] ++
    period "A" 0 ++ [.exec "A", .deliver "A" 0, .advance 15] ++
    period "B" 0 ++ [.exec "B", .deliver "B" 0]

theorem not_one_executor :
    ¬ ∀ s t, s.Offline → (relayMachine defaultConfig).Reachable s t →
      ∀ k u, Enabled t k u → OneExecutor t k u := by
  intro h
  let view : System → Option RecordText × Bool × Bool := fun t ↦
    ((t.store.records .pull).lookup "u", decide ("u" ∈ ((t.nodes "A").tables .pull).objMap),
      decide ("u" ∈ ((t.nodes "B").tables .pull).objMap))
  have hobs : ((relayMachine defaultConfig).exec {} takeover).map (fun p ↦ view p.1) =
      some (some (.object (.value "u") (.value true) (some {}) ""), true, true) := by decide +kernel
  obtain ⟨t, ht, hv⟩ :=
    Machine.exists_reach view (Machine.meets_of_forall (fun _ _ _ ↦ trivial) _) hobs
  obtain ⟨hr, hAB⟩ := Prod.mk.inj hv
  obtain ⟨hA, hB⟩ := Prod.mk.inj hAB
  have hone := h {} t (fun _ ↦ rfl) ht .pull "u" ⟨_, hr, by decide⟩
  exact absurd (hone "A" "B" (of_decide_eq_true hA) (of_decide_eq_true hB)) (by decide)

end NavCaster.Relay.Executor
