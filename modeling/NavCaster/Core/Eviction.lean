import NavCaster.Core.Registration

namespace NavCaster.Core.Eviction

open NavCaster.Library
open NavCaster.Core.Message
open NavCaster.Core.Connections
open NavCaster.Core.Registration

variable {A : Type} {cfg : Config}

def Evicts (msg : BroadcastMsg String) : Prop :=
  msg.type = .serverOperate ∧ msg.operate = .unspecified

instance : DecidablePred Evicts := fun msg ↦
  inferInstanceAs (Decidable (msg.type = .serverOperate ∧ msg.operate = .unspecified))

/-- Such a broadcast names a connection that the reply decided to evict. -/
theorem evicts_redisRegisterBaseCallback {opts : Options} {item : CbItem A} {records : List String}
    {msg : BroadcastMsg String} :
    .publish msg ∈ (redisRegisterBaseCallback opts item records).1 ↔
      Evicts msg ∧ msg.msgStr = item.channel ∧ msg.target ∈ (evicted opts .base item records).1 ∧
        msg.reasonStr = (evicted opts .base item records).2.1 := by
  unfold redisRegisterBaseCallback redisRegisterCallback
  generalize evicted opts .base item records = p
  obtain ⟨keys, reason, stands⟩ := p
  obtain ⟨type, operate, target, msgStr, reasonStr⟩ := msg
  simp only [List.mem_map, sendStatusChannel, statusMsg, Command.publish.injEq, Evicts,
    Role.operateType, replyToOperate, BroadcastMsg.mk.injEq]
  constructor
  · rintro ⟨key, hk, rfl, rfl, rfl, rfl, rfl⟩
    exact ⟨⟨rfl, rfl⟩, rfl, hk, rfl⟩
  · rintro ⟨⟨rfl, rfl⟩, rfl, hk, rfl⟩
    exact ⟨target, hk, rfl, rfl, rfl, rfl, rfl⟩

theorem type_of_redisRegisterCallback {opts : Options} {r : Role} {item : CbItem A}
    {records : List String} {msg : BroadcastMsg String}
    (h : .publish msg ∈ (redisRegisterCallback opts r item records).1) :
    msg.type = r.operateType := by
  obtain ⟨key, _, hk⟩ := List.mem_map.mp h
  cases hk
  rfl

def InFlight (s : System A) (msg : BroadcastMsg String) : Prop :=
  ∃ n, .publish msg ∈ (s.nodes n).pubQueue ∨ msg ∈ (s.nodes n).inbox

theorem publish_not_mem_registerChannel (r : Role) (p : Access.AccessPolicy) (type : RegisterType)
    (item : CbItem A) (reg : Registry A) (msg : BroadcastMsg String) :
    .publish msg ∉ (registerChannel r p type item reg).commands := by
  unfold registerChannel
  split
  · exact List.not_mem_nil
  · unfold insertRecord
    dsimp only
    split <;> simp

theorem publish_not_mem_withdrawChannel (opts : Options) (r : Role) (row key : String)
    (reg : Registry A) (msg : BroadcastMsg String) :
    .publish msg ∉ (withdrawChannel opts r row key reg).commands := by
  unfold withdrawChannel
  split
  · exact List.not_mem_nil
  · split
    · exact List.not_mem_nil
    · dsimp only
      split
      · simp
      · cases opts.uploadStat r <;> simp

theorem publish_not_mem_uploadRecordItem (reg : Registry A) (msg : BroadcastMsg String) :
    .publish msg ∉ uploadRecordItem reg := by
  simp [uploadRecordItem, stateRenewals, recordRenewals]

theorem inFlight_setNode {s : System A} {n : String} {x : Node A} {msg : BroadcastMsg String}
    (h : InFlight (s.setNode n x) msg) :
    InFlight s msg ∨ .publish msg ∈ x.pubQueue ∨ msg ∈ x.inbox := by
  obtain ⟨m, hm⟩ := h
  rw [System.setNode_nodes] at hm
  split at hm
  · exact .inr hm
  · exact .inl ⟨m, hm⟩

theorem inFlight_broadcast {s : System A} {msgs : List (BroadcastMsg String)}
    {msg : BroadcastMsg String} (h : InFlight (s.broadcast msgs) msg) :
    InFlight s msg ∨ msg ∈ msgs := by
  obtain ⟨m, hm⟩ := h
  unfold System.broadcast at hm
  dsimp only at hm
  split at hm
  · obtain hq | hi := hm
    · exact .inl ⟨m, .inl hq⟩
    · exact (List.mem_append.mp hi).imp (fun hi ↦ ⟨m, .inr hi⟩) id
  · exact .inl ⟨m, hm⟩

theorem inFlight_kept {s : System A} {n : String} {x : Node A} {msg : BroadcastMsg String}
    (h : InFlight (s.setNode n x) msg)
    (hq : .publish msg ∈ x.pubQueue → .publish msg ∈ (s.nodes n).pubQueue)
    (hi : msg ∈ x.inbox → msg ∈ (s.nodes n).inbox) : InFlight s msg :=
  (inFlight_setNode h).elim id fun h ↦ ⟨n, h.imp hq hi⟩

theorem inFlight_queued {s : System A} {n : String} {x : Node A} {cs : List (Command A)}
    {msg : BroadcastMsg String} (h : InFlight (s.setNode n x) msg)
    (hq : x.pubQueue = (s.nodes n).pubQueue ++ cs) (hcs : .publish msg ∉ cs)
    (hi : x.inbox = (s.nodes n).inbox) : InFlight s msg := by
  refine inFlight_kept h (fun hm ↦ ?_) fun hm ↦ hi ▸ hm
  rw [hq] at hm
  exact (List.mem_append.mp hm).resolve_right hcs

theorem not_evicts_announcement {r : Role} {channel : String} {active : Bool}
    {msg : BroadcastMsg String}
    (he : Evicts msg) : Command.publish msg ≠ announcement (A := A) r channel active := by
  intro hm
  have heq : msg = statusMsg r channel "" (if active then .active else .inactive)
      (announceReason active) := Command.publish.inj hm
  subst heq
  cases active <;> cases he.2

theorem not_evicts_handleKick {r : Role} {uid : String} {known : Bool} {msg : BroadcastMsg String}
    (hk : handleKick r uid known = some msg) : ¬ Evicts msg := by
  intro he
  unfold handleKick at hk
  split at hk
  · cases hk
  · split at hk
    · cases hk
      cases he.2
    · cases hk

theorem inFlight_step {s t : System A} {a : Action A} {es : List (Called A)}
    {msg : BroadcastMsg String} (he : Evicts msg)
    (hs : (registrationMachine cfg).step s a = some (t, es)) (h : InFlight t msg) :
    InFlight s msg ∨ ∃ n r rs, a = .reply n ∧ (s.nodes n).replies = r :: rs ∧ r.role = .base ∧
      .publish msg ∈ (redisRegisterBaseCallback (cfg.opts n) r.ctx r.records).1 := by
  change step cfg s a = some (t, es) at hs
  cases a with
  | start n =>
    simp only [step] at hs
    split at hs
    · cases hs
    · cases hs
      exact .inl (inFlight_kept h (absurd · List.not_mem_nil) (absurd · List.not_mem_nil))
  | stop n =>
    simp only [step] at hs
    split at hs
    · cases hs
      exact .inl (inFlight_kept h (absurd · List.not_mem_nil) (absurd · List.not_mem_nil))
    · cases hs
  | policy n p =>
    simp only [step] at hs
    split at hs
    · cases hs
      exact .inl (inFlight_kept h id id)
    · cases hs
  | register n r type item =>
    simp only [step] at hs
    split at hs
    · cases hs
      exact .inl (inFlight_queued h rfl (publish_not_mem_registerChannel r _ type item _ msg) rfl)
    · cases hs
  | withdraw n r row key =>
    simp only [step] at hs
    split at hs
    · cases hs
      exact .inl (inFlight_queued h rfl (publish_not_mem_withdrawChannel _ r row key _ msg) rfl)
    · cases hs
  | announce n r channel active =>
    simp only [step] at hs
    split at hs
    · cases hs
      refine .inl (inFlight_queued h rfl (fun hm ↦ ?_) rfl)
      exact not_evicts_announcement he (List.mem_singleton.mp hm)
    · cases hs
  | tick n =>
    simp only [step] at hs
    split at hs
    · cases hs
      exact .inl (inFlight_queued h rfl (publish_not_mem_uploadRecordItem _ msg) rfl)
    · cases hs
  | exec n =>
    simp only [step] at hs
    split at hs
    · cases hs
    · next c cs hq =>
      cases hs
      refine .inl ((inFlight_broadcast h).elim (fun h ↦ ?_) fun hm ↦ ?_)
      · exact inFlight_kept h (fun hm ↦ hq ▸ .tail c hm) id
      · cases c with
        | publish msg' =>
          cases List.mem_singleton.mp hm
          exact ⟨n, .inl (hq ▸ List.mem_cons_self ..)⟩
        | _ => cases hm
  | reply n =>
    simp only [step] at hs
    split at hs
    · cases hs
    · next r rs hr =>
      cases hs
      by_cases hm : .publish msg ∈
          (redisRegisterCallback (cfg.opts n) r.role r.ctx r.records).1
      · have htype := type_of_redisRegisterCallback hm
        obtain ⟨role, ctx, records⟩ := r
        cases role with
        | base => exact .inr ⟨n, _, rs, rfl, hr, rfl, hm⟩
        | rover => cases he.1.symm.trans htype
      · exact .inl (inFlight_queued h rfl hm rfl)
  | deliver n i =>
    simp only [step] at hs
    split at hs
    · cases hs
    · cases hs
      exact .inl (inFlight_kept h id fun hm ↦ List.mem_of_mem_eraseIdx hm)
  | kick r uid =>
    simp only [step] at hs
    split at hs
    · cases hs
    · next msg' hk =>
      cases hs
      refine .inl ((inFlight_broadcast h).resolve_right fun hm ↦ ?_)
      cases List.mem_singleton.mp hm
      exact not_evicts_handleKick hk he
  | advance d =>
    cases hs
    exact .inl h

def KickIndexed (s : System A) : Prop :=
  ∀ n key item, (s.nodes n).registry.kickMap.lookup key = some item →
    ∃ row, (s.nodes n).registry.entry .rover row key = some item

theorem kickIndexed_step {s t : System A} {a : Action A} {es : List (Called A)} (hi : KickIndexed s)
    (hs : (registrationMachine cfg).step s a = some (t, es)) : KickIndexed t := by
  intro n key item h
  have hcase := registry_step hs n
  generalize (t.nodes n).registry = reg at hcase h
  cases hcase with
  | same _ _ hsame =>
    rw [hsame.kickMap] at h
    obtain ⟨row, hrow⟩ := hi n key item h
    exact ⟨row, (hsame.entry ..).trans hrow⟩
  | reset => cases h
  | entered r type new _ he =>
    have hold (h : (s.nodes n).registry.kickMap.lookup key = some item) :
        ∃ row, reg.entry .rover row key = some item := by
      obtain ⟨row, hrow⟩ := hi n key item h
      refine ⟨row, ?_⟩
      rw [he.entry, if_neg, hrow]
      rintro ⟨rfl, rfl, rfl⟩
      rw [he.fresh] at hrow
      cases hrow
    rw [he.kickMap] at h
    cases r with
    | base => exact hold h
    | rover =>
      change (AList.insert new.connectKey _ _).lookup key = _ at h
      rw [Table.lookup_insert_if] at h
      split at h
      · next hk =>
        refine ⟨new.userName, ?_⟩
        rw [he.entry, if_pos ⟨rfl, rfl, hk⟩]
        exact h
      · exact hold h
  | withdrawn r row key' _ hw =>
    rw [hw.kickMap, Table.lookup_erase_if] at h
    split at h
    · cases h
    · next hk =>
      obtain ⟨row', hrow⟩ := hi n key item h
      exact ⟨row', by rw [hw.entry, if_neg fun h ↦ hk h.2.2, hrow]⟩

theorem broadcastResponse_err {msg : BroadcastMsg String} {reg : Registry A} {call : Call A}
    (h : call ∈ (broadcastResponse msg reg).2) (he : call.reply = .err) :
    msg.operate = .delete ∧ ∃ item, reg.kickMap.lookup msg.target = some item ∧
      call.arg = item.arg := by
  unfold broadcastResponse at h
  split at h
  · cases h
  · split at h
    · next hd =>
      obtain ⟨item, hk, rfl⟩ := List.mem_map.mp h
      exact ⟨hd.1, item, Option.mem_toList.mp hk, rfl⟩
    · have hno : ∀ item : CbItem A,
          call ≠ ⟨item.arg, operateToReply msg.operate, msg.reasonStr⟩ := by
        rintro item rfl
        exact operate_to_reply_ne_err _ he
      dsimp only at h
      split at h
      · cases h
      · split at h
        · obtain ⟨e, _, rfl⟩ := List.mem_map.mp h
          exact absurd rfl (hno e.2)
        · split at h
          · cases h
          · next item _ => exact absurd (List.mem_singleton.mp h) (hno item)

/-- What the evictions promise of a step: a connection that is to be evicted, and is still
registered, is called back with `ERR`; and `ERR` reaches only the connection that a broadcast
evicts or kicks. -/
def Honours (s : System A) (a : Action A) (es : List (Called A)) : Prop :=
  match a with
  | .deliver n i => ∀ msg, (s.nodes n).inbox[i]? = some msg →
    (Evicts msg → ∀ item, (s.nodes n).registry.entry .base msg.msgStr msg.target = some item →
      ⟨n, item.arg, .err, msg.reasonStr⟩ ∈ es) ∧
    ∀ e ∈ es, e.call.reply = .err → (Evicts msg ∨ msg.operate = .delete) ∧ e.node = n ∧
      ∃ r row item, (s.nodes n).registry.entry r row msg.target = some item ∧ item.arg = e.call.arg
  | .reply _ => ∀ e ∈ es, e.call.reply ≠ .err
  | _ => True

def TargetGone (s : System A) (a : Action A) : Prop :=
  match a with
  | .deliver n i => ∀ msg, (s.nodes n).inbox[i]? = some msg → Evicts msg →
    (s.nodes n).registry.entry .base msg.msgStr msg.target = none
  | _ => True

instance (s : System A) : DecidablePred (TargetGone s)
  | .deliver n i => decidable_of_iff (∀ msg ∈ (s.nodes n).inbox[i]?.toList, Evicts msg →
      ((s.nodes n).registry.entry .base msg.msgStr msg.target).isNone) <| by
    simp only [TargetGone, Option.mem_toList, Option.isNone_iff_eq_none]
  | .start _ | .stop _ | .policy _ _ | .register _ _ _ _ | .withdraw _ _ _ _ | .announce _ _ _ _
  | .tick _ | .exec _ | .reply _ | .kick _ _ | .advance _ => isTrue trivial

theorem mem_called {n : String} {calls : List (Call A)} {e : Called A} :
    e ∈ calls.map (Called.mk n) ↔ e.node = n ∧ e.call ∈ calls := by
  obtain ⟨m, call⟩ := e
  simp only [List.mem_map, Called.mk.injEq]
  constructor
  · rintro ⟨call', hc, rfl, rfl⟩
    exact ⟨rfl, hc⟩
  · rintro ⟨rfl, hc⟩
    exact ⟨call, hc, rfl, rfl⟩

theorem honours_of_targetGone {s t : System A} {a : Action A} {es : List (Called A)}
    (hi : KickIndexed s) (h : TargetGone s a)
    (hs : (registrationMachine cfg).step s a = some (t, es)) : Honours s a es := by
  change step cfg s a = some (t, es) at hs
  cases a with
  | deliver n i =>
    intro msg hmsg
    simp only [step, hmsg] at hs
    cases hs
    refine ⟨fun he item hitem ↦ ?_, fun e he herr ↦ ?_⟩
    · rw [h msg hmsg he] at hitem
      cases hitem
    · obtain ⟨hnode, hcall⟩ := mem_called.mp he
      obtain ⟨hd, item, hk, harg⟩ := broadcastResponse_err hcall herr
      obtain ⟨row, hrow⟩ := hi n msg.target item hk
      exact ⟨.inr hd, hnode, .rover, row, item, hrow, harg.symm⟩
  | reply n =>
    simp only [step] at hs
    split at hs
    · cases hs
    · next r rs _ =>
      cases hs
      intro e he
      obtain ⟨-, hcall⟩ := mem_called.mp he
      unfold redisRegisterCallback at hcall
      dsimp only at hcall
      split at hcall
      · rw [List.mem_singleton.mp hcall]
        intro herr
        cases herr
      · cases hcall
  | _ => exact trivial

theorem targetGone_of_honours {s : System A} {a : Action A}
    (h : ∀ t es, (registrationMachine cfg).step s a = some (t, es) → Honours s a es) :
    TargetGone s a := by
  cases a with
  | deliver n i =>
    intro msg hmsg he
    by_contra hne
    obtain ⟨item, hitem⟩ := Option.ne_none_iff_exists'.mp hne
    have hstep : ∃ t, (registrationMachine cfg).step s (.deliver n i) =
        some (t, (broadcastResponse msg (s.nodes n).registry).2.map (Called.mk n)) := by
      refine ⟨s.setNode n { s.nodes n with inbox := (s.nodes n).inbox.eraseIdx i }, ?_⟩
      change step cfg s (.deliver n i) = _
      simp only [step, hmsg]
    obtain ⟨t, ht⟩ := hstep
    obtain ⟨-, hcall⟩ := mem_called.mp ((h _ _ ht msg hmsg).1 he item hitem)
    have hop := (broadcastResponse_err hcall rfl).1
    rw [he.2] at hop
    cases hop
  | _ => exact trivial

/-- Along a run the evictions are honoured if and only if each of them finds its connection gone:
a connection that is still registered when its eviction arrives is not called back with `ERR`. -/
theorem eviction_honoured (cfg : Config) {s : System A} (hs : s.Offline) (as : List (Action A)) :
    (registrationMachine cfg).Meets (fun s a ↦
        ∀ t es, (registrationMachine cfg).step s a = some (t, es) → Honours s a es) s as ↔
      (registrationMachine cfg).Meets TargetGone s as := by
  have hstart : KickIndexed s := by
    intro n key item h
    rw [hs n] at h
    cases h
  exact Machine.meets_congr hstart (fun _ _ _ _ hi hst ↦ kickIndexed_step hi hst)
    (fun _ _ hi ↦ ⟨targetGone_of_honours, fun hg _ _ hst ↦ honours_of_targetGone hi hg hst⟩) as

def base (key : String) : CbItem String where
  connectKey := key
  channel := "M"
  userName := "u"
  groupUid := "SYSTEM"
  arg := key

def login (n key : String) : List (Action String) :=
  [.register n .base .server (base key), .exec n, .exec n, .exec n, .exec n, .reply n]

/-- The second base evicts the first, which withdraws before the broadcast arrives. -/
theorem eviction_honoured_withdrawn : (registrationMachine {}).Meets (fun s a ↦
    ∀ t es, (registrationMachine {}).step s a = some (t, es) → Honours s a es)
    ({} : System String) ([.start "A", .start "B"] ++ login "A" "k" ++ login "B" "l" ++
      [.exec "B", .withdraw "A" .base "M" "k", .deliver "A" 0]) :=
  (eviction_honoured {} (fun _ ↦ rfl) _).mpr (by decide +kernel)

/-- The second base evicts the first, which is not called back. -/
theorem not_eviction_honoured : ¬ ∀ as : List (Action String), (registrationMachine {}).Meets
    (fun s a ↦ ∀ t es, (registrationMachine {}).step s a = some (t, es) → Honours s a es) {}
      as := by
  intro h
  have hgone := (h ([.start "A", .start "B"] ++ login "A" "k" ++ login "B" "l" ++
    [.exec "B", .deliver "A" 0])).mono fun _ _ ↦ targetGone_of_honours
  exact absurd hgone (by decide +kernel)

end NavCaster.Core.Eviction
