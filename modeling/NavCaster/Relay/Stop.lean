import NavCaster.Relay.Status

namespace NavCaster.Relay.Stop

open NavCaster.Library
open NavCaster.Core.Message
open NavCaster.Relay.Record
open NavCaster.Relay.Node
open NavCaster.Relay.Cluster
open NavCaster.Relay.Cluster.System
open NavCaster.Relay.Distribution
open NavCaster.Relay.Status

/-- The command reads the status fields, or its reply leads to a command that does. -/
def Command.syncs (k : RelayKind) : Command → Bool
  | .getMaster => true
  | .setMasterIfEq _ => true
  | .hgetallStat k' => k' = k
  | _ => false

def Reply.syncs : Reply → Bool
  | .setMaster _ => true
  | .keepMaster renewed => renewed
  | _ => false

/-- Among the queued commands an upload of the status of `u` comes before the next one that
synchronises, and nothing deletes the field again; or none of them synchronises. -/
def UploadFirst (k : RelayKind) (u : String) : List Command → Prop
  | [] => True
  | .hsetexStat k' u' _ :: cs =>
    if k' = k ∧ u' = u then .hdelStat k u ∉ cs else UploadFirst k u cs
  | c :: cs => Command.syncs k c = false ∧ UploadFirst k u cs

def Announced (k : RelayKind) (u : String) (x : RelayNode) : Prop :=
  (∀ r ∈ x.replies, Reply.syncs r = false) ∧ UploadFirst k u x.pubQueue

def Listed (k : RelayKind) (u : String) (x : RelayNode) : Prop :=
  ∀ entries, Reply.syncStat k entries ∈ x.replies → u ∈ (listStatuses entries).1

/-- A record names its own field, and when a status field is missing in the store (the task has
just been started, a request has removed the field, or it expires) its upload comes before the
next synchronisation. -/
def KeepsStatus (n : String) (s : System) : Action → Prop
  | .start m => m = n
  | .deliver m i => ∀ msg ∈ (s.nodes m).inbox[i]?, ∀ k, relayKindOf msg.type = some k →
      msg.operate = .active → msg.target ∉ ((s.nodes m).tables k).statusMap →
        ∀ record, msg.msgStr.toProto = some record → record.uid = msg.target ∧
          Announced k msg.target (s.nodes m) ∧ Listed k msg.target (s.nodes m)
  | .httpExec i => ∀ k id, s.http[i]? = some (.hdelStat k id) →
      id ∈ ((s.nodes n).tables k).objMap → Announced k id (s.nodes n)
  | .advance d => ∀ k u, u ∈ ((s.nodes n).tables k).objMap →
      ∀ e, (s.store.status k).lookup u = some e → e.2 ≤ s.store.now + d → Announced k u (s.nodes n)
  | _ => True

/-- An `INACTIVE` broadcast for the uid of a live relay object destroys this object and no other. -/
def Stoppable (n : String) (s : System) : Prop :=
  ∀ k u, u ∈ ((s.nodes n).tables k).objMap →
    ∃ st, ((s.nodes n).tables k).statusMap.lookup u = some st ∧ ∀ reason k',
      ((relayTaskResponse n (taskMsg k .inactive u (.status st) reason) (s.nodes n)).2.tables
        k').objMap
        = if k' = k then ((s.nodes n).tables k).objMap.erase u else ((s.nodes n).tables k').objMap

section

variable {k : RelayKind} {u : String}

theorem UploadFirst.tail {c : Command} {cs : List Command} (h : UploadFirst k u (c :: cs)) :
    (∃ s, c = .hsetexStat k u s) ∧ .hdelStat k u ∉ cs ∨
      (∀ s, c ≠ .hsetexStat k u s) ∧ Command.syncs k c = false ∧ UploadFirst k u cs := by
  cases c with
  | hsetexStat k' u' s =>
    rw [UploadFirst] at h
    split at h
    · next he => obtain ⟨rfl, rfl⟩ := he; exact .inl ⟨⟨s, rfl⟩, h⟩
    · next he => exact .inr ⟨fun s' hs ↦ he (by cases hs; exact ⟨rfl, rfl⟩), rfl, h⟩
  | _ => exact .inr ⟨nofun, h⟩

theorem uploadFirst_upload {s : RelayStatus} {cs : List Command} (h : .hdelStat k u ∉ cs) :
    UploadFirst k u (.hsetexStat k u s :: cs) := by
  rw [UploadFirst, if_pos ⟨rfl, rfl⟩]
  exact h

theorem uploadFirst_cons {c : Command} {cs : List Command} (hc : Command.syncs k c = false)
    (hn : ∀ s, c ≠ .hsetexStat k u s) (h : UploadFirst k u cs) : UploadFirst k u (c :: cs) := by
  cases c with
  | hsetexStat k' u' s =>
    rw [UploadFirst, if_neg]
    · exact h
    · rintro ⟨rfl, rfl⟩
      exact hn s rfl
  | _ => exact ⟨hc, h⟩

theorem UploadFirst.append {q l : List Command} (h : UploadFirst k u q) (hd : .hdelStat k u ∉ l)
    (hl : (∀ s, .hsetexStat k u s ∉ q) → UploadFirst k u l) : UploadFirst k u (q ++ l) := by
  induction q with
  | nil => exact hl fun _ ↦ List.not_mem_nil
  | cons c q ih =>
    rw [List.cons_append]
    obtain ⟨⟨s, rfl⟩, hq⟩ | ⟨hn, hc, hq⟩ := h.tail
    · exact uploadFirst_upload (List.mem_append.not.mpr (not_or.mpr ⟨hq, hd⟩))
    · refine uploadFirst_cons hc hn (ih hq fun hq' ↦ hl fun s hs ↦ ?_)
      exact (List.mem_cons.mp hs).elim (fun he ↦ hn s he.symm) (hq' s)

theorem uploadFirst_of_forall {l : List Command} (hc : ∀ c ∈ l, Command.syncs k c = false)
    (hd : .hdelStat k u ∉ l) : UploadFirst k u l := by
  induction l with
  | nil => trivial
  | cons c l ih =>
    have hl := ih (fun c' h ↦ hc c' (.tail c h)) fun h ↦ hd (.tail c h)
    by_cases hu : ∃ s, c = .hsetexStat k u s
    · obtain ⟨s, rfl⟩ := hu
      exact uploadFirst_upload fun h ↦ hd (.tail _ h)
    · exact uploadFirst_cons (hc c (List.mem_cons_self ..)) (fun s he ↦ hu ⟨s, he⟩) hl

theorem uploadFirst_tick {self : String} {n : RelayNode} (h : UploadFirst k u n.pubQueue)
    (hu : u ∈ (n.tables k).statusMap) : UploadFirst k u (timeoutCallback self n).pubQueue := by
  rw [timeoutCallback_pubQueue]
  have hup : ∀ c ∈ statusUploads .pull (n.tables .pull) ++ statusUploads .push (n.tables .push),
      ∃ k' u' s, c = .hsetexStat k' u' s := by
    intro c hc
    simp only [statusUploads, List.mem_append, List.mem_map] at hc
    obtain ⟨e, _, rfl⟩ | ⟨e, _, rfl⟩ := hc <;> exact ⟨_, _, _, rfl⟩
  have hsync : UploadFirst k u
      (statusUploads .pull (n.tables .pull) ++ statusUploads .push (n.tables .push)) := by
    refine uploadFirst_of_forall (fun c hc ↦ ?_) fun hc ↦ ?_
    · obtain ⟨_, _, _, rfl⟩ := hup c hc; rfl
    · obtain ⟨_, _, _, he⟩ := hup _ hc; cases he
  obtain ⟨st, hst⟩ := Table.mem_iff_lookup.mp hu
  have hmem : Command.hsetexStat k u st ∈
      statusUploads .pull (n.tables .pull) ++ statusUploads .push (n.tables .push) := by
    have hk : Command.hsetexStat k u st ∈ statusUploads k (n.tables k) :=
      List.mem_map.mpr ⟨(u, st), Table.mem_toPairs.mpr hst, rfl⟩
    cases k with
    | pull => exact List.mem_append_left _ hk
    | push => exact List.mem_append_right _ hk
  refine h.append ?_ fun _ ↦ hsync.append (by simp) fun hn ↦ absurd hmem (hn st)
  simp [statusUploads]

end

def Stored (st : Store) (k : RelayKind) (u : String) : Prop :=
  ∃ e, (st.status k).lookup u = some e ∧ e.1.parse ≠ none

structure Tracked (st : Store) (k : RelayKind) (u : String) (x : RelayNode) : Prop where
  mapped : u ∈ (x.tables k).statusMap
  listed : Listed k u x
  next : Announced k u x ∨ Stored st k u ∧ .hdelStat k u ∉ x.pubQueue

def TracksAll (n : String) (s : System) : Prop :=
  ∀ k u, u ∈ ((s.nodes n).tables k).objMap → Tracked s.store k u (s.nodes n)

theorem stored_execute {cfg : Config} {c : Command} {st : Store} {k : RelayKind} {u : String}
    (h : Stored st k u) (hc : c ≠ .hdelStat k u) : Stored (st.execute cfg c).1 k u := by
  obtain ⟨e, he, hp⟩ := h
  cases c with
  | setMasterNx m => simp only [Store.execute]; split <;> exact ⟨e, he, hp⟩
  | setMasterIfEq m => simp only [Store.execute]; split <;> exact ⟨e, he, hp⟩
  | hsetexStat k' u' s =>
    rw [Stored, Store.execute, Store.setStatus_status]
    split
    · next hk =>
      subst hk
      rw [Table.lookup_insert_if]
      split
      · exact ⟨_, rfl, Option.some_ne_none s⟩
      · exact ⟨e, he, hp⟩
    · exact ⟨e, he, hp⟩
  | hdelStat k' u' =>
    rw [Stored, Store.execute, Store.setStatus_status]
    split
    · next hk =>
      subst hk
      rw [AList.lookup_erase_ne fun he ↦ hc (by rw [he])]
      exact ⟨e, he, hp⟩
    · exact ⟨e, he, hp⟩
  | _ => exact ⟨e, he, hp⟩

theorem stored_upload (cfg : Config) (st : Store) (k : RelayKind) (u : String) (s : RelayStatus) :
    Stored (st.execute cfg (.hsetexStat k u s)).1 k u := by
  rw [Stored, Store.execute, Store.setStatus_status, if_pos rfl, AList.lookup_insert]
  exact ⟨_, rfl, Option.some_ne_none s⟩

theorem syncs_reply {cfg : Config} {c : Command} {st : Store} {k : RelayKind} {r : Reply}
    (hc : Command.syncs k c = false) (hr : (st.execute cfg c).2 = some r) :
    Reply.syncs r = false ∧ ∀ entries, r ≠ .syncStat k entries := by
  cases c with
  | setMasterNx m => simp only [Store.execute] at hr; split at hr <;> cases hr
  | hgetallRecord k' => cases hr; exact ⟨rfl, fun _ he ↦ by cases he⟩
  | hgetallStat k' =>
    cases hr
    refine ⟨rfl, fun entries he ↦ ?_⟩
    cases he
    simp [Command.syncs] at hc
  | hgetallNode => cases hr; exact ⟨rfl, fun _ he ↦ by cases he⟩
  | getMaster => cases hc
  | setMasterIfEq m => cases hc
  | _ => cases hr

theorem tracked_exec {cfg : Config} {s : System} {n : String} {c : Command} {cs : List Command}
    {k : RelayKind} {u : String} (h : Tracked s.store k u (s.nodes n))
    (hq : (s.nodes n).pubQueue = c :: cs) :
    Tracked (s.perform cfg n c cs).store k u ((s.perform cfg n c cs).nodes n) := by
  have hreplies (r : Reply) (hr : r ∈ ((s.perform cfg n c cs).nodes n).replies) :
      r ∈ (s.nodes n).replies ∨ (s.store.execute cfg c).2 = some r := by
    simp only [perform, if_true, List.mem_append, Option.mem_toList] at hr
    exact hr
  have hqueue : ((s.perform cfg n c cs).nodes n).pubQueue = cs := if_pos rfl
  refine ⟨h.mapped, fun entries he ↦ ?_, ?_⟩
  · obtain he | he := hreplies _ he
    · exact h.listed entries he
    · have hst : Stored s.store k u := by
        obtain ha | ha := h.next
        · rw [Announced, hq] at ha
          obtain ⟨⟨st, rfl⟩, _⟩ | ⟨_, hc, _⟩ := ha.2.tail
          · cases he
          · exact absurd rfl ((syncs_reply hc he).2 entries)
        · exact ha.1
      obtain ⟨e, hl, hp⟩ := hst
      rw [execute_syncStat he]
      exact mem_listStatuses.mpr ⟨e.1, Store.mem_statusEntries.mpr ⟨e.2, hl⟩, hp⟩
  · obtain ha | ⟨hst, hd⟩ := h.next
    · rw [Announced, hq] at ha
      obtain ⟨⟨st, rfl⟩, hd⟩ | ⟨_, hc, hcs⟩ := ha.2.tail
      · exact .inr ⟨stored_upload cfg s.store k u st, by rwa [hqueue]⟩
      · refine .inl ⟨fun r hr ↦ ?_, by rwa [hqueue]⟩
        obtain hr | hr := hreplies r hr
        · exact ha.1 r hr
        · exact (syncs_reply hc hr).1
    · rw [hq, List.mem_cons, not_or] at hd
      exact .inr ⟨stored_execute hst (Ne.symm hd.1), by rw [hqueue]; exact hd.2⟩

theorem Tracked.extend {st : Store} {k : RelayKind} {u : String} {x y : RelayNode}
    {l : List Command} (h : Tracked st k u x) (hm : u ∈ (y.tables k).statusMap)
    (hr : ∀ r ∈ y.replies, r ∈ x.replies) (hq : y.pubQueue = x.pubQueue ++ l)
    (hd : .hdelStat k u ∉ l)
    (hs : UploadFirst k u x.pubQueue → UploadFirst k u (x.pubQueue ++ l)) : Tracked st k u y where
  mapped := hm
  listed entries he := h.listed entries (hr _ he)
  next := by
    rw [hq]
    refine h.next.imp (fun ha ↦ ⟨fun r hr' ↦ ha.1 r (hr r hr'), by rw [hq]; exact hs ha.2⟩)
      fun ⟨hst, hn⟩ ↦ ⟨hst, ?_⟩
    rw [List.mem_append, not_or]
    exact ⟨hn, hd⟩

theorem hdelStat_issued {self u : String} {n : RelayNode} {r : Reply} {k : RelayKind} :
    Command.hdelStat k u ∉ issued self n r := by
  cases r with
  | keepMaster renewed => cases renewed <;> simp [issued]
  | _ => simp [issued]

theorem syncs_issued {self : String} {n : RelayNode} {r : Reply} {k : RelayKind} {c : Command}
    (hr : Reply.syncs r = false) (hc : c ∈ issued self n r) : Command.syncs k c = false := by
  cases r with
  | setMaster m => cases hr
  | keepMaster renewed =>
    cases renewed with
    | true => cases hr
    | false => cases hc
  | syncList k' entries => cases hc
  | syncStat k' entries => cases hc
  | syncClusterNode =>
    simp only [issued, List.mem_append, List.mem_map] at hc
    obtain ⟨_, _, rfl⟩ | ⟨_, _, rfl⟩ := hc <;> rfl

theorem tracked_reply {st : Store} {k : RelayKind} {u self : String} {x : RelayNode} {r : Reply}
    {rs : List Reply} (h : Tracked st k u x) (hr : x.replies = r :: rs) :
    Tracked st k u (callback self r { x with replies := rs }) where
  mapped := by
    rw [callback_tables]
    cases r with
    | syncStat k' entries =>
      dsimp only
      split
      · next hk => subst hk; exact h.listed entries (hr ▸ List.mem_cons_self ..)
      · exact h.mapped
    | syncList k' entries => dsimp only; split <;> exact h.mapped
    | _ => exact h.mapped
  listed entries he := by
    rw [(callback_frame self r _).2.1] at he
    exact h.listed entries (hr ▸ .tail r he)
  next := by
    rw [Announced, (callback_frame self r _).2.1, callback_pubQueue]
    refine h.next.imp (fun ha ↦ ⟨fun r' hr' ↦ ha.1 r' (hr ▸ .tail r hr'), ?_⟩) fun ⟨hst, hn⟩ ↦
      ⟨hst, List.mem_append.not.mpr (not_or.mpr ⟨hn, hdelStat_issued⟩)⟩
    have hsync : Reply.syncs r = false := ha.1 r (hr ▸ List.mem_cons_self ..)
    exact ha.2.append hdelStat_issued fun _ ↦
      uploadFirst_of_forall (fun c hc ↦ syncs_issued hsync hc) hdelStat_issued

theorem tracked_tick {st : Store} {k : RelayKind} {u : String} {x : RelayNode}
    (h : Tracked st k u x) (self : String) : Tracked st k u (timeoutCallback self x) := by
  refine h.extend h.mapped (fun _ hr ↦ hr) (timeoutCallback_pubQueue self x) ?_ fun hq ↦ ?_
  · simp [statusUploads]
  · rw [← timeoutCallback_pubQueue]
    exact uploadFirst_tick hq h.mapped

theorem tracked_report {st : Store} {k : RelayKind} {u : String} {x : RelayNode}
    (h : Tracked st k u x) (k' : RelayKind) (v c : String) (i : Int) :
    Tracked st k u (updateRelayInfo k' v c i x) := by
  have hf := updateRelayInfo_frame k' v c i x
  have hm : u ∈ ((updateRelayInfo k' v c i x).tables k).statusMap :=
    mem_statusMap_updateRelayInfo.mpr h.mapped
  have hr : ∀ r ∈ (updateRelayInfo k' v c i x).replies, r ∈ x.replies := fun r h ↦ hf.2.2.1 ▸ h
  obtain hq | ⟨s, hq⟩ := updateRelayInfo_pubQueue k' v c i x
  · exact h.extend hm hr (hq.trans (List.append_nil _).symm) List.not_mem_nil (by simp)
  · refine h.extend hm hr hq (by simp) fun hu ↦ hu.append (by simp) fun _ ↦ ?_
    exact uploadFirst_of_forall (by simp [Command.syncs]) (by simp)

theorem tracked_response {st : Store} {self : String} {msg : RelayMsg} {n x : RelayNode}
    (hx : ResponseCase self msg n x) (h : ∀ k u, u ∈ (n.tables k).objMap → Tracked st k u n)
    (hm : KeyedMsg msg)
    (ha : ∀ k, relayKindOf msg.type = some k → msg.operate = .active →
      msg.target ∉ (n.tables k).statusMap → ∀ record, msg.msgStr.toProto = some record →
        record.uid = msg.target ∧ Announced k msg.target n ∧ Listed k msg.target n)
    (k : RelayKind) (u : String) (hu : u ∈ (x.tables k).objMap) : Tracked st k u x := by
  cases hx with
  | ignored => exact h k u hu
  | started k' hk ho hnew =>
    have hmap : u ∈ (n.tables k).statusMap ∨ k = k' ∧ u = msg.target →
        u ∈ ((n.setTables k' (startedTables k' self msg (n.tables k'))).tables k).statusMap := by
      rw [RelayNode.setTables_tables]
      split
      · next hkk =>
        subst hkk
        exact fun h ↦ (AList.mem_insert _).mpr (h.symm.imp And.right id)
      · next hkk => exact fun h ↦ h.resolve_right fun h ↦ hkk h.1
    have hold : u ∈ (n.tables k).objMap → Tracked st k u
        (n.setTables k' (startedTables k' self msg (n.tables k'))) := fun hu ↦
      ⟨hmap (.inl (h k u hu).mapped), (h k u hu).listed, (h k u hu).next⟩
    rw [RelayNode.setTables_tables] at hu
    split at hu
    · next hkk =>
      subst hkk
      rw [startedTables, processRelayOf_active ho] at hu
      cases hp : msg.msgStr.toProto with
      | none => rw [hp] at hu; exact hold hu
      | some record =>
        rw [hp] at hu
        obtain ⟨hr, hann, hlist⟩ := ha k hk ho hnew record hp
        rcases mem_createObject.mp hu with hu | hu
        · have hu' : u = msg.target := hu.trans hr
          subst hu'
          exact ⟨hmap (.inr ⟨rfl, rfl⟩), hlist, .inl hann⟩
        · exact hold hu
    · exact hold hu
  | stopped k' hk ho hmem =>
    obtain ⟨record, hp, hr⟩ := hm ho
    have hne : u ∈ (n.tables k).objMap ∧ (k = k' → u ≠ msg.target) := by
      rw [RelayNode.send_tables, RelayNode.setTables_tables] at hu
      split at hu
      · next hkk =>
        subst hkk
        rw [stoppedTables, processRelayOf_inactive ho, hp] at hu
        exact ⟨(AList.mem_erase.mp hu).2, fun _ ↦ hr ▸ (AList.mem_erase.mp hu).1⟩
      · next hkk => exact ⟨hu, fun he ↦ absurd he hkk⟩
    have hd : Command.hdelStat k u ∉ [Command.hdelStat k' msg.target] := fun he ↦ by
      cases List.mem_singleton.mp he
      exact hne.2 rfl rfl
    refine (h k u hne.1).extend ?_ (fun _ hr ↦ hr) rfl hd fun hq ↦ hq.append hd fun _ ↦ ?_
    · rw [RelayNode.send_tables, RelayNode.setTables_tables]
      split
      · next hkk => subst hkk; exact AList.mem_erase.mpr ⟨hne.2 rfl, (h k u hne.1).mapped⟩
      · exact (h k u hne.1).mapped
    · exact uploadFirst_of_forall (by simp [Command.syncs]) hd

theorem tracksAll_step {cfg : Config} {n : String} {s t : System} {a : Action} {es : List Refresh}
    (hk : Keyed s) (ho : Only n s) (h : TracksAll n s) (ha : KeepsStatus n s a)
    (hs : (relayMachine cfg).step s a = some (t, es)) : TracksAll n t := by
  have hacts {m : String} (hm : s.nodes m ≠ {}) : m = n := by
    by_contra hne
    exact hm (ho m hne)
  have hempty (b : Bool) : TracksAll n (s.setNode n { live := b }) := fun k u hu ↦ by
    rw [setNode_same] at hu
    exact absurd hu (AList.notMem_empty u)
  cases step_cases hs with
  | start m _ => cases (ha : m = n); exact hempty true
  | stop m hl =>
    cases hacts fun he ↦ by rw [he] at hl; cases hl
    exact hempty false
  | tick m hl =>
    cases hacts fun he ↦ by rw [he] at hl; cases hl
    intro k u hu
    rw [move, setNode_same] at hu ⊢
    exact tracked_tick (h k u hu) n
  | exec m c cs hq =>
    cases hacts fun he ↦ by rw [he] at hq; cases hq
    exact fun k u hu ↦ tracked_exec (h k u hu) hq
  | reply m r rs hr =>
    cases hacts fun he ↦ by rw [he] at hr; cases hr
    intro k u hu
    rw [move, setNode_same] at hu ⊢
    refine tracked_reply (h k u ?_) hr
    rwa [callback_objMap] at hu
  | deliver m i msg hm =>
    cases hacts fun he ↦ by rw [he] at hm; simp at hm
    intro k u hu
    rw [move, setNode_same] at hu ⊢
    refine tracked_response
      (response_cases n msg { s.nodes n with inbox := (s.nodes n).inbox.eraseIdx i })
      (fun k u hu ↦ ⟨(h k u hu).mapped, (h k u hu).listed, (h k u hu).next⟩)
      ((hk.node n).received msg (List.mem_of_getElem? hm)) (ha msg hm) k u hu
  | report m k' v c i hv =>
    cases hacts fun he ↦ by rw [he] at hv; exact AList.notMem_empty v hv
    intro k u hu
    rw [move, setNode_same] at hu ⊢
    rw [updateRelayInfo_objMap] at hu
    exact tracked_report (h k u hu) k' v c i
  | http k' req =>
    intro k u hu
    obtain ⟨m, hm⟩ := handleHttp_store k' req s.store
    have hst : Stored (handleHttp k' req s.store).1 k u ↔ Stored s.store k u := by rw [hm]; rfl
    exact ⟨(h k u hu).mapped, (h k u hu).listed, (h k u hu).next.imp id fun h ↦ ⟨hst.mpr h.1, h.2⟩⟩
  | httpExec i c hc =>
    intro k u hu
    refine ⟨(h k u hu).mapped, (h k u hu).listed, ?_⟩
    cases c with
    | hsetRecord k' v text => exact (h k u hu).next
    | hdelStat k' v =>
      by_cases he : k = k' ∧ u = v
      · obtain ⟨rfl, rfl⟩ := he
        exact .inl (ha k u hc hu)
      · refine (h k u hu).next.imp id fun ⟨hst, hd⟩ ↦ ⟨?_, hd⟩
        have hne : Command.hdelStat k' v ≠ .hdelStat k u := fun hce ↦ by
          cases hce; exact he ⟨rfl, rfl⟩
        exact @stored_execute cfg _ _ _ _ hst hne
  | advance d =>
    intro k u hu
    refine ⟨(h k u hu).mapped, (h k u hu).listed, ?_⟩
    obtain ha' | ⟨⟨e, hl, hp⟩, hd⟩ := (h k u hu).next
    · exact .inl ha'
    · by_cases hlt : s.store.now + d < e.2
      · exact .inr ⟨⟨e, Store.lookup_advance.mpr ⟨hl, hlt⟩, hp⟩, hd⟩
      · exact .inl (ha k u hu e hl (not_lt.mp hlt))

theorem stoppable_of_tracks {n : String} {s : System} (hk : Keyed s) (h : TracksAll n s) :
    Stoppable n s := by
  intro k u hu
  obtain ⟨st, hst⟩ := Table.mem_iff_lookup.mp (h k u hu).mapped
  refine ⟨st, hst, fun reason k' ↦ ?_⟩
  have huid : st.uid = u := (hk.node n).statuses k u st hst
  rw [relayTaskResponse_stop (h k u hu).mapped, RelayNode.send_tables, RelayNode.setTables_tables]
  split
  · rw [stoppedTables, processRelayOf_inactive rfl]
    change ((s.nodes n).tables k).objMap.erase st.uid = _
    rw [huid]
  · rfl

/-- In every run of one node in which records name their fields and a missing status field is
uploaded before the next synchronisation, every live relay object can be stopped. -/
theorem live_stoppable (cfg : Config) (n : String) {s t : System} (hs : s.Offline)
    (hk : KeyedStore s.store) (h : (relayMachine cfg).Reach (KeepsStatus n) s t) :
    Stoppable n t := by
  have hinv : Keyed t ∧ Only n t ∧ TracksAll n t := by
    refine h.invariant (I := fun s ↦ Keyed s ∧ Only n s ∧ TracksAll n s)
      ⟨keyed_offline hs hk, fun m _ ↦ hs m, fun k u hu ↦ ?_⟩ fun s a _ _ hi ha hst ↦
        ⟨keyed_step hi.1 hst, only_step hi.2.1 ?_ hst, tracksAll_step hi.1 hi.2.1 hi.2.2 ha hst⟩
    · rw [hs n] at hu
      exact absurd hu (AList.notMem_empty u)
    · cases a <;> first | exact ha | trivial
  exact stoppable_of_tracks hinv.1 hinv.2.2

def taskRecord : RecordText := .object (.value "u") (.value true) (some {}) ""

def distribution : List Action :=
  [.http .pull (.create taskRecord), .start "A"] ++ period "A" 0 ++ [.exec "A"]

theorem live_stoppable_distribution :
    ∃ t, (relayMachine defaultConfig).Reach (KeepsStatus "A") {} t ∧
    "u" ∈ ((t.nodes "A").tables .pull).objMap ∧ Stoppable "A" t := by
  have hok : (relayMachine defaultConfig).Meets (KeepsStatus "A") {} distribution := by
    refine Machine.meets_of_forall (fun a ha s ↦ ?_) _
    simp only [distribution, period, execs, replies, List.mem_append, List.mem_replicate,
      List.mem_cons, List.not_mem_nil, or_false] at ha
    rcases ha with ((rfl | rfl) | (((((rfl | h) | h) | h) | h) | h) | h) | rfl <;>
      first | rfl | trivial | (rw [h.2]; trivial)
  obtain ⟨t, ht, hv⟩ := Machine.exists_reach (fun t : System ↦
    ((t.nodes "A").inbox, (t.nodes "A").pubQueue, (t.nodes "A").replies,
      ((relayMachine defaultConfig).step t (.deliver "A" 0)).map fun p : System × _ ↦
        decide ("u" ∈ ((p.1.nodes "A").tables .pull).objMap)))
    (v := ([taskMsg .pull .active "u" (.record taskRecord) "Pull Task Active"], [], [], some true))
    hok (by decide +kernel)
  obtain ⟨hin, hv⟩ := Prod.mk.inj hv
  obtain ⟨hq, hv⟩ := Prod.mk.inj hv
  obtain ⟨hr, hv⟩ := Prod.mk.inj hv
  obtain ⟨p, hp, hu⟩ := Option.map_eq_some_iff.mp hv
  have hkeep : KeepsStatus "A" t (.deliver "A" 0) := by
    intro msg hm k hk _ _ record hrec
    rw [hin] at hm
    cases hm
    cases hrec
    refine ⟨rfl, ⟨fun r h ↦ ?_, ?_⟩, fun e h ↦ ?_⟩
    · rw [hr] at h; cases h
    · rw [hq]; trivial
    · rw [hr] at h; cases h
  have hreach := ht.tail (u := p.1) hkeep hp
  exact ⟨p.1, hreach, of_decide_eq_true hu,
    live_stoppable defaultConfig "A" (fun _ ↦ rfl) keyedStore_empty hreach⟩

/-- The record of a running task is deleted, and its status field with it, between the upload of
the status and the synchronisation of the same tick. -/
def deletion : List Action :=
  distribution ++ [.deliver "A" 0, .tick "A", .exec "A", .http .pull (.delete "u"), .httpExec 0] ++
    execs "A" 4 ++ replies "A" 3

theorem not_live_stoppable : ¬ ∀ s t, s.Offline → KeyedStore s.store →
    (relayMachine defaultConfig).Reach (fun _ ↦ StartsOnly "A") s t → Stoppable "A" t := by
  intro h
  have hok : (relayMachine defaultConfig).Meets (fun _ ↦ StartsOnly "A") {} deletion := by
    decide +kernel
  obtain ⟨t, ht, hv⟩ := Machine.exists_reach (fun t : System ↦
    (decide ("u" ∈ ((t.nodes "A").tables .pull).objMap),
      decide ("u" ∈ ((t.nodes "A").tables .pull).statusMap)))
    (v := (true, false)) hok (by decide +kernel)
  obtain ⟨hu, hm⟩ := Prod.mk.inj hv
  obtain ⟨st, hst, _⟩ := h {} t (fun _ ↦ rfl) keyedStore_empty ht .pull "u" (of_decide_eq_true hu)
  exact of_decide_eq_false hm (Table.mem_of_lookup hst)

end NavCaster.Relay.Stop
