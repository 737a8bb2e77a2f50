import NavCaster.Library.Lease
import NavCaster.Relay.Cluster

namespace NavCaster.Relay.Master

open Relation
open NavCaster.Library
open NavCaster.Relay.Record
open NavCaster.Relay.Node
open NavCaster.Relay.Cluster
open NavCaster.Relay.Cluster.System

/-- The node acts as master, or will do so when it sees a reply that is on its way. -/
def Confirmed (x : RelayNode) : Prop := x.isMaster = true ∨ Reply.keepMaster true ∈ x.replies

def lease (s : System) : Lease String := ⟨s.store.masterId, {n | Confirmed (s.nodes n)}⟩

/-- `CASTER:MASTER` outlives the process that owns it. -/
def ExpiresAfterStop (s : System) : Action → Prop
  | .advance d => ∀ e ∈ s.store.master, e.2 ≤ s.store.now + d → (s.nodes e.1).live = false
  | _ => True

instance : ∀ (s : System) (a : Action), Decidable (ExpiresAfterStop s a)
  | s, .advance _ => inferInstanceAs (Decidable (∀ e ∈ s.store.master, _ → _))
  | _, .start _ | _, .stop _ | _, .tick _ | _, .exec _ | _, .reply _ | _, .deliver _ _
  | _, .report _ _ _ _ _ | _, .http _ _ | _, .httpExec _ => isTrue trivial

def Signed (s : System) : Prop := ∀ n m, Command.setMasterIfEq m ∈ (s.nodes n).pubQueue → m = n

theorem Signed.setNode {s : System} (h : Signed s) {n : String} {x : RelayNode}
    (hx : ∀ m, Command.setMasterIfEq m ∈ x.pubQueue →
      Command.setMasterIfEq m ∈ (s.nodes n).pubQueue ∨ m = n) : Signed (s.setNode n x) := by
  intro m m' hm
  rw [setNode_nodes] at hm
  split at hm
  · next he => subst he; exact (hx m' hm).elim (h m m') id
  · exact h m m' hm

theorem setMasterIfEq_issued {self m : String} {n : RelayNode} {r : Reply}
    (h : Command.setMasterIfEq m ∈ issued self n r) : m = self := by
  cases r with
  | setMaster r => simpa [issued] using h
  | keepMaster renewed => cases renewed <;> simp [issued] at h
  | syncList k entries => simp [issued] at h
  | syncStat k entries => simp [issued] at h
  | syncClusterNode => simp [issued] at h

theorem signed_step {cfg : Config} {s t : System} {a : Action} {es : List Refresh} (h : Signed s)
    (hs : (relayMachine cfg).step s a = some (t, es)) : Signed t := by
  cases step_cases hs with
  | start n _ => exact h.setNode fun m hm ↦ by cases hm
  | stop n _ => exact h.setNode fun m hm ↦ by cases hm
  | tick n _ =>
    refine h.setNode fun m hm ↦ .inl ?_
    simpa [timeoutCallback_pubQueue, statusUploads] using hm
  | exec n c cs hq =>
    intro m m' hm
    refine h m m' ?_
    simp only [perform] at hm
    split at hm
    · next he => subst he; rw [hq]; exact List.mem_cons_of_mem _ hm
    · exact hm
  | reply n r rs _ =>
    refine h.setNode fun m hm ↦ ?_
    rw [callback_pubQueue] at hm
    exact (List.mem_append.mp hm).imp id setMasterIfEq_issued
  | deliver n i msg _ =>
    refine h.setNode fun m hm ↦ .inl ?_
    obtain he | ⟨k, he⟩ := (response_cases n msg _).pubQueue
    · rwa [he] at hm
    · simpa [he] using hm
  | report n k u c i _ =>
    refine h.setNode fun m hm ↦ .inl ?_
    obtain he | ⟨st, he⟩ := updateRelayInfo_pubQueue k u c i (s.nodes n)
    · rwa [he] at hm
    · simpa [he] using hm
  | http k req => exact h
  | httpExec i c _ => exact h
  | advance d => exact h

theorem withdraw_step {l : Lease String} {t : System} (ho : t.store.masterId = l.owner)
    (hc : ∀ m, Confirmed (t.nodes m) → m ∈ l.confirmed) : Lease.Step l (lease t) := by
  rw [lease, ho]
  exact .withdraw l _ hc

/-- A node that is not confirmed anew leaves the lease as it is, or loses it. -/
theorem lease_move {s : System} {n : String} {x : RelayNode}
    (hx : Confirmed x → Confirmed (s.nodes n)) :
    ReflTransGen Lease.Step (lease s) (lease (s.setNode n x)) := by
  refine .single (withdraw_step rfl fun m hm ↦ ?_)
  rw [setNode_nodes] at hm
  split at hm
  · next he => subst he; exact hx hm
  · exact hm

theorem lease_eq {s t : System} (ho : t.store.masterId = s.store.masterId)
    (hn : ∀ m, Confirmed (t.nodes m) ↔ Confirmed (s.nodes m)) :
    ReflTransGen Lease.Step (lease s) (lease t) := by
  have he : lease t = lease s := by
    simp only [lease, ho, hn]
  rw [he]

theorem execute_keepMaster {cfg : Config} {c : Command} {st : Store}
    (h : (st.execute cfg c).2 = some (.keepMaster true)) :
    ∃ m, c = .setMasterIfEq m ∧ st.masterId = some m := by
  cases c with
  | setMasterIfEq m =>
    simp only [Store.execute] at h
    split at h
    · next hm => exact ⟨m, rfl, hm⟩
    · cases h
  | setMasterNx m =>
    simp only [Store.execute] at h
    split at h <;> cases h
  | _ => cases h

theorem execute_masterId (cfg : Config) (c : Command) (st : Store) :
    (st.execute cfg c).1.masterId = match c with
      | .setMasterNx m => some (st.masterId.getD m)
      | _ => st.masterId := by
  cases c with
  | setMasterNx m =>
    simp only [Store.execute, Store.masterId]
    split
    · next h => simp [h]
    · next h => simp [h]
  | setMasterIfEq m =>
    simp only [Store.execute]
    split
    · next h => exact h.symm
    · rfl
  | _ => rfl

theorem confirmed_perform {cfg : Config} {s : System} {n m : String} {c : Command}
    {cs : List Command} : Confirmed ((s.perform cfg n c cs).nodes m) ↔
      Confirmed (s.nodes m) ∨ m = n ∧ (s.store.execute cfg c).2 = some (.keepMaster true) := by
  by_cases h : m = n
  · subst h
    simp [Confirmed, perform, or_assoc]
  · simp [Confirmed, perform, h]

theorem lease_exec {cfg : Config} {s : System} {n : String} {c : Command} {cs : List Command}
    (hs : Signed s) (hq : (s.nodes n).pubQueue = c :: cs) :
    ReflTransGen Lease.Step (lease s) (lease (s.perform cfg n c cs)) := by
  have ho := execute_masterId cfg c s.store
  by_cases hk : (s.store.execute cfg c).2 = some (.keepMaster true)
  · obtain ⟨m, rfl, hm⟩ := execute_keepMaster hk
    have hmn : m = n := hs n m (hq ▸ List.mem_cons_self ..)
    subst hmn
    refine .trans (.single (.confirm (lease s) m hm)) (.single (withdraw_step ho fun x hx ↦ ?_))
    exact (confirmed_perform.mp hx).elim (fun h ↦ .inr h) (fun h ↦ .inl h.1)
  · have hn : ∀ x, Confirmed ((s.perform cfg n c cs).nodes x) ↔ Confirmed (s.nodes x) :=
      fun x ↦ confirmed_perform.trans ⟨fun h ↦ h.resolve_right fun h ↦ hk h.2, .inl⟩
    cases c with
    | setMasterNx m =>
      cases hm : s.store.masterId with
      | some o => exact lease_eq (ho.trans (by simp [hm])) hn
      | none =>
        have hl : lease (s.perform cfg n (.setMasterNx m) cs) = ⟨some m, (lease s).confirmed⟩ := by
          have ho' : (s.perform cfg n (.setMasterNx m) cs).store.masterId = some m :=
            ho.trans (by simp [hm])
          simp only [lease, ho', hn]
        rw [hl]
        exact .single (.acquire (lease s) m hm)
    | _ => exact lease_eq ho hn

theorem advance_masterId {st : Store} {e : String × Nat} (h : st.master = some e) (d : Nat) :
    (st.advance d).masterId = if st.now + d < e.2 then some e.1 else none := by
  by_cases hd : st.now + d < e.2 <;> simp [Store.masterId, Store.advance, h, Option.filter, hd]

theorem lease_advance {s : System} (hq : Quiet s) {d : Nat} (h : ExpiresAfterStop s (.advance d)) :
    ReflTransGen Lease.Step (lease s) (lease { s with store := s.store.advance d }) := by
  cases hm : s.store.master with
  | none => exact lease_eq (by simp [Store.masterId, Store.advance, hm]) fun _ ↦ Iff.rfl
  | some e =>
    have ho := advance_masterId hm d
    have hs : s.store.masterId = some e.1 := by rw [Store.masterId, hm]; rfl
    split at ho
    · exact lease_eq (ho.trans hs.symm) fun _ ↦ Iff.rfl
    · next hd =>
      rw [show lease { s with store := s.store.advance d } = ⟨none, (lease s).confirmed⟩ by
        rw [lease, ho]; rfl]
      refine .single (.expire (lease s) fun a ha hc ↦ ?_)
      have he : e.1 = a := Option.some.inj (hs.symm.trans ha)
      have hdead := hq a (he ▸ h e hm (not_lt.mp hd))
      change Confirmed (s.nodes a) at hc
      rw [hdead] at hc
      obtain hc | hc := hc
      · cases hc
      · cases hc

theorem lease_step {cfg : Config} {s t : System} {a : Action} {es : List Refresh} (hq : Quiet s)
    (hs : Signed s) (ha : ExpiresAfterStop s a) (h : (relayMachine cfg).step s a = some (t, es)) :
    ReflTransGen Lease.Step (lease s) (lease t) := by
  cases step_cases h with
  | start n _ => exact lease_move fun h ↦ h.elim nofun nofun
  | stop n _ => exact lease_move fun h ↦ h.elim nofun nofun
  | tick n _ => exact lease_move id
  | exec n c cs hc => exact lease_exec hs hc
  | reply n r rs hr =>
    refine lease_move fun hx ↦ ?_
    rw [Confirmed, callback_isMaster, (callback_frame n r _).2.1] at hx
    rw [Confirmed, hr]
    cases r with
    | keepMaster renewed =>
      refine hx.elim (fun hb ↦ .inr ?_) fun hm ↦ .inr (List.mem_cons_of_mem _ hm)
      rw [show renewed = true from hb]
      exact List.mem_cons_self ..
    | _ => exact hx.imp id (List.mem_cons_of_mem _)
  | deliver n i msg _ =>
    have hf := (response_cases n msg { s.nodes n with inbox := (s.nodes n).inbox.eraseIdx i }).frame
    refine lease_move fun hx ↦ ?_
    rwa [Confirmed, hf.2.1, hf.2.2.1] at hx
  | report n k u c i _ =>
    have hf := updateRelayInfo_frame k u c i (s.nodes n)
    refine lease_move fun hx ↦ ?_
    rwa [Confirmed, hf.2.1, hf.2.2.1] at hx
  | http k req =>
    obtain ⟨m, hm⟩ := handleHttp_store k req s.store
    have ho : (handleHttp k req s.store).1.masterId = s.store.masterId := by rw [hm]; rfl
    exact lease_eq ho fun _ ↦ Iff.rfl
  | httpExec i c _ =>
    refine lease_eq ?_ fun _ ↦ Iff.rfl
    cases c <;> rfl
  | advance d => exact lease_advance hq ha

theorem exclusive_offline {s : System} (h : s.Offline) : (lease s).Exclusive := by
  intro n hn
  change Confirmed (s.nodes n) at hn
  rw [h n] at hn
  exact hn.elim nofun nofun

theorem signed_offline {s : System} (h : s.Offline) : Signed s := fun n m hm ↦ by
  rw [h n] at hm
  cases hm

/-- While the key of the master outlives the process that owns it, a live node that acts as master
owns the key, and no two nodes do. -/
theorem master_exclusive (cfg : Config) {s t : System} (hs : s.Offline)
    (h : (relayMachine cfg).Reach ExpiresAfterStop s t) :
    (∀ n, (t.nodes n).live = true → (t.nodes n).isMaster = true → t.store.masterId = some n) ∧
      ∀ m n, (t.nodes m).live = true → (t.nodes m).isMaster = true →
        (t.nodes n).live = true → (t.nodes n).isMaster = true → m = n := by
  have hr : ReflTransGen Lease.Step (lease s) (lease t) :=
    h.simulates (I := fun s ↦ Quiet s ∧ Signed s) ⟨hs.quiet, signed_offline hs⟩
      (fun _ _ _ _ hi _ hst ↦ ⟨quiet_step hi.1 hst, signed_step hi.2 hst⟩)
      (fun _ _ _ _ hi ha hst ↦ lease_step hi.1 hi.2 ha hst)
  have he := Lease.exclusive_run (exclusive_offline hs) hr
  refine ⟨fun n _ hn ↦ he n (.inl hn), fun m n _ hm _ hn ↦ ?_⟩
  exact he.unique (.inl hm) (.inl hn)

def acquisition : List Action :=
  [.start "A", .start "B", .tick "B"] ++ period "A" 0 ++ execs "B" 4 ++ [.advance 5]

theorem master_exclusive_acquisition :
    ∃ t, (relayMachine defaultConfig).Reach ExpiresAfterStop {} t ∧ (t.nodes "A").isMaster = true ∧
      t.store.masterId = some "A" := by
  have hok : (relayMachine defaultConfig).Meets ExpiresAfterStop {} acquisition := by decide +kernel
  have hobs : ((relayMachine defaultConfig).exec {} acquisition).map (fun p ↦
      ((p.1.nodes "A").live, (p.1.nodes "A").isMaster)) = some (true, true) := by decide +kernel
  obtain ⟨t, ht, hA⟩ := Machine.exists_reach
    (fun t : System ↦ ((t.nodes "A").live, (t.nodes "A").isMaster)) hok hobs
  obtain ⟨hl, hm⟩ := Prod.mk.inj hA
  exact ⟨t, ht, hm, (master_exclusive defaultConfig (fun _ ↦ rfl) ht).1 "A" hl hm⟩

end NavCaster.Relay.Master
