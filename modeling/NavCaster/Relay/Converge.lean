import NavCaster.Relay.Reconcile

namespace NavCaster.Relay.Converge

open NavCaster.Library
open NavCaster.Relay.Record
open NavCaster.Relay.Node
open NavCaster.Relay.Cluster
open NavCaster.Relay.Round
open NavCaster.Relay.Reconcile

variable {cfg : Config} {n : String}

def Settled (a : Key) (c : Cell) : Prop :=
  match c.record with
  | none => c.stored = none ∧ c.status = none ∧ c.object = none
  | some j =>
    (∃ st, c.status = some st ∧ st.uid = a.2) ∧ c.distributed = some j ∧
      c.object = Cell.started a.1 j

structure Cleared (c : Cell) : Prop where
  stored : c.stored = none
  status : c.status = none
  object : c.object = none

structure Consistent (a : Key) (c : Cell) : Prop where
  uid : ∀ st, c.merged = some st → st.uid = a.2
  object : c.object ≠ none → c.status ≠ none
  current : ∀ j, c.record = some j → c.distributed = some j → c.merged ≠ none →
    c.object = Cell.started a.1 j

def Progress (a : Key) (c : Cell) : Nat → Prop
  | 0 => Consistent a c
  | 1 => Settled a c ∨ Cleared c
  | _ + 2 => Settled a c

theorem settled_period {a : Key} {c : Cell} (h : Settled a c) : Settled a (c.period n a) := by
  unfold Settled Cell.period Cell.merged at *
  cases hr : c.record with
  | none =>
    simp only [hr] at h ⊢
    obtain ⟨hst, hs, ho⟩ := h
    simp only [hst, hs, Option.or_none, ho, and_self]
  | some j =>
    simp only [hr] at h ⊢
    obtain ⟨⟨st, hs, hu⟩, hd, ho⟩ := h
    simp only [hs, Option.some_or, hd, if_true]
    exact ⟨⟨st, rfl, hu⟩, trivial, ho⟩

theorem settled_task {a : Key} {c : Cell} (h : Settled a c) : c.task a = none := by
  unfold Settled Cell.task Cell.merged at *
  cases hr : c.record with
  | none =>
    simp only [hr] at h ⊢
    simp only [h.1, h.2.1, Option.or_none]
  | some j =>
    simp only [hr] at h ⊢
    obtain ⟨⟨st, hs, _⟩, hd, _⟩ := h
    simp only [hs, Option.some_or, hd, if_true]

theorem cleared_period {a : Key} {c : Cell} (h : Cleared c) : Settled a (c.period n a) := by
  unfold Settled Cell.period Cell.merged
  cases hr : c.record with
  | none => simp only [h.stored, h.status, h.object, Option.or_none, and_self]
  | some j =>
    simp only [h.stored, h.status, Option.or_none]
    exact ⟨⟨_, rfl, rfl⟩, trivial, trivial⟩

theorem consistent_period {a : Key} {c : Cell} (h : Consistent a c) :
    Settled a (c.period n a) ∨ Cleared (c.period n a) := by
  unfold Cell.period
  cases hr : c.record with
  | none =>
    cases hm : c.merged with
    | none =>
      have hs : c.status = none := (Option.or_eq_none_iff.mp hm).1
      have ho : c.object = none := by
        by_contra ho
        exact h.object ho hs
      exact .inr ⟨rfl, rfl, ho⟩
    | some st => exact .inr ⟨rfl, rfl, rfl⟩
  | some j =>
    cases hm : c.merged with
    | none =>
      refine .inl ?_
      unfold Settled
      simp only
      exact ⟨⟨_, rfl, rfl⟩, trivial, trivial⟩
    | some st =>
      by_cases hd : c.distributed = some j
      · refine .inl ?_
        unfold Settled
        simp only [hd, if_true]
        exact ⟨⟨st, rfl, h.uid st hm⟩, trivial, h.current j hr hd (by rw [hm]; nofun)⟩
      · simp only [if_neg hd]
        exact .inr ⟨rfl, rfl, rfl⟩

theorem progress_period {a : Key} {c : Cell} {i : Nat} (h : Progress a c i) :
    Progress a (c.period n a) (i + 1) := by
  match i, h with
  | 0, h => exact consistent_period h
  | 1, h => exact h.elim settled_period cleared_period
  | _ + 2, h => exact settled_period h

theorem progress_elapse {a : Key} {c c' : Cell} {i : Nat} (h : Progress a c i)
    (hst : c'.stored = none ∨ c' = c)
    (hc : c' = { c with stored := c'.stored }) : Progress a c' i := by
  rcases hst with hst | rfl
  · rw [hst] at hc
    subst hc
    have hsettled (h : Settled a c) : Settled a { c with stored := none } := by
      unfold Settled at *
      cases hr : c.record with
      | none => simp only [hr] at h ⊢; exact ⟨trivial, h.2⟩
      | some j => simp only [hr] at h ⊢; exact h
    match i, h with
    | 0, h =>
      have hm : ∀ st, c.status.or none = some st → c.merged = some st := by
        intro st hs
        rw [Option.or_none] at hs
        rw [Cell.merged, hs, Option.some_or]
      refine ⟨fun st hs ↦ h.uid st (hm st hs), h.object, fun j hr hd hne ↦ h.current j hr hd ?_⟩
      obtain ⟨st, hs⟩ := Option.ne_none_iff_exists'.mp hne
      rw [hm st hs]
      nofun
    | 1, h => exact h.imp hsettled fun h ↦ ⟨rfl, h.status, h.object⟩
    | _ + 2, h => exact hsettled h
  · exact h

def periods (cfg : Config) (n : String) : List Nat → System → System
  | [], s => s
  | d :: ds, s =>
    let s' := relayRound cfg n s
    periods cfg n ds { s' with store := s'.store.advance d }

theorem cellOf_advance (s : System) (d : Nat) (a : Key) :
    ∃ c', cellOf n { s with store := s.store.advance d } a = c' ∧
      (c'.stored = none ∨ c' = cellOf n s a) ∧ c' = { cellOf n s a with stored := c'.stored } := by
  refine ⟨_, rfl, ?_, rfl⟩
  have hst : stored (s.store.advance d) a = none ∨
      stored (s.store.advance d) a = stored s.store a := by
    rw [stored, Store.advance, Table.lookup_filterMap, stored]
    cases (s.store.status a.1).lookup a.2 with
    | none => exact .inl rfl
    | some e =>
      rw [Option.bind_some]
      split
      · exact .inr rfl
      · exact .inl rfl
  exact hst.imp id fun h ↦ by rw [cellOf, cellOf, h]; rfl

def RecordsNamed (st : Store) : Prop :=
  ∀ k f j p, (st.records k).lookup f = some j → j.toProto = some p → p.uid = f

theorem named_of_progress {s : System} {i : Nat} {a : Key} (hrec : RecordsNamed s.store)
    (h : Progress a (cellOf n s a) i) : (cellOf n s a).Named a.2 := by
  refine ⟨fun j p hj hp ↦ hrec a.1 a.2 j p (enabledText_spec hj).1 hp, fun st hm ↦ ?_⟩
  generalize cellOf n s a = c at h hm
  have hsettled (h : Settled a c) : st.uid = a.2 := by
    unfold Settled at h
    unfold Cell.merged at hm
    split at h
    · rw [h.1, h.2.1] at hm; cases hm
    · obtain ⟨⟨st', hs, hu⟩, _⟩ := h
      rw [hs] at hm
      cases hm
      exact hu
  match i, h with
  | 0, h => exact h.uid st hm
  | 1, h =>
    rcases h with h | h
    · exact hsettled h
    · rw [Cell.merged, h.stored, h.status] at hm; cases hm
  | _ + 2, h => exact hsettled h

structure Underway (n : String) (R : RelayKind → Table String RecordText) (s : System) (i : Nat) :
    Prop where
  ready : Ready n s
  records : s.store.records = R
  progress : ∀ a, Progress a (cellOf n s a) i

theorem underway_advance {R : RelayKind → Table String RecordText} {s s' : System} {i d : Nat}
    (hr : RoundSpec cfg n s s') (h : Underway n R s i) (hd : d < cfg.masterExpireTime) :
    Underway n R { s' with store := s'.store.advance d } (i + 1) := by
  refine ⟨⟨hr.ready.live, hr.ready.queue, hr.ready.replies, hr.ready.inbox, ?_⟩,
    hr.records.trans h.records, fun a ↦ ?_⟩
  · have hlt : s'.store.now + d < s.store.now + cfg.masterExpireTime := by
      rw [hr.now]
      omega
    simp only [Store.masterId, Store.advance, hr.master, Option.filter, hlt, decide_true, if_true,
      Option.map_some]
  · obtain ⟨c', hc, hst, hc'⟩ := cellOf_advance (n := n) s' d a
    rw [hc]
    refine progress_elapse ?_ hst hc'
    rw [hr.cell]
    exact progress_period (h.progress a)

theorem reach_advance (s : System) (d : Nat) :
    (relayMachine cfg).Reachable s { s with store := s.store.advance d } :=
  Machine.Reach.refl.tail (a := .advance d) trivial rfl

theorem underway_periods {R : RelayKind → Table String RecordText} {s : System} {i : Nat}
    {ds : List Nat} (hrec : RecordsNamed s.store) (h : Underway n R s i)
    (hds : ∀ d ∈ ds, d < cfg.masterExpireTime) :
    Underway n R (periods cfg n ds s) (i + ds.length) ∧
      (relayMachine cfg).Reachable s (periods cfg n ds s) := by
  induction ds generalizing s i with
  | nil => exact ⟨h, .refl⟩
  | cons d ds ih =>
    have hr := round_spec cfg h.ready fun a ↦ named_of_progress hrec (h.progress a)
    have hlive := round_reach cfg h.ready.live
    rw [periods]
    generalize relayRound cfg n s = s' at hr hlive
    have h' := underway_advance hr h (hds d (List.mem_cons_self ..))
    have hrec' : RecordsNamed (s'.store.advance d) := by
      have he : (s'.store.advance d).records = s.store.records := hr.records
      unfold RecordsNamed
      rw [he]
      exact hrec
    obtain ⟨hu, hreach⟩ := ih (s := { s' with store := s'.store.advance d }) hrec' h'
      fun d' hd' ↦ hds d' (.tail d hd')
    refine ⟨?_, (hlive.trans (reach_advance s' d)).trans hreach⟩
    rw [List.length_cons, Nat.add_comm ds.length, ← Nat.add_assoc]
    exact hu

/-- The relays that live on the node are those of the enabled records, started with the text that
the record has now. -/
structure Converged (n : String) (s : System) : Prop where
  relays : ∀ k f, ((s.nodes n).tables k).objMap.lookup f =
    (enabledText s.store (k, f)).bind (Cell.started k)
  texts : ∀ k f j, enabledText s.store (k, f) = some j →
    ((s.nodes n).tables k).recordDistributed.lookup f = some j

def RelaysHeld (n : String) (s : System) : Prop :=
  ∀ k f, f ∈ ((s.nodes n).tables k).objMap ↔ f ∈ ((s.nodes n).tables k).statusMap

def StatusesNamed (n : String) (s : System) : Prop :=
  ∀ k f st, ((s.nodes n).tables k).statusMap.lookup f = some st ∨ stored s.store (k, f) = some st →
    st.uid = f

def DistributedHeld (n : String) (s : System) : Prop :=
  ∀ k f j, enabledText s.store (k, f) = some j →
    ((s.nodes n).tables k).recordDistributed.lookup f = some j →
    f ∈ ((s.nodes n).tables k).statusMap ∨ stored s.store (k, f) ≠ none →
    ((s.nodes n).tables k).objMap.lookup f = Cell.started k j

theorem underway_start {s : System} (h : Ready n s) (hheld : RelaysHeld n s)
    (hnamed : StatusesNamed n s) (hdist : DistributedHeld n s) :
    Underway n s.store.records s 0 := by
  refine ⟨h, rfl, fun a ↦ ⟨fun st hm ↦ hnamed a.1 a.2 st ?_, fun ho hs ↦ ?_, fun j hr hd hm ↦ ?_⟩⟩
  · exact (Option.or_eq_some_iff.mp hm).imp_right And.right
  · exact AList.lookup_eq_none.mp hs ((hheld a.1 a.2).mp (AList.lookup_isSome.mp
      (Option.isSome_iff_ne_none.mpr ho)))
  · refine hdist a.1 a.2 j hr hd ?_
    by_contra hno
    rw [not_or, not_ne_iff] at hno
    exact hm (Option.or_eq_none_iff.mpr ⟨AList.lookup_eq_none.mpr hno.1, hno.2⟩)

theorem converged_of_settled {s : System} (h : ∀ a, Settled a (cellOf n s a)) : Converged n s := by
  constructor
  · intro k f
    have hs := h (k, f)
    unfold Settled at hs
    change (cellOf n s (k, f)).object = (cellOf n s (k, f)).record.bind (Cell.started k)
    generalize cellOf n s (k, f) = c at hs
    split at hs
    · next hr => rw [hr, hs.2.2, Option.bind_none]
    · next j hr => rw [hr, hs.2.2, Option.bind_some]
  · intro k f j hj
    have hs := h (k, f)
    have hr : (cellOf n s (k, f)).record = some j := hj
    unfold Settled at hs
    simp only [hr] at hs
    exact hs.2.1

/-- From two periods on, the relays of a node that stays master are those of the enabled records,
and there is nothing left to publish. -/
theorem relay_convergence (cfg : Config) {s : System} (h : Ready n s) (hrec : RecordsNamed s.store)
    (hheld : RelaysHeld n s) (hnamed : StatusesNamed n s) (hdist : DistributedHeld n s)
    (ds : List Nat) (hds : ∀ d ∈ ds, d < cfg.masterExpireTime) (hlen : 2 ≤ ds.length) :
    (relayMachine cfg).Reachable s (periods cfg n ds s) ∧
      (periods cfg n ds s).store.records = s.store.records ∧
      Converged n (periods cfg n ds s) ∧ published cfg n (periods cfg n ds s) = [] := by
  obtain ⟨hu, hr⟩ := underway_periods hrec (underway_start h hheld hnamed hdist) hds
  have hsettled : ∀ a, Settled a (cellOf n (periods cfg n ds s) a) := by
    intro a
    have hp := hu.progress a
    obtain ⟨i, hi⟩ : ∃ i, 0 + ds.length = i + 2 := ⟨ds.length - 2, by omega⟩
    rw [hi] at hp
    exact hp
  exact ⟨hr, hu.records, converged_of_settled hsettled,
    (published_eq_nil hu.ready).mpr fun a ↦ settled_task (hsettled a)⟩

def uEnabled (mpt : String) : RecordText :=
  .object (.value "u") (.value true) (some { loginMpt := mpt }) ""

def masterWith (t : RelayTables) (records : Table String RecordText)
    (status : Table String (StatusText × Nat)) : System where
  store := {
    master := some ("A", 15)
    records := fun k ↦ if k = .pull then records else ∅
    status := fun k ↦ if k = .pull then status else ∅ }
  nodes m := if m = "A" then { live := true, tables := fun k ↦ if k = .pull then t else {} } else {}

theorem ready_masterWith (t : RelayTables) (records : Table String RecordText)
    (status : Table String (StatusText × Nat)) : Ready "A" (masterWith t records status) :=
  ⟨rfl, rfl, rfl, rfl, rfl⟩

theorem recordsNamed_masterWith (t : RelayTables) (mpt : String)
    (status : Table String (StatusText × Nat)) :
    RecordsNamed (masterWith t (AList.singleton "u" (uEnabled mpt)) status).store := by
  intro k f j p hj hp
  cases k with
  | pull =>
    have hj' := (Table.lookup_singleton f "u" (uEnabled mpt)).symm.trans hj
    split at hj'
    · next hf => subst hf; cases hj'; cases hp; rfl
    · cases hj'
  | push => cases hj

def running (st : RelayStatus) (distributed : Table String RecordText) : RelayTables where
  statusMap := AList.singleton "u" st
  recordDistributed := distributed
  objMap := AList.singleton "u" (connectInfo .pull .create ⟨"u", true, { loginMpt := "OLD" }⟩)

theorem relaysHeld_running (st : RelayStatus) (distributed records : Table String RecordText)
    (status : Table String (StatusText × Nat)) :
    RelaysHeld "A" (masterWith (running st distributed) records status) := by
  intro k f
  cases k with
  | pull =>
    change f ∈ (AList.singleton "u" _ : Table String ConnectInfo) ↔
      f ∈ (AList.singleton "u" st : Table String RelayStatus)
    rw [← AList.lookup_isSome, ← AList.lookup_isSome, Table.lookup_singleton,
      Table.lookup_singleton]
    split <;> rfl
  | push => exact Iff.rfl

/-- The record of the running task has another mount point now: the task is stopped in the first
period and started in the second. -/
theorem relay_convergence_restart :
    let s := masterWith (running { uid := "u" } (AList.singleton "u" (uEnabled "OLD")))
      (AList.singleton "u" (uEnabled "NEW")) ∅
    Converged "A" (periods defaultConfig "A" [5, 5] s) ∧
      published defaultConfig "A" (periods defaultConfig "A" [5, 5] s) = [] := by
  intro s
  have hnamed : StatusesNamed "A" s := by
    rintro k f st (h | h)
    · cases k with
      | pull =>
        have h' := (Table.lookup_singleton f "u" ({ uid := "u" } : RelayStatus)).symm.trans h
        split at h'
        · next hf => subst hf; cases h'; rfl
        · cases h'
      | push => cases h
    · cases k <;> cases h
  have hdist : DistributedHeld "A" s := by
    intro k f j hj hd
    cases k with
    | pull =>
      have hd' := (Table.lookup_singleton f "u" (uEnabled "OLD")).symm.trans hd
      split at hd'
      · next hf =>
        subst hf
        cases hd'
        have hne : enabledText s.store (.pull, "u") = some (uEnabled "NEW") := by decide
        exact absurd (hne.symm.trans hj) (by decide)
      · cases hd'
    | push => cases hd
  exact (relay_convergence defaultConfig (ready_masterWith _ _ _)
    (recordsNamed_masterWith _ _ _) (relaysHeld_running _ _ _ _) hnamed hdist [5, 5] (by decide)
    (by decide)).2.2

/-- A task with a status in the store that was distributed as it is now is taken to be running, and
a status with another uid stops another relay. -/
theorem not_relay_convergence :
    (¬ ∀ (cfg : Config) (n : String) (s : System), Ready n s → RecordsNamed s.store →
      RelaysHeld n s → StatusesNamed n s → ∀ ds : List Nat, (∀ d ∈ ds, d < cfg.masterExpireTime) →
      2 ≤ ds.length → Converged n (periods cfg n ds s)) ∧
    ¬ ∀ (cfg : Config) (n : String) (s : System), Ready n s → RecordsNamed s.store →
      RelaysHeld n s → DistributedHeld n s → ∀ ds : List Nat, (∀ d ∈ ds, d < cfg.masterExpireTime) →
      2 ≤ ds.length → Converged n (periods cfg n ds s) := by
  constructor
  · intro h
    let s := masterWith { recordDistributed := AList.singleton "u" (uEnabled "M") }
      (AList.singleton "u" (uEnabled "M")) (AList.singleton "u" (.state { uid := "u" }, 30))
    have hnamed : StatusesNamed "A" s := by
      rintro k f st (h | h)
      · cases k <;> cases h
      · cases k with
        | pull =>
          have hl := Table.lookup_singleton f "u" (StatusText.state { uid := "u" }, 30)
          change ((AList.singleton "u" _ : Table _ _).lookup f).bind _ = _ at h
          rw [hl] at h
          split at h
          · next hf => subst hf; cases h; rfl
          · cases h
        | push => cases h
    have hc := h defaultConfig "A" s (ready_masterWith _ _ _) (recordsNamed_masterWith _ _ _)
      (fun k f ↦ by cases k <;> exact Iff.rfl) hnamed [5, 5] (by decide) (by decide)
    exact absurd (hc.relays .pull "u") (by decide)
  · intro h
    let s := masterWith (running { uid := "v" } ∅) ∅ ∅
    have hc :=
      h defaultConfig "A" s (ready_masterWith _ _ _) (fun k f j p hj ↦ by cases k <;> cases hj)
      (relaysHeld_running _ _ _ _) (fun k f j hj ↦ by cases k <;> cases hj) [5, 5]
      (by decide) (by decide)
    exact absurd (hc.relays .pull "u") (by decide)

end NavCaster.Relay.Converge
