import NavCaster.Core.Bookkeeping

namespace NavCaster.Core.FailedRegistration

open NavCaster.Library
open NavCaster.Core.Access
open NavCaster.Core.Connections
open NavCaster.Core.Bookkeeping

variable {A : Type}

/-- A registration that fails leaves everything as it was. -/
def Undone (o : Result A) (b : Books A) : Prop := o.code = 1 → o.books = b

/-- All that the registration writes before it fails is there, to the second. -/
structure Idle (nodeID : String) (r : Role) (type : RegisterType) (item : CbItem A) (now : Nat)
    (b : Books A) : Prop where
  row : r.row item ∈ b.registry.registerMap r
  status : item.connectKey ∈ b.registry.statusMap r
  stream : item.connectKey ∈ b.registry.streamStatusMap
  decoder : item.connectKey ∈ b.decoderMap r
  history : (b.historyMap r).lookup item.connectKey = some (openHistory nodeID r type item now)
  log : (openHistory nodeID r type item now).dumps = true →
    (b.log r (r.row item)).lookup (now, item.connectKey) = some (openHistory nodeID r type item now)

section

variable {nodeID : String} {r : Role} {p : AccessPolicy} {type : RegisterType} {item : CbItem A}
  {now : Nat} {b : Books A}

theorem insertNew_of_mem {K V : Type} [DecidableEq K] {t : Table K V} {a : K} {v : V} (h : a ∈ t) :
    Table.insertNew t a v = t := if_pos h

theorem openBooks_idle (h : Idle nodeID r type item now b) :
    openBooks r type item (openHistory nodeID r type item now) b = b := by
  have hreg : openRecord r type item b.registry = b.registry := by
    unfold openRecord Registry.setRegisterMap Registry.setStatusMap
    dsimp only
    rw [Table.openRow, insertNew_of_mem h.row, insertNew_of_mem h.status, insertNew_of_mem h.stream,
      Function.update_eq_self, Function.update_eq_self]
  unfold openBooks Books.setDecoderMap Books.setHistoryMap
  dsimp only
  rw [hreg, insertNew_of_mem h.decoder, Table.assign_self h.history, Function.update_eq_self,
    Function.update_eq_self]

theorem hset_of_lookup {e : HistoryEntry} {name key : String}
    (h : (b.log r name).lookup (e.connectTime, key) = some e) : b.hset r name key e = b := by
  unfold Books.hset
  rw [Table.assign_self h]
  dsimp only
  rw [Function.update_eq_self, Function.update_eq_self]

theorem idle_of_open {e : HistoryEntry} (h : (openBooks r type item e b).registry = b.registry)
    (hd : (openBooks r type item e b).decoderMap = b.decoderMap)
    (hh : (openBooks r type item e b).historyMap = b.historyMap) :
    r.row item ∈ b.registry.registerMap r ∧ item.connectKey ∈ b.registry.statusMap r ∧
      item.connectKey ∈ b.registry.streamStatusMap ∧ item.connectKey ∈ b.decoderMap r ∧
        (b.historyMap r).lookup item.connectKey = some e := by
  refine ⟨?_, ?_, ?_, ?_, ?_⟩
  · rw [← h]
    exact (mem_update_insertNew b.registry.registerMap ∅).mpr (.inl ⟨rfl, rfl⟩)
  · rw [← h]
    exact (mem_update_insertNew b.registry.statusMap _).mpr (.inl ⟨rfl, rfl⟩)
  · rw [← h]
    exact Table.mem_insertNew.mpr (.inl rfl)
  · rw [← hd]
    exact (mem_update_insertNew b.decoderMap ()).mpr (.inl ⟨rfl, rfl⟩)
  · rw [← hh]
    exact (lookup_update_assign b.historyMap e).trans (if_pos ⟨rfl, rfl⟩)

theorem undone_iff_idle :
    Undone (registerBooks nodeID r p type item now b) b ↔
      (checkLogin r p type item.groupUid item.channel).isSome ∨
        ((openHistory nodeID r type item now).dumps = true ∧
          b.registry.entry r (r.row item) item.connectKey = none) ∨
          Idle nodeID r type item now b := by
  unfold Undone registerBooks
  cases checkLogin r p type item.groupUid item.channel with
  | some reason => exact iff_of_true (fun _ ↦ rfl) (.inl rfl)
  | none =>
    have hentry : (openBooks r type item (openHistory nodeID r type item now) b).registry.entry r
        (r.row item) item.connectKey = b.registry.entry r (r.row item) item.connectKey :=
      (same_openRecord r type item b.registry).entry ..
    dsimp only
    cases hd : (openHistory nodeID r type item now).dumps with
    | false =>
      rw [if_neg Bool.false_ne_true]
      constructor
      · intro h
        have hb : openBooks r type item (openHistory nodeID r type item now) b = b := h rfl
        obtain ⟨hrow, hstatus, hstream, hdecoder, hhistory⟩ :=
          idle_of_open (congrArg Books.registry hb) (congrArg Books.decoderMap hb)
            (congrArg Books.historyMap hb)
        exact .inr (.inr ⟨hrow, hstatus, hstream, hdecoder, hhistory,
          fun h' ↦ absurd (hd ▸ h') Bool.false_ne_true⟩)
      · rintro (h | h | h)
        · cases h
        · cases h.1
        · exact fun _ ↦ openBooks_idle h
    | true =>
      rw [if_pos rfl]
      cases he : b.registry.entry r (r.row item) item.connectKey with
      | none =>
        refine iff_of_true (fun h ↦ ?_) (.inr (.inl ⟨rfl, rfl⟩))
        split at h
        · next old hold => cases (hentry.trans he).symm.trans hold
        · cases h
      | some old =>
        split
        · constructor
          · intro h
            have hb := h rfl
            obtain ⟨hrow, hstatus, hstream, hdecoder, hhistory⟩ :=
              idle_of_open (e := openHistory nodeID r type item now) (congrArg Books.registry hb :)
                (congrArg Books.decoderMap hb :) (congrArg Books.historyMap hb :)
            refine .inr (.inr ⟨hrow, hstatus, hstream, hdecoder, hhistory, fun _ ↦ ?_⟩)
            have hlog :=
              congrArg (fun b : Books A ↦ (b.log r (r.row item)).lookup (now, item.connectKey)) hb
            dsimp only at hlog
            rw [← hlog]
            exact (lookup_hset ..).trans (if_pos ⟨rfl, rfl, rfl⟩)
          · rintro (h | h | h)
            · cases h
            · cases h.2
            · intro _
              dsimp only
              rw [openBooks_idle h]
              exact hset_of_lookup (h.log hd)
        · next hnone => cases (hentry.trans he).symm.trans hnone

end

def OpenAt (b : Books A) (r : Role) (name : String) (t : Nat) (key : String) : Prop :=
  ∃ e, (b.log r name).lookup (t, key) = some e ∧ e.disconnectTime = 0

/-- The withdrawal of the connection closes its record under the field it was opened with. -/
def Closes (cfg : Config) (s : State A) (r : Role) (name : String) (t : Nat) (key : String) :
    Prop :=
  ∃ b e, withdrawBooks cfg.opts r name key s.now s.books = some { code := 0, books := b } ∧
    (b.log r name).lookup (t, key) = some e ∧ e.disconnectTime = s.now ∧ e.disconnectTime ≠ 0

theorem closes_of_kept {cfg : Config} {s : State A} (hb : Kept s.books) (hpos : 0 < s.now)
    {r : Role} {name key : String} {t : Nat} (h : OpenAt s.books r name t key) :
    Closes cfg s r name t key := by
  obtain ⟨e, he, hz⟩ := h
  obtain ⟨hrow, e₀, he₀, rfl⟩ := hb.log r name t key e he hz
  obtain ⟨e₁, b', he₁, hb', hw⟩ := withdraws_of_kept cfg.opts s.now hb hrow
  cases he₀.symm.trans he₁
  exact ⟨b', _, hb', (hw.log ..).trans (if_pos ⟨rfl, rfl, rfl⟩), rfl, hpos.ne'⟩

variable (A) in
/-- When a failed registration changes nothing. If none of a run leaves anything behind, the record
of each connection is closed by its withdrawal. -/
theorem failed_registration :
    (∀ (nodeID : String) (r : Role) (p : AccessPolicy) (type : RegisterType) (item : CbItem A)
      (now : Nat) (b : Books A), Undone (registerBooks nodeID r p type item now b) b ↔
        (checkLogin r p type item.groupUid item.channel).isSome ∨
          ((openHistory nodeID r type item now).dumps = true ∧
            b.registry.entry r (r.row item) item.connectKey = none) ∨
            Idle nodeID r type item now b) ∧
      ∀ (cfg : Config) (s : State A), (booksMachine cfg).Reach (Settled cfg) {} s →
        ∀ r name t key, OpenAt s.books r name t key → Closes cfg s r name t key := by
  refine ⟨fun _ _ _ _ _ _ _ ↦ undone_iff_idle, fun cfg s hs r name t key h ↦ ?_⟩
  obtain ⟨hb, hpos⟩ := kept_of_settled hs
  exact closes_of_kept hb hpos h

theorem failed_registration_station :
    Closes plain { books := (registerBooks "Node_00001" .base {} .server station 1 {}).books }
      .base "M" 1 "k" := by
  have hok : (booksMachine plain).Meets (Settled plain) {} [.register .base .server station] := by
    refine ⟨fun _ ↦ ⟨by decide, ?_⟩, trivial⟩
    rintro r' ⟨row, hrow⟩
    cases hrow
  have hs := Machine.reach_of_exec hok (by rfl)
  exact (failed_registration Unit).2 plain _ hs .base "M" 1 "k" ⟨_, rfl, rfl⟩

/-- A base that registers again a second later. -/
theorem not_undone_twice :
    ¬ ∀ (nodeID : String) (r : Role) (p : AccessPolicy) (type : RegisterType) (item : CbItem Unit)
      (now : Nat) (b : Books Unit), Undone (registerBooks nodeID r p type item now b) b := by
  intro h
  have hb := h "Node_00001" .base {} .server station 2
    (registerBooks "Node_00001" .base {} .server station 1 {}).books (by rfl)
  have ht := congrArg (fun b ↦ ((b.historyMap .base).lookup "k").map HistoryEntry.connectTime) hb
  exact absurd ht (by decide)

end NavCaster.Core.FailedRegistration
