import NavCaster.Core.Subscription
import NavCaster.Library.Machine

namespace NavCaster.Core.Mirror

open NavCaster.Library
open NavCaster.Core.Access
open NavCaster.Core.Connections
open NavCaster.Core.Subscription

/-- A node with its subscription connection: whether it is set up, and the channels of bases that
it is subscribed to by the commands it was given. -/
structure State (A : Type) where
  caster : Caster A := {}
  connected : Bool := false
  channels : Finset String := ∅

/-- What a session does when it is called back with an error. -/
inductive Unsub
  | base (channel connectKey : String)
  | near (connectKey : String)

/-- `reactions` are what the sessions do during a sweep, one entry for each that is called. -/
inductive Action (A P : Type)
  | subscribe (channel : String) (item : CbItem A)
  | near (channel : String) (item : CbItem A) (pos : P)
  | reply (connectKey : String) (r : Option (List String))
  | unsubscribe (u : Unsub)
  | sweep (reactions : List (List Unsub))
  | online (mounts : List String)
  | aliases (rules : Table String (List String))
  | policy (p : AccessPolicy)
  | lost
  | connected

structure Config (P : Type) where
  geo : Geometry P
  notifyBaseInactive : Bool := true

variable {A P : Type}

/-- The channels after a command to the subscription connection. -/
def track (channels : Finset String) : SubCommand A P → Finset String
  | .subscribe .base channel => insert channel channels
  | .unsubscribe .base channel => channels.erase channel
  | _ => channels

namespace State

variable (s : State A)

def apply (e : Effect A P) : State A :=
  { s with caster := e.caster, channels := e.commands.foldl track s.channels }

def subscribers (channel : String) : List String :=
  (((s.caster.subMap .base).lookup channel).getD ∅).keys

end State

def Unsub.effect (u : Unsub) (s : Caster A) : Effect A P :=
  match u with
  | .base channel key => unsubBaseChannel channel key s
  | .near key => unsubNearChannel key s

def react (P : Type) (us : List Unsub) (s : State A) : State A :=
  us.foldl (fun s u ↦ s.apply (u.effect s.caster : Effect A P)) s

/-- `passed` are the states since the start of the sweep, two for each row. -/
structure Sweep (A : Type) where
  state : State A
  reactions : List (List Unsub)
  passed : List (State A) := []

/-- The sessions of one row of the copy are called back, and then the row is looked at. -/
def sweepRow (P : Type) (notify : Bool) (w : Sweep A) (row : String × Table String (CbItem A)) :
    Sweep A :=
  let called := (checkActiveRow notify row w.state.caster : Effect A P).calls.length
  let s := react P (w.reactions.take called).flatten w.state
  let t := s.apply (checkActiveRow notify row s.caster : Effect A P)
  { state := t, reactions := w.reactions.drop called, passed := w.passed ++ [s, t] }

/-- `check_active_base_channel` with the sessions it calls. -/
def sweep (P : Type) (notify : Bool) (reactions : List (List Unsub)) (s : State A) : Sweep A :=
  (Table.toPairs (s.caster.subMap .base)).foldl (sweepRow P notify) { state := s, reactions }

def initSubContext (s : State A) : State A :=
  { s with connected := true, channels := s.channels ∪ (s.caster.subMap .base).keys.toFinset }

/-- A connection that is lost gives way to a new one, which is set up later. -/
def step (cfg : Config P) (s : State A) : Action A P → Option (State A × List (State A))
  | .subscribe channel item =>
    (subBaseChannel s.caster.aliasDepth channel item false s.caster).map fun (e : Effect A P) ↦
      (s.apply e, [])
  | .near channel item pos => some (s.apply (subNearChannel cfg.geo channel item pos s.caster), [])
  | .reply key r =>
    (redisGeoRadiusCallback s.caster.aliasDepth key r s.caster).map fun (e : Effect A P) ↦
      (s.apply e, [])
  | .unsubscribe u => some (s.apply (u.effect s.caster : Effect A P), [])
  | .sweep reactions =>
    let w := sweep P cfg.notifyBaseInactive reactions s
    some (w.state, w.passed)
  | .online mounts => some ({ s with caster := { s.caster with activeMountMap := mounts } }, [])
  | .aliases rules => some ({ s with caster := { s.caster with aliasRuleMap := rules } }, [])
  | .policy p => some ({ s with caster := { s.caster with policy := p } }, [])
  | .lost => some ({ s with connected := false, channels := ∅ }, [])
  | .connected => some (initSubContext s, [])

def mirrorMachine (cfg : Config P) : Machine (State A) (Action A P) (State A) := ⟨step cfg⟩

/-- The connection is subscribed to no channel that is not in the table, and to all of them once
it is set up. -/
structure Mirrors (s : State A) : Prop where
  listed : ∀ channel ∈ s.channels, channel ∈ s.caster.subMap .base
  subscribed : s.connected → ∀ channel ∈ s.caster.subMap .base, channel ∈ s.channels

/-- A channel that is no longer in the table had no subscriber. -/
def Keeps (s t : State A) : Prop :=
  ∀ channel ∈ s.caster.subMap .base, channel ∉ t.caster.subMap .base → s.subscribers channel = []

/-- The commands of the call follow what it does to the table. -/
structure Tracks (s : Caster A) (e : Effect A P) : Prop where
  listed : ∀ channels : Finset String, (∀ c ∈ channels, c ∈ s.subMap .base) →
    ∀ c ∈ e.commands.foldl track channels, c ∈ e.caster.subMap .base
  subscribed : ∀ channels : Finset String, (∀ c ∈ s.subMap .base, c ∈ channels) →
    ∀ c ∈ e.caster.subMap .base, c ∈ e.commands.foldl track channels

theorem Mirrors.apply {s : State A} (h : Mirrors s) {e : Effect A P} (ht : Tracks s.caster e) :
    Mirrors (s.apply e) :=
  ⟨ht.listed _ h.listed, fun hc ↦ ht.subscribed _ (h.subscribed hc)⟩

def Quiet (c : SubCommand A P) : Prop := ∀ channels, track channels c = channels

theorem foldl_track_quiet {cs : List (SubCommand A P)} (h : ∀ c ∈ cs, Quiet c)
    (channels : Finset String) :
    cs.foldl track channels = channels := by
  induction cs with
  | nil => rfl
  | cons c cs ih =>
    rw [List.foldl_cons, h c (List.mem_cons_self ..)]
    exact ih fun c' hc' ↦ h c' (List.mem_cons_of_mem c hc')

theorem tracks_of_quiet {s : Caster A} {e : Effect A P} (hq : ∀ c ∈ e.commands, Quiet c)
    (hm : ∀ c, c ∈ e.caster.subMap .base ↔ c ∈ s.subMap .base) : Tracks s e := by
  constructor
  · intro channels h c hc
    rw [foldl_track_quiet hq] at hc
    exact (hm c).mpr (h c hc)
  · intro channels h c hc
    rw [foldl_track_quiet hq]
    exact h c ((hm c).mp hc)

theorem Tracks.prepend {s : Caster A} {e : Effect A P} (h : Tracks s e) {cs : List (SubCommand A P)}
    (hq : ∀ c ∈ cs, Quiet c) : Tracks s { e with commands := cs ++ e.commands } := by
  constructor
  · intro channels hl c hc
    rw [List.foldl_append, foldl_track_quiet hq] at hc
    exact h.listed channels hl c hc
  · intro channels hs c hc
    rw [List.foldl_append, foldl_track_quiet hq]
    exact h.subscribed channels hs c hc

/-- A call that starts from a table with the same channels. -/
theorem Tracks.of_mem_iff {s s' : Caster A} {e : Effect A P} (h : Tracks s' e)
    (hm : ∀ c, c ∈ s'.subMap .base ↔ c ∈ s.subMap .base) : Tracks s e :=
  ⟨fun channels hl ↦ h.listed channels fun c hc ↦ (hm c).mpr (hl c hc),
    fun channels hs ↦ h.subscribed channels fun c hc ↦ hs c ((hm c).mp hc)⟩

theorem mem_setSubMap {s : Caster A} {m : Table String (Table String (CbItem A))} {c : String} :
    c ∈ (s.setSubMap .base m).subMap .base ↔ c ∈ m := by
  change c ∈ Function.update s.subMap .base m .base ↔ _
  rw [Function.update_self]

theorem mem_dropSub {s : Caster A} {channel key c : String} :
    c ∈ (s.dropSub .base channel key).subMap .base ↔ c ∈ s.subMap .base :=
  mem_setSubMap.trans Table.mem_dropOld

theorem tracks_failure (s : Caster A) (code : Nat) (arg : A) (reason : String) :
    Tracks s (failure s code arg reason : Effect A P) :=
  tracks_of_quiet (fun _ hc ↦ absurd hc List.not_mem_nil) fun _ ↦ Iff.rfl

theorem tracks_addSub (channel announced : String) (item : CbItem A) (s : Caster A) :
    Tracks s (addSub .base channel item announced s : Effect A P) := by
  have hmem (c : String) :
      c ∈ (addSub .base channel item announced s : Effect A P).caster.subMap .base ↔
      c = channel ∨ c ∈ s.subMap .base := mem_setSubMap.trans Table.mem_putNew
  by_cases h : channel ∈ s.subMap .base
  · have hcs : (addSub .base channel item announced s : Effect A P).commands =
        [.hsetexSub .base channel item.connectKey] := by
      unfold addSub
      rw [if_pos h]
      rfl
    refine tracks_of_quiet ?_ fun c ↦ (hmem c).trans (or_iff_right_of_imp fun e ↦ e ▸ h)
    rw [hcs]
    rintro c hc channels
    obtain rfl := List.mem_singleton.mp hc
    rfl
  · have hcs (channels : Finset String) :
        (addSub .base channel item announced s : Effect A P).commands.foldl track channels =
          insert channel channels := by
      unfold addSub
      rw [if_neg h]
      rfl
    constructor
    · intro channels hl c hc
      rw [hcs, Finset.mem_insert] at hc
      exact (hmem c).mpr (hc.imp_right (hl c))
    · intro channels hs c hc
      rw [hcs, Finset.mem_insert]
      exact ((hmem c).mp hc).imp_right (hs c)

theorem tracks_subMount (channel : String) (item : CbItem A) (skip : Bool) (s : Caster A) :
    Tracks s (subMount channel item skip s : Effect A P) := by
  unfold subMount
  dsimp only
  split
  · exact tracks_failure ..
  · split
    · exact tracks_addSub ..
    · exact tracks_failure ..

theorem tracks_subChannel (fuel : Nat) : ∀ (channel : String) (item : CbItem A) (s : Caster A)
    (e : Effect A P),
    (∀ skip, subBaseChannel fuel channel item skip s = some e → Tracks s e) ∧
      (subAliasChannel fuel channel item s = some e → Tracks s e) := by
  induction fuel with
  | zero => exact fun _ _ _ _ ↦ ⟨fun _ h ↦ (by cases h), fun h ↦ (by cases h)⟩
  | succ fuel ih =>
    intro channel item s e
    constructor
    · intro skip h
      rw [subBaseChannel] at h
      split at h
      · exact (ih channel item s e).2 h
      · cases h
        exact tracks_subMount ..
    · intro h
      rw [subAliasChannel] at h
      split at h
      · cases h
        exact tracks_failure ..
      · split at h
        · cases h
          exact tracks_failure ..
        · split at h
          · cases h
            exact tracks_of_quiet (fun _ hc ↦ absurd hc List.not_mem_nil) fun _ ↦ Iff.rfl
          · exact ((ih _ _ _ e).1 false h).of_mem_iff fun c ↦ mem_dropSub

theorem tracks_subNearChannel (geo : Geometry P) (channel : String) (item : CbItem A) (pos : P)
    (s : Caster A) : Tracks s (subNearChannel geo channel item pos s) := by
  unfold subNearChannel
  split
  · exact tracks_failure ..
  · dsimp only
    split
    · exact tracks_of_quiet (fun _ hc ↦ absurd hc List.not_mem_nil) fun _ ↦ Iff.rfl
    · refine tracks_of_quiet (fun c hc channels ↦ ?_) fun _ ↦ Iff.rfl
      obtain rfl := List.mem_singleton.mp hc
      rfl

theorem tracks_redisGeoRadiusCallback {fuel : Nat} {key : String} {reply : Option (List String)}
    {s : Caster A} {e : Effect A P} (h : redisGeoRadiusCallback fuel key reply s = some e) :
    Tracks s e := by
  unfold redisGeoRadiusCallback at h
  split at h
  · next item fields hitem =>
    have hgone :
        ∀ c ∈ ((fields.takeWhile fun field ↦ !s.online field).map .zrem : List (SubCommand A P)),
        Quiet c := by
      intro c hc channels
      obtain ⟨field, -, rfl⟩ := List.mem_map.mp hc
      rfl
    dsimp only at h
    split at h
    · cases h
      exact tracks_of_quiet hgone fun _ ↦ Iff.rfl
    · split at h
      · cases h
        exact tracks_of_quiet hgone fun _ ↦ Iff.rfl
      · obtain ⟨e', he', rfl⟩ := Option.map_eq_some_iff.mp h
        exact (((tracks_subChannel _ _ _ _ e').1 _ he').of_mem_iff fun c ↦ mem_dropSub).prepend
          hgone
  · cases h
    exact tracks_of_quiet (fun _ hc ↦ absurd hc List.not_mem_nil) fun _ ↦ Iff.rfl

structure Shrinks (s : Caster A) (e : Effect A P) : Prop where
  quiet : ∀ c ∈ e.commands, Quiet c
  mem : ∀ c, c ∈ e.caster.subMap .base ↔ c ∈ s.subMap .base
  sub : ∀ c key, (e.caster.sub .base c key).isSome → (s.sub .base c key).isSome

theorem shrinks_self (s : Caster A) (code : Nat) : Shrinks s ({ code, caster := s } : Effect A P) :=
  ⟨fun _ hc ↦ absurd hc List.not_mem_nil, fun _ ↦ Iff.rfl, fun _ _ h ↦ h⟩

theorem isSome_of_dropSub {s : Caster A} {channel key c key' : String}
    (h : ((s.dropSub .base channel key).sub .base c key').isSome) :
    (s.sub .base c key').isSome := by
  rw [Caster.sub_dropSub] at h
  split at h
  · cases h
  · exact h

theorem shrinks_unsubNearChannel (key : String) (s : Caster A) :
    Shrinks s (unsubNearChannel key s : Effect A P) := by
  unfold unsubNearChannel
  split
  · exact ⟨fun _ hc ↦ absurd hc List.not_mem_nil, fun _ ↦ Iff.rfl, fun _ _ h ↦ h⟩
  · refine ⟨fun c hc channels ↦ ?_, fun c ↦ mem_dropSub, fun c key h ↦ isSome_of_dropSub h⟩
    dsimp only at hc
    split at hc
    · obtain rfl := List.mem_singleton.mp hc
      rfl
    · cases hc

theorem shrinks_unsubBaseChannel (channel key : String) (s : Caster A) :
    Shrinks s (unsubBaseChannel channel key s : Effect A P) := by
  unfold unsubBaseChannel
  split
  · exact shrinks_unsubNearChannel key s
  · unfold unsubChannel
    split
    · exact shrinks_self s 1
    · refine ⟨fun c hc channels ↦ ?_, fun c ↦ mem_dropSub, fun c key h ↦ isSome_of_dropSub h⟩
      obtain rfl := List.mem_singleton.mp hc
      rfl

theorem shrinks_effect (u : Unsub) (s : Caster A) : Shrinks s (u.effect s : Effect A P) := by
  cases u with
  | base channel key => exact shrinks_unsubBaseChannel channel key s
  | near key => exact shrinks_unsubNearChannel key s

theorem Shrinks.tracks {s : Caster A} {e : Effect A P} (h : Shrinks s e) : Tracks s e :=
  tracks_of_quiet h.quiet h.mem

structure Left (m : Table String (Table String (CbItem A))) (s : State A) : Prop where
  mirrors : Mirrors s
  sub : ∀ c key, (s.caster.sub .base c key).isSome → (Table.entry m c key).isSome

variable {m : Table String (Table String (CbItem A))}

variable (P) in
theorem Left.react (us : List Unsub) : ∀ {s : State A}, Left m s → Left m (react P us s) := by
  induction us with
  | nil => exact fun h ↦ h
  | cons u us ih =>
    intro s h
    have hu : Shrinks s.caster (u.effect s.caster : Effect A P) := shrinks_effect u s.caster
    exact ih ⟨h.mirrors.apply hu.tracks, fun c key hs ↦ h.sub c key (hu.sub c key hs)⟩

theorem tracks_checkActiveRow (notify : Bool) (row : String × Table String (CbItem A))
    (s : Caster A) :
    Tracks s (checkActiveRow notify row s : Effect A P) := by
  unfold checkActiveRow
  dsimp only
  split
  · constructor
    · intro channels hl c hc
      obtain ⟨hne, hc⟩ := Finset.mem_erase.mp hc
      exact mem_setSubMap.mpr (AList.mem_erase.mpr ⟨hne, hl c hc⟩)
    · intro channels hs c hc
      obtain ⟨hne, hc⟩ := AList.mem_erase.mp (mem_setSubMap.mp hc)
      exact Finset.mem_erase.mpr ⟨hne, hs c hc⟩
  · exact tracks_of_quiet (fun _ hc ↦ absurd hc List.not_mem_nil) fun _ ↦ Iff.rfl

theorem isSome_of_checkActiveRow {notify : Bool} {row : String × Table String (CbItem A)}
    {s : Caster A} {c key : String}
    (h : ((checkActiveRow notify row s : Effect A P).caster.sub .base c key).isSome) :
    (s.sub .base c key).isSome := by
  unfold checkActiveRow at h
  dsimp only at h
  split at h
  · dsimp only at h
    rw [Caster.sub_setSubMap, if_pos rfl, Table.entry, Table.lookup_erase_if] at h
    split at h
    · cases h
    · exact h
  · exact h

/-- A row that was empty in the copy has got no subscriber since. -/
theorem subscribers_eq_nil {s : State A} (h : Left m s) {row : String × Table String (CbItem A)}
    (hrow : m.lookup row.1 = some row.2) (hempty : row.2.entries.isEmpty) :
    s.subscribers row.1 = [] := by
  refine List.eq_nil_iff_forall_not_mem.mpr fun key hkey ↦ ?_
  unfold State.subscribers at hkey
  cases hl : (s.caster.subMap .base).lookup row.1 with
  | none =>
    rw [hl] at hkey
    cases hkey
  | some subs =>
    rw [hl] at hkey
    have hentry : s.caster.sub .base row.1 key = subs.lookup key := by
      unfold Caster.sub Table.entry
      rw [hl]
      rfl
    have hleft := h.sub row.1 key (hentry ▸ AList.lookup_isSome.mpr hkey)
    have hnone : row.2 = ∅ := AList.ext (List.isEmpty_iff.mp hempty)
    rw [Table.entry, hrow, hnone] at hleft
    cases hleft

theorem mem_react (P : Type) (us : List Unsub) (s : State A) (c : String) :
    c ∈ (react P us s).caster.subMap .base ↔ c ∈ s.caster.subMap .base := by
  induction us generalizing s with
  | nil => exact Iff.rfl
  | cons u us ih =>
    have hu : Shrinks s.caster (u.effect s.caster : Effect A P) := shrinks_effect u s.caster
    exact (ih _).trans (hu.mem c)

theorem keeps_checkActiveRow (notify : Bool) {s : State A} (h : Left m s)
    {row : String × Table String (CbItem A)} (hrow : m.lookup row.1 = some row.2) :
    Keeps s (s.apply (checkActiveRow notify row s.caster : Effect A P)) := by
  intro channel hin hout
  unfold checkActiveRow State.apply at hout
  dsimp only at hout
  split at hout
  · next hempty =>
    have hchannel : channel = row.1 := by
      by_contra hne
      exact hout (mem_setSubMap.mpr (AList.mem_erase.mpr ⟨hne, hin⟩))
    exact hchannel ▸ subscribers_eq_nil h hrow hempty
  · exact absurd hin hout

structure Passes (s : State A) (w : Sweep A) : Prop where
  chain : (s :: w.passed).IsChain Keeps
  last : (s :: w.passed).getLast? = some w.state

theorem sweepRow_spec (notify : Bool) {s : State A} (w : Sweep A)
    (row : String × Table String (CbItem A)) (hrow : m.lookup row.1 = some row.2)
    (h : Left m w.state) (hp : Passes s w) :
    Left m (sweepRow P notify w row).state ∧ Passes s (sweepRow P notify w row) := by
  let us := (w.reactions.take
    (checkActiveRow notify row w.state.caster : Effect A P).calls.length).flatten
  have hs : Left m (react P us w.state) := h.react P us
  refine ⟨⟨hs.mirrors.apply (tracks_checkActiveRow ..), fun c key hsome ↦ ?_⟩, ?_, ?_⟩
  · exact hs.sub c key (isSome_of_checkActiveRow hsome)
  · refine hp.chain.append (List.isChain_pair.mpr (keeps_checkActiveRow notify hs hrow)) ?_
    intro x hx y hy
    cases hp.last.symm.trans hx
    cases hy
    exact fun channel hin hout ↦ absurd ((mem_react P us w.state channel).mpr hin) hout
  · exact List.getLast?_append_of_ne_nil (s :: w.passed) (List.cons_ne_nil _ _)

theorem sweep_spec (notify : Bool) (reactions : List (List Unsub)) {s : State A} (h : Mirrors s) :
    Mirrors (sweep P notify reactions s).state ∧ Passes s (sweep P notify reactions s) := by
  suffices hrows : ∀ rows : List (String × Table String (CbItem A)),
      (∀ row ∈ rows, (s.caster.subMap .base).lookup row.1 = some row.2) →
      ∀ w : Sweep A, Left (s.caster.subMap .base) w.state → Passes s w →
        Left (s.caster.subMap .base) (rows.foldl (sweepRow P notify) w).state ∧
          Passes s (rows.foldl (sweepRow P notify) w) by
    have hall := hrows _ (fun _ hrow ↦ Table.mem_toPairs.mp hrow) { state := s, reactions }
      ⟨h, fun _ _ hs ↦ hs⟩ ⟨List.isChain_singleton s, rfl⟩
    exact ⟨hall.1.mirrors, hall.2⟩
  intro rows
  induction rows with
  | nil => exact fun _ w hw hp ↦ ⟨hw, hp⟩
  | cons row rows ih =>
    intro hrows w hw hp
    obtain ⟨hw', hp'⟩ := sweepRow_spec notify w row (hrows row (List.mem_cons_self ..)) hw hp
    exact ih (fun row' hrow' ↦ hrows row' (List.mem_cons_of_mem row hrow')) _ hw' hp'

theorem State.apply_apply (s : State A) (e e' : Effect A P) :
    (s.apply e).apply e' = s.apply { e' with commands := e.commands ++ e'.commands } := by
  unfold State.apply
  rw [List.foldl_append]

theorem sweep_nil (notify : Bool) (s : State A) :
    (sweep P notify [] s).state =
      s.apply (checkActiveBaseChannel notify s.caster : Effect A P) := by
  unfold sweep checkActiveBaseChannel
  generalize Table.toPairs (s.caster.subMap .base) = rows
  suffices h : ∀ (e : Effect A P) (w : Sweep A), w.state = s.apply e → w.reactions = [] →
      (rows.foldl (sweepRow P notify) w).state = s.apply (rows.foldl _ e) from
    h { code := 0, caster := s.caster } _ rfl rfl
  induction rows with
  | nil => exact fun _ _ hw _ ↦ hw
  | cons row rows ih =>
    intro e w hw hr
    refine ih _ _ ?_ ?_
    · unfold sweepRow
      dsimp only
      rw [hr, List.take_nil, List.flatten_nil, hw]
      exact State.apply_apply ..
    · change w.reactions.drop _ = []
      rw [hr, List.drop_nil]

theorem mirrors_initSubContext {s : State A} (h : Mirrors s) : Mirrors (initSubContext s) := by
  constructor
  · intro c hc
    obtain hc | hc := Finset.mem_union.mp hc
    · exact h.listed c hc
    · exact AList.mem_keys.mpr (List.mem_toFinset.mp hc)
  · intro _ c hc
    exact Finset.mem_union_right _ (List.mem_toFinset.mpr (AList.mem_keys.mp hc))

theorem mirrors_step {cfg : Config P} {s t : State A} {a : Action A P} {passed : List (State A)}
    (h : Mirrors s) (hst : step cfg s a = some (t, passed)) : Mirrors t := by
  cases a with
  | subscribe channel item =>
    obtain ⟨e, he, ⟨⟩⟩ := Option.map_eq_some_iff.mp hst
    exact h.apply ((tracks_subChannel _ _ _ _ e).1 _ he)
  | near channel item pos =>
    cases hst
    exact h.apply (tracks_subNearChannel ..)
  | reply key r =>
    obtain ⟨e, he, ⟨⟩⟩ := Option.map_eq_some_iff.mp hst
    exact h.apply (tracks_redisGeoRadiusCallback he)
  | unsubscribe u =>
    cases hst
    exact h.apply (shrinks_effect u s.caster : Shrinks _ (_ : Effect A P)).tracks
  | sweep reactions =>
    cases hst
    exact (sweep_spec _ reactions h).1
  | online mounts => cases hst; exact ⟨h.listed, h.subscribed⟩
  | aliases rules => cases hst; exact ⟨h.listed, h.subscribed⟩
  | policy p => cases hst; exact ⟨h.listed, h.subscribed⟩
  | lost =>
    cases hst
    exact ⟨fun c hc ↦ absurd hc (Finset.notMem_empty c), fun hc ↦ by cases hc⟩
  | connected =>
    cases hst
    exact mirrors_initSubContext h

theorem mirrors_init : Mirrors ({} : State A) :=
  ⟨fun c hc ↦ absurd hc (Finset.notMem_empty c), fun hc ↦ by cases hc⟩

theorem mirrors_of_reachable {cfg : Config P} {s : State A}
    (h : (mirrorMachine cfg).Reachable {} s) :
    Mirrors s :=
  h.invariant mirrors_init fun _ _ _ _ hi _ hst ↦ mirrors_step hi hst

def flat : Config Unit := ⟨⟨fun _ ↦ (), fun _ ↦ true, fun _ _ ↦ true⟩, true⟩

/-- Two subscribers on a base that goes offline, the first of which ends both subscriptions. -/
def offline : List (Action Unit Unit) :=
  [.connected, .online ["M"], .subscribe "M" ⟨"k", "M", "u", "", ()⟩,
    .subscribe "M" ⟨"l", "M", "v", "", ()⟩, .lost, .connected, .online [],
    .sweep [[.base "M" "k", .base "M" "l"]]]

end NavCaster.Core.Mirror
