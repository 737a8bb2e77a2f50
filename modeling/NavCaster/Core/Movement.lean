import NavCaster.Core.Subscription
import NavCaster.Library.Machine

namespace NavCaster.Core.Movement

open NavCaster.Library
open NavCaster.Library.Strto (Bytes)
open NavCaster.Base.Nmea
open NavCaster.Core.Message
open NavCaster.Core.Access
open NavCaster.Core.Connections
open NavCaster.Core.Subscription

structure Config (P : Type) where
  geo : Geometry P
  opts : Options := {}
  notifyBaseInactive : Bool := true

/-- The node with the sessions that a nearest registration was admitted for, and the keys whose
queries have not been answered. The policy stays as it is. -/
structure State (A : Type) where
  caster : Caster A := {}
  sessions : Table String (CbItem A) := ∅
  queries : List String := []

inductive Action (A P : Type)
  | register (item : CbItem A)
  | subscribe (key : String) (pos : P)
  | publish (userName key : String) (data : Bytes)
  | reply (i : Nat) (r : Option (List String))
  | unsubscribe (key : String)
  | withdraw (key : String)
  | online (mounts : List String)
  | aliases (rules : Table String (List String))

variable {A P : Type}

def queryKey : SubCommand A P → Option String
  | .georadius key _ => some key
  | _ => none

namespace State

variable (s : State A)

def apply (e : Effect A P) : State A × List (Call A) :=
  ({ s with caster := e.caster, queries := s.queries ++ e.commands.filterMap queryKey }, e.calls)

end State

/-- `none` where the action is not possible, and where the process ends with it. -/
def step (cfg : Config P) (s : State A) : Action A P → Option (State A × List (Call A))
  | .register item =>
    let e : Effect A P := registerRover .nearest item s.caster
    if e.code = 0 then
      some ({ s with sessions := s.sessions.insert item.connectKey item }.apply e)
    else none
  | .subscribe key pos =>
    (s.sessions.lookup key).map fun item ↦
      s.apply (subNearChannel cfg.geo item.channel item pos s.caster)
  | .publish userName key data =>
    match pubRoverChannel cfg.geo userName key data s.caster with
    | .error _ => none
    | .ok e => some (s.apply e)
  | .reply i r =>
    match s.queries[i]? with
    | none => none
    | some key =>
      (redisGeoRadiusCallback s.caster.aliasDepth key r s.caster).map fun (e : Effect A P) ↦
        { s with queries := s.queries.eraseIdx i }.apply e
  | .unsubscribe key => some (s.apply (unsubNearChannel key s.caster : Effect A P))
  | .withdraw key =>
    (s.sessions.lookup key).map fun item ↦
      { s with sessions := s.sessions.erase key }.apply
        (withdrawRover cfg.opts item.userName key s.caster : Effect A P)
  | .online mounts =>
    some (s.apply (checkActiveBaseChannel cfg.notifyBaseInactive
      { s.caster with activeMountMap := mounts } : Effect A P))
  | .aliases rules => some ({ s with caster := { s.caster with aliasRuleMap := rules } }, [])

def movementMachine (cfg : Config P) : Machine (State A) (Action A P) (Call A) := ⟨step cfg⟩

def IsReason (reason : String) : Prop :=
  ∃ (p : AccessPolicy) (group mount : String),
    p.checkNearestMountLogin group mount = some reason ∨
      p.checkMountAccess group mount = some reason

def IsDenial (c : Call A) : Prop := c.reply = .err ∧ IsReason c.str

/-- No subscriber is denied, and one whose query is answered is attached to the first mount of the
answer that is online. -/
structure Survives (s : State A) (a : Action A P) (t : State A) (calls : List (Call A)) : Prop where
  undenied : ∀ c ∈ calls, ¬ IsDenial c
  attached : ∀ i fields key item field, a = .reply i (some fields) → s.queries[i]? = some key →
    s.caster.baseNearSubMap.lookup key = some item → s.caster.firstOnline fields = some field →
      (t.caster.sub .base field key).isSome

/-- A query is started only while the subscriber's channel is one that the policy lets it log in
to, and an answer that names another mount than the subscriber's names no alias. -/
def Settled (cfg : Config P) (s : State A) : Action A P → Prop
  | .publish _ key data => ∀ dec dec' gga item, s.caster.roverDecoderMap.lookup key = some dec →
      dec.decode data = .ok dec' → dec'.position = some gga →
      s.caster.baseNearSubMap.lookup key = some item → needQuery cfg.geo key gga s.caster →
        s.caster.policy.checkNearestMountLogin item.groupUid item.channel = none
  | .reply i (some fields) => ∀ key item field, s.queries[i]? = some key →
      s.caster.baseNearSubMap.lookup key = some item → s.caster.firstOnline fields = some field →
        if item.channel = field then (s.caster.sub .base field key).isSome
        else s.caster.isAliasMpt field = false
  | _ => True

/-- The texts of the reasons. The privileged group is given none. -/
def reasons : List String :=
  ["Access group policy not loaded", "", "Access group not found",
    "Nearest mount point disabled by group policy", "Nearest mount point not configured for group",
    "Mount point access disabled by item policy", "Mount point access disabled inside group",
    "Mount point access disabled outside group"]

theorem checkNearestMountLogin_reason {p : AccessPolicy} {group mount reason : String}
    (h : p.checkNearestMountLogin group mount = some reason) : reason ∈ reasons := by
  unfold AccessPolicy.checkNearestMountLogin at h
  dsimp only at h
  repeat' split at h
  all_goals cases h
  all_goals simp [reasons]

theorem checkMountAccess_reason {p : AccessPolicy} {group mount reason : String}
    (h : p.checkMountAccess group mount = some reason) : reason ∈ reasons := by
  unfold AccessPolicy.checkMountAccess AccessPolicy.checkMount AccessPolicy.ruling at h
  dsimp only at h
  repeat' split at h
  all_goals cases h
  all_goals simp [reasons, Right.itemReason, Right.insideReason, Right.outsideReason]

theorem mem_reasons {reason : String} (h : IsReason reason) : reason ∈ reasons := by
  obtain ⟨p, group, mount, h | h⟩ := h
  · exact checkNearestMountLogin_reason h
  · exact checkMountAccess_reason h

theorem not_isDenial {c : Call A} (h : c.reply ≠ .err ∨ c.str ∉ reasons) : ¬ IsDenial c :=
  fun ⟨hr, hs⟩ ↦ h.elim (· hr) (· (mem_reasons hs))

theorem checkNearestMountLogin_normalize (p : AccessPolicy) (group mount : String) :
    p.checkNearestMountLogin (normalizeAccessGroupUid group) mount =
      p.checkNearestMountLogin group mount := by
  unfold AccessPolicy.checkNearestMountLogin
  rw [normalize_normalize]

def Own (m : Table String (CbItem A)) : Prop :=
  ∀ key item, m.lookup key = some item → item.connectKey = key

theorem own_empty : Own (∅ : Table String (CbItem A)) := fun _ _ h ↦ by cases h

theorem Own.insert {m : Table String (CbItem A)} (h : Own m) {key : String} {item : CbItem A}
    (hk : item.connectKey = key) : Own (m.insert key item) := by
  intro key' item' hl
  rw [Table.lookup_insert_if] at hl
  split at hl
  · next he => cases hl; exact hk.trans he.symm
  · exact h key' item' hl

theorem Own.erase {m : Table String (CbItem A)} (h : Own m) (key : String) : Own (m.erase key) := by
  intro key' item' hl
  rw [Table.lookup_erase_if] at hl
  split at hl
  · cases hl
  · exact h key' item' hl

structure Kept (s s' : Caster A) : Prop where
  policy : s'.policy = s.policy
  near : Own s.baseNearSubMap → Own s'.baseNearSubMap

theorem Kept.refl (s : Caster A) : Kept s s := ⟨rfl, id⟩

theorem Kept.trans {s s' s'' : Caster A} (h : Kept s s') (h' : Kept s' s'') : Kept s s'' :=
  ⟨h'.policy.trans h.policy, fun ho ↦ h'.near (h.near ho)⟩

theorem Kept.of_eq {s₀ s s' : Caster A} (h : Kept s₀ s') (hp : s₀.policy = s.policy)
    (hn : s₀.baseNearSubMap = s.baseNearSubMap) : Kept s s' :=
  ⟨h.policy.trans hp, fun ho ↦ h.near (hn ▸ ho)⟩

theorem kept_setSubMap (s : Caster A) (r : Role) (m : Table String (Table String (CbItem A))) :
    Kept s (s.setSubMap r m) := ⟨rfl, id⟩

theorem kept_subMount (channel : String) (item : CbItem A) (skip : Bool) (s : Caster A) :
    Kept s (subMount channel item skip s : Effect A P).caster := by
  unfold subMount
  dsimp only
  split
  · exact .refl s
  · split
    · exact kept_setSubMap ..
    · exact .refl s

theorem kept_subChannel (fuel : Nat) : ∀ (channel : String) (item : CbItem A) (s : Caster A)
    (e : Effect A P),
    (∀ skip, subBaseChannel fuel channel item skip s = some e → Kept s e.caster) ∧
      (subAliasChannel fuel channel item s = some e → Kept s e.caster) := by
  induction fuel with
  | zero => exact fun _ _ _ _ ↦ ⟨fun _ h ↦ (by cases h), fun h ↦ (by cases h)⟩
  | succ fuel ih =>
    intro channel item s e
    constructor
    · intro skip h
      rw [subBaseChannel] at h
      split at h
      · exact (ih channel item s e).2 h
      · cases h
        exact kept_subMount ..
    · intro h
      rw [subAliasChannel] at h
      split at h
      · cases h
        exact .refl s
      · split at h
        · cases h
          exact .refl s
        · split at h
          · cases h
            exact .refl s
          · exact (kept_setSubMap ..).trans ((ih _ _ _ e).1 false h)

theorem kept_subNearChannel (geo : Geometry P) (channel : String) (item : CbItem A) (pos : P)
    (s : Caster A) : Kept s (subNearChannel geo channel item pos s).caster := by
  unfold subNearChannel
  split
  · exact .refl s
  · have hk : Kept s { s with
        baseNearSubMap := s.baseNearSubMap.insert item.connectKey (nearEntry channel item s) } := by
      refine ⟨rfl, fun ho ↦ ho.insert ?_⟩
      unfold nearEntry
      split
      · rfl
      · next old hold => exact ho _ old hold
    dsimp only
    split
    · exact hk
    · exact hk

theorem kept_unsubNearChannel (key : String) (s : Caster A) :
    Kept s (unsubNearChannel key s : Effect A P).caster := by
  unfold unsubNearChannel
  split
  · exact ⟨rfl, id⟩
  · exact ⟨rfl, fun ho ↦ ho.erase key⟩

theorem kept_withdrawRover (opts : Options) (userName key : String) (s : Caster A) :
    Kept s (withdrawRover opts userName key s : Effect A P).caster := by
  unfold withdrawRover
  dsimp only
  split
  · exact (kept_unsubNearChannel key _).of_eq rfl rfl
  · exact ⟨rfl, id⟩

theorem kept_moveNear (geo : Geometry P) (key : String) (gga : Gga) (s : Caster A) :
    Kept s (moveNear geo key gga s).caster := by
  unfold moveNear
  split
  · exact .refl s
  · split
    · exact (kept_subNearChannel ..).of_eq rfl rfl
    · exact .refl s

theorem kept_checkActiveBaseChannel (notify : Bool) (s : Caster A) :
    Kept s (checkActiveBaseChannel notify s : Effect A P).caster := by
  unfold checkActiveBaseChannel
  generalize Table.toPairs (s.subMap .base) = rows
  suffices h : ∀ e : Effect A P, Kept s e.caster → Kept s (rows.foldl _ e).caster from
    h _ (.refl s)
  induction rows with
  | nil => exact fun e h ↦ h
  | cons row rows ih =>
    refine fun e h ↦ ih _ (h.trans ?_)
    unfold checkActiveRow
    dsimp only
    split
    · exact kept_setSubMap ..
    · exact .refl _

theorem kept_registerRover (type : RegisterType) (item : CbItem A) (s : Caster A) :
    Kept s (registerRover type item s : Effect A P).caster := ⟨rfl, id⟩

theorem kept_pubRoverChannel {geo : Geometry P} {userName key : String} {data : Bytes}
    {s : Caster A} {e : Effect A P} (h : pubRoverChannel geo userName key data s = .ok e) :
    Kept s e.caster := by
  unfold pubRoverChannel at h
  split at h
  · cases h
    exact .refl s
  · next dec _ =>
    cases hd : dec.decode data with
    | error x => rw [hd] at h; cases h
    | ok dec' =>
      rw [hd] at h
      dsimp only [bind, Except.bind] at h
      split at h
      · cases h
        exact ⟨rfl, id⟩
      · cases h
        exact (kept_moveNear ..).of_eq rfl rfl

theorem kept_redisGeoRadiusCallback {fuel : Nat} {key : String} {reply : Option (List String)}
    {s : Caster A} {e : Effect A P} (h : redisGeoRadiusCallback fuel key reply s = some e)
    (ho : Own s.baseNearSubMap) : Kept s e.caster := by
  unfold redisGeoRadiusCallback at h
  split at h
  · next item fields hitem =>
    dsimp only at h
    split at h
    · cases h
      exact .refl s
    · split at h
      · cases h
        exact .refl s
      · obtain ⟨e', he', rfl⟩ := Option.map_eq_some_iff.mp h
        have hk := (kept_subChannel _ _ _ _ e').1 _ he'
        exact ⟨hk.policy, fun _ ↦ hk.near (ho.insert (ho key item hitem))⟩
  · cases h
    exact .refl s

theorem registerRover_admitted {item : CbItem A} {s : Caster A}
    (h : (registerRover .nearest item s : Effect A P).code = 0) :
    s.policy.checkNearestMountLogin item.groupUid item.channel = none ∧
      (registerRover .nearest item s : Effect A P).calls = [] := by
  change (registerChannel .rover s.policy .nearest item s.registry).code = 0 at h
  change _ ∧ (registerChannel .rover s.policy .nearest item s.registry).calls = []
  rw [← checkNearestMountLogin_normalize]
  unfold registerChannel checkLogin at h ⊢
  split at h
  · cases h
  · next hcheck =>
    refine ⟨hcheck, ?_⟩
    unfold insertRecord
    dsimp only
    split <;> rfl

theorem calls_subNearChannel {geo : Geometry P} {channel : String} {item : CbItem A} {pos : P}
    {s : Caster A} (h : s.policy.checkNearestMountLogin item.groupUid channel = none) :
    ∀ c ∈ (subNearChannel geo channel item pos s).calls, c.reply = .ok := by
  rw [← checkNearestMountLogin_normalize] at h
  unfold subNearChannel
  rw [h]
  dsimp only
  split
  · intro c hc
    rw [List.mem_singleton.mp hc]
  · exact fun c hc ↦ by cases hc

theorem calls_unsubNearChannel (key : String) (s : Caster A) :
    (unsubNearChannel key s : Effect A P).calls = [] := by
  unfold unsubNearChannel
  split <;> rfl

theorem calls_withdrawRover (opts : Options) (userName key : String) (s : Caster A) :
    (withdrawRover opts userName key s : Effect A P).calls = [] := by
  unfold withdrawRover
  dsimp only
  split
  · exact calls_unsubNearChannel ..
  · rfl

theorem calls_checkActiveBaseChannel (notify : Bool) (s : Caster A) :
    ∀ c ∈ (checkActiveBaseChannel notify s : Effect A P).calls, c.str =
      "Subscribe Base is not active" := by
  unfold checkActiveBaseChannel
  generalize Table.toPairs (s.subMap .base) = rows
  suffices h : ∀ e : Effect A P, (∀ c ∈ e.calls, c.str = "Subscribe Base is not active") →
      ∀ c ∈ (rows.foldl _ e).calls, c.str = "Subscribe Base is not active" from h _ (by simp)
  induction rows with
  | nil => exact fun e h ↦ h
  | cons row rows ih =>
    refine fun e h ↦ ih _ fun c hc ↦ ?_
    obtain hc | hc := List.mem_append.mp hc
    · exact h c hc
    · unfold checkActiveRow at hc
      dsimp only at hc
      have hrow : ∀ c ∈ (if !e.caster.online row.1 ∧ notify then (Table.toPairs row.2).map fun e ↦
          (⟨e.2.arg, .err, "Subscribe Base is not active"⟩ : Call A) else []),
          c.str = "Subscribe Base is not active" := by
        split
        · intro c hc
          obtain ⟨_, _, rfl⟩ := List.mem_map.mp hc
          rfl
        · exact fun c hc ↦ by cases hc
      split at hc
      · exact hrow c hc
      · exact hrow c hc

theorem calls_pubRoverChannel {cfg : Config P} {userName key : String} {data : Bytes}
    {s : State A} (hok : Settled cfg s (.publish userName key data)) {e : Effect A P}
    (h : pubRoverChannel cfg.geo userName key data s.caster = .ok e) :
    ∀ c ∈ e.calls, c.reply = .ok := by
  have hnone (c : Call A) (hc : c ∈ []) : c.reply = .ok := by cases hc
  unfold pubRoverChannel at h
  split at h
  · cases h
    exact hnone
  · next dec hdec =>
    cases hd : dec.decode data with
    | error x => rw [hd] at h; cases h
    | ok dec' =>
      rw [hd] at h
      dsimp only [bind, Except.bind] at h
      split at h
      · cases h
        exact hnone
      · next gga hgga =>
        cases h
        dsimp only
        unfold moveNear
        split
        · exact hnone
        · next item hitem =>
          split
          · next hq => exact calls_subNearChannel (hok dec dec' gga item hdec hd hgga hitem hq)
          · exact hnone

theorem attached_redisGeoRadiusCallback {fuel : Nat} {key field : String} {fields : List String}
    {item : CbItem A} {s : Caster A} (hitem : s.baseNearSubMap.lookup key = some item)
    (hkey : item.connectKey = key) (hfield : s.firstOnline fields = some field)
    (hok : if item.channel = field then (s.sub .base field key).isSome
      else s.isAliasMpt field = false) {e : Effect A P}
    (h : redisGeoRadiusCallback (fuel + 1) key (some fields) s = some e) :
    (∀ c ∈ e.calls, c.reply = .ok) ∧ (e.caster.sub .base field key).isSome := by
  unfold redisGeoRadiusCallback at h
  rw [hitem] at h
  dsimp only at h
  rw [hfield] at h
  dsimp only at h
  split at h
  · next he =>
    rw [if_pos he] at hok
    cases h
    exact ⟨fun c hc ↦ (by cases hc), hok⟩
  · next hne =>
    rw [if_neg hne] at hok
    rw [subBaseChannel_of_not_alias fuel true (by exact hok),
      subMount_skip (by exact List.find?_some hfield)] at h
    cases h
    refine ⟨fun c hc ↦ ?_, ?_⟩
    · rw [List.mem_singleton.mp hc]
    · rw [← hkey]
      exact isSome_sub_addSub (P := P) field

theorem useless_not_mem_reasons : "Can't Find Useful Nearest Mount Point" ∉ reasons := by decide

theorem undenied_redisGeoRadiusCallback {fuel : Nat} {key : String} {reply : Option (List String)}
    {s : Caster A} (ho : Own s.baseNearSubMap)
    (hok : ∀ fields item field, reply = some fields → s.baseNearSubMap.lookup key = some item →
      s.firstOnline fields = some field →
        if item.channel = field then (s.sub .base field key).isSome
        else s.isAliasMpt field = false) {e : Effect A P}
    (h : redisGeoRadiusCallback (fuel + 1) key reply s = some e) : ∀ c ∈ e.calls, ¬ IsDenial c := by
  have hcopy := h
  unfold redisGeoRadiusCallback at h
  split at h
  · next item fields hitem =>
    dsimp only at h
    split at h
    · cases h
      intro c hc
      rw [List.mem_singleton.mp hc]
      exact not_isDenial (.inr useless_not_mem_reasons)
    · next field hfield =>
      have hcalls := (attached_redisGeoRadiusCallback hitem (ho key item hitem) hfield
        (hok fields item field rfl hitem hfield) hcopy).1
      exact fun c hc ↦ not_isDenial (.inl (by rw [hcalls c hc]; nofun))
  · cases h
    exact fun c hc ↦ (by cases hc)

/-- The sessions registered under their keys, for a mount that the policy lets them log in to. -/
structure Admitted (s : State A) : Prop where
  session : ∀ key item, s.sessions.lookup key = some item →
    item.connectKey = key ∧ s.caster.policy.checkNearestMountLogin item.groupUid item.channel = none
  near : Own s.caster.baseNearSubMap

theorem Admitted.apply {s : State A} {e : Effect A P} (h : Admitted s)
    (hk : Kept s.caster e.caster) :
    Admitted (s.apply e).1 :=
  ⟨fun key item hl ↦ hk.policy ▸ h.session key item hl, hk.near h.near⟩

theorem Admitted.erase {s : State A} (h : Admitted s) (key : String) :
    Admitted { s with sessions := s.sessions.erase key } := by
  refine ⟨fun key' item hl ↦ ?_, h.near⟩
  rw [Table.lookup_erase_if] at hl
  split at hl
  · cases hl
  · exact h.session key' item hl

theorem Admitted.insert {s : State A} (h : Admitted s) {item : CbItem A}
    (hc : s.caster.policy.checkNearestMountLogin item.groupUid item.channel = none) :
    Admitted { s with sessions := s.sessions.insert item.connectKey item } := by
  refine ⟨fun key' item' hl ↦ ?_, h.near⟩
  rw [Table.lookup_insert_if] at hl
  split at hl
  · next he => cases hl; exact ⟨he.symm, hc⟩
  · exact h.session key' item' hl

theorem survives_of_undenied {s t : State A} {a : Action A P} {calls : List (Call A)}
    (hc : ∀ c ∈ calls, ¬ IsDenial c) (ha : ∀ i fields, a ≠ .reply i (some fields)) :
    Survives s a t calls :=
  ⟨hc, fun i fields _ _ _ he ↦ absurd he (ha i fields)⟩

theorem step_spec {cfg : Config P} {s t : State A} {a : Action A P} {calls : List (Call A)}
    (hi : Admitted s) (hok : Settled cfg s a)
    (hs : (movementMachine cfg).step s a = some (t, calls)) :
    Admitted t ∧ Survives s a t calls := by
  have hnil : ∀ c ∈ ([] : List (Call A)), ¬ IsDenial c := fun _ hc ↦ by cases hc
  have hof {calls : List (Call A)} (h : ∀ c ∈ calls, c.reply = .ok) : ∀ c ∈ calls, ¬ IsDenial c :=
    fun c hc ↦ not_isDenial (.inl (by rw [h c hc]; nofun))
  change step cfg s a = some (t, calls) at hs
  cases a with
  | register item =>
    simp only [step] at hs
    split at hs
    · next hcode =>
      cases hs
      obtain ⟨hcheck, hcalls⟩ := registerRover_admitted hcode
      refine ⟨(hi.insert hcheck).apply (kept_registerRover .nearest item s.caster),
        survives_of_undenied ?_ nofun⟩
      rw [hcalls]
      exact hnil
    · cases hs
  | subscribe key pos =>
    obtain ⟨item, hitem, he⟩ := Option.map_eq_some_iff.mp hs
    cases he
    exact ⟨hi.apply (kept_subNearChannel ..), survives_of_undenied
      (hof (calls_subNearChannel (hi.session key item hitem).2)) nofun⟩
  | publish userName key data =>
    simp only [step] at hs
    split at hs
    · cases hs
    · next e he =>
      cases hs
      exact ⟨hi.apply (kept_pubRoverChannel he),
        survives_of_undenied (hof (calls_pubRoverChannel hok he)) nofun⟩
  | reply i r =>
    simp only [step] at hs
    split at hs
    · cases hs
    · next key hkey =>
      obtain ⟨e, he, heq⟩ := Option.map_eq_some_iff.mp hs
      cases heq
      have hkept := kept_redisGeoRadiusCallback he hi.near
      refine ⟨Admitted.apply ⟨hi.session, hi.near⟩ hkept, ?_, ?_⟩
      · refine undenied_redisGeoRadiusCallback hi.near (fun fields item field hr hitem hfield ↦ ?_)
          he
        subst hr
        exact hok key item field hkey hitem hfield
      · intro i' fields key' item field ha hkey' hitem hfield
        cases ha
        rw [hkey] at hkey'
        cases hkey'
        exact (attached_redisGeoRadiusCallback hitem (hi.near _ item hitem) hfield
          (hok _ item field hkey hitem hfield) he).2
  | unsubscribe key =>
    cases hs
    refine ⟨hi.apply (kept_unsubNearChannel key s.caster : Kept _ (_ : Effect A P).caster),
      survives_of_undenied ?_ nofun⟩
    rw [calls_unsubNearChannel]
    exact hnil
  | withdraw key =>
    obtain ⟨item, hitem, he⟩ := Option.map_eq_some_iff.mp hs
    cases he
    refine ⟨(hi.erase key).apply (kept_withdrawRover ..), survives_of_undenied ?_ nofun⟩
    rw [calls_withdrawRover]
    exact hnil
  | online mounts =>
    cases hs
    refine ⟨hi.apply ((kept_checkActiveBaseChannel ..).of_eq rfl rfl),
      survives_of_undenied ?_ nofun⟩
    intro c hc
    have hstr := calls_checkActiveBaseChannel _ _ c hc
    exact not_isDenial (.inr (by rw [hstr]; decide))
  | aliases rules =>
    cases hs
    exact ⟨⟨hi.session, hi.near⟩, survives_of_undenied hnil nofun⟩

def Unused (s : State A) : Prop := s.sessions = ∅ ∧ s.caster.baseNearSubMap = ∅

theorem admitted_unused {s : State A} (h : Unused s) : Admitted s := by
  obtain ⟨hs, hn⟩ := h
  refine ⟨fun key item hl ↦ ?_, ?_⟩
  · rw [hs] at hl
    cases hl
  · rw [hn]
    exact own_empty

theorem admitted_run {cfg : Config P} {s t : State A} (hs : Unused s)
    (h : (movementMachine cfg).Reach (Settled cfg) s t) : Admitted t :=
  h.invariant (admitted_unused hs) fun _ _ _ _ hi ha hst ↦ (step_spec hi ha hst).1

/-- In a run whose queries are started under a channel that the policy admits, and answered with
mounts that are no aliases, the nearest subscribers survive each movement. -/
theorem nearest_survives (cfg : Config P) {s t u : State A} {a : Action A P} {calls : List (Call A)}
    (hs : Unused s) (h : (movementMachine cfg).Reach (Settled cfg) s t) (ha : Settled cfg t a)
    (hst : (movementMachine cfg).step t a = some (u, calls)) : Survives t a u calls :=
  (step_spec (admitted_run hs h) ha hst).2

def plane : Config Unit where
  geo := ⟨fun _ ↦ (), fun _ ↦ false, fun _ _ ↦ true⟩

def start : State String where
  caster := {
    policy := {
      accessGroupMap :=
        AList.singleton "g" { nearestMptEnable := true, nearestMptSourceName := "V" } }
    activeMountMap := ["B"] }

def rover : CbItem String where
  connectKey := "k"
  channel := "V"
  userName := "u"
  groupUid := "g"
  arg := "rover"

def answer : Action String Unit := .reply 0 (some ["B"])

def outlook (s : State String) : Option String × Option String × Option String × Bool :=
  (s.queries[0]?, (s.caster.baseNearSubMap.lookup "k").map CbItem.channel,
    s.caster.firstOnline ["B"], s.caster.isAliasMpt "B")

theorem exists_queried : ∃ t, (movementMachine plane).Reach (Settled plane) start t ∧
    (outlook t, ((movementMachine plane).step t answer).isSome) =
      ((some "k", some "V", some "B", false), true) := by
  have hok : (movementMachine plane).Meets (Settled plane) start
      [.register rover, .subscribe "k" ()] := by
    refine Machine.meets_of_forall ?_ _
    rintro _ (_ | ⟨_, _ | ⟨_, ⟨⟩⟩⟩) _ <;> trivial
  exact Machine.exists_reach _ hok (by decide +kernel)

theorem settled_of_outlook {s : State String}
    (h : outlook s = (some "k", some "V", some "B", false)) :
    Settled plane s answer := by
  obtain ⟨hk, hn, hf, ha⟩ : s.queries[0]? = some "k" ∧
      (s.caster.baseNearSubMap.lookup "k").map CbItem.channel = some "V" ∧
      s.caster.firstOnline ["B"] = some "B" ∧ s.caster.isAliasMpt "B" = false := by
    simpa only [outlook, Prod.mk.injEq] using h
  intro key item field hkey hitem hfield
  cases hk.symm.trans hkey
  cases hf.symm.trans hfield
  rw [hitem] at hn
  rw [if_neg (by rw [Option.some.inj hn]; decide)]
  exact ha

theorem nearest_survives_answer :
    ∃ t u calls, (movementMachine plane).Reach (Settled plane) start t ∧
    (movementMachine plane).step t answer = some (u, calls) ∧ Survives t answer u calls := by
  obtain ⟨t, ht, he⟩ := exists_queried
  obtain ⟨ho, hst⟩ := Prod.mk.inj he
  obtain ⟨⟨u, calls⟩, hu⟩ := Option.isSome_iff_exists.mp hst
  exact ⟨t, u, calls, ht, hu, nearest_survives plane ⟨rfl, rfl⟩ ht (settled_of_outlook ho) hu⟩

/-- `$GPGGA,120000,3000,N,11400,E,1,8,1,5,M,0,M,1,1*54` with its line end. -/
def report : Bytes :=
  [36, 71, 80, 71, 71, 65, 44, 49, 50, 48, 48, 48, 48, 44, 51, 48, 48, 48, 44, 78, 44, 49, 49, 52,
    48, 48, 44, 69, 44, 49, 44, 56, 44, 49, 44, 53, 44, 77, 44, 48, 44, 77, 44, 49, 44, 49, 42, 53,
    52, 13, 10]

theorem exists_denied : ∃ t, (movementMachine plane).Reachable start t ∧
    ((movementMachine plane).step t (.publish "u" "k" report)).map Prod.snd =
      some [⟨"rover", .err, "Nearest mount point not configured for group"⟩] := by
  have hok : (movementMachine plane).Meets (fun _ _ ↦ True) start
      [.register rover, .subscribe "k" (), answer] :=
    Machine.meets_of_forall (fun _ _ _ ↦ trivial) _
  exact Machine.exists_reach _ hok (by decide +kernel)

theorem isReason_notConfigured : IsReason "Nearest mount point not configured for group" := by
  refine ⟨start.caster.policy, "g", "B", .inl ?_⟩
  decide +kernel

theorem not_nearest_survives : ¬ ∀ (s t u : State String) (a : Action String Unit)
    (calls : List (Call String)), Unused s → (movementMachine plane).Reachable s t →
    (movementMachine plane).step t a = some (u, calls) → Survives t a u calls := by
  intro h
  obtain ⟨t, ht, he⟩ := exists_denied
  obtain ⟨⟨u, calls⟩, hu, hcalls⟩ := Option.map_eq_some_iff.mp he
  cases hcalls
  exact (h start t u _ _ ⟨rfl, rfl⟩ ht hu).undenied _ (List.mem_singleton_self _)
    ⟨rfl, isReason_notConfigured⟩

end NavCaster.Core.Movement
