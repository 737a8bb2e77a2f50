import NavCaster.Core.Movement

namespace NavCaster.Session.Nearest

open NavCaster.Library
open NavCaster.Library.Strto (Bytes)
open NavCaster.Base.Nmea
open NavCaster.Core.Message
open NavCaster.Core.Access
open NavCaster.Core.Connections
open NavCaster.Core.Subscription
open NavCaster.Core.Movement (checkNearestMountLogin_normalize)

inductive Event
  | stopped | refused | running | readInstalled | success
  deriving DecidableEq

/-- One session, the caster it registers with, and what it has done so far. `subscribed` says that
it has asked for its subscription, and `input` is what the client has sent that is not yet read. -/
structure State (A P : Type) where
  item : CbItem A
  pos : P
  caster : Caster A := {}
  aliasMpt : String := ""
  stopped : Bool := false
  registered : Bool := false
  running : Bool := false
  readCallback : Bool := false
  subscribed : Bool := false
  input : Bytes := []
  log : List Event := []

/-- `subscribeReply` is a reply that the caster gives on its own, `geoReply` one to a query, and
`others` is what else happens to the caster, where no one else subscribes under the key of the
session. A client that is too slow for its data is stopped. -/
inductive Action (A : Type)
  | authReply (ok : Bool) (groupUid : String)
  | registerReply (r : CasterReply)
  | subscribeReply (c : Call A)
  | geoReply (r : Option (List String))
  | receive (data : Bytes)
  | stop
  | others (c : Caster A)

structure Config (P : Type) where
  geo : Geometry P
  opts : Options := {}

variable {A P : Type}

namespace State

variable (s : State A P)

def emit (es : List Event) : State A P := { s with log := s.log ++ es }

def key : String := s.item.connectKey

end State

def stop (cfg : Config P) (s : State A P) : State A P :=
  if s.stopped then s
  else
    let s := { s with stopped := true, readCallback := false }
    let s :=
      if s.registered then
        let unsub : Effect A P := unsubNearChannel s.key s.caster
        let withdraw : Effect A P := withdrawRover cfg.opts s.item.userName s.key unsub.caster
        { s with registered := false, caster := withdraw.caster }
      else s
    s.emit [.stopped]

def casterSubscribeCallback (cfg : Config P) (s : State A P) (c : Call A) : State A P :=
  match c.reply with
  | .ok => { s with aliasMpt := c.str }
  | .err => stop cfg (s.emit [.refused])
  | _ => s

def deliver (cfg : Config P) (s : State A P) (e : Effect A P) : State A P :=
  e.calls.foldl (casterSubscribeCallback cfg) { s with caster := e.caster }

/-- `none` where an exception leaves the decoder of positions, which ends the process. -/
def publish (cfg : Config P) (data : Bytes) (s : State A P) : Option (State A P) :=
  match pubRoverChannel cfg.geo s.item.userName s.key data s.caster with
  | .error _ => none
  | .ok e => some (deliver cfg s e)

/-- What the client has sent before it was served is published first. -/
def run (cfg : Config P) (s : State A P) : Option (State A P) :=
  let s := s.emit [.running]
  if s.running then some s
  else
    let data := s.input
    let s := { s with running := true, input := [] }
    (if data = [] then some s else publish cfg data s).map fun s ↦
      { s with readCallback := true }.emit [.readInstalled, .success]

def subscribeInitialPosition (cfg : Config P) (s : State A P) : State A P :=
  deliver cfg { s with subscribed := true }
    (subNearChannel cfg.geo s.item.channel s.item s.pos s.caster)

def casterRegisterCallback (cfg : Config P) (s : State A P) (r : CasterReply) :
    Option (State A P) :=
  match r with
  | .ok => run cfg (subscribeInitialPosition cfg { s with registered := true })
  | .err => some (stop cfg s)
  | _ => some s

def authLoginCallback (cfg : Config P) (s : State A P) (ok : Bool) (groupUid : String) :
    Option (State A P) :=
  if ok then
    let s := if groupUid = "" then s else { s with item := { s.item with groupUid } }
    let e : Effect A P := registerRover .nearest s.item s.caster
    e.calls.foldlM (fun s c ↦ casterRegisterCallback cfg s c.reply) { s with caster := e.caster }
  else some (stop cfg s)

def step (cfg : Config P) (s : State A P) : Action A → Option (State A P × List Event)
  | .authReply ok groupUid => (authLoginCallback cfg s ok groupUid).map (·, [])
  | .registerReply r => (casterRegisterCallback cfg s r).map (·, [])
  | .subscribeReply c => if s.subscribed then some (casterSubscribeCallback cfg s c, []) else none
  | .geoReply r =>
    (redisGeoRadiusCallback s.caster.aliasDepth s.key r s.caster).map fun e ↦ (deliver cfg s e, [])
  | .receive data =>
    if s.readCallback then (publish cfg data s).map (·, [])
    else some ({ s with input := s.input ++ data }, [])
  | .stop => some (stop cfg s, [])
  | .others c =>
    if s.key ∈ s.caster.baseNearSubMap then some ({ s with caster := c }, [])
    else some ({ s with caster := { c with baseNearSubMap := c.baseNearSubMap.erase s.key } }, [])

/-- One nearest session, from its start on. -/
def nearestMachine (cfg : Config P) : Machine (State A P) (Action A) Event := ⟨step cfg⟩

def Event.Serves : Event → Prop
  | .running => True
  | .readInstalled => True
  | .success => True
  | _ => False

/-- Once the session has stopped it serves its client no more, and if its subscription is refused
before it ever ran, the client is never told of a success. -/
structure Final (log : List Event) : Prop where
  stopped : log.Pairwise fun e e' ↦ e = .stopped → ¬ e'.Serves
  refused : ∀ before after, log = before ++ .refused :: after → .running ∉ before → .success ∉ log

/-- A registration is confirmed only while the session lasts, and while the policy admits it to its
mount point. -/
def Settled (s : State A P) : Action A → Prop
  | .registerReply .ok => s.stopped = false ∧
      s.caster.policy.checkNearestMountLogin s.item.groupUid s.item.channel = none
  | _ => True

instance (s : State A P) : ∀ a, Decidable (Settled s a)
  | .registerReply .ok => inferInstanceAs (Decidable (_ ∧ _))
  | .registerReply .err | .registerReply .active | .registerReply .inactive | .registerReply .string
  | .registerReply .integer | .registerReply .double | .registerReply .nil => isTrue trivial
  | .authReply .. | .subscribeReply _ | .geoReply _ | .receive _ | .stop | .others _ =>
    isTrue trivial

def Preceded (log : List Event) : Prop :=
  ∀ before after, log = before ++ .refused :: after → .running ∈ before

structure Good (s : State A P) : Prop where
  quiet : s.log.Pairwise fun e e' ↦ e = .stopped → ¬ e'.Serves
  preceded : Preceded s.log
  stopped : .stopped ∈ s.log → s.stopped = true
  ran : s.running = true → .running ∈ s.log
  near : (s.caster.baseNearSubMap.lookup s.key).isSome → s.running = true
  subscribed : s.subscribed = true → s.running = true
  read : s.readCallback = true → s.running = true

theorem final_of_good {s : State A P} (h : Good s) : Final s.log :=
  ⟨h.quiet, fun before after hlog hnot ↦ absurd (h.preceded before after hlog) hnot⟩

theorem Preceded.append {log es : List Event} (h : Preceded log)
    (hes : .refused ∈ es → .running ∈ log) :
    Preceded (log ++ es) := by
  intro before after hsplit
  obtain ⟨mid, rfl, hes'⟩ | ⟨mid, rfl, hmid⟩ := List.append_eq_append_iff.mp hsplit
  · exact List.mem_append_left mid (hes (hes' ▸ List.mem_append_right mid (List.mem_cons_self ..)))
  · cases mid with
    | nil =>
      have hmem : .refused ∈ es := by
        rw [← List.nil_append es, ← hmid]
        exact List.mem_cons_self ..
      have hlog := hes hmem
      rwa [List.append_nil] at hlog
    | cons e mid =>
      cases hmid
      exact h before mid rfl

theorem quiet_append {log es : List Event} (h : log.Pairwise fun e e' ↦ e = .stopped → ¬ e'.Serves)
    (hes : es.Pairwise fun e e' ↦ e = .stopped → ¬ e'.Serves)
    (hcross : .stopped ∈ log → ∀ e ∈ es, ¬ e.Serves) :
    (log ++ es).Pairwise fun e e' ↦ e = .stopped → ¬ e'.Serves := by
  refine List.pairwise_append.mpr ⟨h, hes, ?_⟩
  rintro e he e' he' rfl
  exact hcross he e' he'

section

variable {cfg : Config P} {s : State A P}

theorem Good.emit (h : Good s) (e : Event) (he : ¬ e.Serves)
    (hstop : e = .stopped → s.stopped = true)
    (hrefused : e = .refused → s.running = true) : Good (s.emit [e]) := by
  refine ⟨quiet_append h.quiet (List.pairwise_singleton ..) fun _ e' he' ↦ ?_,
    h.preceded.append fun hr ↦ h.ran (hrefused (List.mem_singleton.mp hr).symm), fun hs ↦ ?_,
    fun hr ↦ List.mem_append_left _ (h.ran hr), h.near, h.subscribed, h.read⟩
  · rw [List.mem_singleton.mp he']
    exact he
  · obtain hs | hs := List.mem_append.mp hs
    · exact h.stopped hs
    · exact hstop (List.mem_singleton.mp hs).symm

theorem near_unsubNearChannel {key key' : String} {c : Caster A}
    (h : ((unsubNearChannel key c : Effect A P).caster.baseNearSubMap.lookup key').isSome = true) :
    (c.baseNearSubMap.lookup key').isSome = true := by
  unfold unsubNearChannel at h
  split at h
  · exact h
  · dsimp only at h
    rw [Table.lookup_erase_if] at h
    split at h
    · cases h
    · exact h

theorem near_withdrawRover {opts : Options} {userName key key' : String} {c : Caster A}
    (h :
      ((withdrawRover opts userName key c : Effect A P).caster.baseNearSubMap.lookup key').isSome =
        true) :
    (c.baseNearSubMap.lookup key').isSome = true := by
  unfold withdrawRover at h
  dsimp only at h
  split at h
  · have hn := near_unsubNearChannel h
    exact hn
  · exact h

theorem good_stop (h : Good s) : Good (stop cfg s) := by
  unfold stop
  split
  · exact h
  · have hs : Good { s with stopped := true, readCallback := false } :=
      ⟨h.quiet, h.preceded, fun _ ↦ rfl, h.ran, h.near, h.subscribed, fun hr ↦ by cases hr⟩
    dsimp only
    split
    · have hg : Good ({ s with
          stopped := true
          readCallback := false
          registered := false
          caster := (withdrawRover cfg.opts s.item.userName s.key
            (unsubNearChannel s.key s.caster : Effect A P).caster : Effect A P).caster } :
            State A P) :=
        ⟨hs.quiet, hs.preceded, hs.stopped, hs.ran,
          fun hn ↦ hs.near (near_unsubNearChannel (near_withdrawRover hn)), hs.subscribed, hs.read⟩
      exact hg.emit .stopped (fun hserves ↦ hserves) (fun _ ↦ rfl) (fun he ↦ by cases he)
    · exact hs.emit .stopped (fun hserves ↦ hserves) (fun _ ↦ rfl) (fun he ↦ by cases he)

theorem running_stop (cfg : Config P) (s : State A P) : (stop cfg s).running = s.running := by
  unfold stop
  split
  · rfl
  · dsimp only
    split <;> rfl

theorem good_callback (cfg : Config P) {s : State A P} (h : Good s) (hr : s.running = true)
    (c : Call A) :
    Good (casterSubscribeCallback cfg s c) ∧ (casterSubscribeCallback cfg s c).running = true := by
  unfold casterSubscribeCallback
  split
  · exact ⟨⟨h.quiet, h.preceded, h.stopped, h.ran, h.near, h.subscribed, h.read⟩, hr⟩
  · refine ⟨good_stop (h.emit .refused (fun hserves ↦ hserves) (fun he ↦ by cases he) (fun _ ↦ hr)),
      ?_⟩
    exact (running_stop ..).trans hr
  · exact ⟨h, hr⟩

theorem good_callbacks (calls : List (Call A)) : ∀ s : State A P, Good s → s.running = true →
    Good (calls.foldl (casterSubscribeCallback cfg) s) := by
  induction calls with
  | nil => exact fun _ h _ ↦ h
  | cons c calls ih =>
    intro s h hr
    obtain ⟨h', hr'⟩ := good_callback cfg h hr c
    exact ih _ h' hr'

theorem good_deliver (h : Good s) (hr : s.running = true) (e : Effect A P) :
    Good (deliver cfg s e) :=
  good_callbacks e.calls { s with caster := e.caster }
    ⟨h.quiet, h.preceded, h.stopped, h.ran, fun _ ↦ hr, h.subscribed, h.read⟩ hr

theorem good_publish {data : Bytes} {t : State A P} (h : Good s) (hr : s.running = true)
    (hp : publish cfg data s = some t) : Good t := by
  unfold publish at hp
  split at hp
  · cases hp
  · cases hp
    exact good_deliver h hr _

theorem callbacks_ok (calls : List (Call A)) : ∀ s : State A P, (∀ c ∈ calls, c.reply = .ok) →
    ∃ name, calls.foldl (casterSubscribeCallback cfg) s = { s with aliasMpt := name } := by
  induction calls with
  | nil => exact fun s _ ↦ ⟨s.aliasMpt, rfl⟩
  | cons c calls ih =>
    intro s hc
    obtain ⟨name, hname⟩ :=
      ih { s with aliasMpt := c.str } fun c' hc' ↦ hc c' (List.mem_cons_of_mem c hc')
    refine ⟨name, ?_⟩
    rw [List.foldl_cons, casterSubscribeCallback, hc c (List.mem_cons_self ..)]
    exact hname

theorem deliver_ok (cfg : Config P) (s : State A P) {e : Effect A P}
    (he : ∀ c ∈ e.calls, c.reply = .ok) :
    ∃ name, deliver cfg s e = { s with caster := e.caster, aliasMpt := name } :=
  callbacks_ok e.calls _ he

theorem subNearChannel_admitted (geo : Geometry P) (pos : P) {channel : String} {item : CbItem A}
    {c : Caster A} (h : c.policy.checkNearestMountLogin item.groupUid channel = none) :
    (∀ call ∈ (subNearChannel geo channel item pos c).calls, call.reply = .ok) ∧
      (subNearChannel geo channel item pos c).caster = { c with
        baseNearSubMap := c.baseNearSubMap.insert item.connectKey (nearEntry channel item c) } := by
  unfold subNearChannel
  rw [checkNearestMountLogin_normalize, h]
  dsimp only
  split
  · refine ⟨fun call hcall ↦ ?_, rfl⟩
    rw [List.mem_singleton.mp hcall]
  · exact ⟨fun call hcall ↦ absurd hcall List.not_mem_nil, rfl⟩

theorem pubRoverChannel_admitted {geo : Geometry P} {userName key : String} {data : Bytes}
    {c : Caster A} {e : Effect A P} {item : CbItem A}
    (hnear : c.baseNearSubMap.lookup key = some item)
    (hitem : c.policy.checkNearestMountLogin item.groupUid item.channel = none)
    (he : pubRoverChannel geo userName key data c = .ok e) :
    ∀ call ∈ e.calls, call.reply = .ok := by
  unfold pubRoverChannel at he
  split at he
  · cases he
    exact fun call hcall ↦ absurd hcall List.not_mem_nil
  · next dec _ =>
    cases hd : dec.decode data with
    | error x => rw [hd] at he; cases he
    | ok dec' =>
      rw [hd] at he
      dsimp only [bind, Except.bind] at he
      split at he
      · cases he
        exact fun call hcall ↦ absurd hcall List.not_mem_nil
      · cases he
        dsimp only
        unfold moveNear
        dsimp only
        rw [hnear]
        dsimp only
        split
        · refine (subNearChannel_admitted _ _ ?_).1
          exact hitem
        · exact fun call hcall ↦ absurd hcall List.not_mem_nil

theorem publish_admitted {data : Bytes} {t : State A P} {item : CbItem A}
    (hnear : s.caster.baseNearSubMap.lookup s.key = some item)
    (hitem : s.caster.policy.checkNearestMountLogin item.groupUid item.channel = none)
    (ht : publish cfg data s = some t) : t.log = s.log ∧ t.running = s.running := by
  unfold publish at ht
  split at ht
  · cases ht
  · next e he =>
    cases ht
    obtain ⟨name, hname⟩ := deliver_ok cfg s (pubRoverChannel_admitted hnear hitem he)
    rw [hname]
    exact ⟨rfl, rfl⟩

theorem run_admitted {t : State A P} (hnear : s.running = false → ∃ item,
      s.caster.baseNearSubMap.lookup s.key = some item ∧
        s.caster.policy.checkNearestMountLogin item.groupUid item.channel = none)
    (ht : run cfg s = some t) :
    t.running = true ∧ ∃ es, t.log = s.log ++ .running :: es ∧ ∀ e ∈ es, e.Serves := by
  cases hrun : s.running with
  | true =>
    have hu : some (s.emit [.running]) = some t := (if_pos hrun).symm.trans ht
    cases hu
    exact ⟨hrun, [], rfl, fun _ he ↦ absurd he List.not_mem_nil⟩
  | false =>
    obtain ⟨item, hitem, hadm⟩ := hnear hrun
    let u : State A P := { s.emit [.running] with running := true, input := [] }
    have hu : (if s.input = [] then some u else publish cfg s.input u).map (fun u ↦
        { u with readCallback := true }.emit [.readInstalled, .success]) = some t :=
      (if_neg (Bool.not_eq_true _ ▸ hrun)).symm.trans ht
    obtain ⟨v, hv, rfl⟩ := Option.map_eq_some_iff.mp hu
    have hlog : v.log = s.log ++ [.running] ∧ v.running = true := by
      split at hv
      · cases hv
        exact ⟨rfl, rfl⟩
      · exact publish_admitted (s := u) hitem hadm hv
    refine ⟨hlog.2, [.readInstalled, .success], ?_, ?_⟩
    · calc v.log ++ [.readInstalled, .success]
        _ = (s.log ++ [.running]) ++ [.readInstalled, .success] := by rw [hlog.1]
        _ = s.log ++ .running :: [.readInstalled, .success] := List.append_assoc ..
    · intro e he
      obtain rfl | he := List.mem_cons.mp he
      · trivial
      · rw [List.mem_singleton.mp he]
        trivial

theorem good_served {t : State A P} {es : List Event} (h : Good s) (hs : s.stopped = false)
    (hlog : t.log = s.log ++ .running :: es) (hes : ∀ e ∈ es, e.Serves) (hrun : t.running = true) :
    Good t := by
  have hserves : ∀ e ∈ Event.running :: es, e.Serves := by
    intro e he
    obtain rfl | he := List.mem_cons.mp he
    · trivial
    · exact hes e he
  have hquiet : .stopped ∉ s.log := fun hmem ↦ by
    have := h.stopped hmem
    rw [hs] at this
    cases this
  have hnot : .stopped ∉ t.log := by
    rw [hlog]
    intro hmem
    obtain hmem | hmem := List.mem_append.mp hmem
    · exact hquiet hmem
    · exact hserves _ hmem
  refine ⟨?_, ?_, fun hmem ↦ absurd hmem hnot, fun _ ↦ ?_, fun _ ↦ hrun, fun _ ↦ hrun, fun _ ↦ hrun⟩
  · refine List.Pairwise.imp_of_mem ?_ (List.pairwise_of_forall (l := t.log) fun _ _ ↦ trivial)
    rintro e e' he - - rfl
    exact absurd he hnot
  · rw [hlog]
    exact h.preceded.append fun hr ↦ (hserves _ hr).elim
  · rw [hlog]
    exact List.mem_append_right _ (List.mem_cons_self ..)

theorem good_confirmed {t : State A P} (h : Good s) (hs : s.stopped = false)
    (hadm : s.caster.policy.checkNearestMountLogin s.item.groupUid s.item.channel = none)
    (ht : casterRegisterCallback cfg s .ok = some t) : Good t := by
  obtain ⟨hcalls, hcaster⟩ := subNearChannel_admitted cfg.geo s.pos hadm
  obtain ⟨name, hname⟩ := deliver_ok cfg { s with registered := true, subscribed := true } hcalls
  let u := deliver cfg { s with registered := true, subscribed := true }
    (subNearChannel cfg.geo s.item.channel s.item s.pos s.caster)
  have hnear : u.running = false → ∃ item, u.caster.baseNearSubMap.lookup u.key = some item ∧
      u.caster.policy.checkNearestMountLogin item.groupUid item.channel = none := by
    intro hrun
    change (deliver cfg _ _).running = false at hrun
    rw [hname] at hrun
    -- The session has no entry of its own before it runs for the first time.
    have hnone : s.caster.baseNearSubMap.lookup s.item.connectKey = none := by
      refine Option.not_isSome_iff_eq_none.mp fun hn ↦ ?_
      have hrun' := (h.near hn).symm.trans hrun
      cases hrun'
    refine ⟨nearEntry s.item.channel s.item s.caster, ?_, ?_⟩
    · rw [show u = _ from hname, hcaster]
      exact (Table.lookup_insert_if ..).trans (if_pos rfl)
    · rw [show u = _ from hname, hcaster, nearEntry, hnone]
      exact (checkNearestMountLogin_normalize ..).trans hadm
  obtain ⟨hrun, es, hlog, hes⟩ := run_admitted hnear ht
  refine good_served h hs (hlog.trans ?_) hes hrun
  rw [show u = _ from hname]

theorem registerRover_denied {type : RegisterType} {item : CbItem A} {c : Caster A} :
    (∀ call ∈ (registerRover type item c : Effect A P).calls, call.reply = .err) ∧
      (registerRover type item c : Effect A P).caster.baseNearSubMap = c.baseNearSubMap := by
  refine ⟨fun call hcall ↦ ?_, rfl⟩
  change call ∈ (registerChannel .rover c.policy type item c.registry).calls at hcall
  unfold registerChannel at hcall
  split at hcall
  · rw [List.mem_singleton.mp hcall]
  · unfold insertRecord at hcall
    dsimp only at hcall
    split at hcall <;> exact absurd hcall List.not_mem_nil

theorem good_denied (calls : List (Call A)) : ∀ {s t : State A P}, Good s →
    (∀ c ∈ calls, c.reply = .err) →
    calls.foldlM (fun s c ↦ casterRegisterCallback cfg s c.reply) s = some t → Good t := by
  induction calls with
  | nil =>
    intro s t h _ ht
    cases ht
    exact h
  | cons c calls ih =>
    intro s t h hc ht
    rw [List.foldlM_cons, hc c (List.mem_cons_self ..)] at ht
    exact ih (good_stop h) (fun c' hc' ↦ hc c' (List.mem_cons_of_mem c hc')) ht

theorem good_authLoginCallback {ok : Bool} {groupUid : String} {t : State A P} (h : Good s)
    (ht : authLoginCallback cfg s ok groupUid = some t) : Good t := by
  unfold authLoginCallback at ht
  split at ht
  · dsimp only at ht
    split at ht
    · refine good_denied _ (s := { s with caster := _ }) ?_ registerRover_denied.1 ht
      exact ⟨h.quiet, h.preceded, h.stopped, h.ran, h.near, h.subscribed, h.read⟩
    · refine good_denied _ (s := { s with item := _, caster := _ }) ?_ registerRover_denied.1 ht
      exact ⟨h.quiet, h.preceded, h.stopped, h.ran, h.near, h.subscribed, h.read⟩
  · cases ht
    exact good_stop h

theorem good_casterRegisterCallback {r : CasterReply} {t : State A P} (h : Good s)
    (hok : Settled s (.registerReply r)) (ht : casterRegisterCallback cfg s r = some t) :
    Good t := by
  cases r with
  | ok => exact good_confirmed h hok.1 hok.2 ht
  | err =>
    cases ht
    exact good_stop h
  | _ =>
    cases ht
    exact h

theorem good_step {a : Action A} {t : State A P} {es : List Event} (h : Good s) (hok : Settled s a)
    (hs : (nearestMachine cfg).step s a = some (t, es)) : Good t := by
  change step cfg s a = some (t, es) at hs
  cases a with
  | authReply ok groupUid =>
    obtain ⟨u, hu, he⟩ := Option.map_eq_some_iff.mp hs
    cases he
    exact good_authLoginCallback h hu
  | registerReply r =>
    obtain ⟨u, hu, he⟩ := Option.map_eq_some_iff.mp hs
    cases he
    exact good_casterRegisterCallback h hok hu
  | subscribeReply c =>
    unfold step at hs
    dsimp only at hs
    split at hs
    · next hsub =>
      cases hs
      exact (good_callback cfg h (h.subscribed hsub) c).1
    · cases hs
  | geoReply r =>
    obtain ⟨e, he, hes⟩ := Option.map_eq_some_iff.mp hs
    cases hes
    cases hn : s.caster.baseNearSubMap.lookup s.key with
    | none =>
      -- Without an entry of the session there is no one to answer.
      unfold redisGeoRadiusCallback at he
      rw [hn] at he
      cases he
      exact h
    | some item => exact good_deliver h (h.near (Option.isSome_of_mem hn)) e
  | receive data =>
    unfold step at hs
    dsimp only at hs
    split at hs
    · next hread =>
      obtain ⟨u, hu, he⟩ := Option.map_eq_some_iff.mp hs
      cases he
      exact good_publish h (h.read hread) hu
    · cases hs
      exact ⟨h.quiet, h.preceded, h.stopped, h.ran, h.near, h.subscribed, h.read⟩
  | stop =>
    cases hs
    exact good_stop h
  | others c =>
    unfold step at hs
    dsimp only at hs
    split at hs
    · next hmem =>
      cases hs
      exact ⟨h.quiet, h.preceded, h.stopped, h.ran, fun _ ↦ h.near (AList.lookup_isSome.mpr hmem),
        h.subscribed, h.read⟩
    · cases hs
      refine ⟨h.quiet, h.preceded, h.stopped, h.ran, fun hn ↦ ?_, h.subscribed, h.read⟩
      dsimp only [State.key] at hn
      rw [AList.lookup_erase] at hn
      cases hn

theorem good_init (item : CbItem A) (pos : P) : Good ({ item, pos } : State A P) where
  quiet := .nil
  preceded before after hsplit := by
    cases before <;> cases hsplit
  stopped hs := absurd hs List.not_mem_nil
  ran hr := by cases hr
  near hn := by cases hn
  subscribed hs := by cases hs
  read hr := by cases hr

end

/-- A session whose registration is confirmed only while it lasts and while its policy admits it
ends once. -/
theorem final_of_settled {cfg : Config P} {item : CbItem A} {pos : P} {s : State A P}
    (h : (nearestMachine cfg).Reach Settled { item, pos } s) : Final s.log :=
  final_of_good (h.invariant (good_init item pos) fun _ _ _ _ ht hok hs ↦ good_step ht hok hs)

def everywhere : Config Unit where
  geo := { ecef2pos := fun _ ↦ (), atOrigin := fun _ ↦ true, moved := fun _ _ ↦ false }

def start : State String Unit where
  item := { connectKey := "k", channel := "N", userName := "u", groupUid := "g", arg := "session" }
  pos := ()

def offering : Action String :=
  .others { policy := {
    accessGroupMap :=
      AList.singleton "g" { nearestMptEnable := true, nearestMptSourceName := "N" } } }

def sitting : List (Action String) :=
  [offering, .authReply true "", .registerReply .ok, .subscribeReply ⟨"session", .err, "inactive"⟩]

theorem exists_served : ∃ s, (nearestMachine everywhere).Reach Settled start s ∧
    s.log = [.running, .readInstalled, .success, .refused, .stopped] :=
  Machine.exists_reach (l := sitting) _ (by decide +kernel) (by decide +kernel)

theorem final_of_sitting : Final [.running, .readInstalled, .success, .refused, .stopped] := by
  obtain ⟨s, hs, hlog⟩ := exists_served
  rw [← hlog]
  exact final_of_settled hs

theorem exists_continued : ∃ s, (nearestMachine everywhere).Reachable start s ∧
    s.log = [.refused, .stopped, .running, .readInstalled, .success] :=
  Machine.exists_reach (l := [offering, .authReply true "", .others {}, .registerReply .ok]) _
    (Machine.meets_of_forall (fun _ _ _ ↦ trivial) _) (by decide +kernel)

theorem not_final_continued :
    ¬ ∀ (cfg : Config Unit) (item : CbItem String) (s : State String Unit),
    (nearestMachine cfg).Reachable { item, pos := () } s → Final s.log := by
  intro h
  obtain ⟨s, hs, hlog⟩ := exists_continued
  have hquiet := (h _ _ s hs).stopped
  rw [hlog] at hquiet
  have hserves : ¬ Event.Serves .running :=
    (List.pairwise_cons.mp (List.pairwise_cons.mp hquiet).2).1 .running (List.mem_cons_self ..) rfl
  exact hserves trivial

end NavCaster.Session.Nearest
