import NavCaster.Core.Aliases
import NavCaster.Library.Machine

namespace NavCaster.Core.Attachments

open Relation
open NavCaster.Library
open NavCaster.Library.Walk
open NavCaster.Base.Nmea
open NavCaster.Core.Message
open NavCaster.Core.Access
open NavCaster.Core.Connections
open NavCaster.Core.Subscription
open NavCaster.Core.Aliases

inductive Kind
  | client | near | push
  deriving DecidableEq

theorem Kind.eq_near_or (k : Kind) : k = .near ∨ k = .client ∨ k = .push := by
  cases k with
  | near => exact .inl rfl
  | client => exact .inr (.inl rfl)
  | push => exact .inr (.inr rfl)

/-- A session that subscribes to bases, under its connect key. For a relay it is one attempt to
connect, and ends with it. -/
structure Session (A P : Type) where
  kind : Kind
  item : CbItem A
  pos : P
  aliasMpt : String := ""
  registered : Bool := false
  subscribed : Bool := false
  ended : Bool := false

structure State (A P : Type) where
  caster : Caster A := {}
  sessions : Table String (Session A P) := ∅

inductive Action (A P : Type)
  | start (connectKey : String) (kind : Kind) (item : CbItem A) (pos : P)
  | registered (connectKey : String)
  | position (connectKey : String) (gga : Gga)
  | reply (connectKey : String) (r : Option (List String))
  | stop (connectKey : String)
  | online (mounts : List String)
  | aliases (rules : Table String (List String))
  | policy (p : AccessPolicy)

variable {A P : Type}

namespace Session

variable (x : Session A P)

/-- The name that the session gives when it unsubscribes. -/
def unsubMpt : String :=
  match x.kind with
  | .push => x.item.channel
  | _ => if x.aliasMpt = "" then x.item.channel else x.aliasMpt

def unsubscribes : Bool :=
  match x.kind with
  | .push => x.subscribed
  | _ => x.registered

def unsub (key : String) (s : Caster A) : Effect A P :=
  match x.kind with
  | .near => unsubNearChannel key s
  | _ => unsubBaseChannel x.unsubMpt key s

/-- A relay that has no connection any more subscribes with an empty key. -/
def subItem : CbItem A :=
  match x.kind with
  | .push => { x.item with
      connectKey := if x.ended then "" else x.item.connectKey, groupUid := "SYSTEM" }
  | _ => x.item

def accept (name : String) : Session A P :=
  match x.kind with
  | .push => { x with subscribed := true }
  | _ => { x with aliasMpt := name }

end Session

namespace State

variable (s : State A P)

def setSession (key : String) (x : Session A P) : State A P :=
  { s with sessions := s.sessions.insert key x }

def setCaster (caster : Caster A) : State A P := { s with caster }

end State

/-- `stop` of a client, and `cleanup_connection` of a relay. The withdrawal that goes with them ends
no subscription that is not ended by then. -/
def endSession (key : String) (s : State A P) : State A P :=
  match s.sessions.lookup key with
  | none => s
  | some x =>
    if x.ended then s
    else
      let s := s.setSession key { x with ended := true }
      if x.unsubscribes then s.setCaster (x.unsub key s.caster : Effect A P).caster else s

def answer (key : String) (s : State A P) (c : Call A) : State A P :=
  match s.sessions.lookup key with
  | none => s
  | some x =>
    match c.reply with
    | .ok => s.setSession key (x.accept c.str)
    | .err => endSession key s
    | _ => s

def deliver (key : String) (s : State A P) (e : Effect A P) : State A P × List (Call A) :=
  (e.calls.foldl (answer key) (s.setCaster e.caster), e.calls)

def subscribe (geo : Geometry P) (x : Session A P) (s : Caster A) : Option (Effect A P) :=
  match x.kind with
  | .near => some (subNearChannel geo x.item.channel x.item x.pos s)
  | _ => subBaseChannel s.aliasDepth x.item.channel x.subItem false s

def step (geo : Geometry P) (s : State A P) : Action A P → Option (State A P × List (Call A))
  | .start key kind item pos =>
    if key = "" ∨ (s.sessions.lookup key).any (!·.ended) then none
    else some (s.setSession key { kind, item := { item with connectKey := key }, pos }, [])
  | .registered key =>
    match s.sessions.lookup key with
    | none => none
    | some x =>
      (subscribe geo x s.caster).map (deliver key (s.setSession key { x with registered := true }))
  | .position key gga => some (deliver key s (moveNear geo key gga s.caster))
  | .reply key r =>
    (redisGeoRadiusCallback s.caster.aliasDepth key r s.caster).map (deliver key s)
  | .stop key => some (endSession key s, [])
  | .online mounts => some (s.setCaster { s.caster with activeMountMap := mounts }, [])
  | .aliases rules => some (s.setCaster { s.caster with aliasRuleMap := rules }, [])
  | .policy p => some (s.setCaster { s.caster with policy := p }, [])

/-- The sessions of one node that subscribe to bases. -/
def attachmentMachine (geo : Geometry P) : Machine (State A P) (Action A P) (Call A) := ⟨step geo⟩

/-- Each key is attached to one channel at most, and to none once its session has ended. -/
structure Single (s : State A P) : Prop where
  one : ∀ key c c', (s.caster.sub .base c key).isSome → (s.caster.sub .base c' key).isSome → c = c'
  ended : ∀ key x, s.sessions.lookup key = some x → x.ended = true →
    ∀ c, s.caster.sub .base c key = none

abbrev OnWalk (s : Caster A) (channel c : String) : Prop :=
  ReflTransGen (Next (nextSource s)) channel c

structure Target (s : Caster A) (channel groupUid m : String) : Prop where
  walk : OnWalk s channel m
  notAlias : s.isAliasMpt m = false
  online : s.online m = true
  allowed : s.policy.checkMountAccess (normalizeAccessGroupUid groupUid) m = none

/-- A session is confirmed while it lasts. What a client is attached to when it is confirmed again
lies on the way to what it is attached to then, which has a name if the mount point has one. A relay
and an answer that names a new nearest mount point come to the very mount point. -/
def Settled (s : State A P) : Action A P → Prop
  | .registered key => ∀ x, s.sessions.lookup key = some x → x.ended = false ∧
      match x.kind with
      | .client => ∀ m, Target s.caster x.item.channel x.item.groupUid m →
          (m = "" → x.item.channel = "") ∧
            ∀ c, (s.caster.sub .base c key).isSome → OnWalk s.caster x.item.channel c
      | .near => True
      | .push => ∀ m, Target s.caster x.item.channel "SYSTEM" m → m = x.item.channel
  | .reply key (some fields) => ∀ item field, s.caster.baseNearSubMap.lookup key = some item →
      s.caster.firstOnline fields = some field → item.channel ≠ field →
        ∀ m, Target s.caster field item.groupUid m → m = field
  | _ => True

structure Attaches (s : Caster A) (channel : String) (item : CbItem A) (skip : Bool)
    (e : Effect A P) (m : String) : Prop where
  walk : OnWalk s channel m
  notAlias : s.isAliasMpt m = false
  online : s.online m = true
  allowed : skip = true ∧ m = channel ∨
    s.policy.checkMountAccess (normalizeAccessGroupUid item.groupUid) m = none
  calls : e.calls = [⟨item.arg, .ok, m⟩]
  sub : ∀ c, (e.caster.sub .base c item.connectKey).isSome →
    c = m ∨ (s.sub .base c item.connectKey).isSome ∧ ¬ OnWalk s channel c

structure Refuses (s : Caster A) (item : CbItem A) (e : Effect A P) : Prop where
  calls : ∀ c ∈ e.calls, c.reply = .err
  sub : ∀ c, (e.caster.sub .base c item.connectKey).isSome → (s.sub .base c item.connectKey).isSome

structure Outcome (s : Caster A) (channel : String) (item : CbItem A) (skip : Bool)
    (e : Effect A P) :
    Prop where
  near : e.caster.baseNearSubMap = s.baseNearSubMap
  others : ∀ c key, key ≠ item.connectKey → e.caster.sub .base c key = s.sub .base c key
  own : (∃ m, Attaches s channel item skip e m) ∨ Refuses s item e

section

variable {s : Caster A} {channel : String} {item : CbItem A} {skip : Bool} {e : Effect A P}

theorem outcome_failure (code : Nat) (reason : String) :
    Outcome s channel item skip (failure s code item.arg reason : Effect A P) := by
  refine ⟨rfl, fun _ _ _ ↦ rfl, .inr ⟨fun c hc ↦ ?_, fun _ h ↦ h⟩⟩
  obtain rfl := List.mem_singleton.mp hc
  rfl

theorem outcome_addSub (h : s.isAliasMpt channel = false) (honline : s.online channel = true)
    (hallowed : skip = true ∨
      s.policy.checkMountAccess (normalizeAccessGroupUid item.groupUid) channel = none) :
    Outcome s channel item skip (addSub .base channel item channel s : Effect A P) := by
  refine ⟨rfl, fun c key hne ↦ ?_, .inl ⟨channel, .refl, h, honline, ?_, rfl, fun c hc ↦ ?_⟩⟩
  · rw [sub_addSub, if_neg fun hp ↦ hne hp.2.1]
  · exact hallowed.imp_left fun hs ↦ ⟨hs, rfl⟩
  · rw [sub_addSub] at hc
    by_cases hch : c = channel
    · exact .inl hch
    · rw [if_neg fun hp ↦ hch hp.1] at hc
      refine .inr ⟨hc, fun hwalk ↦ ?_⟩
      obtain rfl | ⟨b, hb, -⟩ := ReflTransGen.cases_head hwalk
      · exact hch rfl
      · rw [isAliasMpt_of_nextSource hb] at h
        cases h

theorem outcome_subMount (h : s.isAliasMpt channel = false) :
    Outcome s channel item skip (subMount channel item skip s : Effect A P) := by
  unfold subMount
  dsimp only
  cases skip with
  | true =>
    split
    · exact outcome_failure ..
    · split
      · next honline => exact outcome_addSub h honline (.inl rfl)
      · exact outcome_failure ..
  | false =>
    split
    · exact outcome_failure ..
    · next hallowed =>
      split
      · next honline => exact outcome_addSub h honline (.inr hallowed)
      · exact outcome_failure ..

theorem outcome_of_stop {fuel : Nat} (h : nextSource s channel = none)
    (he : subBaseChannel fuel channel item skip s = some e) : Outcome s channel item skip e := by
  obtain _ | fuel := fuel
  · cases he
  · cases ha : s.isAliasMpt channel with
    | false =>
      rw [subBaseChannel_of_not_alias fuel skip ha] at he
      cases he
      exact outcome_subMount ha
    | true =>
      rw [subBaseChannel, if_pos ha] at he
      obtain _ | fuel := fuel
      · cases he
      · rw [subAliasChannel] at he
        split at he
        · cases he
          exact outcome_failure ..
        · next sources hs =>
          have hfirst : s.firstOnline sources = none := by
            rw [nextSource, hs] at h
            exact h
          rw [hfirst] at he
          cases he
          exact outcome_failure ..

end

/-- The entries under the aliases on the way are dropped. -/
theorem outcome_subBaseChannel {item : CbItem A} (fuel : Nat) : ∀ (channel : String) (skip : Bool)
    (s : Caster A) (e : Effect A P), subBaseChannel fuel channel item skip s = some e →
      Outcome s channel item skip e := by
  apply subBaseChannel_induction
  · intro _ channel skip s e hn he
    exact outcome_of_stop hn he
  · intro channel skip s _
    exact ⟨rfl, fun _ _ _ ↦ rfl, .inr ⟨fun _ hc ↦ absurd hc List.not_mem_nil, fun _ h ↦ h⟩⟩
  · intro channel b skip s e hn _ hout
    have hsub (c key : String) := Caster.sub_dropSub s .base channel c item.connectKey key
    refine ⟨hout.near, fun c key hne ↦ ?_, ?_⟩
    · rw [hout.others c key hne, hsub, if_neg fun hp ↦ hne hp.2]
    · obtain ⟨m, hm⟩ | hr := hout.own
      · refine .inl ⟨m, .head hn hm.walk, hm.notAlias, hm.online, ?_, hm.calls, fun c hc ↦ ?_⟩
        · exact .inr (hm.allowed.resolve_left fun hp ↦ Bool.false_ne_true hp.1)
        · obtain rfl | ⟨hold, hoff⟩ := hm.sub c hc
          · exact .inl rfl
          · rw [hsub] at hold
            split at hold
            · cases hold
            · next hne =>
              refine .inr ⟨hold, fun hwalk ↦ ?_⟩
              obtain rfl | hwalk := reach_of_next hn hwalk
              · exact hne ⟨rfl, rfl⟩
              · exact hoff hwalk
      · refine .inr ⟨hr.calls, fun c hc ↦ ?_⟩
        have hold := hr.sub c hc
        rw [hsub] at hold
        split at hold
        · cases hold
        · exact hold

/-- What a call on behalf of `key` leaves to the other keys. -/
structure Frame (key : String) (s s' : Caster A) : Prop where
  near : ∀ key', key' ≠ key → s'.baseNearSubMap.lookup key' = s.baseNearSubMap.lookup key'
  sub : ∀ key', key' ≠ key → ∀ c, s'.sub .base c key' = s.sub .base c key'

theorem Frame.refl (key : String) (s : Caster A) : Frame key s s := ⟨fun _ _ ↦ rfl, fun _ _ _ ↦ rfl⟩

theorem Outcome.frame {s : Caster A} {channel : String} {item : CbItem A} {skip : Bool}
    {e : Effect A P} (h : Outcome s channel item skip e) : Frame item.connectKey s e.caster :=
  ⟨fun _ _ ↦ by rw [h.near], fun key hne c ↦ h.others c key hne⟩

theorem frame_dropSub (s : Caster A) (channel key : String) :
    Frame key s (s.dropSub .base channel key) := by
  refine ⟨fun _ _ ↦ rfl, fun key' hne c ↦ ?_⟩
  rw [Caster.sub_dropSub, if_neg fun hp ↦ hne hp.2]

theorem frame_unsubNearChannel (key : String) (s : Caster A) :
    Frame key s (unsubNearChannel key s : Effect A P).caster := by
  unfold unsubNearChannel
  split
  · exact ⟨fun _ _ ↦ rfl, fun _ _ _ ↦ rfl⟩
  · next item _ =>
    refine ⟨fun key' hne ↦ ?_, (frame_dropSub s item.channel key).sub⟩
    rw [Table.lookup_erase_if, if_neg hne]

theorem frame_unsub (x : Session A P) (key : String) (s : Caster A) :
    Frame key s (x.unsub key s : Effect A P).caster := by
  unfold Session.unsub
  split
  · exact frame_unsubNearChannel key s
  · unfold unsubBaseChannel
    split
    · exact frame_unsubNearChannel key s
    · unfold unsubChannel
      split
      · exact .refl key s
      · exact frame_dropSub s _ key

theorem frame_subNearChannel (geo : Geometry P) (channel : String) (item : CbItem A) (pos : P)
    (s : Caster A) : Frame item.connectKey s (subNearChannel geo channel item pos s).caster := by
  unfold subNearChannel
  split
  · exact .refl _ s
  · dsimp only
    have hf : Frame item.connectKey s { s with
        baseNearSubMap := s.baseNearSubMap.insert item.connectKey (nearEntry channel item s) } := by
      refine ⟨fun key hne ↦ ?_, fun _ _ _ ↦ rfl⟩
      rw [Table.lookup_insert_if, if_neg hne]
    split
    · exact hf
    · exact hf

theorem frame_moveNear (geo : Geometry P) (key : String) (gga : Gga) (s : Caster A) :
    Frame key s (moveNear geo key gga s).caster := by
  unfold moveNear
  split
  · exact .refl key s
  · next item _ =>
    split
    · have hf :=
        frame_subNearChannel geo item.channel { item with connectKey := key } (geo.ecef2pos gga)
        { s with nearPosCacheMap := s.nearPosCacheMap.insert key gga }
      exact ⟨hf.near, hf.sub⟩
    · exact .refl key s

structure View (A P : Type) where
  session : Option (Session A P)
  near : Option (CbItem A)
  channels : String → Bool

def view (key : String) (s : State A P) : View A P where
  session := s.sessions.lookup key
  near := s.caster.baseNearSubMap.lookup key
  channels c := (s.caster.sub .base c key).isSome

def Home (x : Session A P) (near : Option (CbItem A)) (c : String) : Prop :=
  match x.kind with
  | .near => ∃ item, near = some item ∧ item.channel = c
  | _ => x.unsubscribes = true ∧ x.unsubMpt = c

structure Good (key : String) (v : View A P) : Prop where
  own : ∀ x, v.session = some x → x.item.connectKey = key
  home : ∀ c, v.channels c → ∃ x, v.session = some x ∧ x.ended = false ∧ Home x v.near c
  near : ∀ item, v.near = some item → item.connectKey = key ∧
    ∃ x, v.session = some x ∧ x.ended = false ∧ x.kind = .near ∧ x.registered = true

theorem single_of_good {s : State A P} (h : ∀ key, Good key (view key s)) : Single s := by
  constructor
  · intro key c c' hc hc'
    obtain ⟨x, hx, -, hhome⟩ := (h key).home c hc
    obtain ⟨x', hx', -, hhome'⟩ := (h key).home c' hc'
    cases hx.symm.trans hx'
    unfold Home at hhome hhome'
    cases hk : x.kind with
    | near =>
      rw [hk] at hhome hhome'
      obtain ⟨item, hitem, rfl⟩ := hhome
      obtain ⟨item', hitem', rfl⟩ := hhome'
      cases hitem.symm.trans hitem'
      rfl
    | client => rw [hk] at hhome hhome'; exact hhome.2.symm.trans hhome'.2
    | push => rw [hk] at hhome hhome'; exact hhome.2.symm.trans hhome'.2
  · intro key x hx hended c
    by_contra hne
    obtain ⟨x', hx', hlive, -⟩ := (h key).home c (Option.isSome_iff_ne_none.mpr hne)
    cases hx.symm.trans hx'
    cases hended.symm.trans hlive

def Apart (key : String) (s t : State A P) : Prop := ∀ key', key' ≠ key → view key' t = view key' s

theorem Apart.trans {key : String} {s t u : State A P} (h : Apart key s t) (h' : Apart key t u) :
    Apart key s u := fun key' hne ↦ (h' key' hne).trans (h key' hne)

theorem apart_setSession (key : String) (x : Session A P) (s : State A P) :
    Apart key s (s.setSession key x) := by
  intro key' hne
  unfold view State.setSession
  rw [Table.lookup_insert_if, if_neg hne]

theorem apart_setCaster {key : String} {s : State A P} {caster : Caster A}
    (h : Frame key s.caster caster) : Apart key s (s.setCaster caster) := by
  intro key' hne
  unfold view State.setCaster
  dsimp only
  rw [h.near key' hne]
  simp only [h.sub key' hne]

theorem apart_endSession (key : String) (s : State A P) : Apart key s (endSession key s) := by
  unfold endSession
  split
  · exact fun _ _ ↦ rfl
  · next x _ =>
    split
    · exact fun _ _ ↦ rfl
    · dsimp only
      split
      · exact (apart_setSession key _ s).trans (apart_setCaster (frame_unsub x key _))
      · exact apart_setSession key _ s

theorem apart_answer (key : String) (s : State A P) (c : Call A) :
    Apart key s (answer key s c) := by
  unfold answer
  split
  · exact fun _ _ ↦ rfl
  · split
    · exact apart_setSession key _ s
    · exact apart_endSession key s
    · exact fun _ _ ↦ rfl

theorem apart_answers (key : String) (calls : List (Call A)) : ∀ s : State A P,
    Apart key s (calls.foldl (answer key) s) := by
  induction calls with
  | nil => exact fun _ _ _ ↦ rfl
  | cons c calls ih => exact fun s ↦ (apart_answer key s c).trans (ih _)

theorem apart_deliver {key : String} {s : State A P} {e : Effect A P}
    (h : Frame key s.caster e.caster) :
    Apart key s (deliver key s e).1 := (apart_setCaster h).trans (apart_answers key e.calls _)

structure Cleared (key : String) (s : Caster A) : Prop where
  near : s.baseNearSubMap.lookup key = none
  sub : ∀ c, s.sub .base c key = none

theorem dropSub_eq_none {s : Caster A} {key channel : String}
    (h : ∀ c, (s.sub .base c key).isSome → channel = c) (c : String) :
    (s.dropSub .base channel key).sub .base c key = none := by
  rw [Caster.sub_dropSub]
  split
  · rfl
  · next hne =>
    by_contra hsome
    exact hne ⟨(h c (Option.isSome_iff_ne_none.mpr hsome)).symm, rfl⟩

theorem cleared_unsubNearChannel {key : String} {s : Caster A}
    (h : ∀ c, (s.sub .base c key).isSome →
      ∃ item, s.baseNearSubMap.lookup key = some item ∧ item.channel = c) :
    Cleared key (unsubNearChannel key s : Effect A P).caster := by
  unfold unsubNearChannel
  cases hn : s.baseNearSubMap.lookup key with
  | none =>
    refine ⟨hn, fun c ↦ ?_⟩
    by_contra hsome
    obtain ⟨item, hitem, -⟩ := h c (Option.isSome_iff_ne_none.mpr hsome)
    cases hn.symm.trans hitem
  | some item =>
    refine ⟨AList.lookup_erase key _, dropSub_eq_none fun c hc ↦ ?_⟩
    obtain ⟨item', hitem', hc⟩ := h c hc
    cases hn.symm.trans hitem'
    exact hc

theorem cleared_unsubBaseChannel {key channel : String} {s : Caster A}
    (hn : s.baseNearSubMap.lookup key = none) (h : ∀ c, (s.sub .base c key).isSome → channel = c) :
    Cleared key (unsubBaseChannel channel key s : Effect A P).caster := by
  unfold unsubBaseChannel
  rw [hn]
  dsimp only
  unfold unsubChannel
  split
  · next hnone =>
    refine ⟨hn, fun c ↦ ?_⟩
    by_contra hsome
    obtain rfl := h c (Option.isSome_iff_ne_none.mpr hsome)
    exact hsome hnone
  · exact ⟨hn, dropSub_eq_none h⟩

section

variable {key : String} {s : State A P} {x : Session A P}

theorem good_of_cleared (hc : Cleared key s.caster)
    (hown : ∀ x, s.sessions.lookup key = some x → x.item.connectKey = key) :
    Good key (view key s) := by
  refine ⟨hown, fun c h ↦ ?_, fun item h ↦ ?_⟩
  · change (s.caster.sub .base c key).isSome at h
    rw [hc.sub c] at h
    cases h
  · cases hc.near.symm.trans h

theorem Good.home_eq (h : Good key (view key s)) (hx : s.sessions.lookup key = some x) {c : String}
    (hc : (s.caster.sub .base c key).isSome) :
    Home x (s.caster.baseNearSubMap.lookup key) c := by
  obtain ⟨x', hx', -, hhome⟩ := h.home c hc
  cases hx.symm.trans hx'
  exact hhome

theorem Good.near_none (h : Good key (view key s)) (hx : s.sessions.lookup key = some x)
    (hk : x.kind ≠ .near) : s.caster.baseNearSubMap.lookup key = none := by
  by_contra hne
  obtain ⟨item, hitem⟩ := Option.ne_none_iff_exists'.mp hne
  obtain ⟨-, x', hx', -, hk', -⟩ := h.near item hitem
  cases hx.symm.trans hx'
  exact hk hk'

theorem home_of_ne_near {near : Option (CbItem A)} {c : String} (hk : x.kind ≠ .near)
    (h : Home x near c) : x.unsubscribes = true ∧ x.unsubMpt = c := by
  unfold Home at h
  cases hkind : x.kind with
  | near => exact absurd hkind hk
  | client => rw [hkind] at h; exact h
  | push => rw [hkind] at h; exact h

theorem home_of_near {near : Option (CbItem A)} {c : String} (hk : x.kind = .near) :
    Home x near c ↔ ∃ item, near = some item ∧ item.channel = c := by
  unfold Home
  rw [hk]

theorem cleared_unsub (h : Good key (view key s)) (hx : s.sessions.lookup key = some x) :
    Cleared key (x.unsub key s.caster : Effect A P).caster := by
  by_cases hk : x.kind = .near
  · unfold Session.unsub
    rw [hk]
    exact cleared_unsubNearChannel fun c hc ↦ (home_of_near hk).mp (h.home_eq hx hc)
  · have hunsub :
        (x.unsub key s.caster : Effect A P) = unsubBaseChannel x.unsubMpt key s.caster := by
      unfold Session.unsub
      split
      · next hk' => exact absurd hk' hk
      · rfl
    rw [hunsub]
    refine cleared_unsubBaseChannel (h.near_none hx hk) fun c hc ↦ ?_
    exact (home_of_ne_near hk (h.home_eq hx hc)).2

theorem cleared_of_not_unsubscribes (h : Good key (view key s))
    (hx : s.sessions.lookup key = some x) (hu : x.unsubscribes = false) : Cleared key s.caster := by
  have hnear : s.caster.baseNearSubMap.lookup key = none := by
    by_contra hne
    obtain ⟨item, hitem⟩ := Option.ne_none_iff_exists'.mp hne
    obtain ⟨-, x', hx', -, hk', hr⟩ := h.near item hitem
    cases hx.symm.trans hx'
    unfold Session.unsubscribes at hu
    rw [hk'] at hu
    cases hr.symm.trans hu
  refine ⟨hnear, fun c ↦ ?_⟩
  by_contra hne
  have hhome := h.home_eq hx (Option.isSome_iff_ne_none.mpr hne)
  by_cases hk : x.kind = .near
  · obtain ⟨item, hitem, -⟩ := (home_of_near hk).mp hhome
    cases hnear.symm.trans hitem
  · cases hu.symm.trans (home_of_ne_near hk hhome).1

theorem good_endSession (h : Good key (view key s)) : Good key (view key (endSession key s)) := by
  unfold endSession
  cases hx : s.sessions.lookup key with
  | none => exact h
  | some x =>
    dsimp only
    split
    · exact h
    · have hown : ∀ x', (s.sessions.insert key { x with ended := true }).lookup key = some x' →
          x'.item.connectKey = key := by
        intro x' hx'
        rw [AList.lookup_insert] at hx'
        cases hx'
        exact h.own x hx
      split
      · exact good_of_cleared (s := (s.setSession key { x with ended := true }).setCaster
          (x.unsub key s.caster : Effect A P).caster) (cleared_unsub h hx) hown
      · next hu =>
        have hclear := cleared_of_not_unsubscribes h hx (Bool.eq_false_of_not_eq_true hu)
        exact good_of_cleared (s := s.setSession key { x with ended := true }) hclear hown

theorem good_answers_err (calls : List (Call A)) (hcalls : ∀ c ∈ calls, c.reply = .err) :
    ∀ s : State A P, Good key (view key s) → Good key (view key (calls.foldl (answer key) s)) := by
  induction calls with
  | nil => exact fun _ h ↦ h
  | cons c calls ih =>
    intro s h
    refine ih (fun c' hc' ↦ hcalls c' (List.mem_cons_of_mem c hc')) _ ?_
    unfold answer
    split
    · exact h
    · rw [hcalls c (List.mem_cons_self ..)]
      exact good_endSession h

theorem frame_subscribe {geo : Geometry P} {x : Session A P} {c : Caster A} {e : Effect A P}
    (hlive : x.ended = false) (h : subscribe geo x c = some e) :
    Frame x.item.connectKey c e.caster := by
  have hkey : x.subItem.connectKey = x.item.connectKey := by
    unfold Session.subItem
    split
    · rw [hlive]
      rfl
    · rfl
  unfold subscribe at h
  split at h
  · cases h
    exact frame_subNearChannel ..
  · rw [← hkey]
    exact (outcome_subBaseChannel _ _ _ _ _ h).frame

theorem good_setSession {y : Session A P} (h : Good key (view key s))
    (hx : s.sessions.lookup key = some x) (hitem : y.item = x.item) (hended : y.ended = x.ended)
    (hhome : ∀ near c, Home x near c → Home y near c)
    (hnear : x.kind = .near → x.registered = true → y.kind = .near ∧ y.registered = true) :
    Good key (view key (s.setSession key y)) := by
  have hy : (view key (s.setSession key y)).session = some y := AList.lookup_insert _
  refine ⟨fun y' hy' ↦ ?_, fun c hc ↦ ?_, fun item hentry ↦ ?_⟩
  · cases hy.symm.trans hy'
    rw [hitem]
    exact h.own x hx
  · obtain ⟨x', hx', hlive, hhome'⟩ := h.home c hc
    cases hx.symm.trans hx'
    exact ⟨y, hy, hended.trans hlive, hhome _ c hhome'⟩
  · obtain ⟨hkey, x', hx', hlive, hk, hr⟩ := h.near item hentry
    cases hx.symm.trans hx'
    exact ⟨hkey, y, hy, hended.trans hlive, hnear hk hr⟩

theorem good_setRegistered (h : Good key (view key s)) (hx : s.sessions.lookup key = some x) :
    Good key (view key (s.setSession key { x with registered := true })) := by
  refine good_setSession h hx rfl rfl (fun near c hhome ↦ ?_) fun hk _ ↦ ⟨hk, rfl⟩
  have hmpt : ({ x with registered := true } : Session A P).unsubMpt = x.unsubMpt := rfl
  unfold Home Session.unsubscribes at hhome ⊢
  rw [hmpt]
  dsimp only
  cases hk : x.kind with
  | near => rw [hk] at hhome; exact hhome
  | client => rw [hk] at hhome; exact ⟨rfl, hhome.2⟩
  | push => rw [hk] at hhome; exact hhome

theorem good_accept_near (m : String) (h : Good key (view key s))
    (hx : s.sessions.lookup key = some x)
    (hk : x.kind = .near) : Good key (view key (s.setSession key (x.accept m))) := by
  have haccept : x.accept m = { x with aliasMpt := m } := by
    unfold Session.accept
    rw [hk]
  rw [haccept]
  refine good_setSession h hx rfl rfl (fun near c hhome ↦ ?_) fun _ hr ↦ ⟨hk, hr⟩
  have hk' : ({ x with aliasMpt := m } : Session A P).kind = .near := hk
  exact (home_of_near hk').mpr ((home_of_near hk).mp hhome)

theorem good_shrink {caster : Caster A} (h : Good key (view key s))
    (hn : caster.baseNearSubMap.lookup key = s.caster.baseNearSubMap.lookup key)
    (hs : ∀ c, (caster.sub .base c key).isSome → (s.caster.sub .base c key).isSome) :
    Good key (view key (s.setCaster caster)) := by
  refine ⟨h.own, fun c hc ↦ ?_, fun item hitem ↦ h.near item (hn.symm.trans hitem)⟩
  obtain ⟨x, hx, hlive, hhome⟩ := h.home c (hs c hc)
  refine ⟨x, hx, hlive, ?_⟩
  change Home x (caster.baseNearSubMap.lookup key) c
  rw [hn]
  exact hhome

theorem answer_ok (hx : s.sessions.lookup key = some x) (arg : A) (m : String) :
    answer key s ⟨arg, .ok, m⟩ = s.setSession key (x.accept m) := by
  unfold answer
  rw [hx]

theorem good_answer_near (arg : A) (m : String) (h : Good key (view key s))
    (hx : s.sessions.lookup key = some x) (hk : x.kind = .near) :
    Good key (view key (answer key s ⟨arg, .ok, m⟩)) := by
  rw [answer_ok hx]
  exact good_accept_near m h hx hk

theorem good_attached {caster : Caster A} {m : String} (hx : x.item.connectKey = key)
    (hlive : x.ended = false) (hk : x.kind ≠ .near) (hn : caster.baseNearSubMap.lookup key = none)
    (hc : ∀ c, (caster.sub .base c key).isSome → c = m) (hu : x.unsubscribes = true)
    (hm : x.unsubMpt = m) : Good key (view key ((s.setSession key x).setCaster caster)) := by
  refine ⟨fun x' hx' ↦ ?_, fun c hsub ↦ ⟨x, AList.lookup_insert _, hlive, ?_⟩, fun item hitem ↦ ?_⟩
  · change (s.sessions.insert key x).lookup key = some x' at hx'
    rw [AList.lookup_insert] at hx'
    cases hx'
    exact hx
  · have hhome : x.unsubscribes = true ∧ x.unsubMpt = c := ⟨hu, hm.trans (hc c hsub).symm⟩
    unfold Home
    cases hkind : x.kind with
    | near => exact absurd hkind hk
    | client => exact hhome
    | push => exact hhome
  · cases hn.symm.trans hitem

theorem good_subscribed {fuel : Nat} {e : Effect A P} (h : Good key (view key s))
    (hx : s.sessions.lookup key = some x) (hlive : x.ended = false) (hk : x.kind ≠ .near)
    (hkey : x.subItem.connectKey = key)
    (he : subBaseChannel fuel x.item.channel x.subItem false s.caster = some e)
    (hm : ∀ m, Target s.caster x.item.channel x.subItem.groupUid m →
      ({ x with registered := true }.accept m).unsubMpt = m ∧
        ∀ c, (s.caster.sub .base c key).isSome → OnWalk s.caster x.item.channel c) :
    Good key (view key (deliver key (s.setSession key { x with registered := true }) e).1) := by
  have hout := outcome_subBaseChannel _ _ _ _ _ he
  unfold deliver
  obtain ⟨m, hatt⟩ | href := hout.own
  · have htarget : Target s.caster x.item.channel x.subItem.groupUid m :=
      ⟨hatt.walk, hatt.notAlias, hatt.online,
        hatt.allowed.resolve_left fun hp ↦ Bool.false_ne_true hp.1⟩
    obtain ⟨hmpt, hwalk⟩ := hm m htarget
    rw [hatt.calls, List.foldl_cons, List.foldl_nil, answer_ok (AList.lookup_insert _)]
    refine good_attached (s := s.setSession key { x with registered := true }) ?_ ?_ ?_ ?_
      (fun c hc ↦ ?_)
      ?_ hmpt
    · unfold Session.accept
      split <;> exact h.own x hx
    · unfold Session.accept
      split <;> exact hlive
    · unfold Session.accept
      split <;> exact hk
    · change e.caster.baseNearSubMap.lookup key = none
      rw [hout.near]
      exact h.near_none hx hk
    · obtain rfl | ⟨hold, hoff⟩ := hatt.sub c (hkey ▸ hc)
      · rfl
      · exact absurd (hwalk c (hkey ▸ hold)) hoff
    · unfold Session.accept Session.unsubscribes
      cases hkind : x.kind with
      | near => exact absurd hkind hk
      | client => rfl
      | push => rfl
  · refine good_answers_err e.calls href.calls _ ?_
    refine good_shrink (good_setRegistered h hx) ?_ fun c hc ↦ ?_
    · rw [hout.near]
      rfl
    · have hold := href.sub c (hkey ▸ hc)
      rwa [hkey] at hold

theorem good_subNear (geo : Geometry P) (channel : String) {item : CbItem A} (pos : P)
    (h : Good key (view key s)) (hx : s.sessions.lookup key = some x) (hlive : x.ended = false)
    (hk : x.kind = .near) (hr : x.registered = true) (hkey : item.connectKey = key) :
    Good key (view key (deliver key s (subNearChannel geo channel item pos s.caster)).1) := by
  unfold deliver subNearChannel
  split
  · refine good_answers_err _ (fun c hc ↦ ?_) _ h
    obtain rfl := List.mem_singleton.mp hc
    rfl
  · have hentry : (s.caster.baseNearSubMap.insert item.connectKey
        (nearEntry channel item s.caster)).lookup key = some (nearEntry channel item s.caster) := by
      rw [hkey, AList.lookup_insert]
    have hgood : Good key (view key (s.setCaster { s.caster with
        baseNearSubMap := s.caster.baseNearSubMap.insert item.connectKey
          (nearEntry channel item s.caster) })) := by
      refine ⟨h.own, fun c hc ↦ ⟨x, hx, hlive, (home_of_near hk).mpr ⟨_, hentry, ?_⟩⟩,
        fun item' hitem' ↦ ?_⟩
      · obtain ⟨old, hold, hch⟩ := (home_of_near hk).mp (h.home_eq hx hc)
        unfold nearEntry
        rw [hkey, hold]
        exact hch
      · cases hentry.symm.trans hitem'
        refine ⟨?_, x, hx, hlive, hk, hr⟩
        unfold nearEntry
        split
        · exact hkey
        · next old hold => exact (h.near old (hkey ▸ hold)).1
    dsimp only
    split
    · exact good_answer_near item.arg channel hgood hx hk
    · exact hgood

theorem good_moved {fuel : Nat} {field : String} {near : CbItem A} {e : Effect A P}
    (h : Good key (view key s)) (hnear : s.caster.baseNearSubMap.lookup key = some near)
    (he : subBaseChannel fuel field { near with channel := field } true
      { s.caster.dropSub .base near.channel near.connectKey with
        baseNearSubMap :=
          s.caster.baseNearSubMap.insert key { near with channel := field } } = some e)
    (hm : ∀ m, Target s.caster field near.groupUid m → m = field) :
    Good key (view key (deliver key s e).1) := by
  obtain ⟨hkey, x, hx, hlive, hk, hr⟩ := h.near near hnear
  have hout := outcome_subBaseChannel _ _ _ _ _ he
  have hnear' : e.caster.baseNearSubMap.lookup key = some { near with channel := field } := by
    rw [hout.near]
    exact AList.lookup_insert _
  have hdrop (c : String) :
      (s.caster.dropSub .base near.channel near.connectKey).sub .base c key = none := by
    rw [hkey]
    refine dropSub_eq_none (fun c hc ↦ ?_) c
    obtain ⟨item, hitem, hch⟩ := (home_of_near hk).mp (h.home_eq hx hc)
    cases hnear.symm.trans hitem
    exact hch
  have hgood (hc : ∀ c, (e.caster.sub .base c key).isSome → c = field) :
      Good key (view key (s.setCaster e.caster)) := by
    refine ⟨h.own, fun c hsub ↦ ⟨x, hx, hlive, (home_of_near hk).mpr ⟨_, hnear', (hc c hsub).symm⟩⟩,
      ?_⟩
    rintro item hitem
    cases hnear'.symm.trans hitem
    exact ⟨hkey, x, hx, hlive, hk, hr⟩
  unfold deliver
  obtain ⟨m, hatt⟩ | href := hout.own
  · have hfield : m = field := by
      obtain ⟨-, hm'⟩ | hallowed := hatt.allowed
      · exact hm'
      · exact hm m ⟨hatt.walk, hatt.notAlias, hatt.online, hallowed⟩
    rw [hatt.calls]
    refine good_answer_near near.arg m (hgood fun c hc ↦ ?_) hx hk
    obtain rfl | ⟨hold, -⟩ := hatt.sub c (hkey.symm ▸ hc)
    · exact hfield
    · have hnone := hdrop c
      rw [← hkey] at hnone
      exact absurd hnone (Option.isSome_iff_ne_none.mp hold)
  · refine good_answers_err e.calls href.calls _ (hgood fun c hc ↦ ?_)
    have hold := href.sub c (hkey.symm ▸ hc)
    have hnone := hdrop c
    rw [← hkey] at hnone
    exact absurd hnone (Option.isSome_iff_ne_none.mp hold)

end

theorem good_all {key : String} {s t : State A P} (h : ∀ k, Good k (view k s)) (ha : Apart key s t)
    (hk : Good key (view key t)) (k : String) : Good k (view k t) := by
  by_cases hkk : k = key
  · rw [hkk]
    exact hk
  · rw [ha k hkk]
    exact h k

theorem good_reply {fuel : Nat} {key : String} {r : Option (List String)} {s : State A P}
    {e : Effect A P} (h : ∀ k, Good k (view k s)) (hok : Settled s (.reply key r))
    (he : redisGeoRadiusCallback fuel key r s.caster = some e) (k : String) :
    Good k (view k (deliver key s e).1) := by
  unfold redisGeoRadiusCallback at he
  cases hnear : s.caster.baseNearSubMap.lookup key with
  | none =>
    rw [hnear] at he
    cases he
    exact h k
  | some near =>
    rw [hnear] at he
    cases r with
    | none =>
      cases he
      exact h k
    | some fields =>
      dsimp only at he
      split at he
      · cases he
        refine good_all h (apart_deliver (.refl key s.caster))
          (good_answers_err _ (fun c hc ↦ ?_) _ (h key)) k
        obtain rfl := List.mem_singleton.mp hc
        rfl
      · next field hfield =>
        split at he
        · cases he
          exact h k
        · next hne =>
          obtain ⟨e', he', rfl⟩ := Option.map_eq_some_iff.mp he
          have hm := hok near field hnear hfield hne
          refine good_all h (apart_deliver ?_) (good_moved (h key) hnear he' hm) k
          have hkey := ((h key).near near hnear).1
          have hframe := (outcome_subBaseChannel _ _ _ _ _ he').frame
          refine ⟨fun key' hne' ↦ ?_, fun key' hne' c ↦ ?_⟩
          · rw [hframe.near key' (hkey.symm ▸ hne'), Table.lookup_insert_if, if_neg hne']
          · exact (hframe.sub key' (hkey.symm ▸ hne') c).trans
              ((frame_dropSub s.caster near.channel near.connectKey).sub key' (hkey.symm ▸ hne') c)

theorem good_registered {geo : Geometry P} {key : String} {s : State A P} {x : Session A P}
    {e : Effect A P} (h : ∀ k, Good k (view k s)) (hok : Settled s (.registered key))
    (hx : s.sessions.lookup key = some x) (he : subscribe geo x s.caster = some e) (k : String) :
    Good k (view k (deliver key (s.setSession key { x with registered := true }) e).1) := by
  obtain ⟨hlive, hm⟩ := hok x hx
  have hown := (h key).own x hx
  have hframe : Frame key s.caster e.caster := hown ▸ frame_subscribe hlive he
  refine good_all h ((apart_setSession key _ s).trans (apart_deliver hframe)) ?_ k
  unfold subscribe at he
  obtain hk | hk | hk := x.kind.eq_near_or
  · rw [hk] at he
    cases he
    exact good_subNear geo x.item.channel x.pos (good_setRegistered (h key) hx)
      (AList.lookup_insert _)
      hlive hk rfl hown
  · rw [hk] at he hm
    have hitem : x.subItem = x.item := by
      unfold Session.subItem
      rw [hk]
    refine good_subscribed (h key) hx hlive (by rw [hk]; exact Kind.noConfusion) (hitem ▸ hown) he
      fun m ht ↦ ?_
    obtain ⟨hname, hwalk⟩ := hm m (hitem ▸ ht)
    refine ⟨?_, hwalk⟩
    unfold Session.accept Session.unsubMpt
    rw [hk]
    dsimp only
    split
    · next hempty => rw [hempty, hname hempty]
    · rfl
  · rw [hk] at he hm
    have hitem : x.subItem = { x.item with groupUid := "SYSTEM" } := by
      unfold Session.subItem
      rw [hk, hlive]
      rfl
    have hkey : x.subItem.connectKey = key := by
      rw [hitem]
      exact hown
    refine good_subscribed (h key) hx hlive (by rw [hk]; exact Kind.noConfusion) hkey he fun m ht ↦
      ?_
    have hmount : m = x.item.channel := hm m (by rw [hitem] at ht; exact ht)
    constructor
    · unfold Session.accept Session.unsubMpt
      rw [hk]
      exact hmount.symm
    · intro c hc
      have hhome := home_of_ne_near (by rw [hk]; exact Kind.noConfusion) ((h key).home_eq hx hc)
      have hmpt : x.unsubMpt = x.item.channel := by
        unfold Session.unsubMpt
        rw [hk]
      rw [← hhome.2, hmpt]

theorem good_step {geo : Geometry P} {s t : State A P} {a : Action A P} {calls : List (Call A)}
    (h : ∀ k, Good k (view k s)) (hok : Settled s a) (hst : step geo s a = some (t, calls))
    (k : String) :
    Good k (view k t) := by
  cases a with
  | start key kind item pos =>
    rw [step] at hst
    split at hst
    · cases hst
    · next hfree =>
      cases hst
      refine good_all h (apart_setSession key _ s) ?_ k
      have hclear : Cleared key s.caster := by
        have hlive : ∀ x, s.sessions.lookup key = some x → x.ended = true := by
          intro x hx
          by_contra hne
          refine hfree (.inr ?_)
          rw [hx]
          exact Bool.not_eq_true' _ ▸ Bool.eq_false_of_not_eq_true hne
        constructor
        · by_contra hne
          obtain ⟨near, hnear⟩ := Option.ne_none_iff_exists'.mp hne
          obtain ⟨-, x, hx, hx', -⟩ := (h key).near near hnear
          cases (hlive x hx).symm.trans hx'
        · intro c
          by_contra hne
          obtain ⟨x, hx, hx', -⟩ := (h key).home c (Option.isSome_iff_ne_none.mpr hne)
          cases (hlive x hx).symm.trans hx'
      refine good_of_cleared hclear fun x hx ↦ ?_
      change (s.sessions.insert key _).lookup key = some x at hx
      rw [AList.lookup_insert] at hx
      cases hx
      rfl
  | registered key =>
    rw [step] at hst
    split at hst
    · cases hst
    · next x hx =>
      obtain ⟨e, he, heq⟩ := Option.map_eq_some_iff.mp hst
      have hgood := good_registered h hok hx he k
      rw [heq] at hgood
      exact hgood
  | position key gga =>
    cases hst
    refine good_all h (apart_deliver (frame_moveNear ..)) ?_ k
    unfold moveNear
    split
    · exact h key
    · next near hnear =>
      split
      · obtain ⟨-, x, hx, hlive, hk, hr⟩ := (h key).near near hnear
        exact good_subNear (s := s.setCaster { s.caster with
          nearPosCacheMap := s.caster.nearPosCacheMap.insert key gga }) geo near.channel _
          ⟨(h key).own, (h key).home, (h key).near⟩ hx hlive hk hr rfl
      · exact h key
  | reply key r =>
    obtain ⟨e, he, heq⟩ := Option.map_eq_some_iff.mp hst
    have hgood := good_reply h hok he k
    rw [heq] at hgood
    exact hgood
  | stop key =>
    cases hst
    exact good_all h (apart_endSession key s) (good_endSession (h key)) k
  | online mounts => cases hst; exact ⟨(h k).own, (h k).home, (h k).near⟩
  | aliases rules => cases hst; exact ⟨(h k).own, (h k).home, (h k).near⟩
  | policy p => cases hst; exact ⟨(h k).own, (h k).home, (h k).near⟩

theorem good_init (k : String) : Good k (view k ({} : State A P)) := by
  refine ⟨fun _ hx ↦ ?_, fun _ hc ↦ ?_, fun _ hn ↦ ?_⟩
  · cases hx
  · cases hc
  · cases hn

/-- In a run whose steps all meet the condition each key is attached to one channel at most, and to
none once its session has ended. -/
theorem single_of_settled (geo : Geometry P) {s : State A P}
    (h : (attachmentMachine geo).Reach Settled {} s) : Single s :=
  single_of_good (h.invariant good_init fun _ _ _ _ hi hok hst ↦ good_step hi hok hst)


def flat : Geometry Unit := ⟨fun _ ↦ (), fun _ ↦ true, fun _ _ ↦ true⟩

def login : List (Action Unit Unit) :=
  [.online ["M"], .start "k" .client ⟨"k", "M", "u", "", ()⟩ (), .registered "k"]

theorem meets_login : (attachmentMachine flat).Meets Settled {} login := by
  refine ⟨trivial, trivial, fun x hx ↦ ?_, trivial⟩
  cases hx
  refine ⟨rfl, fun m ht ↦ ⟨fun hm ↦ ?_, fun c hc ↦ by cases hc⟩⟩
  obtain rfl | ⟨b, hb, -⟩ := ReflTransGen.cases_head ht.walk
  · exact hm
  · cases hb

theorem single_login :
    ∃ s : State Unit Unit, (s.caster.sub .base "M" "k").isSome = true ∧ Single s := by
  obtain ⟨s, hs, hsub⟩ :=
    Machine.exists_reach (M := attachmentMachine flat) (p := Settled) (s := {})
    (l := login) (fun s ↦ (s.caster.sub .base "M" "k").isSome) (v := true) meets_login (by rfl)
  exact ⟨s, hsub, single_of_settled flat hs⟩

def relayed : List (Action Unit Unit) :=
  [.online ["S"], .aliases (AList.singleton "A" ["S"]),
    .start "k" .push ⟨"k", "A", "SYSTEM", "SYSTEM", ()⟩ (), .registered "k", .stop "k"]

theorem not_single_relayed :
    ¬ ∀ (geo : Geometry Unit) (s : State Unit Unit), (attachmentMachine geo).Reachable {} s →
      Single s := by
  intro h
  obtain ⟨s, hs, hv⟩ := Machine.exists_reach (M := attachmentMachine flat) (p := fun _ _ ↦ True)
    (s := {}) (l := relayed)
    (fun s ↦ ((s.sessions.lookup "k").map Session.ended, (s.caster.sub .base "S" "k").isSome))
    (v := (some true, true)) (Machine.meets_of_forall (fun _ _ _ ↦ trivial) _) (by rfl)
  obtain ⟨hended, hsub⟩ := Prod.mk.injEq .. ▸ hv
  obtain ⟨x, hx, hx'⟩ := Option.map_eq_some_iff.mp hended
  rw [(h flat s hs).ended "k" x hx hx' "S"] at hsub
  cases hsub

end NavCaster.Core.Attachments
