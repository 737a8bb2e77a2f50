import NavCaster.Core.Subscription

namespace NavCaster.Core.Nearby

open NavCaster.Library
open NavCaster.Core.Message
open NavCaster.Core.Access
open NavCaster.Core.Connections
open NavCaster.Core.Subscription

variable {A P : Type}

/-- Where the rules of the aliases lead: to a mount, to an alias none of whose sources is online, or
to one whose first source online is the alias itself. -/
inductive Resolution
  | mount (m : String) | useless | itself
  deriving DecidableEq

/-- `none` where the aliases lead round for ever. -/
def resolve (s : Caster A) : Nat → String → Option Resolution
  | 0, _ => none
  | n + 1, channel =>
    match s.aliasRuleMap.lookup channel with
    | none => some (.mount channel)
    | some sources =>
      match s.firstOnline sources with
      | none => some .useless
      | some aliasMpt => if channel = aliasMpt then some .itself else resolve s n aliasMpt

/-- What comes of the subscription of a channel. -/
inductive Verdict
  | attach (m : String) | refuse | nothing | endless
  deriving DecidableEq

def verdict (s : Caster A) (n : Nat) (groupUid channel : String) (skipAccessCheck : Bool) :
    Verdict :=
  match resolve s n channel with
  | none => .endless
  | some .useless => .refuse
  | some .itself => .nothing
  | some (.mount m) =>
    if (skipAccessCheck = true ∧ m = channel) ∨
        s.policy.checkMountAccess (normalizeAccessGroupUid groupUid) m = none then .attach m
    else .refuse

def Attaches (e : Effect A P) (key m : String) : Prop := .hsetexSub .base m key ∈ e.commands

def Refuses (e : Effect A P) (arg : A) : Prop := ∃ c ∈ e.calls, c.reply = .err ∧ c.arg = arg

structure Shows (s : Caster A) (item : CbItem A) (v : Verdict) (e : Effect A P) : Prop where
  attaches : ∀ m, Attaches e item.connectKey m ↔ v = .attach m
  refuses : Refuses e item.arg ↔ v = .refuse
  stays : ∀ m, v ≠ .attach m → (e.caster.sub .base m item.connectKey).isSome →
    (s.sub .base m item.connectKey).isSome

theorem shows_failure (s : Caster A) (item : CbItem A) (code : Nat) (reason : String) :
    Shows s item .refuse (failure s code item.arg reason : Effect A P) where
  attaches m := iff_of_false (fun h ↦ by cases h) nofun
  refuses := iff_of_true ⟨_, List.mem_singleton_self _, rfl, rfl⟩ rfl
  stays _ _ h := h

theorem shows_addSub (s : Caster A) (item : CbItem A) (channel : String) :
    Shows s item (.attach channel) (addSub .base channel item channel s : Effect A P) where
  attaches m := by
    unfold Attaches addSub
    rw [Verdict.attach.injEq, List.mem_append]
    constructor
    · rintro (h | h)
      · split at h
        · cases h
        · simp at h
      · cases List.mem_singleton.mp h
        rfl
    · rintro rfl
      exact .inr (List.mem_singleton_self _)
  refuses := by
    refine iff_of_false ?_ nofun
    rintro ⟨c, hc, hr, -⟩
    cases List.mem_singleton.mp hc
    cases hr
  stays m hm h := by
    rw [sub_addSub, if_neg fun he ↦ hm (congrArg _ he.1.symm)] at h
    exact h

theorem shows_nothing (s : Caster A) (item : CbItem A) :
    Shows s item .nothing ({ code := 0, caster := s } : Effect A P) where
  attaches m := iff_of_false (fun h ↦ by cases h) nofun
  refuses := iff_of_false (fun ⟨_, h, _⟩ ↦ by cases h) nofun
  stays _ _ h := h

theorem Shows.of_dropSub {s : Caster A} {item : CbItem A} {v : Verdict} {e : Effect A P}
    {channel key : String} (h : Shows (s.dropSub .base channel key) item v e) :
    Shows s item v e := by
  refine ⟨h.attaches, h.refuses, fun m hm hs ↦ ?_⟩
  have hd := h.stays m hm hs
  rw [Caster.sub_dropSub] at hd
  split at hd
  · cases hd
  · exact hd

theorem lookup_of_resolve {s : Caster A} {n : Nat} {channel m : String}
    (h : resolve s n channel = some (.mount m)) : s.aliasRuleMap.lookup m = none := by
  induction n generalizing channel with
  | zero => cases h
  | succ n ih =>
    rw [resolve] at h
    split at h
    · next hnone => cases h; exact hnone
    · split at h
      · cases h
      · split at h
        · cases h
        · exact ih h

theorem resolve_congr {s s' : Caster A} (ha : s'.aliasRuleMap = s.aliasRuleMap)
    (ho : s'.activeMountMap = s.activeMountMap) (n : Nat) (channel : String) :
    resolve s' n channel = resolve s n channel := by
  induction n generalizing channel with
  | zero => rfl
  | succ n ih =>
    have hfirst (sources : List String) : s'.firstOnline sources = s.firstOnline sources := by
      unfold Caster.firstOnline Caster.online
      rw [ho]
    rw [resolve, resolve, ha]
    cases s.aliasRuleMap.lookup channel with
    | none => rfl
    | some sources =>
      dsimp only
      rw [hfirst]
      cases s.firstOnline sources with
      | none => rfl
      | some aliasMpt => simp only [ih]

theorem verdict_congr {s s' : Caster A} (ha : s'.aliasRuleMap = s.aliasRuleMap)
    (ho : s'.activeMountMap = s.activeMountMap) (hp : s'.policy = s.policy) (n : Nat)
    (groupUid channel : String) (skip : Bool) :
    verdict s' n groupUid channel skip = verdict s n groupUid channel skip := by
  unfold verdict
  rw [resolve_congr ha ho, hp]

theorem verdict_alias {s : Caster A} {channel aliasMpt : String} {sources : List String}
    (hl : s.aliasRuleMap.lookup channel = some sources) (hf : s.firstOnline sources = some aliasMpt)
    (hne : channel ≠ aliasMpt) (n : Nat) (groupUid : String) (skip : Bool) :
    verdict s (n + 1) groupUid channel skip = verdict s n groupUid aliasMpt false := by
  have hres : resolve s (n + 1) channel = resolve s n aliasMpt := by
    rw [resolve, hl]
    dsimp only
    rw [hf]
    exact if_neg hne
  unfold verdict
  rw [hres]
  cases hr : resolve s n aliasMpt with
  | none => rfl
  | some r =>
    cases r with
    | useless => rfl
    | itself => rfl
    | mount m =>
      have hm : m ≠ channel := by
        rintro rfl
        rw [lookup_of_resolve hr] at hl
        cases hl
      simp [hm]

def Settles (s : Caster A) (item : CbItem A) (v : Verdict) : Option (Effect A P) → Prop
  | none => v = .endless
  | some e => v ≠ .endless ∧ Shows s item v e

theorem settles_subMount {s : Caster A} {channel : String} (item : CbItem A) (skip : Bool) (n : Nat)
    (hl : s.aliasRuleMap.lookup channel = none) (ho : s.online channel = true) :
    Settles s item (verdict s (n + 1) item.groupUid channel skip)
      (some (subMount channel item skip s : Effect A P)) := by
  have hres : resolve s (n + 1) channel = some (.mount channel) := by rw [resolve, hl]
  unfold verdict subMount
  rw [hres, if_pos ho]
  cases skip with
  | true => exact ⟨by simp, by simpa using shows_addSub s item channel⟩
  | false =>
    cases hc : s.policy.checkMountAccess (normalizeAccessGroupUid item.groupUid) channel with
    | none => exact ⟨by simp [hc], by simpa [hc] using shows_addSub s item channel⟩
    | some reason => exact ⟨by simp [hc], by simpa [hc] using shows_failure s item 1 reason⟩

theorem settles_subBaseChannel (n : Nat) (item : CbItem A) (channel : String) (skip : Bool)
    (s : Caster A) (ho : s.online channel = true) :
    Settles s item (verdict s n item.groupUid channel skip)
      (subBaseChannel (2 * n) channel item skip s : Option (Effect A P)) := by
  induction n generalizing channel skip s with
  | zero => exact rfl
  | succ n ih =>
    change Settles s item _ (subBaseChannel (2 * n + 1 + 1) channel item skip s)
    cases hl : s.aliasRuleMap.lookup channel with
    | none =>
      rw [subBaseChannel_of_not_alias _ _ (by rw [Caster.isAliasMpt, hl]; rfl)]
      exact settles_subMount item skip n hl ho
    | some sources =>
      have halias : s.isAliasMpt channel = true := by rw [Caster.isAliasMpt, hl]; rfl
      rw [subBaseChannel, if_pos halias, subAliasChannel, hl]
      dsimp only
      cases hf : s.firstOnline sources with
      | none =>
        have hv : verdict s (n + 1) item.groupUid channel skip = .refuse := by
          rw [verdict, resolve, hl]
          dsimp only
          rw [hf]
        rw [hv]
        exact ⟨fun h ↦ absurd h (by simp), shows_failure ..⟩
      | some aliasMpt =>
        dsimp only
        split
        · next he =>
          have hv : verdict s (n + 1) item.groupUid channel skip = .nothing := by
            rw [verdict, resolve, hl]
            dsimp only
            rw [hf]
            dsimp only
            rw [if_pos he]
          rw [hv]
          exact ⟨fun h ↦ absurd h (by simp), shows_nothing ..⟩
        · next hne =>
          have h := ih aliasMpt false (s.dropSub .base channel item.connectKey) (List.find?_some hf)
          have hv :
              verdict (s.dropSub .base channel item.connectKey) n item.groupUid aliasMpt false =
              verdict s n item.groupUid aliasMpt false :=
            verdict_congr (by rfl) (by rfl) (by rfl) ..
          rw [hv] at h
          rw [verdict_alias hl hf hne]
          generalize subBaseChannel (2 * n) aliasMpt item false _ = r at h ⊢
          cases r with
          | none => exact h
          | some e => exact ⟨h.1, h.2.of_dropSub⟩

def permitted (s : Caster A) (groupUid m : String) : Bool :=
  (s.policy.checkMountNearby groupUid m).isNone

def nearestPermitted (s : Caster A) (groupUid : String) (reply : Option (List String)) :
    Option String :=
  (reply.getD []).find? fun m ↦ s.online m && permitted s groupUid m

/-- The subscriber is attached to the nearest mount that is permitted, or told that there is
none. -/
def Answers (item : CbItem A) (e : Effect A P) : Option String → Prop
  | some m => Attaches e item.connectKey m ∨
      (item.channel = m ∧ (e.caster.sub .base m item.connectKey).isSome)
  | none => Refuses e item.arg

def Enforced (s : Caster A) (item : CbItem A) (reply : Option (List String)) :
    Option (Effect A P) → Prop
  | none => False
  | some e => (∀ m, Attaches e item.connectKey m → permitted s item.groupUid m) ∧
      Answers item e (nearestPermitted s item.groupUid reply)

def Verdict.Fits (nearest : Option String) : Verdict → Prop
  | attach m => nearest = some m
  | refuse => nearest = none
  | _ => False

def depth (s : Caster A) : Nat := s.aliasRuleMap.entries.length + 1

/-- The first mount of the answer that is online decides. If it is the one that the subscriber has,
it must be permitted and the subscription must stand. Otherwise the mount that it stands for must be
the nearest permitted one, and a refusal must mean that there is none. -/
def Lawful (s : Caster A) (item : CbItem A) : Option (List String) → Prop
  | none => False
  | some fields =>
    match s.firstOnline fields with
    | none => True
    | some field =>
      if item.channel = field then
        permitted s item.groupUid field ∧ (s.sub .base field item.connectKey).isSome
      else (verdict s (depth s) item.groupUid field true).Fits
        (nearestPermitted s item.groupUid (some fields))

section

variable {s : Caster A} {item : CbItem A} {fields : List String} {field : String}

theorem nearestPermitted_none (h : s.firstOnline fields = none) (groupUid : String) :
    nearestPermitted s groupUid (some fields) = none := by
  refine List.find?_eq_none.mpr fun m hm hp ↦ ?_
  exact List.find?_eq_none.mp h m hm (Bool.and_eq_true_iff.mp hp).1

theorem permitted_of_nearest {groupUid m : String} {reply : Option (List String)}
    (h : nearestPermitted s groupUid reply = some m) : permitted s groupUid m = true := by
  have hp := List.find?_some h
  exact (Bool.and_eq_true_iff.mp hp).2

theorem nearestPermitted_first (h : s.firstOnline fields = some field) {groupUid : String}
    (hp : permitted s groupUid field = true) :
    nearestPermitted s groupUid (some fields) = some field := by
  obtain ⟨ho, before, after, hfields, hbefore⟩ := List.find?_eq_some_iff_append.mp h
  refine List.find?_eq_some_iff_append.mpr ⟨?_, before, after, hfields, fun m hm ↦ ?_⟩
  · rw [ho, hp]
    rfl
  · have hoff := hbefore m hm
    simp only [Bool.not_eq_true'] at hoff ⊢
    rw [hoff]
    rfl

theorem attaches_append {gone : List String} {e : Effect A P} {key m : String} :
    Attaches { e with commands := gone.map .zrem ++ e.commands } key m ↔ Attaches e key m := by
  unfold Attaches
  rw [List.mem_append]
  refine ⟨fun h ↦ h.resolve_left fun hg ↦ ?_, .inr⟩
  obtain ⟨_, _, hz⟩ := List.mem_map.mp hg
  cases hz

theorem not_attaches_zrem {gone : List String} {e : Effect A P} {key m : String}
    (h : e.commands = gone.map .zrem) : ¬ Attaches e key m := by
  intro ha
  unfold Attaches at ha
  rw [h] at ha
  obtain ⟨_, _, hz⟩ := List.mem_map.mp ha
  cases hz

theorem enforced_kept {gone : List String} {reply : Option (List String)} :
    Enforced s item reply
        (some ({ code := 0, caster := s, commands := gone.map .zrem } : Effect A P)) ↔
      nearestPermitted s item.groupUid reply = some item.channel ∧
        (s.sub .base item.channel item.connectKey).isSome := by
  have hno (m : String) : ¬ Attaches ({ code := 0, caster := s, commands := gone.map .zrem } :
      Effect A P) item.connectKey m := not_attaches_zrem rfl
  refine (and_iff_right fun m hm ↦ absurd hm (hno m)).trans ?_
  cases nearestPermitted s item.groupUid reply with
  | none => exact iff_of_false (fun ⟨_, hc, _⟩ ↦ by cases hc) (fun ⟨h, _⟩ ↦ by cases h)
  | some m =>
    refine (or_iff_right (hno m)).trans ?_
    constructor
    · rintro ⟨rfl, hs⟩
      exact ⟨rfl, hs⟩
    · rintro ⟨he, hs⟩
      cases he
      exact ⟨rfl, hs⟩

theorem enforced_of_shows (item : CbItem A) {s' : Caster A} {item' : CbItem A} {v : Verdict}
    {e : Effect A P} {gone : List String} {reply : Option (List String)} (h : Shows s' item' v e)
    (hv : v ≠ .endless) (hkey : item'.connectKey = item.connectKey) (harg : item'.arg = item.arg)
    (hdrop : s'.sub .base item.channel item.connectKey = none) :
    Enforced s item reply (some { e with commands := gone.map .zrem ++ e.commands }) ↔
      v.Fits (nearestPermitted s item.groupUid reply) := by
  generalize he' : ({ e with commands := gone.map .zrem ++ e.commands } : Effect A P) = e'
  have hatt (m : String) : Attaches e' item.connectKey m ↔ v = .attach m := by
    rw [← he', attaches_append, ← hkey]
    exact h.attaches m
  have hrefuse : Refuses e' item.arg ↔ v = .refuse := by
    rw [← he', ← harg]
    exact h.refuses
  have hanswer (m : String) : Answers item e' (some m) ↔ v = .attach m := by
    refine (or_congr_left (hatt m)).trans ⟨fun hor ↦ ?_, .inl⟩
    by_contra hne
    obtain ⟨rfl, hs⟩ := hor.resolve_left hne
    have hstay := h.stays item.channel hne
    rw [hkey, hdrop] at hstay
    rw [← he'] at hs
    cases hstay hs
  have hnone : Answers item e' none ↔ v = .refuse := hrefuse
  change (∀ m, Attaches e' item.connectKey m → _) ∧ Answers item e' _ ↔ _
  cases hn : nearestPermitted s item.groupUid reply with
  | none =>
    rw [hnone]
    cases v with
    | endless => exact absurd rfl hv
    | nothing => exact iff_of_false (fun hc ↦ nomatch hc.2) id
    | refuse => exact iff_of_true ⟨fun m hm ↦ (nomatch (hatt m).mp hm), rfl⟩ rfl
    | attach m => exact iff_of_false (fun hc ↦ nomatch hc.2) nofun
  | some m =>
    rw [hanswer]
    cases v with
    | endless => exact absurd rfl hv
    | nothing => exact iff_of_false (fun hc ↦ nomatch hc.2) id
    | refuse => exact iff_of_false (fun hc ↦ nomatch hc.2) nofun
    | attach m' =>
      constructor
      · rintro ⟨-, hm⟩
        cases hm
        rfl
      · intro hm
        cases hm
        refine ⟨fun m' hm' ↦ ?_, rfl⟩
        cases (hatt m').mp hm'
        exact permitted_of_nearest hn

end

/-- The policy for nearest mounts is enforced on an answer if and only if the answer is lawful. -/
theorem nearby_enforced {s : Caster A} {key : String} {item : CbItem A}
    (hitem : s.baseNearSubMap.lookup key = some item) (reply : Option (List String)) :
    Enforced s item reply (redisGeoRadiusCallback s.aliasDepth key reply s : Option (Effect A P)) ↔
      Lawful s item reply := by
  unfold redisGeoRadiusCallback
  rw [hitem]
  cases reply with
  | none =>
    refine iff_of_false ?_ id
    rintro ⟨-, h⟩
    obtain ⟨_, hc, _⟩ := h
    cases hc
  | some fields =>
    unfold Lawful
    dsimp only
    cases hf : s.firstOnline fields with
    | none =>
      refine iff_of_true ⟨fun m hm ↦ absurd hm (not_attaches_zrem rfl), ?_⟩ trivial
      rw [nearestPermitted_none hf]
      exact ⟨_, List.mem_singleton_self _, rfl, rfl⟩
    | some field =>
      dsimp only
      split
      · next he =>
        rw [enforced_kept, he]
        refine and_congr_left fun _ ↦ ⟨permitted_of_nearest, nearestPermitted_first hf⟩
      · next hne =>
        generalize hs' : ({ s.dropSub .base item.channel item.connectKey with
          baseNearSubMap := s.baseNearSubMap.insert key { item with channel := field } } :
            Caster A) = s'
        have hverdict : verdict s' (depth s) item.groupUid field true =
            verdict s (depth s) item.groupUid field true := by
          subst hs'
          exact verdict_congr (by rfl) (by rfl) (by rfl) ..
        have hdrop : s'.sub .base item.channel item.connectKey = none := by
          subst hs'
          exact (Caster.sub_dropSub ..).trans (if_pos ⟨rfl, rfl⟩)
        have honline : s'.online field = true := by
          subst hs'
          exact List.find?_some hf
        have h :=
          settles_subBaseChannel (P := P) (depth s) { item with channel := field } field true
          s' honline
        change Settles s' _ (verdict s' (depth s) item.groupUid field true) _ at h
        rw [hverdict] at h
        have hdepth : s.aliasDepth = 2 * depth s := rfl
        rw [hdepth]
        generalize subBaseChannel (2 * depth s) field _ true s' = r at h ⊢
        cases r with
        | none =>
          rw [h]
          exact Iff.rfl
        | some e => exact enforced_of_shows item h.2 h.1 rfl rfl hdrop

def near : CbItem String where
  connectKey := "k"
  channel := "V"
  userName := "u"
  groupUid := "g"
  arg := "rover"

def waiting (allowed : Bool) : Caster String where
  policy := {
    accessGroupMap := AList.singleton "g" {
      nearestMptEnable := true, nearestMptSourceName := "V", allowNearbyOutsideGroup := allowed } }
  activeMountMap := ["B"]
  baseNearSubMap := AList.singleton "k" near

theorem nearby_enforced_permitted : Enforced (P := Unit) (waiting true) near (some ["B"])
    (redisGeoRadiusCallback (waiting true).aliasDepth "k" (some ["B"]) (waiting true)) := by
  refine (nearby_enforced rfl (some ["B"])).mpr ?_
  change nearestPermitted (waiting true) "g" (some ["B"]) = some "B"
  decide +kernel

/-- The base is attached although the policy keeps it from the group. -/
theorem not_nearby_enforced : ¬ ∀ (s : Caster String) (key : String) (item : CbItem String)
    (reply : Option (List String)), s.baseNearSubMap.lookup key = some item →
    Enforced (P := Unit) s item reply (redisGeoRadiusCallback s.aliasDepth key reply s) := by
  intro h
  obtain ⟨hpermitted, -⟩ := h (waiting false) "k" near (some ["B"]) rfl
  have hb : permitted (waiting false) "g" "B" = true :=
    hpermitted "B"
      (by exact List.mem_append_right _ (List.mem_append_right _ (List.mem_singleton_self _)))
  exact absurd hb (by decide +kernel)

end NavCaster.Core.Nearby
