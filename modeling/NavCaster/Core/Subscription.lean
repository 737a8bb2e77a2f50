import NavCaster.Base.Nmea
import NavCaster.Core.Connections

namespace NavCaster.Core.Subscription

open NavCaster.Library
open NavCaster.Library.Strto (Bytes Exn)
open NavCaster.Base.Nmea
open NavCaster.Core.Message
open NavCaster.Core.Access
open NavCaster.Core.Connections

/-- The arithmetic of coordinates: the place that a position report gives, whether a place is the
origin, and whether two reports lie as far apart as the switch distance. -/
structure Geometry (P : Type) where
  ecef2pos : Gga → P
  atOrigin : P → Bool
  moved : Gga → Gga → Bool

inductive SubCommand (A P : Type)
  | record (c : Command A)
  | subscribe (r : Role) (channel : String)
  | unsubscribe (r : Role) (channel : String)
  | hsetexSub (r : Role) (channel connectKey : String)
  | hdelSub (r : Role) (channel connectKey : String)
  | georadius (connectKey : String) (pos : P)
  | zrem (field : String)
  | geoadd (connectKey : String) (pos : P)
  | publishUser (userName : String) (data : Bytes)

/-- The maps of `caster_internal` that a connection is listed in, and those it is checked by. -/
structure Caster (A : Type) where
  policy : AccessPolicy := {}
  registry : Registry A := {}
  activeMountMap : List String := []
  aliasRuleMap : Table String (List String) := ∅
  subMap : Role → Table String (Table String (CbItem A)) := fun _ ↦ ∅
  baseNearSubMap : Table String (CbItem A) := ∅
  nearPosCacheMap : Table String Gga := ∅
  roverDecoderMap : Table String DecodeNmea := ∅

structure Effect (A P : Type) where
  code : Nat
  caster : Caster A
  commands : List (SubCommand A P) := []
  calls : List (Call A) := []

variable {A P : Type}

namespace Caster

variable (s : Caster A)

def sub (r : Role) (channel key : String) : Option (CbItem A) :=
  Table.entry (s.subMap r) channel key

def setSubMap (r : Role) (m : Table String (Table String (CbItem A))) : Caster A :=
  { s with subMap := Function.update s.subMap r m }

def online (mountPoint : String) : Bool := mountPoint ∈ s.activeMountMap

def isAliasMpt (mountPoint : String) : Bool := (s.aliasRuleMap.lookup mountPoint).isSome

def firstOnline (mounts : List String) : Option String := mounts.find? s.online

def dropSub (r : Role) (channel key : String) : Caster A :=
  s.setSubMap r (Table.dropOld (s.subMap r) channel key)

/-- More calls than it takes to go through every alias. -/
def aliasDepth : Nat := 2 * s.aliasRuleMap.entries.length + 2

end Caster

def failure (s : Caster A) (code : Nat) (arg : A) (reason : String) : Effect A P where
  code
  caster := s
  calls := [⟨arg, .err, reason⟩]

def addSub (r : Role) (channel : String) (item : CbItem A) (announced : String) (s : Caster A) :
    Effect A P where
  code := 0
  caster := s.setSubMap r (Table.putNew (s.subMap r) channel item.connectKey
    { item with channel, groupUid := normalizeAccessGroupUid item.groupUid })
  commands :=
    (if channel ∈ s.subMap r then []
      else [.subscribe r channel,
        .record (sendStatusChannel r channel "" .active "First subscribe in one Caster Node")]) ++
      [.hsetexSub r channel item.connectKey]
  calls := [⟨item.arg, .ok, announced⟩]

/-- The part of `sub_base_channel` for a channel that is no alias. -/
def subMount (channel : String) (item : CbItem A) (skipAccessCheck : Bool) (s : Caster A) :
    Effect A P :=
  let denied := if skipAccessCheck then none
    else s.policy.checkMountAccess (normalizeAccessGroupUid item.groupUid) channel
  match denied with
  | some reason => failure s 1 item.arg reason
  | none =>
    if s.online channel then addSub .base channel item channel s
    else failure s 1 item.arg "Can't Find Sub Base Recored"

mutual

/-- `none` where the calls do not end: two aliases can lead to each other. The access check is
skipped for the channel itself only. -/
def subBaseChannel : Nat → String → CbItem A → Bool → Caster A → Option (Effect A P)
  | 0, _, _, _, _ => none
  | fuel + 1, channel, item, skipAccessCheck, s =>
    if s.isAliasMpt channel then subAliasChannel fuel channel item s
    else some (subMount channel item skipAccessCheck s)

def subAliasChannel : Nat → String → CbItem A → Caster A → Option (Effect A P)
  | 0, _, _, _ => none
  | fuel + 1, channel, item, s =>
    match s.aliasRuleMap.lookup channel with
    | none => some (failure s 1 item.arg "Can't Find Alias Mount Point")
    | some sources =>
      match s.firstOnline sources with
      | none => some (failure s 2 item.arg "Can't Find Useful Alias Mount Point")
      | some aliasMpt =>
        if channel = aliasMpt then some { code := 0, caster := s }
        else subBaseChannel fuel aliasMpt item false (s.dropSub .base channel item.connectKey)

end

/-- The entry of the subscriber, whose channel is not changed once there is one. -/
def nearEntry (channel : String) (item : CbItem A) (s : Caster A) : CbItem A :=
  match s.baseNearSubMap.lookup item.connectKey with
  | none => { item with channel, groupUid := normalizeAccessGroupUid item.groupUid }
  | some old => { old with groupUid := normalizeAccessGroupUid item.groupUid, arg := item.arg }

def subNearChannel (geo : Geometry P) (channel : String) (item : CbItem A) (pos : P)
    (s : Caster A) : Effect A P :=
  match s.policy.checkNearestMountLogin (normalizeAccessGroupUid item.groupUid) channel with
  | some reason => failure s 1 item.arg reason
  | none =>
    let s := { s with
      baseNearSubMap := s.baseNearSubMap.insert item.connectKey (nearEntry channel item s) }
    if geo.atOrigin pos then { code := 0, caster := s, calls := [⟨item.arg, .ok, channel⟩] }
    else { code := 0, caster := s, commands := [.georadius item.connectKey pos] }

def unsubNearChannel (key : String) (s : Caster A) : Effect A P :=
  match s.baseNearSubMap.lookup key with
  | none => { code := 0, caster := { s with nearPosCacheMap := s.nearPosCacheMap.erase key } }
  | some item =>
    { code := 0
      caster := { s.dropSub .base item.channel key with
        baseNearSubMap := s.baseNearSubMap.erase key
        nearPosCacheMap := s.nearPosCacheMap.erase key }
      commands :=
        if (s.sub .base item.channel key).isSome then [.hdelSub .base item.channel key] else [] }

def unsubChannel (r : Role) (channel key : String) (s : Caster A) : Effect A P :=
  match s.sub r channel key with
  | none => { code := 1, caster := s }
  | some _ => { code := 0, caster := s.dropSub r channel key, commands := [.hdelSub r channel key] }

def unsubBaseChannel (channel key : String) (s : Caster A) : Effect A P :=
  match s.baseNearSubMap.lookup key with
  | some _ => unsubNearChannel key s
  | none => unsubChannel .base channel key s

def unsubRoverChannel : String → String → Caster A → Effect A P := unsubChannel .rover

def subRoverChannel (channel : String) (item : CbItem A) (s : Caster A) : Effect A P :=
  addSub .rover channel item "" s

/-- A rover that the access check lets through gets a decoder with its statuses. -/
def registerRover (type : RegisterType) (item : CbItem A) (s : Caster A) : Effect A P :=
  let o := registerRoverChannel s.policy type item s.registry
  { code := o.code
    caster := { s with
      registry := o.registry
      roverDecoderMap :=
        match checkLogin .rover s.policy type item.groupUid item.channel with
        | some _ => s.roverDecoderMap
        | none => Table.insertNew s.roverDecoderMap item.connectKey {} }
    commands := o.commands.map .record
    calls := o.calls }

/-- The nearest subscription ends with the statuses. -/
def withdrawRover (opts : Options) (userName key : String) (s : Caster A) : Effect A P :=
  let o := withdrawRoverChannel opts userName key s.registry
  let s := { s with registry := o.registry }
  if o.code = 0 then
    let e : Effect A P :=
      unsubNearChannel key { s with roverDecoderMap := s.roverDecoderMap.erase key }
    { e with commands :=
      (o.commands.take 1).map .record ++ e.commands ++ (o.commands.drop 1).map .record }
  else { code := o.code, caster := s, commands := o.commands.map .record }

/-- Only a rover with a status has its coordinates stored. -/
def setRoverCoordInfo (geo : Geometry P) (key : String) (gga : Gga) (s : Caster A) :
    List (SubCommand A P) :=
  if key ∈ s.registry.statusMap .rover then [.geoadd key (geo.ecef2pos gga)] else []

def needQuery (geo : Geometry P) (key : String) (gga : Gga) (s : Caster A) : Bool :=
  match s.nearPosCacheMap.lookup key with
  | none => true
  | some old => geo.moved gga old

/-- The search for the nearest base that a position report starts. -/
def moveNear (geo : Geometry P) (key : String) (gga : Gga) (s : Caster A) : Effect A P :=
  match s.baseNearSubMap.lookup key with
  | none => { code := 0, caster := s }
  | some item =>
    if needQuery geo key gga s then
      subNearChannel geo item.channel { item with connectKey := key } (geo.ecef2pos gga)
        { s with nearPosCacheMap := s.nearPosCacheMap.insert key gga }
    else { code := 0, caster := s }

def pubRoverChannel (geo : Geometry P) (userName key : String) (data : Bytes) (s : Caster A) :
    Except Exn (Effect A P) :=
  match s.roverDecoderMap.lookup key with
  | none => .ok { code := 0, caster := s, commands := [.publishUser userName data] }
  | some dec => do
    let dec ← dec.decode data
    let s := { s with roverDecoderMap := s.roverDecoderMap.insert key dec }
    match dec.position with
    | none => return { code := 0, caster := s, commands := [.publishUser userName data] }
    | some gga =>
      let e := moveNear geo key gga s
      return { e with
        code := 0
        commands := setRoverCoordInfo geo key gga s ++ e.commands ++ [.publishUser userName data] }

/-- `reply` is `none` where there is none, or one that is no array. The mounts come in the order of
their distance, and those before the first that is online are removed from the index. -/
def redisGeoRadiusCallback (fuel : Nat) (key : String) (reply : Option (List String))
    (s : Caster A) : Option (Effect A P) :=
  match s.baseNearSubMap.lookup key, reply with
  | some item, some fields =>
    let gone : List (SubCommand A P) := (fields.takeWhile fun field ↦ !s.online field).map .zrem
    match s.firstOnline fields with
    | none =>
      let e : Effect A P := failure s 0 item.arg "Can't Find Useful Nearest Mount Point"
      some { e with commands := gone }
    | some field =>
      if item.channel = field then some { code := 0, caster := s, commands := gone }
      else
        let item' := { item with channel := field }
        let s' := { s.dropSub .base item.channel item.connectKey with
          baseNearSubMap := s.baseNearSubMap.insert key item' }
        (subBaseChannel fuel field item' true s').map fun e ↦
          { e with commands := gone ++ e.commands }
  | _, _ => some { code := 0, caster := s }

/-- What the timer does with one row of subscribers, of which it has a copy. -/
def checkActiveRow (notify : Bool) (row : String × Table String (CbItem A)) (s : Caster A) :
    Effect A P :=
  let calls : List (Call A) := if !s.online row.1 ∧ notify then
      (Table.toPairs row.2).map fun e ↦ ⟨e.2.arg, .err, "Subscribe Base is not active"⟩
    else []
  if row.2.entries.isEmpty then
    { code := 0
      caster := s.setSubMap .base ((s.subMap .base).erase row.1)
      commands := [.unsubscribe .base row.1, .record (sendStatusBaseChannel row.1 "" .inactive
        "one Caster Node unsubscribe this channel ")]
      calls }
  else { code := 0, caster := s, calls }

def checkActiveBaseChannel (notify : Bool) (s : Caster A) : Effect A P :=
  (Table.toPairs (s.subMap .base)).foldl
    (fun e row ↦
      let e' := checkActiveRow notify row e.caster
      { e' with commands := e.commands ++ e'.commands, calls := e.calls ++ e'.calls })
    { code := 0, caster := s }

section

variable {s : Caster A} {r : Role} {channel key : String} {item : CbItem A}

theorem Caster.sub_setSubMap (s : Caster A) (r r' : Role)
    (m : Table String (Table String (CbItem A))) (channel key : String) :
    (s.setSubMap r m).sub r' channel key =
      if r' = r then Table.entry m channel key else s.sub r' channel key := by
  simp only [sub, setSubMap, Function.update_apply]
  split <;> rfl

theorem Caster.sub_dropSub (s : Caster A) (r : Role) (channel channel' key key' : String) :
    (s.dropSub r channel key).sub r channel' key' =
      if channel' = channel ∧ key' = key then none else s.sub r channel' key' := by
  rw [dropSub, sub_setSubMap, if_pos rfl, Table.entry_dropOld]
  rfl

theorem sub_addSub (announced channel' key' : String) :
    (addSub r channel item announced s : Effect A P).caster.sub r channel' key' =
      if channel' = channel ∧ key' = item.connectKey ∧ s.sub r channel item.connectKey = none then
        some { item with channel, groupUid := normalizeAccessGroupUid item.groupUid }
      else s.sub r channel' key' := by
  change (s.setSubMap r _).sub r channel' key' = _
  rw [Caster.sub_setSubMap, if_pos rfl, Table.entry_putNew]
  rfl

theorem isSome_sub_addSub (announced : String) :
    ((addSub r channel item announced s : Effect A P).caster.sub r channel
      item.connectKey).isSome := by
  rw [sub_addSub]
  cases h : s.sub r channel item.connectKey with
  | none => rw [if_pos ⟨rfl, rfl, rfl⟩]; rfl
  | some old => rw [if_neg fun h ↦ nomatch h.2.2]; rfl

theorem subMount_skip (h : s.online channel = true) :
    (subMount channel item true s : Effect A P) = addSub .base channel item channel s := by
  unfold subMount
  rw [if_pos h, if_pos rfl]

theorem subBaseChannel_of_not_alias (fuel : Nat) (skip : Bool) (h : s.isAliasMpt channel = false) :
    (subBaseChannel (fuel + 1) channel item skip s : Option (Effect A P)) =
      some (subMount channel item skip s) := by
  rw [subBaseChannel, h]
  rfl

end

end NavCaster.Core.Subscription
