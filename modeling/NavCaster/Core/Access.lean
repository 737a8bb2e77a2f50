import NavCaster.Library.Table

namespace NavCaster.Core.Access

open NavCaster.Library

inductive Right
  | visible | access | nearby
  deriving DecidableEq

structure AccessGroup where
  nearestMptEnable : Bool := false
  nearestMptSourceName : String := ""
  allowVisibleInsideGroup : Bool := true
  allowAccessInsideGroup : Bool := true
  allowNearbyInsideGroup : Bool := true
  allowVisibleOutsideGroup : Bool := true
  allowAccessOutsideGroup : Bool := true
  allowNearbyOutsideGroup : Bool := true

def AccessGroup.allowInsideGroup (g : AccessGroup) : Right → Bool
  | .visible => g.allowVisibleInsideGroup
  | .access => g.allowAccessInsideGroup
  | .nearby => g.allowNearbyInsideGroup

def AccessGroup.allowOutsideGroup (g : AccessGroup) : Right → Bool
  | .visible => g.allowVisibleOutsideGroup
  | .access => g.allowAccessOutsideGroup
  | .nearby => g.allowNearbyOutsideGroup

def AccessGroup.offersNearest (g : AccessGroup) (mountPoint : String) : Bool :=
  g.nearestMptEnable && g.nearestMptSourceName != "" && g.nearestMptSourceName == mountPoint

/-- `ACCESS_STATE_*`: whether an item overrides the policy of its group. -/
inductive AccessState
  | default | enable | disable
  deriving DecidableEq

structure AccessItem where
  allowVisible : AccessState := .default
  allowAccess : AccessState := .default
  allowNearby : AccessState := .default

def AccessItem.allow (item : AccessItem) : Right → AccessState
  | .visible => item.allowVisible
  | .access => item.allowAccess
  | .nearby => item.allowNearby

namespace Right

def itemReason : Right → String
  | visible => "Mount point visible disabled by item policy"
  | access => "Mount point access disabled by item policy"
  | nearby => "Mount point nearby disabled by item policy"

def insideReason : Right → String
  | visible => "Mount point visible disabled inside group"
  | access => "Mount point access disabled inside group"
  | nearby => "Mount point nearby disabled inside group"

def outsideReason : Right → String
  | visible => "Mount point visible disabled outside group"
  | access => "Mount point access disabled outside group"
  | nearby => "Mount point nearby disabled outside group"

end Right

/-- What a node has loaded: the groups by uid, their items by mount point, and the groups to which
the recorded and the decoded sources belong. -/
structure AccessPolicy where
  accessGroupMap : Table String AccessGroup := ∅
  accessItemMap : Table String (Table String AccessItem) := ∅
  sourceRecordMap : Table String String := ∅
  sourceDecodeMap : Table String String := ∅

def normalizeAccessGroupUid (groupUid : String) : String :=
  if groupUid = "" then "default" else groupUid

def isPrivilegedAccessGroup (groupUid : String) : Bool := groupUid = "SYSTEM"

theorem normalize_normalize (g : String) :
    normalizeAccessGroupUid (normalizeAccessGroupUid g) = normalizeAccessGroupUid g := by
  unfold normalizeAccessGroupUid
  by_cases h : g = "" <;> simp [h]

namespace AccessPolicy

variable (p : AccessPolicy) (groupUid mountPoint : String)

def isNearestMpt : Bool := (Table.toPairs p.accessGroupMap).any fun g ↦ g.2.offersNearest mountPoint

def resolveMountGroup : String :=
  match (p.sourceRecordMap.lookup mountPoint).filter (· != "default") with
  | some g => g
  | none =>
    match (p.sourceDecodeMap.lookup mountPoint).filter (· != "default") with
    | some g => g
    | none =>
      match (Table.toPairs p.accessItemMap).find? fun g ↦ (g.2.lookup mountPoint).isSome with
      | some g => g.1
      | none =>
        match (Table.toPairs p.accessGroupMap).find? fun g ↦ g.2.offersNearest mountPoint with
        | some g => g.1
        | none => "default"

def isMountInsideGroup : Bool :=
  let group := normalizeAccessGroupUid groupUid
  p.sourceRecordMap.lookup mountPoint == some group ||
    p.sourceDecodeMap.lookup mountPoint == some group ||
    ((p.accessItemMap.lookup group).bind (AList.lookup mountPoint)).isSome ||
    (p.accessGroupMap.lookup group).any (fun g ↦
      g.nearestMptEnable && g.nearestMptSourceName == mountPoint) ||
    p.resolveMountGroup mountPoint == group

/-- `none` lets the login through; otherwise the reason, which a privileged group is not given. -/
def checkNearestMountLogin : Option String :=
  if p.accessGroupMap.entries.isEmpty then some "Access group policy not loaded"
  else
    let group := normalizeAccessGroupUid groupUid
    if isPrivilegedAccessGroup group then
      if p.isNearestMpt mountPoint then none else some ""
    else match p.accessGroupMap.lookup group with
      | none => some "Access group not found"
      | some g =>
        if !g.nearestMptEnable then some "Nearest mount point disabled by group policy"
        else if g.nearestMptSourceName ≠ mountPoint then
          some "Nearest mount point not configured for group"
        else none

def item : Option AccessItem := (p.accessItemMap.lookup groupUid).bind (AList.lookup mountPoint)

def ruling (right : Right) (g : AccessGroup) : Option String :=
  match (p.item groupUid mountPoint).map (AccessItem.allow · right) with
  | some .enable => none
  | some .disable => some right.itemReason
  | _ =>
    if p.isMountInsideGroup groupUid mountPoint then
      if g.allowInsideGroup right then none else some right.insideReason
    else if g.allowOutsideGroup right then none
    else some right.outsideReason

/-- The checks of a mount point. `precheck` is what is asked of the group before its items. -/
def checkMount (right : Right) (precheck : AccessGroup → Option String) : Option String :=
  if p.accessGroupMap.entries.isEmpty ∧ p.accessItemMap.entries.isEmpty then none
  else
    let group := normalizeAccessGroupUid groupUid
    if isPrivilegedAccessGroup group then none
    else match p.accessGroupMap.lookup group with
      | none => some "Access group not found"
      | some g =>
        match precheck g with
        | some reason => some reason
        | none => p.ruling group mountPoint right g

def checkMountVisible : Option String := p.checkMount groupUid mountPoint .visible fun _ ↦ none

def checkMountAccess : Option String := p.checkMount groupUid mountPoint .access fun _ ↦ none

def checkMountNearby : Option String :=
  p.checkMount groupUid mountPoint .nearby fun g ↦
    if !g.nearestMptEnable then some "Nearest mount point disabled by group policy" else none

end AccessPolicy

end NavCaster.Core.Access
