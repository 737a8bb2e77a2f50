import NavCaster.Core.Message

namespace NavCaster.Relay.Record

open NavCaster.Core.Message

inductive RelayKind
  | pull | push
  deriving DecidableEq

namespace RelayKind

def broadcastType : RelayKind → BroadcastType
  | pull => .pullOperate
  | push => .rushOperate

def activeReason : RelayKind → String
  | pull => "Pull Task Active"
  | push => "Push Task Active"

def changedReason : RelayKind → String
  | pull => "Pull Task Config Changed"
  | push => "Push Task Config Changed"

def inactiveReason : RelayKind → String
  | pull => "Pull Task Inactive"
  | push => "Push Task Inactive"

end RelayKind

inductive Member (α : Type)
  | absent | null | value (a : α) | mistyped
  deriving DecidableEq

/-- The protobuf reading: an absent or null member leaves the default of the field. -/
def Member.read {α : Type} (d : α) : Member α → Option α
  | absent => some d
  | null => some d
  | value a => some a
  | mistyped => none

structure Target where
  loginMpt : String := ""
  targetIp : String := ""
  targetPort : Int := 0
  targetMpt : String := ""
  targetAccount : String := ""
  targetPassword : String := ""
  deriving DecidableEq

/-- A text stored in `PULL:RECORD` or `PUSH:RECORD`. An object is known by its uid and enabled
members, by the connection its other members describe unless one of them is mistyped, and by
whatever else distinguishes it from other texts. -/
inductive RecordText
  | object (uid : Member String) (enabled : Member Bool) (target : Option Target) (extra : String)
  | null
  | quoted (inner : RecordText)
  | other (text : String)
  | invalid (text : String)
  deriving DecidableEq

structure RelayProto where
  uid : String
  enabled : Bool
  target : Target
  deriving DecidableEq

namespace RecordText

def toProto : RecordText → Option RelayProto
  | object u e t _ => do
    let uid ← u.read ""
    let enabled ← e.read false
    let target ← t
    return { uid, enabled, target }
  | _ => none

def empty : RecordText → Bool
  | invalid text => text = ""
  | _ => false

def ofUid (uid : String) : RecordText := object (.value uid) (.value false) (some {}) ""

end RecordText

structure RelayRecord where
  uid : String
  json : RecordText
  deriving DecidableEq

namespace RelayRecord

/-- `fromString` accepts every text. -/
def fromString (r : RelayRecord) (str : RecordText) : RelayRecord := { r with json := str }

def toString (r : RelayRecord) : RecordText :=
  if r.json.empty then .ofUid r.uid else r.json

def isEnabled (r : RelayRecord) : Bool :=
  if r.json.empty then false else
    match r.json.toProto with
    | none => false
    | some proto => proto.enabled

theorem toProto_of_enabled {r : RelayRecord} (h : r.isEnabled = true) :
    r.toString = r.json ∧ ∃ p, r.json.toProto = some p ∧ p.enabled = true := by
  unfold isEnabled at h
  split at h
  · cases h
  · next he =>
    refine ⟨if_neg he, ?_⟩
    split at h
    · cases h
    · next p hp => exact ⟨p, hp, h⟩

end RelayRecord

structure RelayStatus where
  uid : String
  connectKey : String := ""
  state : Int := 0
  nodeUid : String := ""
  nodeName : String := ""
  deriving DecidableEq

namespace RelayStatus

def setNodeInfo (s : RelayStatus) (nodeUid nodeName : String) : RelayStatus :=
  { s with nodeUid, nodeName }

def updateState (s : RelayStatus) (connectKey : String) (state : Int) : RelayStatus :=
  { s with connectKey, state }

def running (s : RelayStatus) : Bool := s.state = 1

@[simp] theorem setNodeInfo_uid (s : RelayStatus) (u v : String) :
    (s.setNodeInfo u v).uid = s.uid :=
  rfl

@[simp] theorem updateState_uid (s : RelayStatus) (c : String) (i : Int) :
    (s.updateState c i).uid = s.uid := rfl

end RelayStatus

inductive StatusText
  | state (s : RelayStatus)
  | invalid (text : String)
  deriving DecidableEq

/-- Parsing replaces every field of the status, its uid included. -/
def StatusText.parse : StatusText → Option RelayStatus
  | state s => some s
  | invalid _ => none

/-- The request text of a relay broadcast: a record to start, or the status of a task to stop. -/
inductive RelayText
  | record (r : RecordText)
  | status (s : RelayStatus)
  deriving DecidableEq

/-- The receiver reads either text as a record and ignores the fields it does not know. -/
def RelayText.toProto : RelayText → Option RelayProto
  | record r => r.toProto
  | status s => some ⟨s.uid, false, {}⟩

abbrev RelayMsg := BroadcastMsg RelayText

end NavCaster.Relay.Record
