import Mathlib.Logic.Basic

namespace NavCaster.Core.Message

inductive CasterReply
  | err | ok | active | inactive | string | integer | double | nil
  deriving DecidableEq

inductive BroadcastType
  | unspecified | serverOperate | clientOperate | rushOperate | pullOperate
  deriving DecidableEq

inductive BroadcastOperateType
  | unspecified | create | update | delete | active | inactive
  deriving DecidableEq

/-- A message on `CASTER:BROADCAST` or `NODE:<id>`, whose request text carries an `M`. -/
structure BroadcastMsg (M : Type) where
  type : BroadcastType
  operate : BroadcastOperateType
  target : String
  msgStr : M
  reasonStr : String
  deriving DecidableEq

def replyToOperate : CasterReply → BroadcastOperateType
  | .active => .active
  | .inactive => .inactive
  | _ => .unspecified

def operateToReply : BroadcastOperateType → CasterReply
  | .active => .active
  | .inactive => .inactive
  | _ => .ok

theorem operate_to_reply_to_operate (r : CasterReply) :
    operateToReply (replyToOperate r) = if r = .active ∨ r = .inactive then r else .ok := by
  cases r <;> rfl

theorem operate_to_reply_ne_err (o : BroadcastOperateType) : operateToReply o ≠ .err := by
  cases o <;> nofun

end NavCaster.Core.Message
