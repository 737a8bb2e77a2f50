import NavCaster.Core.Subscription
import NavCaster.Library.Machine
import NavCaster.Library.Since

namespace NavCaster.Core.Rover

open NavCaster.Library
open NavCaster.Library.Strto (Bytes Exn)
open NavCaster.Core.Access
open NavCaster.Core.Connections
open NavCaster.Core.Subscription

inductive BaseType
  | server | pull
  deriving DecidableEq

inductive RoverType
  | client | nearest | alias | push
  deriving DecidableEq

/-- A call of the interface; `arg` is the callback with its argument. -/
inductive Call (A : Type)
  | subRawData (connectKey mountPoint userName : String) (arg : A) (type : BaseType)
      (groupUid : String)
  | unsubRawData (connectKey mountPoint userName : String) (type : BaseType)
  | pubRawData (connectKey mountPoint userName : String) (data : Bytes) (type : RoverType)

structure Event (A : Type) where
  connectKey : String
  arg : A
  data : Bytes

/-- `channels` are what the subscription connection is subscribed to. -/
structure State (A : Type) where
  caster : Caster A := {}
  channels : List String := []

variable {A P : Type}

def roverChannel (channel : String) : String := "USR:" ++ channel

def subRawData (connectKey mountPoint userName : String) (arg : A) (type : BaseType)
    (groupUid : String) (s : Caster A) : Effect A P :=
  match type with
  | .server | .pull =>
    subRoverChannel mountPoint { connectKey, channel := mountPoint, userName, groupUid, arg } s

def unsubRawData (connectKey _mountPoint userName : String) (type : BaseType) (s : Caster A) :
    Effect A P :=
  match type with
  | .server | .pull => unsubRoverChannel userName connectKey s

def pubRawData (geo : Geometry P) (connectKey _mountPoint userName : String) (data : Bytes)
    (type : RoverType) (s : Caster A) : Except Exn (Effect A P) :=
  match type with
  | .client | .nearest | .alias | .push => pubRoverChannel geo userName connectKey data s

/-- The message is passed to each subscriber of the row that has the name of the channel. -/
def redisSubRoverCallback (channel : String) (data : Bytes) (s : Caster A) : List (Event A) :=
  match (s.subMap .rover).lookup channel with
  | none => []
  | some subs => (Table.toPairs subs).map fun e ↦ ⟨e.1, e.2.arg, data⟩

/-- What a command does in the database, and to the subscription connection. -/
def State.perform (s : State A) : SubCommand A P → State A × List (Event A)
  | .subscribe .rover channel => ({ s with channels := roverChannel channel :: s.channels }, [])
  | .publishUser userName data =>
    (s, if roverChannel userName ∈ s.channels then
      redisSubRoverCallback (roverChannel userName) data s.caster else [])
  | _ => (s, [])

def State.apply (s : State A) (e : Effect A P) : State A × List (Event A) :=
  e.commands.foldl (fun p c ↦ ((p.1.perform c).1, p.2 ++ (p.1.perform c).2))
    ({ s with caster := e.caster }, [])

/-- In the command of `sub_rover_channel` that renews the record an integer stands in the place of a
string. `faults` tells that the process does not survive it. -/
def step (geo : Geometry P) (faults : Bool) (s : State A) :
    Call A → Option (State A × List (Event A))
  | .subRawData connectKey mountPoint userName arg type groupUid =>
    if faults then none
    else some (s.apply
      (subRawData connectKey mountPoint userName arg type groupUid s.caster : Effect A P))
  | .unsubRawData connectKey mountPoint userName type =>
    some (s.apply (unsubRawData connectKey mountPoint userName type s.caster : Effect A P))
  | .pubRawData connectKey mountPoint userName data type =>
    match pubRawData geo connectKey mountPoint userName data type s.caster with
    | .error _ => none
    | .ok e => some (s.apply e)

def machine (A : Type) (geo : Geometry P) (faults : Bool) :
    Machine (State A) (Call A) (Event A) where
  step := step geo faults

namespace Call

def subscribes (userName connectKey : String) : Call A → Prop
  | subRawData key _ user _ _ _ => user = userName ∧ key = connectKey
  | _ => False

def unsubscribes (userName connectKey : String) : Call A → Prop
  | unsubRawData key _ user _ => user = userName ∧ key = connectKey
  | _ => False

def enters (mountPoint connectKey : String) : Call A → Prop
  | subRawData key mount _ _ _ _ => mount = mountPoint ∧ key = connectKey
  | _ => False

def mounts (mountPoint : String) : Call A → Prop
  | subRawData _ mount _ _ _ _ => mount = mountPoint
  | _ => False

end Call

def Subscribed (calls : List (Call A)) (userName connectKey : String) : Prop :=
  Since (Call.subscribes userName connectKey) (Call.unsubscribes userName connectKey) calls

/-- The connection has named the channel as its mount point, and not as its user since. -/
def Entered (calls : List (Call A)) (channel connectKey : String) : Prop :=
  Since (Call.enters channel connectKey) (Call.unsubscribes channel connectKey) calls

def Delivered (before : List (Call A)) (userName : String) (data : Bytes) (es : List (Event A)) :
    Prop :=
  (∀ e ∈ es, e.data = data) ∧ ∀ key,
    (Subscribed before userName key → es.countP (·.connectKey = key) = 1) ∧
      (¬ Subscribed before userName key → es.countP (·.connectKey = key) = 0)

/-- What a call has to do after those before. -/
def Right (before : List (Call A)) (s : State A) (es : List (Event A)) : Call A → Prop
  | .subRawData _ _ _ _ _ _ => True
  | .unsubRawData connectKey mountPoint userName type =>
    (∃ arg groupUid, Call.subRawData connectKey mountPoint userName arg type groupUid ∈ before) →
      s.caster.sub .rover mountPoint connectKey = none
  | .pubRawData _ _ userName data _ => Delivered before userName data es

def Delivers (geo : Geometry P) (faults : Bool) (calls : List (Call A)) : Prop :=
  ∀ before call after, calls = before ++ call :: after → ∃ s es t es',
    (machine A geo faults).exec {} before = some (s, es) ∧ step geo faults s call = some (t, es') ∧
      Right before t es' call

/-- How the names of a call have to agree with those of the calls before. -/
def Agrees (faults : Bool) (before : List (Call A)) : Call A → Prop
  | .subRawData _ _ _ _ _ _ => faults = false
  | .unsubRawData connectKey mountPoint userName type =>
    (∃ arg groupUid, Call.subRawData connectKey mountPoint userName arg type groupUid ∈ before) →
      mountPoint = userName ∨ ¬ Entered before mountPoint connectKey
  | .pubRawData _ _ userName _ _ => ∀ key, Subscribed before userName key ↔
      (∃ call ∈ before, call.mounts userName) ∧ Entered before (roverChannel userName) key

structure Traces (calls : List (Call A)) (s : State A) : Prop where
  entered : ∀ channel key, (s.caster.sub .rover channel key).isSome ↔ Entered calls channel key
  rows : ∀ channel, channel ∈ s.caster.subMap .rover ↔ ∃ call ∈ calls, call.mounts channel
  channels : ∀ channel, roverChannel channel ∈ s.channels ↔ channel ∈ s.caster.subMap .rover
  decoders : s.caster.roverDecoderMap = ∅

variable {geo : Geometry P} {faults : Bool} {s t : State A} {calls before : List (Call A)}

theorem roverChannel_inj {channel channel' : String} :
    roverChannel channel = roverChannel channel' ↔ channel = channel' := by
  unfold roverChannel
  exact String.append_right_inj _

theorem traces_nil : Traces ([] : List (Call A)) {} where
  entered _ _ := iff_of_false nofun Since.nil
  rows _ := iff_of_false nofun nofun
  channels _ := iff_of_false nofun nofun
  decoders := rfl

theorem apply_subRawData (connectKey mountPoint userName : String) (arg : A) (type : BaseType)
    (groupUid : String) (s : State A) :
    let e : Effect A P := subRawData connectKey mountPoint userName arg type groupUid s.caster
    s.apply e = ({ caster := e.caster
                   channels := if mountPoint ∈ s.caster.subMap .rover then s.channels
                     else roverChannel mountPoint :: s.channels }, []) := by
  cases type <;>
    · simp only [subRawData, subRoverChannel, addSub, State.apply]
      split <;> rfl

theorem apply_unsubRawData (connectKey mountPoint userName : String) (type : BaseType)
    (s : State A) :
    let e : Effect A P := unsubRawData connectKey mountPoint userName type s.caster
    s.apply e = ({ s with caster := e.caster }, []) := by
  cases type <;>
    · simp only [unsubRawData, unsubRoverChannel, unsubChannel, State.apply]
      cases s.caster.sub .rover userName connectKey <;> rfl

theorem pubRawData_eq (geo : Geometry P) (connectKey mountPoint userName : String) (data : Bytes)
    (type : RoverType) {s : Caster A} (h : s.roverDecoderMap = ∅) :
    pubRawData geo connectKey mountPoint userName data type s =
      .ok { code := 0, caster := s, commands := [.publishUser userName data] } := by
  have hlookup : s.roverDecoderMap.lookup connectKey = none := by
    rw [h]
    rfl
  cases type <;>
    · unfold pubRawData pubRoverChannel
      rw [hlookup]

def deliveries (s : State A) (userName : String) (data : Bytes) : List (Event A) :=
  if roverChannel userName ∈ s.channels then
    redisSubRoverCallback (roverChannel userName) data s.caster else []

theorem step_pubRawData (h : s.caster.roverDecoderMap = ∅) (connectKey mountPoint userName : String)
    (data : Bytes) (type : RoverType) :
    step geo faults s (.pubRawData connectKey mountPoint userName data type) =
      some (s, deliveries s userName data) := by
  simp only [step, pubRawData_eq geo connectKey mountPoint userName data type h]
  rfl

theorem countP_callback (channel key : String) (data : Bytes) (s : Caster A) :
    (redisSubRoverCallback channel data s).countP (·.connectKey = key) =
      if (s.sub .rover channel key).isSome then 1 else 0 := by
  unfold redisSubRoverCallback Caster.sub Table.entry
  cases (s.subMap .rover).lookup channel with
  | none => rfl
  | some subs =>
    have hcount : ((Table.toPairs subs).map fun e ↦ (⟨e.1, e.2.arg, data⟩ : Event A)).countP
        (·.connectKey = key) = subs.keys.count key := by
      rw [← Table.toPairs_fst, List.countP_map, List.count, List.countP_map]
      refine List.countP_congr fun e _ ↦ ?_
      simp
    dsimp only
    rw [hcount]
    split
    · next hsome => exact List.count_eq_one_of_mem subs.keys_nodup (AList.lookup_isSome.mp hsome)
    · next hnone => exact List.count_eq_zero.mpr fun hmem ↦ hnone (AList.lookup_isSome.mpr hmem)

theorem data_callback (channel : String) (data : Bytes) (s : Caster A) :
    ∀ e ∈ redisSubRoverCallback channel data s, e.data = data := by
  intro e he
  unfold redisSubRoverCallback at he
  split at he
  · cases he
  · obtain ⟨p, -, rfl⟩ := List.mem_map.mp he
    rfl

theorem subRawData_caster (connectKey mountPoint userName : String) (arg : A) (type : BaseType)
    (groupUid : String) (s : Caster A) :
    let e : Effect A P := subRawData connectKey mountPoint userName arg type groupUid s
    (∀ channel key, (e.caster.sub .rover channel key).isSome ↔
      (mountPoint = channel ∧ connectKey = key) ∨ (s.sub .rover channel key).isSome) ∧
    (∀ channel, channel ∈ e.caster.subMap .rover ↔
      mountPoint = channel ∨ channel ∈ s.subMap .rover) ∧
    e.caster.roverDecoderMap = s.roverDecoderMap := by
  let item : CbItem A := { connectKey, channel := mountPoint, userName, groupUid, arg }
  have he : (subRawData connectKey mountPoint userName arg type groupUid s : Effect A P) =
      addSub .rover mountPoint item "" s := by
    cases type <;> rfl
  rw [he]
  refine ⟨fun channel key ↦ ?_, fun channel ↦ ?_, rfl⟩
  · rw [sub_addSub]
    split
    · next hnew => exact iff_of_true rfl (.inl ⟨hnew.1.symm, hnew.2.1.symm⟩)
    · next hold =>
      refine (or_iff_right_of_imp ?_).symm
      rintro ⟨rfl, rfl⟩
      exact Option.isSome_iff_ne_none.mpr fun hnone ↦ hold ⟨rfl, rfl, hnone⟩
  · change channel ∈
      Function.update s.subMap .rover (Table.putNew _ mountPoint connectKey _) .rover ↔ _
    rw [Function.update_self, Table.mem_putNew, eq_comm]

theorem unsubRawData_caster (connectKey mountPoint userName : String) (type : BaseType)
    (s : Caster A) :
    let e : Effect A P := unsubRawData connectKey mountPoint userName type s
    (∀ channel key, (e.caster.sub .rover channel key).isSome ↔
      (s.sub .rover channel key).isSome ∧ ¬ (userName = channel ∧ connectKey = key)) ∧
    (∀ channel, channel ∈ e.caster.subMap .rover ↔ channel ∈ s.subMap .rover) ∧
    e.caster.roverDecoderMap = s.roverDecoderMap := by
  have he : (unsubRawData connectKey mountPoint userName type s : Effect A P) =
      unsubChannel .rover userName connectKey s := by
    cases type <;> rfl
  rw [he]
  unfold unsubChannel
  cases hsub : s.sub .rover userName connectKey with
  | none =>
    refine ⟨fun channel key ↦ ?_, fun _ ↦ Iff.rfl, rfl⟩
    refine (and_iff_left_of_imp ?_).symm
    rintro hsome ⟨rfl, rfl⟩
    rw [hsub] at hsome
    cases hsome
  | some item =>
    refine ⟨fun channel key ↦ ?_, fun channel ↦ ?_, rfl⟩
    · change ((s.dropSub .rover userName connectKey).sub .rover channel key).isSome ↔ _
      rw [Caster.sub_dropSub]
      split
      · next hgone => exact iff_of_false nofun fun h ↦ h.2 ⟨hgone.1.symm, hgone.2.symm⟩
      · next hkept => exact (and_iff_left fun h ↦ hkept ⟨h.1.symm, h.2.symm⟩).symm
    · change channel ∈
        Function.update s.subMap .rover (Table.dropOld _ userName connectKey) .rover ↔ _
      rw [Function.update_self, Table.mem_dropOld]

theorem entered_concat (call : Call A) (channel key : String) :
    Entered (before ++ [call]) channel key ↔
    call.enters channel key ∨ Entered before channel key ∧ ¬ call.unsubscribes channel key :=
  Since.concat call

theorem mounts_concat (call : Call A) (channel : String) :
    (∃ c ∈ before ++ [call], c.mounts channel) ↔
    call.mounts channel ∨ ∃ c ∈ before, c.mounts channel := by
  simp only [List.mem_append, List.mem_singleton, or_and_right, exists_or, exists_eq_left]
  exact or_comm

theorem Traces.subRawData {connectKey mountPoint userName groupUid : String} {arg : A}
    {type : BaseType} {es : List (Event A)} (h : Traces before s)
    (hstep :
      step geo false s (.subRawData connectKey mountPoint userName arg type groupUid) =
        some (t, es)) :
    Traces (before ++ [.subRawData connectKey mountPoint userName arg type groupUid]) t := by
  have heq := Option.some_inj.mp hstep
  rw [apply_subRawData] at heq
  cases heq
  obtain ⟨hsub, hrows, hdecoders⟩ :=
    subRawData_caster (P := P) connectKey mountPoint userName arg type groupUid s.caster
  exact
    { entered := by
        intro channel key
        refine (hsub channel key).trans ?_
        rw [h.entered, entered_concat]
        exact (or_congr_right (and_iff_left not_false)).symm
      rows := by
        intro channel
        refine (hrows channel).trans ?_
        rw [h.rows, mounts_concat]
        exact Iff.rfl
      channels := by
        intro channel
        rw [hrows]
        dsimp only
        split
        · next hmem =>
          refine (h.channels channel).trans (or_iff_right_of_imp ?_).symm
          rintro rfl
          exact hmem
        · rw [List.mem_cons, h.channels channel, roverChannel_inj, eq_comm]
      decoders := hdecoders.trans h.decoders }

theorem Traces.unsubRawData {connectKey mountPoint userName : String} {type : BaseType}
    {es : List (Event A)} (h : Traces before s)
    (hstep : step geo faults s (.unsubRawData connectKey mountPoint userName type) = some (t, es)) :
    Traces (before ++ [.unsubRawData connectKey mountPoint userName type]) t := by
  have heq := Option.some_inj.mp hstep
  rw [apply_unsubRawData] at heq
  cases heq
  obtain ⟨hsub, hrows, hdecoders⟩ :=
    unsubRawData_caster (P := P) connectKey mountPoint userName type s.caster
  exact
    { entered := by
        intro channel key
        refine (hsub channel key).trans ?_
        rw [h.entered, entered_concat]
        exact (iff_of_eq (false_or _)).symm
      rows := by
        intro channel
        refine (hrows channel).trans ?_
        rw [h.rows, mounts_concat]
        exact (iff_of_eq (false_or _)).symm
      channels := fun channel ↦ (h.channels channel).trans (hrows channel).symm
      decoders := hdecoders.trans h.decoders }

theorem Traces.pubRawData {connectKey mountPoint userName : String} {data : Bytes}
    {type : RoverType} (h : Traces before s) :
    Traces (before ++ [.pubRawData connectKey mountPoint userName data type]) s where
  entered channel key := by
    rw [h.entered, entered_concat]
    exact (and_iff_left not_false).symm.trans (iff_of_eq (false_or _)).symm
  rows channel := by
    rw [h.rows, mounts_concat]
    exact (iff_of_eq (false_or _)).symm
  channels := h.channels
  decoders := h.decoders

theorem Traces.step {call : Call A} {es : List (Event A)} (h : Traces before s)
    (hstep : step geo faults s call = some (t, es)) : Traces (before ++ [call]) t := by
  cases call with
  | subRawData connectKey mountPoint userName arg type groupUid =>
    cases faults with
    | false => exact h.subRawData hstep
    | true => cases hstep
  | unsubRawData connectKey mountPoint userName type => exact h.unsubRawData hstep
  | pubRawData connectKey mountPoint userName data type =>
    rw [step_pubRawData h.decoders] at hstep
    cases hstep
    exact h.pubRawData

theorem Traces.exec {calls : List (Call A)} {es : List (Event A)} (h : Traces before s)
    (hrun : (machine A geo faults).exec s calls = some (t, es)) : Traces (before ++ calls) t := by
  induction calls generalizing before s es with
  | nil =>
    cases hrun
    rwa [List.append_nil]
  | cons call calls ih =>
    obtain ⟨u, es₁, es₂, hstep, hexec, rfl⟩ := Machine.step_of_exec_cons hrun
    rw [← List.singleton_append, ← List.append_assoc]
    exact ih (h.step hstep) hexec

theorem delivered_iff (h : Traces before s) (userName : String) (data : Bytes) :
    Delivered before userName data (deliveries s userName data) ↔
      ∀ key, Subscribed before userName key ↔
        (∃ call ∈ before, call.mounts userName) ∧ Entered before (roverChannel userName) key := by
  have hdata : ∀ e ∈ deliveries s userName data, e.data = data := by
    intro e he
    unfold deliveries at he
    split at he
    · exact data_callback _ _ _ e he
    · cases he
  have hcount : ∀ key, (deliveries s userName data).countP (·.connectKey = key) =
      if roverChannel userName ∈ s.channels ∧
        (s.caster.sub .rover (roverChannel userName) key).isSome then 1
      else 0 := by
    intro key
    unfold deliveries
    by_cases hchannel : roverChannel userName ∈ s.channels
    · rw [if_pos hchannel, countP_callback]
      simp [hchannel]
    · rw [if_neg hchannel, if_neg fun hc ↦ hchannel hc.1]
      rfl
  refine (and_iff_right hdata).trans (forall_congr' fun key ↦ ?_)
  have hreach := and_congr ((h.channels userName).trans (h.rows userName))
    (h.entered (roverChannel userName) key)
  rw [hcount, ← hreach]
  split
  · next hsent =>
    constructor
    · intro hc
      exact iff_of_true (by_contra fun hsub ↦ one_ne_zero (hc.2 hsub)) hsent
    · exact fun heq ↦ ⟨fun _ ↦ rfl, fun hsub ↦ absurd (heq.mpr hsent) hsub⟩
  · next hsent =>
    constructor
    · intro hc
      exact iff_of_false (fun hsub ↦ zero_ne_one (hc.1 hsub)) hsent
    · exact fun heq ↦ ⟨fun hsub ↦ absurd (heq.mp hsub) hsent, fun _ ↦ rfl⟩

theorem right_iff {call : Call A} (h : Traces before s) :
    (∃ t es, step geo faults s call = some (t, es) ∧ Right before t es call) ↔
      Agrees faults before call := by
  cases call with
  | subRawData connectKey mountPoint userName arg type groupUid =>
    cases faults with
    | false => exact iff_of_true ⟨_, _, rfl, trivial⟩ rfl
    | true => exact iff_of_false (by rintro ⟨_, _, hstep, -⟩; cases hstep) nofun
  | unsubRawData connectKey mountPoint userName type =>
    obtain ⟨hsub, -, -⟩ := unsubRawData_caster (P := P) connectKey mountPoint userName type s.caster
    let e : Effect A P := unsubRawData connectKey mountPoint userName type s.caster
    have hgone : e.caster.sub .rover mountPoint connectKey = none ↔
        mountPoint = userName ∨ ¬ Entered before mountPoint connectKey := by
      rw [← Option.not_isSome_iff_eq_none, hsub, h.entered, not_and_or, not_not, or_comm, eq_comm]
      exact or_congr_left (and_iff_left rfl)
    have hstep : step geo faults s (.unsubRawData connectKey mountPoint userName type) =
        some ({ s with caster := e.caster }, []) :=
      congrArg some (apply_unsubRawData connectKey mountPoint userName type s)
    rw [hstep]
    refine Iff.trans ?_ (imp_congr_right fun _ ↦ hgone)
    constructor
    · rintro ⟨t, es, heq, hright⟩
      cases heq
      exact hright
    · exact fun hright ↦ ⟨_, _, rfl, hright⟩
  | pubRawData connectKey mountPoint userName data type =>
    rw [step_pubRawData h.decoders]
    refine Iff.trans ?_ (delivered_iff h userName data)
    constructor
    · rintro ⟨t, es, heq, hright⟩
      cases heq
      exact hright
    · exact fun hright ↦ ⟨_, _, rfl, hright⟩

theorem exec_of_agrees (geo : Geometry P)
    (h : ∀ before call after, calls = before ++ call :: after → Agrees faults before call) :
    ∃ s es, (machine A geo faults).exec {} calls = some (s, es) := by
  induction calls using List.reverseRecOn with
  | nil => exact ⟨_, _, rfl⟩
  | append_singleton before call ih =>
    have hstart : ∀ earlier call' after, before = earlier ++ call' :: after →
        Agrees faults earlier call' := by
      rintro earlier call' after rfl
      exact h earlier call' (after ++ [call]) (by simp)
    obtain ⟨s, es, hrun⟩ := ih hstart
    have hagrees : Agrees faults before call := h before call [] rfl
    obtain ⟨t, es', hstep, -⟩ : ∃ t es', step geo faults s call = some (t, es') ∧
        Right before t es' call :=
      (right_iff (traces_nil.exec hrun)).mpr hagrees
    have hlast : (machine A geo faults).exec s [call] = some (t, es') := by
      rw [Machine.exec_cons]
      change (step geo faults s call).bind _ = _
      rw [hstep]
      exact congrArg (fun l ↦ some (t, l)) (List.append_nil es')
    refine ⟨t, es ++ es', ?_⟩
    rw [Machine.exec_append, hrun]
    dsimp only [Option.bind]
    rw [hlast]
    rfl

/-- Every message reaches those who are subscribed to its user, and each removal undoes its
subscription, just when the names of the calls agree. -/
theorem delivers_iff (geo : Geometry P) (faults : Bool) (calls : List (Call A)) :
    Delivers geo faults calls ↔ ∀ before call after, calls = before ++ call :: after →
      Agrees faults before call := by
  constructor
  · intro h before call after heq
    obtain ⟨s, es, t, es', hrun, hstep, hright⟩ := h before call after heq
    exact (right_iff (traces_nil.exec hrun)).mp ⟨t, es', hstep, hright⟩
  · rintro h before call after rfl
    have hstart : ∀ earlier call' rest, before = earlier ++ call' :: rest →
        Agrees faults earlier call' := by
      rintro earlier call' rest rfl
      exact h earlier call' (rest ++ call :: after) (by simp)
    obtain ⟨s, es, hrun⟩ := exec_of_agrees geo hstart
    obtain ⟨t, es', hstep, hright⟩ :=
      (right_iff (traces_nil.exec hrun)).mpr (h before call after rfl)
    exact ⟨s, es, t, es', hrun, hstep, hright⟩

/-- The server names the user as its mount point also, and a message for the user does not reach
it. -/
theorem not_delivers_published :
    ¬ ∀ (geo : Geometry Unit) (faults : Bool) (calls : List (Call Unit)),
    Delivers geo faults calls := by
  intro h
  let subscription : Call Unit := .subRawData "k" "u" "u" () .server "g"
  let geo : Geometry Unit :=
    { ecef2pos := fun _ ↦ (), atOrigin := fun _ ↦ false, moved := fun _ _ ↦ false }
  obtain ⟨s, es, t, es', hrun, hstep, hright⟩ :=
    h geo false [subscription, .pubRawData "r" "m" "u" [] .client] [subscription] _ [] rfl
  have hagrees := (right_iff (traces_nil.exec hrun)).mp ⟨t, es', hstep, hright⟩
  have hsubscribed : Subscribed [subscription] "u" "k" :=
    (Since.concat (l := []) subscription).mpr (.inl ⟨rfl, rfl⟩)
  rcases (entered_concat subscription _ _).mp
    ((hagrees "k").mp hsubscribed).2 with henters | ⟨hbefore, -⟩
  · exact absurd henters.1 (by decide)
  · exact Since.nil hbefore

end NavCaster.Core.Rover
