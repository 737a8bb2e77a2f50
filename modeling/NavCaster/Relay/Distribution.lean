import NavCaster.Library.Loop
import NavCaster.Relay.Node

namespace NavCaster.Relay.Distribution

open NavCaster.Library
open NavCaster.Core.Message
open NavCaster.Relay.Record
open NavCaster.Relay.Node

variable (k : RelayKind) (t : RelayTables)

def enabledRecord (f : String) : Option RelayRecord :=
  (t.recordMap.lookup f).filter RelayRecord.isEnabled

def task (f : String) : Option RelayMsg :=
  match enabledRecord t f, t.statusMap.lookup f with
  | some r, none => some (taskMsg k .active f (.record r.toString) k.activeReason)
  | some r, some s =>
    if t.recordDistributed.lookup f = some r.toString then none
    else some (taskMsg k .inactive f (.status s) k.changedReason)
  | none, some s => some (taskMsg k .inactive f (.status s) k.inactiveReason)
  | none, none => none

def distributedText (d : Distribution) (f : String) : Option RecordText := d.1.lookup f

def recordText (e : String × RelayRecord) (b : Option RecordText) : Option RecordText :=
  match t.statusMap.lookup e.1, e.2.isEnabled with
  | none, true => some e.2.toString
  | some _, true => if b = some e.2.toString then b else none
  | _, false => b

def recordMsg (e : String × RelayRecord) (b : Option RecordText) : Option RelayMsg :=
  match t.statusMap.lookup e.1, e.2.isEnabled with
  | none, true => some (taskMsg k .active e.1 (.record e.2.toString) k.activeReason)
  | some s, true =>
    if b = some e.2.toString then none
    else some (taskMsg k .inactive e.1 (.status s) k.changedReason)
  | _, false => none

def statusText (e : String × RelayStatus) (b : Option RecordText) : Option RecordText :=
  if (t.recordMap.lookup e.1).any RelayRecord.isEnabled then b else none

def statusMsg (e : String × RelayStatus) (_ : Option RecordText) : Option RelayMsg :=
  if (t.recordMap.lookup e.1).any RelayRecord.isEnabled then none
  else some (taskMsg k .inactive e.1 (.status e.2) k.inactiveReason)

theorem distributeRecord_local :
    Local (fun _ ↦ True) distributedText (distributeRecord k t.statusMap) (recordText t) where
  own_key d e _ := by
    unfold distributeRecord recordText distributedText
    cases t.statusMap.lookup e.1 with
    | none => cases e.2.isEnabled <;> simp
    | some s =>
      cases e.2.isEnabled with
      | false => rfl
      | true => dsimp only; split <;> simp
  other d e a _ ha := by
    unfold distributeRecord distributedText
    cases t.statusMap.lookup e.1 with
    | none => cases e.2.isEnabled <;> simp [AList.lookup_insert_ne ha]
    | some s =>
      cases e.2.isEnabled with
      | false => rfl
      | true => dsimp only; split <;> simp [AList.lookup_erase_ne ha]

theorem distributeStatus_local :
    Local (fun _ ↦ True) distributedText (distributeStatus k t.recordMap) (statusText t) where
  own_key d e _ := by
    unfold distributeStatus statusText distributedText
    split <;> simp
  other d e a _ ha := by
    unfold distributeStatus distributedText
    split <;> simp [AList.lookup_erase_ne ha]

theorem distributeRecord_msgs (d : Distribution) (e : String × RelayRecord) :
    (distributeRecord k t.statusMap d e).2 =
      d.2 ++ (recordMsg k t e (distributedText d e.1)).toList := by
  unfold distributeRecord recordMsg distributedText
  cases t.statusMap.lookup e.1 with
  | none => cases e.2.isEnabled <;> simp
  | some s =>
    cases e.2.isEnabled with
    | false => simp
    | true => dsimp only; split <;> simp

theorem distributeStatus_msgs (d : Distribution) (e : String × RelayStatus) :
    (distributeStatus k t.recordMap d e).2 =
      d.2 ++ (statusMsg k t e (distributedText d e.1)).toList := by
  unfold distributeStatus statusMsg
  split <;> simp

def taskOrder : List String :=
  ((Table.toPairs t.recordMap).filter fun e ↦ e.2.isEnabled).map Prod.fst ++
    ((Table.toPairs t.statusMap).filter fun e ↦
      !(t.recordMap.lookup e.1).any RelayRecord.isEnabled).map Prod.fst

theorem enabledRecord_eq_some {f : String} {r : RelayRecord} :
    enabledRecord t f = some r ↔ t.recordMap.lookup f = some r ∧ r.isEnabled = true :=
  Option.filter_eq_some_iff

theorem enabledRecord_eq_none {f : String} :
    enabledRecord t f = none ↔ (t.recordMap.lookup f).any RelayRecord.isEnabled = false := by
  unfold enabledRecord
  cases t.recordMap.lookup f with
  | none => simp
  | some r => cases h : r.isEnabled <;> simp [Option.filter, h]

theorem mem_taskOrder {f : String} : f ∈ taskOrder t ↔
    (∃ r, enabledRecord t f = some r) ∨ enabledRecord t f = none ∧ f ∈ t.statusMap := by
  simp only [taskOrder, List.mem_append, List.mem_map, List.mem_filter, Prod.exists,
    exists_and_right, exists_eq_right, Table.mem_toPairs, enabledRecord_eq_some,
    enabledRecord_eq_none, Bool.not_eq_true', Table.mem_iff_lookup]
  exact or_congr Iff.rfl and_comm

theorem taskOrder_nodup : (taskOrder t).Nodup := by
  refine List.nodup_append.mpr ⟨?_, ?_, ?_⟩
  · exact (List.filter_sublist.map _).nodup (Table.toPairs_nodup _)
  · exact (List.filter_sublist.map _).nodup (Table.toPairs_nodup _)
  · intro f hf g hg hfg
    subst hfg
    obtain ⟨⟨_, r⟩, hr, rfl⟩ := List.mem_map.mp hf
    obtain ⟨⟨_, s⟩, hs, rfl⟩ := List.mem_map.mp hg
    obtain ⟨hr, he⟩ := List.mem_filter.mp hr
    have hn := (List.mem_filter.mp hs).2
    rw [Table.mem_toPairs.mp hr, Option.any_some, he] at hn
    cases hn

theorem mem_taskOrder_of_task {f : String} (h : task k t f ≠ none) : f ∈ taskOrder t := by
  rw [mem_taskOrder]
  unfold task at h
  cases he : enabledRecord t f with
  | some r => exact .inl ⟨r, rfl⟩
  | none =>
    cases hs : t.statusMap.lookup f with
    | none => rw [he, hs] at h; exact absurd rfl h
    | some s => exact .inr ⟨rfl, Table.mem_of_lookup hs⟩

theorem distribute_msgs : (distribute k t).2 = (taskOrder t).filterMap (task k t) := by
  unfold distribute
  rw [(distributeStatus_local k t).foldl_emit (fun _ _ ↦ trivial)
      (fun d e _ ↦ distributeStatus_msgs k t d e) (Table.toPairs_nodup _),
    (distributeRecord_local k t).foldl_emit (fun _ _ ↦ trivial)
      (fun d e _ ↦ distributeRecord_msgs k t d e) (Table.toPairs_nodup _),
    List.nil_append, taskOrder, List.filterMap_append, List.filterMap_map, List.filterMap_filter,
    List.filterMap_map, List.filterMap_filter]
  congr 1
  · refine List.filterMap_congr fun e he ↦ ?_
    have hr : t.recordMap.lookup e.1 = some e.2 := Table.mem_toPairs.mp he
    unfold recordMsg distributedText
    cases hen : e.2.isEnabled with
    | false => cases t.statusMap.lookup e.1 <;> rfl
    | true =>
      have her := (enabledRecord_eq_some t).mpr ⟨hr, hen⟩
      simp only [if_true, Function.comp, task, her]
      cases t.statusMap.lookup e.1 <;> rfl
  · refine List.filterMap_congr fun e he ↦ ?_
    have hs : t.statusMap.lookup e.1 = some e.2 := Table.mem_toPairs.mp he
    unfold statusMsg
    cases hen : (t.recordMap.lookup e.1).any RelayRecord.isEnabled with
    | true => rfl
    | false =>
      simp only [Bool.false_eq_true, if_false, Bool.not_false, if_true, Function.comp, task,
        (enabledRecord_eq_none t).mpr hen, hs]

theorem distribute_lookup (f : String) : (distribute k t).1.lookup f = match task k t f with
    | none => t.recordDistributed.lookup f
    | some msg => if msg.operate = .active then (enabledRecord t f).map RelayRecord.toString
      else none := by
  have h := (distributeStatus_local k t).foldl_toPairs t.statusMap (fun _ _ ↦ trivial)
    ((Table.toPairs t.recordMap).foldl (distributeRecord k t.statusMap) (t.recordDistributed, [])) f
  rw [(distributeRecord_local k t).foldl_toPairs t.recordMap fun _ _ ↦ trivial] at h
  refine h.trans ?_
  unfold task recordText statusText distributedText enabledRecord
  cases hr : t.recordMap.lookup f with
  | none => cases hs : t.statusMap.lookup f <;> simp [hr, taskMsg]
  | some r =>
    cases hs : t.statusMap.lookup f with
    | none => cases hen : r.isEnabled <;> simp [hs, hen, Option.filter, taskMsg]
    | some s =>
      cases hen : r.isEnabled with
      | false => simp [hr, hen, Option.filter, taskMsg]
      | true =>
        by_cases hd : t.recordDistributed.lookup f = some r.toString <;>
          simp [hr, hs, hen, hd, Option.filter, taskMsg]

end NavCaster.Relay.Distribution
