import NavCaster.Core.Access
import NavCaster.Library.Machine

namespace NavCaster.Core.PolicyRefresh

open NavCaster.Library
open NavCaster.Core.Access

/-- The hashes `ACCESS:GROUP` and `ACCESS:ITEM:<gid>`, each value as it is decoded: `none` where
`fromString` fails, and otherwise the uid or the mount point that it names. -/
structure Stored where
  groups : List (Option (String × AccessGroup))
  items : String → List (Option (String × AccessItem))

inductive Request
  | group
  | item (groupUid : String)
  deriving DecidableEq

/-- The policy that the node works with, and the requests in the order of their answers. -/
structure State where
  accessGroupMap : Table String AccessGroup := ∅
  accessItemMap : Table String (Table String AccessItem) := ∅
  queue : List Request := []

/-- The first of several values for one key stays, as `unordered_map::insert` has it. -/
def insertAll {V : Type} (reply : List (Option (String × V))) : Table String V :=
  (reply.filterMap id).foldl (fun t e ↦ Table.insertNew t e.1 e.2) ∅

def groupUids (reply : List (Option (String × AccessGroup))) : List String :=
  (reply.filterMap id).map Prod.fst

def redisUpdateAccessGroupCallback (reply : Option (List (Option (String × AccessGroup))))
    (s : State) : State :=
  match reply with
  | none => s
  | some reply =>
    { accessGroupMap := insertAll reply
      accessItemMap := ∅
      queue := s.queue ++ (groupUids reply).map .item }

def redisUpdateAccessItemCallback (groupUid : String)
    (reply : Option (List (Option (String × AccessItem)))) (s : State) : State :=
  match reply with
  | none => s
  | some reply =>
    { s with accessItemMap := Table.assign s.accessItemMap groupUid (insertAll reply) }

/-- The timer and the notifications start a refresh; the requests are answered in their order. -/
inductive Action
  | refresh
  | deliver

/-- The store keeps its policy. -/
def step (stored : Stored) (s : State) : Action → Option (State × List Unit)
  | .refresh => some ({ s with queue := s.queue ++ [.group] }, [])
  | .deliver =>
    match s.queue with
    | [] => none
    | .group :: queue =>
      some (redisUpdateAccessGroupCallback (some stored.groups) { s with queue }, [])
    | .item groupUid :: queue =>
      some (redisUpdateAccessItemCallback groupUid (some (stored.items groupUid)) { s with queue },
        [])

def refreshMachine (stored : Stored) : Machine State Action Unit := ⟨step stored⟩

def loaded (stored : Stored) (k : Nat) : Table String (Table String AccessItem) :=
  ((groupUids stored.groups).take k).foldl
    (fun t groupUid ↦ Table.assign t groupUid (insertAll (stored.items groupUid))) ∅

def size (stored : Stored) : Nat := (groupUids stored.groups).length

def Complete (stored : Stored) (s : State) : Prop :=
  s.accessGroupMap = insertAll stored.groups ∧ s.accessItemMap = loaded stored (size stored)

def decisions (groups : Table String AccessGroup) (items : Table String (Table String AccessItem))
    (records decodes : Table String String) (groupUid mountPoint : String) : Bool × Bool × Bool :=
  let p : AccessPolicy := {
    accessGroupMap := groups
    accessItemMap := items
    sourceRecordMap := records
    sourceDecodeMap := decodes }
  ((p.checkMountVisible groupUid mountPoint).isNone,
    (p.checkMountAccess groupUid mountPoint).isNone,
    (p.checkMountNearby groupUid mountPoint).isNone)

def Agrees (stored : Stored) (s : State) : Prop :=
  ∀ records decodes groupUid mountPoint,
    decisions s.accessGroupMap s.accessItemMap records decodes groupUid mountPoint =
      decisions (insertAll stored.groups) (loaded stored (size stored)) records decodes groupUid
        mountPoint

/-- Wherever the item tables are cut off, the ones that are missing change no decision. -/
def Immaterial (stored : Stored) : Prop :=
  ∀ k records decodes groupUid mountPoint,
    decisions (insertAll stored.groups) (loaded stored k) records decodes groupUid mountPoint =
      decisions (insertAll stored.groups) (loaded stored (size stored)) records decodes groupUid
        mountPoint

section

variable {stored : Stored} {k : Nat} {groupUid : String} {rest : List String}

theorem lookup_foldl_assign (l : List String) (t : Table String (Table String AccessItem)) :
    (l.foldl (fun t groupUid ↦ Table.assign t groupUid (insertAll (stored.items groupUid)))
      t).lookup
        groupUid =
      if groupUid ∈ l then some (insertAll (stored.items groupUid)) else t.lookup groupUid := by
  induction l generalizing t with
  | nil => rfl
  | cons a l ih =>
    rw [List.foldl_cons, ih, Table.lookup_assign]
    by_cases hl : groupUid ∈ l
    · rw [if_pos hl, if_pos (.tail a hl)]
    · rw [if_neg hl]
      by_cases ha : groupUid = a
      · subst ha
        rw [if_pos rfl, if_pos (List.mem_cons_self ..)]
      · rw [if_neg ha, if_neg]
        simp [ha, hl]

theorem loaded_succ (h : (groupUids stored.groups).drop k = groupUid :: rest) :
    loaded stored (k + 1) =
      Table.assign (loaded stored k) groupUid (insertAll (stored.items groupUid)) := by
  have hk : (groupUids stored.groups)[k]? = some groupUid := by
    rw [← List.head?_drop, h, List.head?_cons]
  unfold loaded
  rw [List.take_add_one, hk, Option.toList_some, List.foldl_append]
  rfl

theorem assign_loaded (h : groupUid ∈ groupUids stored.groups) :
    Table.assign (loaded stored (size stored)) groupUid (insertAll (stored.items groupUid)) =
      loaded stored (size stored) := by
  refine Table.assign_self ?_
  unfold loaded
  rw [lookup_foldl_assign, if_pos]
  rw [size, List.take_length]
  exact h

theorem loaded_of_le (h : size stored ≤ k) : loaded stored k = loaded stored (size stored) := by
  unfold loaded
  rw [List.take_of_length_le h, size, List.take_length]

inductive Blocks (uids : List String) : List Request → Prop
  | nil : Blocks uids []
  | group {q : List Request} : Blocks uids q → Blocks uids (.group :: q)
  | block {q : List Request} : Blocks uids q → Blocks uids (uids.map .item ++ q)

theorem Blocks.append {uids : List String} {q q' : List Request} (h : Blocks uids q)
    (h' : Blocks uids q') : Blocks uids (q ++ q') := by
  induction h with
  | nil => exact h'
  | group _ ih => exact .group ih
  | block _ ih => rw [List.append_assoc]; exact .block ih

theorem blocks_of_groups {uids : List String} {q : List Request} (h : ∀ r ∈ q, r = .group) :
    Blocks uids q := by
  induction q with
  | nil => exact .nil
  | cons r q ih =>
    rw [h r (List.mem_cons_self ..)]
    exact .group (ih fun r hr ↦ h r (.tail _ hr))

theorem Blocks.head {uids : List String} {r : Request} {q : List Request}
    (h : Blocks uids (r :: q)) : (r = .group ∧ Blocks uids q) ∨
      ∃ g gs q', uids = g :: gs ∧ r = .item g ∧ q = gs.map .item ++ q' ∧ Blocks uids q' := by
  generalize hq : r :: q = q₀ at h
  induction h with
  | nil => cases hq
  | group h _ => cases hq; exact .inl ⟨rfl, h⟩
  | @block q' h ih =>
    cases huids : uids with
    | nil =>
      rw [huids] at hq ih
      exact (ih hq).imp id fun ⟨g, gs, _, he, _⟩ ↦ (by cases he)
    | cons g gs =>
      rw [huids] at hq h
      cases hq
      exact .inr ⟨g, gs, q', rfl, rfl, rfl, h⟩

structure Booting (s : State) : Prop where
  groups : s.accessGroupMap = ∅
  items : s.accessItemMap = ∅
  queue : ∀ r ∈ s.queue, r = .group

structure Running (stored : Stored) (s : State) : Prop where
  groups : s.accessGroupMap = insertAll stored.groups
  items : ∃ k rest, Blocks (groupUids stored.groups) rest ∧
    s.queue = ((groupUids stored.groups).drop k).map .item ++ rest ∧
    (s.accessItemMap = loaded stored k ∨ s.accessItemMap = loaded stored (size stored) ∨
      (size stored ≤ k ∧ s.accessItemMap = ∅))

theorem assign_next (h : (groupUids stored.groups).drop k = groupUid :: rest)
    {m : Table String (Table String AccessItem)}
    (hm : m = loaded stored k ∨ m = loaded stored (size stored)) :
    Table.assign m groupUid (insertAll (stored.items groupUid)) = loaded stored (k + 1) ∨
      Table.assign m groupUid (insertAll (stored.items groupUid)) =
        loaded stored (size stored) := by
  obtain rfl | rfl := hm
  · exact .inl (loaded_succ h).symm
  · refine .inr (assign_loaded (List.mem_of_mem_drop (i := k) ?_))
    rw [h]
    exact List.mem_cons_self ..

theorem drop_succ (h : (groupUids stored.groups).drop k = groupUid :: rest) :
    (groupUids stored.groups).drop (k + 1) = rest := by
  rw [← List.drop_drop, h, List.drop_one, List.tail_cons]

end

variable {stored : Stored} {s t : State}

theorem running_refresh (h : Running stored s) :
    Running stored { s with queue := s.queue ++ [.group] } := by
  obtain ⟨hg, k, rest, hb, hq, hi⟩ := h
  refine ⟨hg, k, rest ++ [.group], hb.append (.group .nil), ?_, hi⟩
  change s.queue ++ _ = _
  rw [hq, List.append_assoc]

theorem running_group {q : List Request} (hb : Blocks (groupUids stored.groups) q) :
    Running stored (redisUpdateAccessGroupCallback (some stored.groups) { s with queue := q }) := by
  refine ⟨rfl, size stored, q ++ (groupUids stored.groups).map .item, hb.append ?_, ?_,
    .inr (.inr ⟨Nat.le_refl _, rfl⟩)⟩
  · have h := Blocks.block (@Blocks.nil (groupUids stored.groups))
    rwa [List.append_nil] at h
  · rw [size, List.drop_length]
    rfl

theorem running_item {k : Nat} {groupUid : String} {rest : List String} {q : List Request}
    (hg : s.accessGroupMap = insertAll stored.groups)
    (hd : (groupUids stored.groups).drop k = groupUid :: rest)
    (hb : Blocks (groupUids stored.groups) q)
    (hi : s.accessItemMap = loaded stored k ∨ s.accessItemMap = loaded stored (size stored)) :
    Running stored (redisUpdateAccessItemCallback groupUid (some (stored.items groupUid))
      { s with queue := rest.map .item ++ q }) := by
  refine ⟨hg, k + 1, q, hb, ?_, (assign_next hd hi).imp_right .inl⟩
  rw [drop_succ hd]
  rfl

theorem running_deliver (h : Running stored s) {es : List Unit}
    (hst : (refreshMachine stored).step s .deliver = some (t, es)) : Running stored t := by
  obtain ⟨hg, k, rest, hb, hq, hi⟩ := h
  change step stored s .deliver = some (t, es) at hst
  rw [step] at hst
  cases hd : (groupUids stored.groups).drop k with
  | cons g gs =>
    have hlt : k < size stored := by
      by_contra hle
      rw [List.drop_eq_nil_of_le (Nat.not_lt.mp hle)] at hd
      cases hd
    rw [hd, List.map_cons, List.cons_append] at hq
    rw [hq] at hst
    cases hst
    exact running_item hg hd hb (hi.imp_right fun h ↦ h.resolve_right fun hc ↦ by omega)
  | nil =>
    have hle : size stored ≤ k := List.drop_eq_nil_iff.mp hd
    rw [hd, List.map_nil, List.nil_append] at hq
    rw [hq] at hst
    rw [loaded_of_le hle] at hi
    cases rest with
    | nil => cases hst
    | cons r q =>
      obtain ⟨rfl, hq'⟩ | ⟨g, gs, q', huids, rfl, rfl, hq'⟩ := hb.head
      · cases hst
        exact running_group hq'
      · cases hst
        have h0 : (groupUids stored.groups).drop 0 = g :: gs := huids
        refine running_item hg h0 hq' ?_
        obtain h | h | ⟨-, h⟩ := hi
        · exact .inr h
        · exact .inr h
        · exact .inl h

def Phase (stored : Stored) (s : State) : Prop := Booting s ∨ Running stored s

theorem phase_step {a : Action} {es : List Unit} (h : Phase stored s)
    (hst : (refreshMachine stored).step s a = some (t, es)) : Phase stored t := by
  cases a with
  | refresh =>
    cases hst
    refine h.imp (fun h ↦ ⟨h.groups, h.items, fun r hr ↦ ?_⟩) running_refresh
    exact (List.mem_append.mp hr).elim (h.queue r) List.mem_singleton.mp
  | deliver =>
    obtain h | h := h
    · refine .inr ?_
      change step stored s .deliver = some (t, es) at hst
      rw [step] at hst
      have hq := h.queue
      cases hs : s.queue with
      | nil => rw [hs] at hst; cases hst
      | cons r q =>
        rw [hs] at hst hq
        cases hq r (List.mem_cons_self ..)
        cases hst
        exact running_group (blocks_of_groups fun r hr ↦ hq r (.tail _ hr))
    · exact .inr (running_deliver h hst)

theorem phase_run (h : (refreshMachine stored).Reachable s t) (hs : Phase stored s) :
    Phase stored t :=
  h.invariant hs fun _ _ _ _ hi _ hst ↦ phase_step hi hst

theorem phase_boot : Phase stored {} := .inl ⟨rfl, rfl, fun _ hr ↦ by cases hr⟩

theorem running_of_complete (h : Phase stored s) (hc : Complete stored s) : Running stored s := by
  obtain h | h := h
  · exact ⟨hc.1, size stored, s.queue,
      blocks_of_groups h.queue, by rw [size, List.drop_length]; rfl, .inr (.inl hc.2)⟩
  · exact h

theorem running_run (h : (refreshMachine stored).Reachable s t) (hs : Running stored s) :
    Running stored t := by
  refine h.invariant hs fun u a v es hi _ hst ↦ ?_
  cases a with
  | refresh => cases hst; exact running_refresh hi
  | deliver => exact running_deliver hi hst

theorem agrees_of_running (h : Running stored s) (hm : Immaterial stored) : Agrees stored s := by
  obtain ⟨hg, k, _, -, -, hi⟩ := h
  intro records decodes groupUid mountPoint
  rw [hg]
  obtain h | h | ⟨-, h⟩ := hi
  · rw [h]
    exact hm k records decodes groupUid mountPoint
  · rw [h]
  · rw [h]
    exact hm 0 records decodes groupUid mountPoint

def loading (stored : Stored) (k : Nat) : State where
  accessGroupMap := insertAll stored.groups
  accessItemMap := loaded stored k
  queue := ((groupUids stored.groups).drop k).map .item

theorem reach_loading_zero (h : s.queue = []) :
    (refreshMachine stored).Reachable s (loading stored 0) := by
  have h₁ : (refreshMachine stored).step s .refresh = some ({ s with queue := [.group] }, []) := by
    change some (({ s with queue := s.queue ++ [.group] } : State), []) = _
    rw [h]
    rfl
  exact (Machine.Reach.refl.tail trivial h₁).tail (a := .deliver) trivial rfl

theorem step_loading {k : Nat} (h : k < size stored) :
    (refreshMachine stored).step (loading stored k) .deliver =
      some (loading stored (k + 1), []) := by
  have hd : (groupUids stored.groups).drop k = _ := List.drop_eq_getElem_cons h
  change step stored (loading stored k) .deliver = _
  unfold step loading
  rw [hd, drop_succ hd, loaded_succ hd]
  rfl

theorem reach_loading (k : Nat) (h : k ≤ size stored) :
    (refreshMachine stored).Reachable (loading stored 0) (loading stored k) := by
  induction k with
  | zero => exact .refl
  | succ k ih => exact (ih (by omega)).tail trivial (step_loading (by omega))

theorem reach_complete : (refreshMachine stored).Reachable {} (loading stored (size stored)) :=
  (reach_loading_zero rfl).trans (reach_loading _ (Nat.le_refl _))

/-- After a complete load, any state of a further load can come. -/
theorem reach_again {k : Nat} (h : k ≤ size stored) :
    (refreshMachine stored).Reachable (loading stored (size stored)) (loading stored k) := by
  refine Machine.Reach.trans (reach_loading_zero ?_) (reach_loading k h)
  change List.map _ (List.drop (size stored) _) = _
  rw [size, List.drop_length, List.map_nil]

/-- The refreshes of an unchanged policy never show in a decision if and only if it makes no
difference which item tables are missing. -/
theorem policy_refresh (stored : Stored) :
    (∀ s t, (refreshMachine stored).Reachable {} s → Complete stored s →
      (refreshMachine stored).Reachable s t → Agrees stored t) ↔ Immaterial stored := by
  constructor
  · intro h k records decodes groupUid mountPoint
    rcases Nat.le_total k (size stored) with hk | hk
    · exact h _ _ reach_complete ⟨rfl, rfl⟩ (reach_again hk) records decodes groupUid mountPoint
    · rw [loaded_of_le hk]
  · intro hm s t hs hc ht
    exact agrees_of_running (running_run ht (running_of_complete (phase_run hs phase_boot) hc)) hm

def closing : Stored where
  groups := [some ("g", {})]
  items _ := [some ("m", { allowAccess := .disable })]

/-- Between the two callbacks of a refresh the mount is open. -/
theorem not_policy_refresh : ¬ ∀ stored s t, (refreshMachine stored).Reachable {} s →
    Complete stored s → (refreshMachine stored).Reachable s t → Agrees stored t := by
  intro h
  have ha := h closing _ _ reach_complete ⟨rfl, rfl⟩ (reach_again (Nat.zero_le _)) ∅ ∅ "g" "m"
  exact absurd ha (by decide +kernel)

end NavCaster.Core.PolicyRefresh
