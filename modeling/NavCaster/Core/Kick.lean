import NavCaster.Core.Registration

namespace NavCaster.Core.Kick

open NavCaster.Library
open NavCaster.Core.Message
open NavCaster.Core.Connections
open NavCaster.Core.Registration

variable {A : Type} {cfg : Config}

/-- A connect key names one connection: nobody registers a key that is registered somewhere. -/
def FreshKey (s : System A) : Action A → Prop
  | .register _ _ _ item => ∀ n r row, (s.nodes n).registry.entry r row item.connectKey = none
  | _ => True

/-- No key is registered twice, and the kick index of a node has its rovers. -/
structure Indexed (s : System A) : Prop where
  unique : ∀ n n' r r' row row' key item item', (s.nodes n).registry.entry r row key = some item →
    (s.nodes n').registry.entry r' row' key = some item' → n = n' ∧ r = r' ∧ row = row'
  kick : ∀ n key item, (s.nodes n).registry.kickMap.lookup key = some item ↔
    ∃ row, (s.nodes n).registry.entry .rover row key = some item

theorem indexed_offline {s : System A} (h : s.Offline) : Indexed s := by
  constructor
  · intro n n' r r' row row' key item item' he
    rw [h n] at he
    cases he
  · intro n key item
    rw [h n]
    exact iff_of_false nofun fun ⟨row, he⟩ ↦ by cases he

theorem entry_step {s t : System A} {a : Action A} {es : List (Called A)}
    (hs : (registrationMachine cfg).step s a = some (t, es)) {m : String} {r : Role}
    {row key : String} {item : CbItem A} (h : (t.nodes m).registry.entry r row key = some item) :
    (s.nodes m).registry.entry r row key = some item ∨
      ∃ type item', a = .register m r type item' ∧ item'.connectKey = key ∧ r.row item' = row := by
  have hcase := registry_step hs m
  generalize (t.nodes m).registry = reg at hcase h
  cases hcase with
  | same _ _ hsame => exact .inl ((hsame.entry r row key).symm.trans h)
  | reset => cases h
  | entered r' type item' _ he =>
    rw [he.entry] at h
    split at h
    · next hk =>
      obtain ⟨rfl, rfl, rfl⟩ := hk
      exact .inr ⟨type, item', rfl, rfl, by cases r <;> rfl⟩
    · exact .inl h
  | withdrawn r' row' key' _ hw =>
    rw [hw.entry] at h
    split at h
    · cases h
    · exact .inl h

theorem unique_step {s t : System A} {a : Action A} {es : List (Called A)} (hi : Indexed s)
    (ha : FreshKey s a) (hs : (registrationMachine cfg).step s a = some (t, es))
    {n n' : String} {r r' : Role} {row row' key : String} {item item' : CbItem A}
    (h : (t.nodes n).registry.entry r row key = some item)
    (h' : (t.nodes n').registry.entry r' row' key = some item') : n = n' ∧ r = r' ∧ row = row' := by
  obtain hold | ⟨type, new, rfl, rfl, rfl⟩ := entry_step hs h
  · obtain hold' | ⟨type, new, rfl, rfl, rfl⟩ := entry_step hs h'
    · exact hi.unique _ _ _ _ _ _ _ _ _ hold hold'
    · rw [ha n r row] at hold
      cases hold
  · obtain hold' | ⟨type', new', heq, hkey, hrow⟩ := entry_step hs h'
    · rw [ha n' r' row'] at hold'
      cases hold'
    · cases heq
      exact ⟨rfl, rfl, hrow⟩

theorem indexed_step {s t : System A} {a : Action A} {es : List (Called A)} (hi : Indexed s)
    (ha : FreshKey s a) (hs : (registrationMachine cfg).step s a = some (t, es)) : Indexed t := by
  refine ⟨fun _ _ _ _ _ _ _ _ _ h h' ↦ unique_step hi ha hs h h', fun n key item ↦ ?_⟩
  have hcase := registry_step hs n
  generalize (t.nodes n).registry = reg at hcase
  cases hcase with
  | same _ _ hsame =>
    rw [hsame.kickMap, hi.kick]
    exact exists_congr fun row ↦ by rw [hsame.entry]
  | reset => exact iff_of_false nofun fun ⟨row, he⟩ ↦ by cases he
  | entered r type new _ he =>
    have hnone : ∀ row, (s.nodes n).registry.entry .rover row new.connectKey = none := ha n .rover
    rw [he.kickMap]
    cases r with
    | base =>
      change (s.nodes n).registry.kickMap.lookup key = some item ↔ _
      rw [hi.kick]
      exact exists_congr fun row ↦ by rw [he.entry]; simp
    | rover =>
      change ((s.nodes n).registry.kickMap.insert new.connectKey _).lookup key = some item ↔ _
      rw [Table.lookup_insert_if]
      by_cases hk : key = new.connectKey
      · subst hk
        rw [if_pos rfl]
        constructor
        · intro h
          refine ⟨new.userName, ?_⟩
          rw [he.entry, if_pos ⟨rfl, rfl, rfl⟩]
          exact h
        · rintro ⟨row, h⟩
          rw [he.entry] at h
          split at h
          · exact h
          · rw [hnone] at h; cases h
      · rw [if_neg hk, hi.kick]
        exact exists_congr fun row ↦ by rw [he.entry, if_neg fun h ↦ hk h.2.2]
  | withdrawn r row key' _ hw =>
    rw [hw.kickMap, Table.lookup_erase_if]
    by_cases hk : key = key'
    · subst hk
      rw [if_pos rfl]
      refine iff_of_false nofun fun ⟨row', h⟩ ↦ ?_
      rw [hw.entry] at h
      split at h
      · cases h
      · next hne =>
        obtain ⟨item', hp⟩ := Option.ne_none_iff_exists'.mp hw.present
        obtain ⟨-, hr, hrow⟩ := hi.unique _ _ _ _ _ _ _ _ _ h hp
        exact hne ⟨hr, hrow, rfl⟩
    · rw [if_neg hk, hi.kick]
      exact exists_congr fun row' ↦ by rw [hw.entry, if_neg fun h ↦ hk h.2.2]

/-- The answers of the nodes to the broadcast are one `ERR` to the callback of the key, at the node
where the key is registered. -/
def Kicks (s : System A) (key : String) (msg : BroadcastMsg String) : Prop :=
  ∃ n r row item, (s.nodes n).registry.entry r row key = some item ∧
    (broadcastResponse msg (s.nodes n).registry).2 = [⟨item.arg, .err, msg.reasonStr⟩] ∧
      ∀ m, m ≠ n → (broadcastResponse msg (s.nodes m).registry).2 = []

theorem broadcastResponse_kick {r : Role} {key : String} {msg : BroadcastMsg String}
    (hm : handleKick r key true = some msg) (reg : Registry A) :
    (broadcastResponse msg reg).2 =
      (reg.kickMap.lookup key).toList.map fun item ↦ ⟨item.arg, .err, msg.reasonStr⟩ := by
  unfold handleKick at hm
  split at hm
  · cases hm
  · next hne => cases hm; cases r <;> simp [broadcastResponse, broadcastMap, kickBroadcast,
      Role.operateType, hne]

theorem kicks_rover {s : System A} (hi : Indexed s) {r : Role} {key : String}
    {msg : BroadcastMsg String} (hm : handleKick r key true = some msg) {n row : String}
    {item : CbItem A} (h : (s.nodes n).registry.entry .rover row key = some item) :
    Kicks s key msg := by
  refine ⟨n, .rover, row, item, h, ?_, fun m hmn ↦ ?_⟩
  · rw [broadcastResponse_kick hm, (hi.kick n key item).mpr ⟨row, h⟩]
    rfl
  · rw [broadcastResponse_kick hm]
    cases hk : (s.nodes m).registry.kickMap.lookup key with
    | none => rfl
    | some item' =>
      obtain ⟨row', h'⟩ := (hi.kick m key item').mp hk
      exact absurd (hi.unique _ _ _ _ _ _ _ _ _ h' h).1 hmn

theorem rover_of_kicks {s : System A} (hi : Indexed s) {r r' : Role} {n row key : String}
    {item : CbItem A} (hreg : (s.nodes n).registry.entry r' row key = some item)
    {msg : BroadcastMsg String} (hm : handleKick r key true = some msg) (h : Kicks s key msg) :
    r' = .rover := by
  obtain ⟨n', _, _, _, _, hcall, -⟩ := h
  rw [broadcastResponse_kick hm] at hcall
  cases hk : (s.nodes n').registry.kickMap.lookup key with
  | none => rw [hk] at hcall; cases hcall
  | some item' =>
    obtain ⟨row', hrover⟩ := (hi.kick n' key item').mp hk
    exact (hi.unique _ _ _ _ _ _ _ _ _ hreg hrover).2.1

theorem indexed_run {s t : System A} (hs : s.Offline)
    (h : (registrationMachine cfg).Reach FreshKey s t) : Indexed t :=
  h.invariant (indexed_offline hs) fun _ _ _ _ hi ha hst ↦ indexed_step hi ha hst

/-- In every state of a run, the kick of a registered key reaches its connection, and no other, if
and only if the key is registered as a rover: a base is in no kick index. -/
theorem kick_reaches (cfg : Config) {s t : System A} (hs : s.Offline)
    (h : (registrationMachine cfg).Reach FreshKey s t) {r r' : Role} {n row key : String}
    {item : CbItem A} (hreg : (t.nodes n).registry.entry r' row key = some item)
    {msg : BroadcastMsg String} (hm : handleKick r key true = some msg) :
    Kicks t key msg ↔ r' = .rover :=
  ⟨rover_of_kicks (indexed_run hs h) hreg hm,
    fun hr ↦ kicks_rover (indexed_run hs h) hm (hr ▸ hreg)⟩

def connection : CbItem String where
  connectKey := "k"
  channel := "M"
  userName := "u"
  groupUid := "SYSTEM"
  arg := "session"

theorem exists_registered (r : Role) : ∃ t,
    (registrationMachine {}).Reach FreshKey ({} : System String) t ∧
      (t.nodes "A").registry.entry r (r.row connection) "k" = some connection := by
  have hstart : (registrationMachine {}).Reach FreshKey ({} : System String)
      (System.setNode {} "A" { live := true }) :=
        Machine.Reach.refl.tail (a := .start "A") trivial rfl
  have hfresh : FreshKey (System.setNode {} "A" { live := true })
      (.register "A" r .client connection) := by
    intro n r row
    rw [System.setNode_nodes]
    split <;> rfl
  exact ⟨_, hstart.tail hfresh rfl, by cases r <;> rfl⟩

theorem kick_reaches_rover : ∃ t, (registrationMachine {}).Reach FreshKey ({} : System String) t ∧
    Kicks t "k" (kickBroadcast .rover "k" "Force offline by administrator") := by
  obtain ⟨t, ht, hreg⟩ := exists_registered .rover
  exact ⟨t, ht, (kick_reaches {} (fun _ ↦ rfl) ht hreg (r := .rover) rfl).mpr rfl⟩

/-- The kick of a base is answered by nobody. -/
theorem not_kick_reaches : ¬ ∀ (t : System String) (r r' : Role) (n row key : String)
    (item : CbItem String) (msg : BroadcastMsg String),
    (registrationMachine {}).Reach FreshKey {} t →
    (t.nodes n).registry.entry r' row key = some item → handleKick r key true = some msg →
    Kicks t key msg := by
  intro h
  obtain ⟨t, ht, hreg⟩ := exists_registered .base
  have hkick := h t .base .base "A" _ "k" connection _ ht hreg rfl
  have hr : Role.base = .rover :=
    rover_of_kicks (indexed_run (fun _ ↦ rfl) ht) hreg (r := .base) rfl hkick
  cases hr

end NavCaster.Core.Kick
