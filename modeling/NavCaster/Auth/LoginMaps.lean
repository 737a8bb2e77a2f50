import NavCaster.Auth.Answers
import NavCaster.Library.Machine

namespace NavCaster.Auth.LoginMaps

open NavCaster.Library
open NavCaster.Library.Strto (Bytes)
open NavCaster.Library.Scan (ascii)
open NavCaster.Auth.Verify NavCaster.Auth.Answers

inductive RecordCall (A : Type)
  | login (ctx : AuthCtx Bytes A)
  | logout (userName connectKey : Bytes) (type : AuthType)

/-- The program, and beside it the user and the type of each login that has not been logged out. -/
structure State (A : Type) where
  logins : Logins Bytes A := {}
  live : Table Bytes (Bytes × AuthType) := ∅

variable {A : Type} (opt : AuthOpt)

def records : Machine (State A) (RecordCall A) (AuthCommand Bytes A) where
  step s
    | .login ctx =>
      let (logins, sent) := addLoginRecord opt ctx s.logins
      some ({ logins, live := s.live.insert ctx.connectKey (ctx.userName, ctx.type) }, sent)
    | .logout userName connectKey type =>
      let (_, logins, sent) := addLogoutRecord opt userName connectKey type s.logins
      some ({ logins, live := s.live.erase connectKey }, sent)

/-- A login has a connect key that is not live, and a logout of a live one its user and its type. -/
def Matched (s : State A) : RecordCall A → Prop
  | .login ctx => ctx.connectKey ∉ s.live
  | .logout userName connectKey type =>
    ∀ login, s.live.lookup connectKey = some login → login = (userName, type)

instance : ∀ (s : State A) (call : RecordCall A), Decidable (Matched s call)
  | s, .login ctx => inferInstanceAs (Decidable (ctx.connectKey ∉ s.live))
  | s, .logout userName connectKey type =>
    inferInstanceAs (Decidable (∀ login ∈ s.live.lookup connectKey, login = (userName, type)))

def Found (s : Logins Bytes A) (r : Realm) (connectKey : Bytes) : Prop :=
  ∃ userName, (s.entry r userName connectKey).isSome

structure Balanced (s : Logins Bytes A) : Prop where
  status : ∀ connectKey, connectKey ∈ s.registerStatusMap ↔
    Found s .registered connectKey ∨ Found s .unnamed connectKey
  disjoint : ∀ connectKey, ¬ (Found s .registered connectKey ∧ Found s .unnamed connectKey)

/-- What is entered is what is live, and each entry is under its own names. -/
structure Tracked (s : State A) : Prop where
  entry : ∀ r userName connectKey, (s.logins.entry r userName connectKey).isSome ↔
    ∃ type, s.live.lookup connectKey = some (userName, type) ∧ opt.realm type = r
  status : ∀ connectKey, connectKey ∈ s.logins.registerStatusMap ↔ connectKey ∈ s.live
  item : ∀ r userName connectKey item, s.logins.entry r userName connectKey = some item →
    item.userName = userName ∧ item.connectKey = connectKey

variable {opt} {s : State A} {logins : Logins Bytes A}

theorem entry_eq_bind (r : Realm) (userName connectKey : Bytes) :
    logins.entry r userName connectKey =
    ((logins.registerMap r).lookup userName).bind (AList.lookup connectKey) := rfl

theorem entry_addLogoutRecord (userName connectKey : Bytes) (type : AuthType) (r : Realm)
    (userName' connectKey' : Bytes) :
    (addLogoutRecord opt userName connectKey type logins).2.1.entry r userName' connectKey' =
      if r = opt.realm type ∧ userName' = userName ∧ connectKey' = connectKey then none
      else logins.entry r userName' connectKey' := by
  have hsame (hnone : logins.entry (opt.realm type) userName connectKey = none) :
      logins.entry r userName' connectKey' =
        if r = opt.realm type ∧ userName' = userName ∧ connectKey' = connectKey then none
        else logins.entry r userName' connectKey' := by
    split
    · next h =>
      obtain ⟨rfl, rfl, rfl⟩ := h
      exact hnone
    · rfl
  have hdrop : (logins.setRegisterMap (opt.realm type)
        (Table.drop (logins.registerMap (opt.realm type)) userName connectKey)).entry r userName'
          connectKey' =
      if r = opt.realm type ∧ userName' = userName ∧ connectKey' = connectKey then none
      else logins.entry r userName' connectKey' := by
    rw [entry_setRegisterMap, Table.entry_drop]
    by_cases hr : r = opt.realm type
    · subst hr
      simp only [if_true, true_and]
      rfl
    · simp only [hr, if_false, false_and]
  unfold addLogoutRecord
  dsimp only
  split
  · next hrow => exact hsame (by rw [entry_eq_bind, hrow, Option.bind_none])
  · next row hrow =>
    split
    · split <;> exact hdrop
    · next hkey =>
      apply hsame
      rw [entry_eq_bind, hrow, Option.bind_some, AList.lookup_eq_none]
      exact hkey

theorem mem_addLogoutRecord (userName connectKey : Bytes) (type : AuthType) (connectKey' : Bytes) :
    connectKey' ∈ (addLogoutRecord opt userName connectKey type logins).2.1.registerStatusMap ↔
      connectKey' ∈ logins.registerStatusMap ∧
        ¬ (connectKey' = connectKey ∧
          (logins.entry (opt.realm type) userName connectKey).isSome) := by
  unfold addLogoutRecord
  dsimp only
  split
  · next hrow =>
    rw [entry_eq_bind, hrow, Option.bind_none]
    simp
  · next row hrow =>
    rw [entry_eq_bind, hrow, Option.bind_some, AList.lookup_isSome]
    split
    · next hkey =>
      split
      · simp [hkey, AList.mem_erase, and_comm]
      · next hstatus =>
        simp only [hkey, and_true]
        exact ⟨fun h ↦ ⟨h, fun he ↦ hstatus (he ▸ h)⟩, And.left⟩
    · next hkey => simp [hkey]

theorem Tracked.login (h : Tracked opt s) (ctx : AuthCtx Bytes A) (hnew : ctx.connectKey ∉ s.live) :
    Tracked opt
      { logins := (addLoginRecord opt ctx s.logins).1
        live := s.live.insert ctx.connectKey (ctx.userName, ctx.type) } := by
  have hlookup := AList.lookup_eq_none.mpr hnew
  have hnone (r : Realm) (userName : Bytes) : s.logins.entry r userName ctx.connectKey = none := by
    rw [← Option.not_isSome_iff_eq_none, h.entry, hlookup]
    simp
  constructor
  · intro r userName connectKey
    dsimp only
    rw [entry_addLoginRecord, Table.lookup_insert_if]
    by_cases hkey : connectKey = ctx.connectKey
    · subst hkey
      rw [hnone, if_pos rfl]
      by_cases hr : r = opt.realm ctx.type ∧ userName = ctx.userName
      · obtain ⟨rfl, rfl⟩ := hr
        simp
      · rw [if_neg (by tauto)]
        simp only [Option.isSome_none, Bool.false_eq_true, Option.some.injEq, Prod.mk.injEq,
          false_iff]
        rintro ⟨type, ⟨rfl, rfl⟩, rfl⟩
        exact hr ⟨rfl, rfl⟩
    · rw [if_neg (by tauto), if_neg hkey]
      exact h.entry r userName connectKey
  · intro connectKey
    change connectKey ∈ Table.insertNew s.logins.registerStatusMap ctx.connectKey () ↔ _
    rw [Table.mem_insertNew, AList.mem_insert, h.status]
  · intro r userName connectKey item hitem
    dsimp only at hitem
    rw [entry_addLoginRecord] at hitem
    split at hitem
    · next he =>
      obtain rfl := Option.some.inj hitem
      exact ⟨he.2.1.symm, he.2.2.1.symm⟩
    · exact h.item r userName connectKey item hitem

theorem Tracked.logout (h : Tracked opt s) {userName connectKey : Bytes} {type : AuthType}
    (hmatch : ∀ login, s.live.lookup connectKey = some login → login = (userName, type)) :
    Tracked opt
      { logins := (addLogoutRecord opt userName connectKey type s.logins).2.1
        live := s.live.erase connectKey } := by
  -- a live connect key is entered where the logout looks for it
  have hentered : connectKey ∈ s.live →
      (s.logins.entry (opt.realm type) userName connectKey).isSome := by
    intro hmem
    obtain ⟨login, hlogin⟩ := Table.mem_iff_lookup.mp hmem
    obtain rfl := hmatch login hlogin
    exact (h.entry ..).mpr ⟨type, hlogin, rfl⟩
  constructor
  · intro r userName' connectKey'
    dsimp only
    rw [entry_addLogoutRecord, Table.lookup_erase_if]
    by_cases hkey : connectKey' = connectKey
    · subst hkey
      rw [if_pos rfl]
      simp only [and_true, reduceCtorEq, false_and, exists_false, iff_false]
      split
      · simp
      · next hother =>
        rw [h.entry]
        rintro ⟨type', hlive, hrealm⟩
        cases hmatch _ hlive
        exact hother ⟨hrealm.symm, rfl⟩
    · rw [if_neg (by tauto), if_neg hkey]
      exact h.entry r userName' connectKey'
  · intro connectKey'
    dsimp only
    rw [mem_addLogoutRecord, AList.mem_erase, h.status]
    constructor
    · intro ⟨hmem, hnot⟩
      exact ⟨fun he ↦ hnot ⟨he, hentered (he ▸ hmem)⟩, hmem⟩
    · intro ⟨hne, hmem⟩
      exact ⟨hmem, fun he ↦ hne he.1⟩
  · intro r userName' connectKey' item hitem
    dsimp only at hitem
    rw [entry_addLogoutRecord] at hitem
    split at hitem
    · cases hitem
    · exact h.item r userName' connectKey' item hitem

theorem tracked_start : Tracked opt ({} : State A) where
  entry r userName connectKey := by
    have hlive : (({} : State A).live).lookup connectKey = none := rfl
    rw [hlive]
    simp [Logins.entry, Table.entry]
  status connectKey := by simp
  item r userName connectKey item hitem := by cases hitem

theorem tracked_of_reach (h : (records opt).Reach Matched {} s) : Tracked opt s := by
  refine h.invariant tracked_start ?_
  intro t call u sent ht hcall hstep
  cases call with
  | login ctx =>
    obtain ⟨rfl, -⟩ := Prod.mk.inj (Option.some.inj hstep)
    exact ht.login ctx hcall
  | logout userName connectKey type =>
    obtain ⟨rfl, -⟩ := Prod.mk.inj (Option.some.inj hstep)
    exact ht.logout hcall

theorem Tracked.found (h : Tracked opt s) (r : Realm) (connectKey : Bytes) :
    Found s.logins r connectKey ↔
      ∃ login, s.live.lookup connectKey = some login ∧ opt.realm login.2 = r := by
  constructor
  · intro ⟨userName, hentry⟩
    obtain ⟨type, hlive, hrealm⟩ := (h.entry r userName connectKey).mp hentry
    exact ⟨_, hlive, hrealm⟩
  · intro ⟨(userName, type), hlive, hrealm⟩
    exact ⟨userName, (h.entry r userName connectKey).mpr ⟨type, hlive, hrealm⟩⟩

/-- Whatever calls were made, the status map has the connect keys of the two maps, which have none
in common. -/
theorem login_maps_balanced (h : (records opt).Reach Matched {} s) : Balanced s.logins := by
  have ht := tracked_of_reach h
  constructor
  · intro connectKey
    rw [ht.status, Table.mem_iff_lookup, ht.found, ht.found, ← exists_or]
    refine exists_congr fun login ↦ ?_
    cases opt.realm login.2 <;> simp
  · intro connectKey
    rw [ht.found, ht.found]
    rintro ⟨⟨login, hlogin, hregistered⟩, login', hlogin', hunnamed⟩
    obtain rfl := Option.some.inj (hlogin.symm.trans hlogin')
    cases hregistered.symm.trans hunnamed

def anonymousServers : AuthOpt where
  serverAnonymousLogin := true
  serverOnlineProtection := false
  clientAnonymousLogin := false
  clientOnlineProtection := false
  sourceAnonymousLogin := false

def calls : List (RecordCall Unit) :=
  [.login ⟨.server, ascii "RTK_01", [], ascii "c1", ()⟩,
    .login ⟨.client, ascii "rover", [], ascii "c2", ()⟩,
    .logout (ascii "RTK_01") (ascii "c1") .server, .logout (ascii "RTK_01") (ascii "c1") .server]

theorem login_maps_balanced_calls :
    ∃ s : State Unit, s.logins.registerStatusMap.keys = [ascii "c2"] ∧
    Balanced s.logins := by
  have hmatched : (records anonymousServers).Meets Matched {} calls := by decide
  have hkeys :
      ((records anonymousServers).exec {} calls).map (fun q ↦ q.1.logins.registerStatusMap.keys) =
      some [ascii "c2"] := by decide
  obtain ⟨s, hs, hstatus⟩ :=
    Machine.exists_reach (fun s ↦ s.logins.registerStatusMap.keys) hmatched hkeys
  exact ⟨s, hstatus, login_maps_balanced hs⟩

theorem mem_renewals {r : Realm} {command : AuthCommand Bytes A} :
    command ∈ renewals r logins ↔ ∃ userName connectKey item,
      logins.entry r userName connectKey = some item ∧
        command = .hexpireRecord r item.userName item.connectKey := by
  unfold renewals Logins.entry Table.entry
  simp only [List.mem_flatMap, List.mem_map, Prod.exists, Table.mem_toPairs,
    Option.bind_eq_some_iff]
  constructor
  · rintro ⟨userName, row, hrow, connectKey, item, hitem, rfl⟩
    exact ⟨userName, connectKey, item, ⟨row, hrow, hitem⟩, rfl⟩
  · rintro ⟨userName, connectKey, item, ⟨row, hrow, hitem⟩, rfl⟩
    exact ⟨userName, row, hrow, connectKey, item, hitem, rfl⟩

theorem renewed_iff (h : (records opt).Reach Matched {} s) (r : Realm)
    (userName connectKey : Bytes) :
    .hexpireRecord r userName connectKey ∈ uploadRecordItem s.logins ↔
      ∃ type, s.live.lookup connectKey = some (userName, type) ∧ opt.realm type = r := by
  have ht := tracked_of_reach h
  rw [← ht.entry, Option.isSome_iff_exists]
  have hrenewed (r' : Realm) : .hexpireRecord r userName connectKey ∈ renewals r' s.logins ↔
      r' = r ∧ ∃ item, s.logins.entry r userName connectKey = some item := by
    rw [mem_renewals]
    constructor
    · rintro ⟨userName', connectKey', item, hitem, hcommand⟩
      obtain ⟨huser, hkey⟩ := ht.item _ _ _ _ hitem
      obtain ⟨rfl, rfl, rfl⟩ := AuthCommand.hexpireRecord.inj hcommand
      subst huser hkey
      exact ⟨rfl, item, hitem⟩
    · rintro ⟨rfl, item, hitem⟩
      obtain ⟨huser, hkey⟩ := ht.item _ _ _ _ hitem
      exact ⟨userName, connectKey, item, hitem, by rw [huser, hkey]⟩
  unfold uploadRecordItem
  rw [List.mem_append, hrenewed, hrenewed]
  cases r <;> simp

end NavCaster.Auth.LoginMaps
