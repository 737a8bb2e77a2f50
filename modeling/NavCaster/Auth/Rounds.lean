import NavCaster.Auth.Verify

namespace NavCaster.Auth.Rounds

open NavCaster.Library
open NavCaster.Library.Strto (Bytes)
open NavCaster.Library.Utf8
open NavCaster.Auth.Verify

/-- The records that the rounds of the loop are about, and whether it comes to an empty map. -/
def rounds (protect : Bool) (limit : Nat) (records : List Record) : List Record × Bool :=
  if limit < records.length then
    match _h : kick protect records with
    | none => ([], true)
    | some (r, rest) => (r :: (rounds protect limit rest).1, (rounds protect limit rest).2)
  else ([], false)
termination_by records.length
decreasing_by all_goals exact length_of_kick _h

def settle (userName connectKey : Bytes) (emptied : Bool) :
    List Record → Bool → List AuthBroadcastItem → KickEnd
  | [], check, sent => if emptied then .undefined else .done check sent
  | r :: rs, check, sent =>
    if r.2 = connectKey then settle userName connectKey emptied rs false sent
    else match sendChangeAuthStatus userName r.2 .err upperLimit with
      | none => .dumpError sent
      | some item => settle userName connectKey emptied rs check (sent ++ [item])

variable {protect : Bool} {limit : Nat} {records : List Record} {userName connectKey : Bytes}

theorem readRecords_keys {fields : List (Bytes × Bytes)} {records : List Record}
    (h : readRecords fields = .ok records) : records.map Prod.snd = fields.map Prod.fst := by
  induction fields generalizing records with
  | nil => cases h; rfl
  | cons e fields ih =>
    unfold readRecords at h
    rw [List.mapM_cons] at h
    cases ht : Strto.stol e.2 with
    | error x => rw [ht] at h; cases h
    | ok t =>
      rw [ht] at h
      cases hrest : readRecords fields with
      | error x =>
        unfold readRecords at hrest
        rw [hrest] at h
        cases h
      | ok rest =>
        have hkeys := ih hrest
        unfold readRecords at hrest
        rw [hrest] at h
        cases h
        rw [List.map_cons, List.map_cons, hkeys]

theorem rounds_of_le (h : records.length ≤ limit) : rounds protect limit records = ([], false) := by
  rw [rounds, if_neg (by omega)]

theorem rounds_of_none (h : limit < records.length) (hk : kick protect records = none) :
    rounds protect limit records = ([], true) := by
  rw [rounds, if_pos h]
  split
  · rfl
  · next h' => rw [hk] at h'; cases h'

theorem rounds_of_some (h : limit < records.length) {r : Record} {rest : List Record}
    (hk : kick protect records = some (r, rest)) :
    rounds protect limit records =
      (r :: (rounds protect limit rest).1, (rounds protect limit rest).2) := by
  rw [rounds, if_pos h]
  split
  · next h' => rw [hk] at h'; cases h'
  · next h' => rw [hk] at h'; cases h'; rfl

theorem mem_of_kick {r : Record} {rest : List Record} (h : kick protect records = some (r, rest)) :
    r ∈ records ∧ rest ⊆ records := by
  unfold kick at h
  split at h
  · obtain ⟨r', hr, he⟩ := Option.map_eq_some_iff.mp h
    cases he
    exact ⟨List.mem_of_getLast? hr, List.filter_sublist.subset⟩
  · obtain ⟨r', hr, he⟩ := Option.bind_eq_some_iff.mp h
    obtain ⟨r'', hr', he'⟩ := Option.map_eq_some_iff.mp he
    cases he'
    exact ⟨List.filter_sublist.subset (List.mem_of_head? hr'), List.filter_sublist.subset⟩

theorem kickLoop_eq (check : Bool) (sent : List AuthBroadcastItem) :
    kickLoop protect limit userName connectKey records check sent =
      settle userName connectKey (rounds protect limit records).2
        (rounds protect limit records).1 check sent := by
  induction hn : records.length using Nat.strongRecOn generalizing records check sent with
  | ind n ih =>
    rw [kickLoop]
    by_cases hlt : limit < records.length
    · rw [if_pos hlt]
      split
      · next hk => rw [rounds_of_none hlt hk]; rfl
      · next r rest hk =>
        have hrest := @ih rest.length (hn ▸ length_of_kick hk) rest
        rw [rounds_of_some hlt hk, settle]
        by_cases hkey : r.2 = connectKey
        · rw [if_pos hkey, if_pos hkey, hrest _ _ rfl]
        · rw [if_neg hkey, if_neg hkey]
          cases sendChangeAuthStatus userName r.2 .err upperLimit with
          | none => rfl
          | some item => exact hrest _ _ rfl
    · rw [if_neg hlt, rounds_of_le (by omega)]
      rfl

def writable (userName : Bytes) (k : Bytes) : Bool := isUtf8 userName && isUtf8 k

def errItem (userName k reason : Bytes) : AuthBroadcastItem where
  type := .accountStatusUpdate
  connectKey := k
  channel := userName
  para := []
  status := .err
  reason

def others (connectKey : Bytes) (rs : List Record) : List Bytes :=
  (rs.map Prod.snd).filter (· ≠ connectKey)

theorem isUtf8_upperLimit : isUtf8 upperLimit = true := by decide

theorem sendChangeAuthStatus_eq {reason : Bytes} (h : isUtf8 reason = true) (k : Bytes) :
    sendChangeAuthStatus userName k .err reason =
      if writable userName k then some (errItem userName k reason) else none := by
  unfold sendChangeAuthStatus writable errItem
  rw [h]
  simp only [and_true, Bool.and_eq_true]

theorem others_cons (r : Record) (rs : List Record) :
    others connectKey (r :: rs) =
      if r.2 = connectKey then others connectKey rs else r.2 :: others connectKey rs := by
  unfold others
  rw [List.map_cons]
  by_cases h : r.2 = connectKey
  · rw [if_pos h, List.filter_cons_of_neg (by simpa using h)]
  · rw [if_neg h, List.filter_cons_of_pos (by simpa using h)]

theorem settle_eq (emptied : Bool) (rs : List Record) (check : Bool)
    (sent : List AuthBroadcastItem) :
    settle userName connectKey emptied rs check sent =
      if (others connectKey rs).all (writable userName) then
        if emptied then .undefined
        else .done (check && !(rs.map Prod.snd).contains connectKey)
          (sent ++ (others connectKey rs).map (errItem userName · upperLimit))
      else .dumpError (sent ++
        ((others connectKey rs).takeWhile (writable userName)).map
          (errItem userName · upperLimit)) := by
  induction rs generalizing check sent with
  | nil => simp [settle, others]
  | cons r rs ih =>
    rw [settle, others_cons]
    by_cases hkey : r.2 = connectKey
    · rw [if_pos hkey, if_pos hkey, ih]
      simp [hkey]
    · rw [if_neg hkey, if_neg hkey, sendChangeAuthStatus_eq isUtf8_upperLimit]
      by_cases hw : writable userName r.2 = true
      · rw [if_pos hw]
        dsimp only
        have hne : (connectKey == r.2) = false := beq_eq_false_iff_ne.mpr (Ne.symm hkey)
        rw [ih, List.all_cons, List.takeWhile_cons_of_pos hw, hw, Bool.true_and, List.map_cons,
          List.contains_cons, hne, Bool.false_or, List.append_assoc, List.append_assoc]
        rfl
      · rw [if_neg hw, List.all_cons, List.takeWhile_cons_of_neg hw]
        simp [hw]

/-- The handler, once the records have been read, the connection is among them, and the account has
a limit. -/
def decideLogin {A : Type} (ctx : AuthCtx Bytes A) (groupUid : Bytes)
    (rs : List Record × Bool) (s : Logins Bytes A) : Handled A :=
  let os := others ctx.connectKey rs.1
  if os.all (writable ctx.userName) then
    if rs.2 then .undefined
    else if ctx.connectKey ∈ rs.1.map Prod.snd then
      fail ctx upperLimit (os.map (errItem ctx.userName · upperLimit)) s
    else .done s [⟨ctx.arg, .ok, [], groupUid⟩] (os.map (errItem ctx.userName · upperLimit))
  else
    fail ctx dumpError
      ((os.takeWhile (writable ctx.userName)).map (errItem ctx.userName · upperLimit)) s

theorem redisAddLoginCallback_eq {A : Type} (opt : AuthOpt) (ctx : AuthCtx Bytes A)
    {r : RedisReply} (s : Logins Bytes A) {limit : Account.AuthLimit}
    (hread : readRecords r.elements = .ok records)
    (hmine : ctx.connectKey ∈ r.elements.map Prod.fst)
    (hlimit : (s.limitMap .registered).lookup ctx.userName = some limit) :
    redisAddLoginCallback opt ctx (some r) s =
      decideLogin ctx (Account.normalizeGroupUid limit.group)
        (rounds (opt.protects ctx.type) limit.size (Multimap.ofList records)) s := by
  unfold redisAddLoginCallback decideLogin
  dsimp only
  rw [hread]
  dsimp only
  rw [if_pos hmine, hlimit]
  dsimp only
  rw [kickLoop_eq, settle_eq, Bool.true_and, List.nil_append, List.nil_append]
  generalize rounds (opt.protects ctx.type) limit.size (Multimap.ofList records) = rs
  by_cases hall : (others ctx.connectKey rs.1).all (writable ctx.userName) = true
  · rw [if_pos hall, if_pos hall]
    cases rs.2 with
    | true => rfl
    | false =>
      by_cases hkey : ctx.connectKey ∈ rs.1.map Prod.snd
      · rw [if_pos hkey, List.contains_iff_mem.mpr hkey]
        rfl
      · rw [if_neg hkey, Bool.eq_false_iff.mpr fun h ↦ hkey (List.contains_iff_mem.mp h)]
        rfl
  · rw [if_neg hall, if_neg hall]

theorem rounds_subset : ∀ r ∈ (rounds protect limit records).1, r ∈ records := by
  induction hn : records.length using Nat.strongRecOn generalizing records with
  | ind n ih =>
    intro r hr
    by_cases hlt : limit < records.length
    · cases hk : kick protect records with
      | none => rw [rounds_of_none hlt hk] at hr; cases hr
      | some p =>
        obtain ⟨r', rest⟩ := p
        obtain ⟨hr', hsub⟩ := mem_of_kick hk
        rw [rounds_of_some hlt hk] at hr
        obtain rfl | hr := List.mem_cons.mp hr
        · exact hr'
        · exact hsub (@ih rest.length (hn ▸ length_of_kick hk) rest rfl r hr)
    · rw [rounds_of_le (by omega)] at hr
      cases hr

theorem length_rounds_le : (rounds protect limit records).1.length ≤ records.length - limit := by
  induction hn : records.length using Nat.strongRecOn generalizing records with
  | ind n ih =>
    by_cases hlt : limit < records.length
    · cases hk : kick protect records with
      | none => rw [rounds_of_none hlt hk]; exact Nat.zero_le _
      | some p =>
        obtain ⟨r, rest⟩ := p
        have hless := length_of_kick hk
        have hle := @ih rest.length (hn ▸ hless) rest rfl
        rw [rounds_of_some hlt hk, List.length_cons]
        omega
    · rw [rounds_of_le (by omega)]
      exact Nat.zero_le _

end NavCaster.Auth.Rounds
