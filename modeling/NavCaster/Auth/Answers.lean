import NavCaster.Auth.Kicks

namespace NavCaster.Auth.Answers

open NavCaster.Library
open NavCaster.Library.Strto (Bytes)
open NavCaster.Library.Scan NavCaster.Library.Utf8
open NavCaster.Auth.Account NavCaster.Auth.Verify NavCaster.Auth.Rounds NavCaster.Auth.Kicks

variable {A : Type}

/-- The login that is waiting for its answer is entered, and nothing else is entered for it. -/
structure Recorded (s : Logins Bytes A) (r : Realm) (ctx : AuthCtx Bytes A) : Prop where
  entered : ∃ item, s.entry r ctx.userName ctx.connectKey = some item ∧ item.arg = ctx.arg
  once : ∀ r' userName connectKey item, s.entry r' userName connectKey = some item →
    item.arg = ctx.arg → r' = r ∧ userName = ctx.userName ∧ connectKey = ctx.connectKey
  nonempty : ctx.connectKey ≠ []

variable {ctx : AuthCtx Bytes A} {s : Logins Bytes A}

theorem entry_setRegisterMap (r r' : Realm) (m : Table Bytes (Table Bytes (AuthCbItem Bytes A)))
    (userName connectKey : Bytes) :
    (s.setRegisterMap r m).entry r' userName connectKey =
      if r' = r then Table.entry m userName connectKey else s.entry r' userName connectKey := by
  unfold Logins.setRegisterMap Logins.entry
  dsimp only
  by_cases h : r' = r
  · rw [if_pos h, h, Function.update_self]
  · rw [if_neg h, Function.update_of_ne h]

theorem entry_addLoginRecord (opt : AuthOpt) (ctx : AuthCtx Bytes A) (r : Realm)
    (userName connectKey : Bytes) :
    (addLoginRecord opt ctx s).1.entry r userName connectKey =
      if r = opt.realm ctx.type ∧ userName = ctx.userName ∧ connectKey = ctx.connectKey ∧
          s.entry r userName connectKey = none then
        some ⟨ctx.connectKey, ctx.userName, ctx.arg⟩
      else s.entry r userName connectKey := by
  refine (entry_setRegisterMap (opt.realm ctx.type) r _ userName connectKey).trans ?_
  rw [Table.entry_putNew]
  by_cases hr : r = opt.realm ctx.type
  · subst hr
    rw [if_pos rfl]
    by_cases hname : userName = ctx.userName ∧ connectKey = ctx.connectKey
    · obtain ⟨rfl, rfl⟩ := hname
      simp only [true_and]
      rfl
    · rw [if_neg (by tauto), if_neg (by tauto)]
      rfl
  · rw [if_neg hr, if_neg (by tauto)]

theorem recorded_addLoginRecord (opt : AuthOpt) (hkey : ctx.connectKey ≠ [])
    (hnew : s.entry (opt.realm ctx.type) ctx.userName ctx.connectKey = none)
    (hother : ∀ r userName connectKey item, s.entry r userName connectKey = some item →
      item.arg ≠ ctx.arg) :
    Recorded (addLoginRecord opt ctx s).1 (opt.realm ctx.type) ctx := by
  constructor
  · refine ⟨⟨ctx.connectKey, ctx.userName, ctx.arg⟩, ?_, rfl⟩
    rw [entry_addLoginRecord, if_pos ⟨rfl, rfl, rfl, hnew⟩]
  · intro r userName connectKey item hitem harg
    rw [entry_addLoginRecord] at hitem
    split at hitem
    · next h => exact ⟨h.1, h.2.1, h.2.2.1⟩
    · exact absurd harg (hother r userName connectKey item hitem)
  · exact hkey

variable [DecidableEq A]

/-- What a handler calls back, itself and by what it publishes; `none` where it does not return. -/
def heard : Handled A → Option (List (AuthCall A))
  | .done s calls sent => some (calls ++ sent.flatMap fun item ↦ (broadcastResponse item s).2)
  | _ => none

def AnsweredOnce (h : Handled A) (arg : A) : Prop :=
  ∃ all call, heard h = some all ∧ all.filter (·.arg = arg) = [call] ∧
    (call.type = .ok ∨ call.type = .err)

inductive AuthRequest
  | verify | login

def AuthRequest.command (opt : AuthOpt) (ctx : AuthCtx Bytes A) : AuthRequest → AuthCommand Bytes A
  | verify => Verify.verify opt ctx
  | login => .hgetallRecord (opt.realm ctx.type) ctx

def VerifyAnswers (parse : Bytes → Option Json) : Option RedisReply → Prop
  | some .nil => True
  | some (.string text) => (parse text).isSome
  | _ => False

def NoLater (protect : Bool) (r' r : Record) : Prop := if protect then r.1 ≤ r'.1 else r'.1 ≤ r.1

/-- Nobody is left without an answer where records are in excess: those of the latest time do not
exceed the limit without protection, an error for the connection itself can be written, and no
broadcast goes to all connections of the user, which is one to the empty key. -/
structure KickAnswers (protect : Bool) (limit : Nat) (userName connectKey : Bytes)
    (records : List Record) : Prop where
  stays : protect = false → (∀ r, Kicked protect limit records r → r.2 ≠ connectKey →
    writable userName r.2 = true) → ¬ Drained limit records
  written : writable userName connectKey = true ∨
    ∀ r, Kicked protect limit records r → r.2 ≠ connectKey ∧ writable userName r.2 = true
  addressed : ∀ r, Kicked protect limit records r → r.2 = [] →
    ∃ r', Kicked protect limit records r' ∧ NoLater protect r' r ∧ r'.2 ≠ connectKey ∧
      writable userName r'.2 = false

def LoginAnswers (opt : AuthOpt) (ctx : AuthCtx Bytes A) (s : Logins Bytes A)
    (fields : List (Bytes × Bytes)) (records : List Record) : Prop :=
  match opt.realm ctx.type with
  | .unnamed => ctx.connectKey ∈ fields.map Prod.fst
  | .registered =>
    match (s.limitMap .registered).lookup ctx.userName with
    | some limit =>
      if ctx.connectKey ∈ fields.map Prod.fst then
        KickAnswers (opt.protects ctx.type) limit.size ctx.userName ctx.connectKey records
      else writable ctx.userName ctx.connectKey = true
    | none => writable ctx.userName ctx.connectKey = true

def Answerable (parse : Bytes → Option Json) (opt : AuthOpt) (ctx : AuthCtx Bytes A)
    (s : Logins Bytes A) (reply : Option RedisReply) : AuthRequest → Prop
  | .verify => opt.verifiesAnonymous ctx.type = true ∨ VerifyAnswers parse reply
  | .login => ∃ r records, reply = some r ∧ readRecords r.elements = .ok records ∧
      LoginAnswers opt ctx s r.elements records

theorem answeredOnce_done {calls : List (AuthCall A)} {sent : List AuthBroadcastItem} {arg : A} :
    AnsweredOnce (.done s calls sent) arg ↔
      ∃ call, calls.filter (·.arg = arg) ++
          (sent.flatMap fun item ↦ (broadcastResponse item s).2).filter (·.arg = arg) = [call] ∧
        (call.type = .ok ∨ call.type = .err) := by
  unfold AnsweredOnce heard
  constructor
  · rintro ⟨all, call, hall, hone, htype⟩
    cases hall
    rw [List.filter_append] at hone
    exact ⟨call, hone, htype⟩
  · rintro ⟨call, hone, htype⟩
    rw [← List.filter_append] at hone
    exact ⟨_, call, rfl, hone, htype⟩

theorem not_answeredOnce_undefined {arg : A} : ¬ AnsweredOnce .undefined arg := by
  rintro ⟨_, _, h, -⟩
  cases h

theorem not_answeredOnce_throws {arg : A} : ¬ AnsweredOnce .throws arg := by
  rintro ⟨_, _, h, -⟩
  cases h

theorem filter_call (arg : A) (type : AuthReply) (str groupUid : Bytes) :
    [(⟨arg, type, str, groupUid⟩ : AuthCall A)].filter (·.arg = arg) =
      [⟨arg, type, str, groupUid⟩] := by simp

theorem answeredOnce_call (type : AuthReply) (str groupUid : Bytes)
    (htype : type = .ok ∨ type = .err) :
    AnsweredOnce (.done s [⟨ctx.arg, type, str, groupUid⟩] []) ctx.arg := by
  refine answeredOnce_done.mpr ⟨⟨ctx.arg, type, str, groupUid⟩, ?_, htype⟩
  rw [filter_call]
  rfl

theorem not_answeredOnce_nil {arg : A} : ¬ AnsweredOnce (.done s [] []) arg := by
  rintro h
  obtain ⟨call, h, -⟩ := answeredOnce_done.mp h
  cases h

theorem verify_answers (parse : Bytes → Option Json) (opt : AuthOpt) (ctx : AuthCtx Bytes A)
    (s : Logins Bytes A) (reply : Option RedisReply) :
    AnsweredOnce (handleReply parse opt (verify opt ctx) reply s) ctx.arg ↔
      opt.verifiesAnonymous ctx.type = true ∨ VerifyAnswers parse reply := by
  unfold verify
  split
  · next hanonymous =>
    exact iff_of_true (answeredOnce_call .ok _ _ (.inl rfl)) (.inl hanonymous)
  · next hnamed =>
    rw [or_iff_right hnamed]
    dsimp only [handleReply]
    unfold redisVerifyCallback VerifyAnswers
    cases reply with
    | none => exact iff_of_false not_answeredOnce_nil id
    | some reply =>
      cases reply with
      | nil => exact iff_of_true (answeredOnce_call .err _ _ (.inr rfl)) trivial
      | string text =>
        dsimp only
        cases parse text with
        | none => exact iff_of_false not_answeredOnce_throws Bool.false_ne_true
        | some info =>
          refine iff_of_true ?_ rfl
          dsimp only
          split
          · exact answeredOnce_call .err _ _ (.inr rfl)
          · exact answeredOnce_call .ok _ _ (.inl rfl)
      | _ => exact iff_of_false not_answeredOnce_nil id

/-- A broadcast that was made for the connection, or for all of its user, reaches it once. -/
theorem filter_broadcastResponse (h : Recorded s .registered ctx) (k reason : Bytes) :
    (broadcastResponse (errItem ctx.userName k reason) s).2.filter (·.arg = ctx.arg) =
      if k = ctx.connectKey ∨ k = [] then [⟨ctx.arg, .err, reason, []⟩] else [] := by
  obtain ⟨item, hitem, harg⟩ := h.entered
  obtain ⟨row, hrow, hlookup⟩ := Option.bind_eq_some_iff.mp hitem
  have hentry : ∀ k, s.entry .registered ctx.userName k = row.lookup k := fun k ↦ by
    unfold Logins.entry Table.entry
    rw [hrow, Option.bind_some]
  unfold broadcastResponse errItem
  dsimp only [AuthBroadcastType.realm]
  rw [hrow]
  dsimp only
  by_cases hall : k = []
  · rw [if_pos hall, if_pos (.inr hall)]
    have hone : (Table.toPairs row).filter (fun e ↦ e.2.arg = ctx.arg) = [(ctx.connectKey, item)] :=
      Table.filter_toPairs hlookup (decide_eq_true harg) fun k' item' hk' he ↦
        (h.once .registered ctx.userName k' item' ((hentry k').trans hk')
          (of_decide_eq_true he)).2.2
    rw [List.filter_map]
    refine (congrArg (List.map _) hone).trans ?_
    rw [List.map_singleton, harg]
  · rw [if_neg hall]
    by_cases hk : k = ctx.connectKey
    · rw [if_pos (.inl hk), hk, hlookup]
      dsimp only
      rw [harg]
      exact filter_call _ _ _ _
    · rw [if_neg (not_or.mpr ⟨hk, hall⟩)]
      cases hother : row.lookup k with
      | none => rfl
      | some item' =>
        refine List.filter_eq_nil_iff.mpr fun call hcall he ↦ hk ?_
        have harg' : item'.arg = ctx.arg := by
          cases List.mem_singleton.mp hcall
          exact of_decide_eq_true he
        exact (h.once .registered ctx.userName k item' ((hentry k).trans hother) harg').2.2

theorem filter_broadcasts (h : Recorded s .registered ctx) (ks : List Bytes) (reason : Bytes) :
    ((ks.map (errItem ctx.userName · reason)).flatMap fun item ↦
        (broadcastResponse item s).2).filter (·.arg = ctx.arg) =
      ks.flatMap fun k ↦
        if k = ctx.connectKey ∨ k = [] then [⟨ctx.arg, .err, reason, []⟩] else [] := by
  rw [List.flatMap_map, List.filter_flatMap]
  congr 1
  funext k
  exact filter_broadcastResponse h k reason

theorem filter_broadcasts_others (h : Recorded s .registered ctx) {ks : List Bytes}
    (hks : ctx.connectKey ∉ ks) (reason : Bytes) :
    ((ks.map (errItem ctx.userName · reason)).flatMap fun item ↦
        (broadcastResponse item s).2).filter (·.arg = ctx.arg) = [] ↔ [] ∉ ks := by
  rw [filter_broadcasts h, List.flatMap_eq_nil_iff]
  constructor
  · intro hall hnil
    have hsome := hall [] hnil
    rw [if_pos (.inr rfl)] at hsome
    cases hsome
  · intro hnil k hk
    refine if_neg (not_or.mpr ⟨?_, ?_⟩)
    · rintro rfl
      exact hks hk
    · rintro rfl
      exact hnil hk

theorem answeredOnce_fail (h : Recorded s .registered ctx) {ks : List Bytes}
    (hks : ctx.connectKey ∉ ks) {reason reason' : Bytes} (hreason : isUtf8 reason = true) :
    AnsweredOnce (fail ctx reason (ks.map (errItem ctx.userName · reason')) s) ctx.arg ↔
      writable ctx.userName ctx.connectKey = true ∧ [] ∉ ks := by
  unfold fail
  rw [sendChangeAuthStatus_eq hreason]
  by_cases hw : writable ctx.userName ctx.connectKey = true
  · rw [if_pos hw, and_iff_right hw, ← filter_broadcasts_others h hks reason', answeredOnce_done]
    have hmine := filter_broadcastResponse h ctx.connectKey reason
    rw [if_pos (.inl rfl)] at hmine
    rw [List.flatMap_append, List.flatMap_singleton, List.filter_append, hmine, List.filter_nil,
      List.nil_append]
    constructor
    · rintro ⟨call, hone, -⟩
      exact ((List.append_eq_singleton_iff.mp hone).resolve_right fun h' ↦ by cases h'.2).1
    · intro hnone
      rw [hnone]
      exact ⟨_, rfl, .inr rfl⟩
  · rw [if_neg hw]
    exact iff_of_false not_answeredOnce_throws fun h' ↦ hw h'.1

theorem answeredOnce_letIn (h : Recorded s .registered ctx) {ks : List Bytes}
    (hks : ctx.connectKey ∉ ks) (groupUid reason : Bytes) :
    AnsweredOnce (.done s [⟨ctx.arg, .ok, [], groupUid⟩]
      (ks.map (errItem ctx.userName · reason))) ctx.arg ↔ [] ∉ ks := by
  rw [← filter_broadcasts_others h hks reason, answeredOnce_done, filter_call]
  constructor
  · rintro ⟨call, hone, -⟩
    exact (List.cons_eq_cons.mp hone).2
  · intro hnone
    rw [hnone]
    exact ⟨_, rfl, .inl rfl⟩

theorem connectKey_not_mem_others (connectKey : Bytes) (rs : List Record) :
    connectKey ∉ others connectKey rs :=
  fun h ↦ of_decide_eq_true (List.mem_filter.mp h).2 rfl

theorem isUtf8_dumpError : isUtf8 dumpError = true := isUtf8_of_ascii (by decide +kernel)

theorem answeredOnce_decideLogin (h : Recorded s .registered ctx) (groupUid : Bytes)
    (rs : List Record × Bool) :
    AnsweredOnce (decideLogin ctx groupUid rs s) ctx.arg ↔
      if (others ctx.connectKey rs.1).all (writable ctx.userName) then
        rs.2 = false ∧
          (ctx.connectKey ∈ rs.1.map Prod.snd → writable ctx.userName ctx.connectKey = true) ∧
          [] ∉ others ctx.connectKey rs.1
      else writable ctx.userName ctx.connectKey = true ∧
        [] ∉ (others ctx.connectKey rs.1).takeWhile (writable ctx.userName) := by
  have hothers := connectKey_not_mem_others ctx.connectKey rs.1
  unfold decideLogin
  dsimp only
  split
  · cases rs.2 with
    | true => exact iff_of_false not_answeredOnce_undefined (by simp)
    | false =>
      rw [if_neg Bool.false_ne_true, and_iff_right rfl]
      by_cases hmem : ctx.connectKey ∈ rs.1.map Prod.snd
      · rw [if_pos hmem, answeredOnce_fail h hothers isUtf8_upperLimit, forall_prop_of_true hmem]
      · rw [if_neg hmem, answeredOnce_letIn h hothers, and_iff_right fun h' ↦ absurd h' hmem]
  · exact answeredOnce_fail h (fun h' ↦ hothers (List.takeWhile_subset _ h')) isUtf8_dumpError

section

variable {protect : Bool} {limit : Nat} {userName connectKey : Bytes} {records : List Record}

theorem noLater_refl (r : Record) : NoLater protect r r := by
  unfold NoLater
  split
  · exact le_refl _
  · exact le_refl _

theorem noLater_of_not {r r' : Record} (h : ¬ NoLater protect r r') : NoLater protect r' r := by
  unfold NoLater at h ⊢
  split at h
  · rw [if_pos ‹_›]
    exact (Int.not_le.mp h).le
  · rw [if_neg ‹_›]
    exact (Int.not_le.mp h).le

theorem mem_takeWhile_others {w : Bytes → Bool} {k : Bytes} (hk : k ≠ connectKey)
    {rs : List Record} (hrs : rs.Pairwise fun r r' ↦ ¬ NoLater protect r' r) :
    k ∈ (others connectKey rs).takeWhile w ↔
      ∃ r ∈ rs, r.2 = k ∧ ∀ r' ∈ rs, NoLater protect r' r → r'.2 ≠ connectKey → w r'.2 = true := by
  induction rs with
  | nil => exact ⟨nofun, fun ⟨_, h, _⟩ ↦ nomatch h⟩
  | cons a rs ih =>
    obtain ⟨ha, hrs⟩ := List.pairwise_cons.mp hrs
    rw [others_cons]
    by_cases hkey : a.2 = connectKey
    · rw [if_pos hkey, ih hrs]
      constructor
      · rintro ⟨r, hr, he, hall⟩
        refine ⟨r, List.mem_cons_of_mem a hr, he, fun r' hr' hle hne ↦ ?_⟩
        obtain rfl | hr' := List.mem_cons.mp hr'
        · exact absurd hkey hne
        · exact hall r' hr' hle hne
      · rintro ⟨r, hr, he, hall⟩
        obtain rfl | hr := List.mem_cons.mp hr
        · exact absurd (he.symm.trans hkey) hk
        · exact ⟨r, hr, he, fun r' hr' ↦ hall r' (List.mem_cons_of_mem a hr')⟩
    · rw [if_neg hkey]
      by_cases hw : w a.2 = true
      · rw [List.takeWhile_cons_of_pos hw, List.mem_cons, ih hrs]
        constructor
        · rintro (rfl | ⟨r, hr, he, hall⟩)
          · refine ⟨a, List.mem_cons_self, rfl, fun r' hr' hle _ ↦ ?_⟩
            obtain rfl | hr' := List.mem_cons.mp hr'
            · exact hw
            · exact absurd hle (ha r' hr')
          · refine ⟨r, List.mem_cons_of_mem a hr, he, fun r' hr' hle hne ↦ ?_⟩
            obtain rfl | hr' := List.mem_cons.mp hr'
            · exact hw
            · exact hall r' hr' hle hne
        · rintro ⟨r, hr, he, hall⟩
          obtain rfl | hr := List.mem_cons.mp hr
          · exact .inl he.symm
          · exact .inr ⟨r, hr, he, fun r' hr' ↦ hall r' (List.mem_cons_of_mem a hr')⟩
      · rw [List.takeWhile_cons_of_neg hw]
        refine iff_of_false List.not_mem_nil ?_
        rintro ⟨r, hr, he, hall⟩
        refine hw (hall a List.mem_cons_self ?_ hkey)
        obtain rfl | hr := List.mem_cons.mp hr
        · exact noLater_refl r
        · exact noLater_of_not (ha r hr)

theorem rounds_ofList (hne : records ≠ []) :
    let rs := rounds protect limit (Multimap.ofList records)
    (rs.2 = true ↔ protect = false ∧ Drained limit records) ∧
      (∀ r, r ∈ rs.1 ↔ Kicked protect limit records r) ∧
      rs.1.Pairwise fun r r' ↦ ¬ NoLater protect r' r := by
  have hord := Multimap.ordered_ofList records
  dsimp only
  cases protect with
  | true =>
    obtain ⟨hemptied, hmem, hdesc⟩ := @rounds_protected limit _ hord
    refine ⟨by rw [hemptied]; simp, fun r ↦ (hmem r).trans (kicked_ofList r), ?_⟩
    refine hdesc.imp fun {r r'} hlt ↦ ?_
    unfold NoLater
    rw [if_pos rfl]
    exact Int.not_le.mpr hlt
  | false =>
    have hne' : Multimap.ofList records ≠ [] := fun h ↦ hne <|
      List.eq_nil_of_length_eq_zero
        ((Multimap.perm_ofList records).length_eq.symm.trans (by rw [h]; rfl))
    obtain ⟨hemptied, hmem, hasc⟩ := @rounds_unprotected limit _ hord hne'
    refine ⟨by rw [hemptied, drained_ofList]; simp, fun r ↦ (hmem r).trans (kicked_ofList r), ?_⟩
    refine hasc.imp fun {r r'} hlt ↦ ?_
    unfold NoLater
    rw [if_neg Bool.false_ne_true]
    exact Int.not_le.mpr hlt

theorem all_writable_iff {rs : List Record}
    (hmem : ∀ r, r ∈ rs ↔ Kicked protect limit records r) :
    (others connectKey rs).all (writable userName) = true ↔
      ∀ r, Kicked protect limit records r → r.2 ≠ connectKey → writable userName r.2 = true := by
  rw [List.all_eq_true]
  constructor
  · intro hw r hr hkey
    exact hw r.2 (List.mem_filter.mpr
      ⟨List.mem_map_of_mem ((hmem r).mpr hr), decide_eq_true hkey⟩)
  · intro hw k hk
    obtain ⟨hk, hkey⟩ := List.mem_filter.mp hk
    obtain ⟨r, hr, rfl⟩ := List.mem_map.mp hk
    exact hw r ((hmem r).mp hr) (of_decide_eq_true hkey)

theorem nil_not_mem_takeWhile_iff (hkey : connectKey ≠ []) {rs : List Record}
    (hmem : ∀ r, r ∈ rs ↔ Kicked protect limit records r)
    (hsorted : rs.Pairwise fun r r' ↦ ¬ NoLater protect r' r) :
    [] ∉ (others connectKey rs).takeWhile (writable userName) ↔
      ∀ r, Kicked protect limit records r → r.2 = [] →
        ∃ r', Kicked protect limit records r' ∧ NoLater protect r' r ∧ r'.2 ≠ connectKey ∧
          writable userName r'.2 = false := by
  rw [mem_takeWhile_others hkey.symm hsorted]
  simp only [hmem]
  push Not
  simp only [ne_eq, Bool.not_eq_true]

theorem answeredOnce_rounds (h : Recorded s .registered ctx) (hne : records ≠ [])
    (groupUid : Bytes) :
    AnsweredOnce (decideLogin ctx groupUid
        (rounds protect limit (Multimap.ofList records)) s) ctx.arg ↔
      KickAnswers protect limit ctx.userName ctx.connectKey records := by
  obtain ⟨hemptied, hmem, hsorted⟩ := @rounds_ofList protect limit records hne
  rw [answeredOnce_decideLogin h]
  generalize rounds protect limit (Multimap.ofList records) = rs at *
  have hall := @all_writable_iff _ _ ctx.userName ctx.connectKey _ _ hmem
  have hnil := @nil_not_mem_takeWhile_iff _ _ ctx.userName _ _ h.nonempty _ hmem hsorted
  have hkicked : ctx.connectKey ∈ rs.1.map Prod.snd ↔
      ∃ r, Kicked protect limit records r ∧ r.2 = ctx.connectKey := by
    rw [List.mem_map]
    simp only [hmem]
  split
  · next hw =>
    have hself : (others ctx.connectKey rs.1).takeWhile (writable ctx.userName) =
        others ctx.connectKey rs.1 :=
      List.takeWhile_eq_self_iff.mpr (List.all_eq_true.mp hw)
    rw [hself] at hnil
    rw [hnil, hkicked]
    rw [hall] at hw
    constructor
    · rintro ⟨hfalse, hkey, haddressed⟩
      refine ⟨fun hp _ hd ↦ ?_, ?_, haddressed⟩
      · exact absurd (hemptied.mpr ⟨hp, hd⟩) (by rw [hfalse]; exact Bool.false_ne_true)
      · by_cases hmine : ∃ r, Kicked protect limit records r ∧ r.2 = ctx.connectKey
        · exact .inl (hkey hmine)
        · refine .inr fun r hr ↦ ?_
          have hother : r.2 ≠ ctx.connectKey := fun he ↦ hmine ⟨r, hr, he⟩
          exact ⟨hother, hw r hr hother⟩
    · intro hanswers
      refine ⟨Bool.eq_false_iff.mpr fun htrue ↦ ?_, ?_, hanswers.addressed⟩
      · obtain ⟨hp, hd⟩ := hemptied.mp htrue
        exact hanswers.stays hp hw hd
      · rintro ⟨r, hr, he⟩
        exact hanswers.written.resolve_right fun hothers ↦ (hothers r hr).1 he
  · next hw =>
    rw [hnil]
    rw [hall] at hw
    constructor
    · rintro ⟨hkey, haddressed⟩
      exact ⟨fun _ hall' ↦ absurd hall' hw, .inl hkey, haddressed⟩
    · intro hanswers
      refine ⟨hanswers.written.resolve_right fun hothers ↦ ?_, hanswers.addressed⟩
      exact hw fun r hr _ ↦ (hothers r hr).2

end

theorem filter_other_realm {r r' : Realm} (h : Recorded s r ctx) {req : AuthBroadcastItem}
    (hreq : req.type.realm = some r') (hne : r' ≠ r) :
    (broadcastResponse req s).2.filter (·.arg = ctx.arg) = [] := by
  refine List.filter_eq_nil_iff.mpr fun call hcall he ↦ hne ?_
  obtain ⟨r'', connectKey, item, hr, hentry, harg⟩ := mem_broadcastResponse hcall
  cases hr.symm.trans hreq
  exact (h.once _ req.channel connectKey item hentry
    (harg.symm.trans (of_decide_eq_true he))).1

theorem isUtf8_cantFindRecord : isUtf8 cantFindRecord = true := isUtf8_of_ascii (by decide +kernel)

theorem isUtf8_cantFindActiveInfo : isUtf8 cantFindActiveInfo = true :=
  isUtf8_of_ascii (by decide +kernel)

theorem unnamed_answers (h : Recorded s .unnamed ctx) {r : RedisReply} {records : List Record}
    (hread : readRecords r.elements = .ok records) :
    AnsweredOnce (redisAddUnnameCallback ctx (some r) s) ctx.arg ↔
      ctx.connectKey ∈ r.elements.map Prod.fst := by
  unfold redisAddUnnameCallback
  dsimp only
  rw [hread]
  dsimp only
  split
  · next hmem => exact iff_of_true (answeredOnce_call .ok _ _ (.inl rfl)) hmem
  · next hmem =>
    refine iff_of_false ?_ hmem
    split
    · exact not_answeredOnce_undefined
    · next first rest _ =>
      split
      · exact not_answeredOnce_throws
      · next item hitem =>
        rw [sendChangeAuthStatus_eq isUtf8_cantFindRecord] at hitem
        obtain ⟨-, hitem⟩ := Option.ite_none_right_eq_some.mp hitem
        cases hitem
        rw [answeredOnce_done, List.flatMap_singleton,
          @filter_other_realm _ _ _ _ _ .registered h _ rfl (by decide)]
        rintro ⟨call, hcall, -⟩
        cases hcall

theorem named_answers (opt : AuthOpt) (h : Recorded s .registered ctx) {r : RedisReply}
    {records : List Record} (hread : readRecords r.elements = .ok records) :
    AnsweredOnce (redisAddLoginCallback opt ctx (some r) s) ctx.arg ↔
      match (s.limitMap .registered).lookup ctx.userName with
      | some limit =>
        if ctx.connectKey ∈ r.elements.map Prod.fst then
          KickAnswers (opt.protects ctx.type) limit.size ctx.userName ctx.connectKey records
        else writable ctx.userName ctx.connectKey = true
      | none => writable ctx.userName ctx.connectKey = true := by
  have hfail : ∀ {reason : Bytes}, isUtf8 reason = true →
      (AnsweredOnce (fail ctx reason [] s) ctx.arg ↔
        writable ctx.userName ctx.connectKey = true) := by
    intro reason hreason
    have hiff := @answeredOnce_fail _ _ _ _ h [] List.not_mem_nil reason reason hreason
    exact hiff.trans (and_iff_left List.not_mem_nil)
  by_cases hmem : ctx.connectKey ∈ r.elements.map Prod.fst
  · cases hlimit : (s.limitMap .registered).lookup ctx.userName with
    | none =>
      unfold redisAddLoginCallback
      dsimp only
      rw [hread]
      dsimp only
      rw [if_pos hmem, hlimit]
      exact hfail isUtf8_cantFindActiveInfo
    | some limit =>
      have hne : records ≠ [] := by
        rintro rfl
        rw [← readRecords_keys hread] at hmem
        cases hmem
      rw [redisAddLoginCallback_eq opt ctx s hread hmem hlimit, answeredOnce_rounds h hne]
      dsimp only
      rw [if_pos hmem]
  · unfold redisAddLoginCallback
    dsimp only
    rw [hread]
    dsimp only
    rw [if_neg hmem, hfail isUtf8_cantFindRecord]
    cases (s.limitMap .registered).lookup ctx.userName with
    | none => rfl
    | some limit =>
      dsimp only
      rw [if_neg hmem]

theorem one_answer (parse : Bytes → Option Json) (opt : AuthOpt) (ctx : AuthCtx Bytes A)
    (s : Logins Bytes A) (reply : Option RedisReply) (req : AuthRequest)
    (h : req = .login → Recorded s (opt.realm ctx.type) ctx) :
    AnsweredOnce (handleReply parse opt (req.command opt ctx) reply s) ctx.arg ↔
      Answerable parse opt ctx s reply req := by
  cases req with
  | verify => exact verify_answers parse opt ctx s reply
  | login =>
    have hrecorded := h rfl
    unfold Answerable AuthRequest.command
    cases reply with
    | none =>
      refine iff_of_false ?_ fun ⟨_, _, hr, _⟩ ↦ nomatch hr
      cases opt.realm ctx.type with
      | registered => exact not_answeredOnce_undefined
      | unnamed => exact not_answeredOnce_undefined
    | some r =>
      cases hread : readRecords r.elements with
      | error e =>
        refine iff_of_false ?_ fun ⟨_, records, hr, hread', _⟩ ↦ ?_
        · cases hrealm : opt.realm ctx.type with
          | registered =>
            unfold handleReply redisAddLoginCallback
            dsimp only
            rw [hread]
            exact not_answeredOnce_throws
          | unnamed =>
            unfold handleReply redisAddUnnameCallback
            dsimp only
            rw [hread]
            exact not_answeredOnce_throws
        · cases hr
          cases hread.symm.trans hread'
      | ok records =>
        have hany : ∀ P : List (Bytes × Bytes) → List Record → Prop,
            (∃ r' records', some r = some r' ∧ readRecords r'.elements = .ok records' ∧
              P r'.elements records') ↔ P r.elements records := by
          refine fun P ↦ ⟨?_, fun hP ↦ ⟨r, records, rfl, hread, hP⟩⟩
          rintro ⟨r', records', hr, hread', hP⟩
          cases hr
          cases hread.symm.trans hread'
          exact hP
        refine Iff.trans ?_ (hany (LoginAnswers opt ctx s)).symm
        unfold LoginAnswers
        cases hrealm : opt.realm ctx.type with
        | registered => exact named_answers opt (hrealm ▸ hrecorded) hread
        | unnamed => exact unnamed_answers (hrealm ▸ hrecorded) hread

def client : AuthCtx Bytes Nat := ⟨.client, ascii "u", [], ascii "k", 7⟩

theorem one_answer_client :
    AnsweredOnce (handleReply (fun _ ↦ none) ⟨false, false, true, false, false⟩
        (AuthRequest.login.command ⟨false, false, true, false, false⟩ client)
        (some (.array [(ascii "k", ascii "5")]))
        (addLoginRecord ⟨false, false, true, false, false⟩ client {}).1) 7 ↔
      Answerable (fun _ ↦ none) ⟨false, false, true, false, false⟩ client
        (addLoginRecord ⟨false, false, true, false, false⟩ client {}).1
        (some (.array [(ascii "k", ascii "5")])) .login :=
  one_answer (fun _ ↦ none) ⟨false, false, true, false, false⟩ client _ _ .login
    fun _ ↦ recorded_addLoginRecord _ (by decide) rfl nofun

theorem not_one_answer :
    ¬ ∀ (parse : Bytes → Option Json) (opt : AuthOpt) (ctx : AuthCtx Bytes Nat)
      (s : Logins Bytes Nat) (reply : Option RedisReply) (req : AuthRequest),
      (req = .login → Recorded s (opt.realm ctx.type) ctx) →
      AnsweredOnce (handleReply parse opt (req.command opt ctx) reply s) ctx.arg := by
  intro h
  have hlogin := h (fun _ ↦ none) ⟨false, false, true, false, false⟩ client
    (addLoginRecord ⟨false, false, true, false, false⟩ client {}).1 (some (.array [])) .login
    fun _ ↦ recorded_addLoginRecord _ (by decide) rfl nofun
  exact not_answeredOnce_undefined hlogin

end NavCaster.Auth.Answers
