import NavCaster.Auth.Rounds

namespace NavCaster.Auth.Limit

open NavCaster.Library
open NavCaster.Library.Strto (Bytes Exn)
open NavCaster.Library.Scan NavCaster.Library.Utf8
open NavCaster.Auth.Account NavCaster.Auth.Verify NavCaster.Auth.Rounds

/-- The logins of a user when a new connection asks for them: their connect keys differ, and are
texts as the program makes them. -/
structure LoginRecords (connectKey : Bytes) where
  fields : List (Bytes × Bytes)
  records : List Record
  read : readRecords fields = .ok records
  nodup : (fields.map Prod.fst).Nodup
  utf8 : ∀ e ∈ fields, isUtf8 e.1 = true
  mine : connectKey ∈ fields.map Prod.fst

namespace LoginRecords

variable {connectKey : Bytes} (rs : LoginRecords connectKey)

theorem keys : rs.records.map Prod.snd = rs.fields.map Prod.fst := readRecords_keys rs.read

theorem nodup_records : (rs.records.map Prod.snd).Nodup := by
  rw [rs.keys]
  exact rs.nodup

theorem utf8_records : ∀ r ∈ rs.records, isUtf8 r.2 = true := by
  intro r hr
  have hk : r.2 ∈ rs.fields.map Prod.fst := by
    rw [← rs.keys]
    exact List.mem_map_of_mem hr
  obtain ⟨e, he, hek⟩ := List.mem_map.mp hk
  exact hek ▸ rs.utf8 e he

theorem utf8_mine (rs : LoginRecords connectKey) : isUtf8 connectKey = true := by
  obtain ⟨e, he, rfl⟩ := List.mem_map.mp rs.mine
  exact rs.utf8 e he

theorem handler {A : Type} (opt : AuthOpt) (ctx : AuthCtx Bytes A) (s : Logins Bytes A)
    (rs : LoginRecords ctx.connectKey) {limit : AuthLimit}
    (hlimit : (s.limitMap .registered).lookup ctx.userName = some limit) :
    redisAddLoginCallback opt ctx (some (.array rs.fields)) s =
      decideLogin ctx (normalizeGroupUid limit.group)
        (rounds (opt.protects ctx.type) limit.size (Multimap.ofList rs.records)) s :=
  @redisAddLoginCallback_eq rs.records A opt ctx (.array rs.fields) s limit rs.read rs.mine hlimit

end LoginRecords

/-- So many records as exceed the limit are sent an error, the latest ones with protection and the
earliest ones without, and the connection itself is let in unless it is one of them. -/
structure Limited {A : Type} (protect : Bool) (limit : Nat) (ctx : AuthCtx Bytes A)
    (groupUid : Bytes) (records : List Record) (calls : List (AuthCall A))
    (sent : List AuthBroadcastItem) : Prop where
  errors : ∀ item ∈ sent, item = errItem ctx.userName item.connectKey upperLimit
  nodup : (sent.map AuthBroadcastItem.connectKey).Nodup
  known : ∀ item ∈ sent, ∃ r ∈ records, r.2 = item.connectKey
  count : sent.length = records.length - limit
  order : ∀ r ∈ records, ∀ r' ∈ records, r.2 ∈ sent.map AuthBroadcastItem.connectKey →
    r'.2 ∉ sent.map AuthBroadcastItem.connectKey → if protect then r'.1 ≤ r.1 else r.1 ≤ r'.1
  answer : calls = if ctx.connectKey ∈ sent.map AuthBroadcastItem.connectKey then []
    else [⟨ctx.arg, .ok, [], groupUid⟩]

def surplus (limit : Nat) (records : List Record) : List Record :=
  (Multimap.ofList records).reverse.take (records.length - limit)

/-- There is room for all, or those who are online are protected, no two of the latest records that
exceed the limit have the same time, and the user has a name that can be broadcast. -/
def Limitable (protect : Bool) (limit : Nat) (userName : Bytes) (records : List Record) : Prop :=
  records.length ≤ limit ∨
    protect = true ∧ ((surplus limit records).map Prod.fst).Nodup ∧ isUtf8 userName = true

theorem first_of_time {r : Record} {d : List Record} (hd : d.Pairwise (·.1 ≥ ·.1))
    (hr : ∀ x ∈ d, r.1 ≥ x.1) {x : Record} (hx : x ∈ d) (hxr : x.1 = r.1) {n : Nat} (hn : 0 < n) :
    ∃ y ∈ d.take n, y.1 = r.1 := by
  obtain ⟨y, d, rfl⟩ := List.exists_cons_of_ne_nil (List.ne_nil_of_mem hx)
  obtain ⟨n, rfl⟩ := Nat.exists_eq_add_one_of_ne_zero hn.ne'
  refine ⟨y, List.mem_cons_self, le_antisymm (hr y List.mem_cons_self) ?_⟩
  obtain rfl | hx := List.mem_cons.mp hx
  · exact hxr.ge
  · exact hxr ▸ (List.pairwise_cons.mp hd).1 x hx

theorem rounds_latest {limit : Nat} {d : List Record} (hd : d.Pairwise (·.1 ≥ ·.1)) :
    (rounds true limit d.reverse).2 = false ∧
      (((d.take (d.length - limit)).map Prod.fst).Nodup →
        (rounds true limit d.reverse).1 = d.take (d.length - limit)) ∧
      (¬ ((d.take (d.length - limit)).map Prod.fst).Nodup →
        (rounds true limit d.reverse).1.length ≠ d.length - limit) := by
  induction hn : d.length using Nat.strongRecOn generalizing d with
  | ind n ih =>
    subst hn
    by_cases hlt : limit < d.length
    · cases d with
      | nil => exact absurd hlt (Nat.not_lt_zero _)
      | cons r d =>
        obtain ⟨hr, hd'⟩ := List.pairwise_cons.mp hd
        let d' := d.filter (·.1 ≠ r.1)
        have hkick : kick true (r :: d).reverse = some (r, d'.reverse) := by
          unfold kick
          rw [if_pos rfl, List.getLast?_reverse, List.head?_cons, Option.map_some, Multimap.erase,
            List.filter_reverse, List.filter_cons_of_neg (by simp)]
        have hlt' : limit < (r :: d).reverse.length := by rw [List.length_reverse]; exact hlt
        have hle : d'.length ≤ d.length := List.length_filter_le _ _
        rw [List.length_cons] at hlt
        obtain ⟨hemptied, hnodup, hdup⟩ :=
          @ih d'.length (Nat.lt_succ_of_le hle) d' (hd'.filter _) rfl
        rw [rounds_of_some hlt' hkick]
        refine ⟨hemptied, ?_⟩
        have hsucc : (r :: d).length - limit = d.length - limit + 1 := by
          rw [List.length_cons]
          omega
        rw [hsucc, List.take_succ_cons, List.map_cons, List.nodup_cons]
        by_cases hsame : ∀ x ∈ d, x.1 ≠ r.1
        · have hd'd : d' = d := List.filter_eq_self.mpr fun x hx ↦ by simpa using hsame x hx
          rw [hd'd] at hnodup hdup ⊢
          have hr' : r.1 ∉ (d.take (d.length - limit)).map Prod.fst := by
            rintro hmem
            obtain ⟨x, hx, he⟩ := List.mem_map.mp hmem
            exact hsame x (List.take_subset _ _ hx) he
          refine ⟨fun h ↦ congrArg (r :: ·) (hnodup h.2), fun h ↦ ?_⟩
          have hne := hdup fun h' ↦ h ⟨hr', h'⟩
          rw [List.length_cons]
          omega
        · push Not at hsame
          obtain ⟨x, hx, hxr⟩ := hsame
          have hless : d'.length < d.length :=
            List.length_filter_lt_length_iff_exists.mpr ⟨x, hx, by simp [hxr]⟩
          obtain hzero | hpos := Nat.eq_zero_or_pos (d.length - limit)
          · rw [hzero, List.take_zero, rounds_of_le (by rw [List.length_reverse]; omega)]
            exact ⟨fun _ ↦ rfl, fun h ↦ absurd ⟨List.not_mem_nil, List.nodup_nil⟩ h⟩
          · refine ⟨fun h ↦ absurd ?_ h.1, fun _ ↦ ?_⟩
            · exact List.mem_map.mpr (first_of_time hd' hr hx hxr hpos)
            · have hfew := @length_rounds_le true limit d'.reverse
              rw [List.length_reverse] at hfew
              rw [List.length_cons]
              omega
    · have hle : d.length ≤ limit := by omega
      rw [rounds_of_le (by rwa [List.length_reverse]), Nat.sub_eq_zero_of_le hle]
      exact ⟨rfl, fun _ ↦ rfl, fun h ↦ absurd List.nodup_nil h⟩

def targets (connectKey : Bytes) (rs : List Record) : List Bytes :=
  others connectKey rs ++ if connectKey ∈ rs.map Prod.snd then [connectKey] else []

variable {A : Type} {ctx : AuthCtx Bytes A} {groupUid : Bytes} {s : Logins Bytes A} {limit : Nat}
  {protect : Bool}

theorem mem_targets {connectKey k : Bytes} {rs : List Record} :
    k ∈ targets connectKey rs ↔ k ∈ rs.map Prod.snd := by
  unfold targets others
  rw [List.mem_append, List.mem_filter]
  by_cases hk : k = connectKey
  · subst hk
    by_cases hmem : k ∈ rs.map Prod.snd
    · rw [if_pos hmem]
      simp [hmem]
    · rw [if_neg hmem]
      simp [hmem]
  · refine ⟨?_, fun h ↦ .inl ⟨h, by simpa using hk⟩⟩
    rintro (h | h)
    · exact h.1
    · split at h
      · exact absurd (List.mem_singleton.mp h) hk
      · cases h

theorem perm_targets {connectKey : Bytes} {rs : List Record} (hrs : (rs.map Prod.snd).Nodup) :
    (targets connectKey rs).Perm (rs.map Prod.snd) := by
  have hnodup : (targets connectKey rs).Nodup := by
    refine List.Nodup.append (hrs.filter _) ?_ ?_
    · split
      · exact List.nodup_singleton _
      · exact List.nodup_nil
    · intro k hk hk'
      have hne : k ≠ connectKey := by simpa using (List.mem_filter.mp hk).2
      split at hk'
      · exact hne (List.mem_singleton.mp hk')
      · cases hk'
  exact (List.perm_ext_iff_of_nodup hnodup hrs).mpr fun k ↦ mem_targets

theorem length_targets_le {connectKey : Bytes} {rs : List Record} :
    (targets connectKey rs).length ≤ rs.length := by
  unfold targets others
  rw [List.length_append]
  split
  · next hmem =>
    have hlt : ((rs.map Prod.snd).filter (· ≠ connectKey)).length < (rs.map Prod.snd).length :=
      List.length_filter_lt_length_iff_exists.mpr ⟨connectKey, hmem, by simp⟩
    rw [List.length_map] at hlt
    exact hlt
  · have hle := List.length_filter_le (fun k ↦ decide (k ≠ connectKey)) (rs.map Prod.snd)
    rw [List.length_map] at hle
    exact hle

theorem map_connectKey_errItem (userName reason : Bytes) (ks : List Bytes) :
    (ks.map (errItem userName · reason)).map AuthBroadcastItem.connectKey = ks := by
  rw [List.map_map]
  exact List.map_id ks

theorem all_writable {userName connectKey : Bytes} (huser : isUtf8 userName = true)
    {rs : List Record} (hrs : ∀ r ∈ rs, isUtf8 r.2 = true) :
    (others connectKey rs).all (writable userName) = true := by
  refine List.all_eq_true.mpr fun k hk ↦ ?_
  obtain ⟨r, hr, rfl⟩ := List.mem_map.mp (List.mem_filter.mp hk).1
  exact Bool.and_eq_true_iff.mpr ⟨huser, hrs r hr⟩

theorem decideLogin_of_utf8 (huser : isUtf8 ctx.userName = true)
    (hkey : isUtf8 ctx.connectKey = true) {rs : List Record} (hrs : ∀ r ∈ rs, isUtf8 r.2 = true) :
    decideLogin ctx groupUid (rs, false) s =
      .done s (if ctx.connectKey ∈ rs.map Prod.snd then [] else [⟨ctx.arg, .ok, [], groupUid⟩])
        ((targets ctx.connectKey rs).map (errItem ctx.userName · upperLimit)) := by
  have hall : (others ctx.connectKey rs).all (writable ctx.userName) = true :=
    all_writable huser hrs
  unfold decideLogin targets
  dsimp only
  rw [if_pos hall, if_neg Bool.false_ne_true]
  by_cases hmem : ctx.connectKey ∈ rs.map Prod.snd
  · have hw : writable ctx.userName ctx.connectKey = true := Bool.and_eq_true_iff.mpr ⟨huser, hkey⟩
    rw [if_pos hmem, if_pos hmem, if_pos hmem, fail, sendChangeAuthStatus_eq isUtf8_upperLimit,
      if_pos hw, List.map_append]
    rfl
  · rw [if_neg hmem, if_neg hmem, if_neg hmem, List.append_nil]

theorem decideLogin_emptied {rs : List Record} {s' : Logins Bytes A} {calls : List (AuthCall A)}
    {sent : List AuthBroadcastItem} (huser : isUtf8 ctx.userName = true)
    (hrs : ∀ r ∈ rs, isUtf8 r.2 = true) :
    decideLogin ctx groupUid (rs, true) s ≠ .done s' calls sent := by
  have hall : (others ctx.connectKey rs).all (writable ctx.userName) = true :=
    all_writable huser hrs
  unfold decideLogin
  dsimp only
  rw [if_pos hall, if_pos rfl]
  exact nofun

theorem decideLogin_of_not_utf8 (huser : isUtf8 ctx.userName = false) {rs : List Record × Bool}
    {s' : Logins Bytes A} {calls : List (AuthCall A)} {sent : List AuthBroadcastItem}
    (h : decideLogin ctx groupUid rs s = .done s' calls sent) : sent = [] := by
  have hnone : ∀ k, writable ctx.userName k = false := fun k ↦ by
    unfold writable
    rw [huser, Bool.false_and]
  have hfail : ∀ {reason : Bytes} {items : List AuthBroadcastItem},
      fail ctx reason items s ≠ .done s' calls sent := by
    intro reason items
    rw [fail, sendChangeAuthStatus, if_neg (by simp [huser])]
    exact nofun
  unfold decideLogin at h
  dsimp only at h
  split at h
  · next hall =>
    split at h
    · cases h
    · split at h
      · exact absurd h hfail
      · cases h
        refine List.map_eq_nil_iff.mpr (List.eq_nil_iff_forall_not_mem.mpr fun k hk ↦ ?_)
        exact absurd (List.all_eq_true.mp hall k hk) (by simp [hnone])
  · exact absurd h hfail

theorem limited_of_kicked {records kicked : List Record} (hnodup : (records.map Prod.snd).Nodup)
    (hsub : kicked ⊆ records) (hkicked : (kicked.map Prod.snd).Nodup)
    (hcount : kicked.length = records.length - limit)
    (horder : ∀ r ∈ kicked, ∀ r' ∈ records, r' ∉ kicked →
      if protect then r'.1 ≤ r.1 else r.1 ≤ r'.1) :
    Limited protect limit ctx groupUid records
      (if ctx.connectKey ∈ kicked.map Prod.snd then [] else [⟨ctx.arg, .ok, [], groupUid⟩])
      ((targets ctx.connectKey kicked).map (errItem ctx.userName · upperLimit)) := by
  have hperm := @perm_targets ctx.connectKey _ hkicked
  have hkey : ∀ r ∈ records, r.2 ∈ kicked.map Prod.snd → r ∈ kicked := by
    intro r hr h
    obtain ⟨r', hr', he⟩ := List.mem_map.mp h
    exact List.inj_on_of_nodup_map hnodup (hsub hr') hr he ▸ hr'
  constructor
  case errors =>
    intro item hitem
    obtain ⟨k, -, rfl⟩ := List.mem_map.mp hitem
    rfl
  case nodup =>
    rw [map_connectKey_errItem]
    exact hperm.nodup_iff.mpr hkicked
  case known =>
    intro item hitem
    obtain ⟨k, hk, rfl⟩ := List.mem_map.mp hitem
    obtain ⟨r, hr, he⟩ := List.mem_map.mp (mem_targets.mp hk)
    exact ⟨r, hsub hr, he⟩
  case count =>
    rw [List.length_map, hperm.length_eq, List.length_map, hcount]
  case order =>
    rw [map_connectKey_errItem]
    intro r hr r' hr' h h'
    exact horder r (hkey r hr (mem_targets.mp h)) r' hr' fun hk ↦
      h' (mem_targets.mpr (List.mem_map_of_mem hk))
  case answer =>
    rw [map_connectKey_errItem]
    simp only [mem_targets]

theorem rounds_earliest {m : List Record} (hm : Multimap.Ordered m) (hlt : limit < m.length) :
    rounds false limit m = ([], true) ∨
      ∃ r₀ ∈ m, ∃ r ∈ (rounds false limit m).1, r₀.1 < r.1 ∧ r₀ ∉ (rounds false limit m).1 := by
  cases m with
  | nil => exact absurd hlt (Nat.not_lt_zero _)
  | cons r₀ m =>
    have hrest : Multimap.erase r₀.1 (r₀ :: m) = Multimap.erase r₀.1 m :=
      List.filter_cons_of_neg (by simp)
    cases hm' : Multimap.erase r₀.1 m with
    | nil =>
      refine .inl (rounds_of_none hlt ?_)
      unfold kick
      rw [if_neg Bool.false_ne_true, List.head?_cons, Option.bind_some, hrest, hm']
      rfl
    | cons r rest =>
      have hkick : kick false (r₀ :: m) = some (r, r :: rest) := by
        unfold kick
        rw [if_neg Bool.false_ne_true, List.head?_cons, Option.bind_some, hrest, hm']
        rfl
      have hlater : ∀ x ∈ r :: rest, x ∈ m ∧ x.1 ≠ r₀.1 := by
        intro x hx
        rw [← hm'] at hx
        obtain ⟨hx, hne⟩ := List.mem_filter.mp hx
        exact ⟨hx, of_decide_eq_true hne⟩
      rw [rounds_of_some hlt hkick]
      refine .inr ⟨r₀, List.mem_cons_self, r, List.mem_cons_self, ?_, fun h ↦ ?_⟩
      · obtain ⟨hr, hne⟩ := hlater r List.mem_cons_self
        exact lt_of_le_of_ne ((List.pairwise_cons.mp hm).1 r hr) hne.symm
      · obtain he | h := List.mem_cons.mp h
        · exact (hlater r List.mem_cons_self).2 (congrArg Prod.fst he.symm)
        · exact (hlater r₀ (rounds_subset r₀ h)).2 rfl

section

variable {records : List Record} (hutf8 : ∀ r ∈ records, isUtf8 r.2 = true)
  (hkey : isUtf8 ctx.connectKey = true)

include hutf8 hkey

theorem limited_of_limitable (hnodup : (records.map Prod.snd).Nodup)
    (h : Limitable protect limit ctx.userName records) :
    ∃ calls sent, decideLogin ctx groupUid (rounds protect limit (Multimap.ofList records)) s =
      .done s calls sent ∧ Limited protect limit ctx groupUid records calls sent := by
  have hperm := Multimap.perm_ofList records
  by_cases hle : records.length ≤ limit
  · rw [rounds_of_le (hperm.length_eq.trans_le hle)]
    refine ⟨_, _, rfl, limited_of_kicked hnodup (List.nil_subset _) List.nodup_nil ?_ nofun⟩
    exact (Nat.sub_eq_zero_of_le hle).symm
  · obtain ⟨rfl, htimes, huser⟩ := h.resolve_left hle
    have hdesc : (Multimap.ofList records).reverse.Pairwise (·.1 ≥ ·.1) :=
      List.pairwise_reverse.mpr (Multimap.ordered_ofList records)
    obtain ⟨hemptied, hlatest, -⟩ := @rounds_latest limit _ hdesc
    rw [List.reverse_reverse] at hemptied hlatest
    rw [List.length_reverse, hperm.length_eq] at hlatest
    have hrounds : rounds true limit (Multimap.ofList records) = (surplus limit records, false) :=
      Prod.ext (hlatest htimes) hemptied
    have hsub : surplus limit records ⊆ records := fun r hr ↦
      hperm.subset (List.mem_reverse.mp (List.take_subset _ _ hr))
    rw [hrounds, decideLogin_of_utf8 huser hkey fun r hr ↦ hutf8 r (hsub hr)]
    refine ⟨_, _, rfl, limited_of_kicked hnodup hsub ?_ ?_ ?_⟩
    · have hall : ((Multimap.ofList records).reverse.map Prod.snd).Nodup :=
        (((List.reverse_perm _).trans hperm).map Prod.snd).nodup_iff.mpr hnodup
      exact hall.sublist ((List.take_sublist _ _).map Prod.snd)
    · rw [surplus, List.length_take, List.length_reverse, hperm.length_eq]
      omega
    · intro r hr r' hr' hstays
      have hmem : r' ∈ (Multimap.ofList records).reverse :=
        List.mem_reverse.mpr (hperm.symm.subset hr')
      rw [if_pos rfl]
      rw [← List.take_append_drop (records.length - limit) (Multimap.ofList records).reverse]
        at hdesc hmem
      exact (List.pairwise_append.mp hdesc).2.2 r hr r'
        ((List.mem_append.mp hmem).resolve_left hstays)

theorem limitable_of_limited (hnodup : (records.map Prod.snd).Nodup) {calls : List (AuthCall A)}
    {sent : List AuthBroadcastItem}
    (hdone : decideLogin ctx groupUid (rounds protect limit (Multimap.ofList records)) s =
      .done s calls sent)
    (h : Limited protect limit ctx groupUid records calls sent) :
    Limitable protect limit ctx.userName records := by
  have hperm := Multimap.perm_ofList records
  by_cases hle : records.length ≤ limit
  · exact .inl hle
  · have hlt : limit < (Multimap.ofList records).length := by
      rw [hperm.length_eq]
      omega
    have hsub := @rounds_subset protect limit (Multimap.ofList records)
    have hcount := h.count
    have huser : isUtf8 ctx.userName = true := by
      by_contra hno
      rw [decideLogin_of_not_utf8 (Bool.eq_false_iff.mpr hno) hdone, List.length_nil] at hcount
      omega
    cases hrounds : rounds protect limit (Multimap.ofList records) with
    | mk kicked emptied =>
      rw [hrounds] at hdone hsub
      have hwritten : ∀ r ∈ kicked, isUtf8 r.2 = true :=
        fun r hr ↦ hutf8 r (hperm.subset (hsub r hr))
      cases emptied with
      | true => exact absurd hdone (decideLogin_emptied huser hwritten)
      | false =>
        rw [decideLogin_of_utf8 huser hkey hwritten] at hdone
        cases hdone
        have horder := h.order
        rw [map_connectKey_errItem] at horder
        cases protect with
        | true =>
          refine .inr ⟨rfl, ?_, huser⟩
          by_contra hdup
          have hdesc : (Multimap.ofList records).reverse.Pairwise (·.1 ≥ ·.1) :=
            List.pairwise_reverse.mpr (Multimap.ordered_ofList records)
          have hfew := (@rounds_latest limit _ hdesc).2.2
          rw [List.reverse_reverse, List.length_reverse, hperm.length_eq, hrounds] at hfew
          have hless := @length_rounds_le true limit (Multimap.ofList records)
          rw [hrounds, hperm.length_eq] at hless
          have hle := @length_targets_le ctx.connectKey kicked
          rw [List.length_map] at hcount
          exact hfew hdup (le_antisymm hless (hcount ▸ hle))
        | false =>
          obtain hnone | ⟨r₀, hr₀, r, hr, hlt, hstays⟩ :=
            rounds_earliest (Multimap.ordered_ofList records) hlt
          · cases hrounds.symm.trans hnone
          · rw [hrounds] at hr hstays
            have hle := horder r (hperm.subset (hsub r hr)) r₀ (hperm.subset hr₀)
              (mem_targets.mpr (List.mem_map_of_mem hr)) fun hmem ↦ ?_
            · exact absurd hle (not_le.mpr hlt)
            · obtain ⟨r', hr', he⟩ := List.mem_map.mp (mem_targets.mp hmem)
              have heq := List.inj_on_of_nodup_map hnodup (hperm.subset (hsub r' hr'))
                (hperm.subset hr₀) he
              exact hstays (heq ▸ hr')

end

theorem connection_limit (opt : AuthOpt) (ctx : AuthCtx Bytes A) (s : Logins Bytes A)
    (rs : LoginRecords ctx.connectKey) {limit : AuthLimit}
    (hlimit : (s.limitMap .registered).lookup ctx.userName = some limit) :
    (∃ calls sent, redisAddLoginCallback opt ctx (some (.array rs.fields)) s = .done s calls sent ∧
      Limited (opt.protects ctx.type) limit.size ctx (normalizeGroupUid limit.group) rs.records
        calls sent) ↔
      Limitable (opt.protects ctx.type) limit.size ctx.userName rs.records := by
  rw [rs.handler opt ctx s hlimit]
  constructor
  · rintro ⟨calls, sent, hdone, h⟩
    exact limitable_of_limited rs.utf8_records rs.utf8_mine rs.nodup_records hdone h
  · exact limited_of_limitable rs.utf8_records rs.utf8_mine rs.nodup_records

def twoLogins : LoginRecords (ascii "k1") where
  fields := [(ascii "k1", ascii "5"), (ascii "k2", ascii "3")]
  records := [(5, ascii "k1"), (3, ascii "k2")]
  read := rfl
  nodup := by decide
  utf8 := by decide
  mine := by decide

def oneLogin : Logins Bytes Nat where
  limitMap _ := (∅ : Table Bytes AuthLimit).insert (ascii "u") { connectLimit := 1 }

def newcomer : AuthCtx Bytes Nat := ⟨.server, ascii "u", [], ascii "k1", 7⟩

theorem oneLogin_limit : (oneLogin.limitMap .registered).lookup newcomer.userName =
    some { connectLimit := 1 } := by decide

theorem connection_limit_protected :
    ∃ calls sent, redisAddLoginCallback ⟨false, true, false, false, false⟩ newcomer
      (some (.array twoLogins.fields)) oneLogin = .done oneLogin calls sent ∧
      Limited true 1 newcomer (ascii "default") twoLogins.records calls sent :=
  (connection_limit ⟨false, true, false, false, false⟩ newcomer oneLogin twoLogins
    oneLogin_limit).mpr (.inr ⟨rfl, by decide, by decide⟩)

theorem not_connection_limit :
    ¬ ∀ (opt : AuthOpt) (ctx : AuthCtx Bytes Nat) (s : Logins Bytes Nat)
      (rs : LoginRecords ctx.connectKey) (limit : AuthLimit), 1 ≤ limit.size →
      (s.limitMap .registered).lookup ctx.userName = some limit →
      ∃ calls sent, redisAddLoginCallback opt ctx (some (.array rs.fields)) s =
          .done s calls sent ∧
        Limited (opt.protects ctx.type) limit.size ctx (normalizeGroupUid limit.group) rs.records
          calls sent := by
  intro h
  obtain ⟨calls, sent, hdone, hlimited⟩ :=
    h ⟨false, false, false, false, false⟩ newcomer oneLogin twoLogins _ (by decide) oneLogin_limit
  rw [twoLogins.handler _ _ _ oneLogin_limit] at hdone
  obtain hroom | ⟨hprotects, -⟩ := limitable_of_limited twoLogins.utf8_records twoLogins.utf8_mine
    twoLogins.nodup_records hdone hlimited
  · exact absurd hroom (by decide)
  · cases hprotects

end NavCaster.Auth.Limit
