import NavCaster.Core.Subscription
import NavCaster.Library.Walk

namespace NavCaster.Core.Aliases

open Relation
open NavCaster.Library
open NavCaster.Library.Walk
open NavCaster.Core.Connections
open NavCaster.Core.Subscription

structure AliasRule where
  aliasName : String
  sourceName : String
  enable : Bool := true

variable {A P : Type}

/-- The pieces between the delimiters, one more than there are delimiters. -/
def splitString (str : String) (delimiter : Char) : List String :=
  (str.toList.splitOn delimiter).map String.ofList

/-- `decode` is `none` for a value that is no rule in the present format. Such a value lists the
sources of its field. -/
def loadAliasRule (decode : String → Option AliasRule) (rules : Table String (List String))
    (record : String × String) : Table String (List String) :=
  match decode record.2 with
  | some rule =>
    if rule.aliasName ≠ "" ∧ rule.sourceName ≠ "" ∧ rule.enable then
      rules.insert rule.aliasName ((rules.lookup rule.aliasName).getD [] ++ [rule.sourceName])
    else rules
  | none => Table.insertNew rules record.1 (splitString record.2 ';')

/-- `reply` is `none` where there is none, or one that is no array. The bases that are registered
under the name of an alias stay as they are: `check_alias_rule_conflict` is not called. -/
def redisUpdateAliasRuleCallback (decode : String → Option AliasRule)
    (reply : Option (List (String × String))) (s : Caster A) : Caster A :=
  match reply with
  | none => s
  | some records => { s with aliasRuleMap := records.foldl (loadAliasRule decode) ∅ }

/-- The source that a subscription to the alias goes on to. -/
def nextSource (s : Caster A) (channel : String) : Option String :=
  (s.aliasRuleMap.lookup channel).bind s.firstOnline

def nextCall (s : Caster A) (channel : String) : Option String :=
  (nextSource s channel).filter (channel ≠ ·)

/-- The subscriber is called once, with an error or with a base that is online, that is no alias,
and to which it is subscribed. -/
def IsAnswer (item : CbItem A) (e : Effect A P) : Prop :=
  ∃ c, e.calls = [c] ∧ c.arg = item.arg ∧
    (c.reply = .err ∨ c.reply = .ok ∧ e.caster.online c.str ∧ e.caster.isAliasMpt c.str = false ∧
      (e.caster.sub .base c.str item.connectKey).isSome)

variable (P) in
def Answered (s : Caster A) (channel : String) (item : CbItem A) (skip : Bool) : Prop :=
  ∃ fuel, ∃ e : Effect A P, subBaseChannel fuel channel item skip s = some e ∧ IsAnswer item e

section

variable {s : Caster A} {channel b : String} {item : CbItem A} {e : Effect A P}

theorem nextCall_dropSub (s : Caster A) (channel key : String) :
    nextCall (s.dropSub .base channel key) = nextCall s := rfl

theorem nextCall_eq_some :
    nextCall s channel = some b ↔ nextSource s channel = some b ∧ channel ≠ b := by
  unfold nextCall
  rw [Option.filter_eq_some_iff]
  exact and_congr_right fun _ ↦ decide_eq_true_iff

theorem isAliasMpt_of_nextSource (h : nextSource s channel = some b) :
    s.isAliasMpt channel = true := by
  obtain ⟨sources, hs, -⟩ := Option.bind_eq_some_iff.mp h
  unfold Caster.isAliasMpt
  rw [hs]
  rfl

theorem subAliasChannel_of_nextSource (fuel : Nat) (h : nextSource s channel = some b) :
    (subAliasChannel (fuel + 1) channel item s : Option (Effect A P)) =
      if channel = b then some { code := 0, caster := s }
      else subBaseChannel fuel b item false (s.dropSub .base channel item.connectKey) := by
  obtain ⟨sources, hs, hb⟩ := Option.bind_eq_some_iff.mp h
  rw [subAliasChannel, hs]
  dsimp only
  rw [hb]

theorem subBaseChannel_of_nextSource (fuel : Nat) (skip : Bool)
    (h : nextSource s channel = some b) :
    (subBaseChannel (fuel + 2) channel item skip s : Option (Effect A P)) =
      if channel = b then some { code := 0, caster := s }
      else subBaseChannel fuel b item false (s.dropSub .base channel item.connectKey) := by
  rw [subBaseChannel, if_pos (isAliasMpt_of_nextSource h), subAliasChannel_of_nextSource fuel h]

theorem isAnswer_failure (s : Caster A) (code : Nat) (item : CbItem A) (reason : String) :
    IsAnswer item (failure s code item.arg reason : Effect A P) :=
  ⟨_, rfl, rfl, .inl rfl⟩

theorem isAnswer_subMount (skip : Bool) (h : s.isAliasMpt channel = false) :
    IsAnswer item (subMount channel item skip s : Effect A P) := by
  unfold subMount
  dsimp only
  split
  · exact isAnswer_failure ..
  · split
    · next honline => exact ⟨_, rfl, rfl, .inr ⟨rfl, honline, h, isSome_sub_addSub channel⟩⟩
    · exact isAnswer_failure ..

variable (P) in
theorem answer_of_stop (item : CbItem A) (skip : Bool) (h : nextSource s channel = none) :
    ∃ e : Effect A P, (∀ fuel, subBaseChannel (fuel + 2) channel item skip s = some e) ∧
      IsAnswer item e := by
  cases ha : s.isAliasMpt channel with
  | false =>
    exact ⟨_, fun fuel ↦ subBaseChannel_of_not_alias (fuel + 1) skip ha, isAnswer_subMount skip ha⟩
  | true =>
    cases hs : s.aliasRuleMap.lookup channel with
    | none =>
      refine ⟨_, fun fuel ↦ ?_, isAnswer_failure s 1 item "Can't Find Alias Mount Point"⟩
      rw [subBaseChannel, if_pos ha, subAliasChannel, hs]
    | some sources =>
      have hfirst : s.firstOnline sources = none := by
        rw [nextSource, hs] at h
        exact h
      refine ⟨_, fun fuel ↦ ?_, isAnswer_failure s 2 item "Can't Find Useful Alias Mount Point"⟩
      rw [subBaseChannel, if_pos ha, subAliasChannel, hs]
      dsimp only
      rw [hfirst]

variable (P) in
theorem answered_of_ends {f : String → Option String} (h : Ends f channel) :
    ∀ (s : Caster A) (skip : Bool), nextSource s = f → Answered P s channel item skip := by
  induction h with
  | @stop channel h =>
    rintro s skip rfl
    obtain ⟨e, he, hans⟩ := answer_of_stop P item skip h
    exact ⟨2, e, he 0, hans⟩
  | @next channel b h hb ih =>
    rintro s skip rfl
    have hne : channel ≠ b := by
      rintro rfl
      exact hb.acyclic channel .refl (.single h)
    obtain ⟨fuel, e, he, hans⟩ := ih (s.dropSub .base channel item.connectKey) false rfl
    refine ⟨fuel + 2, e, ?_, hans⟩
    rw [subBaseChannel_of_nextSource fuel skip h, if_neg hne, he]

theorem subBaseChannel_induction {motive : String → Bool → Caster A → Effect A P → Prop}
    (stop : ∀ (fuel : Nat) channel skip s e, nextSource s channel = none →
      subBaseChannel fuel channel item skip s = some e → motive channel skip s e)
    (loop : ∀ channel skip s, nextSource s channel = some channel →
      motive channel skip s { code := 0, caster := s })
    (next : ∀ channel b skip s e, nextSource s channel = some b → channel ≠ b →
      motive b false (s.dropSub .base channel item.connectKey) e → motive channel skip s e)
    (fuel : Nat) : ∀ (channel : String) (skip : Bool) (s : Caster A) (e : Effect A P),
      subBaseChannel fuel channel item skip s = some e → motive channel skip s e := by
  induction fuel using Nat.strong_induction_on with
  | _ fuel ih =>
    intro channel skip s e he
    cases hn : nextSource s channel with
    | none => exact stop fuel channel skip s e hn he
    | some b =>
      obtain _ | _ | fuel := fuel
      · cases he
      · rw [subBaseChannel, if_pos (isAliasMpt_of_nextSource hn)] at he
        cases he
      · rw [subBaseChannel_of_nextSource fuel skip hn] at he
        split at he
        · next hb =>
          cases he
          subst hb
          exact loop channel skip s hn
        · next hb => exact next channel b skip s e hn hb (ih fuel (by omega) b false _ e he)

theorem ends_of_calls (fuel : Nat) :
    ∀ (channel : String) (skip : Bool) (s : Caster A) (e : Effect A P),
    subBaseChannel fuel channel item skip s = some e → e.calls ≠ [] →
      Ends (nextSource s) channel := by
  apply subBaseChannel_induction
  · intro _ channel skip s e hn _ _
    exact .stop hn
  · intro channel skip s _ hcalls
    exact absurd rfl hcalls
  · intro channel b skip s e hn _ ih hcalls
    exact .next hn (ih hcalls)

theorem finite_nextSource (s : Caster A) : {channel | (nextSource s channel).isSome}.Finite := by
  refine (List.finite_toSet s.aliasRuleMap.keys).subset fun channel h ↦ ?_
  obtain ⟨b, hb⟩ := Option.isSome_iff_exists.mp h
  obtain ⟨sources, hs, -⟩ := Option.bind_eq_some_iff.mp hb
  exact AList.mem_keys.mpr (Table.mem_of_lookup hs)

theorem acyclic_of_answered {skip : Bool} (h : Answered P s channel item skip) :
    Acyclic (nextSource s) channel := by
  obtain ⟨fuel, e, he, c, hc, -⟩ := h
  exact (ends_of_calls fuel channel skip s e he (hc ▸ List.cons_ne_nil c [])).acyclic

end

variable (P) in
/-- Exactly the subscriptions whose aliases lead to no cycle are answered. -/
theorem answered_iff_acyclic (s : Caster A) (channel : String) (item : CbItem A) (skip : Bool) :
    Answered P s channel item skip ↔ Acyclic (nextSource s) channel :=
  ⟨acyclic_of_answered, fun h ↦ answered_of_ends P (h.ends (finite_nextSource s)) s skip rfl⟩

def crossed : Caster Unit :=
  redisUpdateAliasRuleCallback (fun _ ↦ none) (some [("A", "B"), ("B", "A")])
    { activeMountMap := ["A", "B"] }

theorem not_answered_crossed :
    ¬ ∀ (decode : String → Option AliasRule) (reply : Option (List (String × String)))
      (s : Caster Unit) (channel : String) (item : CbItem Unit) (skip : Bool),
        Answered Unit (redisUpdateAliasRuleCallback decode reply s) channel item skip := by
  intro h
  have hans : Answered Unit crossed "A" ⟨"k", "A", "u", "", ()⟩ false := h ..
  have hab : Next (nextSource crossed) "A" "B" := by rfl
  have hba : Next (nextSource crossed) "B" "A" := by rfl
  exact acyclic_of_answered hans "A" .refl (.tail (.single hab) hba)

/-- The answer does not depend on how many calls are allowed, once they are enough. -/
theorem subBaseChannel_stable (fuel k : Nat) : ∀ (channel : String) (item : CbItem A) (skip : Bool)
    (s : Caster A) (e : Effect A P), subBaseChannel fuel channel item skip s = some e →
      subBaseChannel (fuel + k) channel item skip s = some e := by
  induction fuel using Nat.strong_induction_on with
  | _ fuel ih =>
    intro channel item skip s e he
    cases hn : nextSource s channel with
    | none =>
      obtain _ | _ | fuel := fuel
      · cases he
      · rw [subBaseChannel] at he
        split at he
        · cases he
        · next ha =>
          rw [show 0 + 1 + k = k + 1 by omega, subBaseChannel, if_neg ha]
          exact he
      · obtain ⟨e', he', -⟩ := answer_of_stop P item skip hn
        rw [show fuel + 1 + 1 + k = fuel + k + 2 by omega, he', ← he, he']
    | some b =>
      obtain _ | _ | fuel := fuel
      · cases he
      · rw [subBaseChannel, if_pos (isAliasMpt_of_nextSource hn)] at he
        cases he
      · rw [show fuel + 1 + 1 + k = fuel + k + 2 by omega, subBaseChannel_of_nextSource _ skip hn]
        rw [subBaseChannel_of_nextSource fuel skip hn] at he
        split
        · next hb => rw [if_pos hb] at he; exact he
        · next hb =>
          rw [if_neg hb] at he
          exact ih fuel (by omega) b item false _ e he

theorem subBaseChannel_mono {fuel fuel' : Nat} (h : fuel ≤ fuel') {channel : String}
    {item : CbItem A} {skip : Bool} {s : Caster A} {e : Effect A P}
    (he : subBaseChannel fuel channel item skip s = some e) :
    subBaseChannel fuel' channel item skip s = some e := by
  obtain ⟨k, rfl⟩ := Nat.exists_eq_add_of_le h
  exact subBaseChannel_stable fuel k channel item skip s e he

variable (P) in
theorem isSome_of_within (n : Nat) :
    ∀ (channel : String) (item : CbItem A) (skip : Bool) (s : Caster A),
    EndsWithin (nextCall s) n channel →
      ∃ e : Effect A P, subBaseChannel (2 * n + 2) channel item skip s = some e := by
  induction n with
  | zero =>
    intro channel item skip s h
    cases hn : nextSource s channel with
    | none =>
      obtain ⟨e, he, -⟩ := answer_of_stop P item skip hn
      exact ⟨e, he 0⟩
    | some b =>
      have hb : channel = b := by
        by_contra hb
        exact Option.some_ne_none b ((nextCall_eq_some.mpr ⟨hn, hb⟩).symm.trans h)
      exact ⟨_, (subBaseChannel_of_nextSource 0 skip hn).trans (if_pos hb)⟩
  | succ n ih =>
    intro channel item skip s h
    cases hn : nextSource s channel with
    | none =>
      obtain ⟨e, he, -⟩ := answer_of_stop P item skip hn
      exact ⟨e, he _⟩
    | some b =>
      rw [show 2 * (n + 1) + 2 = 2 * n + 2 + 2 by omega, subBaseChannel_of_nextSource _ skip hn]
      split
      · exact ⟨_, rfl⟩
      · next hb =>
        refine ih b item false _ ?_
        rw [nextCall_dropSub]
        exact h b (nextCall_eq_some.mpr ⟨hn, hb⟩)

theorem ends_nextCall {item : CbItem A} (fuel : Nat) : ∀ (channel : String) (skip : Bool)
    (s : Caster A) (e : Effect A P), subBaseChannel fuel channel item skip s = some e →
      Ends (nextCall s) channel := by
  apply subBaseChannel_induction
  · intro _ channel skip s e hn _
    refine .stop (Option.eq_none_iff_forall_ne_some.mpr fun b hb ↦ ?_)
    exact Option.some_ne_none b ((nextCall_eq_some.mp hb).1.symm.trans hn)
  · intro channel skip s hn
    refine .stop (Option.eq_none_iff_forall_ne_some.mpr fun b hb ↦ ?_)
    obtain ⟨hb, hne⟩ := nextCall_eq_some.mp hb
    exact hne (Option.some.inj (hn.symm.trans hb))
  · intro channel b skip s e hn hne ih
    exact .next (nextCall_eq_some.mpr ⟨hn, hne⟩) ih

/-- The calls that end do so within the bound. -/
theorem subBaseChannel_aliasDepth {fuel : Nat} {channel : String} {item : CbItem A} {skip : Bool}
    {s : Caster A} {e : Effect A P} (he : subBaseChannel fuel channel item skip s = some e) :
    subBaseChannel s.aliasDepth channel item skip s = some e := by
  have hkeys : ∀ b, ReflTransGen (Next (nextCall s)) channel b → (nextCall s b).isSome →
      b ∈ s.aliasRuleMap.keys := by
    intro b _ hb
    obtain ⟨c, hc⟩ := Option.isSome_iff_exists.mp hb
    obtain ⟨sources, hs, -⟩ := Option.bind_eq_some_iff.mp (nextCall_eq_some.mp hc).1
    exact AList.mem_keys.mpr (Table.mem_of_lookup hs)
  have hwithin := (ends_nextCall fuel channel skip s e he).within hkeys
  obtain ⟨e', he'⟩ := isSome_of_within P _ channel item skip s hwithin
  have hlen : 2 * s.aliasRuleMap.keys.length + 2 = s.aliasDepth := by
    rw [Caster.aliasDepth, AList.keys, List.keys, List.length_map]
  rw [hlen] at he'
  have hmax := subBaseChannel_mono (Nat.le_max_left fuel s.aliasDepth) he
  rw [subBaseChannel_mono (Nat.le_max_right fuel s.aliasDepth) he'] at hmax
  rw [he', hmax]

end NavCaster.Core.Aliases
