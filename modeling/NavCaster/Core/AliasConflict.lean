import NavCaster.Core.Aliases
import NavCaster.Library.Machine

namespace NavCaster.Core.AliasConflict

open NavCaster.Library
open NavCaster.Core.Access
open NavCaster.Core.Connections
open NavCaster.Core.Subscription
open NavCaster.Core.Aliases

/-- A node with the base logins that its listener let through and that are being verified. -/
structure State (A : Type) where
  caster : Caster A := {}
  logins : List (CbItem A) := []

inductive Action (A : Type)
  | request (item : CbItem A)
  | login (i : Nat)
  | pull (connectKey mountPoint : String) (arg : A)
  | withdraw (channel connectKey : String)
  | sweep
  | policy (p : AccessPolicy)
  | refresh (reply : Option (List (String × String)))

structure Config where
  decode : String → Option AliasRule
  opts : Options := {}

variable {A : Type}

namespace State

variable (s : State A)

def setRegistry (reg : Registry A) : State A :=
  { s with caster := { s.caster with registry := reg } }

def register (type : RegisterType) (item : CbItem A) : State A × List (Call A) :=
  let o := registerBaseChannel s.caster.policy type item s.caster.registry
  (s.setRegistry o.registry, o.calls)

end State

/-- What `Process_POST_Request` and `Process_SOURCE_Request` ask of the mount point. -/
def acceptsServer (mountPoint : String) (s : Caster A) : Bool :=
  !s.policy.isNearestMpt mountPoint && !s.isAliasMpt mountPoint

def step (cfg : Config) (s : State A) : Action A → Option (State A × List (Call A))
  | .request item =>
    if acceptsServer item.channel s.caster then some ({ s with logins := s.logins ++ [item] }, [])
    else some (s, [])
  | .login i =>
    (s.logins[i]?).map fun item ↦ { s with logins := s.logins.eraseIdx i }.register .server item
  | .pull key mountPoint arg => some (s.register .pull ⟨key, mountPoint, "SYSTEM", "SYSTEM", arg⟩)
  | .withdraw channel key =>
    some (s.setRegistry (withdrawBaseChannel cfg.opts channel key s.caster.registry).registry, [])
  | .sweep => some (s.setRegistry (clearOverdueItem s.caster.registry), [])
  | .policy p => some ({ s with caster := { s.caster with policy := p } }, [])
  | .refresh reply =>
    some ({ s with caster := redisUpdateAliasRuleCallback cfg.decode reply s.caster }, [])

def conflictMachine (cfg : Config) : Machine (State A) (Action A) (Call A) := ⟨step cfg⟩

def Registered (s : Caster A) (channel : String) : Prop :=
  ∃ key, (s.registry.entry .base channel key).isSome

def NoConflict (s : Caster A) : Prop :=
  ∀ channel, Registered s channel → s.isAliasMpt channel = false

/-- A refresh leaves no base that is registered under the name of an alias. -/
def Undisputed (cfg : Config) (s : State A) (a : Action A) : Prop :=
  ∀ reply t calls, a = .refresh reply → step cfg s a = some (t, calls) → NoConflict t.caster

def ruleName (decode : String → Option AliasRule) (record : String × String) : Option String :=
  match decode record.2 with
  | some rule =>
    if rule.aliasName ≠ "" ∧ rule.sourceName ≠ "" ∧ rule.enable then some rule.aliasName else none
  | none => some record.1

/-- No rule that is loaded has the name of a base that is registered. A refresh without an answer
keeps the rules that are there. -/
def Settled (cfg : Config) (s : State A) : Action A → Prop
  | .refresh none => ∀ channel, Registered s.caster channel → channel ∉ s.caster.aliasRuleMap
  | .refresh (some records) => ∀ record ∈ records, ∀ name, ruleName cfg.decode record = some name →
      ¬ Registered s.caster name
  | _ => True

theorem mem_loadAliasRule {decode : String → Option AliasRule} {rules : Table String (List String)}
    {record : String × String} {name : String} :
    name ∈ loadAliasRule decode rules record ↔
      name ∈ rules ∨ ruleName decode record = some name := by
  unfold loadAliasRule ruleName
  cases decode record.2 with
  | none =>
    dsimp only
    rw [Table.mem_insertNew, Option.some.injEq, or_comm, @eq_comm String name]
  | some rule =>
    dsimp only
    split
    · rw [AList.mem_insert, Option.some.injEq, or_comm, @eq_comm String name]
    · exact (or_iff_left (Option.some_ne_none name).symm).symm

theorem mem_loadAliasRules {decode : String → Option AliasRule} {name : String}
    (records : List (String × String)) : ∀ {rules : Table String (List String)},
    name ∈ records.foldl (loadAliasRule decode) rules ↔
      name ∈ rules ∨ ∃ record ∈ records, ruleName decode record = some name := by
  induction records with
  | nil => exact fun {rules} ↦ (or_iff_left fun ⟨record, h, _⟩ ↦ List.not_mem_nil h).symm
  | cons record records ih =>
    intro rules
    rw [List.foldl_cons, ih, mem_loadAliasRule, or_assoc, List.exists_mem_cons_iff]

theorem isAliasMpt_eq_false {s : Caster A} {channel : String} :
    s.isAliasMpt channel = false ↔ channel ∉ s.aliasRuleMap := by
  unfold Caster.isAliasMpt
  rw [← AList.lookup_isSome, Bool.not_eq_true]

theorem noConflict_refresh_none (cfg : Config) (s : Caster A) :
    NoConflict (redisUpdateAliasRuleCallback cfg.decode none s) ↔
      ∀ channel, Registered s channel → channel ∉ s.aliasRuleMap :=
  forall₂_congr fun _ _ ↦ isAliasMpt_eq_false

theorem noConflict_refresh_some (cfg : Config) (records : List (String × String)) (s : Caster A) :
    NoConflict (redisUpdateAliasRuleCallback cfg.decode (some records) s) ↔
      ∀ record ∈ records, ∀ name, ruleName cfg.decode record = some name → ¬ Registered s name := by
  have hmem (name : String) :
      (redisUpdateAliasRuleCallback cfg.decode (some records) s).isAliasMpt name = false ↔
        ¬ ∃ record ∈ records, ruleName cfg.decode record = some name := by
    rw [isAliasMpt_eq_false]
    refine not_congr ((mem_loadAliasRules records).trans ?_)
    exact or_iff_right (AList.notMem_empty name)
  constructor
  · intro h record hrecord name hname hreg
    exact (hmem name).mp (h name hreg) ⟨record, hrecord, hname⟩
  · rintro h name hreg
    refine (hmem name).mpr ?_
    rintro ⟨record, hrecord, hname⟩
    exact h record hrecord name hname hreg

theorem undisputed_iff (cfg : Config) (s : State A) (a : Action A) :
    Undisputed cfg s a ↔ Settled cfg s a := by
  cases a with
  | refresh reply =>
    have hnext : Undisputed cfg s (.refresh reply) ↔
        NoConflict (redisUpdateAliasRuleCallback cfg.decode reply s.caster) := by
      constructor
      · exact fun h ↦ h reply _ _ rfl rfl
      · rintro h _ t calls ⟨⟩ ⟨⟩
        exact h
    rw [hnext]
    cases reply with
    | none => exact noConflict_refresh_none cfg s.caster
    | some records => exact noConflict_refresh_some cfg records s.caster
  | _ => exact iff_of_true (fun reply t calls h _ ↦ by cases h) trivial

/-- In a run every refresh leaves the alias names to the aliases if and only if none of the rules
that are loaded names a base that is registered then. -/
theorem undisputed_run_iff (cfg : Config) (s : State A) (as : List (Action A)) :
    (conflictMachine cfg).Meets (Undisputed cfg) s as ↔
      (conflictMachine cfg).Meets (Settled cfg) s as :=
  Machine.meets_congr (I := fun _ ↦ True) trivial (fun _ _ _ _ _ _ ↦ trivial)
    (fun s a _ ↦ undisputed_iff cfg s a) as

def lateRule : List (Action Unit) :=
  [.request ⟨"k", "M", "u", "", ()⟩, .login 0, .refresh (some [("M", "S")])]

theorem disputed_lateRule :
    ¬ ∀ (cfg : Config) (as : List (Action Unit)),
      (conflictMachine cfg).Meets (Undisputed cfg) {} as := by
  intro h
  obtain ⟨-, -, hlast, -⟩ := h ⟨fun _ ↦ none, {}⟩ lateRule
  have hfree := hlast _ _ _ rfl rfl "M" ⟨"k", by rfl⟩
  cases hfree

end NavCaster.Core.AliasConflict
