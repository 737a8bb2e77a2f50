import Mathlib.Data.List.Infix
import NavCaster.Library.Machine

namespace NavCaster.Service.Queue

open NavCaster.Library

/-- The queue, and whether its processing event stands in the event loop to be run. -/
structure ProcessQueue (R : Type) where
  queue : List R := []
  active : Bool := false
  deriving DecidableEq

namespace ProcessQueue

variable {R : Type} (q : ProcessQueue R)

def push (req : R) : ProcessQueue R := { q with queue := q.queue ++ [req] }

def pop : Option (R × ProcessQueue R) :=
  match q.queue with
  | [] => none
  | req :: rest => some (req, { q with queue := rest })

def notNull : Bool := q.queue ≠ []

/-- An event that is active already is not made active twice. -/
def activePrrocesser : ProcessQueue R := { q with active := true }

def pushAndActive (req : R) : ProcessQueue R := (q.push req).activePrrocesser

def pushAll (reqs : List R) : ProcessQueue R := reqs.foldl pushAndActive q

end ProcessQueue

inductive Outcome
  | returned | threw
  deriving DecidableEq

inductive Event (R : Type)
  | pushed (req : R)
  | processed (req : R) (outcome : Outcome)
  deriving DecidableEq

inductive Action (R : Type)
  | push (req : R)
  /-- The processing event is run; its request pushes these until it ends. -/
  | process (pushes : List R) (outcome : Outcome)
  deriving DecidableEq

variable {R : Type}

/-- `Request_Process_Cb`, and what it has processed. The event is taken out of the loop before. -/
def requestProcessCb (q : ProcessQueue R) (pushes : List R) (outcome : Outcome) :
    ProcessQueue R × List (Event R) :=
  let q := { q with active := false }
  let (q, es) :=
    match q.pop with
    | none => (q, [])
    | some (req, q) => (q.pushAll pushes, Event.processed req outcome :: pushes.map Event.pushed)
  (if q.notNull then q.activePrrocesser else q, es)

def step (q : ProcessQueue R) : Action R → Option (ProcessQueue R × List (Event R))
  | .push req => some (q.pushAndActive req, [.pushed req])
  | .process pushes outcome => if q.active then some (requestProcessCb q pushes outcome) else none

def machine (R : Type) : Machine (ProcessQueue R) (Action R) (Event R) where
  step := step

def pushed : List (Event R) → List R := List.filterMap fun
  | .pushed req => some req
  | .processed _ _ => none

def processed : List (Event R) → List R := List.filterMap fun
  | .pushed _ => none
  | .processed req _ => some req

def Awake (q : ProcessQueue R) : Prop := q.queue ≠ [] → q.active = true

variable {q q' : ProcessQueue R} {a : Action R} {es es' : List (Event R)}

@[simp] theorem pushAll_queue (reqs : List R) : (q.pushAll reqs).queue = q.queue ++ reqs := by
  induction reqs generalizing q with
  | nil => exact (List.append_nil _).symm
  | cons req reqs ih =>
    rw [ProcessQueue.pushAll, List.foldl_cons]
    refine ih.trans ?_
    exact List.append_assoc _ _ _

@[simp] theorem pushed_append : pushed (es ++ es') = pushed es ++ pushed es' :=
  List.filterMap_append

@[simp] theorem processed_append : processed (es ++ es') = processed es ++ processed es' :=
  List.filterMap_append

@[simp] theorem pushed_map (reqs : List R) : pushed (reqs.map .pushed) = reqs := by
  induction reqs with
  | nil => rfl
  | cons req reqs ih => exact congrArg (req :: ·) ih

@[simp] theorem processed_map (reqs : List R) : processed (reqs.map .pushed) = [] := by
  induction reqs with
  | nil => rfl
  | cons req reqs ih => exact ih

theorem requestProcessCb_cases (q : ProcessQueue R) (pushes : List R) (outcome : Outcome) :
    (q.queue = [] ∧ requestProcessCb q pushes outcome = ({ q with active := false }, [])) ∨
    ∃ req rest, q.queue = req :: rest ∧
      (requestProcessCb q pushes outcome).1.queue = rest ++ pushes ∧
      (requestProcessCb q pushes outcome).2 = .processed req outcome :: pushes.map .pushed ∧
      Awake (requestProcessCb q pushes outcome).1 := by
  obtain ⟨queue, active⟩ := q
  cases queue with
  | nil => exact .inl ⟨rfl, rfl⟩
  | cons req rest =>
    refine .inr ⟨req, rest, rfl, ?_, rfl, ?_⟩
    · unfold requestProcessCb ProcessQueue.pop
      dsimp only
      split <;> simp [ProcessQueue.activePrrocesser]
    · unfold requestProcessCb ProcessQueue.pop Awake
      dsimp only
      split
      · exact fun _ ↦ rfl
      · next hnull =>
        intro hne
        simp [ProcessQueue.notNull] at hnull hne
        exact absurd hnull.2 (hne hnull.1)

theorem step_awake (h : step q a = some (q', es)) : Awake q' := by
  cases a with
  | push req =>
    cases h
    exact fun _ ↦ rfl
  | process pushes outcome =>
    obtain ⟨-, hcb⟩ := Option.ite_none_right_eq_some.mp h
    rcases requestProcessCb_cases q pushes outcome with ⟨hnil, heq⟩ | ⟨req, rest, -, -, -, hawake⟩
    · rw [heq] at hcb
      cases hcb
      exact fun hne ↦ absurd hnil hne
    · rw [Option.some_inj.mp hcb] at hawake
      exact hawake

/-- What waits and what is pushed is what is processed and what waits then. -/
theorem step_queue (h : step q a = some (q', es)) :
    q.queue ++ pushed es = processed es ++ q'.queue := by
  cases a with
  | push req =>
    cases h
    rfl
  | process pushes outcome =>
    obtain ⟨-, hcb⟩ := Option.ite_none_right_eq_some.mp h
    rcases requestProcessCb_cases q pushes
      outcome with ⟨hnil, heq⟩ | ⟨req, rest, hqueue, hqueue', hes, -⟩
    · rw [heq] at hcb
      cases hcb
      rw [hnil]
      rfl
    · rw [Option.some_inj.mp hcb] at hqueue' hes
      replace hes : es = .processed req outcome :: pushes.map .pushed := hes
      have hpushed : pushed es = pushes := hes ▸ pushed_map pushes
      have hprocessed : processed es = [req] := hes ▸ congrArg (req :: ·) (processed_map pushes)
      rw [hpushed, hprocessed, hqueue, hqueue']
      rfl

theorem step_process {pushes : List R} {outcome : Outcome} (hne : q.queue ≠ [])
    (h : step q (.process pushes outcome) = some (q', es)) : (processed es).length = 1 := by
  obtain ⟨-, hcb⟩ := Option.ite_none_right_eq_some.mp h
  rcases requestProcessCb_cases q pushes outcome with ⟨hnil, -⟩ | ⟨req, rest, -, -, hes, -⟩
  · exact absurd hnil hne
  · rw [Option.some_inj.mp hcb] at hes
    replace hes : es = .processed req outcome :: pushes.map .pushed := hes
    have hprocessed : processed es = [req] := hes ▸ congrArg (req :: ·) (processed_map pushes)
    rw [hprocessed]
    rfl

theorem exec_awake {as : List (Action R)} (h : (machine R).exec q as = some (q', es))
    (hq : Awake q) :
    Awake q' := by
  induction as generalizing q es with
  | nil =>
    cases h
    exact hq
  | cons a as ih =>
    obtain ⟨q₁, es₁, es₂, hstep, hexec, rfl⟩ := Machine.step_of_exec_cons h
    exact ih hexec (step_awake hstep)

theorem exec_queue {as : List (Action R)} (h : (machine R).exec q as = some (q', es)) :
    q.queue ++ pushed es = processed es ++ q'.queue := by
  induction as generalizing q es with
  | nil =>
    cases h
    exact List.append_nil _
  | cons a as ih =>
    obtain ⟨q₁, es₁, es₂, hstep, hexec, rfl⟩ := Machine.step_of_exec_cons h
    rw [pushed_append, processed_append, ← List.append_assoc, step_queue hstep, List.append_assoc,
      ih hexec, List.append_assoc]

structure Trace (R : Type) where
  state : ℕ → ProcessQueue R
  act : ℕ → Action R
  events : ℕ → List (Event R)
  start : state 0 = {}
  step : ∀ i, step (state i) (act i) = some (state (i + 1), events i)

namespace Trace

variable (t : Trace R)

def upTo : ℕ → List (Event R)
  | 0 => []
  | n + 1 => upTo n ++ t.events n

/-- The event loop runs an event that is active at some time. -/
def Fair : Prop :=
  ∀ i, (t.state i).active = true → ∃ j ≥ i, ∃ pushes outcome, t.act j = .process pushes outcome

variable {t}

theorem awake (i : ℕ) : Awake (t.state i) := by
  cases i with
  | zero =>
    rw [t.start]
    exact fun hne ↦ absurd rfl hne
  | succ i => exact step_awake (t.step i)

theorem queue (i : ℕ) : pushed (t.upTo i) = processed (t.upTo i) ++ (t.state i).queue := by
  induction i with
  | zero =>
    rw [t.start]
    rfl
  | succ i ih =>
    rw [upTo, pushed_append, processed_append, ih, List.append_assoc, step_queue (t.step i),
      List.append_assoc]

theorem upTo_mono {i j : ℕ} (h : i ≤ j) : t.upTo i <+: t.upTo j := by
  induction h with
  | refl => exact List.prefix_rfl
  | step _ ih => exact ih.trans (List.prefix_append _ _)

theorem pushed_mono {i j : ℕ} (h : i ≤ j) : pushed (t.upTo i) <+: pushed (t.upTo j) :=
  (upTo_mono h).filterMap _

theorem processed_mono {i j : ℕ} (h : i ≤ j) : processed (t.upTo i) <+: processed (t.upTo j) :=
  (upTo_mono h).filterMap _

theorem processed_length (hfair : t.Fair) (i k : ℕ) (hk : k ≤ (pushed (t.upTo i)).length) :
    ∃ j ≥ i, k ≤ (processed (t.upTo j)).length := by
  induction k with
  | zero => exact ⟨i, le_rfl, Nat.zero_le _⟩
  | succ k ih =>
    obtain ⟨j, hij, hj⟩ := ih (Nat.le_of_succ_le hk)
    have hwaits : ∀ l ≥ i, (processed (t.upTo l)).length ≤ k → (t.state l).queue ≠ [] := by
      intro l hl hlt hnil
      have hlen := (pushed_mono hl (t := t)).length_le
      rw [queue l, hnil, List.append_nil] at hlen
      omega
    by_cases hdone : k + 1 ≤ (processed (t.upTo j)).length
    · exact ⟨j, hij, hdone⟩
    obtain ⟨l, hjl, pushes, outcome, hact⟩ := hfair j (awake j (hwaits j hij (by omega)))
    have hil := hij.trans hjl
    have hle := (processed_mono hjl (t := t)).length_le
    by_cases hdone' : k + 1 ≤ (processed (t.upTo l)).length
    · exact ⟨l, hil, hdone'⟩
    refine ⟨l + 1, Nat.le_succ_of_le hil, ?_⟩
    have hone := step_process (hwaits l hil (by omega)) (hact ▸ t.step l)
    rw [upTo, processed_append, List.length_append, hone]
    omega

end Trace

/-- In every run a request that waits has the event active, and what is pushed is processed once
each and in order; in a run that goes on, all of it. -/
theorem no_lost_request :
    (∀ (as : List (Action R)) (q : ProcessQueue R) (es : List (Event R)),
      (machine R).exec {} as = some (q, es) →
        Awake q ∧ pushed es = processed es ++ q.queue) ∧
    ∀ t : Trace R, t.Fair → ∀ i, ∃ j ≥ i, pushed (t.upTo i) <+: processed (t.upTo j) := by
  refine ⟨fun as q es h ↦ ⟨exec_awake h fun hne ↦ absurd rfl hne, exec_queue h⟩, fun t hfair i ↦ ?_⟩
  obtain ⟨j, hij, hlen⟩ := Trace.processed_length hfair i _ le_rfl
  have hinit : processed (t.upTo j) <+: pushed (t.upTo j) := Trace.queue j ▸ List.prefix_append _ _
  exact ⟨j, hij, List.prefix_of_prefix_length_le (Trace.pushed_mono hij) hinit hlen⟩

def pingPong : Trace ℕ where
  state i := if i % 2 = 0 then {} else { queue := [i / 2], active := true }
  act i := if i % 2 = 0 then .push (i / 2) else .process [] .returned
  events i := if i % 2 = 0 then [.pushed (i / 2)] else [.processed (i / 2) .returned]
  start := rfl
  step i := by
    rcases Nat.mod_two_eq_zero_or_one i with h | h
    · have hsucc : (i + 1) % 2 = 1 := by omega
      have hdiv : (i + 1) / 2 = i / 2 := by omega
      simp only [h, hsucc, hdiv]
      rfl
    · have hsucc : (i + 1) % 2 = 0 := by omega
      simp only [h, hsucc]
      rfl

theorem pingPong_fair : pingPong.Fair := by
  intro i hi
  refine ⟨i, le_rfl, [], .returned, ?_⟩
  have hodd : i % 2 ≠ 0 := by
    intro h
    simp [pingPong, h] at hi
  exact if_neg hodd

theorem no_lost_request_pingPong :
    (Awake { queue := [2, 3], active := true } ∧
      pushed [Event.pushed 1, .pushed 2, .processed 1 .threw, .pushed 3] =
        processed [Event.pushed 1, .pushed 2, .processed 1 .threw, .pushed 3] ++ [2, 3]) ∧
    ∀ i, ∃ j ≥ i, pushed (pingPong.upTo i) <+: processed (pingPong.upTo j) :=
  ⟨no_lost_request.1 [.push 1, .push 2, .process [3] .threw] _ _ rfl,
    no_lost_request.2 pingPong pingPong_fair⟩

end NavCaster.Service.Queue
