import NavCaster.Library.Machine
import NavCaster.Session.RelayPush

namespace NavCaster.Session.PushTask

open NavCaster.Library
open NavCaster.Library.Strto (Bytes)
open NavCaster.Library.Scan (ascii)
open NavCaster.Core.Message
open NavCaster.Session.RelayPush

/-- A call to a task. The replies of the caster come in any order, and as late as they may. -/
inductive Call
  | start (created : Bool)
  | stop
  | timeout (created : Bool)
  | event (connected : Bool)
  | read (data : Bytes)
  | registerReply (r : CasterReply)
  | subscribeReply (r : SubReply)

/-- A task is started when it has been made, or stopped. -/
def step (s : Push) : Call → Option (Push × List Effect)
  | .start created => if s.state = .idle then some (start created s) else none
  | .stop => some (stop s)
  | .timeout created => if s.timeoutEv then some (timeoutCallback created s) else none
  | .event connected => eventCallback connected s
  | .read data => if s.listening then some (readCallback data s) else none
  | .registerReply r => if s.asked then some (casterRegisterCallback r s) else none
  | .subscribeReply r => casterSubscribeCallback r s

def machine : Machine Push Call Effect := ⟨step⟩

def closes (effects : List Effect) : List Nat :=
  effects.filterMap fun e ↦
    match e with
    | .close n => some n
    | _ => none

def Writes (e : Effect) (n : Nat) : Prop := (∃ v, e = .request n v) ∨ ∃ q c, e = .transfer n q c

def InRange (delay : Nat) : Prop := 5 ≤ delay ∧ delay ≤ 60

def Delays (effects : List Effect) : Prop := ∀ delay, .retry delay ∈ effects → InRange delay

def Resting (s : Push) : Prop := s.state = .idle ∨ s.state = .waitingRetry ∨ s.stopped = true

/-- All that a call can do to the connection of a task. -/
inductive Moves (s : Push) : Push × List Effect → Prop
  | stays {t : Push} {effects : List Effect} : t.connectKey = s.connectKey → t.opened = s.opened →
    closes effects = [] → (∀ e ∈ effects, ∀ n, Writes e n → s.connectKey = some n) →
    (Resting t → Resting s ∨ s.connectKey = none) → Moves s (t, effects)
  | shuts {t : Push} {effects : List Effect} {key : Nat} : s.connectKey = some key →
      t.connectKey = none →
    t.opened = s.opened → closes effects = [key] → (∀ e ∈ effects, ∀ n, ¬ Writes e n) →
      Moves s (t, effects)
  | opens {t : Push} : s.connectKey = none → t.connectKey = some s.opened →
      t.opened = s.opened + 1 →
    ¬ Resting t → Moves s (t, [])

structure Turn (s : Push) (p : Push × List Effect) : Prop where
  moves : Moves s p
  delay : InRange s.retryDelay → InRange p.1.retryDelay ∧ Delays p.2

theorem closes_append (effects effects' : List Effect) :
    closes (effects ++ effects') = closes effects ++ closes effects' := List.filterMap_append

theorem inRange_double {delay : Nat} (h : InRange delay) : InRange (min (delay * 2) 60) := by
  obtain ⟨hlow, hhigh⟩ := h
  unfold InRange
  omega

theorem not_writes_of_silent {effects : List Effect} (h : Silent effects) :
    ∀ e ∈ effects, ∀ n, ¬ Writes e n := by
  intro e he n hw
  obtain ⟨v, hv⟩ | ⟨q, c, hq⟩ := hw
  · exact (h e he).1 n v hv
  · exact (h e he).2 n q c hq

theorem delays_nil : Delays [] := fun _ h ↦ absurd h List.not_mem_nil

variable {s : Push}

theorem turn_refl (s : Push) : Turn s (s, []) where
  moves := .stays rfl rfl rfl (fun _ he ↦ absurd he List.not_mem_nil) fun h ↦ .inl h
  delay h := ⟨h, delays_nil⟩

theorem closes_one {e : Effect} (h : ∀ n, e ≠ .close n) : closes [e] = [] := by
  cases e with
  | close n => exact absurd rfl (h n)
  | _ => rfl

theorem turn_one {t : Push} {e : Effect} (hkey : t.connectKey = s.connectKey)
    (hopened : t.opened = s.opened) (hclose : ∀ n, e ≠ .close n)
    (hretry : ∀ delay, e ≠ .retry delay) (hwrites : ∀ n, Writes e n → s.connectKey = some n)
    (hrests : Resting t → Resting s)
    (hdelay : InRange s.retryDelay → InRange t.retryDelay) : Turn s (t, [e]) where
  moves := by
    refine .stays hkey hopened (closes_one hclose) (fun e' he n hw ↦ ?_) fun h ↦ .inl (hrests h)
    rw [List.mem_singleton.mp he] at hw
    exact hwrites n hw
  delay hr := ⟨hdelay hr, fun delay hd ↦ absurd (List.mem_singleton.mp hd).symm (hretry delay)⟩

theorem not_writes {e : Effect} (hrequest : ∀ n v, e ≠ .request n v)
    (htransfer : ∀ n q c, e ≠ .transfer n q c) {P : Prop} (n : Nat) (hw : Writes e n) : P := by
  obtain ⟨v, hv⟩ | ⟨q, c, hq⟩ := hw
  · exact absurd hv (hrequest n v)
  · exact absurd hq (htransfer n q c)

theorem cleanupConnection_shuts {key : Nat} (hkey : s.connectKey = some key) :
    (cleanupConnection s).1.connectKey = none ∧ (cleanupConnection s).1.opened = s.opened ∧
      (cleanupConnection s).1.retryDelay = s.retryDelay ∧ closes (cleanupConnection s).2 = [key] ∧
      Silent (cleanupConnection s).2 ∧ Delays (cleanupConnection s).2 := by
  obtain ⟨effects, hsilent, heq⟩ := cleanupConnection_eq s
  have hsilent' : Silent (cleanupConnection s).2 := by
    rw [heq]
    exact hsilent
  unfold cleanupConnection at hsilent' ⊢
  rw [hkey] at hsilent' ⊢
  refine ⟨rfl, rfl, rfl, ?_, hsilent', ?_⟩
  · cases s.subscribed <;> cases s.registered <;> rfl
  · intro delay hdelay
    simp only [List.mem_append, List.mem_singleton] at hdelay
    obtain (h | h) | h := hdelay
    · split at h <;> simp at h
    · split at h <;> simp at h
    · cases h

theorem cleanupConnection_none (hkey : s.connectKey = none) : cleanupConnection s = (s, []) := by
  unfold cleanupConnection
  rw [hkey]

theorem scheduleRetry_stopped (h : s.stopped = true) : scheduleRetry s = (s, []) := if_pos h

theorem scheduleRetry_eq (h : ¬ s.stopped = true) : scheduleRetry s =
    ({ (cleanupConnection s).1 with
        state := .waitingRetry
        timeoutEv := true
        timeoutEvFlag := true
        retryDelay := min ((cleanupConnection s).1.retryDelay * 2) 60 },
      (cleanupConnection s).2 ++
        [.pushRoverInfo none 0, .retry (cleanupConnection s).1.retryDelay]) := if_neg h

theorem stop_eq (h : ¬ s.stopped = true) : stop s =
    ({ (cleanupConnection (deleteTimer { s with stopped := true })).1 with state := .idle },
      (cleanupConnection (deleteTimer { s with stopped := true })).2) := if_neg h

theorem turn_scheduleRetry {s' : Push} (hkey : s'.connectKey = s.connectKey)
    (hopened : s'.opened = s.opened) (hdelay : s'.retryDelay = s.retryDelay)
    (hrests : Resting s' → Resting s ∨ s.connectKey = none) :
    Turn s (scheduleRetry s') := by
  by_cases hstopped : s'.stopped = true
  · rw [scheduleRetry_stopped hstopped]
    refine ⟨.stays hkey hopened rfl (fun _ he ↦ absurd he List.not_mem_nil) hrests,
      fun hr ↦ ⟨?_, delays_nil⟩⟩
    rw [hdelay]
    exact hr
  · rw [scheduleRetry_eq hstopped]
    cases hs : s.connectKey with
    | none =>
      rw [cleanupConnection_none (hkey.trans hs)]
      refine ⟨.stays hkey hopened rfl ?_ fun _ ↦ .inr hs, fun hr ↦ ⟨?_, ?_⟩⟩
      · intro e he n hw
        simp only [List.nil_append, List.mem_cons, List.not_mem_nil, or_false] at he
        obtain rfl | rfl := he
        · obtain ⟨v, hv⟩ | ⟨q, c, hq⟩ := hw
          · cases hv
          · cases hq
        · obtain ⟨v, hv⟩ | ⟨q, c, hq⟩ := hw
          · cases hv
          · cases hq
      · dsimp only
        rw [hdelay]
        exact inRange_double hr
      · intro delay hd
        simp only [List.nil_append, List.mem_cons, List.not_mem_nil, or_false] at hd
        obtain hd | hd := hd
        · cases hd
        · cases hd
          rw [hdelay]
          exact hr
    | some key =>
      obtain ⟨hnone, hsame, hsamedelay, hcloses, hsilent, hdelays⟩ :=
        cleanupConnection_shuts (hkey.trans hs)
      refine ⟨.shuts hs hnone (hsame.trans hopened) ?_ ?_, fun hr ↦ ⟨?_, ?_⟩⟩
      · rw [closes_append, hcloses]
        rfl
      · apply not_writes_of_silent
        intro e he
        simp only [List.mem_append, List.mem_cons, List.not_mem_nil, or_false] at he
        obtain he | rfl | rfl := he
        · exact hsilent e he
        · exact ⟨fun _ _ h ↦ (by cases h), fun _ _ _ h ↦ (by cases h)⟩
        · exact ⟨fun _ _ h ↦ (by cases h), fun _ _ _ h ↦ (by cases h)⟩
      · dsimp only
        rw [hsamedelay, hdelay]
        exact inRange_double hr
      · intro delay hd
        simp only [List.mem_append, List.mem_cons, List.not_mem_nil, or_false] at hd
        obtain hd | hd | hd := hd
        · exact hdelays delay hd
        · cases hd
        · cases hd
          rw [hsamedelay, hdelay]
          exact hr

theorem turn_startConnect {created : Bool} {s' : Push} (hs' : ∃ b c d, s' = { s with
    stopped := b, timeoutEv := c, timeoutEvFlag := d }) (hkey : s.connectKey = none) :
    Turn s (startConnect created s') := by
  obtain ⟨b, c, d, rfl⟩ := hs'
  obtain ⟨b', c', heq⟩ :=
    deleteTimer_cases { s with stopped := b, timeoutEv := c, timeoutEvFlag := d }
  unfold startConnect
  rw [heq]
  split
  · exact ⟨.stays rfl rfl rfl (fun _ he ↦ absurd he List.not_mem_nil) fun _ ↦ .inr hkey, fun hr ↦
      ⟨hr, delays_nil⟩⟩
  · next hstopped =>
    dsimp only
    split
    · refine ⟨.opens hkey rfl rfl ?_, fun hr ↦ ⟨hr, delays_nil⟩⟩
      rintro (h | h | h)
      · cases h
      · cases h
      · exact hstopped h
    · exact turn_scheduleRetry hkey.symm rfl rfl fun _ ↦ .inr hkey

theorem deleteTimer_fields (s : Push) : (deleteTimer s).connectKey = s.connectKey ∧
    (deleteTimer s).opened = s.opened ∧ (deleteTimer s).retryDelay = s.retryDelay := by
  obtain ⟨b, c, htimer⟩ := deleteTimer_cases s
  rw [htimer]
  exact ⟨rfl, rfl, rfl⟩

theorem turn_stop (s : Push) : Turn s (stop s) := by
  by_cases hstopped : s.stopped = true
  · have heq : stop s = (s, []) := if_pos hstopped
    rw [heq]
    exact turn_refl s
  · obtain ⟨htimer, htimerOpened, htimerDelay⟩ := deleteTimer_fields { s with stopped := true }
    rw [stop_eq hstopped]
    generalize deleteTimer { s with stopped := true } = u at htimer htimerOpened htimerDelay ⊢
    dsimp only at htimer htimerOpened htimerDelay
    cases hkey : s.connectKey with
    | none =>
      rw [cleanupConnection_none (htimer.trans hkey)]
      refine ⟨.stays htimer htimerOpened rfl (fun _ he ↦ absurd he List.not_mem_nil) fun _ ↦
        .inr hkey, fun hr ↦
        ⟨?_, delays_nil⟩⟩
      dsimp only
      rw [htimerDelay]
      exact hr
    | some key =>
      obtain ⟨hnone, hsame, hsamedelay, hcloses, hsilent, hdelays⟩ :=
        cleanupConnection_shuts (htimer.trans hkey)
      refine ⟨.shuts hkey hnone (hsame.trans htimerOpened) hcloses (not_writes_of_silent hsilent),
        fun hr ↦
        ⟨?_, hdelays⟩⟩
      dsimp only
      rw [hsamedelay, htimerDelay]
      exact hr

theorem turn_event {connected : Bool} {p : Push × List Effect}
    (h : eventCallback connected s = some p) :
    Turn s p := by
  obtain ⟨key, hkey, rfl⟩ := Option.map_eq_some_iff.mp h
  split
  · exact turn_refl s
  · split
    · change Turn s (_, [_])
      refine turn_one rfl rfl (fun _ h ↦ by cases h) (fun _ h ↦ by cases h) ?_ ?_ fun hr ↦ hr
      · intro n hw
        obtain ⟨v, hv⟩ | ⟨q, c, hq⟩ := hw
        · cases hv
          exact hkey
        · cases hq
      · rintro (h | h | h)
        · cases h
        · cases h
        · exact .inr (.inr h)
    · exact turn_scheduleRetry rfl rfl rfl .inl

theorem turn_read (data : Bytes) (s : Push) : Turn s (readCallback data s) := by
  unfold readCallback
  dsimp only
  split
  · unfold handleHandshake
    split
    · exact turn_scheduleRetry rfl rfl rfl .inl
    · split
      · exact turn_scheduleRetry rfl rfl rfl .inl
      · refine turn_one rfl rfl (fun _ h ↦ by cases h) (fun _ h ↦ by cases h)
          (fun n ↦ not_writes (fun _ _ h ↦ by cases h) (fun _ _ _ h ↦ by cases h) n) ?_ fun hr ↦ hr
        rintro (h | h | h)
        · cases h
        · cases h
        · exact .inr (.inr h)
  · exact ⟨.stays rfl rfl rfl (fun _ he ↦ absurd he List.not_mem_nil) fun h ↦ .inl h,
      fun hr ↦ ⟨hr, delays_nil⟩⟩

theorem turn_register (r : CasterReply) (s : Push) : Turn s (casterRegisterCallback r s) := by
  cases r with
  | ok =>
    change Turn s (_, [_])
    refine turn_one rfl rfl (fun _ h ↦ by cases h) (fun _ h ↦ by cases h)
      (fun n ↦ not_writes (fun _ _ h ↦ by cases h) (fun _ _ _ h ↦ by cases h) n) ?_ fun hr ↦ hr
    rintro (h | h | h)
    · cases h
    · cases h
    · exact .inr (.inr h)
  | err => exact turn_scheduleRetry rfl rfl rfl .inl
  | _ => exact turn_refl s

theorem turn_subscribe {r : SubReply} {p : Push × List Effect}
    (h : casterSubscribeCallback r s = some p) :
    Turn s p := by
  cases r with
  | string q =>
    unfold casterSubscribeCallback at h
    dsimp only at h
    split at h
    · obtain ⟨key, hkey, rfl⟩ := Option.map_eq_some_iff.mp h
      refine turn_one rfl rfl (fun _ h ↦ by cases h) (fun _ h ↦ by cases h) ?_ (fun h ↦ h) fun hr ↦
        hr
      intro n hw
      obtain ⟨v, hv⟩ | ⟨q', c, hq⟩ := hw
      · cases hv
      · cases hq
        exact hkey
    · cases h
      exact turn_refl s
  | other r =>
    cases r with
    | ok =>
      unfold casterSubscribeCallback at h
      dsimp only at h
      split at h
      · cases h
        change Turn s (_, [_])
        refine turn_one rfl rfl (fun _ h ↦ by cases h) (fun _ h ↦ by cases h)
          (fun n ↦ not_writes (fun _ _ h ↦ by cases h) (fun _ _ _ h ↦ by cases h) n) ?_ fun _ ↦
            ⟨le_rfl, (by decide : 5 ≤ 60)⟩
        rintro (h | h | h)
        · cases h
        · cases h
        · exact .inr (.inr h)
      · cases h
        exact turn_refl s
    | err =>
      cases h
      exact turn_scheduleRetry rfl rfl rfl .inl
    | _ =>
      cases h
      exact turn_refl s

def Rests (s : Push) : Prop := Resting s → s.connectKey = none

theorem turn_step {c : Call} {p : Push × List Effect} (hs : Rests s) (h : step s c = some p) :
    Turn s p := by
  cases c with
  | start created =>
    change (if s.state = .idle then some (start created s) else none) = some p at h
    obtain ⟨hidle, h⟩ := Option.ite_none_right_eq_some.mp h
    cases h
    exact turn_startConnect ⟨false, s.timeoutEv, s.timeoutEvFlag, rfl⟩ (hs (.inl hidle))
  | stop =>
    cases h
    exact turn_stop s
  | timeout created =>
    change (if s.timeoutEv then some (timeoutCallback created s) else none) = some p at h
    obtain ⟨-, h⟩ := Option.ite_none_right_eq_some.mp h
    cases h
    unfold timeoutCallback
    split
    · exact turn_refl s
    · next hwait =>
      have hstate : s.state = .waitingRetry := not_not.mp fun hne ↦ hwait (.inl hne)
      exact turn_startConnect ⟨s.stopped, false, false, rfl⟩ (hs (.inr (.inl hstate)))
  | event connected => exact turn_event h
  | read data =>
    change (if s.listening then some (readCallback data s) else none) = some p at h
    obtain ⟨-, h⟩ := Option.ite_none_right_eq_some.mp h
    cases h
    exact turn_read data s
  | registerReply r =>
    change (if s.asked then some (casterRegisterCallback r s) else none) = some p at h
    obtain ⟨-, h⟩ := Option.ite_none_right_eq_some.mp h
    cases h
    exact turn_register r s
  | subscribeReply r => exact turn_subscribe h

/-- After a connection is closed, nothing is written to it, or to one before it. -/
def Orderly (effects : List Effect) : Prop :=
  effects.Pairwise fun e e' ↦ ∀ n, e = .close n → ∀ m, Writes e' m → n < m

structure Tracks (effects : List Effect) (s : Push) : Prop where
  rests : Rests s
  closed : closes effects ++ s.connectKey.toList = List.range s.opened
  delay : InRange s.retryDelay
  delays : Delays effects
  orderly : Orderly effects

theorem mem_closes {effects : List Effect} {n : Nat} : n ∈ closes effects ↔ .close n ∈ effects := by
  unfold closes
  rw [List.mem_filterMap]
  constructor
  · rintro ⟨e, he, h⟩
    cases e with
    | close m =>
      cases h
      exact he
    | _ => cases h
  · exact fun h ↦ ⟨_, h, rfl⟩

theorem orderly_of_closes {effects : List Effect} (h : closes effects = []) : Orderly effects := by
  apply List.pairwise_of_forall_mem_list
  intro e he e' _ n hn
  rw [hn, ← mem_closes, h] at he
  cases he

theorem orderly_of_silent {effects : List Effect} (h : ∀ e ∈ effects, ∀ n, ¬ Writes e n) :
    Orderly effects := by
  apply List.pairwise_of_forall_mem_list
  intro e _ e' he' n _ m hw
  exact absurd hw (h e' he' m)

theorem delays_append {effects effects' : List Effect} (h : Delays effects) (h' : Delays effects') :
    Delays (effects ++ effects') := fun delay hd ↦ (List.mem_append.mp hd).elim (h delay) (h' delay)

/-- The connection that a task has is newer than all that are closed. -/
theorem Tracks.newer {effects : List Effect} (h : Tracks effects s) {key n : Nat}
    (hkey : s.connectKey = some key) (hn : .close n ∈ effects) : n < key := by
  have hclosed := h.closed
  rw [hkey, Option.toList_some] at hclosed
  have hsorted := List.pairwise_lt_range (n := s.opened)
  rw [← hclosed] at hsorted
  exact (List.pairwise_append.mp hsorted).2.2 n (mem_closes.mpr hn) key List.mem_cons_self

theorem tracks_turn {effects : List Effect} {p : Push × List Effect} (h : Tracks effects s)
    (hturn : Turn s p) :
    Tracks (effects ++ p.2) p.1 := by
  obtain ⟨hmoves, hdelay⟩ := hturn
  obtain ⟨hr, hdelays⟩ := hdelay h.delay
  have hall : Delays (effects ++ p.2) := delays_append h.delays hdelays
  cases hmoves with
  | @stays t new hkey hopened hcloses hwrites hrests =>
    refine ⟨fun hrest ↦ ?_, ?_, hr, hall, ?_⟩
    · rw [hkey]
      exact (hrests hrest).elim h.rests id
    · rw [closes_append, hcloses, List.append_nil, hkey, hopened]
      exact h.closed
    · refine List.pairwise_append.mpr
        ⟨h.orderly, orderly_of_closes hcloses, fun e he e' he' n hn m hw ↦ ?_⟩
      exact h.newer (hwrites e' he' m hw) (hn ▸ he)
  | @shuts t new key hkey hnone hopened hcloses hsilent =>
    refine ⟨fun _ ↦ hnone, ?_, hr, hall, ?_⟩
    · rw [closes_append, hcloses, hnone, hopened, ← h.closed, hkey]
      simp
    · exact List.pairwise_append.mpr
        ⟨h.orderly, orderly_of_silent hsilent, fun e _ e' he' n _ m hw ↦
        absurd hw (hsilent e' he' m)⟩
  | @opens t hnone hkey hopened hrests =>
    refine ⟨fun hrest ↦ absurd hrest hrests, ?_, hr, hall, ?_⟩
    · have hclosed := h.closed
      rw [hnone, Option.toList_none, List.append_nil] at hclosed
      rw [closes_append, hkey, hopened, hclosed, List.range_succ]
      simp [closes]
    · rw [List.append_nil]
      exact h.orderly

theorem tracks_exec {calls : List Call} {effects effects' : List Effect} {t : Push}
    (h : Tracks effects s)
    (hexec : machine.exec s calls = some (t, effects')) : Tracks (effects ++ effects') t := by
  induction calls generalizing s effects effects' with
  | nil =>
    cases hexec
    rw [List.append_nil]
    exact h
  | cons c calls ih =>
    obtain ⟨u, es₁, es₂, hstep, hrest, rfl⟩ := Machine.step_of_exec_cons hexec
    rw [← List.append_assoc]
    exact ih (tracks_turn h (turn_step h.rests hstep)) hrest

theorem tracks_create (cfg : Config) : Tracks [] (create cfg) where
  rests _ := rfl
  closed := rfl
  delay := ⟨le_rfl, (by decide : 5 ≤ 60)⟩
  delays := delays_nil
  orderly := .nil

/-- Whatever calls a task gets and in whatever order, it has closed its connections one after the
other, each once, but for the one that it has; to a connection that is closed it writes nothing; and
it waits from 5 to 60 seconds for each retry. -/
theorem closes_each_once {cfg : Config} {calls : List Call} {s : Push} {effects : List Effect}
    (hexec : machine.exec (create cfg) calls = some (s, effects)) :
    closes effects ++ s.connectKey.toList = List.range s.opened ∧
      (s.stopped = true → s.connectKey = none) ∧
      (∀ before after n, effects = before ++ .close n :: after → ∀ e ∈ after, ¬ Writes e n) ∧
      Delays effects := by
  have h := tracks_exec (tracks_create cfg) hexec
  rw [List.nil_append] at h
  refine ⟨h.closed, fun hstopped ↦ h.rests (.inr (.inr hstopped)),
    fun before after n heq e he hw ↦ ?_, h.delays⟩
  have horderly := h.orderly
  rw [heq] at horderly
  have hafter := (List.pairwise_cons.mp (List.pairwise_append.mp horderly).2.1).1 e he n rfl n hw
  exact absurd hafter (lt_irrefl n)

def task : Config where
  software := Service.BasicAuth.release
  mountPoint := ascii "M"
  httpHost := ascii "h:2101"
  ntripAuth := ascii "u:p"

def retried : List Call := [.start true, .event true, .event false, .timeout true, .stop]

theorem retried_closes_each_once : ∃ (s : Push) (effects : List Effect), s.opened = 2 ∧
    closes effects ++ s.connectKey.toList = List.range s.opened ∧
      (s.stopped = true → s.connectKey = none) ∧
      (∀ before after n, effects = before ++ .close n :: after → ∀ e ∈ after, ¬ Writes e n) ∧
      Delays effects := by
  obtain ⟨s, effects, hexec, hopened⟩ :
      ∃ s effects, machine.exec (create task) retried = some (s, effects) ∧ s.opened = 2 :=
        ⟨_, _, rfl, rfl⟩
  exact ⟨s, effects, hopened, closes_each_once hexec⟩

end NavCaster.Session.PushTask
