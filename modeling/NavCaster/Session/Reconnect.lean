import NavCaster.Session.RelayPull

namespace NavCaster.Session.Reconnect

open NavCaster.Library
open NavCaster.Library.Strto (Bytes)
open NavCaster.Library.Scan (ascii)
open NavCaster.Core.Message
open NavCaster.Session.Response
open NavCaster.Session.RelayPull

def isTraffic : Event → Bool
  | .judged _ | .published _ => true
  | _ => false

def traffic (es : List Event) : List Event := es.filter isTraffic

/-- `none` where the actions cannot follow each other. -/
def observe (cfg : Config) (s : Pull) (as : List Action) : Option (List Event) :=
  ((relayMachine cfg).exec s as).map fun p ↦ traffic p.2

structure Waiting (s : Pull) : Prop where
  state : s.state = .waitingRetry
  timer : s.timeoutEv = true
  live : s.stopped = false

def renewed (cfg : Config) (s : Pull) : Pull :=
  { create cfg with
    policy := s.policy
    state := .waitingRetry
    timeoutEv := true
    timeoutEvFlag := true
    attempt := s.attempt }

/-- What can happen during the connection of one attempt. -/
def OfConnection (attempt : Nat) : Action → Prop
  | .start _ | .timeout _ => False
  | .registerReply n _ => n = attempt
  | _ => True

def reconnect (key newKey : String) (as : List Action) : List Action :=
  .timeout key :: .event true newKey :: as

/-- What the next connection shows is what it would show had there been none before. -/
def Isolated (cfg : Config) (s : Pull) (key newKey : String) : Prop :=
  ∀ as, (∀ a ∈ as, OfConnection (s.attempt + 1) a) →
    observe cfg s (reconnect key newKey as) = observe cfg (renewed cfg s) (reconnect key newKey as)

variable {cfg : Config} {s t u : Pull}

theorem observe_cons (a : Action) (as : List Action) : observe cfg s (a :: as) =
    (step cfg s a).bind fun p ↦ (observe cfg p.1 as).map (traffic p.2 ++ ·) := by
  unfold observe
  rw [Machine.exec_cons]
  change Option.map _ ((step cfg s a).bind _) = _
  cases step cfg s a with
  | none => rfl
  | some p =>
    dsimp only [Option.bind]
    cases (relayMachine cfg).exec p.1 as with
    | none => rfl
    | some q => exact congrArg some (List.filter_append ..)

def connected (key newKey : String) (s : Pull) : Pull :=
  { s with
    timeoutEv := false
    timeoutEvFlag := false
    state := .handshaking
    connectKey := recalculateKey newKey key
    userName := "SYSTEM"
    attempt := s.attempt + 1 }

theorem observe_reconnect {key newKey : String} (hw : Waiting s) (hkey : key ≠ "")
    (as : List Action) :
    observe cfg s (reconnect key newKey as) = observe cfg (connected key newKey s) as := by
  have htimeout : step cfg s (.timeout key) = some ({ s with
      timeoutEv := false
      timeoutEvFlag := false
      state := .connecting
      connectKey := key
      attempt := s.attempt + 1 }, []) := by
    unfold step timeoutCallback startConnect
    dsimp only
    rw [if_pos hw.timer, if_neg (by rw [hw.state, hw.live]; decide),
      if_neg (by rw [hw.live]; decide)]
    rw [deleteTimer_eq rfl, if_neg hkey]
  have hevent : step cfg { s with
      timeoutEv := false
      timeoutEvFlag := false
      state := .connecting
      connectKey := key
      attempt := s.attempt + 1 } (.event true newKey) = some (connected key newKey s,
        [.requested s.ntripVersion2
          (if cfg.mountPara = "" then cfg.mountPoint else cfg.mountPara)]) := by
    unfold step eventCallback
    dsimp only
    rw [if_neg (by rw [hw.live]; decide), if_pos ⟨rfl, rfl⟩]
    rfl
  unfold reconnect
  rw [observe_cons, htimeout]
  dsimp only [Option.bind]
  rw [observe_cons, hevent]
  dsimp only [Option.bind]
  rw [Option.map_map]
  exact Option.map_id'

/-- Two tasks in the connection of the same attempt, which differ in nothing that bears on its
traffic. -/
structure Alike (cfg : Config) (n : Nat) (t u : Pull) : Prop where
  state : u.state = t.state
  connectKey : u.connectKey = t.connectKey
  recvEvbuf : u.recvEvbuf = t.recvEvbuf
  chunkedSize : u.chunkedSize = t.chunkedSize
  stopped : u.stopped = t.stopped
  attempt : t.attempt = n ∧ u.attempt = n
  begun : t.state ≠ .connecting
  fresh : t.state = .handshaking → ¬ IsBase cfg t t.connectKey ∧ ¬ IsBase cfg u u.connectKey
  asked : n ∈ t.requests ↔ n ∈ u.requests
  known : t.state = .registering ∨ t.state = .running ∨ n ∈ t.requests →
    u.transferWithChunked = t.transferWithChunked

def AlikeAfter (cfg : Config) (n : Nat) (p q : Pull × List Event) : Prop :=
  Alike cfg n p.1 q.1 ∧ traffic p.2 = traffic q.2

variable {n : Nat}

theorem alike_scheduleRetry (h : Alike cfg n t u) :
    AlikeAfter cfg n (scheduleRetry cfg t) (scheduleRetry cfg u) := by
  cases hs : t.stopped with
  | true =>
    rw [scheduleRetry_stopped hs, scheduleRetry_stopped (h.stopped.trans hs)]
    exact ⟨h, rfl⟩
  | false =>
    obtain ⟨reg, r, ht⟩ := scheduleRetry_eq cfg hs
    obtain ⟨reg', r', hu⟩ := scheduleRetry_eq cfg (h.stopped.trans hs)
    rw [ht, hu]
    exact ⟨⟨rfl, rfl, h.recvEvbuf, h.chunkedSize, h.stopped, h.attempt, State.noConfusion,
      State.noConfusion, h.asked, fun hk ↦ h.known (.inr (.inr (hk.elim State.noConfusion
        fun hk ↦ hk.elim State.noConfusion id)))⟩, rfl⟩

theorem alike_casterRegisterCallback (h : Alike cfg n t u) (hn : n ∈ t.requests) (r : CasterReply) :
    AlikeAfter cfg n (casterRegisterCallback cfg t r) (casterRegisterCallback cfg u r) := by
  cases r with
  | ok =>
    exact ⟨⟨rfl, h.connectKey, h.recvEvbuf, h.chunkedSize, h.stopped, h.attempt, State.noConfusion,
      State.noConfusion, h.asked, fun _ ↦ h.known (.inr (.inr hn))⟩, rfl⟩
  | err => exact alike_scheduleRetry h
  | _ => exact ⟨h, rfl⟩

theorem alike_handleHandshake (h : Alike cfg n t u) (hs : t.state = .handshaking) :
    AlikeAfter cfg n (handleHandshake cfg t) (handleHandshake cfg u) := by
  by_cases hrecv : t.recvEvbuf = []
  · have hr := alike_scheduleRetry h
    unfold handleHandshake
    rw [if_pos hrecv, if_pos (h.recvEvbuf.trans hrecv)]
    exact ⟨hr.1, congrArg (Event.judged false :: ·) hr.2⟩
  · cases ha : verifyNtripResponse t.recvEvbuf with
    | none =>
      have hempty : Alike cfg n { t with recvEvbuf := [] } { u with recvEvbuf := [] } :=
        ⟨h.state, h.connectKey, rfl, h.chunkedSize, h.stopped, h.attempt, h.begun, h.fresh, h.asked,
          h.known⟩
      have hr := alike_scheduleRetry hempty
      rw [handleHandshake_refused hrecv ha,
        handleHandshake_refused (s := u) (h.recvEvbuf ▸ hrecv) (h.recvEvbuf ▸ ha)]
      exact ⟨hr.1, congrArg (Event.judged false :: ·) hr.2⟩
    | some a =>
      obtain ⟨ht, hu⟩ := h.fresh hs
      obtain ⟨reg, -, hr⟩ := handleHandshake_accepted cfg hrecv ha
      obtain ⟨reg', -, hr'⟩ := handleHandshake_accepted cfg (s := u)
        (h.recvEvbuf ▸ hrecv) (h.recvEvbuf ▸ ha)
      rw [hr, hr', if_pos (Option.not_isSome_iff_eq_none.mp ht),
        if_pos (Option.not_isSome_iff_eq_none.mp hu)]
      refine ⟨⟨rfl, h.connectKey, rfl, h.chunkedSize, h.stopped, h.attempt, State.noConfusion,
        State.noConfusion, iff_of_true ?_ ?_, fun _ ↦ rfl⟩, rfl⟩
      · rw [← h.attempt.1]
        exact List.mem_cons_self ..
      · rw [← h.attempt.2]
        exact List.mem_cons_self ..

theorem alike_recv (h : Alike cfg n t u) (buf : Bytes) (size : Nat) : Alike cfg n
    { t with recvEvbuf := buf, chunkedSize := size }
      { u with recvEvbuf := buf, chunkedSize := size } :=
  ⟨h.state, h.connectKey, rfl, rfl, h.stopped, h.attempt, h.begun, h.fresh, h.asked, h.known⟩

theorem alike_publishRecvRawData (h : Alike cfg n t u) (hs : t.state = .running) :
    Option.Rel (AlikeAfter cfg n) (publishRecvRawData cfg t) (publishRecvRawData cfg u) := by
  unfold publishRecvRawData
  rw [h.known (.inr (.inl hs))]
  split
  · unfold publishDataFromChunk
    rw [h.recvEvbuf, h.chunkedSize]
    dsimp only
    split
    · exact .some ⟨alike_recv h _ _, rfl⟩
    · have hr (buf : Bytes) (size : Nat) := alike_scheduleRetry (alike_recv h buf size)
      refine .some ⟨(hr _ _).1, ?_⟩
      rw [traffic, traffic, List.filter_append, List.filter_append]
      exact congrArg (_ ++ ·) (hr _ _).2
    · exact .none
  · unfold publishDataFromEvbuf
    rw [h.recvEvbuf]
    split
    · exact .some ⟨h, rfl⟩
    · refine .some ⟨?_, rfl⟩
      exact ⟨h.state, h.connectKey, rfl, h.chunkedSize, h.stopped, h.attempt, h.begun, h.fresh,
        h.asked, h.known⟩

theorem alike_readCallback (h : Alike cfg n t u) (data : Bytes) :
    Option.Rel (AlikeAfter cfg n) (readCallback cfg data t) (readCallback cfg data u) := by
  have h' : Alike cfg n { t with recvEvbuf := t.recvEvbuf ++ data }
      { u with recvEvbuf := u.recvEvbuf ++ data } :=
    ⟨h.state,
      h.connectKey, by
        rw [h.recvEvbuf], h.chunkedSize, h.stopped, h.attempt, h.begun, h.fresh, h.asked, h.known⟩
  by_cases hs : t.state = .handshaking
  · rw [readCallback_handshaking hs, readCallback_handshaking (h.state.trans hs)]
    exact .some (alike_handleHandshake h' hs)
  · by_cases hr : t.state = .running
    · rw [readCallback_running hr, readCallback_running (h.state.trans hr)]
      exact alike_publishRecvRawData h' hr
    · rw [readCallback_kept hs hr, readCallback_kept (h.state ▸ hs) (h.state ▸ hr)]
      exact .some ⟨h', rfl⟩

theorem alike_eventCallback (h : Alike cfg n t u) (connected : Bool) (newKey : String) :
    AlikeAfter cfg n (eventCallback cfg connected newKey t)
      (eventCallback cfg connected newKey u) := by
  unfold eventCallback
  rw [h.stopped, h.state]
  split
  · exact ⟨h, rfl⟩
  · rw [if_neg fun hc ↦ h.begun hc.1, if_neg fun hc ↦ h.begun hc.1]
    exact alike_scheduleRetry h

theorem alike_stop (h : Alike cfg n t u) : Alike cfg n (stop cfg t) (stop cfg u) := by
  unfold stop
  rw [h.stopped]
  split
  · exact h
  · obtain ⟨b, c, ht⟩ := deleteTimer_cases { t with stopped := true }
    obtain ⟨b', c', hu⟩ := deleteTimer_cases { u with stopped := true }
    rw [ht, hu]
    obtain ⟨reg, r, ht⟩ := cleanupConnection_eq cfg
      { t with stopped := true, timeoutEv := b, timeoutEvFlag := c }
    obtain ⟨reg', r', hu⟩ := cleanupConnection_eq cfg
      { u with stopped := true, timeoutEv := b', timeoutEvFlag := c' }
    rw [ht, hu]
    exact ⟨rfl, rfl, h.recvEvbuf, h.chunkedSize, rfl, h.attempt, State.noConfusion,
      State.noConfusion, h.asked, fun hk ↦ h.known (.inr (.inr (hk.elim State.noConfusion
        fun hk ↦ hk.elim State.noConfusion id)))⟩

theorem alike_step {a : Action} (h : Alike cfg n t u) (ha : OfConnection n a) :
    Option.Rel (AlikeAfter cfg n) (step cfg t a) (step cfg u a) := by
  cases a with
  | start newBev => exact ha.elim
  | timeout newBev => exact ha.elim
  | stop => exact .some ⟨alike_stop h, rfl⟩
  | event connected newKey => exact .some (alike_eventCallback h connected newKey)
  | read data => exact alike_readCallback h data
  | registerReply attempt r =>
    obtain rfl : attempt = n := ha
    unfold step
    dsimp only
    by_cases hn : attempt ∈ t.requests
    · rw [if_pos hn, if_pos (h.asked.mp hn)]
      exact .some (alike_casterRegisterCallback h hn r)
    · rw [if_neg hn, if_neg fun hu ↦ hn (h.asked.mpr hu)]
      exact .none
  | policy p =>
    exact .some
      ⟨⟨h.state, h.connectKey, h.recvEvbuf, h.chunkedSize, h.stopped, h.attempt, h.begun, h.fresh,
        h.asked, h.known⟩, rfl⟩

theorem observe_eq {as : List Action} (h : Alike cfg n t u) (has : ∀ a ∈ as, OfConnection n a) :
    observe cfg t as = observe cfg u as := by
  induction as generalizing t u with
  | nil => rfl
  | cons a as ih =>
    obtain ⟨ha, has⟩ := List.forall_mem_cons.mp has
    have hstep := alike_step h ha
    rw [observe_cons, observe_cons]
    cases ht : step cfg t a with
    | none =>
      rw [ht] at hstep
      cases hu : step cfg u a with
      | none => rfl
      | some q =>
        rw [hu] at hstep
        cases hstep
    | some p =>
      rw [ht] at hstep
      cases hu : step cfg u a with
      | none =>
        rw [hu] at hstep
        cases hstep
      | some q =>
        rw [hu] at hstep
        cases hstep with
        | some hpq =>
          dsimp only [Option.bind]
          rw [ih hpq.1 has, hpq.2]

theorem scheduleRetry_asked (cfg : Config) (s : Pull) :
    (scheduleRetry cfg s).1.requests = s.requests ∧
    (scheduleRetry cfg s).1.attempt = s.attempt ∧ traffic (scheduleRetry cfg s).2 = [] := by
  cases hs : s.stopped with
  | true =>
    rw [scheduleRetry_stopped hs]
    exact ⟨rfl, rfl, rfl⟩
  | false =>
    obtain ⟨reg, r, hretry⟩ := scheduleRetry_eq cfg hs
    rw [hretry]
    exact ⟨rfl, rfl, rfl⟩

def Asked (s : Pull) : Prop := ∀ n ∈ s.requests, n ≤ s.attempt

theorem asked_scheduleRetry (h : Asked s) : Asked (scheduleRetry cfg s).1 := by
  obtain ⟨hrequests, hattempt, -⟩ := scheduleRetry_asked cfg s
  unfold Asked
  rw [hrequests, hattempt]
  exact h

theorem asked_startConnect {newBev : String} (h : Asked s) :
    Asked (startConnect cfg newBev s).1 := by
  obtain ⟨b, c, hdelete⟩ := deleteTimer_cases s
  have hbegun : Asked { s with
      timeoutEv := b, timeoutEvFlag := c, state := .connecting, connectKey := newBev,
      attempt := s.attempt + 1 } := fun n hn ↦ (h n hn).trans (Nat.le_succ _)
  unfold startConnect
  rw [hdelete]
  split
  · exact h
  · dsimp only
    split
    · exact asked_scheduleRetry hbegun
    · exact hbegun

theorem asked_handleHandshake (h : Asked s) : Asked (handleHandshake cfg s).1 := by
  by_cases hrecv : s.recvEvbuf = []
  · unfold handleHandshake
    rw [if_pos hrecv]
    exact asked_scheduleRetry h
  · cases ha : verifyNtripResponse s.recvEvbuf with
    | none =>
      rw [handleHandshake_refused hrecv ha]
      exact asked_scheduleRetry (s := { s with recvEvbuf := [] }) h
    | some a =>
      obtain ⟨reg, -, hr⟩ := handleHandshake_accepted cfg hrecv ha
      rw [hr]
      intro n hn
      dsimp only at hn
      split at hn
      · obtain rfl | hn := List.mem_cons.mp hn
        · exact le_rfl
        · exact h n hn
      · exact h n hn

theorem asked_publishRecvRawData {es : List Event} (h : Asked s)
    (ht : publishRecvRawData cfg s = some (t, es)) : Asked t := by
  unfold publishRecvRawData at ht
  split at ht
  · unfold publishDataFromChunk at ht
    dsimp only at ht
    split at ht
    · cases ht
      exact h
    · cases ht
      exact asked_scheduleRetry (s := { s with recvEvbuf := _, chunkedSize := _ }) h
    · cases ht
  · unfold publishDataFromEvbuf at ht
    split at ht
    · cases ht
      exact h
    · cases ht
      exact h

theorem asked_step {a : Action} {es : List Event} (h : Asked s) (ht : step cfg s a = some (t, es)) :
    Asked t := by
  cases a with
  | start newBev =>
    rw [pull_of_some ht]
    exact asked_startConnect (s := { s with stopped := false }) h
  | stop =>
    cases ht
    unfold stop
    split
    · exact h
    · obtain ⟨b, c, hdelete⟩ := deleteTimer_cases { s with stopped := true }
      obtain ⟨reg, r, hclean⟩ := cleanupConnection_eq cfg
        { s with stopped := true, timeoutEv := b, timeoutEvFlag := c }
      rw [hdelete, hclean]
      exact h
  | event connected newKey =>
    rw [pull_of_some ht]
    unfold eventCallback
    split
    · exact h
    · split
      · exact h
      · exact asked_scheduleRetry h
  | read data =>
    by_cases hs : s.state = .handshaking
    · rw [step, readCallback_handshaking hs] at ht
      rw [pull_of_some ht]
      exact asked_handleHandshake (s := { s with recvEvbuf := s.recvEvbuf ++ data }) h
    · by_cases hr : s.state = .running
      · rw [step, readCallback_running hr] at ht
        exact asked_publishRecvRawData (s := { s with recvEvbuf := s.recvEvbuf ++ data }) h ht
      · rw [step, readCallback_kept hs hr] at ht
        cases ht
        exact h
  | timeout newBev =>
    unfold step at ht
    dsimp only at ht
    split at ht
    · rw [pull_of_some ht]
      unfold timeoutCallback
      split
      · exact h
      · exact asked_startConnect (s := { s with timeoutEv := false, timeoutEvFlag := false }) h
    · cases ht
  | registerReply attempt r =>
    unfold step at ht
    dsimp only at ht
    split at ht
    · rw [pull_of_some ht]
      cases r with
      | ok => exact h
      | err => exact asked_scheduleRetry h
      | _ => exact h
    · cases ht
  | policy p =>
    cases ht
    exact h

theorem asked_of_reachable (h : (relayMachine cfg).Reachable (create cfg) s) : Asked s :=
  h.invariant (fun _ hn ↦ absurd hn List.not_mem_nil) fun _ _ _ _ ht _ hs ↦ asked_step ht hs

theorem not_isBase_create (key : String) (h : s.registry = (create cfg).registry) :
    ¬ IsBase cfg s key := by
  unfold IsBase
  rw [h]
  exact Bool.false_ne_true

theorem waiting_renewed (cfg : Config) (s : Pull) : Waiting (renewed cfg s) := ⟨rfl, rfl, rfl⟩

theorem alike_connected {key newKey : String} (ha : Asked s) (hw : Waiting s)
    (hrecv : s.recvEvbuf = []) (hsize : s.chunkedSize = 0)
    (hbase : ¬ IsBase cfg s (recalculateKey newKey key)) :
    Alike cfg (s.attempt + 1) (connected key newKey s) (connected key newKey (renewed cfg s)) := by
  have hnew : s.attempt + 1 ∉ s.requests := fun hn ↦ by
    have := ha _ hn
    omega
  refine ⟨rfl, rfl, hrecv.symm, hsize.symm, hw.live.symm, ⟨rfl, rfl⟩, State.noConfusion,
    fun _ ↦ ⟨hbase, not_isBase_create _ rfl⟩, iff_of_false hnew List.not_mem_nil, fun hk ↦ ?_⟩
  obtain hk | hk | hk := hk
  · cases hk
  · cases hk
  · exact absurd hk hnew

theorem step_verdict (cfg : Config) {s : Pull} (hs : s.state = .handshaking) {x : Bytes}
    (hx : x ≠ []) : ∃ t es,
    step cfg s (.read x) = some (t, .judged (verifyNtripResponse (s.recvEvbuf ++ x)).isSome :: es) ∧
      traffic es = [] := by
  have hne : s.recvEvbuf ++ x ≠ [] := fun hnil ↦ hx (List.append_eq_nil_iff.mp hnil).2
  rw [step, readCallback_handshaking hs]
  cases ha : verifyNtripResponse (s.recvEvbuf ++ x) with
  | none =>
    rw [handleHandshake_refused (s := { s with recvEvbuf := s.recvEvbuf ++ x }) hne ha]
    exact ⟨_, _, rfl, (scheduleRetry_asked ..).2.2⟩
  | some a =>
    obtain ⟨reg, -, hr⟩ := handleHandshake_accepted cfg
      (s := { s with recvEvbuf := s.recvEvbuf ++ x }) hne ha
    rw [hr]
    exact ⟨_, _, rfl, rfl⟩

theorem observe_verdict (hs : s.state = .handshaking) {x : Bytes} (hx : x ≠ []) :
    observe cfg s [.read x] = some [.judged (verifyNtripResponse (s.recvEvbuf ++ x)).isSome] := by
  obtain ⟨t, es, ht, hes⟩ := step_verdict cfg hs hx
  rw [observe_cons, ht]
  change some (traffic (_ :: es) ++ []) = _
  rw [List.append_nil]
  exact congrArg (fun es ↦ some (_ :: es)) hes

theorem recvEvbuf_of_isolated {key newKey : String} (hw : Waiting s) (hkey : key ≠ "")
    (h : Isolated cfg s key newKey) : s.recvEvbuf = [] := by
  have hverdict {x : Bytes} (hx : x ≠ []) : (verifyNtripResponse (s.recvEvbuf ++ x)).isSome =
      (verifyNtripResponse x).isSome := by
    have hobs := h [.read x] fun a ha ↦ by
      rw [List.mem_singleton.mp ha]
      trivial
    rw [observe_reconnect hw hkey, observe_reconnect (waiting_renewed cfg s) hkey,
      observe_verdict rfl hx, observe_verdict rfl hx] at hobs
    injection hobs with hobs
    injection hobs with hobs
    injection hobs
  refine eq_nil_of_accepts ?_ ?_ ?_
  · rw [hverdict (by decide)]
    decide +kernel
  · refine Option.not_isSome_iff_eq_none.mp ?_
    rw [hverdict (by decide)]
    decide +kernel
  · rw [hverdict (by decide)]
    decide +kernel

def accept (attempt : Nat) (resp : Bytes) (as : List Action) : List Action :=
  .read resp :: .registerReply attempt .ok :: as

theorem observe_accept (cfg : Config) {s : Pull} {resp : Bytes} {a : Accepted}
    (hs : s.state = .handshaking) (hrecv : s.recvEvbuf = []) (hresp : resp ≠ [])
    (ha : verifyNtripResponse resp = some a)
    (hbase : ¬ IsBase cfg s s.connectKey) : ∃ t : Pull, t.state = .running ∧ t.stopped = s.stopped ∧
      t.recvEvbuf = [] ∧ t.chunkedSize = s.chunkedSize ∧ t.transferWithChunked = a.chunked ∧
      ∀ as, observe cfg s (accept s.attempt resp as) =
        (observe cfg t as).map (.judged true :: ·) := by
  obtain ⟨reg, -, hr⟩ := handleHandshake_accepted cfg
    (s := { s with recvEvbuf := s.recvEvbuf ++ resp }) (a := a)
    (fun hnil ↦ hresp (List.append_eq_nil_iff.mp hnil).2) (by rw [hrecv]; exact ha)
  have hread : step cfg s (.read resp) = some (handleHandshake cfg { s with
      recvEvbuf := s.recvEvbuf ++ resp }) := readCallback_handshaking hs resp
  rw [hr, if_pos (Option.not_isSome_iff_eq_none.mp hbase)] at hread
  refine ⟨(running { s with
    recvEvbuf := []
    ntripVersion2 := a.version2
    transferWithChunked := a.chunked
    state := .registering
    registry := reg
    requests := s.attempt :: s.requests }).1, rfl, rfl, rfl, rfl, rfl, fun as ↦ ?_⟩
  unfold accept
  rw [observe_cons, hread]
  dsimp only [Option.bind]
  rw [observe_cons, step, if_pos (List.mem_cons_self ..)]
  dsimp only [Option.bind, casterRegisterCallback]
  rw [Option.map_map]
  rfl

theorem observe_unanswered {attempt : Nat} {resp : Bytes} {a : Accepted}
    (hs : s.state = .handshaking) (hrecv : s.recvEvbuf = []) (hresp : resp ≠ [])
    (ha : verifyNtripResponse resp = some a) (hbase : IsBase cfg s s.connectKey)
    (hnew : attempt ∉ s.requests) (as : List Action) :
    observe cfg s (accept attempt resp as) = none := by
  obtain ⟨reg, -, hr⟩ := handleHandshake_accepted cfg
    (s := { s with recvEvbuf := s.recvEvbuf ++ resp }) (a := a)
    (fun hnil ↦ hresp (List.append_eq_nil_iff.mp hnil).2) (by rw [hrecv]; exact ha)
  have hread : step cfg s (.read resp) = some (handleHandshake cfg { s with
      recvEvbuf := s.recvEvbuf ++ resp }) := readCallback_handshaking hs resp
  have hentry : s.registry.entry .base cfg.mountPoint s.connectKey ≠ none :=
    Option.isSome_iff_ne_none.mp hbase
  rw [hr, if_neg hentry] at hread
  unfold accept
  rw [observe_cons, hread]
  dsimp only [Option.bind]
  rw [observe_cons, step, if_neg hnew]
  rfl

theorem not_isBase_of_isolated {key newKey : String} (ha : Asked s) (hw : Waiting s)
    (hkey : key ≠ "") (h : Isolated cfg s key newKey) (hrecv : s.recvEvbuf = []) :
    ¬ IsBase cfg s (recalculateKey newKey key) := by
  intro hbase
  have hnew : s.attempt + 1 ∉ s.requests := fun hn ↦ by
    have := ha _ hn
    omega
  have hok : verifyNtripResponse (ascii "OK") = some ⟨false, false⟩ := by decide +kernel
  have hobs := h (accept (s.attempt + 1) (ascii "OK") []) fun a ha ↦ by
    obtain rfl | ha := List.mem_cons.mp ha
    · trivial
    · rw [List.mem_singleton.mp ha]
      rfl
  rw [observe_reconnect hw hkey, observe_reconnect (waiting_renewed cfg s) hkey,
    observe_unanswered (s := connected key newKey s) rfl hrecv (by decide) hok hbase hnew] at hobs
  obtain ⟨t, -, -, -, -, -, ht⟩ := observe_accept cfg (s := connected key newKey (renewed cfg s))
    rfl rfl (by decide) hok (not_isBase_create _ rfl)
  have hnil := hobs.trans (ht [])
  cases hnil

def torn (size : Nat) : List Action := [.read [88], .read (List.replicate (size + 1) 0)]

theorem observe_torn_due (hs : s.state = .running) (hstop : s.stopped = false)
    (hrecv : s.recvEvbuf = []) (hsize : s.chunkedSize = 0) (hc : s.transferWithChunked = true)
    (size : Nat) : observe cfg s (torn size) = some [] := by
  have hd :
      Chunked.RelayPull.publishDataFromChunk (decoder { s with recvEvbuf := s.recvEvbuf ++ [88] }) =
      { recvEvbuf := [88], ending := some .scheduleRetry } := by
    unfold decoder
    rw [hrecv, hsize]
    exact Chunked.publish_error (d := { recvEvbuf := [88] }) (by decide)
  have hread := step_chunk cfg hs hc [88]
  obtain ⟨reg, r, hretry⟩ := scheduleRetry_eq cfg
    (s := { s with recvEvbuf := [88], chunkedSize := 0 }) hstop
  rw [publishDataFromChunk_retry hd rfl, hretry] at hread
  unfold torn
  rw [observe_cons, hread]
  dsimp only [Option.bind]
  rw [observe_cons, step, readCallback_kept State.noConfusion State.noConfusion]
  rfl

theorem publish_huge {d : Chunked.Decoder} (h : 2 ^ 63 ≤ d.chunkedSize) :
    Chunked.RelayPull.publishDataFromChunk d =
      if d.recvEvbuf.length < (d.chunkedSize + 2) % 2 ^ 64 then d
      else { d with ending := some .lengthError } := by
  have hhead : Chunked.readChunkHead .scheduleRetry d = .ok d :=
    Chunked.readChunkHead_body (by omega)
  unfold Chunked.RelayPull.publishDataFromChunk
  rw [Chunked.publish_step hhead, if_pos h]

theorem observe_cons_none {a : Action} (h : step cfg s a = none) (as : List Action) :
    observe cfg s (a :: as) = none := by
  rw [observe_cons, h]
  rfl

theorem observe_cons_some {a : Action} {es : List Event} (h : step cfg s a = some (t, es))
    (as : List Action) : observe cfg s (a :: as) = (observe cfg t as).map (traffic es ++ ·) := by
  rw [observe_cons, h]
  rfl

theorem publish_torn {size : Nat} (hsize : size ≠ 0) (first second : Chunked.Decoder)
    (hf : first = { recvEvbuf := [88], chunkedSize := size })
    (hs : second = { recvEvbuf := 88 :: List.replicate (size + 1) 0, chunkedSize := size }) :
    (Chunked.RelayPull.publishDataFromChunk first = first ∨
        (Chunked.RelayPull.publishDataFromChunk first).ending = some .lengthError) ∧
      ((Chunked.RelayPull.publishDataFromChunk second).ending = some .lengthError ∨
        ((Chunked.RelayPull.publishDataFromChunk second).ending = none ∧
          (Chunked.RelayPull.publishDataFromChunk second).published ≠ [])) := by
  have hlength : second.recvEvbuf.length = size + 2 := by
    rw [hs, List.length_cons, List.length_replicate]
  have hmod : (size + 2) % 2 ^ 64 ≤ size + 2 := Nat.mod_le ..
  by_cases hhuge : 2 ^ 63 ≤ size
  · rw [publish_huge (d := first) (by rw [hf]; exact hhuge),
      publish_huge (d := second) (by rw [hs]; exact hhuge), hlength,
      if_neg (show ¬ size + 2 < (second.chunkedSize + 2) % 2 ^ 64 by rw [hs]; exact hmod.not_gt)]
    refine ⟨?_, .inl rfl⟩
    split
    · exact .inl rfl
    · exact .inr rfl
  · have hfits : size < 2 ^ 63 := by omega
    have hhead {d : Chunked.Decoder} (hd : d.chunkedSize = size) :
        Chunked.readChunkHead .scheduleRetry d = .ok d := Chunked.readChunkHead_body (hd ▸ hsize)
    have hfirst : Chunked.RelayPull.publishDataFromChunk first = first := by
      rw [hf]
      refine (Chunked.publish_ok (hhead rfl) hfits).trans (if_pos ?_)
      change 1 < size + 2
      omega
    have hdone : (Chunked.takeChunk second).recvEvbuf = [] := by
      unfold Chunked.takeChunk
      rw [List.drop_drop]
      refine List.drop_eq_nil_of_le ?_
      rw [hlength, hs]
    have hsecond : Chunked.RelayPull.publishDataFromChunk second = Chunked.takeChunk second := by
      refine (Chunked.publish_ok (hhead (by rw [hs])) (by rw [hs]; exact hfits)).trans ?_
      rw [if_neg (by rw [hlength, hs]; exact lt_irrefl _), if_pos hdone]
    rw [hsecond, hfirst, hs]
    exact ⟨.inl rfl, .inr ⟨rfl, List.cons_ne_nil _ _⟩⟩

theorem observe_torn_pending (cfg : Config) {s : Pull} (hs : s.state = .running)
    (hrecv : s.recvEvbuf = []) (hsize : s.chunkedSize ≠ 0) (hc : s.transferWithChunked = true) :
    observe cfg s (torn s.chunkedSize) ≠ some [] := by
  let t : Pull := { s with recvEvbuf := [88] }
  have hfirst : step cfg s (.read [88]) = publishDataFromChunk cfg t := by
    rw [step_chunk cfg hs hc, hrecv]
    rfl
  have hsecond : step cfg t (.read (List.replicate (s.chunkedSize + 1) 0)) =
      publishDataFromChunk cfg { t with recvEvbuf := 88 :: List.replicate (s.chunkedSize + 1) 0 } :=
    step_chunk cfg (s := t) hs hc _
  obtain ⟨hone, htwo⟩ := publish_torn hsize (decoder t) (decoder { t with
    recvEvbuf := 88 :: List.replicate (s.chunkedSize + 1) 0 }) rfl rfl
  unfold torn
  obtain hone | hone := hone
  · have hkept : step cfg s (.read [88]) = some (t, []) :=
      hfirst.trans (publishDataFromChunk_live hone rfl)
    rw [observe_cons_some hkept]
    obtain htwo | ⟨htwo, hpub⟩ := htwo
    · rw [observe_cons_none (hsecond.trans (publishDataFromChunk_fatal rfl htwo (by decide)))]
      nofun
    · rw [observe_cons_some (hsecond.trans (publishDataFromChunk_live rfl htwo))]
      obtain ⟨data, more, hmore⟩ := List.exists_cons_of_ne_nil hpub
      rw [hmore]
      nofun
  · rw [observe_cons_none (hfirst.trans (publishDataFromChunk_fatal rfl hone (by decide)))]
    nofun

def chunkedHeader : Bytes := ascii "HTTP/1.1 200 OK\r\nTransfer-Encoding: chunked\r\n\r\n"

theorem chunkedSize_of_isolated {key newKey : String} (hw : Waiting s) (hkey : key ≠ "")
    (h : Isolated cfg s key newKey) (hrecv : s.recvEvbuf = [])
    (hbase : ¬ IsBase cfg s (recalculateKey newKey key)) : s.chunkedSize = 0 := by
  by_contra hsize
  have hheader : verifyNtripResponse chunkedHeader = some ⟨true, true⟩ := by decide +kernel
  obtain ⟨t, hs, -, htrecv, htsize, hc, ht⟩ := observe_accept cfg
    (s := connected key newKey s) rfl hrecv (by decide) hheader hbase
  obtain ⟨u, hs', hstop, hurecv, husize, hc', hu⟩ := observe_accept cfg
    (s := connected key newKey (renewed cfg s)) rfl rfl (by decide) hheader
      (not_isBase_create _ rfl)
  have hobs := h (accept (s.attempt + 1) chunkedHeader (torn s.chunkedSize)) fun a ha ↦ by
    obtain _ | ⟨_, _ | ⟨_, _ | ⟨_, _ | ⟨_, ⟨⟩⟩⟩⟩⟩ := ha <;> trivial
  rw [observe_reconnect hw hkey, observe_reconnect (waiting_renewed cfg s) hkey] at hobs
  have hobs' := (ht (torn s.chunkedSize)).symm.trans (hobs.trans (hu (torn s.chunkedSize)))
  rw [observe_torn_due hs' hstop hurecv husize hc'] at hobs'
  obtain ⟨es, hes, hjudged⟩ := Option.map_eq_some_iff.mp hobs'
  cases hjudged
  have htsize' : t.chunkedSize = s.chunkedSize := htsize
  refine observe_torn_pending cfg hs htrecv (htsize' ▸ hsize) hc ?_
  rw [htsize']
  exact hes

/-- The next connection shows only what it brings itself just where the last one has left no byte,
no chunk under way, and no registration under the key of the next. -/
theorem isolated_iff {key newKey : String} (h : (relayMachine cfg).Reachable (create cfg) s)
    (hw : Waiting s) (hkey : key ≠ "") : Isolated cfg s key newKey ↔
      s.recvEvbuf = [] ∧ s.chunkedSize = 0 ∧ ¬ IsBase cfg s (recalculateKey newKey key) := by
  have hasked := asked_of_reachable h
  constructor
  · intro hiso
    have hrecv := recvEvbuf_of_isolated hw hkey hiso
    have hbase := not_isBase_of_isolated hasked hw hkey hiso hrecv
    exact ⟨hrecv, chunkedSize_of_isolated hw hkey hiso hrecv hbase, hbase⟩
  · rintro ⟨hrecv, hsize, hbase⟩ as has
    rw [observe_reconnect hw hkey, observe_reconnect (waiting_renewed cfg s) hkey]
    exact observe_eq (alike_connected hasked hw hrecv hsize hbase) has

def waiting (s : Pull) : Bool := s.state = .waitingRetry ∧ s.timeoutEv = true ∧ s.stopped = false

def remains (s : Pull) : Bool × Bytes × Nat × Bool :=
  (waiting s, s.recvEvbuf, s.chunkedSize, (s.registry.entry .base feed.mountPoint "l").isSome)

theorem waiting_of_remains {v : Bytes × Nat × Bool} (h : remains s = (true, v)) : Waiting s := by
  have hw : waiting s = true := congrArg Prod.fst h
  obtain ⟨hstate, htimer, hlive⟩ := of_decide_eq_true hw
  exact ⟨hstate, htimer, hlive⟩

theorem exists_refused : ∃ s, (relayMachine feed).Reachable (create feed) s ∧
    remains s = (true, [], 0, false) :=
  Machine.exists_reach (l := [.start "a", .event true "k", .read [88]]) _
    (Machine.meets_of_forall (fun _ _ _ ↦ trivial) _) (by decide +kernel)

theorem isolated_refused : ∃ s, remains s = (true, [], 0, false) ∧ Isolated feed s "b" "l" := by
  obtain ⟨s, hs, hv⟩ := exists_refused
  obtain ⟨-, hrecv, hsize, hbase⟩ : waiting s = true ∧ s.recvEvbuf = [] ∧ s.chunkedSize = 0 ∧
      (s.registry.entry .base feed.mountPoint "l").isSome = false := by
    simpa only [remains, Prod.mk.injEq] using hv
  have hfresh : ¬ IsBase feed s (recalculateKey "l" "b") := by
    change ¬ (s.registry.entry .base feed.mountPoint "l").isSome = true
    rw [hbase]
    exact Bool.false_ne_true
  exact ⟨s, hv, (isolated_iff hs (waiting_of_remains hv) (by decide)).mpr ⟨hrecv, hsize, hfresh⟩⟩

theorem exists_broken : ∃ s, (relayMachine feed).Reachable (create feed) s ∧
    remains s = (true, [88], 0, false) :=
  Machine.exists_reach (l := handshake ++ [.read [88], .event false ""]) _
    (Machine.meets_of_forall (fun _ _ _ ↦ trivial) _) (by decide +kernel)

theorem not_isolated_broken : ¬ ∀ (cfg : Config) (s : Pull) (key newKey : String),
    (relayMachine cfg).Reachable (create cfg) s → Waiting s → key ≠ "" →
      Isolated cfg s key newKey := by
  intro h
  obtain ⟨s, hs, hv⟩ := exists_broken
  have hw := waiting_of_remains hv
  have hrecv : s.recvEvbuf = [88] := congrArg (fun v ↦ v.2.1) hv
  have hnil := recvEvbuf_of_isolated hw (by decide) (h feed s "b" "l" hs hw (by decide))
  rw [hrecv] at hnil
  cases hnil

end NavCaster.Session.Reconnect
