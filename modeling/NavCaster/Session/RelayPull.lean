import NavCaster.Library.Machine
import NavCaster.Core.Connections
import NavCaster.Session.Chunked
import NavCaster.Session.Response

namespace NavCaster.Session.RelayPull

open NavCaster.Library
open NavCaster.Library.Strto (Bytes)
open NavCaster.Core.Message
open NavCaster.Core.Access
open NavCaster.Core.Connections
open NavCaster.Session.Response

inductive State
  | idle | connecting | handshaking | registering | running | waitingRetry
  deriving DecidableEq

structure Config where
  taskKey : String := ""
  mountPoint : String := ""
  mountPara : String := ""
  userName : String := ""
  ntripVersion : String := ""
  httpChunked : String := ""
  opts : Options := {}

/-- One task, with what it has registered with the caster and the policy that the caster has. Each
call of `start_connect` begins an attempt, and `requests` are those attempts whose registration the
caster has yet to answer, or may still revoke. -/
structure Pull where
  policy : AccessPolicy := {}
  registry : Registry Nat := {}
  state : State := .idle
  connectKey : String := ""
  userName : String := ""
  ntripVersion2 : Bool := false
  transferWithChunked : Bool := false
  recvEvbuf : Bytes := []
  chunkedSize : Nat := 0
  stopped : Bool := false
  registered : Bool := false
  retryDelay : Nat := 5
  timeoutEv : Bool := false
  timeoutEvFlag : Bool := false
  attempt : Nat := 0
  requests : List Nat := []

/-- What a task does that others see: `judged` is what it makes of the response to its request. -/
inductive Event
  | requested (version2 : Bool) (mountPoint : String)
  | judged (accepted : Bool)
  | published (data : Bytes)
  | pullBaseInfo (connectKey : String) (status : Nat)
  | retry (delay : Nat)
  deriving DecidableEq

inductive Action
  | start (newBev : String)
  | stop
  | event (connected : Bool) (newKey : String)
  | read (data : Bytes)
  | timeout (newBev : String)
  | registerReply (attempt : Nat) (r : CasterReply)
  | policy (p : AccessPolicy)

variable (cfg : Config)

def create : Pull where
  userName := cfg.userName
  ntripVersion2 := cfg.ntripVersion = "Ntrip/2.0"
  transferWithChunked := cfg.httpChunked = "chunked"

def cleanupConnection (s : Pull) : Pull :=
  if s.connectKey = "" then s
  else
    let s := if s.registered then
        { s with
          registered := false
          registry :=
            (withdrawBaseChannel cfg.opts cfg.mountPoint s.connectKey s.registry).registry }
      else s
    { s with connectKey := "" }

def scheduleRetry (s : Pull) : Pull × List Event :=
  if s.stopped then (s, [])
  else
    let s := cleanupConnection cfg s
    ({ s with
        state := .waitingRetry
        timeoutEv := true
        timeoutEvFlag := true
        retryDelay := min (s.retryDelay * 2) 60 },
      [.pullBaseInfo "" 0, .retry s.retryDelay])

def deleteTimer (s : Pull) : Pull :=
  if s.timeoutEvFlag then { s with timeoutEv := false, timeoutEvFlag := false } else s

/-- `newBev` is the key of the new connection, or nothing where there is none. -/
def startConnect (newBev : String) (s : Pull) : Pull × List Event :=
  if s.stopped then (s, [])
  else
    let s := deleteTimer s
    let s := { s with state := .connecting, connectKey := newBev, attempt := s.attempt + 1 }
    if newBev = "" then scheduleRetry cfg s else (s, [])

def start (newBev : String) (s : Pull) : Pull × List Event :=
  startConnect cfg newBev { s with stopped := false }

def stop (s : Pull) : Pull :=
  if s.stopped then s
  else
    { cleanupConnection cfg (deleteTimer { s with stopped := true }) with state := .idle }

def recalculateKey (newKey oldKey : String) : String := if newKey = "" then oldKey else newKey

def handleConnected (newKey : String) (s : Pull) : Pull × List Event :=
  ({ s with
      connectKey := recalculateKey newKey s.connectKey
      userName := "SYSTEM"
      state := .handshaking },
    [.requested s.ntripVersion2 (if cfg.mountPara = "" then cfg.mountPoint else cfg.mountPara)])

def running (s : Pull) : Pull × List Event :=
  ({ s with registered := true, state := .running, retryDelay := 5 },
    [.pullBaseInfo s.connectKey 1])

def casterRegisterCallback (s : Pull) (r : CasterReply) : Pull × List Event :=
  match r with
  | .ok => running s
  | .err => scheduleRetry cfg s
  | _ => (s, [])

def registerItem (s : Pull) : CbItem Nat where
  connectKey := s.connectKey
  channel := cfg.mountPoint
  userName := s.userName
  groupUid := "SYSTEM"
  arg := s.attempt

/-- A registration that is denied would be answered at once. -/
def register (s : Pull) : Pull × List Event :=
  let o := registerBaseChannel s.policy .pull (registerItem cfg s) s.registry
  let s := { s with
    registry := o.registry
    requests := if o.code = 0 then s.attempt :: s.requests else s.requests }
  o.calls.foldl
    (fun p c ↦
      let q := casterRegisterCallback cfg p.1 c.reply
      (q.1, p.2 ++ q.2))
    (s, [])

def handleHandshake (s : Pull) : Pull × List Event :=
  if s.recvEvbuf = [] then
    let p := scheduleRetry cfg s
    (p.1, .judged false :: p.2)
  else
    match verifyNtripResponse s.recvEvbuf with
    | none =>
      let p := scheduleRetry cfg { s with recvEvbuf := [] }
      (p.1, .judged false :: p.2)
    | some a =>
      let p := register cfg { s with
        recvEvbuf := []
        ntripVersion2 := a.version2
        transferWithChunked := a.chunked
        state := .registering }
      (p.1, .judged true :: p.2)

def publishDataFromEvbuf (s : Pull) : Pull × List Event :=
  if s.recvEvbuf = [] then (s, []) else ({ s with recvEvbuf := [] }, [.published s.recvEvbuf])

/-- `none` where an exception leaves the callback, which ends the process. -/
def publishDataFromChunk (s : Pull) : Option (Pull × List Event) :=
  let d :=
    Chunked.RelayPull.publishDataFromChunk
      { recvEvbuf := s.recvEvbuf, chunkedSize := s.chunkedSize }
  let s := { s with recvEvbuf := d.recvEvbuf, chunkedSize := d.chunkedSize }
  match d.ending with
  | none => some (s, d.published.map .published)
  | some .scheduleRetry =>
    let p := scheduleRetry cfg s
    some (p.1, d.published.map .published ++ p.2)
  | some _ => none

def publishRecvRawData (s : Pull) : Option (Pull × List Event) :=
  if s.transferWithChunked then publishDataFromChunk cfg s else some (publishDataFromEvbuf s)

def readCallback (data : Bytes) (s : Pull) : Option (Pull × List Event) :=
  let s := { s with recvEvbuf := s.recvEvbuf ++ data }
  match s.state with
  | .handshaking => some (handleHandshake cfg s)
  | .running => publishRecvRawData cfg s
  | _ => some (s, [])

def eventCallback (connected : Bool) (newKey : String) (s : Pull) : Pull × List Event :=
  if s.stopped then (s, [])
  else if s.state = .connecting ∧ connected then handleConnected cfg newKey s
  else scheduleRetry cfg s

def timeoutCallback (newBev : String) (s : Pull) : Pull × List Event :=
  if s.state ≠ .waitingRetry ∨ s.stopped then (s, [])
  else startConnect cfg newBev { s with timeoutEv := false, timeoutEvFlag := false }

/-- The timer is persistent, so it stays pending where its callback does nothing. -/
def step (s : Pull) : Action → Option (Pull × List Event)
  | .start newBev => some (start cfg newBev s)
  | .stop => some (stop cfg s, [])
  | .event connected newKey => some (eventCallback cfg connected newKey s)
  | .read data => readCallback cfg data s
  | .timeout newBev => if s.timeoutEv then some (timeoutCallback cfg newBev s) else none
  | .registerReply attempt r =>
    if attempt ∈ s.requests then some (casterRegisterCallback cfg s r) else none
  | .policy p => some ({ s with policy := p }, [])

def relayMachine : Machine Pull Action Event := ⟨step cfg⟩

def IsBase (s : Pull) (key : String) : Prop := (s.registry.entry .base cfg.mountPoint key).isSome

def Current (s : Pull) (attempt : Nat) : Prop := attempt = s.attempt ∧ s.connectKey ≠ ""

structure Orderly (s : Pull) : Prop where
  running : s.state = .running → s.connectKey ≠ "" ∧ IsBase cfg s s.connectKey
  timer : s.timeoutEv = true ↔ s.state = .waitingRetry
  stopped : s.stopped = true → s.state = .idle ∧ ∀ key, ¬ IsBase cfg s key

/-- A reply to an earlier attempt leaves the state and the connection as they are. -/
def Untouched (s : Pull) (a : Action) (t : Pull) : Prop :=
  ∀ attempt r, a = .registerReply attempt r → ¬ Current s attempt →
    t.state = s.state ∧ t.connectKey = s.connectKey

/-- A registration is confirmed while the attempt waits for it, or where that changes nothing; it is
refused or revoked while its connection is there, or where that changes nothing; and a session that
is stopped has nothing registered but what it has seen confirmed for its connection. -/
def Settled (s : Pull) : Action → Prop
  | .registerReply attempt .ok => s.state = .running ∨ Current s attempt
  | .registerReply attempt .err => s.stopped = true ∨ s.state = .waitingRetry ∨ Current s attempt
  | .stop => ∀ key, IsBase cfg s key → s.connectKey ≠ "" ∧ s.registered = true ∧ key = s.connectKey
  | _ => True

section

variable {cfg} {s : Pull}

theorem pull_of_some {t : Pull} {es : List Event} {p : Pull × List Event}
    (h : some p = some (t, es)) :
    t = p.1 := (congrArg Prod.fst (Option.some.inj h)).symm

theorem cleanupConnection_eq (cfg : Config) (s : Pull) : ∃ reg r,
    cleanupConnection cfg s = { s with registry := reg, registered := r, connectKey := "" } := by
  unfold cleanupConnection
  split
  · next h => exact ⟨s.registry, s.registered, by rw [← h]⟩
  · dsimp only
    split
    · exact ⟨_, _, rfl⟩
    · exact ⟨_, _, rfl⟩

theorem scheduleRetry_stopped (hs : s.stopped = true) : scheduleRetry cfg s = (s, []) := if_pos hs

theorem scheduleRetry_eq (cfg : Config) {s : Pull} (hs : s.stopped = false) :
    ∃ reg r, scheduleRetry cfg s = ({ s with
      registry := reg
      registered := r
      connectKey := ""
      state := .waitingRetry
      timeoutEv := true
      timeoutEvFlag := true
      retryDelay := min (s.retryDelay * 2) 60 }, [.pullBaseInfo "" 0, .retry s.retryDelay]) := by
  obtain ⟨reg, r, hclean⟩ := cleanupConnection_eq cfg s
  refine ⟨reg, r, ?_⟩
  unfold scheduleRetry
  rw [if_neg (by rw [hs]; exact Bool.false_ne_true), hclean]

theorem deleteTimer_cases (s : Pull) :
    ∃ b c, deleteTimer s = { s with timeoutEv := b, timeoutEvFlag := c } := by
  unfold deleteTimer
  split
  · exact ⟨_, _, rfl⟩
  · exact ⟨_, _, rfl⟩

theorem entry_withdrawBaseChannel (opts : Options) (channel key key' : String)
    (reg : Registry Nat) :
    (withdrawBaseChannel opts channel key reg).registry.entry .base channel key' =
      if key' = key then none else reg.entry .base channel key' := by
  refine (entry_withdrawChannel ..).trans ?_
  simp only [true_and]

theorem isBase_cleanupConnection (key : String) : IsBase cfg (cleanupConnection cfg s) key ↔
    IsBase cfg s key ∧ ¬ (s.connectKey ≠ "" ∧ s.registered = true ∧ key = s.connectKey) := by
  unfold cleanupConnection
  split
  · next h => exact ⟨fun hb ↦ ⟨hb, fun hn ↦ hn.1 h⟩, fun hb ↦ hb.1⟩
  · next h =>
    dsimp only
    split
    · next hr =>
      unfold IsBase
      dsimp only
      rw [entry_withdrawBaseChannel]
      split
      · next hkey => exact iff_of_false (fun hb ↦ by cases hb) fun hb ↦ hb.2 ⟨h, hr, hkey⟩
      · next hkey => exact ⟨fun hb ↦ ⟨hb, fun hn ↦ hkey hn.2.2⟩, fun hb ↦ hb.1⟩
    · next hr => exact ⟨fun hb ↦ ⟨hb, fun hn ↦ hr hn.2.1⟩, fun hb ↦ hb.1⟩

theorem checkMountAccess_system (p : AccessPolicy) (mountPoint : String) :
    p.checkMountAccess "SYSTEM" mountPoint = none := by
  unfold AccessPolicy.checkMountAccess AccessPolicy.checkMount
  split
  · rfl
  · rw [if_pos (by decide)]

theorem insertRecord_base (type : RegisterType) (item : CbItem Nat) (reg : Registry Nat) :
    ((insertRecord .base type item reg).registry.entry .base item.channel item.connectKey).isSome ∧
      ((insertRecord .base type item reg).code = 0 ↔
        reg.entry .base item.channel item.connectKey = none) ∧
      (insertRecord .base type item reg).calls = [] := by
  have hsame := (same_openRecord .base type item reg).entry .base item.channel item.connectKey
  unfold insertRecord
  dsimp only
  split
  · next h =>
    have hreg := hsame.symm.trans h
    refine ⟨Option.isSome_of_mem h, iff_of_false Nat.one_ne_zero fun hnone ↦ ?_, rfl⟩
    rw [hreg] at hnone
    cases hnone
  · next h =>
    have hin :
        Registry.Entered .base { item with groupUid := normalizeAccessGroupUid item.groupUid }
        (openRecord .base type item reg) _ := entered_enterRecord h
    have he := hin.entry .base item.channel item.connectKey
    rw [if_pos ⟨rfl, rfl, rfl⟩] at he
    exact ⟨Option.isSome_of_mem he, iff_of_true rfl (hsame.symm.trans h), rfl⟩

/-- The group of the system is denied nothing: the key is registered, and if it was not before, the
caster will answer. -/
theorem register_eq (cfg : Config) (s : Pull) :
    ∃ reg, (reg.entry .base cfg.mountPoint s.connectKey).isSome ∧
      register cfg s = ({ s with
        registry := reg
        requests := if s.registry.entry .base cfg.mountPoint s.connectKey = none then
            s.attempt :: s.requests
          else s.requests }, []) := by
  have ho : registerBaseChannel s.policy .pull (registerItem cfg s) s.registry =
      insertRecord .base .pull (registerItem cfg s) s.registry := by
    have hlogin : checkLogin .base s.policy .pull (registerItem cfg s).groupUid
        (registerItem cfg s).channel = none :=
      checkMountAccess_system s.policy cfg.mountPoint
    change registerChannel .base s.policy .pull (registerItem cfg s) s.registry = _
    unfold registerChannel
    rw [hlogin]
  obtain ⟨hentry, hcode, hcalls⟩ := insertRecord_base .pull (registerItem cfg s) s.registry
  refine ⟨_, hentry, ?_⟩
  unfold register
  rw [ho]
  dsimp only
  rw [hcalls, if_congr hcode rfl rfl]
  rfl

structure Inv (cfg : Config) (s : Pull) : Prop where
  flag : s.timeoutEvFlag = s.timeoutEv
  timer : s.timeoutEv = true ↔ s.state = .waitingRetry
  live : s.connectKey ≠ "" ↔ s.state ≠ .idle ∧ s.state ≠ .waitingRetry
  stopped : s.stopped = true → s.state = .idle ∧ ∀ key, ¬ IsBase cfg s key
  entered : s.state = .registering ∨ s.state = .running → IsBase cfg s s.connectKey
  asked : ∀ n ∈ s.requests, n ≤ s.attempt
  answered : s.attempt ∈ s.requests → s.connectKey ≠ "" → s.state = .registering ∨
    s.state = .running

theorem Inv.orderly (h : Inv cfg s) : Orderly cfg s where
  running hr := ⟨h.live.mpr (by rw [hr]; decide), h.entered (.inr hr)⟩
  timer := h.timer
  stopped := h.stopped

theorem Inv.running_of_live (h : Inv cfg s) (hs : s.state ≠ .idle) : s.stopped = false :=
  Bool.eq_false_iff.mpr fun hstop ↦ hs (h.stopped hstop).1

theorem inv_scheduleRetry (hs : s.stopped = false) (hasked : ∀ n ∈ s.requests, n ≤ s.attempt) :
    Inv cfg (scheduleRetry cfg s).1 := by
  obtain ⟨reg, r, hretry⟩ := scheduleRetry_eq cfg hs
  rw [hretry]
  refine ⟨rfl, iff_of_true rfl rfl, iff_of_false (fun hk ↦ hk rfl) (fun hk ↦ hk.2 rfl),
    fun hstop ↦ ?_,
    fun hstate ↦ by cases hstate <;> contradiction, hasked, fun _ hk ↦ absurd rfl hk⟩
  rw [hs] at hstop
  cases hstop

theorem deleteTimer_eq (hflag : s.timeoutEvFlag = s.timeoutEv) :
    deleteTimer s = { s with timeoutEv := false, timeoutEvFlag := false } := by
  unfold deleteTimer
  split
  · rfl
  · next h =>
    have hoff : s.timeoutEvFlag = false := Bool.eq_false_iff.mpr h
    exact congrArg₂ (fun a b ↦ { s with timeoutEv := a, timeoutEvFlag := b })
      (hflag.symm.trans hoff) hoff

theorem stop_eq (hs : ¬ s.stopped = true) (hflag : s.timeoutEvFlag = s.timeoutEv) : stop cfg s =
    { cleanupConnection cfg
      { s with stopped := true, timeoutEv := false, timeoutEvFlag := false } with
      state := .idle } := by
  unfold stop
  rw [if_neg hs, deleteTimer_eq (s := { s with stopped := true }) hflag]

theorem inv_startConnect {newBev : String} (hs : s.stopped = false)
    (hflag : s.timeoutEvFlag = s.timeoutEv)
    (hasked : ∀ n ∈ s.requests, n ≤ s.attempt) : Inv cfg (startConnect cfg newBev s).1 := by
  have hasked' : ∀ n ∈ s.requests, n ≤ s.attempt + 1 :=
    fun n hn ↦ (hasked n hn).trans (Nat.le_succ _)
  have hfresh : s.attempt + 1 ∉ s.requests := fun hn ↦ by
    have := hasked _ hn
    omega
  unfold startConnect
  rw [if_neg (by rw [hs]; decide), deleteTimer_eq hflag]
  dsimp only
  split
  · exact inv_scheduleRetry hs hasked'
  · next hnew =>
    refine ⟨rfl, iff_of_false Bool.false_ne_true State.noConfusion,
      iff_of_true hnew ⟨State.noConfusion, State.noConfusion⟩, fun hstop ↦ ?_,
      fun hstate ↦ hstate.elim State.noConfusion State.noConfusion, hasked',
      fun hn ↦ absurd hn hfresh⟩
    rw [hs] at hstop
    cases hstop

theorem inv_running (h : Inv cfg s) (hs : s.state = .registering ∨ s.state = .running) :
    Inv cfg (running s).1 := by
  have hlive : s.state ≠ .idle ∧ s.state ≠ .waitingRetry := by
    obtain hs | hs := hs <;> rw [hs] <;> exact ⟨State.noConfusion, State.noConfusion⟩
  refine ⟨h.flag, iff_of_false (fun ht ↦ hlive.2 (h.timer.mp ht)) State.noConfusion,
    iff_of_true (h.live.mpr hlive) ⟨State.noConfusion, State.noConfusion⟩,
    fun hstop ↦ absurd (h.stopped hstop).1 hlive.1, fun _ ↦ h.entered hs, h.asked,
    fun _ _ ↦ .inr rfl⟩

theorem inv_casterRegisterCallback {attempt : Nat} {r : CasterReply} (h : Inv cfg s)
    (hasked : attempt ∈ s.requests) (hok : Settled cfg s (.registerReply attempt r)) :
    Inv cfg (casterRegisterCallback cfg s r).1 := by
  cases r with
  | ok =>
    refine inv_running h ?_
    obtain hrun | ⟨rfl, hkey⟩ := hok
    · exact .inr hrun
    · exact h.answered hasked hkey
  | err =>
    cases hstop : s.stopped with
    | false => exact inv_scheduleRetry hstop h.asked
    | true =>
      change Inv cfg (scheduleRetry cfg s).1
      rw [scheduleRetry_stopped hstop]
      exact h
  | _ => exact h

theorem inv_register {u : Pull} (h : Inv cfg s) (hs : s.state = .handshaking)
    (hu : ∃ v c, u = { s with
      recvEvbuf := [], ntripVersion2 := v, transferWithChunked := c, state := .registering }) :
    Inv cfg (register cfg u).1 := by
  have hstop : s.stopped = false := h.running_of_live (by rw [hs]; decide)
  have hkey : s.connectKey ≠ "" := h.live.mpr (by rw [hs]; decide)
  have hwait : s.timeoutEv ≠ true := fun ht ↦ by
    have hwait := h.timer.mp ht
    rw [hs] at hwait
    cases hwait
  obtain ⟨v, c, rfl⟩ := hu
  obtain ⟨reg, hentry, hr⟩ := register_eq cfg { s with
    recvEvbuf := [], ntripVersion2 := v, transferWithChunked := c, state := .registering }
  rw [hr]
  refine ⟨h.flag, iff_of_false hwait State.noConfusion,
    iff_of_true hkey ⟨State.noConfusion, State.noConfusion⟩, fun hstop' ↦ ?_, fun _ ↦ hentry, ?_,
    fun _ _ ↦ .inl rfl⟩
  · rw [show s.stopped = true from hstop'] at hstop
    cases hstop
  · intro n hn
    dsimp only at hn
    split at hn
    · obtain rfl | hn := List.mem_cons.mp hn
      · exact le_rfl
      · exact h.asked n hn
    · exact h.asked n hn

theorem inv_recv (h : Inv cfg s) (buf : Bytes) (n : Nat) :
    Inv cfg { s with recvEvbuf := buf, chunkedSize := n } :=
  ⟨h.flag, h.timer, h.live, h.stopped, h.entered, h.asked, h.answered⟩

theorem inv_handleHandshake (h : Inv cfg s) (hs : s.state = .handshaking) :
    Inv cfg (handleHandshake cfg s).1 := by
  have hstop : s.stopped = false := h.running_of_live (by rw [hs]; decide)
  unfold handleHandshake
  split
  · exact inv_scheduleRetry hstop h.asked
  · split
    · exact inv_scheduleRetry (s := { s with recvEvbuf := [] }) hstop h.asked
    · exact inv_register h hs ⟨_, _, rfl⟩

theorem inv_publishRecvRawData {t : Pull} {es : List Event} (h : Inv cfg s)
    (hs : s.state = .running) (ht : publishRecvRawData cfg s = some (t, es)) : Inv cfg t := by
  have hstop : s.stopped = false := h.running_of_live (by rw [hs]; decide)
  unfold publishRecvRawData at ht
  split at ht
  · unfold publishDataFromChunk at ht
    dsimp only at ht
    split at ht
    · cases ht
      exact inv_recv h _ _
    · cases ht
      exact inv_scheduleRetry hstop h.asked
    · cases ht
  · unfold publishDataFromEvbuf at ht
    split at ht
    · cases ht
      exact h
    · cases ht
      exact inv_recv h _ _

theorem readCallback_handshaking (hs : s.state = .handshaking) (data : Bytes) :
    readCallback cfg data s =
      some (handleHandshake cfg { s with recvEvbuf := s.recvEvbuf ++ data }) := by
  unfold readCallback
  dsimp only
  split
  · rfl
  · next h => exact State.noConfusion (hs.symm.trans h)
  · next h _ => exact absurd hs h

theorem readCallback_running (hs : s.state = .running) (data : Bytes) :
    readCallback cfg data s =
      publishRecvRawData cfg { s with recvEvbuf := s.recvEvbuf ++ data } := by
  unfold readCallback
  dsimp only
  split
  · next h => exact State.noConfusion (hs.symm.trans h)
  · rfl
  · next h => exact absurd hs h

theorem readCallback_kept (hs : s.state ≠ .handshaking) (hr : s.state ≠ .running) (data : Bytes) :
    readCallback cfg data s = some ({ s with recvEvbuf := s.recvEvbuf ++ data }, []) := by
  unfold readCallback
  dsimp only
  split
  · next h => exact absurd h hs
  · next h => exact absurd h hr
  · rfl

/-- The decoder of the task. -/
def decoder (s : Pull) : Chunked.Decoder where
  recvEvbuf := s.recvEvbuf
  chunkedSize := s.chunkedSize

theorem step_chunk (cfg : Config) {s : Pull} (hs : s.state = .running)
    (hc : s.transferWithChunked = true) (data : Bytes) :
    step cfg s (.read data) =
      publishDataFromChunk cfg { s with recvEvbuf := s.recvEvbuf ++ data } := by
  rw [step, readCallback_running hs]
  unfold publishRecvRawData
  rw [if_pos hc]

theorem publishDataFromChunk_live {d : Chunked.Decoder}
    (hd : Chunked.RelayPull.publishDataFromChunk (decoder s) = d) (he : d.ending = none) :
    publishDataFromChunk cfg s =
      some ({ s with recvEvbuf := d.recvEvbuf, chunkedSize := d.chunkedSize },
      d.published.map .published) := by
  subst hd
  unfold publishDataFromChunk
  dsimp only
  split
  · rfl
  · next h => cases he.symm.trans h
  · next _ h => cases he.symm.trans h

theorem publishDataFromChunk_retry {d : Chunked.Decoder}
    (hd : Chunked.RelayPull.publishDataFromChunk (decoder s) = d)
    (he : d.ending = some .scheduleRetry) :
    publishDataFromChunk cfg s =
      some ((scheduleRetry cfg { s with recvEvbuf := d.recvEvbuf, chunkedSize := d.chunkedSize }).1,
        d.published.map .published ++
          (scheduleRetry cfg
            { s with recvEvbuf := d.recvEvbuf, chunkedSize := d.chunkedSize }).2) := by
  subst hd
  unfold publishDataFromChunk
  dsimp only
  split
  · next h => cases he.symm.trans h
  · rfl
  · next hne h =>
    cases he.symm.trans h
    exact absurd rfl hne

theorem publishDataFromChunk_fatal {d : Chunked.Decoder} {e : Chunked.Ending}
    (hd : Chunked.RelayPull.publishDataFromChunk (decoder s) = d) (he : d.ending = some e)
    (hne : e ≠ .scheduleRetry) : publishDataFromChunk cfg s = none := by
  subst hd
  unfold publishDataFromChunk
  dsimp only
  split
  · next h => cases he.symm.trans h
  · next h =>
    cases he.symm.trans h
    exact absurd rfl hne
  · rfl

theorem handleHandshake_refused (hrecv : s.recvEvbuf ≠ [])
    (ha : verifyNtripResponse s.recvEvbuf = none) :
    handleHandshake cfg s = ((scheduleRetry cfg { s with recvEvbuf := [] }).1,
      .judged false :: (scheduleRetry cfg { s with recvEvbuf := [] }).2) := by
  unfold handleHandshake
  rw [if_neg hrecv, ha]

theorem handleHandshake_accepted (cfg : Config) {s : Pull} {a : Accepted} (hrecv : s.recvEvbuf ≠ [])
    (ha : verifyNtripResponse s.recvEvbuf = some a) : ∃ reg,
    (reg.entry .base cfg.mountPoint s.connectKey).isSome ∧
      handleHandshake cfg s = ({ s with
        recvEvbuf := []
        ntripVersion2 := a.version2
        transferWithChunked := a.chunked
        state := .registering
        registry := reg
        requests := if s.registry.entry .base cfg.mountPoint s.connectKey = none then
            s.attempt :: s.requests
          else s.requests }, [.judged true]) := by
  obtain ⟨reg, hreg, hr⟩ := register_eq cfg { s with
    recvEvbuf := [], ntripVersion2 := a.version2, transferWithChunked := a.chunked,
    state := .registering }
  refine ⟨reg, hreg, ?_⟩
  unfold handleHandshake
  rw [if_neg hrecv, ha]
  dsimp only
  rw [hr]

theorem inv_readCallback {data : Bytes} {t : Pull} {es : List Event} (h : Inv cfg s)
    (ht : readCallback cfg data s = some (t, es)) : Inv cfg t := by
  have h' : Inv cfg { s with recvEvbuf := s.recvEvbuf ++ data } := inv_recv h _ _
  by_cases hs : s.state = .handshaking
  · rw [readCallback_handshaking hs] at ht
    rw [pull_of_some ht]
    exact inv_handleHandshake h' hs
  · by_cases hr : s.state = .running
    · rw [readCallback_running hr] at ht
      exact inv_publishRecvRawData h' hr ht
    · rw [readCallback_kept hs hr] at ht
      cases ht
      exact h'

theorem inv_handleConnected {newKey : String} (h : Inv cfg s) (hs : s.state = .connecting) :
    Inv cfg (handleConnected cfg newKey s).1 := by
  have hkey : s.connectKey ≠ "" := h.live.mpr (by rw [hs]; decide)
  have hnew : recalculateKey newKey s.connectKey ≠ "" := by
    unfold recalculateKey
    split
    · exact hkey
    · assumption
  refine ⟨h.flag, iff_of_false (fun ht ↦ ?_) State.noConfusion,
    iff_of_true hnew ⟨State.noConfusion, State.noConfusion⟩, fun hstop ↦ ?_,
    fun hstate ↦ hstate.elim State.noConfusion State.noConfusion, h.asked, fun hn _ ↦ ?_⟩
  · have hwait := h.timer.mp ht
    rw [hs] at hwait
    cases hwait
  · have hidle := (h.stopped hstop).1
    rw [hs] at hidle
    cases hidle
  · have hstate := h.answered hn hkey
    rw [hs] at hstate
    exact hstate.elim State.noConfusion State.noConfusion

theorem inv_stop (h : Inv cfg s) (hok : Settled cfg s .stop) : Inv cfg (stop cfg s) := by
  by_cases hs : s.stopped = true
  · unfold stop
    rw [if_pos hs]
    exact h
  · rw [stop_eq hs h.flag]
    obtain ⟨reg, r, hclean⟩ := cleanupConnection_eq cfg
      { s with stopped := true, timeoutEv := false, timeoutEvFlag := false }
    have hbase (key : String) : ¬ IsBase cfg (cleanupConnection cfg
        { s with stopped := true, timeoutEv := false, timeoutEvFlag := false }) key := by
      rw [isBase_cleanupConnection]
      rintro ⟨hb, hkeep⟩
      exact hkeep (hok key hb)
    rw [hclean] at hbase ⊢
    exact ⟨rfl, iff_of_false Bool.false_ne_true State.noConfusion,
      iff_of_false (fun hk ↦ hk rfl) (fun hk ↦ hk.1 rfl), fun _ ↦ ⟨rfl, hbase⟩,
      fun hstate ↦ hstate.elim State.noConfusion State.noConfusion, h.asked,
      fun _ hk ↦ absurd rfl hk⟩

theorem inv_eventCallback {connected : Bool} {newKey : String} (h : Inv cfg s) :
    Inv cfg (eventCallback cfg connected newKey s).1 := by
  unfold eventCallback
  split
  · exact h
  · next hstop =>
    split
    · next hc => exact inv_handleConnected h hc.1
    · exact inv_scheduleRetry (Bool.eq_false_iff.mpr hstop) h.asked

theorem inv_timeoutCallback {newBev : String} (h : Inv cfg s) :
    Inv cfg (timeoutCallback cfg newBev s).1 := by
  unfold timeoutCallback
  split
  · exact h
  · next hc =>
    have hstop : s.stopped = false := Bool.eq_false_iff.mpr fun hstop ↦ hc (.inr hstop)
    exact inv_startConnect (s := { s with timeoutEv := false, timeoutEvFlag := false }) hstop rfl
      h.asked

theorem inv_step {a : Action} {t : Pull} {es : List Event} (h : Inv cfg s) (hok : Settled cfg s a)
    (ht : (relayMachine cfg).step s a = some (t, es)) : Inv cfg t := by
  change step cfg s a = some (t, es) at ht
  cases a with
  | start newBev =>
    rw [pull_of_some ht]
    exact inv_startConnect (s := { s with stopped := false }) rfl h.flag h.asked
  | stop =>
    cases ht
    exact inv_stop h hok
  | event connected newKey =>
    rw [pull_of_some ht]
    exact inv_eventCallback h
  | read data => exact inv_readCallback h ht
  | timeout newBev =>
    unfold step at ht
    dsimp only at ht
    split at ht
    · rw [pull_of_some ht]
      exact inv_timeoutCallback h
    · cases ht
  | registerReply attempt r =>
    unfold step at ht
    dsimp only at ht
    split at ht
    · next hasked =>
      rw [pull_of_some ht]
      exact inv_casterRegisterCallback h hasked hok
    · cases ht
  | policy p =>
    cases ht
    exact ⟨h.flag, h.timer, h.live, h.stopped, h.entered, h.asked, h.answered⟩

theorem inv_create (cfg : Config) : Inv cfg (create cfg) where
  flag := rfl
  timer := iff_of_false Bool.false_ne_true State.noConfusion
  live := iff_of_false (fun h ↦ h rfl) (fun h ↦ h.1 rfl)
  stopped h := by cases h
  entered h := h.elim State.noConfusion State.noConfusion
  asked n h := absurd h List.not_mem_nil
  answered h := absurd h List.not_mem_nil

/-- What does not meet the condition does what an orderly task does not. -/
theorem settled_of_orderly {a : Action} {t : Pull} {es : List Event} (h : Inv cfg s)
    (ht : (relayMachine cfg).step s a = some (t, es)) (hu : Untouched s a t) (ho : Orderly cfg t) :
    Settled cfg s a := by
  change step cfg s a = some (t, es) at ht
  cases a with
  | registerReply attempt r =>
    by_cases hc : Current s attempt
    · cases r with
      | ok => exact .inr hc
      | err => exact .inr (.inr hc)
      | _ => trivial
    · have hstate := (hu attempt r rfl hc).1
      unfold step at ht
      dsimp only at ht
      split at ht
      · rw [pull_of_some ht] at hstate
        cases r with
        | ok => exact .inl hstate.symm
        | err =>
          change (scheduleRetry cfg s).1.state = s.state at hstate
          cases hstop : s.stopped with
          | true => exact .inl hstop
          | false =>
            obtain ⟨reg, r, hretry⟩ := scheduleRetry_eq cfg hstop
            rw [hretry] at hstate
            exact .inr (.inl hstate.symm)
        | _ => trivial
      · cases ht
  | stop =>
    cases ht
    intro key hb
    by_cases hstop : s.stopped = true
    · exact absurd hb ((h.stopped hstop).2 key)
    · rw [stop_eq hstop h.flag] at ho
      obtain ⟨reg, r, hclean⟩ := cleanupConnection_eq cfg
        { s with stopped := true, timeoutEv := false, timeoutEvFlag := false }
      have hgone : ¬ IsBase cfg (cleanupConnection cfg
          { s with stopped := true, timeoutEv := false, timeoutEvFlag := false }) key :=
        (ho.stopped (by rw [hclean])).2 key
      rw [isBase_cleanupConnection] at hgone
      exact not_not.mp fun hn ↦ hgone ⟨hb, hn⟩
  | _ => trivial

theorem untouched_of_settled {a : Action} {t : Pull} {es : List Event} (h : Inv cfg s)
    (hok : Settled cfg s a) (ht : (relayMachine cfg).step s a = some (t, es)) :
    Untouched s a t := by
  rintro attempt r rfl hc
  change (if attempt ∈ s.requests then some (casterRegisterCallback cfg s r) else none) = _ at ht
  split at ht
  · rw [pull_of_some ht]
    cases r with
    | ok =>
      obtain hrun | hcur := hok
      · exact ⟨hrun.symm, rfl⟩
      · exact absurd hcur hc
    | err =>
      change (scheduleRetry cfg s).1.state = _ ∧ (scheduleRetry cfg s).1.connectKey = _
      obtain hstop | hwait | hcur := hok
      · rw [scheduleRetry_stopped hstop]
        exact ⟨rfl, rfl⟩
      · have hkey : s.connectKey = "" := not_not.mp fun hk ↦ (h.live.mp hk).2 hwait
        have hstop : s.stopped = false := h.running_of_live (by rw [hwait]; decide)
        obtain ⟨reg, r, hretry⟩ := scheduleRetry_eq cfg hstop
        rw [hretry]
        exact ⟨hwait.symm, hkey.symm⟩
      · exact absurd hcur hc
    | _ => exact ⟨rfl, rfl⟩
  · cases ht

end

/-- A task is orderly for as long as its steps meet the condition, and no longer. -/
theorem orderly_iff_settled {cfg : Config} {s : Pull}
    (h : (relayMachine cfg).Reach (Settled cfg) (create cfg) s) :
    Orderly cfg s ∧ ∀ a t es, (relayMachine cfg).step s a = some (t, es) →
      (Untouched s a t ∧ Orderly cfg t ↔ Settled cfg s a) := by
  have hinv : Inv cfg s := h.invariant (inv_create cfg) fun _ _ _ _ ht hok hs ↦ inv_step ht hok hs
  refine ⟨hinv.orderly,
    fun a t es ht ↦ ⟨fun ho ↦ settled_of_orderly hinv ht ho.1 ho.2, fun hok ↦ ?_⟩⟩
  exact ⟨untouched_of_settled hinv hok ht, (inv_step hinv hok ht).orderly⟩

def feed : Config where
  taskKey := "t"
  mountPoint := "M"

def handshake : List Action := [.start "a", .event true "k", .read [79, 75]]

def view (s : Pull) : State × String × Nat × Bool :=
  (s.state, s.connectKey, s.attempt, ((relayMachine feed).step s (.registerReply 1 .ok)).isSome)

theorem exists_registering : ∃ s, (relayMachine feed).Reach (Settled feed) (create feed) s ∧
    view s = (.registering, "k", 1, true) := by
  refine Machine.exists_reach (l := handshake) _ (Machine.meets_of_forall ?_ _) (by decide +kernel)
  rintro _ (_ | ⟨_, _ | ⟨_, _ | ⟨_, ⟨⟩⟩⟩⟩) _ <;> trivial

theorem orderly_running : ∃ s, s.state = .running ∧ Orderly feed s ∧ ∀ a t es,
    (relayMachine feed).step s a = some (t, es) →
      (Untouched s a t ∧ Orderly feed t ↔ Settled feed s a) := by
  obtain ⟨s, hs, hv⟩ := exists_registering
  obtain ⟨-, hkey, hattempt, hstep⟩ : s.state = .registering ∧ s.connectKey = "k" ∧ s.attempt = 1 ∧
      ((relayMachine feed).step s (.registerReply 1 .ok)).isSome = true := by
    simpa only [view, Prod.mk.injEq] using hv
  obtain ⟨⟨t, es⟩, ht⟩ := Option.isSome_iff_exists.mp hstep
  have hcur : Current s 1 := ⟨hattempt.symm, by rw [hkey]; decide⟩
  have hok : Settled feed s (.registerReply 1 .ok) := Or.inr hcur
  refine ⟨t, ?_, orderly_iff_settled (hs.tail hok ht)⟩
  change (if 1 ∈ s.requests then some (running s) else none) = _ at ht
  split at ht
  · rw [pull_of_some ht]
    rfl
  · cases ht

/-- The connection is lost while the registration is under way, and then the confirmation
arrives. -/
def late : List Action := handshake ++ [.event false ""]

theorem exists_waiting : ∃ s, (relayMachine feed).Reachable (create feed) s ∧
    (s.state, ((relayMachine feed).step s (.registerReply 1 .ok)).map fun p ↦ p.1.connectKey) =
      (.waitingRetry, some "") :=
  Machine.exists_reach (l := late) _ (Machine.meets_of_forall (fun _ _ _ ↦ trivial) _)
    (by decide +kernel)

theorem not_orderly_late :
    ¬ ∀ (cfg : Config) (s : Pull), (relayMachine cfg).Reachable (create cfg) s →
    Orderly cfg s ∧ ∀ a t es, (relayMachine cfg).step s a = some (t, es) →
      Untouched s a t ∧ Orderly cfg t := by
  intro h
  obtain ⟨s, hs, hv⟩ := exists_waiting
  obtain ⟨-, hkey⟩ := Prod.mk.inj hv
  obtain ⟨⟨t, es⟩, ht, hempty⟩ := Option.map_eq_some_iff.mp hkey
  have ho := ((h feed s hs).2 _ t es ht).2
  change (if 1 ∈ s.requests then some (running s) else none) = _ at ht
  split at ht
  · have hrun : t.state = .running := by
      rw [pull_of_some ht]
      rfl
    exact (ho.running hrun).1 hempty
  · cases ht

end NavCaster.Session.RelayPull
