import NavCaster.Core.Message
import NavCaster.Session.Chunked
import NavCaster.Session.Reply

namespace NavCaster.Session.RelayPush

open NavCaster.Library.Strto (Bytes)
open NavCaster.Library.Scan (ascii)
open NavCaster.Core.Message
open NavCaster.Service.BasicAuth
open NavCaster.Session.Response
open NavCaster.Session.Chunked (Payload)

inductive State
  | idle | connecting | handshaking | registering | subscribing | running | waitingRetry
  deriving DecidableEq

structure Config where
  software : Software
  mountPoint : Bytes
  mountPara : Bytes := []
  userName : Bytes := []
  ntripVersion : Bytes := []
  httpChunked : Bytes := []
  httpHost : Bytes
  ntripAuth : Bytes

/-- One task. Its connections are numbered as they are opened, and `connectKey` is the one it has.
`asked` says that it has asked the caster for a registration, and `listening` that it is called when
the connection brings something. -/
structure Push where
  state : State := .idle
  connectKey : Option Nat := none
  userName : Bytes := []
  ntripVersion2 : Bool := false
  transferWithChunked : Bool := false
  recvEvbuf : Bytes := []
  listening : Bool := false
  stopped : Bool := false
  registered : Bool := false
  subscribed : Bool := false
  retryDelay : Nat := 5
  timeoutEv : Bool := false
  timeoutEvFlag : Bool := false
  opened : Nat := 0
  asked : Bool := false
  deriving DecidableEq

inductive Effect
  | request (connection : Nat) (version2 : Bool)
  | transfer (connection : Nat) (q : Payload) (chunked : Bool)
  | close (connection : Nat)
  | register (connectKey : Option Nat) (userName : Bytes)
  | withdraw (connectKey : Nat) (userName : Bytes)
  | subscribe (connectKey : Option Nat) (userName : Bytes)
  | unsubscribe (connectKey : Nat) (userName : Bytes)
  | pushRoverInfo (connectKey : Option Nat) (status : Nat)
  | retry (delay : Nat)

variable (cfg : Config)

def create : Push where
  userName := cfg.userName
  ntripVersion2 := cfg.ntripVersion = ascii "Ntrip/2.0"
  transferWithChunked := cfg.httpChunked = ascii "chunked"

def cleanupConnection (s : Push) : Push × List Effect :=
  match s.connectKey with
  | none => (s, [])
  | some key =>
    ({ s with listening := false, subscribed := false, registered := false, connectKey := none },
      (if s.subscribed then [.unsubscribe key s.userName] else []) ++
        (if s.registered then [.withdraw key s.userName] else []) ++ [.close key])

def scheduleRetry (s : Push) : Push × List Effect :=
  if s.stopped then (s, [])
  else
    let (s, effects) := cleanupConnection s
    ({ s with
        state := .waitingRetry
        timeoutEv := true
        timeoutEvFlag := true
        retryDelay := min (s.retryDelay * 2) 60 },
      effects ++ [.pushRoverInfo none 0, .retry s.retryDelay])

def deleteTimer (s : Push) : Push :=
  if s.timeoutEvFlag then { s with timeoutEv := false, timeoutEvFlag := false } else s

/-- `created` says whether `new_bev` gives a connection. -/
def startConnect (created : Bool) (s : Push) : Push × List Effect :=
  if s.stopped then (s, [])
  else
    let s := { deleteTimer s with state := .connecting }
    if created then
      ({ s with connectKey := some s.opened, opened := s.opened + 1, listening := true }, [])
    else scheduleRetry { s with connectKey := none }

def start (created : Bool) (s : Push) : Push × List Effect :=
  startConnect created { s with stopped := false }

def stop (s : Push) : Push × List Effect :=
  if s.stopped then (s, [])
  else
    let (s, effects) := cleanupConnection (deleteTimer { s with stopped := true })
    ({ s with state := .idle }, effects)

def targetMpt : Bytes := if cfg.mountPara = [] then cfg.mountPoint else cfg.mountPara

def request (version2 : Bool) : Bytes :=
  buildNtripRequest cfg.software .push version2 (targetMpt cfg) cfg.httpHost cfg.ntripAuth

def encoded (chunked : Bool) (q : Payload) : Bytes :=
  if chunked then q.transferSubRawData else q.data

def handleConnected (key : Nat) (s : Push) : Push × List Effect :=
  ({ s with userName := ascii "SYSTEM", state := .handshaking }, [.request key s.ntripVersion2])

def handleHandshake (s : Push) : Push × List Effect :=
  if s.recvEvbuf = [] then scheduleRetry s
  else
    match verifyNtripResponse s.recvEvbuf with
    | none => scheduleRetry { s with recvEvbuf := [] }
    | some a =>
      ({ s with
          recvEvbuf := []
          ntripVersion2 := a.version2
          transferWithChunked := a.chunked
          state := .registering
          asked := true },
        [.register s.connectKey s.userName])

def running (s : Push) : Push × List Effect :=
  ({ s with subscribed := true, state := .running, retryDelay := 5, listening := false },
    [.pushRoverInfo s.connectKey 1])

/-- `none` without a connection, as then the bytes are written to no `bufferevent`. -/
def transferSubRawData (q : Payload) (s : Push) : Option (Push × List Effect) :=
  s.connectKey.map fun key ↦ (s, [.transfer key q s.transferWithChunked])

def readCallback (data : Bytes) (s : Push) : Push × List Effect :=
  let s := { s with recvEvbuf := s.recvEvbuf ++ data }
  if s.state = .handshaking then handleHandshake s else (s, [])

def eventCallback (connected : Bool) (s : Push) : Option (Push × List Effect) :=
  s.connectKey.map fun key ↦
    if s.stopped then (s, [])
    else if s.state = .connecting ∧ connected then handleConnected key s
    else scheduleRetry s

def timeoutCallback (created : Bool) (s : Push) : Push × List Effect :=
  if s.state ≠ .waitingRetry ∨ s.stopped then (s, [])
  else startConnect created { s with timeoutEv := false, timeoutEvFlag := false }

def casterRegisterCallback (r : CasterReply) (s : Push) : Push × List Effect :=
  match r with
  | .ok =>
    ({ s with registered := true, state := .subscribing }, [.subscribe s.connectKey s.userName])
  | .err => scheduleRetry s
  | _ => (s, [])

inductive SubReply
  | string (q : Payload)
  | other (r : CasterReply)

def casterSubscribeCallback (r : SubReply) (s : Push) : Option (Push × List Effect) :=
  match r with
  | .string q => if s.state = .running then transferSubRawData q s else some (s, [])
  | .other .ok => some (if s.state = .subscribing then running s else (s, []))
  | .other .err => some (scheduleRetry s)
  | .other _ => some (s, [])

def Silent (effects : List Effect) : Prop :=
  ∀ e ∈ effects, (∀ n v, e ≠ .request n v) ∧ ∀ n q c, e ≠ .transfer n q c

/-- All that a call can do to a task, but for the acceptance of a response: it loses its connection
or opens one, sends the request, waits for the messages or passes one on. -/
inductive Move (s : Push) : Push × List Effect → Prop
  | keep {t : Push} {effects : List Effect} : t.ntripVersion2 = s.ntripVersion2 →
    t.transferWithChunked = s.transferWithChunked → t.asked = s.asked → t.opened = s.opened →
    t.connectKey = s.connectKey ∨ t.connectKey = none →
    t.state = s.state ∨ t.state = .idle ∨ t.state = .waitingRetry → Silent effects →
      Move s (t, effects)
  | opens {t : Push} : t.ntripVersion2 = s.ntripVersion2 →
      t.transferWithChunked = s.transferWithChunked →
    t.asked = s.asked → t.opened = s.opened + 1 → t.connectKey = some s.opened →
      t.state = .connecting →
    Move s (t, [])
  | requests {t : Push} {key : Nat} : s.connectKey = some key → s.state = .connecting →
    t.ntripVersion2 = s.ntripVersion2 → t.transferWithChunked = s.transferWithChunked →
    t.asked = s.asked → t.opened = s.opened → t.connectKey = s.connectKey → t.state = .handshaking →
    Move s (t, [.request key s.ntripVersion2])
  | registers {t : Push} {effects : List Effect} : s.asked = true →
      t.ntripVersion2 = s.ntripVersion2 →
    t.transferWithChunked = s.transferWithChunked → t.asked = s.asked → t.opened = s.opened →
    t.connectKey = s.connectKey → t.state = .subscribing → Silent effects → Move s (t, effects)
  | runs {t : Push} {effects : List Effect} : s.state = .subscribing →
    t.ntripVersion2 = s.ntripVersion2 → t.transferWithChunked = s.transferWithChunked →
    t.asked = s.asked → t.opened = s.opened → t.connectKey = s.connectKey → t.state = .running →
    Silent effects → Move s (t, effects)
  | transfers {key : Nat} {q : Payload} : s.state = .running → s.connectKey = some key →
    Move s (s, [.transfer key q s.transferWithChunked])

section

variable {s : Push}

theorem silent_nil : Silent [] := nofun

theorem Move.refl (s : Push) : Move s (s, []) :=
  .keep rfl rfl rfl rfl (.inl rfl) (.inl rfl) silent_nil

theorem cleanupConnection_eq (s : Push) : ∃ effects, Silent effects ∧
    cleanupConnection s = ({ s with
      listening := (cleanupConnection s).1.listening
      subscribed := (cleanupConnection s).1.subscribed
      registered := (cleanupConnection s).1.registered
      connectKey := none }, effects) := by
  unfold cleanupConnection
  cases hkey : s.connectKey with
  | none =>
    refine ⟨[], silent_nil, ?_⟩
    dsimp only
    rw [← hkey]
  | some key =>
    refine ⟨_, ?_, rfl⟩
    intro e he
    simp only [List.mem_append, List.mem_singleton] at he
    obtain (he | he) | rfl := he
    · split at he
      · obtain rfl := List.mem_singleton.mp he
        exact ⟨nofun, nofun⟩
      · cases he
    · split at he
      · obtain rfl := List.mem_singleton.mp he
        exact ⟨nofun, nofun⟩
      · cases he
    · exact ⟨nofun, nofun⟩

theorem move_scheduleRetry {s' : Push} (hversion : s'.ntripVersion2 = s.ntripVersion2)
    (hchunked : s'.transferWithChunked = s.transferWithChunked) (hasked : s'.asked = s.asked)
    (hopened : s'.opened = s.opened) (hkey : s'.connectKey = s.connectKey ∨ s'.connectKey = none)
    (hstate : s'.stopped = true → s'.state = s.state) : Move s (scheduleRetry s') := by
  obtain ⟨effects, hsilent, heq⟩ := cleanupConnection_eq s'
  unfold scheduleRetry
  split
  · next hstopped =>
      exact .keep hversion hchunked hasked hopened hkey (.inl (hstate hstopped)) silent_nil
  · rw [heq]
    refine .keep hversion hchunked hasked hopened (.inr rfl) (.inr (.inr rfl)) fun e he ↦ ?_
    simp only [List.mem_append, List.mem_cons, List.not_mem_nil, or_false] at he
    obtain he | rfl | rfl := he
    · exact hsilent e he
    · exact ⟨nofun, nofun⟩
    · exact ⟨nofun, nofun⟩

theorem deleteTimer_cases (s : Push) :
    ∃ b c, deleteTimer s = { s with timeoutEv := b, timeoutEvFlag := c } := by
  unfold deleteTimer
  split
  · exact ⟨_, _, rfl⟩
  · exact ⟨_, _, rfl⟩

theorem move_startConnect {created : Bool} {s' : Push} (hs' : ∃ b c d, s' = { s with
    stopped := b, timeoutEv := c, timeoutEvFlag := d }) : Move s (startConnect created s') := by
  obtain ⟨b, c, d, rfl⟩ := hs'
  obtain ⟨b', c', heq⟩ :=
    deleteTimer_cases { s with stopped := b, timeoutEv := c, timeoutEvFlag := d }
  unfold startConnect
  rw [heq]
  split
  · exact .keep rfl rfl rfl rfl (.inl rfl) (.inl rfl) silent_nil
  · next hstopped =>
    dsimp only
    split
    · exact .opens rfl rfl rfl rfl rfl rfl
    · exact move_scheduleRetry rfl rfl rfl rfl (.inr rfl) fun h ↦ absurd h hstopped

theorem move_start (created : Bool) (s : Push) : Move s (start created s) :=
  move_startConnect ⟨false, s.timeoutEv, s.timeoutEvFlag, rfl⟩

theorem move_timeoutCallback (created : Bool) (s : Push) : Move s (timeoutCallback created s) := by
  unfold timeoutCallback
  split
  · exact .refl s
  · exact move_startConnect ⟨s.stopped, false, false, rfl⟩

theorem move_stop (s : Push) : Move s (stop s) := by
  unfold stop
  split
  · exact .refl s
  · obtain ⟨b, c, htimer⟩ := deleteTimer_cases { s with stopped := true }
    obtain ⟨effects, hsilent, heq⟩ := cleanupConnection_eq (deleteTimer { s with stopped := true })
    rw [heq]
    dsimp only
    rw [htimer]
    exact .keep rfl rfl rfl rfl (.inr rfl) (.inr (.inl rfl)) hsilent

theorem move_eventCallback {connected : Bool} {p : Push × List Effect}
    (h : eventCallback connected s = some p) : Move s p := by
  obtain ⟨key, hkey, rfl⟩ := Option.map_eq_some_iff.mp h
  split
  · exact .refl s
  · split
    · next hstate => exact .requests hkey hstate.1 rfl rfl rfl rfl rfl rfl
    · exact move_scheduleRetry rfl rfl rfl rfl (.inl rfl) fun _ ↦ rfl

theorem move_casterRegisterCallback (r : CasterReply) (hasked : s.asked = true) :
    Move s (casterRegisterCallback r s) := by
  have hsilent : Silent [.subscribe s.connectKey s.userName] := by
    intro e he
    obtain rfl := List.mem_singleton.mp he
    exact ⟨nofun, nofun⟩
  cases r with
  | ok => exact .registers hasked rfl rfl rfl rfl rfl rfl hsilent
  | err => exact move_scheduleRetry rfl rfl rfl rfl (.inl rfl) fun _ ↦ rfl
  | _ => exact .refl s

theorem move_casterSubscribeCallback {r : SubReply} {p : Push × List Effect}
    (h : casterSubscribeCallback r s = some p) : Move s p := by
  cases r with
  | string q =>
    unfold casterSubscribeCallback at h
    dsimp only at h
    split at h
    · next hstate =>
      obtain ⟨key, hkey, rfl⟩ := Option.map_eq_some_iff.mp h
      exact .transfers hstate hkey
    · cases h
      exact .refl s
  | other r =>
    cases r with
    | ok =>
      cases h
      split
      · next hstate =>
        refine .runs hstate rfl rfl rfl rfl rfl rfl fun e he ↦ ?_
        obtain rfl := List.mem_singleton.mp he
        exact ⟨nofun, nofun⟩
      · exact .refl s
    | err =>
      cases h
      exact move_scheduleRetry rfl rfl rfl rfl (.inl rfl) fun _ ↦ rfl
    | _ =>
      cases h
      exact .refl s

theorem move_readCallback (data : Bytes) (s : Push) :
    Move { s with recvEvbuf := s.recvEvbuf ++ data } (readCallback data s) ∨
      ∃ a, s.state = .handshaking ∧ verifyNtripResponse (s.recvEvbuf ++ data) = some a ∧
        readCallback data s = ({ s with
          recvEvbuf := []
          ntripVersion2 := a.version2
          transferWithChunked := a.chunked
          state := .registering
          asked := true }, [.register s.connectKey s.userName]) := by
  unfold readCallback
  dsimp only
  split
  · next hstate =>
    unfold handleHandshake
    split
    · exact .inl (move_scheduleRetry rfl rfl rfl rfl (.inl rfl) fun _ ↦ rfl)
    · cases hverify : verifyNtripResponse (s.recvEvbuf ++ data) with
      | none =>
        dsimp only
        exact .inl (move_scheduleRetry rfl rfl rfl rfl (.inl rfl) fun _ ↦ rfl)
      | some a => exact .inr ⟨a, hstate, rfl, rfl⟩
  · exact .inl (.refl _)

end

end NavCaster.Session.RelayPush
