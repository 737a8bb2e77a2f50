import NavCaster.Library.Machine
import NavCaster.Service.RelayRequest
import NavCaster.Session.RelayPush
import NavCaster.Session.ServerNtrip

namespace NavCaster.Session.PushLink

open NavCaster.Library
open NavCaster.Library.Strto (Bytes)
open NavCaster.Library.Lines (crlf)
open NavCaster.Library.Scan (ascii)
open NavCaster.Core.Message
open NavCaster.Service.Request
  (ListenerOpt Env Degrees ConnectInfo Result createRequest processBevRequest)
open NavCaster.Service.BasicAuth NavCaster.Service.RelayRequest
open NavCaster.Session.Response NavCaster.Session.Reply
open NavCaster.Session.Chunked (Decoder Payload Awaits)
open NavCaster.Session.RelayPush (Push SubReply Silent Move targetMpt encoded)
open NavCaster.Session.ServerNtrip (Server)

variable {P : Type}

/-- What the other node has made of a connection: its listener waits for the first read event, or
has turned it away, or has the user verified; or it has a session for it. -/
inductive Peer (P : Type)
  | fresh
  | rejected
  | verifying (info : ConnectInfo P)
  | session (s : Server)

/-- A connection between the nodes: what is on its way in either direction, and what has arrived and
waits to be taken by a session. For the record: what has been requested on it, the messages that
were handed to it, and the first reply. -/
structure Conn (P : Type) where
  toServer : Bytes := []
  toRelay : Bytes := []
  input : Bytes := []
  peer : Peer P := .fresh
  requested : Option Bool := none
  handed : List Payload := []
  replied : Option Bytes := none

structure Link (P : Type) where
  relay : Push
  conns : Nat → Conn P := fun _ ↦ {}

structure Config (P : Type) where
  relay : RelayPush.Config
  server : ServerNtrip.Config
  opt : ListenerOpt
  env : Env
  geo : Degrees P

inductive Action
  | start (created : Bool)
  | stop
  | timeout (created : Bool)
  | event (connected : Bool)
  | read (n : Nat)
  | registerReply (r : CasterReply)
  | subscribeReply (r : SubReply)
  | serverRead (conn n : Nat)
  | verified (conn : Nat) (groupUid : Option Bytes)
  | loginReply (conn : Nat) (groupUid : Option Bytes)
  | serverRegisterReply (conn : Nat) (r : CasterReply) (t : ℤ)
  | serverEvent (conn : Nat)
  | heartbeat (conn unsend : Nat)

variable (cfg : Config P)

def Conn.perform (c : Conn P) : RelayPush.Effect → Conn P
  | .request _ version2 =>
    { c with
      requested := some version2
      toServer := c.toServer ++ RelayPush.request cfg.relay version2 }
  | .transfer _ q chunked =>
    { c with handed := c.handed ++ [q], toServer := c.toServer ++ encoded chunked q }
  | _ => c

def target : RelayPush.Effect → Option Nat
  | .request n _ => some n
  | .transfer n _ _ => some n
  | _ => none

def perform (s : Link P) (e : RelayPush.Effect) : Link P :=
  match target e with
  | none => s
  | some n => { s with conns := Function.update s.conns n ((s.conns n).perform cfg e) }

def act (s : Link P) (p : Push × List RelayPush.Effect) : Link P :=
  p.2.foldl (perform cfg) { s with relay := p.1 }

def Conn.answer (c : Conn P) (p : Server × List ServerNtrip.Effect) : Conn P :=
  p.2.foldl
    (fun c e ↦
      match e with
      | .write data =>
        { c with toRelay := c.toRelay ++ data, replied := some (c.replied.getD data) }
      | _ => c)
    { c with peer := .session p.1 }

/-- A read event at the other node: for its listener, for its session, or for neither. -/
def Conn.read (n : Nat) (c : Conn P) : Option (Conn P) :=
  if n = 0 ∨ c.toServer.length < n then none
  else
    let c := { c with input := c.input ++ c.toServer.take n, toServer := c.toServer.drop n }
    match c.peer with
    | .fresh =>
      match processBevRequest cfg.opt cfg.env cfg.geo c.input with
      | .accept (some .server) info left => some { c with input := left, peer := .verifying info }
      | .reject => some { c with peer := .rejected }
      | _ => none
    | .session s =>
      if s.listening then
        (ServerNtrip.readCallback c.input s).map fun p ↦ Conn.answer { c with input := [] } p
      else some c
    | _ => some c

def Conn.call (c : Conn P) (f : Server → Option (Server × List ServerNtrip.Effect)) :
    Option (Conn P) :=
  match c.peer with
  | .session s => (f s).map c.answer
  | _ => none

/-- `AUTH::Verify` answers; the session of a user that is let in is created and started. -/
def Conn.verified (groupUid : Option Bytes) (c : Conn P) : Option (Conn P) :=
  match c.peer with
  | .verifying info =>
    match createRequest groupUid info c.input with
    | .pushed info _ => some (c.answer (ServerNtrip.start (ServerNtrip.create info)))
    | _ => some { c with peer := .rejected }
  | _ => none

def step (s : Link P) : Action → Option (Link P)
  | .start created => some (act cfg s (RelayPush.start created s.relay))
  | .stop => some (act cfg s (RelayPush.stop s.relay))
  | .timeout created =>
    if s.relay.timeoutEv then some (act cfg s (RelayPush.timeoutCallback created s.relay)) else none
  | .event connected => (RelayPush.eventCallback connected s.relay).map (act cfg s)
  | .read n =>
    match s.relay.connectKey with
    | none => none
    | some key =>
      let c := s.conns key
      if !s.relay.listening ∨ n = 0 ∨ c.toRelay.length < n then none
      else some (act cfg
        { s with conns := Function.update s.conns key { c with toRelay := c.toRelay.drop n } }
        (RelayPush.readCallback (c.toRelay.take n) s.relay))
  | .registerReply r =>
    if s.relay.asked then some (act cfg s (RelayPush.casterRegisterCallback r s.relay)) else none
  | .subscribeReply r => (RelayPush.casterSubscribeCallback r s.relay).map (act cfg s)
  | .serverRead key n => at_ s key (Conn.read cfg n)
  | .verified key groupUid => at_ s key (Conn.verified groupUid)
  | .loginReply key groupUid => at_ s key fun c ↦
      c.call fun srv ↦ some (ServerNtrip.authLoginCallback groupUid srv)
  | .serverRegisterReply key r t => at_ s key fun c ↦
      c.call fun srv ↦ some (ServerNtrip.casterRegisterCallback cfg.server t r srv)
  | .serverEvent key => at_ s key fun c ↦ c.call fun srv ↦ some (ServerNtrip.eventCallback srv)
  | .heartbeat key unsend => at_ s key fun c ↦
      c.call fun srv ↦
        if srv.timeoutEvFlag then some (ServerNtrip.timeoutCallback cfg.server unsend srv) else none
where
  at_ (s : Link P) (key : Nat) (f : Conn P → Option (Conn P)) : Option (Link P) :=
    (f (s.conns key)).map fun c ↦ { s with conns := Function.update s.conns key c }

def machine : Machine (Link P) Action Unit := ⟨fun s a ↦ (step cfg s a).map fun t ↦ (t, [])⟩

def init : Link P := { relay := RelayPush.create cfg.relay }

/-- The messages as they are sent. -/
def sent (chunked : Bool) (handed : List Payload) : Bytes := handed.flatMap (encoded chunked)

/-- What a session has published of the messages, when `rest` has yet to be read. -/
def Fed (d : Decoder) (rest : Bytes) (handed : List Payload) : Bool → Prop
  | true => ∃ before todo, handed = before ++ todo ∧ d.published = before.map Payload.data ∧
      (d.ending = none → ∃ k, Awaits none (todo.map Payload.chunk) d rest k)
  | false => d.ending = none ∧ d.recvEvbuf = [] ∧ d.published.flatten ++ rest = sent false handed

structure Orderly (s : Server) : Prop where
  listening : s.listening = true → s.stopped = false
  ended : s.decoder.ending ≠ none → s.stopped = true

section

variable {cfg} {d : Decoder} {rest data : Bytes} {handed : List Payload} {srv : Server}

theorem sent_append (chunked : Bool) (handed : List Payload) (q : Payload) :
    sent chunked (handed ++ [q]) = sent chunked handed ++ encoded chunked q := by
  simp [sent]

theorem Fed.transfer {chunked : Bool} (h : Fed d rest handed chunked) (q : Payload) :
    Fed d (rest ++ encoded chunked q) (handed ++ [q]) chunked := by
  cases chunked with
  | true =>
    obtain ⟨before, todo, rfl, hpub, hawaits⟩ := h
    refine ⟨before, todo ++ [q], List.append_assoc .., hpub, fun hlive ↦ ?_⟩
    obtain ⟨k, hk⟩ := hawaits hlive
    rw [List.map_append]
    exact ⟨k, hk.append q.chunk⟩
  | false =>
    obtain ⟨hlive, hbuf, hsent⟩ := h
    refine ⟨hlive, hbuf, ?_⟩
    rw [sent_append, ← hsent, List.append_assoc]

theorem fed_init (chunked : Bool) (handed : List Payload) :
    Fed {} (sent chunked handed) handed chunked := by
  cases chunked with
  | true =>
    exact ⟨[], handed, rfl, rfl, fun _ ↦ ⟨0, .chunk rfl rfl (Chunked.coded_chunk handed).symm⟩⟩
  | false => exact ⟨rfl, rfl, rfl⟩

theorem Fed.read {chunked : Bool} (h : Fed srv.decoder (data ++ rest) handed chunked)
    (hchunked : srv.transferWithChunked = chunked) (hlive : srv.decoder.ending = none)
    (hdata : data ≠ []) :
    ∃ d' p, ServerNtrip.readCallback data srv = some p ∧ Fed d' rest handed chunked ∧
      (d'.ending = none ∧ p = ({ srv with decoder := d' }, []) ∨
        d'.ending ≠ none ∧ p = ServerNtrip.stop { srv with decoder := d' }) := by
  unfold ServerNtrip.readCallback ServerNtrip.publishRecvRawData
  cases chunked with
  | false =>
    obtain ⟨-, hbuf, hsent⟩ := h
    have hne : srv.decoder.recvEvbuf ++ data ≠ [] :=
      fun hnil ↦ hdata (List.append_eq_nil_iff.mp hnil).2
    dsimp only
    rw [if_neg (show ¬ srv.transferWithChunked = true by rw [hchunked]; exact Bool.false_ne_true)]
    unfold ServerNtrip.publishDataFromEvbuf
    rw [if_neg hne]
    refine ⟨{ srv.decoder with
        recvEvbuf := []
        published := srv.decoder.published ++ [srv.decoder.recvEvbuf ++ data] }, _, rfl,
      ⟨hlive, rfl, ?_⟩, .inl ⟨hlive, rfl⟩⟩
    rw [hbuf, List.nil_append, ← hsent, List.flatten_append, List.append_assoc]
    simp
  | true =>
    obtain ⟨before, todo, rfl, hpub, hawaits⟩ := h
    obtain ⟨k, hk⟩ := hawaits hlive
    obtain ⟨taken', left', k', htodo, hpub', -, -, hend⟩ :
        Chunked.Outcome .stop none data.length (todo.map Payload.chunk) srv.decoder _ rest :=
      hk.outcome hlive hdata
    obtain ⟨taken, left, rfl, rfl, rfl⟩ := List.map_eq_append_iff.1 htodo
    have hd : Chunked.readCallback (Chunked.publishDataFromChunk .stop) srv.decoder data =
        Chunked.ServerNtrip.publishDataFromChunk
          { srv.decoder with recvEvbuf := srv.decoder.recvEvbuf ++ data } := if_pos hlive
    rw [hd] at hpub' hend
    dsimp only
    rw [if_pos (show srv.transferWithChunked = true from hchunked)]
    unfold ServerNtrip.publishDataFromChunk
    dsimp only
    have hmap :
        (before ++ taken).map Payload.data = srv.decoder.published ++ taken.map Payload.data := by
      rw [List.map_append, hpub]
    have hfed : Fed (Chunked.ServerNtrip.publishDataFromChunk
        { srv.decoder with recvEvbuf := srv.decoder.recvEvbuf ++ data }) rest
        (before ++ (taken ++ left)) true := by
      refine ⟨before ++ taken, left, (List.append_assoc ..).symm, ?_, fun hnone ↦ ?_⟩
      · rw [hmap, hpub' rfl, List.map_map]
        rfl
      obtain ⟨-, hawaits', -⟩ | ⟨hended, -⟩ := hend
      · exact ⟨k', hawaits'⟩
      · rw [hended] at hnone
        cases hnone
    obtain ⟨hnone, -⟩ | ⟨hended, -⟩ := hend
    · refine ⟨_, _, ?_, hfed, .inl ⟨hnone, rfl⟩⟩
      rw [hnone]
    · refine ⟨_, _, ?_, hfed, .inr ⟨?_, rfl⟩⟩
      · rw [hended]
      · rw [hended]
        nofun

def writes (effects : List ServerNtrip.Effect) : List Bytes :=
  effects.filterMap fun
    | .write data => some data
    | _ => none

theorem answer_eq (c : Conn P) (p : Server × List ServerNtrip.Effect) :
    c.answer p = { c with
      peer := .session p.1
      toRelay := c.toRelay ++ (writes p.2).flatten
      replied := c.replied.or (writes p.2).head? } := by
  obtain ⟨srv, effects⟩ := p
  unfold Conn.answer
  dsimp only
  induction effects generalizing c with
  | nil => simp [writes]
  | cons e effects ih =>
    cases e with
    | write data =>
      rw [List.foldl_cons]
      refine (ih
        { c with toRelay := c.toRelay ++ data, replied := some (c.replied.getD data) }).trans ?_
      cases hreplied : c.replied <;> simp [writes]
    | _ => exact ih c

def Answers (cfg : Config P) (srv : Server) (p : Server × List ServerNtrip.Effect) : Prop :=
  (p.1.timeoutEvFlag = true → srv.timeoutEvFlag = true) ∧
    (writes p.2 = [] ∨ srv.timeoutEvFlag = true) ∨
    ∃ t, writes p.2 = [ServerNtrip.reply cfg.server t srv]

theorem writes_stop (srv : Server) : writes (ServerNtrip.stop srv).2 = [] := by
  unfold ServerNtrip.stop
  split
  · rfl
  · dsimp only
    split <;> rfl

theorem stop_fields (srv : Server) : (ServerNtrip.stop srv).1.decoder = srv.decoder ∧
    (ServerNtrip.stop srv).1.ntripVersion2 = srv.ntripVersion2 ∧
    (ServerNtrip.stop srv).1.transferWithChunked = srv.transferWithChunked ∧
    (ServerNtrip.stop srv).1.stopped = true ∧
    ((ServerNtrip.stop srv).1.listening = true → srv.listening = true ∧ srv.stopped = true) ∧
    ((ServerNtrip.stop srv).1.timeoutEvFlag = true → srv.timeoutEvFlag = true) := by
  unfold ServerNtrip.stop
  split
  · next h => exact ⟨rfl, rfl, rfl, h, fun hl ↦ ⟨hl, h⟩, id⟩
  · exact ⟨rfl, rfl, rfl, rfl, nofun, nofun⟩

structure Agreed (cfg : Config P) (c : Conn P) (srv : Server) (version2 : Bool) : Prop where
  requested : c.requested = some version2
  version : srv.ntripVersion2 = version2
  chunked : srv.transferWithChunked = version2
  replied : ∀ reply, c.replied = some reply →
    ∃ t, reply = buildNrtipReply cfg.server.software t .server version2 version2
  heartbeat : srv.timeoutEvFlag = true → c.replied ≠ none

theorem Agreed.answer {c : Conn P} {version2 : Bool} (h : Agreed cfg c srv version2)
    {p : Server × List ServerNtrip.Effect} (hversion : p.1.ntripVersion2 = srv.ntripVersion2)
    (hchunked : p.1.transferWithChunked = srv.transferWithChunked) (hanswers : Answers cfg srv p) :
    Agreed cfg (c.answer p) p.1 version2 := by
  have hreply (t : ℤ) : ServerNtrip.reply cfg.server t srv =
      buildNrtipReply cfg.server.software t .server version2 version2 := by
    unfold ServerNtrip.reply
    rw [h.version, h.chunked]
  rw [answer_eq]
  refine ⟨h.requested, hversion.trans h.version, hchunked.trans h.chunked, ?_, ?_⟩
  · intro reply hreplied
    dsimp only at hreplied
    cases hc : c.replied with
    | some first =>
      rw [hc] at hreplied
      cases hreplied
      exact h.replied _ hc
    | none =>
      rw [hc, Option.none_or] at hreplied
      obtain ⟨-, hnil | hflag⟩ | ⟨t, ht⟩ := hanswers
      · rw [hnil] at hreplied
        cases hreplied
      · exact absurd hc (h.heartbeat hflag)
      · rw [ht] at hreplied
        cases hreplied
        exact ⟨t, hreply t⟩
  · intro hflag
    dsimp only
    obtain ⟨hkept, -⟩ | ⟨t, ht⟩ := hanswers
    · obtain ⟨first, hfirst⟩ := Option.ne_none_iff_exists'.mp (h.heartbeat (hkept hflag))
      rw [hfirst]
      nofun
    · rw [ht]
      cases c.replied <;> nofun

structure Served (cfg : Config P) (c : Conn P) (srv : Server) (version2 : Bool) : Prop
    extends Agreed cfg c srv version2 where
  orderly : Orderly srv
  fed : Fed srv.decoder (c.input ++ c.toServer) c.handed version2

structure Keeps (cfg : Config P) (srv : Server) (p : Server × List ServerNtrip.Effect) : Prop where
  decoder : p.1.decoder = srv.decoder
  version : p.1.ntripVersion2 = srv.ntripVersion2
  chunked : p.1.transferWithChunked = srv.transferWithChunked
  orderly : Orderly srv → Orderly p.1
  answers : Answers cfg srv p

theorem keeps_stop (srv : Server) : Keeps cfg srv (ServerNtrip.stop srv) := by
  obtain ⟨hdecoder, hversion, hchunked, hstopped, hlistening, htimer⟩ := stop_fields srv
  refine ⟨hdecoder, hversion, hchunked, fun horderly ↦ ⟨fun hl ↦ ?_, fun _ ↦ hstopped⟩,
    .inl ⟨htimer, .inl (writes_stop srv)⟩⟩
  obtain ⟨hl', hs⟩ := hlistening hl
  rw [horderly.listening hl'] at hs
  cases hs

theorem keeps_authLoginCallback (groupUid : Option Bytes) (srv : Server) :
    Keeps cfg srv (ServerNtrip.authLoginCallback groupUid srv) := by
  cases groupUid with
  | none => exact keeps_stop srv
  | some groupUid => exact ⟨rfl, rfl, rfl, fun h ↦ ⟨h.listening, h.ended⟩, .inl ⟨id, .inl rfl⟩⟩

theorem keeps_casterRegisterCallback {r : CasterReply} (t : ℤ)
    (hr : r = .ok → srv.stopped = false) :
    Keeps cfg srv (ServerNtrip.casterRegisterCallback cfg.server t r srv) := by
  cases r with
  | ok => exact ⟨rfl, rfl, rfl, fun h ↦ ⟨fun _ ↦ hr rfl, h.ended⟩, .inr ⟨t, rfl⟩⟩
  | err => exact keeps_stop srv
  | _ => exact ⟨rfl, rfl, rfl, id, .inl ⟨id, .inl rfl⟩⟩

theorem keeps_timeoutCallback (unsend : Nat) (htimer : srv.timeoutEvFlag = true) :
    Keeps cfg srv (ServerNtrip.timeoutCallback cfg.server unsend srv) := by
  unfold ServerNtrip.timeoutCallback ServerNtrip.sendHeartBeatToServer
  split
  · exact keeps_stop srv
  · split
    · exact ⟨rfl, rfl, rfl, id, .inl ⟨id, .inl rfl⟩⟩
    · exact ⟨rfl, rfl, rfl, id, .inl ⟨id, .inr htimer⟩⟩

theorem Served.answer {c : Conn P} {version2 : Bool} (h : Served cfg c srv version2)
    {p : Server × List ServerNtrip.Effect} (hp : Keeps cfg srv p) :
    Served cfg (c.answer p) p.1 version2 := by
  refine { toAgreed := h.toAgreed.answer hp.version hp.chunked hp.answers
           orderly := hp.orderly h.orderly
           fed := ?_ }
  rw [answer_eq, hp.decoder]
  exact h.fed

variable (cfg) in
def Conn.Sound (c : Conn P) : Prop :=
  match c.peer with
  | .fresh => c.input = [] ∧ c.replied = none ∧
      ∀ v, c.requested = some v → c.toServer = RelayPush.request cfg.relay v ++ sent v c.handed
  | .rejected => c.replied = none
  | .verifying info => c.replied = none ∧ ∃ v, c.requested = some v ∧
      info.ntripVersion = (if v then ascii "Ntrip/2.0" else []) ∧
      info.httpChunked = (if v then ascii "chunked" else []) ∧
        c.input ++ c.toServer = sent v c.handed
  | .session srv => ∃ v, Served cfg c srv v

variable (cfg) in
def Conn.whole (c : Conn P) (n : Nat) : Bool :=
  match c.peer with
  | .fresh => c.requested.any fun v ↦ (RelayPush.request cfg.relay v).length ≤ n
  | _ => true

theorem sound_init : ({} : Conn P).Sound cfg := ⟨rfl, rfl, nofun⟩

theorem Conn.Sound.transfer {c : Conn P} (h : c.Sound cfg) {chunked : Bool} (n : Nat) (q : Payload)
    (hchunked : ∀ v, c.requested = some v → v = chunked) :
    (c.perform cfg (.transfer n q chunked)).Sound cfg := by
  obtain ⟨toServer, toRelay, input, peer, requested, handed, replied⟩ := c
  cases peer with
  | fresh =>
    obtain ⟨hinput, hreplied, hsent⟩ := h
    refine ⟨hinput, hreplied, fun v hv ↦ ?_⟩
    obtain rfl := hchunked v hv
    have hto := hsent v hv
    dsimp only at hto
    dsimp only [Conn.perform]
    rw [sent_append, hto, List.append_assoc]
  | rejected => exact h
  | verifying info =>
    obtain ⟨hreplied, v, hv, hversion, hchunk, hsent⟩ := h
    refine ⟨hreplied, v, hv, hversion, hchunk, ?_⟩
    obtain rfl := hchunked v hv
    dsimp only at hsent
    dsimp only [Conn.perform]
    rw [sent_append, ← List.append_assoc, hsent]
  | session srv =>
    obtain ⟨v, hserved⟩ := h
    obtain rfl := hchunked v hserved.requested
    have hfed := hserved.fed.transfer q
    rw [List.append_assoc] at hfed
    exact ⟨v, { toAgreed := ⟨hserved.requested, hserved.version, hserved.chunked, hserved.replied,
                  hserved.heartbeat⟩
                orderly := hserved.orderly
                fed := hfed }⟩

theorem Conn.Sound.call {c c' : Conn P} (h : c.Sound cfg)
    {f : Server → Option (Server × List ServerNtrip.Effect)} (hf : c.call f = some c')
    (hkeeps : ∀ srv p, c.peer = .session srv → f srv = some p → Keeps cfg srv p) :
    c'.Sound cfg ∧ c'.requested = c.requested := by
  unfold Conn.call at hf
  split at hf
  · next srv hpeer =>
    obtain ⟨p, hp, rfl⟩ := Option.map_eq_some_iff.mp hf
    unfold Conn.Sound at h
    rw [hpeer] at h
    obtain ⟨v, hserved⟩ := h
    have hanswer := hserved.answer (hkeeps srv p hpeer hp)
    refine ⟨?_, by rw [answer_eq]⟩
    rw [answer_eq] at hanswer ⊢
    exact ⟨v, hanswer⟩
  · cases hf

theorem sound_accept (hclean : Clean (targetMpt cfg.relay) cfg.relay.httpHost cfg.relay.ntripAuth)
    {c : Conn P} {n : Nat} {v : Bool} {verify : Option Auth.Verify.AuthType} {info : ConnectInfo P}
    {left : Bytes} (hreplied : c.replied = none) (hv : c.requested = some v)
    (hlen : (RelayPush.request cfg.relay v).length ≤ n)
    (hsent : c.toServer = RelayPush.request cfg.relay v ++ sent v c.handed)
    (haccept :
      processBevRequest cfg.opt cfg.env cfg.geo (c.toServer.take n) = .accept verify info left) :
    ({ c with input := left, toServer := c.toServer.drop n, peer := .verifying info } :
      Conn P).Sound cfg := by
  have htake : c.toServer.take n = RelayPush.request cfg.relay v ++
      (sent v c.handed).take (n - (RelayPush.request cfg.relay v).length) := by
    rw [hsent, List.take_append, List.take_of_length_le hlen]
  have hdrop :
      c.toServer.drop n = (sent v c.handed).drop (n - (RelayPush.request cfg.relay v).length) := by
    rw [hsent, List.drop_append, List.drop_of_length_le hlen, List.nil_append]
  rw [htake] at haccept
  obtain ⟨rfl, -, hversion, hchunked⟩ := relay_request hclean cfg.opt cfg.env cfg.geo _ haccept
  refine ⟨hreplied, v, hv, hversion, ?_, ?_⟩
  · rw [hchunked]
    simp
  · dsimp only
    rw [hdrop, List.take_append_drop]

theorem Conn.Sound.read
    (hclean : Clean (targetMpt cfg.relay) cfg.relay.httpHost cfg.relay.ntripAuth)
    {c c' : Conn P} (h : c.Sound cfg) {n : Nat} (hwhole : c.whole cfg n = true)
    (hread : c.read cfg n = some c') :
    c'.Sound cfg ∧ c'.requested = c.requested := by
  have hjoin : (c.input ++ c.toServer.take n) ++ c.toServer.drop n = c.input ++ c.toServer := by
    rw [List.append_assoc, List.take_append_drop]
  unfold Conn.read at hread
  split at hread
  · cases hread
  · next hn =>
    have hdata : c.input ++ c.toServer.take n ≠ [] := by
      intro hnil
      have htake := congrArg List.length (List.append_eq_nil_iff.mp hnil).2
      rw [List.length_take, List.length_nil] at htake
      omega
    unfold Conn.Sound at h
    unfold Conn.whole at hwhole
    dsimp only at hread
    cases hpeer : c.peer with
    | fresh =>
      rw [hpeer] at h hwhole hread
      obtain ⟨hinput, hreplied, hsent⟩ := h
      obtain ⟨v, hv, hlen⟩ : ∃ v, c.requested = some v ∧
          (RelayPush.request cfg.relay v).length ≤ n := by
        simpa [Option.any_eq_true] using hwhole
      dsimp only at hread
      rw [hinput, List.nil_append] at hread
      split at hread
      · next haccept =>
        cases hread
        exact ⟨sound_accept hclean hreplied hv hlen (hsent v hv) haccept, rfl⟩
      · cases hread
        exact ⟨hreplied, rfl⟩
      · cases hread
    | rejected =>
      rw [hpeer] at h hread
      cases hread
      exact ⟨h, rfl⟩
    | verifying info =>
      rw [hpeer] at h hread
      cases hread
      obtain ⟨hreplied, v, hv, hversion, hchunked, hsent⟩ := h
      exact ⟨⟨hreplied, v, hv, hversion, hchunked, hjoin.trans hsent⟩, rfl⟩
    | session srv =>
      rw [hpeer] at h hread
      obtain ⟨v, hserved⟩ := h
      dsimp only at hread
      have hfed := hserved.fed
      rw [← hjoin] at hfed
      split at hread
      · next hlistening =>
        have hstopped := hserved.orderly.listening hlistening
        have hlive : srv.decoder.ending = none := by
          by_contra hended
          rw [hserved.orderly.ended hended] at hstopped
          cases hstopped
        obtain ⟨d', p, hp, hfed', hend⟩ := hfed.read hserved.chunked hlive hdata
        rw [hp, Option.map_some, Option.some_inj] at hread
        rw [← hread, answer_eq]
        refine ⟨⟨v, ?_⟩, rfl⟩
        have hagreed : Agreed cfg { c with input := [], toServer := c.toServer.drop n } srv v :=
          ⟨hserved.requested, hserved.version, hserved.chunked, hserved.replied, hserved.heartbeat⟩
        obtain ⟨hnone, rfl⟩ | ⟨hended, rfl⟩ := hend
        · have hanswer :=
            hagreed.answer (p := ({ srv with decoder := d' }, [])) rfl rfl (.inl ⟨id, .inl rfl⟩)
          rw [answer_eq] at hanswer
          exact { toAgreed := hanswer
                  orderly := ⟨hserved.orderly.listening, fun h ↦ absurd hnone h⟩
                  fed := hfed' }
        · obtain ⟨hdecoder, hversion, hchunked, hstop, hlisten, htimer⟩ :=
            stop_fields { srv with decoder := d' }
          have hanswer := hagreed.answer hversion hchunked (.inl ⟨htimer, .inl (writes_stop _)⟩)
          rw [answer_eq] at hanswer
          refine { toAgreed := hanswer, orderly := ⟨fun hl ↦ ?_, fun _ ↦ hstop⟩, fed := ?_ }
          · have hs := (hlisten hl).2
            rw [hstopped] at hs
            cases hs
          · rw [hdecoder]
            exact hfed'
      · cases hread
        refine ⟨?_, rfl⟩
        exact ⟨v,
          { toAgreed := ⟨hserved.requested, hserved.version, hserved.chunked, hserved.replied,
              hserved.heartbeat⟩
            orderly := hserved.orderly
            fed := hfed }⟩

theorem Conn.Sound.verified {c c' : Conn P} (h : c.Sound cfg) {groupUid : Option Bytes}
    (hverified : c.verified groupUid = some c') : c'.Sound cfg ∧ c'.requested = c.requested := by
  have htexts : ascii "Ntrip/2.0" ≠ [] ∧ ascii "chunked" ≠ [] := by decide +kernel
  obtain ⟨toServer, toRelay, input, peer, requested, handed, replied⟩ := c
  cases peer with
  | fresh => cases hverified
  | rejected => cases hverified
  | session srv => cases hverified
  | verifying info =>
    obtain ⟨hreplied, v, hv, hversion, hchunked, hsent⟩ := h
    dsimp only at hreplied hv hsent
    cases groupUid with
    | none =>
      cases hverified
      exact ⟨hreplied, rfl⟩
    | some groupUid =>
      cases hverified
      rw [answer_eq]
      refine ⟨⟨v, ?_⟩, rfl⟩
      refine { requested := hv, version := ?_, chunked := ?_, replied := ?_, heartbeat := nofun,
               orderly := ⟨nofun, fun h ↦ absurd rfl h⟩, fed := ?_ }
      · change decide (info.ntripVersion = ascii "Ntrip/2.0") = v
        rw [hversion]
        cases v <;> simp [Ne.symm htexts.1]
      · change decide (info.httpChunked = ascii "chunked") = v
        rw [hchunked]
        cases v <;> simp [Ne.symm htexts.2]
      · dsimp only
        rw [hreplied]
        nofun
      · dsimp only
        rw [hsent]
        exact fed_init v handed

variable (cfg) in
def whole (s : Link P) : Action → Bool
  | .read n => s.relay.state ≠ .handshaking || s.relay.connectKey.any fun key ↦
      (s.conns key).replied.any fun reply ↦
        reply.isPrefixOf (s.relay.recvEvbuf ++ (s.conns key).toRelay.take n)
  | .serverRead key n => (s.conns key).whole cfg n
  | .serverRegisterReply key r _ =>
    match (s.conns key).peer with
    | .session srv => r ≠ .ok || !srv.stopped
    | _ => true
  | _ => true

/-- What holds in every run: a task pushes only after it has accepted a reply, in the form of the
request that it has sent on the connection. -/
structure Inv (cfg : Config P) (s : Link P) : Prop where
  sound : ∀ key, (s.conns key).Sound cfg
  unopened : ∀ key, s.relay.opened ≤ key → s.conns key = {}
  current : ∀ key, s.relay.connectKey = some key → key < s.relay.opened
  version : ∀ key v, s.relay.connectKey = some key → (s.conns key).requested = some v →
    v = s.relay.ntripVersion2
  connecting : s.relay.state = .connecting → ∀ key, s.relay.connectKey = some key → s.conns key = {}
  asked : s.relay.asked = true → s.relay.transferWithChunked = s.relay.ntripVersion2
  running : s.relay.state = .subscribing ∨ s.relay.state = .running → s.relay.asked = true

theorem act_silent (cfg : Config P) (s : Link P) {t : Push} {effects : List RelayPush.Effect}
    (h : Silent effects) : act cfg s (t, effects) = { s with relay := t } := by
  have hfold (s : Link P) : effects.foldl (perform cfg) s = s := by
    induction effects generalizing s with
    | nil => rfl
    | cons e effects ih =>
      have hnone : target e = none := by
        obtain ⟨hrequest, htransfer⟩ := h e List.mem_cons_self
        cases e with
        | request n v => exact absurd rfl (hrequest n v)
        | transfer n q c => exact absurd rfl (htransfer n q c)
        | _ => rfl
      have hperform : perform cfg s e = s := by
        unfold perform
        rw [hnone]
      rw [List.foldl_cons, hperform]
      exact ih (fun e' he' ↦ h e' (.tail _ he')) s
  exact hfold _

theorem Inv.update {s : Link P} (h : Inv cfg s) {key : Nat} {c : Conn P} (hsound : c.Sound cfg)
    (hrequested : c.requested = (s.conns key).requested) (hopened : key < s.relay.opened)
    (hconnecting : s.relay.state = .connecting → s.relay.connectKey ≠ some key) :
    Inv cfg { s with conns := Function.update s.conns key c } := by
  have hother {key' : Nat} (hne : key' ≠ key) : Function.update s.conns key c key' = s.conns key' :=
    Function.update_of_ne hne ..
  refine ⟨?_, fun key' hkey' ↦ ?_, h.current, fun key' v hkey' hv ↦ ?_, fun hstate key' hkey' ↦ ?_,
    h.asked, h.running⟩
  · exact (Function.forall_update_iff s.conns fun _ c ↦ c.Sound cfg).mpr
      ⟨hsound, fun key' _ ↦ h.sound key'⟩
  · exact (hother (Nat.ne_of_gt (hopened.trans_le hkey'))).trans (h.unopened key' hkey')
  · have hv' : (Function.update s.conns key c key').requested = some v := hv
    by_cases heq : key' = key
    · subst heq
      rw [Function.update_self, hrequested] at hv'
      exact h.version key' v hkey' hv'
    · rw [hother heq] at hv'
      exact h.version key' v hkey' hv'
  · refine (hother ?_).trans (h.connecting hstate key' hkey')
    rintro rfl
    exact hconnecting hstate hkey'

theorem Inv.update_of_ne {s : Link P} (h : Inv cfg s) {key : Nat} {c : Conn P}
    (hsound : c.Sound cfg) (hrequested : c.requested = (s.conns key).requested)
    (hne : s.conns key ≠ {}) :
    Inv cfg { s with conns := Function.update s.conns key c } := by
  refine h.update hsound hrequested ?_ fun hstate hkey ↦ hne (h.connecting hstate key hkey)
  by_contra hle
  exact hne (h.unopened key (Nat.le_of_not_lt hle))

theorem Inv.relay {s : Link P} (h : Inv cfg s) {t : Push}
    (hversion : t.ntripVersion2 = s.relay.ntripVersion2)
    (hasked : t.asked = true → t.transferWithChunked = t.ntripVersion2)
    (hopened : t.opened = s.relay.opened)
    (hkey : t.connectKey = s.relay.connectKey ∨ t.connectKey = none)
    (hconnecting : t.state = .connecting → s.relay.state = .connecting)
    (hrunning : t.state = .subscribing ∨ t.state = .running → t.asked = true) :
    Inv cfg { s with relay := t } := by
  have hcurrent {key : Nat} (hkey' : t.connectKey = some key) : s.relay.connectKey = some key := by
    obtain heq | hnone := hkey
    · exact heq.symm.trans hkey'
    · rw [hnone] at hkey'
      cases hkey'
  refine ⟨h.sound, fun key hle ↦ h.unopened key (hopened ▸ hle), fun key hkey' ↦ ?_,
    fun key v hkey' hv ↦ ?_,
    fun hstate key hkey' ↦ h.connecting (hconnecting hstate) key (hcurrent hkey'), hasked, hrunning⟩
  · exact hopened ▸ h.current key (hcurrent hkey')
  · exact (h.version key v (hcurrent hkey') hv).trans hversion.symm

theorem Inv.act {s : Link P} (h : Inv cfg s) {p : Push × List RelayPush.Effect}
    (hmove : Move s.relay p) :
    Inv cfg (act cfg s p) := by
  have hform {t : Push} (hversion : t.ntripVersion2 = s.relay.ntripVersion2)
      (hchunked : t.transferWithChunked = s.relay.transferWithChunked)
      (hask : t.asked = s.relay.asked) :
      t.asked = true → t.transferWithChunked = t.ntripVersion2 := by
    rw [hversion, hchunked, hask]
    exact h.asked
  cases hmove with
  | @keep t effects hversion hchunked hask hopened hkey hstate hsilent =>
    rw [act_silent cfg s hsilent]
    have hsame {state : RelayPush.State} (ht : t.state = state) (hidle : state ≠ .idle)
        (hwaiting : state ≠ .waitingRetry) : s.relay.state = state := by
      obtain heq | heq | heq := hstate
      · exact heq.symm.trans ht
      · exact absurd (ht.symm.trans heq) hidle
      · exact absurd (ht.symm.trans heq) hwaiting
    refine h.relay hversion (hform hversion hchunked hask) hopened hkey
      (fun ht ↦ hsame ht nofun nofun) fun ht ↦ ?_
    rw [hask]
    apply h.running
    exact ht.imp (fun ht ↦ hsame ht nofun nofun) fun ht ↦ hsame ht nofun nofun
  | @opens t hversion hchunked hask hopened hkey hstate =>
    rw [act_silent cfg s RelayPush.silent_nil]
    have hnew : s.conns s.relay.opened = {} := h.unopened _ le_rfl
    have heq {key : Nat} (hkey' : t.connectKey = some key) : key = s.relay.opened :=
      (Option.some.inj (hkey.symm.trans hkey')).symm
    refine ⟨h.sound, fun key hle ↦ h.unopened key ?_, fun key hkey' ↦ ?_, fun key v hkey' hv ↦ ?_,
      fun _ key hkey' ↦ ?_, hform hversion hchunked hask, fun ht ↦ ?_⟩
    · dsimp only at hle
      omega
    · obtain rfl := heq hkey'
      dsimp only
      omega
    · obtain rfl := heq hkey'
      dsimp only at hv
      rw [hnew] at hv
      cases hv
    · obtain rfl := heq hkey'
      exact hnew
    · dsimp only at ht
      rw [hstate] at ht
      obtain ht | ht := ht <;> cases ht
  | @requests t key hkey hstate hversion hchunked hask hopened hkey' hstate' =>
    have hempty := h.connecting hstate key hkey
    have hopen := h.current key hkey
    have hcurrent {key' : Nat} (hk : t.connectKey = some key') : key' = key :=
      Option.some.inj ((hk.symm.trans hkey').trans hkey)
    change Inv cfg { relay := t, conns := Function.update s.conns key ((s.conns key).perform cfg
      (.request key s.relay.ntripVersion2)) }
    rw [hempty]
    refine ⟨?_, fun key' hle ↦ ?_, fun key' hk ↦ ?_, fun key' v hk hv ↦ ?_, fun ht ↦ ?_,
      hform hversion hchunked hask, fun ht ↦ ?_⟩
    · refine (Function.forall_update_iff s.conns fun _ c ↦ c.Sound cfg).mpr
        ⟨?_, fun key' _ ↦ h.sound key'⟩
      refine ⟨rfl, rfl, fun v hv ↦ ?_⟩
      cases hv
      exact (List.append_nil _).symm
    · dsimp only at hle
      rw [hopened] at hle
      exact (Function.update_of_ne (Nat.ne_of_gt (hopen.trans_le hle)) ..).trans
        (h.unopened key' hle)
    · obtain rfl := hcurrent hk
      dsimp only
      rw [hopened]
      exact hopen
    · obtain rfl := hcurrent hk
      dsimp only at hv
      rw [Function.update_self] at hv
      cases hv
      exact hversion.symm
    · dsimp only at ht
      rw [hstate'] at ht
      cases ht
    · dsimp only at ht
      rw [hstate'] at ht
      obtain ht | ht := ht <;> cases ht
  | @registers t effects hasked hversion hchunked hask hopened hkey hstate hsilent =>
    rw [act_silent cfg s hsilent]
    refine h.relay hversion (hform hversion hchunked hask) hopened (.inl hkey) (fun ht ↦ ?_) fun _ ↦
      ?_
    · rw [hstate] at ht
      cases ht
    · rw [hask]
      exact hasked
  | @runs t effects hstate hversion hchunked hask hopened hkey hstate' hsilent =>
    rw [act_silent cfg s hsilent]
    refine h.relay hversion (hform hversion hchunked hask) hopened (.inl hkey) (fun ht ↦ ?_) fun _ ↦
      ?_
    · rw [hstate'] at ht
      cases ht
    · rw [hask]
      exact h.running (.inl hstate)
  | @transfers key q hstate hkey =>
    have hchunked := h.asked (h.running (.inr hstate))
    refine h.update ?_ rfl (h.current key hkey) fun hconnecting ↦ ?_
    · refine (h.sound key).transfer key q fun v hv ↦ ?_
      rw [hchunked]
      exact h.version key v hkey hv
    · rw [hstate] at hconnecting
      cases hconnecting

theorem Inv.judge (hsw : 107 ∉ cfg.server.software.name ++ cfg.server.software.version) {s : Link P}
    (h : Inv cfg s) {n : Nat} (hwhole : whole cfg s (.read n) = true) {key : Nat}
    (hkey : s.relay.connectKey = some key) (hstate : s.relay.state = .handshaking) {a : Accepted}
    (ha : verifyNtripResponse (s.relay.recvEvbuf ++ (s.conns key).toRelay.take n) = some a) :
    a = ⟨s.relay.ntripVersion2, s.relay.ntripVersion2⟩ := by
  have hreply : ∃ reply, (s.conns key).replied = some reply ∧
      reply <+: s.relay.recvEvbuf ++ (s.conns key).toRelay.take n := by
    unfold whole at hwhole
    rw [hstate, hkey] at hwhole
    simpa [Option.any_eq_true] using hwhole
  obtain ⟨reply, hreplied, hprefix⟩ := hreply
  have hsound := h.sound key
  unfold Conn.Sound at hsound
  cases hpeer : (s.conns key).peer with
  | fresh =>
    rw [hpeer] at hsound
    rw [hsound.2.1] at hreplied
    cases hreplied
  | rejected =>
    rw [hpeer] at hsound
    rw [hsound] at hreplied
    cases hreplied
  | verifying info =>
    rw [hpeer] at hsound
    rw [hsound.1] at hreplied
    cases hreplied
  | session srv =>
    rw [hpeer] at hsound
    obtain ⟨v, hserved⟩ := hsound
    obtain rfl := h.version key v hkey hserved.requested
    obtain ⟨t, rfl⟩ := hserved.replied reply hreplied
    obtain ⟨body, hbody⟩ := hprefix
    obtain ⟨b, hverify, hb⟩ :=
      verify_reply hsw t .server s.relay.ntripVersion2 s.relay.ntripVersion2 body
    rw [hbody, ha] at hverify
    obtain rfl := Option.some.inj hverify
    have hsame : b = s.relay.ntripVersion2 := by
      apply Bool.eq_iff_iff.mpr
      rw [hb]
      exact ⟨And.left, fun hv ↦ ⟨hv, .inl hv⟩⟩
    rw [hsame]

theorem Conn.Sound.toRelay {c : Conn P} (h : c.Sound cfg) (toRelay : Bytes) :
    ({ c with toRelay } : Conn P).Sound cfg := by
  obtain ⟨toServer, toRelay', input, peer, requested, handed, replied⟩ := c
  cases peer with
  | session srv =>
    obtain ⟨v, hserved⟩ := h
    exact ⟨v, { toAgreed := ⟨hserved.requested, hserved.version, hserved.chunked, hserved.replied,
                  hserved.heartbeat⟩
                orderly := hserved.orderly
                fed := hserved.fed }⟩
  | _ => exact h

theorem inv_read (hsw : 107 ∉ cfg.server.software.name ++ cfg.server.software.version)
    {s s' : Link P} (h : Inv cfg s) {n : Nat} (hwhole : whole cfg s (.read n) = true)
    (hstep : step cfg s (.read n) = some s') :
    Inv cfg s' := by
  unfold step at hstep
  dsimp only at hstep
  cases hkey : s.relay.connectKey with
  | none =>
    rw [hkey] at hstep
    cases hstep
  | some key =>
    rw [hkey] at hstep
    dsimp only at hstep
    split at hstep
    · cases hstep
    · next hguard =>
      obtain rfl := Option.some.inj hstep
      have hne : s.conns key ≠ {} := by
        intro hnil
        rw [hnil] at hguard
        simp only [List.length_nil, not_or] at hguard
        omega
      let c : Conn P := { s.conns key with toRelay := (s.conns key).toRelay.drop n }
      have hconns : Inv cfg { s with conns := Function.update s.conns key c } :=
        h.update_of_ne ((h.sound key).toRelay _) rfl hne
      let data := (s.conns key).toRelay.take n
      let t : Push := { s.relay with recvEvbuf := s.relay.recvEvbuf ++ data }
      have hkept : Inv cfg { relay := t, conns := Function.update s.conns key c } :=
        hconns.relay rfl h.asked rfl (.inl rfl) id h.running
      obtain hmove | ⟨a, hstate, ha, heq⟩ := RelayPush.move_readCallback data s.relay
      · exact hkept.act hmove
      · have hjudge := h.judge hsw hwhole hkey hstate ha
        have hsilent : Silent [.register s.relay.connectKey s.relay.userName] := by
          intro e he
          obtain rfl := List.mem_singleton.mp he
          exact ⟨nofun, nofun⟩
        change Inv cfg (PushLink.act cfg _ (RelayPush.readCallback data s.relay))
        rw [heq, act_silent cfg _ hsilent, hjudge]
        exact hconns.relay rfl (fun _ ↦ rfl) rfl (.inl rfl) nofun fun _ ↦ rfl

/-- Every step keeps the invariant. -/
theorem inv_step (hclean : Clean (targetMpt cfg.relay) cfg.relay.httpHost cfg.relay.ntripAuth)
    (hsw : 107 ∉ cfg.server.software.name ++ cfg.server.software.version) {s s' : Link P}
    (h : Inv cfg s) {a : Action} (hwhole : whole cfg s a = true)
    (hstep : step cfg s a = some s') : Inv cfg s' := by
  have hconn {key : Nat} {f : Conn P → Option (Conn P)} (hf : step.at_ s key f = some s')
      (hnone : f {} = none)
      (hsound : ∀ c, f (s.conns key) = some c → c.Sound cfg ∧
        c.requested = (s.conns key).requested) :
      Inv cfg s' := by
    obtain ⟨c, hc, rfl⟩ := Option.map_eq_some_iff.mp hf
    refine h.update_of_ne (hsound c hc).1 (hsound c hc).2 fun hnil ↦ ?_
    rw [hnil, hnone] at hc
    cases hc
  cases a with
  | start created =>
    obtain rfl := Option.some.inj hstep
    exact h.act (RelayPush.move_start created s.relay)
  | stop =>
    obtain rfl := Option.some.inj hstep
    exact h.act (RelayPush.move_stop s.relay)
  | timeout created =>
    dsimp only [step] at hstep
    split at hstep
    · obtain rfl := Option.some.inj hstep
      exact h.act (RelayPush.move_timeoutCallback created s.relay)
    · cases hstep
  | event connected =>
    obtain ⟨p, hp, rfl⟩ := Option.map_eq_some_iff.mp hstep
    exact h.act (RelayPush.move_eventCallback hp)
  | read n => exact inv_read hsw h hwhole hstep
  | registerReply r =>
    dsimp only [step] at hstep
    split at hstep
    · next hasked =>
      obtain rfl := Option.some.inj hstep
      exact h.act (RelayPush.move_casterRegisterCallback r hasked)
    · cases hstep
  | subscribeReply r =>
    obtain ⟨p, hp, rfl⟩ := Option.map_eq_some_iff.mp hstep
    exact h.act (RelayPush.move_casterSubscribeCallback hp)
  | serverRead key n =>
    refine hconn hstep ?_ fun c hc ↦ (h.sound key).read hclean hwhole hc
    refine if_pos ?_
    exact (Nat.eq_zero_or_pos n).imp_right id
  | verified key groupUid => exact hconn hstep rfl fun c hc ↦ (h.sound key).verified hc
  | loginReply key groupUid =>
    dsimp only [step] at hstep
    refine hconn hstep rfl fun c hc ↦ (h.sound key).call hc fun srv p _ hp ↦ ?_
    cases hp
    exact keeps_authLoginCallback groupUid srv
  | serverRegisterReply key r t =>
    dsimp only [step] at hstep
    refine hconn hstep rfl fun c hc ↦ (h.sound key).call hc fun srv p hpeer hp ↦ ?_
    cases hp
    refine keeps_casterRegisterCallback t fun hr ↦ ?_
    dsimp only [whole] at hwhole
    rw [hpeer, hr] at hwhole
    simpa using hwhole
  | serverEvent key =>
    dsimp only [step] at hstep
    refine hconn hstep rfl fun c hc ↦ (h.sound key).call hc fun srv p _ hp ↦ ?_
    cases hp
    exact keeps_stop srv
  | heartbeat key unsend =>
    dsimp only [step] at hstep
    refine hconn hstep rfl fun c hc ↦ (h.sound key).call hc fun srv p _ hp ↦ ?_
    split at hp
    · next htimer =>
      cases hp
      exact keeps_timeoutCallback unsend htimer
    · cases hp

theorem inv_init (cfg : Config P) : Inv cfg (init cfg) where
  sound _ := sound_init
  unopened _ _ := rfl
  current _ h := by cases h
  version _ _ h := by cases h
  connecting h := by cases h
  asked h := by cases h
  running h := by obtain h | h := h <;> cases h

theorem flatten_data (handed : List Payload) :
    sent false handed = (handed.map Payload.data).flatten := by
  unfold sent encoded
  rw [List.flatMap_def]
  rfl

theorem Fed.flatten_prefix {chunked : Bool} (h : Fed d rest handed chunked) :
    d.published.flatten <+: (handed.map Payload.data).flatten := by
  cases chunked with
  | true =>
    obtain ⟨before, todo, rfl, hpub, -⟩ := h
    rw [hpub, List.map_append, List.flatten_append]
    exact List.prefix_append ..
  | false =>
    obtain ⟨-, -, hsent⟩ := h
    rw [← flatten_data, ← hsent]
    exact List.prefix_append ..

theorem Fed.flatten_eq {chunked : Bool} (h : Fed d [] handed chunked) (hlive : d.ending = none) :
    d.published.flatten = (handed.map Payload.data).flatten := by
  cases chunked with
  | true =>
    obtain ⟨before, todo, rfl, hpub, hawaits⟩ := h
    obtain ⟨k, hk⟩ := hawaits hlive
    have hall := hk.taken.published
    rw [List.map_map] at hall
    rw [List.map_append, List.flatten_append, ← hpub]
    exact hall
  | false =>
    obtain ⟨-, -, hsent⟩ := h
    rw [← flatten_data, ← hsent, List.append_nil]

end

/-- What has become of the messages that were handed to a connection with a session. -/
structure Intact (s : Link P) (key : Nat) (srv : Server) (version2 : Bool) : Prop where
  requested : (s.conns key).requested = some version2
  version : srv.ntripVersion2 = version2
  chunked : srv.transferWithChunked = version2
  relayVersion : s.relay.connectKey = some key → s.relay.ntripVersion2 = version2
  relayChunked : s.relay.connectKey = some key → s.relay.state = .running →
    s.relay.transferWithChunked = version2
  pieces : version2 = true → srv.decoder.published <+: (s.conns key).handed.map Payload.data
  bytes : srv.decoder.published.flatten <+: ((s.conns key).handed.map Payload.data).flatten
  all : srv.stopped = false → (s.conns key).input = [] → (s.conns key).toServer = [] →
    srv.decoder.published.flatten = ((s.conns key).handed.map Payload.data).flatten

/-- In every run, whatever the order of the events and however the bytes are cut on their way, both
ends of a connection agree on how messages are sent, and the session publishes what was handed to
it, in order, nothing else, and all that has arrived unless it has stopped. -/
theorem push_link (hclean : Clean (targetMpt cfg.relay) cfg.relay.httpHost cfg.relay.ntripAuth)
    (hsw : 107 ∉ cfg.server.software.name ++ cfg.server.software.version) {s : Link P}
    (h : (machine cfg).Reach (fun s a ↦ whole cfg s a = true) (init cfg) s) {key : Nat}
    {srv : Server}
    (hpeer : (s.conns key).peer = .session srv) : ∃ version2, Intact s key srv version2 := by
  have hinv : Inv cfg s := by
    refine h.invariant (inv_init cfg) fun t a u es ht hwhole hstep ↦ ?_
    obtain ⟨u', hu, heq⟩ := Option.map_eq_some_iff.mp hstep
    cases heq
    exact inv_step hclean hsw ht hwhole hu
  have hsound := hinv.sound key
  unfold Conn.Sound at hsound
  rw [hpeer] at hsound
  obtain ⟨v, hserved⟩ := hsound
  have hfed := hserved.fed
  refine ⟨v, ?_⟩
  constructor
  · exact hserved.requested
  · exact hserved.version
  · exact hserved.chunked
  · exact fun hkey ↦ (hinv.version key v hkey hserved.requested).symm
  · intro hkey hstate
    rw [hinv.asked (hinv.running (.inr hstate))]
    exact (hinv.version key v hkey hserved.requested).symm
  · rintro rfl
    obtain ⟨before, todo, heq, hpub, -⟩ := hfed
    rw [heq, hpub, List.map_append]
    exact List.prefix_append ..
  · exact hfed.flatten_prefix
  · intro hstopped hinput hto
    rw [hinput, hto] at hfed
    refine hfed.flatten_eq ?_
    by_contra hended
    rw [hserved.orderly.ended hended] at hstopped
    cases hstopped

def feed : Config Unit where
  relay :=
    { software := release
      mountPoint := ascii "M"
      ntripVersion := ascii "Ntrip/2.0"
      httpHost := ascii "h:2101"
      ntripAuth := ascii "u:p" }
  server :=
    { software := release, heartbeatInterval := 0, heartbeatMsg := [], unsendByteLimit := 0 }
  opt := Service.Segmentation.openListener
  env := Service.Segmentation.anyMount
  geo := Service.Segmentation.noDegrees

def pushOnce : List Action :=
  [.start true, .event true, .serverRead 0 (RelayPush.request feed.relay true).length,
    .verified 0 (some []), .loginReply 0 (some []), .serverRegisterReply 0 .ok 0,
    .read (buildNrtipReply release 0 .server true true).length, .registerReply .ok,
    .subscribeReply (.other .ok), .subscribeReply (.string Chunked.abc), .serverRead 0 4,
    .serverRead 0 4]

def publishedBy (s : Link P) (key : Nat) : Option (List Bytes) :=
  match (s.conns key).peer with
  | .session srv => some srv.decoder.published
  | _ => none

theorem push_link_once :
    ∃ (s : Link Unit) (srv : Server), publishedBy s 0 = some [Chunked.abc.data] ∧
    ∃ version2, Intact s 0 srv version2 := by
  have hrun : ((machine feed).exec (init feed) pushOnce).map (fun p ↦ publishedBy p.1 0) =
      some (some [Chunked.abc.data]) ∧
      (machine feed).Meets (fun s a ↦ whole feed s a = true) (init feed) pushOnce := by
    decide +kernel
  obtain ⟨s, hreach, hpublished⟩ := Machine.exists_reach (fun s ↦ publishedBy s 0) hrun.2 hrun.1
  have hclean : Clean (targetMpt feed.relay) feed.relay.httpHost feed.relay.ntripAuth :=
    ⟨by decide +kernel, by decide +kernel, by decide +kernel⟩
  cases hpeer : (s.conns 0).peer with
  | session srv =>
    exact ⟨s, srv, hpublished, push_link feed hclean (by decide +kernel) hreach hpeer⟩
  | _ =>
    unfold publishedBy at hpublished
    rw [hpeer] at hpublished
    cases hpublished

end NavCaster.Session.PushLink
