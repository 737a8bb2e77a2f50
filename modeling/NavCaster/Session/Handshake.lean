import NavCaster.Session.ChunkSizes
import NavCaster.Session.RelayPull

namespace NavCaster.Session.Handshake

open NavCaster.Library
open NavCaster.Library.Strto (Bytes)
open NavCaster.Library.Lines (Fragmentation)
open NavCaster.Library.Scan (ascii)
open NavCaster.Core.Message
open NavCaster.Session.Response
open NavCaster.Session.RelayPull
open NavCaster.Session.Chunked
  (Awaits Chunk Decoder Halts InLine SizeLine Uncut coded readAll uncut_cons)

structure Requested (cfg : Config) (s : Pull) : Prop where
  state : s.state = .handshaking
  recvEvbuf : s.recvEvbuf = []
  chunkedSize : s.chunkedSize = 0
  live : s.stopped = false
  key : ¬ IsBase cfg s s.connectKey
  unasked : s.attempt ∉ s.requests

def arrive (reads : List Bytes) : List Action := reads.map .read

/-- The reply of the caster comes after the first read event, as it is the answer to what that
brings. -/
def receive (attempt : Nat) (first : Bytes) (before after : List Bytes) : List Action :=
  .read first :: (arrive before ++ .registerReply attempt .ok :: arrive after)

def dataOf : List Event → Bytes
  | [] => []
  | .published data :: es => data ++ dataOf es
  | _ :: es => dataOf es

def Delivers (cfg : Config) (s : Pull) (first : Bytes) (before after : List Bytes) (data : Bytes) :
    Prop :=
  ∃ t es, (relayMachine cfg).exec s (receive s.attempt first before after) = some (t, es) ∧
    t.state = .running ∧ dataOf es = data

variable {cfg : Config} {s : Pull}

theorem dataOf_append (es es' : List Event) : dataOf (es ++ es') = dataOf es ++ dataOf es' := by
  induction es with
  | nil => rfl
  | cons e es ih =>
    cases e with
    | published data =>
      change data ++ dataOf (es ++ es') = (data ++ dataOf es) ++ dataOf es'
      rw [ih, List.append_assoc]
    | _ => exact ih

theorem dataOf_published (l : List Bytes) : dataOf (l.map .published) = l.flatten := by
  induction l with
  | nil => rfl
  | cons data l ih => exact congrArg (data ++ ·) ih

theorem exec_kept (hs : s.state ≠ .handshaking) (hr : s.state ≠ .running) (reads : List Bytes) :
    (relayMachine cfg).exec s (arrive reads) =
      some ({ s with recvEvbuf := s.recvEvbuf ++ reads.flatten }, []) := by
  induction reads generalizing s with
  | nil =>
    rw [List.flatten_nil, List.append_nil]
    rfl
  | cons data reads ih =>
    have hread : (relayMachine cfg).step s (.read data) =
        some ({ s with recvEvbuf := s.recvEvbuf ++ data }, []) := readCallback_kept hs hr data
    rw [arrive, List.map_cons, Machine.exec_cons, hread]
    dsimp only [Option.bind]
    rw [← arrive, ih (s := { s with recvEvbuf := s.recvEvbuf ++ data }) hs hr]
    rw [List.flatten_cons, ← List.append_assoc]
    rfl

/-- What the task is given to publish: what was kept until the reply comes with the first read event
after it. -/
def held (before : List Bytes) : List Bytes → List Bytes
  | [] => []
  | data :: after => (before.flatten ++ data) :: after

theorem exec_raw (cfg : Config) {s : Pull} (hs : s.state = .running)
    (hc : s.transferWithChunked = false) (reads : List Bytes) :
    ∃ t es, (relayMachine cfg).exec s (arrive reads) = some (t, es) ∧ t.state = .running ∧
      dataOf es ++ t.recvEvbuf = s.recvEvbuf ++ reads.flatten ∧ (reads ≠ [] → t.recvEvbuf = []) ∧
      (reads = [] → dataOf es = []) := by
  induction reads generalizing s with
  | nil =>
    refine ⟨s, [], rfl, hs, ?_, fun h ↦ absurd rfl h, fun _ ↦ rfl⟩
    rw [List.flatten_nil, List.append_nil]
    rfl
  | cons data reads ih =>
    obtain ⟨es, hread, hes⟩ : ∃ es, (relayMachine cfg).step s (.read data) =
        some ({ s with recvEvbuf := [] }, es) ∧ dataOf es = s.recvEvbuf ++ data := by
      change ∃ es, readCallback cfg data s = _ ∧ _
      rw [readCallback_running hs]
      unfold publishRecvRawData
      rw [if_neg (show ¬ s.transferWithChunked = true by rw [hc]; exact Bool.false_ne_true)]
      unfold publishDataFromEvbuf
      split
      · next hnil =>
        have hnil' : s.recvEvbuf ++ data = [] := hnil
        exact ⟨[], by rw [hnil'], hnil'.symm⟩
      · exact ⟨_, rfl, List.append_nil _⟩
    obtain ⟨t, es', hexec, hrun, hdata, hlast, hnone⟩ := ih (s := { s with recvEvbuf := [] }) hs hc
    refine ⟨t, es ++ es', ?_, hrun, ?_, fun _ ↦ ?_, fun h ↦ absurd h (List.cons_ne_nil _ _)⟩
    · rw [arrive, List.map_cons, Machine.exec_cons, hread]
      dsimp only [Option.bind]
      rw [← arrive, hexec]
      rfl
    · rw [dataOf_append, hes, List.append_assoc, hdata, List.flatten_cons, List.append_assoc]
      rfl
    · by_cases hreads : reads = []
      · subst hreads
        cases hexec
        rfl
      · exact hlast hreads

theorem readAll_published (d : Decoder) (p reads : List Bytes) :
    readAll Chunked.RelayPull.publishDataFromChunk { d with published := p ++ d.published } reads =
      { readAll Chunked.RelayPull.publishDataFromChunk d reads with
        published := p ++ (readAll Chunked.RelayPull.publishDataFromChunk d reads).published } := by
  induction reads generalizing d with
  | nil => rfl
  | cons data reads ih =>
    unfold readAll
    rw [List.foldl_cons, List.foldl_cons]
    have hread : Chunked.readCallback Chunked.RelayPull.publishDataFromChunk
        { d with published := p ++ d.published } data =
          { Chunked.readCallback Chunked.RelayPull.publishDataFromChunk d data with
            published := p ++
              (Chunked.readCallback Chunked.RelayPull.publishDataFromChunk d data).published } := by
      unfold Chunked.readCallback
      dsimp only
      split
      · exact Chunked.publish_published { d with recvEvbuf := d.recvEvbuf ++ data } p
      · rfl
    rw [hread]
    exact ih _

theorem length_readAll (d : Decoder) (reads : List Bytes) :
    (readAll Chunked.RelayPull.publishDataFromChunk d reads).published.flatten.length ≤
      d.published.flatten.length + d.recvEvbuf.length + reads.flatten.length := by
  induction reads generalizing d with
  | nil =>
    change d.published.flatten.length ≤ _
    omega
  | cons data reads ih =>
    refine (ih _).trans ?_
    rw [List.flatten_cons, List.length_append]
    unfold Chunked.readCallback
    split
    · have hlen := Chunked.length_publish .scheduleRetry { d with recvEvbuf := d.recvEvbuf ++ data }
      rw [List.length_append] at hlen
      unfold Chunked.RelayPull.publishDataFromChunk
      dsimp only at hlen
      omega
    · omega

theorem exec_waiting (cfg : Config) (reads : List Bytes) {s : Pull} (hs : s.state = .waitingRetry) :
    ∃ t es, (relayMachine cfg).exec s (arrive reads) = some (t, es) ∧ t.state = .waitingRetry := by
  refine ⟨_, _, exec_kept ?_ ?_ reads, hs⟩
  · rw [hs]
    exact State.noConfusion
  · rw [hs]
    exact State.noConfusion

theorem readAll_unpublished (d : Decoder) (reads : List Bytes) :
    readAll Chunked.RelayPull.publishDataFromChunk d reads =
      { readAll Chunked.RelayPull.publishDataFromChunk { d with published := [] } reads with
        published := d.published ++
          (readAll Chunked.RelayPull.publishDataFromChunk { d with published := [] }
            reads).published } := by
  have happend := readAll_published { d with published := [] } d.published reads
  rw [List.append_nil] at happend
  exact happend

theorem not_running_of_ended {d : Decoder} {e : Chunked.Ending} {reads : List Bytes} {t : Pull}
    {es : List Event} (hstop : s.stopped = false)
    (hd : Chunked.RelayPull.publishDataFromChunk (decoder s) = d) (he : d.ending = some e)
    (hexec : ((publishDataFromChunk cfg s).bind fun p ↦
      ((relayMachine cfg).exec p.1 (arrive reads)).map fun q ↦ (q.1, p.2 ++ q.2)) = some (t, es)) :
    t.state ≠ .running := by
  by_cases hretry : e = .scheduleRetry
  · rw [publishDataFromChunk_retry hd (hretry ▸ he)] at hexec
    obtain ⟨reg, r, hwaiting⟩ := scheduleRetry_eq cfg
      (s := { s with recvEvbuf := d.recvEvbuf, chunkedSize := d.chunkedSize }) hstop
    rw [hwaiting] at hexec
    obtain ⟨t', es', hexec', hwait⟩ := exec_waiting cfg reads
      (s := { s with
        recvEvbuf := d.recvEvbuf
        chunkedSize := d.chunkedSize
        registry := reg
        registered := r
        connectKey := ""
        state := .waitingRetry
        timeoutEv := true
        timeoutEvFlag := true
        retryDelay := min (s.retryDelay * 2) 60 }) rfl
    dsimp only [Option.bind] at hexec
    rw [hexec'] at hexec
    cases hexec
    rw [hwait]
    exact State.noConfusion
  · rw [publishDataFromChunk_fatal hd he hretry] at hexec
    cases hexec

/-- The decoder of the task goes through the read events as the decoder alone does. -/
theorem exec_chunked (hs : s.state = .running) (hc : s.transferWithChunked = true)
    (hstop : s.stopped = false) (reads : List Bytes) (payload : Bytes) :
    (∃ t es, (relayMachine cfg).exec s (arrive reads) = some (t, es) ∧ t.state = .running ∧
        dataOf es = payload) ↔
      (readAll Chunked.RelayPull.publishDataFromChunk (decoder s) reads).ending = none ∧
        (readAll Chunked.RelayPull.publishDataFromChunk (decoder s) reads).published.flatten =
          payload := by
  induction reads generalizing s payload with
  | nil =>
    refine ⟨?_, fun h ↦ ⟨s, [], rfl, hs, h.2⟩⟩
    rintro ⟨t, es, hexec, -, hdata⟩
    cases hexec
    exact ⟨rfl, hdata⟩
  | cons data reads ih =>
    have hread : (relayMachine cfg).step s (.read data) =
        publishDataFromChunk cfg { s with recvEvbuf := s.recvEvbuf ++ data } :=
          step_chunk cfg hs hc data
    rw [arrive, List.map_cons, Machine.exec_cons, hread, ← arrive]
    generalize hd : Chunked.RelayPull.publishDataFromChunk
      (decoder { s with recvEvbuf := s.recvEvbuf ++ data }) = d
    have hall : readAll Chunked.RelayPull.publishDataFromChunk (decoder s) (data :: reads) =
        readAll Chunked.RelayPull.publishDataFromChunk d reads := by
      rw [← hd]
      rfl
    rw [hall]
    cases he : d.ending with
    | none =>
      rw [publishDataFromChunk_live hd he]
      let u : Pull := { s with recvEvbuf := d.recvEvbuf, chunkedSize := d.chunkedSize }
      have hdecoder : { d with published := [] } = decoder u := by
        rw [he]
        rfl
      rw [readAll_unpublished, hdecoder, List.flatten_append]
      change (∃ t es, Option.map _ ((relayMachine cfg).exec u (arrive reads)) = some (t, es) ∧ _) ↔
        _
      constructor
      · rintro ⟨t, es, hexec, hrun, hdata⟩
        obtain ⟨⟨t', es'⟩, hexec', heq⟩ := Option.map_eq_some_iff.mp hexec
        cases heq
        obtain ⟨hend, hpub⟩ := (ih (s := u) hs hc hstop _).mp ⟨t', es', hexec', hrun, rfl⟩
        refine ⟨hend, ?_⟩
        rw [hpub, ← hdata, dataOf_append, dataOf_published]
      · rintro ⟨hend, hpub⟩
        obtain ⟨t, es, hexec, hrun, hdata⟩ := (ih (s := u) hs hc hstop _).mpr ⟨hend, rfl⟩
        refine ⟨t, d.published.map .published ++ es, ?_, hrun, ?_⟩
        · rw [hexec]
          rfl
        · rw [dataOf_append, dataOf_published, hdata, hpub]
    | some e =>
      have hne : d.ending ≠ none := by
        rw [he]
        exact Option.some_ne_none e
      rw [Chunked.readAll_ended hne]
      refine iff_of_false ?_ fun h ↦ hne h.1
      rintro ⟨t, es, hexec, hrun, -⟩
      exact not_running_of_ended (s := { s with recvEvbuf := s.recvEvbuf ++ data }) hstop hd he
        hexec hrun

theorem not_delivers_of_refused {first data : Bytes} {before after : List Bytes}
    (h : Requested cfg s) (hfirst : first ≠ []) (hv : verifyNtripResponse first = none) :
    ¬ Delivers cfg s first before after data := by
  rintro ⟨t, es, hexec, -⟩
  have hread : (relayMachine cfg).step s (.read first) =
      some (handleHandshake cfg { s with recvEvbuf := s.recvEvbuf ++ first }) :=
    readCallback_handshaking h.state first
  obtain ⟨reg, r, hretry⟩ := scheduleRetry_eq cfg (s := { s with recvEvbuf := [] }) h.live
  rw [h.recvEvbuf, List.nil_append,
    handleHandshake_refused (s := { s with recvEvbuf := first }) hfirst hv, hretry] at hread
  unfold receive at hexec
  rw [Machine.exec_cons, hread] at hexec
  dsimp only [Option.bind] at hexec
  rw [Machine.exec_append, exec_kept State.noConfusion State.noConfusion] at hexec
  dsimp only [Option.bind] at hexec
  rw [Machine.exec_cons] at hexec
  change Option.map _ (Option.map _ (Option.bind (if s.attempt ∈ s.requests then _ else none) _)) =
    _ at hexec
  rw [if_neg h.unasked] at hexec
  cases hexec

/-- What comes before the reply is kept until the first read event after it. -/
theorem delivers_iff_of_accepted {first : Bytes} {a : Accepted} (before after : List Bytes)
    (h : Requested cfg s) (hfirst : first ≠ []) (hv : verifyNtripResponse first = some a) :
    ∃ u : Pull, u.state = .running ∧ u.stopped = false ∧ u.transferWithChunked = a.chunked ∧
      u.chunkedSize = 0 ∧ u.recvEvbuf = before.flatten ∧
        ∀ data, Delivers cfg s first before after data ↔
        ∃ t es, (relayMachine cfg).exec u (arrive after) = some (t, es) ∧ t.state = .running ∧
          dataOf es = data := by
  have hread : (relayMachine cfg).step s (.read first) =
      some (handleHandshake cfg { s with recvEvbuf := s.recvEvbuf ++ first }) :=
    readCallback_handshaking h.state first
  obtain ⟨reg, -, haccept⟩ := handleHandshake_accepted cfg (s := { s with recvEvbuf := first })
    hfirst hv
  rw [h.recvEvbuf, List.nil_append, haccept,
    if_pos (Option.not_isSome_iff_eq_none.mp h.key)] at hread
  let v : Pull := { s with
    recvEvbuf := [] ++ before.flatten
    ntripVersion2 := a.version2
    transferWithChunked := a.chunked
    state := .registering
    registry := reg
    requests := s.attempt :: s.requests }
  have hreply : (relayMachine cfg).step v (.registerReply s.attempt .ok) = some (running v) :=
    if_pos (List.mem_cons_self ..)
  refine ⟨(running v).1, rfl, h.live, rfl, h.chunkedSize, List.nil_append _, fun data ↦ ?_⟩
  have hexec : (relayMachine cfg).exec s (receive s.attempt first before after) =
      ((relayMachine cfg).exec (running v).1 (arrive after)).map fun q ↦
        (q.1, .judged true :: (running v).2 ++ q.2) := by
    unfold receive
    rw [Machine.exec_cons, hread]
    dsimp only [Option.bind]
    rw [Machine.exec_append, exec_kept State.noConfusion State.noConfusion]
    dsimp only [Option.bind]
    rw [Machine.exec_cons]
    change Option.map _ (Option.map _ (Option.bind ((relayMachine cfg).step v _) _)) = _
    rw [hreply]
    dsimp only [Option.bind]
    rw [Option.map_map, Option.map_map]
    rfl
  unfold Delivers
  rw [hexec]
  constructor
  · rintro ⟨t, es, hrest, hrun, hdata⟩
    obtain ⟨⟨t', es'⟩, hrest', heq⟩ := Option.map_eq_some_iff.mp hrest
    cases heq
    exact ⟨t', es', hrest', hrun, hdata⟩
  · rintro ⟨t, es, hrest, hrun, hdata⟩
    rw [hrest]
    exact ⟨t, _, rfl, hrun, hdata⟩

theorem longer_of_chunked {header first rest body : Bytes} {a b : Accepted}
    (ha : verifyNtripResponse header = some a) (hc : a.chunked = false)
    (hb : verifyNtripResponse first = some b) (hc' : b.chunked = true)
    (hstream : first ++ rest = header ++ body) : rest.length < body.length := by
  obtain ⟨x, rfl, -⟩ | ⟨x, rfl, rfl⟩ := List.append_eq_append_iff.mp hstream
  · have hcontra := chunked_append hb ha hc'
    rw [hc] at hcontra
    cases hcontra
  · cases x with
    | nil =>
      rw [List.append_nil] at hb
      cases ha.symm.trans hb
      rw [hc] at hc'
      cases hc'
    | cons b x =>
      rw [List.length_append, List.length_cons]
      omega

theorem delivers_raw {header first body : Bytes} {a : Accepted} {before after : List Bytes}
    (h : Requested cfg s) (ha : verifyNtripResponse header = some a) (hc : a.chunked = false)
    (f : Fragmentation (header ++ body)) (hf : f.reads = first :: (before ++ after)) :
    Delivers cfg s first before after body ↔
      (verifyNtripResponse first).isSome ∧ if after = [] then body = [] else first = header := by
  have hne : first ≠ [] := by
    rintro rfl
    exact f.nonempty (hf ▸ List.mem_cons_self ..)
  have hstream : first ++ (before.flatten ++ after.flatten) = header ++ body := by
    rw [← f.flatten, hf, List.flatten_cons, List.flatten_append]
  cases hb : verifyNtripResponse first with
  | none => exact iff_of_false (not_delivers_of_refused h hne hb) fun hr ↦ by cases hr.1
  | some b =>
    obtain ⟨u, hrun, hlive, huc, husize, hurecv, hiff⟩ :=
      delivers_iff_of_accepted before after h hne hb
    rw [hiff, and_iff_right (show (some b).isSome = true from rfl)]
    cases hbc : b.chunked with
    | false =>
      obtain ⟨t, es, hexec, ht, hdata, hlast, hnone⟩ := exec_raw cfg hrun (huc.trans hbc) after
      rw [hexec]
      split
      · next hnil =>
        constructor
        · rintro ⟨_, _, heq, -, hbody⟩
          cases heq
          rw [← hbody, hnone hnil]
        · rintro rfl
          exact ⟨t, es, rfl, ht, hnone hnil⟩
      · next hafter =>
        rw [hlast hafter, List.append_nil, hurecv] at hdata
        constructor
        · rintro ⟨_, _, heq, -, hbody⟩
          cases heq
          rw [← hdata, hbody] at hstream
          exact List.append_cancel_right hstream
        · rintro rfl
          refine ⟨t, es, rfl, ht, ?_⟩
          rw [hdata]
          exact List.append_cancel_left hstream
    | true =>
      have hlong := longer_of_chunked ha hc hb hbc hstream
      rw [exec_chunked hrun (huc.trans hbc) hlive]
      refine iff_of_false ?_ ?_
      · rintro ⟨-, hbody⟩
        have hlen := length_readAll (decoder u) after
        rw [hbody] at hlen
        change body.length ≤ 0 + u.recvEvbuf.length + after.flatten.length at hlen
        rw [hurecv] at hlen
        rw [List.length_append] at hlong
        omega
      · split
        · rintro rfl
          exact absurd hlong (Nat.not_lt_zero _)
        · rintro rfl
          rw [List.append_cancel_left hstream] at hlong
          exact absurd hlong (lt_irrefl _)

theorem delivers_unread {first data : Bytes} (before : List Bytes) (h : Requested cfg s)
    (hfirst : first ≠ []) :
    Delivers cfg s first before [] data ↔ (verifyNtripResponse first).isSome ∧ data = [] := by
  cases hv : verifyNtripResponse first with
  | none => exact iff_of_false (not_delivers_of_refused h hfirst hv) fun hr ↦ by cases hr.1
  | some a =>
    obtain ⟨u, hrun, _, _, _, _, hiff⟩ := delivers_iff_of_accepted before [] h hfirst hv
    rw [hiff, and_iff_right (show (some a).isSome = true from rfl)]
    constructor
    · intro ⟨t, es, hexec, _, hdata⟩
      cases hexec
      exact hdata.symm
    · intro hdata
      exact ⟨u, [], rfl, hrun, hdata.symm⟩

theorem delivers_chunked {header : Bytes} {a : Accepted} {before after : List Bytes}
    {cs : List Chunk} {last : Option (SizeLine 0)} (h : Requested cfg s)
    (ha : verifyNtripResponse header = some a) (hc : a.chunked = true)
    (f : Fragmentation (header ++ coded cs last)) (hf : f.reads = header :: (before ++ after))
    (hafter : after ≠ []) :
    Delivers cfg s header before after (cs.map (·.data)).flatten ↔
      Uncut cs last 0 (held before after) := by
  have hread {data : Bytes} (hmem : data ∈ header :: (before ++ after)) : data ≠ [] := by
    rintro rfl
    exact f.nonempty (hf ▸ hmem)
  have hstream : before.flatten ++ after.flatten = coded cs last := by
    have hall : header ++ (before.flatten ++ after.flatten) = header ++ coded cs last := by
      rw [← f.flatten, hf, List.flatten_cons, List.flatten_append]
    exact List.append_cancel_left hall
  obtain ⟨u, hrun, hlive, huc, husize, hurecv, hiff⟩ :=
    delivers_iff_of_accepted before after h (hread (List.mem_cons_self ..)) ha
  rw [hiff, exec_chunked hrun (huc.trans hc) hlive]
  cases after with
  | nil => exact absurd rfl hafter
  | cons data after =>
    have hnonempty : [] ∉ held before (data :: after) := by
      intro hmem
      obtain hmem | hmem := List.mem_cons.1 hmem
      · apply hread _ (List.append_eq_nil_iff.1 hmem.symm).2
        exact List.mem_cons_of_mem _ (List.mem_append_right _ (List.mem_cons_self ..))
      · apply hread _ rfl
        exact List.mem_cons_of_mem _ (List.mem_append_right _ (List.mem_cons_of_mem _ hmem))
    have hflat : (held before (data :: after)).flatten = coded cs last := by
      rw [held, List.flatten_cons, List.append_assoc, ← List.flatten_cons, hstream]
    have hsame : readAll Chunked.RelayPull.publishDataFromChunk (decoder u) (data :: after) =
        readAll Chunked.RelayPull.publishDataFromChunk {} (held before (data :: after)) := by
      unfold decoder
      rw [hurecv, husize]
      rfl
    have hstart : Awaits last cs {} (held before (data :: after)).flatten 0 := .chunk rfl rfl hflat
    obtain ⟨huncut, htaken⟩ := @Awaits.readAll .scheduleRetry last cs {} _ 0 hstart rfl hnonempty
    rw [hsame, ← huncut]
    exact ⟨And.left, fun hnone ↦ ⟨hnone, (htaken hnone).published⟩⟩

/-- The stream that follows the header is published just where the first read event ends with the
header, a read event follows the reply of the caster, and of these none ends the decoding of chunks;
or where there is nothing to publish and nothing follows the reply. -/
theorem handshake_delivers {header : Bytes} {a : Accepted} (h : Requested cfg s)
    (ha : verifyNtripResponse header = some a) :
    (a.chunked = false → ∀ (body : Bytes) (f : Fragmentation (header ++ body)) (first : Bytes)
      (before after : List Bytes), f.reads = first :: (before ++ after) →
        (Delivers cfg s first before after body ↔
          (verifyNtripResponse first).isSome ∧ if after = [] then body = [] else first = header)) ∧
      (a.chunked = true → ∀ (cs : List Chunk) (last : Option (SizeLine 0))
        (f : Fragmentation (header ++ coded cs last)) (first : Bytes) (before after : List Bytes),
          f.reads = first :: (before ++ after) →
            (after = [] → (Delivers cfg s first before after (cs.map (·.data)).flatten ↔
              (verifyNtripResponse first).isSome ∧ cs = [])) ∧
            (after ≠ [] → first = header →
              (Delivers cfg s first before after (cs.map (·.data)).flatten ↔
              Uncut cs last 0 (held before after)))) := by
  refine ⟨fun hc _ f _ _ _ hf ↦ delivers_raw h ha hc f hf,
    fun hc cs last f first before after hf ↦ ⟨?_, ?_⟩⟩
  · rintro rfl
    have hne : first ≠ [] := by
      rintro rfl
      exact f.nonempty (hf ▸ List.mem_cons_self ..)
    rw [delivers_unread before h hne]
    apply and_congr_right
    intro _
    cases cs with
    | nil => exact iff_of_true rfl rfl
    | cons c cs =>
      apply iff_of_false _ (List.cons_ne_nil _ _)
      intro hnil
      exact c.nonempty (List.append_eq_nil_iff.1 hnil).1
  · rintro hafter rfl
    exact delivers_chunked h ha hc f hf hafter

def asked : Pull where
  state := .handshaking
  connectKey := "k"
  userName := "SYSTEM"
  attempt := 1

theorem requested_asked : Requested feed asked :=
  ⟨rfl, rfl, rfl, rfl, Bool.false_ne_true, List.not_mem_nil⟩

def icy : Bytes := ascii "ICY 200 OK\r\n\r\n"

theorem verify_icy : verifyNtripResponse icy = some ⟨false, false⟩ := by
  decide +kernel

def apart : Fragmentation (icy ++ [97, 98]) where
  reads := [icy, [97], [98]]
  nonempty := by decide +kernel
  flatten := by decide +kernel

def chunkedHeader : Bytes :=
  ascii "HTTP/1.1 200 OK\r\n" ++ ascii "Transfer-Encoding: chunked\r\n\r\n"

theorem verify_chunkedHeader : verifyNtripResponse chunkedHeader = some ⟨true, true⟩ := by
  decide +kernel

theorem not_marked {b : UInt8} {text rest : Bytes} (h : b ≠ 120 ∧ b ≠ 88) :
    ¬ ChunkSizes.Marked (48 :: b :: text) rest := by
  intro hmark
  obtain heq | heq := hmark
  · exact h.1 (List.cons.inj (List.cons.inj heq).2).1
  · exact h.2 (List.cons.inj (List.cons.inj heq).2).1

/-- A size with a zero in front and an extension behind. -/
def threeLine : SizeLine 3 :=
  ChunkSizes.sizeLine [48, 51, 59, 120] 3 (by simp) ⟨List.cons_ne_nil _ _, rfl⟩
    (fun _ ↦ not_marked ⟨by decide, by decide⟩) (by omega)

theorem three_fits : 3 < 2 ^ 63 := by omega

def extended : Chunk where
  data := [97, 98, 99]
  nonempty := List.cons_ne_nil _ _
  fits := three_fits
  head := threeLine

def zeroLine : SizeLine 0 :=
  ChunkSizes.sizeLine [48, 48] 0 (by simp) ⟨List.cons_ne_nil _ _, rfl⟩
    (fun _ ↦ not_marked ⟨by decide, by decide⟩) (by omega)

def pieces : Fragmentation (chunkedHeader ++ coded [extended] (some zeroLine)) where
  reads := [chunkedHeader, ascii "03;x\r\na", ascii "bc\r\n00\r\n", ascii "\r\n"]
  nonempty := by decide +kernel
  flatten := by decide +kernel

theorem uncut_pieces : Uncut [extended] (some zeroLine) 0
    (held [ascii "03;x\r\na"] [ascii "bc\r\n00\r\n", ascii "\r\n"]) := by
  have hlen : (ascii "03;x\r\na" ++ ascii "bc\r\n00\r\n").length = 15 ∧ (ascii "\r\n").length = 2 ∧
      extended.head.bytes.length = 6 ∧ extended.bytes.length = 11 ∧ zeroLine.bytes.length = 4 ∧
      (coded [extended] none).length = 11 := by
    decide +kernel
  obtain ⟨hfirst, hsecond, hline, hbytes, hlast, hcoded⟩ := hlen
  rw [held, List.flatten_singleton, uncut_cons, uncut_cons, hfirst, hsecond]
  simp [Halts, InLine, hline, hbytes, hlast, hcoded, Uncut]

theorem delivers_apart : Delivers feed asked icy [[97]] [[98]] [97, 98] ∧
    Delivers feed asked chunkedHeader [ascii "03;x\r\na"] [ascii "bc\r\n00\r\n", ascii "\r\n"]
      [97, 98, 99] := by
  constructor
  · apply ((handshake_delivers requested_asked verify_icy).1 rfl _ apart icy [[97]] [[98]] rfl).2
    rw [verify_icy, if_neg (List.cons_ne_nil _ _)]
    exact ⟨rfl, rfl⟩
  · apply (((handshake_delivers requested_asked verify_chunkedHeader).2 rfl [extended]
      (some zeroLine) pieces
      chunkedHeader _ _ rfl).2 (List.cons_ne_nil _ _) rfl).2
    exact uncut_pieces

def joined : Fragmentation (icy ++ [97, 98]) where
  reads := [icy ++ [97], [98]]
  nonempty := by decide +kernel
  flatten := by decide +kernel

theorem not_delivers_joined : ¬ ∀ (cfg : Config) (s : Pull) (header body : Bytes) (a : Accepted)
    (f : Fragmentation (header ++ body)) (first : Bytes)
    (before after : List Bytes), Requested cfg s →
      verifyNtripResponse header = some a → a.chunked = false →
        f.reads = first :: (before ++ after) →
        Delivers cfg s first before after body := by
  intro h
  have hd :=
    h feed asked icy [97, 98] _ joined (icy ++ [97]) [] [[98]] requested_asked verify_icy rfl rfl
  have hcut := ((delivers_raw requested_asked verify_icy rfl joined rfl).mp hd).2
  rw [if_neg (List.cons_ne_nil _ _)] at hcut
  exact absurd hcut (by decide +kernel)

end NavCaster.Session.Handshake
