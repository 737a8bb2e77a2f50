import NavCaster.Library.Lines

namespace NavCaster.Session.Chunked

open NavCaster.Library.Strto NavCaster.Library.Lines

inductive Ending
  | stop | scheduleRetry | lengthError
  deriving DecidableEq

/-- The part of a session that takes chunks apart, with what it has published. -/
structure Decoder where
  recvEvbuf : Bytes := []
  chunkedSize : Nat := 0
  published : List Bytes := []
  ending : Option Ending := none
  deriving DecidableEq

/-- The size line, where one is due. A line that is no number leaves the length of the line, which
`evbuffer_readln` has put into the same variable. -/
def readChunkHead (onError : Ending) (d : Decoder) : Except Ending Decoder :=
  if d.chunkedSize = 0 then
    match readln d.recvEvbuf with
    | none => .error onError
    | some (head, rest) =>
      .ok { d with recvEvbuf := rest, chunkedSize := (scanHex head).getD head.length }
  else .ok d

/-- The chunk is handed on; the two bytes behind it are dropped unseen. -/
def takeChunk (d : Decoder) : Decoder where
  recvEvbuf := (d.recvEvbuf.drop d.chunkedSize).drop 2
  chunkedSize := 0
  published := d.published ++ [d.recvEvbuf.take d.chunkedSize]
  ending := d.ending

theorem length_of_readChunkHead {onError : Ending} {d d' : Decoder}
    (h : readChunkHead onError d = .ok d') : d'.recvEvbuf.length ≤ d.recvEvbuf.length := by
  unfold readChunkHead at h
  split at h
  · cases hr : readln d.recvEvbuf with
    | none => rw [hr] at h; cases h
    | some p =>
      rw [hr] at h
      cases h
      exact (readln_length hr).le
  · cases h
    exact le_rfl

def publishDataFromChunk (onError : Ending) (d : Decoder) : Decoder :=
  match _h : readChunkHead onError d with
  | .error e => { d with ending := some e }
  | .ok d' =>
    -- the sum is computed in `size_t`
    if d'.recvEvbuf.length < (d'.chunkedSize + 2) % 2 ^ 64 then d'
    else if 2 ^ 63 ≤ d'.chunkedSize then { d' with ending := some .lengthError }
    else if (takeChunk d').recvEvbuf = [] then takeChunk d'
    else publishDataFromChunk onError (takeChunk d')
termination_by d.recvEvbuf.length
decreasing_by
  have hle := length_of_readChunkHead _h
  simp only [takeChunk, List.length_drop]
  omega

namespace ServerNtrip

def publishDataFromChunk : Decoder → Decoder := Chunked.publishDataFromChunk .stop

end ServerNtrip

namespace RelayPull

def publishDataFromChunk : Decoder → Decoder := Chunked.publishDataFromChunk .scheduleRetry

end RelayPull

def readCallback (publish : Decoder → Decoder) (d : Decoder) (data : Bytes) : Decoder :=
  if d.ending = none then publish { d with recvEvbuf := d.recvEvbuf ++ data } else d

def readAll (publish : Decoder → Decoder) (d : Decoder) (reads : List Bytes) : Decoder :=
  reads.foldl (readCallback publish) d

/-- A message of a base: data of a size that an object can have. -/
structure Payload where
  data : Bytes
  nonempty : data ≠ []
  fits : data.length < 2 ^ 63

namespace Payload

variable (q : Payload)

def sizeLine : Bytes := hexText q.data.length ++ crlf

/-- `client_ntrip::transfer_sub_raw_data` with chunked transfer. -/
def transferSubRawData : Bytes := q.sizeLine ++ (q.data ++ crlf)

end Payload

def stream (ps : List Payload) : Bytes := ps.flatMap Payload.transferSubRawData

/-- The position lies within a size line: behind its first byte, and before its end. -/
def InSizeLine : List Payload → Nat → Prop
  | [], _ => False
  | q :: qs, p => (0 < p ∧ p < q.sizeLine.length) ∨
      (q.transferSubRawData.length ≤ p ∧ InSizeLine qs (p - q.transferSubRawData.length))

/-- A size line, which is read as the size whatever else it says. -/
structure SizeLine (n : Nat) where
  text : Bytes
  lf_not_mem : 10 ∉ text
  scan : scanHex text = some n

def SizeLine.bytes {n : Nat} (l : SizeLine n) : Bytes := l.text ++ crlf

structure Chunk extends Payload where
  head : SizeLine data.length

def Chunk.bytes (c : Chunk) : Bytes := c.head.bytes ++ (c.data ++ crlf)

def Payload.chunk (q : Payload) : Chunk where
  toPayload := q
  head :=
    { text := hexText q.data.length
      lf_not_mem := not_mem_hexText rfl _
      scan :=
        scanHex_hexText
          (q.fits.trans (Nat.pow_lt_pow_right (Nat.lt_succ_self 1) (Nat.lt_succ_self 63))) }

def lastChunk : Option (SizeLine 0) → Bytes
  | none => []
  | some l => l.bytes ++ crlf

/-- Chunks, and the empty one that may end them. -/
def coded (cs : List Chunk) (last : Option (SizeLine 0)) : Bytes :=
  cs.flatMap Chunk.bytes ++ lastChunk last

def InLine : List Chunk → Nat → Prop
  | [], _ => False
  | c :: cs, p =>
    (0 < p ∧ p < c.head.bytes.length) ∨ (c.bytes.length ≤ p ∧ InLine cs (p - c.bytes.length))

/-- A read event of `n` bytes that ends at the position ends the session: within a size line; or it
is the first byte alone of what ends the last chunk. -/
def Halts (cs : List Chunk) (last : Option (SizeLine 0)) (n p : Nat) : Prop :=
  InLine cs p ∨ ∃ l ∈ last,
    (coded cs none).length < p ∧ p < (coded cs none).length + l.bytes.length ∨
      n = 1 ∧ p = (coded cs none).length + l.bytes.length + 1

/-- None of the read events ends the session, of which the first one begins at the position. -/
def Uncut (cs : List Chunk) (last : Option (SizeLine 0)) (start : Nat) (reads : List Bytes) :
    Prop :=
  ∀ front data, front ++ [data] <+: reads →
    ¬ Halts cs last data.length (start + (front ++ [data]).flatten.length)

variable {onError : Ending}

theorem Payload.length_pos (q : Payload) : 0 < q.data.length :=
  List.length_pos_of_ne_nil q.nonempty

theorem length_crlf : crlf.length = 2 := rfl

/-- What both begin with, where one text is cut in two ways. -/
theorem exists_append_of_le {front back line rest : Bytes} (h : front ++ back = line ++ rest)
    (hle : line.length ≤ front.length) : ∃ buf, line ++ buf = front ∧ buf ++ back = rest := by
  obtain ⟨buf, rfl⟩ : line <+: front :=
    List.prefix_of_prefix_length_le (h.symm ▸ List.prefix_append _ _) (List.prefix_append _ _) hle
  rw [List.append_assoc] at h
  exact ⟨buf, rfl, List.append_cancel_left h⟩

theorem length_bytes (c : Chunk) : c.bytes.length = c.head.bytes.length + (c.data.length + 2) := by
  rw [Chunk.bytes, List.length_append, List.length_append]
  rfl

section

variable (c : Chunk) (cs : List Chunk) (last : Option (SizeLine 0))

theorem coded_cons : coded (c :: cs) last = c.head.bytes ++ (c.data ++ crlf ++ coded cs last) := by
  simp [coded, Chunk.bytes]

theorem length_coded_cons :
    (coded (c :: cs) last).length =
      c.head.bytes.length + (c.data.length + 2) + (coded cs last).length := by
  rw [coded_cons, List.length_append, List.length_append, List.length_append, length_crlf]
  omega

theorem coded_append (todo : List Chunk) :
    coded (cs ++ todo) last = coded cs none ++ coded todo last := by
  simp [coded, lastChunk]

end

theorem inLine_append (done todo : List Chunk) (k : Nat) :
    InLine (done ++ todo) ((coded done none).length + k) ↔ InLine todo k := by
  induction done with
  | nil => simp [coded, lastChunk]
  | cons c done ih =>
    have hlen := length_bytes c
    have hcoded := length_coded_cons c done none
    have hsub :
        (coded (c :: done) none).length + k - c.bytes.length = (coded done none).length + k := by
      omega
    rw [List.cons_append, InLine, hsub, ih]
    constructor
    · intro h
      obtain ⟨_, h⟩ | ⟨_, h⟩ := h
      · omega
      · exact h
    · exact fun h ↦ .inr ⟨by omega, h⟩

theorem halts_append (done todo : List Chunk) (last : Option (SizeLine 0)) (n k : Nat) :
    Halts (done ++ todo) last n ((coded done none).length + k) ↔ Halts todo last n k := by
  have hlen :
      (coded (done ++ todo) none).length = (coded done none).length + (coded todo none).length := by
    rw [coded_append, List.length_append]
  simp only [Halts, inLine_append, hlen]
  apply or_congr_right
  apply exists_congr
  intro l
  apply and_congr_right
  intro _
  omega

theorem SizeLine.lf_not_mem_of_short {n : Nat} {l : SizeLine n} {front back rest : Bytes}
    (h : front ++ back = l.bytes ++ rest) (hlt : front.length < l.bytes.length) : 10 ∉ front := by
  have hline : l.bytes ++ rest = (l.text ++ [13]) ++ 10 :: rest := by
    simp [SizeLine.bytes, crlf]
  have hfront : front <+: (l.text ++ [13]) ++ 10 :: rest := hline ▸ h ▸ List.prefix_append _ _
  have hpre : front <+: l.text ++ [13] := by
    apply List.prefix_of_prefix_length_le hfront (List.prefix_append _ _)
    simp only [SizeLine.bytes, crlf, List.length_append, List.length_cons, List.length_nil] at hlt ⊢
    omega
  intro hmem
  obtain htext | hcr := List.mem_append.1 (hpre.subset hmem)
  · exact l.lf_not_mem htext
  · cases List.mem_singleton.1 hcr

theorem readChunkHead_short {d : Decoder} {n : Nat} {l : SizeLine n} {back rest : Bytes}
    (hsize : d.chunkedSize = 0) (h : d.recvEvbuf ++ back = l.bytes ++ rest)
    (hlt : d.recvEvbuf.length < l.bytes.length) : readChunkHead onError d = .error onError := by
  rw [readChunkHead, if_pos hsize, readln_none (SizeLine.lf_not_mem_of_short h hlt)]

theorem readChunkHead_sizeLine {d : Decoder} {n : Nat} (l : SizeLine n) {rest : Bytes}
    (hsize : d.chunkedSize = 0) (h : d.recvEvbuf = l.bytes ++ rest) :
    readChunkHead onError d = .ok { d with recvEvbuf := rest, chunkedSize := n } := by
  rw [readChunkHead, if_pos hsize, h, SizeLine.bytes, readln_crlf l.lf_not_mem]
  dsimp only
  rw [l.scan, Option.getD_some]

theorem readChunkHead_body {d : Decoder} (hsize : d.chunkedSize ≠ 0) :
    readChunkHead onError d = .ok d := if_neg hsize

theorem publish_error {d : Decoder} {e : Ending} (h : readChunkHead onError d = .error e) :
    publishDataFromChunk onError d = { d with ending := some e } := by
  rw [publishDataFromChunk]
  split
  · next h' => rw [h] at h'; cases h'; rfl
  · next h' => rw [h] at h'; cases h'

theorem publish_step {d d' : Decoder} (h : readChunkHead onError d = .ok d') :
    publishDataFromChunk onError d =
      if d'.recvEvbuf.length < (d'.chunkedSize + 2) % 2 ^ 64 then d'
      else if 2 ^ 63 ≤ d'.chunkedSize then { d' with ending := some .lengthError }
      else if (takeChunk d').recvEvbuf = [] then takeChunk d'
      else publishDataFromChunk onError (takeChunk d') := by
  rw [publishDataFromChunk]
  split
  · next h' => rw [h] at h'; cases h'
  · next h' =>
    rw [h] at h'
    cases h'
    rfl

theorem publish_ok {d d' : Decoder} (h : readChunkHead onError d = .ok d')
    (hfits : d'.chunkedSize < 2 ^ 63) :
    publishDataFromChunk onError d =
      if d'.recvEvbuf.length < d'.chunkedSize + 2 then d'
      else if (takeChunk d').recvEvbuf = [] then takeChunk d'
      else publishDataFromChunk onError (takeChunk d') := by
  have hmod : (d'.chunkedSize + 2) % 2 ^ 64 = d'.chunkedSize + 2 := Nat.mod_eq_of_lt (by omega)
  rw [publish_step h, hmod, if_neg (by omega : ¬ 2 ^ 63 ≤ d'.chunkedSize)]

theorem readChunkHead_published (d : Decoder) (p : List Bytes) :
    readChunkHead onError { d with published := p ++ d.published } =
      (readChunkHead onError d).map fun d' ↦ { d' with published := p ++ d'.published } := by
  unfold readChunkHead
  dsimp only
  split
  · cases readln d.recvEvbuf <;> rfl
  · rfl

theorem takeChunk_published (d : Decoder) (p : List Bytes) :
    takeChunk { d with published := p ++ d.published } =
      { takeChunk d with published := p ++ (takeChunk d).published } := by
  simp only [takeChunk, List.append_assoc]

theorem publish_published (d : Decoder) (p : List Bytes) :
    publishDataFromChunk onError { d with published := p ++ d.published } =
      { publishDataFromChunk onError d with
        published := p ++ (publishDataFromChunk onError d).published } := by
  have hhead {d d' : Decoder} (hd : readChunkHead onError d = .ok d') :
      readChunkHead onError { d with published := p ++ d.published } =
        .ok { d' with published := p ++ d'.published } := by
    rw [readChunkHead_published, hd]
    rfl
  fun_induction publishDataFromChunk onError d with
  | case1 d e he =>
    refine publish_error ?_
    rw [readChunkHead_published, he]
    rfl
  | case2 d d' hd hlt => rw [publish_step (hhead hd), if_pos hlt]
  | case3 d d' hd hlt hhuge => rw [publish_step (hhead hd), if_neg hlt, if_pos hhuge]
  | case4 d d' hd hlt hhuge hnil =>
    rw [publish_step (hhead hd), if_neg hlt, if_neg hhuge, takeChunk_published, if_pos hnil]
  | case5 d d' hd hlt hhuge hnil ih =>
    rw [publish_step (hhead hd), if_neg hlt, if_neg hhuge, takeChunk_published, if_neg hnil, ih]

theorem length_readChunkHead {d d' : Decoder} (h : readChunkHead onError d = .ok d') :
    d'.published = d.published ∧ d'.recvEvbuf.length ≤ d.recvEvbuf.length := by
  refine ⟨?_, length_of_readChunkHead h⟩
  unfold readChunkHead at h
  split at h
  · split at h
    · cases h
    · cases h
      rfl
  · cases h
    rfl

theorem length_publish (onError : Ending) (d : Decoder) :
    (publishDataFromChunk onError d).published.flatten.length +
        (publishDataFromChunk onError d).recvEvbuf.length ≤
      d.published.flatten.length + d.recvEvbuf.length := by
  have htake (d : Decoder) :
      (takeChunk d).published.flatten.length + (takeChunk d).recvEvbuf.length ≤
      d.published.flatten.length + d.recvEvbuf.length := by
    simp only [takeChunk, List.flatten_append, List.flatten_cons, List.flatten_nil, List.append_nil,
      List.length_append, List.length_take, List.length_drop]
    omega
  fun_induction publishDataFromChunk onError d with
  | case1 d e he => exact le_rfl
  | case2 d d' hd hlt =>
    obtain ⟨hp, hr⟩ := length_readChunkHead hd
    rw [hp]
    exact Nat.add_le_add_left hr _
  | case3 d d' hd hlt hhuge =>
    obtain ⟨hp, hr⟩ := length_readChunkHead hd
    rw [hp]
    exact Nat.add_le_add_left hr _
  | case4 d d' hd hlt hhuge hnil =>
    obtain ⟨hp, hr⟩ := length_readChunkHead hd
    have ht := htake d'
    rw [hp] at ht
    omega
  | case5 d d' hd hlt hhuge hnil ih =>
    obtain ⟨hp, hr⟩ := length_readChunkHead hd
    have ht := htake d'
    rw [hp] at ht
    omega

/-- What the decoder is in the middle of, after a read event: nothing, the body of a chunk, or
the end of the last chunk, which it has read the size of. The number is how far it is within the
chunk. -/
inductive Awaits (last : Option (SizeLine 0)) : List Chunk → Decoder → Bytes → Nat → Prop
  | chunk {todo : List Chunk} {d : Decoder} {rest : Bytes} :
    d.recvEvbuf = [] → d.chunkedSize = 0 → rest = coded todo last → Awaits last todo d rest 0
  | body {c : Chunk} {todo : List Chunk} {d : Decoder} {rest : Bytes} :
    d.recvEvbuf.length < c.data.length + 2 → d.chunkedSize = c.data.length →
    d.recvEvbuf ++ rest = c.data ++ crlf ++ coded todo last →
    Awaits last (c :: todo) d rest (c.head.bytes.length + d.recvEvbuf.length)
  | finish {l : SizeLine 0} {d : Decoder} {rest : Bytes} :
    last = some l → d.recvEvbuf.length < 2 → d.chunkedSize = 0 → d.recvEvbuf ++ rest = crlf →
    Awaits last [] d rest (l.bytes.length + d.recvEvbuf.length)
  | done {l : SizeLine 0} {d : Decoder} {rest : Bytes} :
    last = some l → d.recvEvbuf = [] → d.chunkedSize = 0 → rest = [] →
    Awaits last [] d rest (l.bytes.length + 2)

variable {last : Option (SizeLine 0)} {n : Nat}

theorem Awaits.length {todo : List Chunk} {d : Decoder} {rest : Bytes} {k : Nat}
    (h : Awaits last todo d rest k) : (coded todo last).length = k + rest.length := by
  cases h with
  | chunk hbuf hsize hrest => rw [hrest, Nat.zero_add]
  | @body c todo d rest hlt hsize hrest =>
    have hlen := congrArg List.length hrest
    simp only [List.length_append, length_crlf] at hlen
    rw [length_coded_cons]
    omega
  | @finish l d rest hlast hlt hsize hrest =>
    have hlen := congrArg List.length hrest
    simp only [List.length_append, length_crlf] at hlen
    simp only [coded, lastChunk, hlast, List.flatMap_nil, List.nil_append, List.length_append, crlf,
      List.length_cons, List.length_nil]
    omega
  | done hlast hbuf hsize hrest =>
    simp [coded, lastChunk, hlast, hrest, crlf]

theorem Awaits.append {todo : List Chunk} {d : Decoder} {rest : Bytes} {k : Nat}
    (h : Awaits none todo d rest k) (c : Chunk) :
    Awaits none (todo ++ [c]) d (rest ++ c.bytes) k := by
  have hcoded : coded [c] none = c.bytes := by simp [coded, lastChunk]
  cases h with
  | chunk hbuf hsize hrest =>
    refine .chunk hbuf hsize ?_
    rw [coded_append, hcoded, hrest]
  | body hlt hsize hrest =>
    refine .body hlt hsize ?_
    change _ = _ ++ coded (_ ++ [c]) none
    rw [coded_append, hcoded, ← List.append_assoc, hrest, List.append_assoc]
  | finish hlast => cases hlast
  | done hlast => cases hlast

theorem Awaits.not_halts {todo : List Chunk} {d : Decoder} {rest : Bytes} {k : Nat}
    (h : Awaits last todo d rest k) (hn : todo = [] → d.recvEvbuf.length = 1 → n ≠ 1) :
    ¬ Halts todo last n k := by
  intro hhalts
  cases h with
  | @chunk todo d rest hbuf hsize hrest =>
    obtain hin | ⟨l, _, hpos⟩ := hhalts
    · cases todo with
      | nil => exact hin
      | cons c todo =>
        have hlen := length_bytes c
        obtain ⟨hlt, _⟩ | ⟨hle, _⟩ := hin
        · omega
        · omega
    · omega
  | @body c todo d rest hlt hsize hrest =>
    have hlen := length_bytes c
    have hcoded := length_coded_cons c todo none
    obtain hin | ⟨l, _, hpos⟩ := hhalts
    · obtain ⟨_, hlt'⟩ | ⟨hle, _⟩ := hin
      · omega
      · omega
    · omega
  | @finish l d rest hlast hlt hsize hrest =>
    obtain hin | ⟨l', hl', hpos⟩ := hhalts
    · exact hin
    · cases hlast.symm.trans hl'
      simp only [coded, lastChunk, List.flatMap_nil, List.append_nil, List.length_nil] at hpos
      have hone := hn rfl
      omega
  | @done l d rest hlast hbuf hsize hrest =>
    obtain hin | ⟨l', hl', hpos⟩ := hhalts
    · exact hin
    · cases hlast.symm.trans hl'
      simp only [coded, lastChunk, List.flatMap_nil, List.append_nil, List.length_nil] at hpos
      omega

/-- What a read event leads to, when some chunks are still to come: all that have arrived are
published, and the decoder awaits the others; or the event ends the session. -/
def Outcome (onError : Ending) (last : Option (SizeLine 0)) (n : Nat) (todo : List Chunk)
    (d d' : Decoder) (rest : Bytes) : Prop :=
  ∃ taken left k, todo = taken ++ left ∧
    (last = none → d'.published = d.published ++ taken.map (·.data)) ∧
    d'.published.flatten = d.published.flatten ++ (taken.map (·.data)).flatten ∧
    (coded todo last).length = (coded taken none).length + k + rest.length ∧
    (d'.ending = none ∧ Awaits last left d' rest k ∧ ¬ Halts left last n k ∨
      d'.ending = some onError ∧ Halts left last n k)

theorem Outcome.live {taken left : List Chunk} {d d' : Decoder} {rest : Bytes} {k : Nat}
    (hlive : d'.ending = none) (h : Awaits last left d' rest k)
    (hn : left = [] → d'.recvEvbuf.length = 1 → n ≠ 1)
    (hpub : last = none → d'.published = d.published ++ taken.map (·.data))
    (hflat : d'.published.flatten = d.published.flatten ++ (taken.map (·.data)).flatten) :
    Outcome onError last n (taken ++ left) d d' rest := by
  refine ⟨taken, left, k, rfl, hpub, hflat, ?_, .inl ⟨hlive, h, h.not_halts hn⟩⟩
  rw [coded_append, List.length_append, h.length, Nat.add_assoc]

theorem Outcome.waits {todo : List Chunk} {d d' : Decoder} {rest : Bytes} {k : Nat}
    (hlive : d'.ending = none) (h : Awaits last todo d' rest k)
    (hn : todo = [] → d'.recvEvbuf.length = 1 → n ≠ 1) (hpub : d'.published = d.published) :
    Outcome onError last n todo d d' rest := by
  apply @Outcome.live onError last n [] _ _ _ _ _ hlive h hn
  · intro _
    rw [hpub, List.map_nil, List.append_nil]
  · rw [hpub, List.map_nil, List.flatten_nil, List.append_nil]

theorem Outcome.ended {todo : List Chunk} {d : Decoder} {rest : Bytes} {k : Nat}
    (h : Halts todo last n k) (hlen : (coded todo last).length = k + rest.length) :
    Outcome onError last n todo d { d with ending := some onError } rest := by
  refine ⟨[], todo, k, rfl, ?_, ?_, ?_, .inr ⟨rfl, h⟩⟩
  · exact fun _ ↦ (List.append_nil _).symm
  · exact (List.append_nil _).symm
  · rw [hlen]
    exact (Nat.zero_add _).symm ▸ rfl

theorem Outcome.cons {c : Chunk} {todo : List Chunk} {d d' d'' : Decoder} {rest : Bytes}
    (hd : d'.published = d.published ++ [c.data]) (h : Outcome onError last n todo d' d'' rest) :
    Outcome onError last n (c :: todo) d d'' rest := by
  obtain ⟨taken, left, k, htodo, hpub, hflat, hlen, hend⟩ := h
  refine ⟨c :: taken, left, k, ?_, ?_, ?_, ?_, hend⟩
  · rw [htodo, List.cons_append]
  · intro hlast
    rw [hpub hlast, hd, List.map_cons, List.append_assoc, List.singleton_append]
  · rw [hflat, hd]
    simp
  · rw [length_coded_cons, length_coded_cons, hlen]
    omega

theorem publish_body {c : Chunk} {todo : List Chunk} {d d' : Decoder} {rest : Bytes}
    (hhead : readChunkHead onError d = .ok d') (hpub : d'.published = d.published)
    (hlive : d'.ending = none) (hsize : d'.chunkedSize = c.data.length)
    (hn : d'.recvEvbuf.length ≤ n + (c.data.length + 2))
    (hrest : d'.recvEvbuf ++ rest = c.data ++ crlf ++ coded todo last)
    (ih : ∀ e : Decoder, e.ending = none → e.chunkedSize = 0 → e.recvEvbuf ≠ [] →
      e.recvEvbuf.length ≤ n →
      e.recvEvbuf ++ rest = coded todo last →
      Outcome onError last n todo e (publishDataFromChunk onError e) rest) :
    Outcome onError last n (c :: todo) d (publishDataFromChunk onError d) rest := by
  have hfits : d'.chunkedSize < 2 ^ 63 := hsize ▸ c.fits
  have hlen := congrArg List.length hrest
  simp only [List.length_append, length_crlf] at hlen
  rw [publish_ok hhead hfits]
  split
  · next hlt =>
    refine .waits hlive (.body (hsize ▸ hlt) hsize hrest) ?_ hpub
    exact fun hnil ↦ absurd hnil (List.cons_ne_nil _ _)
  · next hge =>
    obtain ⟨buf, hbuf, htodo⟩ := exists_append_of_le hrest (by
      rw [List.length_append, length_crlf]
      omega)
    have htake : (takeChunk d').recvEvbuf = buf := by
      unfold takeChunk
      rw [← hbuf, hsize, List.append_assoc, List.drop_left]
      rfl
    have hdata : (takeChunk d').published = d.published ++ [c.data] := by
      unfold takeChunk
      rw [← hbuf, hsize, hpub, List.append_assoc, List.take_left]
    split
    · next hnil =>
      rw [htake] at hnil
      rw [hnil, List.nil_append] at htodo
      have hlive' : (takeChunk d').ending = none := hlive
      apply @Outcome.live onError last n [c] _ _ _ _ _ hlive' (.chunk (htake.trans hnil) rfl htodo)
      · intro _ hone
        rw [htake, hnil] at hone
        cases hone
      · exact fun _ ↦ hdata
      · rw [hdata]
        simp
    · next hne =>
      have hbuflen := congrArg List.length hbuf
      simp only [List.length_append, length_crlf] at hbuflen
      apply Outcome.cons hdata
      apply ih (takeChunk d') hlive rfl hne
      · rw [htake]
        omega
      · rw [htake, htodo]

theorem length_coded_nil {l : SizeLine 0} (hlast : last = some l) :
    (coded [] last).length = l.bytes.length + 2 := by
  simp [coded, lastChunk, hlast, crlf]

theorem publish_last {l : SizeLine 0} {d : Decoder} {rest : Bytes} (hlast : last = some l)
    (hlive : d.ending = none) (hsize : d.chunkedSize = 0) (hbuf : d.recvEvbuf ≠ [])
    (hn : d.recvEvbuf.length ≤ n) (hrest : d.recvEvbuf ++ rest = l.bytes ++ crlf) :
    Outcome onError last n [] d (publishDataFromChunk onError d) rest := by
  have hpos := List.length_pos_of_ne_nil hbuf
  have hlen := congrArg List.length hrest
  have hcoded := length_coded_nil hlast
  simp only [List.length_append, length_crlf] at hlen
  by_cases hlt : d.recvEvbuf.length < l.bytes.length
  · rw [publish_error (readChunkHead_short hsize hrest hlt)]
    have hin : (coded [] none).length < d.recvEvbuf.length ∧
        d.recvEvbuf.length < (coded [] none).length + l.bytes.length := by
      change 0 < d.recvEvbuf.length ∧ d.recvEvbuf.length < 0 + l.bytes.length
      omega
    exact Outcome.ended (.inr ⟨l, hlast, .inl hin⟩) (by omega)
  · obtain ⟨buf, hline, hend⟩ := exists_append_of_le hrest (not_lt.mp hlt)
    have hbuflen := congrArg List.length hline
    rw [List.length_append] at hbuflen
    have hlive' : ({ d with recvEvbuf := buf, chunkedSize := 0 } : Decoder).ending = none := hlive
    rw [publish_ok (readChunkHead_sizeLine l hsize hline.symm) (show 0 < 2 ^ 63 by omega)]
    split
    · next hshort =>
      refine .waits hlive' (.finish hlast hshort rfl hend) ?_ rfl
      intro _ hone
      have htext : 2 ≤ l.bytes.length := by
        rw [SizeLine.bytes, List.length_append]
        exact Nat.le_add_left ..
      dsimp only at hone
      omega
    · next hlong =>
      have hends := congrArg List.length hend
      simp only [List.length_append, length_crlf] at hends hlong
      have hnil : rest = [] := List.eq_nil_of_length_eq_zero (by omega)
      have hbuf : buf = crlf := by
        rw [hnil, List.append_nil] at hend
        exact hend
      have hempty : (takeChunk { d with recvEvbuf := buf, chunkedSize := 0 }).recvEvbuf = [] := by
        rw [hbuf]
        rfl
      rw [if_pos hempty]
      have hdone : (takeChunk { d with recvEvbuf := buf, chunkedSize := 0 }).ending = none := hlive
      apply @Outcome.live onError last n [] _ _ _ _ _ hdone (.done hlast hempty rfl hnil)
      · intro _ hone
        rw [hempty] at hone
        cases hone
      · intro hnone
        rw [hlast] at hnone
        cases hnone
      · simp [takeChunk]

theorem publish_line {todo : List Chunk} {d : Decoder} {rest : Bytes}
    (hlive : d.ending = none) (hsize : d.chunkedSize = 0) (hbuf : d.recvEvbuf ≠ [])
    (hn : d.recvEvbuf.length ≤ n) (hrest : d.recvEvbuf ++ rest = coded todo last) :
    Outcome onError last n todo d (publishDataFromChunk onError d) rest := by
  induction todo generalizing d with
  | nil =>
    cases hlast : last with
    | none =>
      rw [hlast] at hrest
      exact absurd (List.append_eq_nil_iff.1 hrest).1 hbuf
    | some l =>
      rw [hlast] at hrest
      exact publish_last rfl hlive hsize hbuf hn hrest
  | cons c todo ih =>
    have hlen := congrArg List.length hrest
    rw [List.length_append] at hlen
    rw [coded_cons] at hrest
    by_cases hlt : d.recvEvbuf.length < c.head.bytes.length
    · have hpos := List.length_pos_of_ne_nil hbuf
      rw [publish_error (readChunkHead_short hsize hrest hlt)]
      exact Outcome.ended (.inl (.inl ⟨hpos, hlt⟩)) hlen.symm
    · obtain ⟨buf, hline, hbody⟩ := exists_append_of_le hrest (not_lt.mp hlt)
      have hbuflen := congrArg List.length hline
      rw [List.length_append] at hbuflen
      apply publish_body (readChunkHead_sizeLine c.head hsize hline.symm) rfl hlive rfl
      · dsimp only
        omega
      · exact hbody
      · exact fun e ↦ ih

theorem publish_finish {l : SizeLine 0} {d : Decoder} {rest : Bytes} (hlast : last = some l)
    (hlive : d.ending = none) (hsize : d.chunkedSize = 0) (hbuf : d.recvEvbuf ≠ [])
    (hrest : d.recvEvbuf ++ rest = crlf) (hn : rest ≠ [] → n = 1) :
    Outcome onError last n [] d (publishDataFromChunk onError d) rest := by
  by_cases hnil : rest = []
  · rw [hnil, List.append_nil] at hrest
    have hhead : readChunkHead onError d = .ok { d with recvEvbuf := [], chunkedSize := 0 } := by
      rw [readChunkHead, if_pos hsize, hrest]
      rfl
    have hlive' : ({ d with recvEvbuf := [], chunkedSize := 0 } : Decoder).ending = none := hlive
    have hwaits : publishDataFromChunk onError d = { d with recvEvbuf := [], chunkedSize := 0 } :=
      (publish_ok hhead (show 0 < 2 ^ 63 by omega)).trans (if_pos (show 0 < 0 + 2 by omega))
    rw [hwaits]
    exact .waits hlive' (.done hlast rfl rfl hnil) (fun _ hone ↦ by cases hone) rfl
  · have hlen := congrArg List.length hrest
    have hpos := List.length_pos_of_ne_nil hbuf
    have hrestpos := List.length_pos_of_ne_nil hnil
    have hcoded := length_coded_nil hlast
    simp only [List.length_append, length_crlf] at hlen
    obtain ⟨b, hone⟩ := List.length_eq_one_iff.1 (show d.recvEvbuf.length = 1 by omega)
    have hcr : d.recvEvbuf = [13] := by
      rw [hone] at hrest ⊢
      cases hrest
      rfl
    have hhead : readChunkHead onError d = .error onError := by
      rw [readChunkHead, if_pos hsize, hcr]
      rfl
    have hend : l.bytes.length + 1 = (coded [] none).length + l.bytes.length + 1 := by
      change _ = 0 + l.bytes.length + 1
      omega
    rw [publish_error hhead]
    exact Outcome.ended (.inr ⟨l, hlast, .inr ⟨hn hnil, hend⟩⟩) (by omega)

theorem Awaits.outcome {todo : List Chunk} {d : Decoder} {data rest : Bytes} {k : Nat}
    (h : Awaits last todo d (data ++ rest) k) (hlive : d.ending = none) (hdata : data ≠ []) :
    Outcome onError last data.length todo d (readCallback (publishDataFromChunk onError) d data)
      rest := by
  have hne : d.recvEvbuf ++ data ≠ [] := fun hnil ↦ hdata (List.append_eq_nil_iff.mp hnil).2
  have hpos := List.length_pos_of_ne_nil hdata
  have hboth : (d.recvEvbuf ++ data).length = d.recvEvbuf.length + data.length := List.length_append
  rw [readCallback, if_pos hlive]
  cases h with
  | chunk hbuf hsize hrest =>
    apply @publish_line onError last _ _ { d with recvEvbuf := d.recvEvbuf ++ data } _ hlive hsize
      hne
    · rw [hboth, hbuf, List.length_nil, Nat.zero_add]
    · rw [hbuf, List.nil_append, hrest]
  | @body c todo d _ hlt hsize hrest =>
    have hsome : d.chunkedSize ≠ 0 := hsize ▸ c.length_pos.ne'
    apply @publish_body onError last _ c todo { d with recvEvbuf := d.recvEvbuf ++ data }
      _ _ (readChunkHead_body hsome) rfl hlive hsize
    · dsimp only
      omega
    · rw [List.append_assoc, hrest]
    · exact fun e ↦ publish_line
  | @finish l d _ hlast hlt hsize hrest =>
    apply @publish_finish onError last _ l { d with recvEvbuf := d.recvEvbuf ++ data } _ hlast hlive
      hsize hne
    · rw [List.append_assoc, hrest]
    · intro hmore
      have hrestpos := List.length_pos_of_ne_nil hmore
      have hlen := congrArg List.length hrest
      simp only [List.length_append, length_crlf] at hlen
      omega
  | done hlast hbuf hsize hrest => exact absurd (List.append_eq_nil_iff.1 hrest).1 hdata

theorem readAll_ended {publish : Decoder → Decoder} {d : Decoder} (h : d.ending ≠ none)
    (reads : List Bytes) : readAll publish d reads = d := by
  induction reads with
  | nil => rfl
  | cons data reads ih => rw [readAll, List.foldl_cons, readCallback, if_neg h]; exact ih

theorem uncut_cons {cs : List Chunk} {k : Nat} {data : Bytes} {reads : List Bytes} :
    Uncut cs last k (data :: reads) ↔
      ¬ Halts cs last data.length (k + data.length) ∧ Uncut cs last (k + data.length) reads := by
  constructor
  · intro h
    constructor
    · have hfirst := h [] data (List.cons_prefix_cons.2 ⟨rfl, List.nil_prefix⟩)
      rw [List.nil_append, List.flatten_singleton] at hfirst
      exact hfirst
    · intro front data' hfront
      have hnext := h (data :: front) data' (List.cons_prefix_cons.2 ⟨rfl, hfront⟩)
      rw [List.cons_append, List.flatten_cons, List.length_append, ← Nat.add_assoc] at hnext
      exact hnext
  · intro ⟨hfirst, hrest⟩ front data' hfront
    cases front with
    | nil =>
      cases (List.cons_prefix_cons.1 hfront).1
      rw [List.nil_append, List.flatten_singleton]
      exact hfirst
    | cons data'' front =>
      obtain ⟨rfl, htail⟩ := List.cons_prefix_cons.1 hfront
      rw [List.cons_append, List.flatten_cons, List.length_append, ← Nat.add_assoc]
      exact hrest front data' htail

theorem uncut_append (done todo : List Chunk) (k : Nat) (reads : List Bytes) :
    Uncut (done ++ todo) last ((coded done none).length + k) reads ↔ Uncut todo last k reads := by
  simp only [Uncut, Nat.add_assoc, halts_append]

structure Taken (last : Option (SizeLine 0)) (todo : List Chunk) (d d' : Decoder) : Prop where
  published : d'.published.flatten = d.published.flatten ++ (todo.map (·.data)).flatten
  pieces : last = none → d'.published = d.published ++ todo.map (·.data)
  drained : d'.recvEvbuf = []
  idle : d'.chunkedSize = 0

theorem Awaits.taken {todo : List Chunk} {d : Decoder} {k : Nat} (h : Awaits last todo d [] k) :
    Taken last todo d d := by
  have hnil : todo = [] ∧ d.recvEvbuf = [] ∧ d.chunkedSize = 0 := by
    cases h with
    | @chunk todo _ _ hbuf hsize hrest =>
      cases todo with
      | nil => exact ⟨rfl, hbuf, hsize⟩
      | cons c todo =>
        have hlen := congrArg List.length hrest
        rw [length_coded_cons, List.length_nil] at hlen
        omega
    | body hlt hsize hrest =>
      have hlen := congrArg List.length hrest
      simp only [List.length_append, length_crlf, List.length_nil] at hlen
      omega
    | finish hlast hlt hsize hrest =>
      have hlen := congrArg List.length hrest
      simp only [List.length_append, length_crlf, List.length_nil] at hlen
      omega
    | done hlast hbuf hsize hrest => exact ⟨rfl, hbuf, hsize⟩
  obtain ⟨rfl, hbuf, hsize⟩ := hnil
  exact
    { published := (List.append_nil _).symm
      pieces := fun _ ↦ (List.append_nil _).symm
      drained := hbuf
      idle := hsize }

/-- A decoder that is still at work when all has come has published all, and it is just where no
read event has ended the session. -/
theorem Awaits.readAll {todo : List Chunk} {d : Decoder} {reads : List Bytes} {k : Nat}
    (h : Awaits last todo d reads.flatten k) (hlive : d.ending = none) (hreads : [] ∉ reads) :
    ((readAll (publishDataFromChunk onError) d reads).ending = none ↔ Uncut todo last k reads) ∧
      ((readAll (publishDataFromChunk onError) d reads).ending = none →
        Taken last todo d (readAll (publishDataFromChunk onError) d reads)) := by
  induction reads generalizing todo d k with
  | nil =>
    refine ⟨iff_of_true hlive ?_, fun _ ↦ h.taken⟩
    intro front data hfront
    exact absurd (List.prefix_nil.1 hfront) (by simp)
  | cons data reads ih =>
    rw [List.mem_cons, not_or] at hreads
    have hlen := h.length
    obtain ⟨taken, left, k', rfl, hpub, hflat, hlen', hend⟩ :
        Outcome onError last data.length todo d _ reads.flatten :=
          h.outcome hlive (Ne.symm hreads.1)
    have hk : k + data.length = (coded taken none).length + k' := by
      rw [List.flatten_cons, List.length_append] at hlen
      omega
    rw [uncut_cons, hk, halts_append, uncut_append, Chunked.readAll, List.foldl_cons]
    obtain ⟨hlive', hawaits, hnot⟩ | ⟨hended, hhalts⟩ := hend
    · obtain ⟨hiff, htaken⟩ := ih hawaits hlive' hreads.2
      refine ⟨hiff.trans (and_iff_right hnot).symm, fun hnone ↦ ?_⟩
      have hrest := htaken hnone
      refine
        { hrest with
          published := hrest.published.trans ?_
          pieces := fun hlast ↦ (hrest.pieces hlast).trans ?_ }
      · rw [hflat, List.map_append, List.flatten_append, List.append_assoc]
      · rw [hpub hlast, List.map_append, List.append_assoc]
    · have hne : (readCallback (publishDataFromChunk onError) d data).ending ≠ none := by
        rw [hended]
        exact Option.some_ne_none onError
      rw [← Chunked.readAll, readAll_ended hne]
      exact ⟨iff_of_false hne fun hcut ↦ hcut.1 hhalts, fun hnone ↦ absurd hnone hne⟩

theorem coded_chunk (ps : List Payload) : coded (ps.map Payload.chunk) none = stream ps := by
  rw [coded, List.flatMap_map, lastChunk, List.append_nil]
  rfl

theorem inLine_chunk (ps : List Payload) (p : Nat) :
    InLine (ps.map Payload.chunk) p ↔ InSizeLine ps p := by
  induction ps generalizing p with
  | nil => exact Iff.rfl
  | cons q ps ih => exact or_congr_right (and_congr_right fun _ ↦ ih _)

theorem not_inSizeLine_zero (ps : List Payload) : ¬ InSizeLine ps 0 := by
  cases ps with
  | nil => exact id
  | cons q ps =>
    have hlen := length_bytes q.chunk
    intro hin
    obtain ⟨hlt, _⟩ | ⟨hle, _⟩ := hin
    · exact absurd hlt (lt_irrefl 0)
    · change q.chunk.bytes.length ≤ 0 at hle
      omega

theorem uncut_chunk (ps : List Payload) (reads : List Bytes) :
    Uncut (ps.map Payload.chunk) none 0 reads ↔
      ∀ front, front <+: reads → ¬ InSizeLine ps front.flatten.length := by
  have hhalts (n p : Nat) : Halts (ps.map Payload.chunk) none n p ↔ InSizeLine ps p := by
    rw [Halts, inLine_chunk]
    exact or_iff_left fun ⟨l, hl, _⟩ ↦ by cases hl
  simp only [Uncut, hhalts, Nat.zero_add]
  constructor
  · intro h front hfront
    obtain rfl | ⟨front, data, rfl⟩ := List.eq_nil_or_concat' front
    · exact not_inSizeLine_zero ps
    · exact h front data hfront
  · exact fun h front data hfront ↦ h (front ++ [data]) hfront

structure Delivered (ps : List Payload) (d : Decoder) : Prop where
  published : d.published = ps.map Payload.data
  live : d.ending = none
  drained : d.recvEvbuf = []
  idle : d.chunkedSize = 0

theorem readAll_stream (onError : Ending) (ps : List Payload) (f : Fragmentation (stream ps)) :
    Delivered ps (readAll (publishDataFromChunk onError) {} f.reads) ↔
      ∀ front, front <+: f.reads → ¬ InSizeLine ps front.flatten.length := by
  have hstart : Awaits none (ps.map Payload.chunk) {} f.reads.flatten 0 :=
    .chunk rfl rfl (f.flatten.trans (coded_chunk ps).symm)
  obtain ⟨hiff, htaken⟩ := @Awaits.readAll onError none _ {} _ 0 hstart rfl f.nonempty
  rw [← uncut_chunk, ← hiff]
  refine ⟨Delivered.live, fun hlive ↦ ?_⟩
  obtain ⟨_, hpieces, hdrained, hidle⟩ := htaken hlive
  refine { published := (hpieces rfl).trans ?_, live := hlive, drained := hdrained, idle := hidle }
  rw [List.nil_append, List.map_map]
  rfl

/-- Both sessions publish exactly the payloads, for exactly those read events that never end within
a size line. -/
theorem chunked_round_trip (ps : List Payload) (f : Fragmentation (stream ps)) :
    (Delivered ps (readAll ServerNtrip.publishDataFromChunk {} f.reads) ↔
        ∀ front, front <+: f.reads → ¬ InSizeLine ps front.flatten.length) ∧
      (Delivered ps (readAll RelayPull.publishDataFromChunk {} f.reads) ↔
        ∀ front, front <+: f.reads → ¬ InSizeLine ps front.flatten.length) :=
  ⟨readAll_stream .stop ps f, readAll_stream .scheduleRetry ps f⟩

def abc : Payload where
  data := [97, 98, 99]
  nonempty := nofun
  fits := by decide

def cutSize : Fragmentation (stream [abc]) where
  reads := [[51], [13, 10, 97, 98, 99, 13, 10]]
  nonempty := by decide
  flatten := by decide +kernel

theorem not_chunked_round_trip :
    ¬ Delivered [abc] (readAll ServerNtrip.publishDataFromChunk {} cutSize.reads) ∧
      ¬ Delivered [abc] (readAll RelayPull.publishDataFromChunk {} cutSize.reads) := by
  have hcut : ¬ ∀ front, front <+: cutSize.reads → ¬ InSizeLine [abc] front.flatten.length := by
    intro h
    exact h [[51]] ⟨_, rfl⟩ (.inl ⟨by decide, by decide +kernel⟩)
  exact ⟨fun h ↦ hcut ((readAll_stream .stop [abc] cutSize).mp h),
    fun h ↦ hcut ((readAll_stream .scheduleRetry [abc] cutSize).mp h)⟩

end NavCaster.Session.Chunked
