import NavCaster.Base.MessageInterval
import NavCaster.Base.Station
import NavCaster.Library.Resume

namespace NavCaster.Base.Extraction

open NavCaster.Library
open NavCaster.Library.Strto (Bytes)
open NavCaster.Base.Rtcm
open NavCaster.Base.Station

def next (data : Bytes) : Option (List Bytes × Nat) :=
  if data.length ≤ msgMinLength then none
  else
    let n := checkHeader data
    if n = 0 then some ([], 1)
    else if n > data.length then none
    else if crcMatches data then some ([data.take n], n) else some ([], 1)

variable {data msg : Bytes} {out : List Bytes} {n : Nat}

theorem checkHeader_append (more : Bytes) (h : 3 ≤ data.length) :
    checkHeader (data ++ more) = checkHeader data := by
  obtain _ | ⟨b₀, _ | ⟨b₁, _ | ⟨b₂, rest⟩⟩⟩ := data
  · simp at h
  · simp at h
  · simp at h
  · by_cases hb : b₀ = 0xD3
    · subst hb
      rfl
    · simp [checkHeader, hb]

theorem parity_append (more : Bytes) (h : 3 ≤ data.length) :
    parity (data ++ more) = parity data := by
  obtain _ | ⟨b₀, _ | ⟨b₁, _ | ⟨b₂, rest⟩⟩⟩ := data
  · simp at h
  · simp at h
  · simp at h
  · rfl

theorem crcMatches_append (more : Bytes) (hstart : checkHeader data ≠ 0)
    (hlen : checkHeader data ≤ data.length) : crcMatches (data ++ more) = crcMatches data := by
  have hsix := le_checkHeader hstart
  have hdrop : 3 ≤ (data.drop (checkHeader data - 3)).length := by
    rw [List.length_drop]
    omega
  simp only [crcMatches]
  rw [checkHeader_append more (by omega), List.drop_append_of_le_length (by omega),
    List.take_append_of_le_length (by omega), parity_append more hdrop]

theorem checkHeader_take (hstart : checkHeader data ≠ 0) (hlen : checkHeader data ≤ data.length) :
    checkHeader (data.take (checkHeader data)) = checkHeader data := by
  have hsix := le_checkHeader hstart
  have htake : 3 ≤ (data.take (checkHeader data)).length := by
    rw [List.length_take]
    omega
  rw [← checkHeader_append (data.drop (checkHeader data)) htake, List.take_append_drop]

theorem extracted_take (hstart : checkHeader data ≠ 0) (hlen : checkHeader data ≤ data.length)
    (hcheck : crcMatches data = true) : Extracted (data.take (checkHeader data)) := by
  have htake := checkHeader_take hstart hlen
  have hlength : (data.take (checkHeader data)).length = checkHeader data :=
    List.length_take_of_le hlen
  have hstart' : checkHeader (data.take (checkHeader data)) ≠ 0 :=
    fun h ↦ hstart (htake.symm.trans h)
  have hlength' := htake.trans hlength.symm
  refine { start := hstart', length := hlength', check := ?_ }
  have happ := crcMatches_append (data.drop (checkHeader data)) hstart' hlength'.le
  rw [List.take_append_drop] at happ
  exact happ.symm.trans hcheck

/-- A round waits for more, drops a byte, or takes a message. -/
theorem next_cases (data : Bytes) :
    next data = none ∨
    (next data = some ([], 1) ∧ 3 < data.length) ∨
    ∃ msg rest, next data = some ([msg], msg.length) ∧ data = msg ++ rest ∧ Extracted msg := by
  unfold next
  by_cases hmin : data.length ≤ msgMinLength
  · exact .inl (if_pos hmin)
  have hlong : 3 < data.length := Nat.lt_of_not_le hmin
  by_cases hstart : checkHeader data = 0
  · refine .inr (.inl ⟨?_, hlong⟩)
    simp [hmin, hstart]
  by_cases hlen : checkHeader data > data.length
  · left
    simp [hmin, hstart, hlen]
  by_cases hcheck : crcMatches data = true
  · refine .inr (.inr ⟨data.take (checkHeader data), data.drop (checkHeader data), ?_,
      (List.take_append_drop _ _).symm, extracted_take hstart (Nat.le_of_not_lt hlen) hcheck⟩)
    rw [List.length_take_of_le (Nat.le_of_not_lt hlen)]
    simp [hmin, hstart, hlen, hcheck]
  · refine .inr (.inl ⟨?_, hlong⟩)
    simp [hmin, hstart, hlen, hcheck]

theorem next_append (more : Bytes) (h : next data = some (out, n)) :
    next (data ++ more) = some (out, n) := by
  have hmin : ¬ data.length ≤ msgMinLength := by
    intro hmin
    simp [next, hmin] at h
  have hlong : 3 < data.length := Nat.lt_of_not_le hmin
  have hmore : ¬ (data ++ more).length ≤ msgMinLength := by
    rw [List.length_append]
    exact fun hle ↦ hmin (by omega)
  simp only [next] at h ⊢
  rw [if_neg hmin] at h
  rw [if_neg hmore, checkHeader_append more (Nat.le_of_lt hlong)]
  by_cases hstart : checkHeader data = 0
  · simpa [hstart] using h
  by_cases hlen : checkHeader data > data.length
  · simp [hstart, hlen] at h
  have hle : checkHeader data ≤ data.length := Nat.le_of_not_lt hlen
  have hle' : checkHeader data ≤ data.length + more.length := Nat.le_add_right_of_le hle
  rw [crcMatches_append more hstart hle, List.take_append_of_le_length hle]
  simpa [hstart, hlen, hle'] using h

def scanner : Scanner UInt8 Bytes where
  next := next
  pos buf out n h := by
    rcases next_cases buf with hnone | ⟨hskip, -⟩ | ⟨msg, rest, htake, -, hmsg⟩
    · simp [hnone] at h
    · cases hskip.symm.trans h
      exact Nat.one_pos
    · cases htake.symm.trans h
      exact hmsg.length ▸ Nat.pos_of_ne_zero hmsg.start
  le buf out n h := by
    rcases next_cases buf with hnone | ⟨hskip, hlen⟩ | ⟨msg, rest, htake, hbuf, hmsg⟩
    · simp [hnone] at h
    · cases hskip.symm.trans h
      omega
    · cases htake.symm.trans h
      rw [hbuf, List.length_append]
      exact Nat.le_add_right _ _
  stable _ _ _ _ h := next_append _ h

variable {st st' : DecodeRtcm} {clock : Nat → Int} {now : Int} {reverse : Bool} {fuel : Nat}

theorem isSome_decodeMessage (id : Nat) : (st.decodeMessage now id).isSome ↔
    ∀ decoder, fieldDecoder id = some decoder → (decodeFields decoder st.msg).isSome := by
  obtain ⟨stat, -, hrecord⟩ := MessageInterval.exists_recordStat st.msgStats id now
  simp only [DecodeRtcm.decodeMessage, hrecord]
  cases fieldDecoder id with
  | none => simp
  | some decoder => simp

theorem decodeMessage_some {id : Nat} (h : st.decodeMessage now id = some st') :
    st'.data = st.data ∧ st'.recycleFront = st.recycleFront ∧
      recordStat st.msgStats id now = some st'.msgStats := by
  obtain ⟨stat, -, hrecord⟩ := MessageInterval.exists_recordStat st.msgStats id now
  simp only [DecodeRtcm.decodeMessage, hrecord] at h
  cases hid : fieldDecoder id with
  | none =>
    rw [hid] at h
    cases h
    exact ⟨rfl, rfl, hrecord⟩
  | some decoder =>
    rw [hid] at h
    obtain ⟨station, -, rfl⟩ := Option.map_eq_some_iff.mp h
    exact ⟨rfl, rfl, hrecord⟩

theorem loop_stop (hfront : st.recycleFront = []) (h : next st.data = none) :
    ∃ s, loop clock false fuel st = { left := some s } ∧ s.data = [] ∧ s.recycleFront = st.data ∧
      s.msgStats = st.msgStats := by
  have hfinish : (st.finish false).recycleFront = st.data := by
    simp [DecodeRtcm.finish, hfront]
  cases fuel with
  | zero => exact ⟨st.finish false, rfl, rfl, hfinish, rfl⟩
  | succ fuel =>
    by_cases hmin : st.data.length ≤ msgMinLength
    · exact ⟨st.finish false, by simp [loop, hmin], rfl, hfinish, rfl⟩
    by_cases hstart : checkHeader st.data = 0
    · simp [next, hmin, hstart] at h
    by_cases hlen : checkHeader st.data > st.data.length
    · refine ⟨{ st with data := [], recycleFront := st.data ++ st.recycleFront }, ?_, rfl, ?_, rfl⟩
      · simp only [loop, hmin, hstart, hlen, if_true, if_false]
      · simp [hfront]
    · by_cases hcheck : crcMatches st.data = true <;> simp [next, hmin, hstart, hlen, hcheck] at h

theorem loop_skip (h : next st.data = some ([], n)) :
    loop clock reverse (fuel + 1) st = loop clock reverse fuel st.dropFront := by
  by_cases hmin : st.data.length ≤ msgMinLength
  · simp [next, hmin] at h
  by_cases hstart : checkHeader st.data = 0
  · simp only [loop, hmin, hstart, if_true, if_false]
  by_cases hlen : checkHeader st.data > st.data.length
  · simp [next, hmin, hstart, hlen] at h
  by_cases hcheck : crcMatches st.data = true
  · simp [next, hmin, hstart, hlen, hcheck] at h
  · have hdata : st.data ≠ [] := by
      intro hnil
      simp [hnil] at hmin
    have hget : st.getMessage = (0, st) := by
      simp [DecodeRtcm.getMessage, hcheck]
    simp only [loop, hmin, hstart, hlen, hget, hdata, if_true, if_false]

theorem loop_take {rest : Bytes} (hdata : st.data = msg ++ rest) (hmsg : Extracted msg) :
    loop clock reverse (fuel + 1) st =
      if messageNumber msg = 0 then
        if rest = [] then { left := none }
        else loop clock reverse fuel { st with msg, data := rest }.dropFront
      else
        match { st with msg, data := rest }.decodeMessage (clock fuel) (messageNumber msg) with
        | none => { passed := [msg], left := none }
        | some st' =>
          let r := loop clock reverse fuel { st' with msg := [] }
          { r with passed := msg :: r.passed } := by
  have hsix := hmsg.length ▸ le_checkHeader hmsg.start
  have hstart : checkHeader st.data = msg.length := by
    rw [hdata, checkHeader_append rest (by omega), hmsg.length]
  have hcheck : crcMatches st.data = true := by
    rw [hdata, crcMatches_append rest hmsg.start hmsg.length.le, hmsg.check]
  have hmin : ¬ st.data.length ≤ msgMinLength := by
    rw [hdata, List.length_append]
    unfold msgMinLength
    omega
  have hlen : ¬ msg.length > st.data.length := by
    rw [hdata, List.length_append]
    omega
  have hzero : msg.length ≠ 0 := by omega
  have htake : st.data.take msg.length = msg := by
    rw [hdata, List.take_left]
  have hdrop : st.data.drop msg.length = rest := by
    rw [hdata, List.drop_left]
  have hget : st.getMessage = (messageNumber msg, { st with msg, data := rest }) := by
    simp [DecodeRtcm.getMessage, hcheck, hstart, htake, hdrop]
  rw [loop, if_neg hmin]
  dsimp only
  rw [hstart, if_neg hzero, if_neg hlen]
  exact hget.symm ▸ rfl

/-- The fields that are read for the number are in the message. -/
def Complete (msg : Bytes) : Prop := fieldLength (messageNumber msg) ≤ payloadLength msg

instance : DecidablePred Complete := fun _ ↦ Nat.decLe _ _

theorem isSome_decodeMessage_iff (hmsg : Extracted st.msg) :
    (st.decodeMessage now (messageNumber st.msg)).isSome ↔ Complete st.msg :=
  (isSome_decodeMessage _).trans (isSome_fieldDecoder (hmsg.length ▸ le_checkHeader hmsg.start) _)

def readUpTo : List Bytes → List Bytes × Bool
  | [] => ([], true)
  | msg :: msgs =>
    if Complete msg then (msg :: (readUpTo msgs).1, (readUpTo msgs).2) else ([msg], false)

theorem readUpTo_append (msgs msgs' : List Bytes) :
    readUpTo (msgs ++ msgs') =
      if (readUpTo msgs).2 then ((readUpTo msgs).1 ++ (readUpTo msgs').1, (readUpTo msgs').2)
      else readUpTo msgs := by
  induction msgs with
  | nil => rfl
  | cons msg msgs ih =>
    by_cases hmsg : Complete msg
    · simp only [List.cons_append, readUpTo, hmsg, if_true, ih]
      split <;> rfl
    · simp [readUpTo, hmsg]

theorem readUpTo_snd {msgs : List Bytes} :
    (readUpTo msgs).2 = true ↔ ∀ msg ∈ msgs, Complete msg := by
  induction msgs with
  | nil => simp [readUpTo]
  | cons msg msgs ih => by_cases hmsg : Complete msg <;> simp [readUpTo, hmsg, ih]

theorem readUpTo_fst {msgs : List Bytes} (h : ∀ msg ∈ msgs, Complete msg) :
    (readUpTo msgs).1 = msgs := by
  induction msgs with
  | nil => rfl
  | cons msg msgs ih =>
    rw [List.forall_mem_cons] at h
    simp [readUpTo, h.1, ih h.2]

structure Reads (found : List Bytes × Bytes) (r : Run) : Prop where
  passed : r.passed = (readUpTo found.1).1
  left : r.left.map (fun st ↦ (st.data, st.recycleFront)) =
    if (readUpTo found.1).2 then some ([], found.2) else none

theorem reads_cons {msgs : List Bytes} {rest : Bytes} {r : Run} (hmsg : Complete msg)
    (h : Reads (msgs, rest) r) :
    Reads (msg :: msgs, rest) { r with passed := msg :: r.passed } where
  passed := by simp [readUpTo, hmsg, h.passed]
  left := by simp [readUpTo, hmsg, h.left]

theorem reads_cut {msgs : List Bytes} {rest : Bytes} (hmsg : ¬ Complete msg) :
    Reads (msg :: msgs, rest) { passed := [msg], left := none } where
  passed := by simp [readUpTo, hmsg]
  left := by simp [readUpTo, hmsg]

theorem reads_stop (hfront : st.recycleFront = []) (h : next st.data = none) :
    Reads (scanner.scan st.data) (loop clock false fuel st) := by
  obtain ⟨s, hloop, hs, hrest, -⟩ := loop_stop hfront h
  rw [Scanner.scan_none (S := scanner) h, hloop]
  exact { passed := rfl, left := by simp [readUpTo, hs, hrest] }

theorem reads_loop (st : DecodeRtcm) (hfuel : st.data.length ≤ fuel) (hfront : st.recycleFront = [])
    (hnumber : ∀ msg ∈ (scanner.scan st.data).1, messageNumber msg ≠ 0) :
    Reads (scanner.scan st.data) (loop clock false fuel st) := by
  induction fuel generalizing st with
  | zero =>
    have hdata : st.data = [] := List.eq_nil_of_length_eq_zero (Nat.le_zero.mp hfuel)
    exact reads_stop hfront (by simp [next, hdata])
  | succ fuel ih =>
    rcases next_cases st.data with hnone | ⟨hskip, hlong⟩ | ⟨msg, rest, htake, hdata, hmsg⟩
    · exact reads_stop hfront hnone
    · have hscan := Scanner.scan_some (S := scanner) hskip
      rw [List.nil_append, List.drop_one] at hscan
      rw [hscan] at hnumber ⊢
      rw [loop_skip hskip]
      refine ih st.dropFront ?_ hfront hnumber
      change st.data.tail.length ≤ fuel
      rw [List.length_tail]
      omega
    · have hscan := Scanner.scan_some (S := scanner) htake
      have hdrop : st.data.drop msg.length = rest := by
        rw [hdata, List.drop_left]
      rw [hdrop, List.singleton_append] at hscan
      rw [hscan] at hnumber ⊢
      have hzero : messageNumber msg ≠ 0 := hnumber msg List.mem_cons_self
      have hrest : ∀ m ∈ (scanner.scan rest).1, messageNumber m ≠ 0 := fun m hm ↦
        hnumber m (List.mem_cons_of_mem _ hm)
      have hlen : rest.length ≤ fuel := by
        have hsix := hmsg.length ▸ le_checkHeader hmsg.start
        rw [hdata, List.length_append] at hfuel
        omega
      have hsome :
          ({ st with msg, data := rest }.decodeMessage (clock fuel) (messageNumber msg)).isSome ↔
          Complete msg := isSome_decodeMessage_iff hmsg
      rw [loop_take hdata hmsg, if_neg hzero]
      split
      · next hnone =>
        rw [hnone] at hsome
        exact reads_cut fun h ↦ Bool.false_ne_true (hsome.mpr h)
      · next st' hst' =>
        rw [hst'] at hsome
        obtain ⟨hdata', hfront', -⟩ := decodeMessage_some hst'
        replace hdata' : st'.data = rest := hdata'
        subst hdata'
        exact reads_cons (hsome.mp rfl)
          (ih { st' with msg := [] } hlen (hfront'.trans hfront) hrest)

def decodeAll (st : DecodeRtcm) : List ((Nat → Int) × Bytes) → Run
  | [] => { left := some st }
  | (clock, chunk) :: chunks =>
    let r := st.decode clock chunk
    match r.left with
    | none => r
    | some st' =>
      let r' := decodeAll st' chunks
      { r' with passed := r.passed ++ r'.passed }

def stream (chunks : List ((Nat → Int) × Bytes)) : Bytes := (chunks.map Prod.snd).flatten

theorem checkHeader_le (data : Bytes) : checkHeader data ≤ 1029 := by
  unfold checkHeader
  split
  · next b₁ b₂ rest =>
    have hhigh : (b₁ &&& 3).toNat <<< 8 < 2 ^ 10 := by
      have hand : (b₁ &&& 3).toNat ≤ 3 := by
        rw [UInt8.toNat_and]
        exact Nat.and_le_right
      rw [Nat.shiftLeft_eq]
      omega
    have hlow : b₂.toNat < 2 ^ 10 := b₂.toNat_lt.trans (by decide)
    have hor := Nat.or_lt_two_pow hhigh hlow
    omega
  · exact Nat.zero_le _

theorem next_none (h : next data = none) : data.length < msgMaxRecycle := by
  have hmax := checkHeader_le data
  unfold msgMaxRecycle
  by_cases hmin : data.length ≤ msgMinLength
  · unfold msgMinLength at hmin
    omega
  by_cases hstart : checkHeader data = 0
  · simp [next, hmin, hstart] at h
  by_cases hlen : checkHeader data > data.length
  · omega
  · by_cases hcheck : crcMatches data = true <;> simp [next, hmin, hstart, hlen, hcheck] at h

theorem reads_decode (st : DecodeRtcm) (clock : Nat → Int) {chunk : Bytes} (hdata : st.data = [])
    (hfront : next st.recycleFront = none)
    (hnumber : ∀ msg ∈ (scanner.scan (st.recycleFront ++ chunk)).1, messageNumber msg ≠ 0) :
    Reads (scanner.scan (st.recycleFront ++ chunk)) (st.decode clock chunk) := by
  have hpending : st.pending chunk false = st.recycleFront ++ chunk := by
    have hlt := next_none hfront
    simp [DecodeRtcm.pending, hdata, Nat.not_lt.mpr hlt.le]
  unfold DecodeRtcm.decode
  rw [← hpending] at hnumber ⊢
  exact reads_loop { st with data := _, recycleBack := [], recycleFront := [] } le_rfl rfl hnumber

theorem reads_append {found : List Bytes × Bytes} {msgs : List Bytes} {r r' : Run}
    (h : Reads found r) (hst : r.left = some st) (h' : Reads (msgs, data) r') :
    Reads (found.1 ++ msgs, data) { r' with passed := r.passed ++ r'.passed } := by
  have hall : (readUpTo found.1).2 = true := by
    by_contra hnot
    have hleft := h.left
    simp [hst, hnot] at hleft
  exact
    { passed := by simp [readUpTo_append, hall, h.passed, h'.passed]
      left := by simp [readUpTo_append, hall, h'.left] }

theorem reads_feed (st : DecodeRtcm) (chunks : List ((Nat → Int) × Bytes)) (hdata : st.data = [])
    (hfront : next st.recycleFront = none)
    (hnumber :
      ∀ msg ∈ (scanner.feed st.recycleFront (chunks.map Prod.snd)).1, messageNumber msg ≠ 0) :
    Reads (scanner.feed st.recycleFront (chunks.map Prod.snd)) (decodeAll st chunks) := by
  induction chunks generalizing st with
  | nil => exact { passed := rfl, left := by simp [decodeAll, Scanner.feed, readUpTo, hdata] }
  | cons p chunks ih =>
    obtain ⟨clock, chunk⟩ := p
    simp only [List.map_cons, Scanner.feed] at hnumber ⊢
    have hreads := reads_decode st clock hdata hfront fun msg hmsg ↦
      hnumber msg (List.mem_append_left _ hmsg)
    simp only [decodeAll]
    split
    · next hnone =>
      have hall : ¬ (readUpTo (scanner.scan (st.recycleFront ++ chunk)).1).2 = true := by
        intro hall
        have hleft := hreads.left
        simp [hnone, hall] at hleft
      exact
        { passed := by simp [readUpTo_append, hall, hreads.passed]
          left := by simp [readUpTo_append, hall, hnone] }
    · next st' hst' =>
      have hleft := hreads.left
      simp only [hst', Option.map_some] at hleft
      split at hleft
      · obtain ⟨hdata', hfront'⟩ := Prod.mk.inj (Option.some.inj hleft)
        rw [← hfront'] at hnumber ⊢
        refine reads_append hreads hst' (ih st' hdata' ?_ fun msg hmsg ↦
          hnumber msg (List.mem_append_right _ hmsg))
        exact hfront' ▸ scanner.next_scan _
      · cases hleft

theorem reads_decodeAll (st : DecodeRtcm) (chunks : List ((Nat → Int) × Bytes))
    (hdata : st.data = []) (hfront : next st.recycleFront = none)
    (hnumber : ∀ msg ∈ (scanner.scan (st.recycleFront ++ stream chunks)).1, messageNumber msg ≠ 0) :
    Reads (scanner.scan (st.recycleFront ++ stream chunks)) (decodeAll st chunks) := by
  rw [stream, ← Scanner.feed_eq (S := scanner) hfront] at hnumber ⊢
  exact reads_feed st chunks hdata hfront hnumber

theorem mem_scan (h : msg ∈ (scanner.scan data).1) : Extracted msg ∧ msg <:+: data := by
  induction hl : data.length using Nat.strongRecOn generalizing data with
  | _ l ih =>
    rcases next_cases data with hnone | ⟨hskip, hlong⟩ | ⟨msg', rest, htake, hdata, hmsg⟩
    · simp [Scanner.scan_none (S := scanner) hnone] at h
    · rw [Scanner.scan_some (S := scanner) hskip] at h
      obtain ⟨hmsg, hin⟩ := ih (data.drop 1).length (by rw [List.length_drop]; omega) h rfl
      exact ⟨hmsg, hin.trans (List.drop_suffix 1 data).isInfix⟩
    · have hpos : 0 < msg'.length := hmsg.length ▸ Nat.pos_of_ne_zero hmsg.start
      rw [Scanner.scan_some (S := scanner) htake, hdata, List.drop_left, List.singleton_append] at h
      rcases List.mem_cons.mp h with rfl | hrest
      · exact ⟨hmsg, hdata ▸ (List.prefix_append _ _).isInfix⟩
      · obtain ⟨hmsg', hin⟩ :=
          ih rest.length (by rw [← hl, hdata, List.length_append]; omega) hrest rfl
        exact ⟨hmsg', hin.trans (hdata ▸ (List.suffix_append _ _).isInfix)⟩

/-- The runs pass on the same messages and leave the same bytes. -/
structure Agrees (r r' : Run) : Prop where
  passed : r.passed = r'.passed
  left : ∃ st st', r.left = some st ∧ r'.left = some st' ∧ st.data = st'.data ∧
    st.recycleFront = st'.recycleFront

/-- The messages of a stream: a byte that starts none is passed over. -/
def messages (data : Bytes) : List Bytes := (scanner.scan data).1

theorem Reads.left_iff {found : List Bytes × Bytes} {r : Run} (h : Reads found r) :
    (∃ st, r.left = some st) ↔ (readUpTo found.1).2 = true := by
  rw [← Option.isSome_iff_exists, ← Option.isSome_map (f := fun st ↦ (st.data, st.recycleFront)),
    h.left]
  split <;> simp_all

/-- No partition of the stream makes a difference, as long as nothing behind a message is read. -/
theorem agrees_iff (chunks : List ((Nat → Int) × Bytes)) (clock : Nat → Int)
    (hnumber : ∀ msg, msg <:+: stream chunks → Extracted msg → messageNumber msg ≠ 0) :
    Agrees (decodeAll {} chunks) (({} : DecodeRtcm).decode clock (stream chunks)) ↔
      ∀ msg ∈ messages (stream chunks), Complete msg := by
  have hfound : ∀ msg ∈ messages (stream chunks), messageNumber msg ≠ 0 := fun msg hmsg ↦
    hnumber msg (mem_scan hmsg).2 (mem_scan hmsg).1
  have hparts := reads_decodeAll {} chunks rfl rfl hfound
  have hwhole := reads_decode {} clock rfl rfl hfound
  constructor
  · intro h
    obtain ⟨st, -, hst, -⟩ := h.left
    exact readUpTo_snd.mp (hparts.left_iff.mp ⟨st, hst⟩)
  · intro h
    have hall := readUpTo_snd.mpr h
    obtain ⟨st, hst⟩ := hparts.left_iff.mpr hall
    obtain ⟨st', hst'⟩ := hwhole.left_iff.mpr hall
    refine { passed := hparts.passed.trans hwhole.passed.symm, left := ⟨st, st', hst, hst', ?_⟩ }
    have hleft := hparts.left.trans hwhole.left.symm
    rw [hst, hst'] at hleft
    simpa using hleft

theorem numbered_of_tails (h : ∀ t ∈ data.tails, ∀ msg ∈ t.inits, checkHeader msg ≠ 0 →
    checkHeader msg = msg.length → crcMatches msg = true → messageNumber msg ≠ 0) :
    ∀ msg, msg <:+: data → Extracted msg → messageNumber msg ≠ 0 := by
  intro msg hin hmsg
  obtain ⟨t, hstart, hsuffix⟩ := List.infix_iff_prefix_suffix.mp hin
  exact h t ((List.mem_tails _ _).mpr hsuffix) msg ((List.mem_inits _ _).mpr hstart) hmsg.start
    hmsg.length hmsg.check

def halves : List ((Nat → Int) × Bytes) :=
  [(fun _ ↦ 0, [0x0A, 0xD3, 0, 2, 0x3E]), (fun _ ↦ 1, [0xF0, 168, 49, 233])]

theorem agrees_halves :
    Agrees (decodeAll {} halves) (({} : DecodeRtcm).decode (fun _ ↦ 2) (stream halves)) ↔
      ∀ msg ∈ messages (stream halves), Complete msg :=
  agrees_iff halves (fun _ ↦ 2) (numbered_of_tails (by decide +kernel))

/-- A message 1005 of nothing but its number, and a message 1007 behind it. -/
def short : List ((Nat → Int) × Bytes) :=
  [(fun _ ↦ 0, [0xD3, 0, 2, 0x3E, 0xD0, 164, 224, 0]),
    (fun _ ↦ 1, [0xD3, 0, 2, 0x3E, 0xF0, 168, 49, 233])]

theorem not_agrees_short : ¬ ∀ (chunks : List ((Nat → Int) × Bytes)) (clock : Nat → Int),
    (∀ msg, msg <:+: stream chunks → Extracted msg → messageNumber msg ≠ 0) →
      Agrees (decodeAll {} chunks) (({} : DecodeRtcm).decode clock (stream chunks)) := by
  intro h
  have hshort := h short (fun _ ↦ 2) (numbered_of_tails (by decide +kernel))
  obtain ⟨st, -, hst, -⟩ := hshort.left
  have hnone : (decodeAll {} short).left.isNone = true := by decide +kernel
  rw [hst] at hnone
  cases hnone

end NavCaster.Base.Extraction
