import NavCaster.Base.Framing
import NavCaster.Library.Resume
import NavCaster.Library.Scan

namespace NavCaster.Base.Sentences

open NavCaster.Library
open NavCaster.Library.Strto
open NavCaster.Library.Scan
open NavCaster.Base.Nmea
open NavCaster.Base.Framing

/-- What the calls of `Decode` come to: the sentences handed to `decode_message`, and the decoder
behind them, unless an exception ended it. -/
structure Run where
  handled : List Bytes := []
  left : Except Exn DecodeNmea

def loop (reverse : Bool) : ℕ → DecodeNmea → Run
  | 0, st => { left := .ok (st.finish reverse) }
  | fuel + 1, st =>
    if st.data.length ≤ msgMinLength then { left := .ok (st.finish reverse) }
    else
      let n := checkHeader st.data
      if n = 0 then loop reverse fuel st.dropFront
      else if n > st.data.length then
        { left := .ok { st with data := [], recycleFront := st.data ++ st.recycleFront } }
      else
        let msg := st.data.take n
        let rest := { st with data := st.data.drop n }
        if messageId msg = 0 then loop reverse fuel rest.dropFront
        else
          match rest.decodeMessage (messageId msg) msg with
          | .error e => { handled := [msg], left := .error e }
          | .ok st' =>
            let r := loop reverse fuel st'
            { r with handled := msg :: r.handled }

def decode (st : DecodeNmea) (buffer : Bytes) (reverse : Bool := false) : Run :=
  let data := st.pending buffer reverse
  loop reverse data.length { st with data, recycleBack := [], recycleFront := [] }

def decodeAll (st : DecodeNmea) : List Bytes → Run
  | [] => { left := .ok st }
  | chunk :: chunks =>
    let r := decode st chunk
    match r.left with
    | .error _ => r
    | .ok st' =>
      let r' := decodeAll st' chunks
      { r' with handled := r.handled ++ r'.handled }

variable {data rest body msg : Bytes} {out : List Bytes} {n : ℕ}
variable {st st' : DecodeNmea} {reverse : Bool} {fuel : ℕ}

theorem left_loop (reverse : Bool) (fuel : ℕ) (st : DecodeNmea) :
    (loop reverse fuel st).left = DecodeNmea.loop reverse fuel st := by
  induction fuel generalizing st with
  | zero => rfl
  | succ fuel ih =>
    simp only [loop, DecodeNmea.loop]
    split
    · rfl
    · split
      · exact ih _
      · split
        · rfl
        · split
          · exact ih _
          · cases { st with data := st.data.drop (checkHeader st.data) }.decodeMessage
                (messageId (st.data.take (checkHeader st.data)))
                  (st.data.take (checkHeader st.data)) with
            | error e => rfl
            | ok st' => exact ih st'

theorem left_decode (st : DecodeNmea) (buffer : Bytes) (reverse : Bool) :
    (decode st buffer reverse).left = st.decode buffer reverse :=
  left_loop reverse _ _

def next (data : Bytes) : Option (List Bytes × ℕ) :=
  if data.length ≤ msgMinLength then none
  else
    let n := checkHeader data
    if n = 0 then some ([], 1)
    else if n > data.length then none
    else if messageId (data.take n) = 0 then some ([], n + 1) else some ([data.take n], n)

theorem checkHeader_whole (hbody : 13 ∉ body) (rest : Bytes) :
    checkHeader (36 :: (body ++ 13 :: 10 :: rest)) = body.length + 1 := by
  have hdrop : (36 :: (body ++ 13 :: 10 :: rest)).dropWhile (· ≠ 13) = 13 :: 10 :: rest := by
    rw [List.dropWhile_cons_of_pos (by decide), dropWhile_body hbody]
  have htake : (36 :: (body ++ 13 :: 10 :: rest)).takeWhile (· ≠ 13) = 36 :: body := by
    rw [List.takeWhile_cons_of_pos (by decide), takeWhile_body hbody]
  simp only [checkHeader, hdrop, htake, List.length_cons]

theorem checkHeader_skip {b : UInt8} (hb : b ≠ 36) (rest : Bytes) :
    checkHeader (b :: rest) = 0 := by
  unfold checkHeader
  split
  · next heq => exact absurd (List.cons.inj heq).1 hb
  · rfl

theorem take_whole (body rest : Bytes) :
    (36 :: (body ++ 13 :: 10 :: rest)).take (body.length + 1) = 36 :: body := by
  simp

theorem drop_whole (body rest : Bytes) :
    (36 :: (body ++ 13 :: 10 :: rest)).drop (body.length + 1) = 13 :: 10 :: rest := by
  simp

theorem next_skip {b : UInt8} (hb : b ≠ 36) (hlong : 3 ≤ rest.length) :
    next (b :: rest) = some ([], 1) := by
  have hmin : ¬ (b :: rest).length ≤ msgMinLength := by
    simp only [List.length_cons, msgMinLength]
    omega
  simp only [next, hmin, checkHeader_skip hb, if_true, if_false]

theorem next_whole (hbody : 13 ∉ body) (hlong : 3 < (36 :: (body ++ 13 :: 10 :: rest)).length) :
    next (36 :: (body ++ 13 :: 10 :: rest)) =
      if messageId (36 :: body) = 0 then some ([], body.length + 2)
      else some ([36 :: body], body.length + 1) := by
  have hmin : ¬ (36 :: (body ++ 13 :: 10 :: rest)).length ≤ msgMinLength := Nat.not_le.mpr hlong
  have hlen : ¬ body.length + 1 > (36 :: (body ++ 13 :: 10 :: rest)).length := by
    simp only [List.length_cons, List.length_append]
    omega
  simp only [next, hmin, checkHeader_whole hbody, take_whole, hlen, if_false, Nat.add_one_ne_zero]

inductive Round : Bytes → Prop
  | wait {data : Bytes} : next data = none → Round data
  | skip {b : UInt8} {rest : Bytes} : b ≠ 36 → 3 ≤ rest.length → Round (b :: rest)
  | whole {body rest : Bytes} : 13 ∉ body → 3 < (36 :: (body ++ 13 :: 10 :: rest)).length →
      Round (36 :: (body ++ 13 :: 10 :: rest))

theorem round (data : Bytes) : Round data := by
  by_cases hmin : data.length ≤ msgMinLength
  · exact .wait (if_pos hmin)
  have hlong : 3 < data.length := Nat.lt_of_not_le hmin
  have hne : data ≠ [] := by
    rintro rfl
    exact hmin (Nat.zero_le _)
  have hheader := header_checkHeader hne
  generalize hn : checkHeader data = n at hheader
  cases hheader with
  | none hb => exact .skip hb (Nat.le_of_lt_succ hlong)
  | whole hbody => exact .whole hbody hlong
  | short =>
    refine .wait ?_
    simp [next, hn]

theorem next_append (more : Bytes) (h : next data = some (out, n)) :
    next (data ++ more) = some (out, n) := by
  cases round data with
  | wait hnone => cases hnone.symm.trans h
  | skip hb hlong =>
    rw [next_skip hb hlong] at h
    rw [List.cons_append, next_skip hb (by rw [List.length_append]; omega), h]
  | whole hbody hlong =>
    rw [next_whole hbody hlong] at h
    simp only [List.cons_append, List.append_assoc]
    rw [next_whole hbody, h]
    simp only [List.length_cons, List.length_append] at hlong ⊢
    omega

/-- A sentence found at the front of the data, or what is passed over there. -/
def scanner : Scanner UInt8 Bytes where
  next := next
  pos buf out n h := by
    cases round buf with
    | wait hnone => cases hnone.symm.trans h
    | skip hb hlong =>
      cases (next_skip hb hlong).symm.trans h
      exact Nat.one_pos
    | whole hbody hlong =>
      rw [next_whole hbody hlong] at h
      split at h <;> cases h <;> exact Nat.succ_pos _
  le buf out n h := by
    cases round buf with
    | wait hnone => cases hnone.symm.trans h
    | skip hb hlong =>
      cases (next_skip hb hlong).symm.trans h
      exact Nat.succ_pos _
    | whole hbody hlong =>
      rw [next_whole hbody hlong] at h
      simp only [List.length_cons, List.length_append]
      split at h <;> cases h <;> omega
  stable _ _ _ _ h := next_append _ h

theorem scan_skip {b : UInt8} (hb : b ≠ 36) (hlong : 3 ≤ rest.length) :
    scanner.scan (b :: rest) = scanner.scan rest :=
  Scanner.scan_some (S := scanner) (next_skip hb hlong)

theorem scan_refused (hbody : 13 ∉ body) (hlong : 3 < (36 :: (body ++ 13 :: 10 :: rest)).length)
    (hid : messageId (36 :: body) = 0) :
    scanner.scan (36 :: (body ++ 13 :: 10 :: rest)) = scanner.scan (10 :: rest) := by
  have hnext := next_whole hbody hlong
  rw [if_pos hid] at hnext
  have hdrop : (36 :: (body ++ 13 :: 10 :: rest)).drop (body.length + 2) = 10 :: rest := by
    rw [← List.drop_drop (i := 1), drop_whole, List.drop_one, List.tail_cons]
  rw [Scanner.scan_some (S := scanner) hnext, hdrop]
  rfl

theorem scan_handled (hbody : 13 ∉ body) (hlong : 3 < (36 :: (body ++ 13 :: 10 :: rest)).length)
    (hid : messageId (36 :: body) ≠ 0) :
    scanner.scan (36 :: (body ++ 13 :: 10 :: rest)) =
      ((36 :: body) :: (scanner.scan (13 :: 10 :: rest)).1,
        (scanner.scan (13 :: 10 :: rest)).2) := by
  have hnext := next_whole hbody hlong
  rw [if_neg hid] at hnext
  rw [Scanner.scan_some (S := scanner) hnext, drop_whole]
  rfl

def fix (position : Option Gga) (msg : Bytes) : Option Gga :=
  if messageId msg = 1 then
    match decodeGGA msg with
    | .ok gga => gga.or position
    | .error _ => position
  else position

/-- No field of the sentence makes the decoder throw. -/
def Sound (msg : Bytes) : Prop := messageId msg = 1 → Convertible (splitGGA msg)

theorem decodeMessage_eq (h : Sound msg) :
    st.decodeMessage (messageId msg) msg = .ok { st with position := fix st.position msg } := by
  unfold DecodeNmea.decodeMessage fix
  split
  · next hid =>
    obtain ⟨gga, hgga⟩ := (returns_decodeGGA msg).mpr (h hid)
    rw [hgga]
    rfl
  · rfl

structure Reads (found : List Bytes × Bytes) (position : Option Gga) (r : Run) : Prop where
  handled : r.handled = found.1
  left : ∃ st, r.left = .ok st ∧ st.data = [] ∧ st.recycleFront = found.2 ∧
    st.position = found.1.foldl fix position

theorem reads_stop (hfront : st.recycleFront = []) (h : next st.data = none) :
    Reads (scanner.scan st.data) st.position (loop false fuel st) := by
  have hfinish : (st.finish false).recycleFront = st.data := by
    simp [DecodeNmea.finish, hfront]
  rw [Scanner.scan_none (S := scanner) h]
  cases fuel with
  | zero => exact { handled := rfl, left := ⟨_, rfl, rfl, hfinish, rfl⟩ }
  | succ fuel =>
    by_cases hmin : st.data.length ≤ msgMinLength
    · rw [loop, if_pos hmin]
      exact { handled := rfl, left := ⟨_, rfl, rfl, hfinish, rfl⟩ }
    by_cases hstart : checkHeader st.data = 0
    · simp [next, hmin, hstart] at h
    by_cases hlen : checkHeader st.data > st.data.length
    · simp only [loop, hmin, hstart, hlen, if_true, if_false]
      exact { handled := rfl, left := ⟨_, rfl, rfl, by simp [hfront], rfl⟩ }
    · by_cases hid : messageId (st.data.take (checkHeader st.data)) = 0 <;>
        simp [next, hmin, hstart, hlen, hid] at h

theorem reads_loop (st : DecodeNmea) (hfuel : st.data.length ≤ fuel) (hfront : st.recycleFront = [])
    (hsound : ∀ msg ∈ (scanner.scan st.data).1, Sound msg) :
    Reads (scanner.scan st.data) st.position (loop false fuel st) := by
  induction fuel generalizing st with
  | zero =>
    have hdata : st.data = [] := List.eq_nil_of_length_eq_zero (Nat.le_zero.mp hfuel)
    exact reads_stop hfront (by simp [next, hdata])
  | succ fuel ih =>
    obtain ⟨data, back, front, position⟩ := st
    dsimp only at hfuel hfront hsound ⊢
    cases round data with
    | wait hnone =>
      have hnext : next (DecodeNmea.mk data back front position).data = none := hnone
      exact reads_stop hfront hnext
    | @skip b rest hb hlong =>
      have hmin : ¬ (b :: rest).length ≤ msgMinLength := Nat.not_le.mpr (Nat.lt_succ_of_le hlong)
      rw [scan_skip hb hlong] at hsound ⊢
      rw [loop, if_neg hmin]
      dsimp only
      rw [checkHeader_skip hb, if_pos rfl]
      exact ih ⟨rest, back ++ [b], front, position⟩ (Nat.le_of_succ_le_succ hfuel) hfront hsound
    | @whole body rest hbody hlong =>
      have hmin : ¬ (36 :: (body ++ 13 :: 10 :: rest)).length ≤ msgMinLength := Nat.not_le.mpr hlong
      have hlen : ¬ body.length + 1 > (36 :: (body ++ 13 :: 10 :: rest)).length := by
        simp only [List.length_cons, List.length_append]
        omega
      have hrest : (13 :: 10 :: rest).length ≤ fuel := by
        simp only [List.length_cons, List.length_append] at hfuel ⊢
        omega
      rw [loop, if_neg hmin]
      dsimp only
      rw [checkHeader_whole hbody, if_neg (Nat.succ_ne_zero _), if_neg hlen, take_whole, drop_whole]
      by_cases hid : messageId (36 :: body) = 0
      · rw [scan_refused hbody hlong hid] at hsound ⊢
        rw [if_pos hid]
        exact ih ⟨10 :: rest, back ++ [13], front, position⟩ (Nat.le_of_succ_le hrest) hfront hsound
      · rw [scan_handled hbody hlong hid] at hsound ⊢
        rw [if_neg hid, decodeMessage_eq (hsound _ List.mem_cons_self)]
        have hreads := ih ⟨13 :: 10 :: rest, back, front, fix position (36 :: body)⟩ hrest hfront
          fun msg hmsg ↦ hsound msg (List.mem_cons_of_mem _ hmsg)
        exact { handled := congrArg _ hreads.handled, left := hreads.left }

theorem reads_decode (st : DecodeNmea) (chunk : Bytes) (hdata : st.data = [])
    (hlen : st.recycleFront.length ≤ msgMaxRecycle)
    (hsound : ∀ msg ∈ (scanner.scan (st.recycleFront ++ chunk)).1, Sound msg) :
    Reads (scanner.scan (st.recycleFront ++ chunk)) st.position (decode st chunk) := by
  have hpending : st.pending chunk false = st.recycleFront ++ chunk := by
    simp [DecodeNmea.pending, hdata, Nat.not_lt.mpr hlen]
  unfold decode
  rw [← hpending] at hsound ⊢
  exact reads_loop { st with data := _, recycleBack := [], recycleFront := [] } le_rfl rfl hsound

theorem reads_feed (st : DecodeNmea) (chunks : List Bytes) (hdata : st.data = [])
    (hlen : (st.recycleFront ++ chunks.flatten).length ≤ msgMaxRecycle)
    (hsound : ∀ msg ∈ (scanner.feed st.recycleFront chunks).1, Sound msg) :
    Reads (scanner.feed st.recycleFront chunks) st.position (decodeAll st chunks) := by
  induction chunks generalizing st with
  | nil => exact { handled := rfl, left := ⟨st, rfl, hdata, rfl, rfl⟩ }
  | cons chunk chunks ih =>
    simp only [Scanner.feed] at hsound ⊢
    simp only [List.flatten_cons, List.length_append] at hlen
    obtain ⟨hhandled, st', hst', hdata', hfront', hposition⟩ :=
      reads_decode st chunk hdata (by omega) fun msg hmsg ↦ hsound msg (List.mem_append_left _ hmsg)
    have hsuffix := (scanner.scan_suffix (st.recycleFront ++ chunk)).length_le
    simp only [decodeAll, hst']
    rw [← hfront'] at hsound hsuffix ⊢
    rw [List.length_append] at hsuffix
    have hrest := ih st' hdata' (by rw [List.length_append]; omega)
      fun msg hmsg ↦ hsound msg (List.mem_append_right _ hmsg)
    refine { handled := by rw [hhandled, hrest.handled], left := ?_ }
    obtain ⟨st'', hst'', hleft⟩ := hrest.left
    rw [hposition, ← List.foldl_append] at hleft
    exact ⟨st'', hst'', hleft⟩

theorem framed_of_mem (h : msg ∈ (scanner.scan data).1) : Framed data msg := by
  induction hl : data.length using Nat.strongRecOn generalizing data with
  | _ l ih =>
    cases round data with
    | wait hnone => simp [Scanner.scan_none (S := scanner) hnone] at h
    | @skip b rest hb hlong =>
      rw [scan_skip hb hlong] at h
      exact .skip hb (ih rest.length (hl ▸ Nat.lt_succ_self _) h rfl)
    | @whole body rest hbody hlong =>
      simp only [List.length_cons, List.length_append] at hl
      by_cases hid : messageId (36 :: body) = 0
      · rw [scan_refused hbody hlong hid] at h
        have hframed := ih (10 :: rest).length (by rw [List.length_cons]; omega) h rfl
        exact .later hbody ((framed_skip (by decide)).mp hframed)
      · rw [scan_handled hbody hlong hid] at h
        obtain rfl | h := List.mem_cons.mp h
        · exact .here hbody
        · have hframed :=
            ih (13 :: 10 :: rest).length (by simp only [List.length_cons]; omega) h rfl
          rw [framed_skip (by decide), framed_skip (by decide)] at hframed
          exact .later hbody hframed

theorem sound_of_returns (h : Returns (({} : DecodeNmea).decode data)) :
    ∀ msg ∈ (scanner.scan data).1, Sound msg := by
  have hread : Readable data := by
    simpa [DecodeNmea.pending] using (returns_decode _ _ _).mp h
  exact fun msg hmsg ↦ hread msg (framed_of_mem hmsg)

theorem reads_pieces (chunks : List Bytes) (hlen : chunks.flatten.length < 1000000)
    (hreturns : Returns (({} : DecodeNmea).decode chunks.flatten)) :
    Reads (scanner.scan chunks.flatten) none (decodeAll {} chunks) := by
  have hfeed : scanner.feed [] chunks = scanner.scan chunks.flatten :=
    Scanner.feed_eq (S := scanner) rfl chunks
  have hsound := sound_of_returns hreturns
  rw [← hfeed] at hsound ⊢
  exact reads_feed {} chunks rfl hlen.le hsound

/-- No partition of the stream makes a difference. -/
theorem decodeAll_flatten (chunks : List Bytes) (hlen : chunks.flatten.length < 1000000)
    (hreturns : Returns (({} : DecodeNmea).decode chunks.flatten)) :
    ∃ handled st st', decodeAll {} chunks = { handled, left := .ok st } ∧
      decode {} chunks.flatten = { handled, left := .ok st' } ∧
      st.position = st'.position ∧ st.data = st'.data ∧ st.recycleFront = st'.recycleFront := by
  obtain ⟨hhandled, st, hst, hdata, hfront, hposition⟩ := reads_pieces chunks hlen hreturns
  obtain ⟨hhandled', st', hst', hdata', hfront', hposition'⟩ :=
    reads_decode {} chunks.flatten rfl (Nat.zero_le _) (sound_of_returns hreturns)
  refine ⟨(scanner.scan chunks.flatten).1, st, st', ?_, ?_, hposition.trans hposition'.symm,
    hdata.trans hdata'.symm, hfront.trans hfront'.symm⟩
  · rw [← hhandled, ← hst]
  · rw [← hst']
    exact congrArg (Run.mk · _) hhandled'

instance {α : Type} (x : Except Exn α) : Decidable (Returns x) :=
  match x with
  | .ok a => isTrue ⟨a, rfl⟩
  | .error _ => isFalse nofun

def pieces : List Bytes :=
  [ascii "1,1*54", [13, 10], ascii "$GPGGA,120000,3000,N,11400,E,1,8,1,50,M,0,M,1,1*6",
    ascii "4" ++ [13], [10]]

theorem decodeAll_flatten_pieces :
    ∃ handled st st', decodeAll {} pieces = { handled, left := .ok st } ∧
    decode {} pieces.flatten = { handled, left := .ok st' } ∧
    st.position = st'.position ∧ st.data = st'.data ∧ st.recycleFront = st'.recycleFront :=
  decodeAll_flatten pieces (by decide +kernel) (by decide +kernel)

end NavCaster.Base.Sentences
