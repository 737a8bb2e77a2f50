import NavCaster.Base.Sentences

namespace NavCaster.Base.Resync

open NavCaster.Library
open NavCaster.Library.Strto
open NavCaster.Library.Scan
open NavCaster.Base.Nmea
open NavCaster.Base.Framing
open NavCaster.Base.Sentences

/-- A line with a GGA sentence: its checksum is right and none of its 15 fields is empty. -/
structure GgaLine where
  body : Bytes
  oneLine : 13 ∉ body
  gga : messageId (36 :: body) = 1
  fields : (splitGGA (36 :: body)).length = 15
  filled : ∀ field ∈ splitGGA (36 :: body), field ≠ []

namespace GgaLine

def sentence (g : GgaLine) : Bytes := 36 :: g.body

def bytes (g : GgaLine) : Bytes := 36 :: (g.body ++ [13, 10])

end GgaLine

/-- Behind the `$` there is no end of the sentence: no CR, or LF does not follow the first one. -/
def Unfinished (s : Bytes) : Prop := ∀ rest, s.dropWhile (· ≠ 13) ≠ 13 :: 10 :: rest

/-- What stands before the line: bytes that start no sentence, whole sentences, and at last one that
is open. -/
inductive Divides : Bytes → List Bytes → Bytes → Prop
  | done : Divides [] [] []
  | unfinished {s : Bytes} : Unfinished s → Divides (36 :: s) [] (36 :: s)
  | noise {b : UInt8} {s tail : Bytes} {msgs : List Bytes} :
      b ≠ 36 → Divides s msgs tail → Divides (b :: s) msgs tail
  | whole {body s tail : Bytes} {msgs : List Bytes} : 13 ∉ body → Divides s msgs tail →
      Divides (36 :: (body ++ 13 :: 10 :: s)) ((36 :: body) :: msgs) tail

def Clear (p : Bytes) : Prop := ∃ msgs, Divides p msgs []

/-- What an open sentence makes of the line: it swallows it, or its lone CR stops the decoder. -/
def joined (tail : Bytes) (g : GgaLine) : List Bytes :=
  if 13 ∈ tail then [] else [tail ++ g.sentence]

def IsReport (msg : Bytes) : Prop := messageId msg = 1 ∧ (splitGGA msg).length = 15

instance : DecidablePred IsReport := fun _ ↦ instDecidableAnd

def LastReport (p : Bytes) (g : GgaLine) (msg : Bytes) : Prop :=
  ∃ msgs tail, Divides p msgs tail ∧ ((msgs ++ joined tail g).filter IsReport).getLast? = some msg

/-- In whatever pieces it comes, what the decoder has at last is the position of the line. -/
def Resynchronizes (p : Bytes) (g : GgaLine) : Prop :=
  ∀ chunks : List Bytes, chunks.flatten = p ++ g.bytes →
    ∃ handled st gga, decodeAll {} chunks = { handled, left := .ok st } ∧
      decodeGGA g.sentence = .ok (some gga) ∧ st.position = some gga

variable {p tail more msg : Bytes} {msgs : List Bytes} {g : GgaLine}

theorem exists_divides (p : Bytes) : ∃ msgs tail, Divides p msgs tail := by
  induction hl : p.length using Nat.strongRecOn generalizing p with
  | _ l ih =>
    cases p with
    | nil => exact ⟨[], [], .done⟩
    | cons b s =>
      by_cases hb : b = 36
      · subst hb
        by_cases hend : ∃ rest, s.dropWhile (· ≠ 13) = 13 :: 10 :: rest
        · obtain ⟨rest, hrest⟩ := hend
          obtain ⟨body, hbody, rfl⟩ := exists_body hrest
          simp only [List.length_cons, List.length_append] at hl
          obtain ⟨msgs, tail, h⟩ := ih rest.length (by omega) rest rfl
          exact ⟨_, tail, .whole hbody h⟩
        · exact ⟨[], 36 :: s, .unfinished (not_exists.mp hend)⟩
      · obtain ⟨msgs, tail, h⟩ := ih s.length (hl ▸ Nat.lt_succ_self _) s rfl
        exact ⟨msgs, tail, .noise hb h⟩

theorem tail_cases (h : Divides p msgs tail) : tail = [] ∨ ∃ s, tail = 36 :: s ∧ Unfinished s := by
  induction h with
  | done => exact .inl rfl
  | unfinished hs => exact .inr ⟨_, rfl, hs⟩
  | noise _ _ ih => exact ih
  | whole _ _ ih => exact ih

theorem scan_divides (h : Divides p msgs tail) (hlong : 3 < more.length) :
    (scanner.scan (p ++ more)).1 =
      msgs.filter (messageId · ≠ 0) ++ (scanner.scan (tail ++ more)).1 := by
  induction h with
  | done => rfl
  | unfinished => rfl
  | noise hb _ ih =>
    rw [List.cons_append, scan_skip hb (by rw [List.length_append]; omega), ih]
  | @whole body s tail msgs hbody _ ih =>
    have hwhole :
        36 :: (body ++ 13 :: 10 :: s) ++ more = 36 :: (body ++ 13 :: 10 :: (s ++ more)) := by
      simp
    have hsize : 3 < (36 :: (body ++ 13 :: 10 :: (s ++ more))).length := by
      simp only [List.length_cons, List.length_append]
      omega
    have hlf : scanner.scan (10 :: (s ++ more)) = scanner.scan (s ++ more) :=
      scan_skip (by decide) (by rw [List.length_append]; omega)
    rw [hwhole]
    by_cases hid : messageId (36 :: body) = 0
    · rw [scan_refused hbody hsize hid, hlf, ih, List.filter_cons_of_neg (by simpa using hid)]
    · have hcr : scanner.scan (13 :: 10 :: (s ++ more)) = scanner.scan (10 :: (s ++ more)) :=
        scan_skip (by decide) (by rw [List.length_cons, List.length_append]; omega)
      rw [scan_handled hbody hsize hid, hcr, hlf, ih, List.filter_cons_of_pos (by simpa using hid)]
      rfl

theorem length_bytes (g : GgaLine) : 9 ≤ g.bytes.length := by
  have hid : messageId g.sentence ≠ 0 := by
    rw [GgaLine.sentence, g.gga]
    decide
  have hlen := length_of_messageId hid
  simp only [GgaLine.sentence, GgaLine.bytes, List.length_cons, List.length_append] at hlen ⊢
  omega

theorem scan_last {body : Bytes} (hbody : 13 ∉ body)
    (hlong : 3 < (36 :: (body ++ [13, 10])).length) :
    (scanner.scan (36 :: (body ++ [13, 10]))).1 = [36 :: body].filter (messageId · ≠ 0) := by
  by_cases hid : messageId (36 :: body) = 0
  · rw [scan_refused hbody hlong hid, List.filter_cons_of_neg (by simpa using hid)]
    exact congrArg Prod.fst (Scanner.scan_none (S := scanner) rfl)
  · rw [scan_handled hbody hlong hid, List.filter_cons_of_pos (by simpa using hid)]
    exact congrArg (_ :: Prod.fst ·) (Scanner.scan_none (S := scanner) rfl)

theorem next_unfinished {s : Bytes} (h : Unfinished s) : next (36 :: s) = none := by
  have hround := round (36 :: s)
  generalize hdata : 36 :: s = data at hround
  cases hround with
  | wait hnone => exact hnone
  | skip hb _ => exact absurd (List.cons.inj hdata).1.symm hb
  | whole hbody _ =>
    obtain ⟨-, rfl⟩ := List.cons.inj hdata
    exact absurd (dropWhile_body hbody) (h _)

/-- A lone CR stays one when the line comes. -/
theorem unfinished_append {s : Bytes} (h : Unfinished s) (hcr : 13 ∈ s) (g : GgaLine) :
    Unfinished (s ++ g.bytes) := by
  intro rest heq
  obtain ⟨body, after, rfl, hbody⟩ := List.eq_append_cons_of_mem hcr
  rw [List.append_assoc, List.cons_append, dropWhile_body hbody] at heq
  cases after with
  | nil => cases (List.cons.inj heq).2
  | cons b after =>
    obtain ⟨rfl, -⟩ := List.cons.inj (List.cons.inj heq).2
    exact h after (dropWhile_body hbody)

theorem scan_joined (h : Divides p msgs tail) (g : GgaLine) :
    (scanner.scan (tail ++ g.bytes)).1 = (joined tail g).filter (messageId · ≠ 0) := by
  have hlong := length_bytes g
  unfold joined
  rcases tail_cases h with rfl | ⟨s, rfl, hs⟩
  · rw [if_neg List.not_mem_nil]
    exact scan_last g.oneLine (by change 3 < g.bytes.length; omega)
  · by_cases hcr : 13 ∈ s
    · rw [if_pos (List.mem_cons_of_mem _ hcr)]
      exact congrArg Prod.fst
        (Scanner.scan_none (S := scanner) (next_unfinished (unfinished_append hs hcr g)))
    · have hjoined : 36 :: s ++ g.bytes = 36 :: (s ++ g.sentence ++ [13, 10]) := by
        simp [GgaLine.bytes, GgaLine.sentence]
      have hbody : 13 ∉ s ++ g.sentence := by
        simp [GgaLine.sentence, hcr, g.oneLine]
      rw [if_neg (by simpa using hcr), hjoined, scan_last hbody]
      · rfl
      · rw [← hjoined, List.length_append]
        omega

theorem gives_decodeGGA (msg : Bytes) :
    Gives (fun gga ↦ gga.isSome ↔ (splitGGA msg).length = 15) (decodeGGA msg) := by
  unfold decodeGGA
  split
  · next hfields =>
    refine gives_bind fun _ _ ↦ gives_bind fun _ _ ↦ gives_bind fun _ _ ↦ gives_bind fun _ _ ↦
      gives_bind fun _ _ ↦ gives_bind fun _ _ ↦ gives_bind fun _ _ ↦ gives_bind fun _ _ ↦
      gives_bind fun _ _ ↦ gives_bind fun _ _ ↦ fun gga hgga ↦ ?_
    cases hgga
    exact iff_of_true rfl (hfields ▸ rfl)
  · next hne =>
    intro gga hgga
    cases hgga
    refine iff_of_false Bool.false_ne_true fun hlen ↦ ?_
    match hfields : splitGGA msg, hlen with
    | [_, _, _, _, _, _, _, _, _, _, _, _, _, _, _], _ =>
      exact hne _ _ _ _ _ _ _ _ _ _ _ _ _ _ _ hfields

theorem fix_report (position : Option Gga) (hreport : IsReport msg) (hsound : Sound msg) :
    ∃ gga, decodeGGA msg = .ok (some gga) ∧ fix position msg = some gga := by
  obtain ⟨hid, hlen⟩ := hreport
  obtain ⟨gga, hgga⟩ := (returns_decodeGGA msg).mpr (hsound hid)
  obtain ⟨gga, rfl⟩ := Option.isSome_iff_exists.mp ((gives_decodeGGA msg gga hgga).mpr hlen)
  exact ⟨gga, hgga, by simp [fix, hid, hgga]⟩

theorem fix_other (position : Option Gga) (hreport : ¬ IsReport msg) :
    fix position msg = position := by
  unfold fix
  split
  · next hid =>
    cases hgga : decodeGGA msg with
    | error e => rfl
    | ok gga =>
      have hnone : ¬ gga.isSome :=
        fun hsome ↦ hreport ⟨hid, (gives_decodeGGA msg gga hgga).mp hsome⟩
      rw [Option.not_isSome_iff_eq_none.mp hnone]
      rfl
  · rfl

theorem foldl_fix (msgs : List Bytes) (position : Option Gga) (hsound : ∀ msg ∈ msgs, Sound msg) :
    match (msgs.filter IsReport).getLast? with
    | none => msgs.foldl fix position = position
    | some msg => ∃ gga, decodeGGA msg = .ok (some gga) ∧ msgs.foldl fix position = some gga := by
  induction msgs using List.reverseRecOn with
  | nil => rfl
  | append_singleton msgs msg ih =>
    have hinit := ih fun m hm ↦ hsound m (List.mem_append_left _ hm)
    rw [List.filter_append, List.foldl_append]
    by_cases hreport : IsReport msg
    · have hfix := fix_report (msgs.foldl fix position) hreport (hsound msg (by simp))
      simpa [hreport] using hfix
    · have hfix := fix_other (msgs.foldl fix position) hreport
      simpa [hreport, hfix] using hinit

theorem position_decodeAll {chunks : List Bytes} (hdiv : Divides p msgs tail)
    (hchunks : chunks.flatten = p ++ g.bytes) (hlen : (p ++ g.bytes).length < 1000000)
    (hreturns : Returns (({} : DecodeNmea).decode (p ++ g.bytes))) :
    ∃ handled st, decodeAll {} chunks = { handled, left := .ok st } ∧
      match ((msgs ++ joined tail g).filter IsReport).getLast? with
      | none => st.position = none
      | some msg => ∃ gga, decodeGGA msg = .ok (some gga) ∧ st.position = some gga := by
  rw [← hchunks] at hlen hreturns
  obtain ⟨hhandled, st, hst, -, -, hposition⟩ := reads_pieces chunks hlen hreturns
  have hsound := sound_of_returns hreturns
  have hfound :
      (scanner.scan chunks.flatten).1 = (msgs ++ joined tail g).filter (messageId · ≠ 0) := by
    have hlong := length_bytes g
    rw [hchunks, scan_divides hdiv (by omega), scan_joined hdiv, List.filter_append]
  have hreports : ((msgs ++ joined tail g).filter (messageId · ≠ 0)).filter IsReport =
      (msgs ++ joined tail g).filter IsReport := by
    rw [List.filter_filter]
    refine List.filter_congr fun msg _ ↦ ?_
    by_cases hreport : IsReport msg
    · simp [hreport, hreport.1]
    · simp [hreport]
  have hfold := foldl_fix _ none hsound
  rw [hfound, hreports, ← hfound, ← hposition] at hfold
  exact ⟨_, st, by rw [← hst], hfold⟩

theorem lastReport_of_clear (h : Clear p) (g : GgaLine) : LastReport p g g.sentence := by
  obtain ⟨msgs, hdiv⟩ := h
  have hreport : IsReport g.sentence := ⟨g.gga, g.fields⟩
  refine ⟨msgs, [], hdiv, ?_⟩
  simp [joined, hreport]

/-- Just where no sentence is open before the line, and where the last report reads as the line does
though one is. -/
theorem resynchronizes_iff (p : Bytes) (g : GgaLine) (hlen : (p ++ g.bytes).length < 1000000)
    (hreturns : Returns (({} : DecodeNmea).decode (p ++ g.bytes))) :
    Resynchronizes p g ↔
      Clear p ∨ ∃ msg, LastReport p g msg ∧ decodeGGA msg = decodeGGA g.sentence := by
  constructor
  · intro h
    obtain ⟨msgs, tail, hdiv⟩ := exists_divides p
    have hchunks : [p ++ g.bytes].flatten = p ++ g.bytes := by simp
    obtain ⟨handled, st, gga, hrun, hgga, hposition⟩ := h _ hchunks
    obtain ⟨handled', st', hrun', hlast⟩ := position_decodeAll hdiv hchunks hlen hreturns
    cases hrun.symm.trans hrun'
    right
    cases hmsg : ((msgs ++ joined tail g).filter IsReport).getLast? with
    | none =>
      rw [hmsg] at hlast
      cases hlast.symm.trans hposition
    | some msg =>
      rw [hmsg] at hlast
      obtain ⟨gga', hgga', hposition'⟩ := hlast
      cases hposition'.symm.trans hposition
      exact ⟨msg, ⟨msgs, tail, hdiv, hmsg⟩, hgga'.trans hgga.symm⟩
  · intro h chunks hchunks
    obtain ⟨msg, ⟨msgs, tail, hdiv, hmsg⟩, hsame⟩ :
        ∃ msg, LastReport p g msg ∧ decodeGGA msg = decodeGGA g.sentence := by
      rcases h with hclear | h
      · exact ⟨g.sentence, lastReport_of_clear hclear g, rfl⟩
      · exact h
    obtain ⟨handled, st, hrun, hlast⟩ := position_decodeAll hdiv hchunks hlen hreturns
    rw [hmsg] at hlast
    obtain ⟨gga, hgga, hposition⟩ := hlast
    exact ⟨handled, st, gga, hrun, hsame.symm.trans hgga, hposition⟩

/-- `$GPGGA,120000,3000,N,11400,E,1,8,1,50,M,0,M,1,1*64` -/
def report : GgaLine where
  body := ascii "GPGGA,120000,3000,N,11400,E,1,8,1,50,M,0,M,1,1*64"
  oneLine := by decide +kernel
  gga := by decide +kernel
  fields := by decide +kernel
  filled := by decide +kernel

theorem resynchronizes_noise : Resynchronizes [48, 13] report ↔ Clear [48, 13] ∨
    ∃ msg, LastReport [48, 13] report msg ∧ decodeGGA msg = decodeGGA report.sentence :=
  resynchronizes_iff [48, 13] report (by decide +kernel) (by decide +kernel)

/-- A stray `$` before the report. -/
theorem not_resynchronizes : ¬ ∀ (p : Bytes) (g : GgaLine), (p ++ g.bytes).length < 1000000 →
    Returns (({} : DecodeNmea).decode (p ++ g.bytes)) → Resynchronizes p g := by
  intro h
  obtain ⟨handled, st, gga, hrun, -, hposition⟩ :=
    h [36] report (by decide +kernel) (by decide +kernel) [[36] ++ report.bytes] (by simp)
  have hnone :
      (decodeAll {} [[36] ++ report.bytes]).left.toOption.all (·.position.isNone) = true := by
    decide +kernel
  rw [hrun] at hnone
  simp [Except.toOption, hposition] at hnone

end NavCaster.Base.Resync
