import NavCaster.Library.Lines
import NavCaster.Session.Response

namespace NavCaster.Session.TransferEncoding

open NavCaster.Library.Strto NavCaster.Library.Lines NavCaster.Library.Scan
open NavCaster.Session.Response

structure HeaderField where
  name : Bytes
  value : Bytes
  name_eq : ∀ b ∈ name, b ≠ 58 ∧ b ≠ 10
  value_eq : 10 ∉ value

def HeaderField.text (f : HeaderField) : Bytes := f.name ++ 58 :: f.value

structure OkHeader where
  minor : Bytes
  reason : Bytes
  fields : List HeaderField
  minor_eq : ∀ b ∈ minor, b ≠ 32 ∧ b ≠ 10
  reason_eq : 10 ∉ reason

namespace OkHeader

variable (h : OkHeader)

def statusLine : Bytes := ascii "HTTP/1." ++ h.minor ++ ascii " 200" ++ h.reason

def lines : List Bytes := h.fields.map HeaderField.text

def bytes : Bytes := (h.statusLine :: h.lines).flatMap (· ++ crlf) ++ crlf

/-- A field for the transfer encoding, in any letter case, has chunks in its value. -/
def Chunked : Prop :=
  ∃ f ∈ h.fields, f.name.map toLower = ascii "transfer-encoding" ∧ ascii "chunked" <:+: f.value

end OkHeader

def HasWord (line : Bytes) : Prop := ascii "chunked" <:+: line

/-- The first `chunked` of the line has `ransfer-` before it. -/
def Announces (line : Bytes) : Prop :=
  ∃ before after, line = before ++ after ∧ findText (ascii "chunked") line = some after ∧
    ascii "ransfer-" <:+: before

def Told (lines : List Bytes) : Prop :=
  ∃ before line after, lines = before ++ line :: after ∧ (∀ l ∈ before, ¬ HasWord l) ∧
    Announces line

/-- What the response is taken for is what its header says, whatever follows it. -/
def Classified (h : OkHeader) (body : Bytes) : Prop :=
  ∃ a, verifyNtripResponse (h.bytes ++ body) = some a ∧ (a.chunked = true ↔ h.Chunked)

/-- The first line with the word is a line of the header that announces chunks, if a field for the
transfer encoding has it; otherwise it does not announce any, be it of the header or of the body. -/
def WordInPlace (h : OkHeader) (body : Bytes) : Prop :=
  (h.Chunked → ¬ HasWord h.statusLine ∧ Told h.lines) ∧
    (¬ h.Chunked → HasWord h.statusLine ∨ ¬ Told (h.lines ++ body.splitOn 10))

theorem Announces.hasWord {line : Bytes} (h : Announces line) : HasWord line := by
  obtain ⟨_, _, _, hfind, -⟩ := h
  exact findText_isSome.mp (by simp [hfind])

theorem told_cons (line : Bytes) (lines : List Bytes) :
    Told (line :: lines) ↔ Announces line ∨ ¬ HasWord line ∧ Told lines := by
  constructor
  · rintro ⟨before, l, after, heq, hbefore, hl⟩
    cases before with
    | nil =>
      cases heq
      exact .inl hl
    | cons b before =>
      cases heq
      refine .inr ⟨hbefore _ List.mem_cons_self, before, l, after, rfl, fun l' hl' ↦ ?_, hl⟩
      exact hbefore l' (.tail _ hl')
  · rintro (h | ⟨hline, before, l, after, rfl, hbefore, hl⟩)
    · exact ⟨[], line, lines, rfl, by simp, h⟩
    · refine ⟨line :: before, l, after, rfl, fun l' hl' ↦ ?_, hl⟩
      obtain rfl | hl' := List.mem_cons.mp hl'
      · exact hline
      · exact hbefore l' hl'

theorem not_told_nil : ¬ Told [] := by
  rintro ⟨before, l, after, heq, -⟩
  simp at heq

theorem told_append {lines : List Bytes} (h : ∃ l ∈ lines, HasWord l) (more : List Bytes) :
    Told (lines ++ more) ↔ Told lines := by
  induction lines with
  | nil => simp at h
  | cons line lines ih =>
    rw [List.cons_append, told_cons, told_cons]
    by_cases hline : HasWord line
    · simp [hline]
    · have hmore : ∃ l ∈ lines, HasWord l := by simpa [hline] using h
      rw [ih hmore]

theorem word_letters : (10 : UInt8) ∉ ascii "chunked" ∧ (13 : UInt8) ∉ ascii "chunked" ∧
    ascii "chunked" ≠ [] := by
  decide +kernel

theorem hasWord_append_cons {c : UInt8} (hc : c ∉ ascii "chunked") (l t : Bytes) :
    HasWord (l ++ c :: t) ↔ HasWord l ∨ HasWord t := by
  unfold HasWord
  rw [← findText_isSome, ← findText_isSome, ← findText_isSome,
    findText_append_cons hc word_letters.2.2]
  cases findText (ascii "chunked") l <;> simp

theorem announces_iff {l r : Bytes} (h : findText (ascii "chunked") l = some r) :
    Announces l ↔ ascii "ransfer-" <:+: l.take (l.length - r.length) := by
  obtain ⟨b, rfl⟩ := findText_suffix h
  constructor
  · rintro ⟨before, after, heq, hfind, hin⟩
    obtain rfl : r = after := Option.some.inj (h.symm.trans hfind)
    obtain rfl := List.append_cancel_right heq
    simpa using hin
  · intro hin
    exact ⟨b, r, rfl, h, by simpa using hin⟩

theorem announces_cr (l : Bytes) : Announces (l ++ [13]) ↔ Announces l := by
  have hfind := findText_append_cons word_letters.2.1 word_letters.2.2 l []
  cases h : findText (ascii "chunked") l with
  | none =>
    have hnone : findText (ascii "chunked") (l ++ [13]) = none := by
      rw [hfind, h]
      decide +kernel
    constructor
    · rintro ⟨_, _, _, hsome, -⟩
      rw [hnone] at hsome
      cases hsome
    · rintro ⟨_, _, _, hsome, -⟩
      rw [h] at hsome
      cases hsome
  | some r =>
    have hsome : findText (ascii "chunked") (l ++ [13]) = some (r ++ [13]) := by
      rw [hfind, h]
      rfl
    rw [announces_iff h, announces_iff hsome, List.length_append, List.length_append,
      Nat.add_sub_add_right, List.take_append_of_le_length (Nat.sub_le ..)]

theorem told_cr (lines more : List Bytes) :
    Told (lines.map (· ++ [13]) ++ more) ↔ Told (lines ++ more) := by
  have hword (l : Bytes) : HasWord (l ++ [13]) ↔ HasWord l := by
    rw [hasWord_append_cons word_letters.2.1]
    exact or_iff_left (by unfold HasWord; decide +kernel)
  induction lines with
  | nil => rfl
  | cons l lines ih =>
    rw [List.map_cons, List.cons_append, List.cons_append, told_cons, told_cons]
    exact or_congr (announces_cr l) (and_congr (not_congr (hword l)) ih)

theorem told_skip {l : Bytes} (hl : ¬ HasWord l) (lines more : List Bytes) :
    Told (lines ++ l :: more) ↔ Told (lines ++ more) := by
  induction lines with
  | nil =>
    have hnot : ¬ Announces l := fun h ↦ hl h.hasWord
    simp [told_cons, hl, hnot]
  | cons line lines ih => rw [List.cons_append, List.cons_append, told_cons, told_cons, ih]

theorem saysChunked_found {before after : Bytes}
    (h : findText (ascii "chunked") (before ++ after) = some after) :
    saysChunked (before ++ after) = true ↔
      10 ∈ before ∧ ascii "ransfer-" <:+: before.rtakeWhile (· ≠ 10) := by
  have htake : (before ++ after).take ((before ++ after).length - after.length) = before := by
    rw [List.length_append, Nat.add_sub_cancel, List.take_left']
    rfl
  unfold saysChunked
  rw [h]
  dsimp only
  rw [htake]
  simp [findText_isSome]

/-- The first line with the word decides. -/
theorem saysChunked_line {pre l : Bytes} (hpre : ¬ HasWord pre) (hl : 10 ∉ l) (hword : HasWord l)
    (tail : Bytes) : saysChunked (pre ++ 10 :: (l ++ tail)) = true ↔ Announces l := by
  obtain ⟨r, hr⟩ := Option.isSome_iff_exists.mp (findText_isSome.mpr hword)
  obtain ⟨b, rfl⟩ := findText_suffix hr
  have hnone : findText (ascii "chunked") pre = none := by
    rw [← Option.not_isSome_iff_eq_none, findText_isSome]
    exact hpre
  have hfind : findText (ascii "chunked") (pre ++ 10 :: (b ++ r ++ tail)) = some (r ++ tail) := by
    rw [findText_append_cons word_letters.1 word_letters.2.2, hnone, Option.map_none,
      Option.none_or]
    exact findText_append hr tail
  have hline : pre ++ 10 :: (b ++ r ++ tail) = (pre ++ 10 :: b) ++ (r ++ tail) := by simp
  have hb : (pre ++ 10 :: b).rtakeWhile (· ≠ 10) = b := by
    have hall : ∀ x ∈ b.reverse, decide (x ≠ 10) = true := by
      intro x hx
      refine decide_eq_true ?_
      rintro rfl
      exact hl (List.mem_append_left _ (List.mem_reverse.mp hx))
    unfold List.rtakeWhile
    rw [List.reverse_append, List.reverse_cons, List.append_assoc,
      List.takeWhile_append_of_pos hall]
    simp
  rw [hline] at hfind ⊢
  rw [announces_iff hr, saysChunked_found hfind, hb]
  simp

theorem saysChunked_iff {pre : Bytes} (hpre : ¬ HasWord pre) (s : Bytes) :
    saysChunked (pre ++ 10 :: s) = true ↔ Told (s.splitOn 10) := by
  by_cases hlf : 10 ∈ s
  · obtain ⟨l, t, rfl, hl⟩ := List.eq_append_cons_of_mem hlf
    rw [List.splitOn_append_cons_self_of_not_mem hl, told_cons]
    by_cases hword : HasWord l
    · rw [saysChunked_line hpre hl hword]
      simp [hword]
    · have hpre' : ¬ HasWord (pre ++ 10 :: l) := by
        rw [hasWord_append_cons word_letters.1]
        exact not_or.mpr ⟨hpre, hword⟩
      have hnot : ¬ Announces l := fun h ↦ hword h.hasWord
      have hrest := saysChunked_iff hpre' t
      rw [List.append_assoc, List.cons_append] at hrest
      rw [hrest]
      simp [hword, hnot]
  · rw [List.splitOn_eq_singleton hlf, told_cons]
    by_cases hword : HasWord s
    · have h := saysChunked_line hpre hlf hword []
      rw [List.append_nil] at h
      rw [h]
      simp [hword]
    · have hnone : findText (ascii "chunked") (pre ++ 10 :: s) = none := by
        rw [← Option.not_isSome_iff_eq_none, findText_isSome]
        exact fun h ↦ ((hasWord_append_cons word_letters.1 pre s).mp h).elim hpre hword
      refine iff_of_false ?_ ?_
      · unfold saysChunked
        rw [hnone]
        simp
      · rintro (h | h)
        · exact hword h.hasWord
        · exact not_told_nil h.2
termination_by s.length

section

variable (h : OkHeader)

theorem OkHeader.splitOn_lines (fields : List HeaderField) (body : Bytes) :
    ((fields.map HeaderField.text).flatMap (· ++ crlf) ++ crlf ++ body).splitOn 10 =
      (fields.map HeaderField.text).map (· ++ [13]) ++ [13] :: body.splitOn 10 := by
  induction fields with
  | nil =>
    have hcr : (10 : UInt8) ∉ [13] := by decide
    exact List.splitOn_append_cons_self_of_not_mem hcr body
  | cons f fields ih =>
    have hline : 10 ∉ f.text ++ [13] := by
      intro hmem
      obtain hmem | hmem := List.mem_append.mp hmem
      · obtain hmem | hmem := List.mem_append.mp hmem
        · exact (f.name_eq 10 hmem).2 rfl
        · exact f.value_eq ((List.mem_cons.mp hmem).resolve_left (by decide))
      · exact absurd hmem (by decide)
    have hsplit (rest : Bytes) : ((f.text ++ [13]) ++ 10 :: rest).splitOn 10 =
        (f.text ++ [13]) :: rest.splitOn 10 := List.splitOn_append_cons_self_of_not_mem hline rest
    have htext : ((f :: fields).map HeaderField.text).flatMap (· ++ crlf) ++ crlf ++ body =
        (f.text ++ [13]) ++ 10 ::
          ((fields.map HeaderField.text).flatMap (· ++ crlf) ++ crlf ++ body) := by
      simp [crlf]
    rw [htext, hsplit, ih]
    rfl

theorem OkHeader.accepted (body : Bytes) :
    verifyNtripResponse (h.bytes ++ body) = some ⟨true, saysChunked (h.bytes ++ body)⟩ := by
  have hstatus : h.bytes ++ body = ascii "HTTP/1." ++ h.minor ++ 32 :: 50 :: 48 :: 48 ::
      (h.reason ++ crlf ++ h.lines.flatMap (· ++ crlf) ++ crlf ++ body) := by
    simp [OkHeader.bytes, OkHeader.statusLine, ascii, crlf]
  have hhttp : ascii "HTTP/1." <+: h.bytes ++ body := by
    rw [hstatus, List.append_assoc]
    exact List.prefix_append ..
  have hminor : 32 ∉ ascii "HTTP/1." ++ h.minor := by
    intro hmem
    obtain hmem | hmem := List.mem_append.mp hmem
    · exact absurd hmem (by decide +kernel)
    · exact (h.minor_eq 32 hmem).1 rfl
  have hsome := (accepts_http hhttp).mpr ⟨_, _, hminor, hstatus⟩
  obtain ⟨a, ha⟩ := Option.isSome_iff_exists.mp hsome
  rw [ha, verify_http hhttp ha]

theorem OkHeader.saysChunked_bytes (body : Bytes) : saysChunked (h.bytes ++ body) = true ↔
    ¬ HasWord h.statusLine ∧ Told (h.lines ++ body.splitOn 10) := by
  have hbytes : h.bytes ++ body =
      (h.statusLine ++ [13]) ++ 10 :: (h.lines.flatMap (· ++ crlf) ++ crlf ++ body) := by
    simp [OkHeader.bytes, crlf]
  rw [hbytes]
  by_cases hword : HasWord h.statusLine
  · -- No line has ended before the word.
    obtain ⟨r, hr⟩ := Option.isSome_iff_exists.mp (findText_isSome.mpr hword)
    obtain ⟨b, hb⟩ := findText_suffix hr
    have hfind := findText_append hr ([13] ++ 10 :: (h.lines.flatMap (· ++ crlf) ++ crlf ++ body))
    have hlf : 10 ∉ b := by
      intro hmem
      have hstatus : 10 ∈ h.statusLine := hb ▸ List.mem_append_left r hmem
      simp only [OkHeader.statusLine, List.mem_append] at hstatus
      obtain ((hs | hs) | hs) | hs := hstatus
      · exact absurd hs (by decide +kernel)
      · exact (h.minor_eq 10 hs).2 rfl
      · exact absurd hs (by decide +kernel)
      · exact h.reason_eq hs
    rw [← hb, List.append_assoc] at hfind
    rw [← hb, List.append_assoc, List.append_assoc, saysChunked_found hfind]
    simp [hlf, hb, hword]
  · have hstatus : ¬ HasWord (h.statusLine ++ [13]) := by
      rw [hasWord_append_cons word_letters.2.1]
      exact not_or.mpr ⟨hword, by unfold HasWord; decide +kernel⟩
    have hblank : ¬ HasWord [] := by unfold HasWord; decide +kernel
    have hsplit : (h.lines.flatMap (· ++ crlf) ++ crlf ++ body).splitOn 10 =
        (h.lines ++ [[]]).map (· ++ [13]) ++ body.splitOn 10 := by
      rw [OkHeader.lines, OkHeader.splitOn_lines]
      simp
    rw [saysChunked_iff hstatus, hsplit, told_cr, List.append_assoc, List.singleton_append,
      told_skip hblank, and_iff_right hword]

theorem OkHeader.Chunked.hasWord {h : OkHeader} (hchunked : h.Chunked) :
    ∃ l ∈ h.lines, HasWord l := by
  obtain ⟨f, hf, -, hvalue⟩ := hchunked
  refine ⟨f.text, List.mem_map_of_mem hf, ?_⟩
  have hsuffix : f.value <:+: f.text := ⟨f.name ++ [58], [], by simp [HeaderField.text]⟩
  exact hvalue.trans hsuffix

end

/-- A response is taken for what its header says if and only if the word is in its place. -/
theorem classified_iff (h : OkHeader) (body : Bytes) : Classified h body ↔ WordInPlace h body := by
  have hclass : Classified h body ↔
      (¬ HasWord h.statusLine ∧ Told (h.lines ++ body.splitOn 10) ↔ h.Chunked) := by
    unfold Classified
    rw [h.accepted, ← h.saysChunked_bytes]
    simp
  rw [hclass]
  unfold WordInPlace
  by_cases hchunked : h.Chunked
  · rw [told_append hchunked.hasWord]
    simp [hchunked]
  · simp only [hchunked, iff_false, false_imp_iff, true_and, not_false_eq_true, forall_const]
    tauto

def cacheField : HeaderField where
  name := ascii "Via"
  value := ascii " chunked"
  name_eq := by decide +kernel
  value_eq := by decide +kernel

def chunkedField : HeaderField where
  name := ascii "Transfer-Encoding"
  value := ascii " chunked"
  name_eq := by decide +kernel
  value_eq := by decide +kernel

def okHeader (fields : List HeaderField) : OkHeader where
  minor := ascii "1"
  reason := ascii " OK"
  fields := fields
  minor_eq := by decide +kernel
  reason_eq := by decide +kernel

/-- Another field hides the chunks, and without them the body announces some. -/
theorem not_classified :
    verifyNtripResponse (okHeader [cacheField, chunkedField]).bytes = some ⟨true, false⟩ ∧
    verifyNtripResponse ((okHeader []).bytes ++ ascii "transfer-chunked") = some ⟨true, true⟩ ∧
      ¬ ∀ (h : OkHeader) (body : Bytes), Classified h body := by
  have hhidden :
      verifyNtripResponse (okHeader [cacheField, chunkedField]).bytes = some ⟨true, false⟩ := by
    decide +kernel
  refine ⟨hhidden, by decide +kernel, fun h ↦ ?_⟩
  obtain ⟨a, ha, hiff⟩ := h (okHeader [cacheField, chunkedField]) []
  have hchunked : (okHeader [cacheField, chunkedField]).Chunked := by
    refine ⟨chunkedField, by simp [okHeader], by decide +kernel, by decide +kernel⟩
  rw [List.append_nil, hhidden] at ha
  cases ha
  cases hiff.mpr hchunked

end NavCaster.Session.TransferEncoding
