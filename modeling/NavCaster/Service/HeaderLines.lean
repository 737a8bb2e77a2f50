import NavCaster.Service.BasicAuth

namespace NavCaster.Service.HeaderLines

open NavCaster.Library.Strto NavCaster.Library.Lines NavCaster.Library.Scan
open NavCaster.Base.Base64
open NavCaster.Service.Request NavCaster.Service.Segmentation NavCaster.Service.BasicAuth

def isBlank (b : UInt8) : Bool := b = 32 || b = 9

/-- A header line as HTTP has it: a name, a colon, any number of blanks, and a value. -/
structure Line where
  name : Bytes
  blanks : Bytes
  value : Bytes
  name_eq : ∀ b ∈ name, b ≠ 58 ∧ b ≠ 10 ∧ b ≠ 0
  blanks_eq : ∀ b ∈ blanks, isBlank b = true
  value_eq : ∀ b ∈ value, b ≠ 10 ∧ b ≠ 0
  first : ∀ b ∈ value.head?, isBlank b = false
  short : (name ++ 58 :: (blanks ++ value)).length ≤ 1024

namespace Line

variable (l : Line)

def text : Bytes := l.name ++ 58 :: (l.blanks ++ l.value)

def behind : Bytes := (l.blanks ++ l.value).drop 1

def Names (key : String) : Prop := l.name.map toLower = (ascii key).map toLower

/-- One blank follows the colon, or nothing does. -/
def Spaced : Prop := l.blanks.length = 1 ∨ l.blanks = [] ∧ l.value = []

end Line

inductive Field
  | host | transferEncoding | userAgent | ntripVersion | ntripGga | authorization
  deriving DecidableEq

def Field.key : Field → String
  | host => "Host"
  | transferEncoding => "Transfer-Encoding"
  | userAgent => "User-Agent"
  | ntripVersion => "Ntrip-Version"
  | ntripGga => "Ntrip-GGA"
  | authorization => "Authorization"

variable {P : Type}

def Field.stored (info : ConnectInfo P) : Field → Bytes
  | host => info.httpHost
  | transferEncoding => info.httpChunked
  | userAgent => info.userAgent
  | ntripVersion => info.ntripVersion
  | ntripGga => info.ntripGga
  | authorization => info.ntripAuth

def Stores (k : Field) (value : Bytes) (r : Except Abort (ConnectInfo P × Bytes)) : Prop :=
  ∃ info left, r = .ok (info, left) ∧ k.stored info = value

def written (key : String) (ls : List Line) : Option Line := ls.reverse.find? (·.name = ascii key)

/-- The line that decides about the field: one of the field, or of its substitute. -/
def decides (k : Field) (ls : List Line) : Option Line :=
  (written k.key ls).or (if k = .userAgent then written "Source-Agent" ls else none)

/-- The line that decides is spaced and has the value of the line `l`. It may also be by chance that
its value without the first byte is that value, or that no line decides and there is no value. -/
def Legible (k : Field) (ls : List Line) (l : Line) : Prop :=
  match decides k ls with
  | none => l.value = []
  | some m => m.Spaced ∧ l.value = m.value ∨ m.blanks = [] ∧ m.value ≠ [] ∧ l.value = m.value.tail

def Replaced (geo : Degrees P) (ls : List Line) (body : Bytes) : Prop :=
  geo.isZero
    ((headerPosition geo (((written "Ntrip-GGA" ls).map Line.behind).getD [])).getD geo.initial) =
    true ∧ (trailingPosition geo body).isSome

/-- The credentials fit their buffer. -/
def Fits (ls : List Line) : Prop := ∀ m, written "Authorization" ls = some m → ¬ Overlong m.behind

def Credited (ls : List Line) : Prop :=
  ∃ m decodeID, written "Authorization" ls = some m ∧
    decodeBasicAuthentication m.behind = some decodeID ∧ 58 ∈ decodeID

def AsHttp (geo : Degrees P) (k : Field) (ls : List Line) (body : Bytes) (l : Line) : Prop :=
  match k with
  | .ntripGga => Replaced geo ls body ∧ l.value = body ∨ ¬ Replaced geo ls body ∧ Legible k ls l
  | .authorization => Credited ls ∧ Legible k ls l ∨ ¬ Credited ls ∧ l.value = []
  | _ => Legible k ls l

section

variable {ls : List Line} {l m : Line}

theorem Line.lineItem_text (l : Line) : lineItem l.text = some (l.name, l.behind) := by
  have hcolon : ∀ b ∈ l.name, decide (b ≠ 58) = true := by
    intro b hb
    exact decide_eq_true (l.name_eq b hb).1
  have hnul : 0 ∉ l.text := by
    intro h
    obtain h | h := List.mem_append.mp h
    · exact (l.name_eq 0 h).2.2 rfl
    · obtain h | h := List.mem_append.mp ((List.mem_cons.mp h).resolve_left (by decide))
      · exact absurd (l.blanks_eq 0 h) (by decide)
      · exact (l.value_eq 0 h).2 rfl
  have hitem : headerItem l.text = some (l.name, l.behind) := by
    unfold headerItem
    dsimp only
    rw [(cstr_eq_iff l.text).mpr hnul, if_pos (by simp [Line.text])]
    unfold Line.text
    rw [List.takeWhile_append_of_pos hcolon, List.dropWhile_append_of_pos hcolon]
    simp [Line.behind]
  have hshort : l.text.length ≤ 1024 := l.short
  unfold lineItem
  rw [if_neg (by omega), hitem]

theorem Line.text_lf (l : Line) : 10 ∉ l.text := by
  intro h
  obtain h | h := List.mem_append.mp h
  · exact (l.name_eq 10 h).2.1 rfl
  · obtain h | h := List.mem_append.mp ((List.mem_cons.mp h).resolve_left (by decide))
    · exact absurd (l.blanks_eq 10 h) (by decide)
    · exact (l.value_eq 10 h).1 rfl

theorem readHeaders_lines (ls : List Line) (body : Bytes) :
    readHeaders (BasicAuth.text (ls.map Line.text) ++ body) =
      (ls.map fun l ↦ (l.name, l.behind), body) := by
  induction ls with
  | nil =>
    have hread : readln (BasicAuth.text [] ++ body) = some ([], body) :=
      readln_crlf List.not_mem_nil body
    rw [List.map_nil, readHeaders]
    split
    · next h => cases hread.symm.trans h
    · next h => cases hread.symm.trans h; rfl
  | cons l ls ih =>
    have hread : readln (BasicAuth.text ((l :: ls).map Line.text) ++ body) =
        some (l.text, BasicAuth.text (ls.map Line.text) ++ body) := by
      have h := readln_crlf l.text_lf (BasicAuth.text (ls.map Line.text) ++ body)
      simpa [BasicAuth.text] using h
    rw [readHeaders]
    split
    · next h => cases hread.symm.trans h
    · next h =>
      cases hread.symm.trans h
      rw [l.lineItem_text]
      dsimp only
      rw [ih]
      rfl

theorem field_lines (ls : List Line) (key : String) :
    field (ls.map fun l ↦ (l.name, l.behind)) key = (written key ls).map Line.behind := by
  unfold field written
  rw [← List.map_reverse]
  induction ls.reverse with
  | nil => rfl
  | cons l ls ih =>
    by_cases h : l.name = ascii key
    · simp [h]
    · have hbeq : (ascii key == l.name) = false := beq_false_of_ne (Ne.symm h)
      simpa [h, List.lookup, hbeq] using ih

theorem Line.behind_eq_iff (l m : Line) : m.behind = l.value ↔
    m.Spaced ∧ l.value = m.value ∨ m.blanks = [] ∧ m.value ≠ [] ∧ l.value = m.value.tail := by
  unfold Line.behind Line.Spaced
  match hb : m.blanks with
  | [] =>
    cases m.value with
    | nil => simp [eq_comm]
    | cons b v => simp [eq_comm]
  | [_] => simp [eq_comm]
  | b :: b' :: bs =>
    -- The second blank would be the first byte of the value.
    refine iff_of_false (fun h ↦ ?_) (by simp)
    have hblank : isBlank b' = true := m.blanks_eq b' (by simp [hb])
    have hvalue : isBlank b' = false := l.first b' (by simp [← h])
    rw [hblank] at hvalue
    cases hvalue

theorem legible_iff (k : Field) (ls : List Line) (l : Line) :
    ((decides k ls).map Line.behind).getD [] = l.value ↔ Legible k ls l := by
  unfold Legible
  cases decides k ls with
  | none => simp [eq_comm]
  | some m => simpa using Line.behind_eq_iff l m

end

section

variable {env : Env} {geo : Degrees P} {url mount : Bytes}

def Field.Plain (k : Field) : Prop := k ≠ .ntripGga ∧ k ≠ .authorization

theorem stored_plain (geo : Degrees P) (r : ConnectInfo P) (auth decodeID left : Bytes) {k : Field}
    (hk : k.Plain) :
    k.stored (r.locate geo left) = k.stored r ∧
      k.stored (r.setUser auth decodeID) = k.stored r := by
  constructor
  · rw [locate_eq]
    cases k with
    | ntripGga => exact absurd rfl hk.1
    | _ => rfl
  · unfold ConnectInfo.setUser
    split
    · cases k with
      | authorization => exact absurd rfl hk.2
      | _ => rfl
    · rfl

theorem stored_setFields (r : ConnectInfo P) (ls : List Line) {k : Field}
    (hk : k ≠ .authorization) :
    k.stored (r.setFields (ls.map fun l ↦ (l.name, l.behind))) =
      ((decides k ls).map Line.behind).getD [] := by
  cases k with
  | authorization => exact absurd rfl hk
  | userAgent =>
    simp [Field.stored, ConnectInfo.setFields, field_lines, decides, Field.key, Option.map_or]
  | _ => simp [Field.stored, ConnectInfo.setFields, field_lines, decides, Field.key]

variable (env : Env) (geo : Degrees P) (url mount : Bytes) (ls : List Line) (body : Bytes)

def decodedLines : ConnectInfo P :=
  (decoded env geo url mount (ls.map fun l ↦ (l.name, l.behind))).locate geo body

theorem decodedLines_plain {k : Field} (hk : k.Plain) :
    k.stored (decodedLines env geo url mount ls body) =
      ((decides k ls).map Line.behind).getD [] := by
  unfold decodedLines decoded
  rw [(stored_plain geo _ [] [] body hk).1, ← stored_setFields (info env geo url mount) ls hk.2]
  cases field (ls.map fun l ↦ (l.name, l.behind)) "Authorization" with
  | none => rfl
  | some auth => exact (stored_plain geo _ auth _ [] hk).2

open scoped Classical in
theorem decodedLines_gga : (decodedLines env geo url mount ls body).ntripGga =
    if Replaced geo ls body then body else ((decides .ntripGga ls).map Line.behind).getD [] := by
  obtain ⟨hgga, hposition⟩ := decoded_fields env geo url mount (ls.map fun l ↦ (l.name, l.behind))
  have hdecides : decides .ntripGga ls = written "Ntrip-GGA" ls := by
    simp [decides, Field.key]
  rw [field_lines] at hgga
  unfold decodedLines ConnectInfo.locate Replaced
  rw [hdecides, hgga, hposition]
  dsimp only
  split_ifs with hzero hreplaced hreplaced
  · obtain ⟨pos, hpos⟩ := Option.isSome_iff_exists.mp hreplaced.2
    rw [hpos]
  · cases hpos : trailingPosition geo body with
    | none => rfl
    | some pos => exact absurd ⟨hzero, by simp [hpos]⟩ hreplaced
  · exact absurd hreplaced.1 hzero
  · rfl

open scoped Classical in
theorem decodedLines_auth (hfits : Fits ls) : (decodedLines env geo url mount ls body).ntripAuth =
    if Credited ls then ((decides .authorization ls).map Line.behind).getD [] else [] := by
  have hdecides : decides .authorization ls = written "Authorization" ls := by
    simp [decides, Field.key]
  unfold decodedLines decoded
  rw [locate_eq, field_lines, hdecides]
  dsimp only
  cases hwritten : written "Authorization" ls with
  | none => simp [ConnectInfo.setFields, info]
  | some m =>
    have hdecode : (decodeBasicAuthentication m.behind).isSome :=
      (decodeBasicAuthentication_isSome m.behind).mpr (hfits m hwritten)
    obtain ⟨decodeID, hdecodeID⟩ := Option.isSome_iff_exists.mp hdecode
    have hcredited : Credited ls ↔ 58 ∈ decodeID := by
      simp [Credited, hwritten, hdecodeID]
    simp only [Option.map_some, hdecodeID, Option.getD_some, hcredited, ConnectInfo.setUser]
    split_ifs <;> rfl

theorem decode_lines (hpath : extractPath url = some mount) :
    Fits ls ∧ decodeBuffereventReq env geo url (BasicAuth.text (ls.map Line.text) ++ body) =
        .ok (decodedLines env geo url mount ls body, body) ∨
      ¬ Fits ls ∧ decodeBuffereventReq env geo url (BasicAuth.text (ls.map Line.text) ++ body) =
        .error .overrun := by
  have hfits : (∃ auth, field (ls.map fun l ↦ (l.name, l.behind)) "Authorization" = some auth ∧
      decodeBasicAuthentication auth = none) ↔ ¬ Fits ls := by
    rw [field_lines]
    unfold Fits
    cases written "Authorization" ls with
    | none => simp
    | some m =>
      have hsome := decodeBasicAuthentication_isSome m.behind
      rw [← not_iff_not, Bool.not_eq_true, Option.isSome_eq_false_iff,
        Option.isNone_iff_eq_none] at hsome
      simp [hsome]
  have hdecode := decode_cases env geo (BasicAuth.text (ls.map Line.text) ++ body) hpath
  rw [readHeaders_lines] at hdecode
  dsimp only at hdecode
  rw [hfits, not_not] at hdecode
  exact hdecode.symm

theorem stores_iff (hpath : extractPath url = some mount) (k : Field) (l : Line) :
    Stores k l.value
      (decodeBuffereventReq env geo url (BasicAuth.text (ls.map Line.text) ++ body)) ↔
      Fits ls ∧ AsHttp geo k ls body l := by
  obtain ⟨hfits, hdecode⟩ | ⟨hfits, hdecode⟩ := decode_lines env geo url mount ls body hpath
  · have hstored : Stores k l.value
        (decodeBuffereventReq env geo url (BasicAuth.text (ls.map Line.text) ++ body)) ↔
          k.stored (decodedLines env geo url mount ls body) = l.value := by
      rw [hdecode]
      simp [Stores]
    rw [hstored, and_iff_right hfits]
    have hplain (hk : k.Plain) : k.stored (decodedLines env geo url mount ls body) = l.value ↔
        Legible k ls l := by
      rw [decodedLines_plain env geo url mount ls body hk, legible_iff]
    cases k with
    | ntripGga =>
      simp only [Field.stored, AsHttp, decodedLines_gga]
      split_ifs with hreplaced
      · simp [hreplaced, eq_comm]
      · simp [hreplaced, legible_iff]
    | authorization =>
      simp only [Field.stored, AsHttp, decodedLines_auth _ _ _ _ _ _ hfits]
      split_ifs with hcredited
      · simp [hcredited, legible_iff]
      · simp [hcredited, eq_comm]
    | _ => exact hplain ⟨by simp, by simp⟩
  · rw [hdecode]
    simp [Stores, hfits]

end

/-- Whatever line of the header is one of the field, its value is what is stored. -/
def ReadAsHttp (k : Field) (ls : List Line) (r : Except Abort (ConnectInfo P × Bytes)) : Prop :=
  ∀ l ∈ ls, l.Names k.key → Stores k l.value r

def denseLine : Line where
  name := ascii "Host"
  blanks := []
  value := ascii "a:2101"
  name_eq := by decide +kernel
  blanks_eq := by decide +kernel
  value_eq := by decide +kernel
  first := by decide +kernel
  short := by decide +kernel

def smallLine : Line where
  name := ascii "host"
  blanks := ascii " "
  value := ascii "a:2101"
  name_eq := by decide +kernel
  blanks_eq := by decide +kernel
  value_eq := by decide +kernel
  first := by decide +kernel
  short := by decide +kernel

def decodedHost (l : Line) : Except Abort (ConnectInfo Unit × Bytes) :=
  decodeBuffereventReq anyMount noDegrees (ascii "/M") (BasicAuth.text ([l].map Line.text) ++ [])

end NavCaster.Service.HeaderLines
