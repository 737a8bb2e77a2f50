import NavCaster.Service.Segmentation

namespace NavCaster.Service.BasicAuth

open NavCaster.Library.Strto NavCaster.Library.Lines NavCaster.Library.Scan
open NavCaster.Base.Base64
open NavCaster.Service.Request
open NavCaster.Service.Segmentation

inductive RelayType
  | pull | push
  deriving DecidableEq

structure Software where
  name : Bytes
  version : Bytes
  line : 10 ∉ name ++ version
  short : (name ++ version).length ≤ 512

def Software.agent (sw : Software) : Bytes := ascii "NTRIP " ++ sw.name ++ 47 :: sw.version

def header (h : String × Bytes) : Bytes := ascii h.1 ++ 58 :: 32 :: h.2

def text (lines : List Bytes) : Bytes := lines.flatMap (· ++ crlf) ++ crlf

/-- The password is sent in the clear where the request has no place for a user. -/
def buildNtripRequest (sw : Software) (type : RelayType) (version2 : Bool) (mpt host auth : Bytes) :
    Bytes :=
  let authB64 := if auth = [] then [] else utilBase64Encode auth
  let password := if 58 ∈ auth then (auth.dropWhile (· ≠ 58)).drop 1 else auth
  match type, version2 with
  | .pull, true => text
      ((ascii "GET /" ++ mpt ++ ascii " HTTP/1.1") ::
        [("Host", host),
          ("Ntrip-Version", ascii "Ntrip/2.0"),
          ("User-Agent", sw.agent),
          ("Authorization", ascii "Basic " ++ authB64),
          ("Connection", ascii "close")].map header)
  | .pull, false => text
      ((ascii "GET /" ++ mpt ++ ascii " HTTP/1.0") ::
        [("User-Agent", sw.agent),
          ("Authorization", ascii "Basic " ++ authB64)].map header)
  | .push, true => text
      ((ascii "POST /" ++ mpt ++ ascii " HTTP/1.1") ::
        [("Host", host),
          ("Ntrip-Version", ascii "Ntrip/2.0"),
          ("Authorization", ascii "Basic " ++ authB64),
          ("User-Agent", sw.agent),
          ("Transfer-Encoding", ascii "chunked"),
          ("Connection", ascii "close")].map header)
  | .push, false => text
      ((ascii "SOURCE " ++ password ++ ascii " /" ++ mpt ++ ascii " HTTP/1.1") ::
        [("Source-Agent", sw.agent)].map header)

/-- The request has a header line for the credentials. -/
def carries (type : RelayType) (version2 : Bool) : Bool := type = .pull || version2

/-- More than 255 letters stand behind `Basic`, and nothing else stops the reading of them. -/
def Overlong (authentication : Bytes) : Prop :=
  (findText (ascii "Basic ") authentication).isSome ∧
    ∃ blank token rest, authentication = ascii "Basic" ++ blank ++ token ++ rest ∧
      (∀ b ∈ blank, isSpace b = true) ∧ (∀ b ∈ token, isSpace b = false) ∧ token.length = authSize

/-- What the way through the header leaves as it is, within its bound. -/
def Encodable (auth : Bytes) : Prop := auth.length ≤ 189 ∧ 0 ∉ auth ∧ Plain auth

variable {P : Type}

def Decodes (r : Except Abort (ConnectInfo P × Bytes)) (user pwd : Bytes) : Prop :=
  ∃ info left, r = .ok (info, left) ∧ info.userName = user ∧ info.userPwd = pwd

theorem scanWord_length {s : Bytes} : authSize ≤ (((scanWord s).map Prod.fst).getD []).length ↔
    ∃ blank token rest, s = blank ++ token ++ rest ∧ (∀ b ∈ blank, isSpace b = true) ∧
      (∀ b ∈ token, isSpace b = false) ∧ token.length = authSize := by
  have hword : ((scanWord s).map Prod.fst).getD [] = (skipSpace s).takeWhile (!isSpace ·) := by
    unfold scanWord scanUntil
    cases (skipSpace s).takeWhile (!isSpace ·) <;> rfl
  rw [hword]
  constructor
  · intro h
    let word := (skipSpace s).takeWhile (!isSpace ·)
    refine ⟨s.takeWhile isSpace, word.take authSize,
      word.drop authSize ++ (skipSpace s).dropWhile (!isSpace ·), ?_,
      fun b hb ↦ List.mem_takeWhile_imp hb,
      fun b hb ↦ by
        simpa using List.mem_takeWhile_imp (List.mem_of_mem_take hb), List.length_take_of_le h⟩
    rw [List.append_assoc, ← List.append_assoc (word.take authSize), List.take_append_drop,
      List.takeWhile_append_dropWhile, skipSpace, List.takeWhile_append_dropWhile]
  · rintro ⟨blank, token, rest, rfl, hblank, htoken, hlen⟩
    have hskip : skipSpace (blank ++ token ++ rest) = token ++ rest := by
      obtain _ | ⟨b, token⟩ := token
      · cases hlen
      · unfold skipSpace
        rw [List.append_assoc, List.dropWhile_append_of_pos hblank, List.cons_append,
          List.dropWhile_cons_of_neg]
        simp [htoken b List.mem_cons_self]
    rw [hskip,
      List.takeWhile_append_of_pos fun b hb ↦ by simp [htoken b hb], List.length_append, hlen]
    exact Nat.le_add_right _ _

def basicWord (authentication : Bytes) : Bytes :=
  if (findText (ascii "Basic ") authentication).isSome ∧ (ascii "Basic").isPrefixOf authentication
  then ((scanWord (authentication.drop 5)).map Prod.fst).getD []
  else []

theorem overlong_iff (authentication : Bytes) :
    authSize ≤ (basicWord authentication).length ↔ Overlong authentication := by
  unfold basicWord Overlong
  split
  · next h =>
    obtain ⟨hfind, hpre⟩ := h
    obtain ⟨s, rfl⟩ := List.isPrefixOf_iff_prefix.mp hpre
    have hdrop : (ascii "Basic" ++ s).drop 5 = s := rfl
    rw [hdrop, scanWord_length, and_iff_right hfind]
    refine exists_congr fun blank ↦ exists_congr fun token ↦ exists_congr fun rest ↦
      and_congr_left' ?_
    rw [List.append_assoc (ascii "Basic"), List.append_assoc (ascii "Basic"), List.append_right_inj]
  · next h =>
    refine iff_of_false (by simp [authSize]) ?_
    rintro ⟨hfind, blank, token, rest, rfl, -⟩
    refine h ⟨hfind, List.isPrefixOf_iff_prefix.mpr ?_⟩
    rw [List.append_assoc, List.append_assoc]
    exact List.prefix_append _ _

theorem decodeBasicAuthentication_isSome (authentication : Bytes) :
    (decodeBasicAuthentication authentication).isSome ↔ ¬ Overlong authentication := by
  rw [← overlong_iff, Nat.not_le]
  change (if (basicWord authentication).length < authSize then _ else _ : Option Bytes).isSome =
    true ↔ _
  split <;> simp [*]

theorem basicWord_encoded {b64 : Bytes} (h : ∀ b ∈ b64, b ∈ alphabet ∨ b = 61) :
    basicWord (ascii "Basic " ++ b64) = b64 := by
  have hspace : alphabet.all (!isSpace ·) = true := by
    decide +kernel
  have hb64 : ∀ b ∈ b64, isSpace b = false := by
    intro b hb
    rcases h b hb with hb | rfl
    · simpa using List.all_eq_true.mp hspace b hb
    · decide
  have hfind : (findText (ascii "Basic ") (ascii "Basic " ++ b64)).isSome = true := rfl
  have hdrop : (ascii "Basic " ++ b64).drop 5 = 32 :: b64 := rfl
  have hword : scanWord (32 :: b64) = scanUntil isSpace b64 := by
    have hskip : skipSpace (32 :: b64) = b64 := by
      unfold skipSpace
      rw [List.dropWhile_cons_of_pos (by decide)]
      cases b64 with
      | nil => rfl
      | cons b b64 =>
        rw [List.dropWhile_cons_of_neg]
        simp [hb64 b List.mem_cons_self]
    rw [scanWord, hskip]
  unfold basicWord
  rw [if_pos ⟨hfind, rfl⟩, hdrop, hword]
  cases hnil : b64 with
  | nil => rfl
  | cons b b64' =>
    have hscan : scanUntil isSpace (b64 ++ []) = some (b64, []) :=
      scanUntil_eq (by simp [hnil]) hb64 (by simp)
    rw [List.append_nil, hnil] at hscan
    rw [hscan]
    rfl

theorem decodeBasicAuthentication_encoded {auth : Bytes} :
    decodeBasicAuthentication (ascii "Basic " ++ utilBase64Encode auth) =
      if (utilBase64Encode auth).length < authSize then
        some (utilBase64Decode (utilBase64Encode auth))
      else none := by
  have hword : basicWord (ascii "Basic " ++ utilBase64Encode auth) = utilBase64Encode auth :=
    basicWord_encoded fun b hb ↦ mem_encodeGroups hb
  change (if (basicWord (ascii "Basic " ++ utilBase64Encode auth)).length < authSize then
    some (utilBase64Decode (basicWord (ascii "Basic " ++ utilBase64Encode auth))) else none) = _
  rw [hword]

def Key (key : String) : Prop := ∀ b ∈ ascii key, b ≠ 10 ∧ b ≠ 58 ∧ b ≠ 0

instance : DecidablePred Key := fun key ↦
  decidable_of_iff ((ascii key).all (fun b ↦ b ≠ 10 && (b ≠ 58 && b ≠ 0)) = true) (by simp [Key])

def Short (h : String × Bytes) : Prop := (header h).length ≤ 1024

instance : DecidablePred Short := fun h ↦ inferInstanceAs (Decidable ((header h).length ≤ 1024))

variable {h : String × Bytes} {hs : List (String × Bytes)}

theorem readln_text {line : Bytes} (hline : 10 ∉ line) (lines : List Bytes) :
    readln (text (line :: lines)) = some (line, text lines) := by
  unfold text
  rw [List.flatMap_cons, List.append_assoc]
  exact readln_crlf hline _

theorem lineItem_header (hkey : Key h.1) :
    lineItem (header h) = if Short h then some (ascii h.1, cstr h.2) else none := by
  have hcolon : ∀ b ∈ ascii h.1, decide (b ≠ 58) = true := fun b hb ↦ decide_eq_true (hkey b hb).2.1
  have hnul : ∀ b ∈ ascii h.1, decide (b ≠ 0) = true := fun b hb ↦ decide_eq_true (hkey b hb).2.2
  have hcstr : cstr (header h) = ascii h.1 ++ 58 :: 32 :: cstr h.2 := by
    unfold cstr header
    rw [List.takeWhile_append_of_pos hnul, List.takeWhile_cons_of_pos (by decide),
      List.takeWhile_cons_of_pos (by decide)]
  have hitem : headerItem (header h) = some (ascii h.1, cstr h.2) := by
    unfold headerItem
    dsimp only
    rw [hcstr, if_pos (by simp), List.takeWhile_append_of_pos hcolon,
      List.dropWhile_append_of_pos hcolon, List.takeWhile_cons_of_neg (by decide),
      List.dropWhile_cons_of_neg (by decide), List.append_nil]
    rfl
  unfold lineItem
  rw [hitem]
  by_cases hshort : Short h
  · rw [if_neg (Nat.not_lt.mpr hshort), if_pos hshort]
  · rw [if_pos (Nat.lt_of_not_le hshort), if_neg hshort]

theorem readHeaders_header (hkey : Key h.1) (hvalue : 10 ∉ h.2) (lines : List Bytes) :
    readHeaders (text (header h :: lines)) =
      if Short h then
        ((ascii h.1, cstr h.2) :: (readHeaders (text lines)).1, (readHeaders (text lines)).2)
      else ([], text lines) := by
  have hline : 10 ∉ header h := by
    unfold header
    simp only [List.mem_append, List.mem_cons, not_or]
    exact ⟨fun hmem ↦ (hkey 10 hmem).1 rfl, by decide, by decide, hvalue⟩
  have hread := readln_text hline lines
  have hitem := lineItem_header hkey
  rw [readHeaders]
  split
  · next hr => cases hread.symm.trans hr
  · next hr =>
    cases hread.symm.trans hr
    rw [hitem]
    split_ifs <;> rfl

theorem readHeaders_blank : readHeaders (text []) = ([], []) := by
  rw [readHeaders]
  rfl

theorem field_cons (item : Bytes × Bytes) (items : List (Bytes × Bytes)) (key : String) :
    field (item :: items) key =
      (field items key).or (if item.1 = ascii key then some item.2 else none) := by
  unfold field
  rw [List.reverse_cons, List.lookup_append]
  congr 1
  by_cases hkey : item.1 = ascii key
  · simp [List.lookup, hkey]
  · have hbeq : (ascii key == item.1) = false := beq_false_of_ne (Ne.symm hkey)
    simp [List.lookup, hkey, hbeq]

theorem field_text {key : String} (hs : List (String × Bytes)) (hkey : ∀ h ∈ hs, Key h.1 ∧ 10 ∉ h.2)
    (hother : ∀ h ∈ hs, ascii h.1 ≠ ascii key) :
    field (readHeaders (text (hs.map header))).1 key = none := by
  induction hs with
  | nil =>
    rw [List.map_nil, readHeaders_blank]
    rfl
  | cons h hs ih =>
    have hfirst := hkey h List.mem_cons_self
    rw [List.map_cons, readHeaders_header hfirst.1 hfirst.2]
    split_ifs with hshort
    · rw [field_cons, if_neg (hother h List.mem_cons_self), Option.or_none]
      exact ih (fun h' hh' ↦ hkey h' (.tail h hh')) fun h' hh' ↦ hother h' (.tail h hh')
    · rfl

theorem field_before {value : Bytes} {key : String} (before after : List (String × Bytes))
    (hkey : ∀ h ∈ before ++ (key, value) :: after, Key h.1 ∧ 10 ∉ h.2)
    (hshort : ∀ h ∈ before, Short h) (hbefore : ∀ h ∈ before, ascii h.1 ≠ ascii key)
    (hafter : ∀ h ∈ after, ascii h.1 ≠ ascii key) :
    field (readHeaders (text ((before ++ (key, value) :: after).map header))).1 key =
      if Short (key, value) then some (cstr value) else none := by
  induction before with
  | nil =>
    have hfirst := hkey (key, value) List.mem_cons_self
    rw [List.nil_append, List.map_cons, readHeaders_header hfirst.1 hfirst.2]
    split_ifs
    · rw [field_cons, if_pos rfl, field_text after (fun h hh ↦ hkey h (.tail _ hh)) hafter]
      rfl
    · rfl
  | cons h before ih =>
    have hfirst := hkey h List.mem_cons_self
    rw [List.cons_append, List.map_cons, readHeaders_header hfirst.1 hfirst.2,
      if_pos (hshort h List.mem_cons_self), field_cons, if_neg (hbefore h List.mem_cons_self),
      Option.or_none]
    exact ih (fun h' hh' ↦ hkey h' (.tail h hh')) (fun h' hh' ↦ hshort h' (.tail h hh'))
      fun h' hh' ↦ hbefore h' (.tail h hh')

def credentials (decodeID : Bytes) : Bytes × Bytes :=
  if 58 ∈ decodeID then (decodeID.takeWhile (· ≠ 58), (decodeID.dropWhile (· ≠ 58)).drop 1)
  else ([], [])

theorem credentials_eq_iff {user pwd decodeID : Bytes} (huser : 58 ∉ user)
    (hcolon : user = [] → pwd = [] → 58 ∈ decodeID) :
    credentials decodeID = (user, pwd) ↔ decodeID = user ++ 58 :: pwd := by
  have hall : ∀ b ∈ user, decide (b ≠ 58) = true :=
    fun b hb ↦ decide_eq_true fun heq ↦ huser (heq ▸ hb)
  unfold credentials
  constructor
  · intro h
    split at h
    · next hmem =>
      cases h
      have hdrop : decodeID.dropWhile (· ≠ 58) = 58 :: (decodeID.dropWhile (· ≠ 58)).drop 1 := by
        have hne : decodeID.dropWhile (· ≠ 58) ≠ [] := fun hnil ↦
          absurd (List.dropWhile_eq_nil_iff.mp hnil 58 hmem) (by decide)
        have hhead := List.head_dropWhile_not (fun b : UInt8 ↦ decide (b ≠ 58)) hne
        obtain ⟨b, rest, hrest⟩ := List.exists_cons_of_ne_nil hne
        simp only [hrest, List.head_cons, decide_eq_false_iff_not, not_not] at hhead
        rw [hrest, hhead]
        rfl
      rw [← hdrop, List.takeWhile_append_dropWhile]
    · next hmem =>
      cases h
      exact absurd (hcolon rfl rfl) hmem
  · rintro rfl
    rw [if_pos (by simp), List.takeWhile_append_of_pos hall, List.dropWhile_append_of_pos hall,
      List.takeWhile_cons_of_neg (by decide), List.dropWhile_cons_of_neg (by decide),
      List.append_nil]
    rfl

variable {env : Env} {geo : Degrees P} {url mount buf user pwd : Bytes}

theorem extractPath_valid {mpt : Bytes} (h : checkMountIsValid mpt = true) :
    extractPath (47 :: mpt) = some mpt := by
  have hall : ∀ b ∈ mpt, decide (b ≠ 63) = true := by
    intro b hb
    refine decide_eq_true ?_
    rintro rfl
    have hchar := List.all_eq_true.mp h 63 hb
    simp [isMountChar] at hchar
  have hsplit : (splitPath (47 :: mpt)).1 = mpt := by
    change ((47 :: mpt).takeWhile (· ≠ 63)).drop 1 = mpt
    rw [List.takeWhile_cons_of_pos (by decide), List.takeWhile_eq_self_iff.mpr hall]
    rfl
  unfold extractPath
  dsimp only
  rw [hsplit, if_pos h]

theorem user_locate (geo : Degrees P) (r : ConnectInfo P) (left : Bytes) :
    (r.locate geo left).userName = r.userName ∧ (r.locate geo left).userPwd = r.userPwd := by
  rw [locate_eq]
  exact ⟨rfl, rfl⟩

theorem decodes_none (hpath : extractPath url = some mount)
    (hfield : field (readHeaders buf).1 "Authorization" = none) :
    Decodes (decodeBuffereventReq env geo url buf) user pwd ↔ user = [] ∧ pwd = [] := by
  rw [decode_eq env geo buf hpath, hfield]
  have hlocate := user_locate geo
    ((info env geo url mount).setFields (readHeaders buf).1) (readHeaders buf).2
  constructor
  · rintro ⟨r, left, hr, rfl, rfl⟩
    cases hr
    exact hlocate
  · rintro ⟨rfl, rfl⟩
    exact ⟨_, _, rfl, hlocate⟩

theorem user_setUser (auth decodeID : Bytes) (r : ConnectInfo P)
    (hr : r.userName = [] ∧ r.userPwd = []) :
    ((r.setUser auth decodeID).userName, (r.setUser auth decodeID).userPwd) =
      credentials decodeID := by
  unfold ConnectInfo.setUser credentials
  split
  · rfl
  · rw [hr.1, hr.2]

theorem decodes_some {auth : Bytes} (hpath : extractPath url = some mount)
    (hfield : field (readHeaders buf).1 "Authorization" = some auth) :
    Decodes (decodeBuffereventReq env geo url buf) user pwd ↔
      (decodeBasicAuthentication auth).map credentials = some (user, pwd) := by
  rw [decode_eq env geo buf hpath, hfield]
  dsimp only
  cases decodeBasicAuthentication auth with
  | none =>
    refine iff_of_false ?_ (by simp)
    rintro ⟨r, left, hr, -⟩
    cases hr
  | some decodeID =>
    let r := (info env geo url mount).setFields (readHeaders buf).1
    have huser := user_setUser auth decodeID r ⟨rfl, rfl⟩
    have hlocate := user_locate geo (r.setUser auth decodeID) (readHeaders buf).2
    rw [Option.map_some, Option.some_inj, ← huser, Prod.mk.injEq, ← hlocate.1, ← hlocate.2]
    constructor
    · rintro ⟨r', left, hr, rfl, rfl⟩
      cases hr
      exact ⟨rfl, rfl⟩
    · exact fun h ↦ ⟨_, _, rfl, h⟩

theorem encodeGroups_letters {s : Bytes} {b : UInt8} (h : b ∈ encodeGroups s) : b ≠ 10 ∧ b ≠ 0 := by
  have halphabet : alphabet.all (fun b ↦ b ≠ 10 && b ≠ 0) = true := by
    decide +kernel
  rcases mem_encodeGroups h with hb | rfl
  · simpa using List.all_eq_true.mp halphabet b hb
  · decide

def authLine (auth : Bytes) : String × Bytes :=
  ("Authorization", ascii "Basic " ++ utilBase64Encode auth)

theorem mpt_line {mpt : Bytes} (h : checkMountIsValid mpt = true) : 10 ∉ mpt := by
  intro hmem
  have hchar := List.all_eq_true.mp h 10 hmem
  simp [isMountChar] at hchar

structure Other (h : String × Bytes) : Prop where
  key : Key h.1
  value : 10 ∉ h.2
  other : ascii h.1 ≠ ascii "Authorization"

theorem other_of_mem {key : String} {value : Bytes}
    (hkey : key ∈ ["Host", "Ntrip-Version", "User-Agent", "Transfer-Encoding", "Connection"])
    (hvalue : 10 ∉ value) : Other (key, value) := by
  have hall : ∀ key ∈ ["Host", "Ntrip-Version", "User-Agent", "Transfer-Encoding", "Connection"],
      Key key ∧ ascii key ≠ ascii "Authorization" := by
    decide +kernel
  exact { key := (hall key hkey).1, value := hvalue, other := (hall key hkey).2 }

theorem key_authorization : Key "Authorization" := by
  decide +kernel

theorem short_iff {key : String} {value : Bytes} :
    Short (key, value) ↔ (ascii key).length + (value.length + 2) ≤ 1024 := by
  simp only [Short, header, List.length_append, List.length_cons]

theorem agent_line (sw : Software) : 10 ∉ sw.agent ∧ sw.agent.length ≤ 519 := by
  have hline := sw.line
  have hshort := sw.short
  have hstart : 10 ∉ ascii "NTRIP " ∧ (ascii "NTRIP ").length = 6 := by decide +kernel
  rw [List.mem_append, not_or] at hline
  rw [List.length_append] at hshort
  unfold Software.agent
  simp only [List.mem_append, List.mem_cons, List.length_append, List.length_cons, hstart.2]
  constructor
  · rintro ((h | h) | h | h)
    · exact hstart.1 h
    · exact hline.1 h
    · exact absurd h (by decide)
    · exact hline.2 h
  · omega

theorem request_lines (sw : Software) {type : RelayType} {version2 : Bool} {mpt host auth : Bytes}
    (hcarries : carries type version2 = true) (hmpt : checkMountIsValid mpt = true)
    (hhost : 10 ∉ host ∧ host.length ≤ 1018) (hauth : auth ≠ []) :
    ∃ first before after,
      buildNtripRequest sw type version2 mpt host auth =
        text (first :: (before ++ authLine auth :: after).map header) ∧
      10 ∉ first ∧ (∀ h ∈ before, Other h ∧ Short h) ∧ ∀ h ∈ after, Other h := by
  have hagent := agent_line sw
  have hfirst (a b : String) (ha : 10 ∉ ascii a) (hb : 10 ∉ ascii b) :
      10 ∉ ascii a ++ mpt ++ ascii b := by
    simp only [List.mem_append, not_or]
    exact ⟨⟨ha, mpt_line hmpt⟩, hb⟩
  have hlength : (ascii "Host").length = 4 ∧ (ascii "User-Agent").length = 10 := by decide +kernel
  have hHost : Other ("Host", host) ∧ Short ("Host", host) :=
    ⟨other_of_mem (by simp) hhost.1, short_iff.mpr (by omega)⟩
  have hVersion : Other ("Ntrip-Version", ascii "Ntrip/2.0") ∧
      Short ("Ntrip-Version", ascii "Ntrip/2.0") :=
    ⟨other_of_mem (by simp) (by decide +kernel), by decide +kernel⟩
  have hAgent : Other ("User-Agent", sw.agent) ∧ Short ("User-Agent", sw.agent) :=
    ⟨other_of_mem (by simp) hagent.1, short_iff.mpr (by omega)⟩
  have hChunked : Other ("Transfer-Encoding", ascii "chunked") :=
    other_of_mem (by simp) (by decide +kernel)
  have hClose : Other ("Connection", ascii "close") := other_of_mem (by simp) (by decide +kernel)
  have hb64 : (if auth = [] then [] else utilBase64Encode auth) = utilBase64Encode auth :=
    if_neg hauth
  unfold buildNtripRequest
  rw [hb64]
  match type, version2 with
  | .pull, true =>
    exact ⟨_, [_, _, _], [_], rfl, hfirst _ _ (by decide +kernel) (by decide +kernel),
      by simp [hHost, hVersion, hAgent], by simp [hClose]⟩
  | .pull, false =>
    exact ⟨_, [_], [], rfl,
      hfirst _ _ (by decide +kernel) (by decide +kernel), by simp [hAgent], by simp⟩
  | .push, true =>
    exact ⟨_, [_, _], [_, _, _], rfl, hfirst _ _ (by decide +kernel) (by decide +kernel),
      by simp [hHost, hVersion], by simp [hAgent, hChunked, hClose]⟩
  | .push, false => cases hcarries

theorem field_request (sw : Software) {type : RelayType} {version2 : Bool}
    {mpt host auth line buf : Bytes} (hcarries : carries type version2 = true)
    (hmpt : checkMountIsValid mpt = true) (hhost : 10 ∉ host ∧ host.length ≤ 1018)
    (hauth : auth ≠ [])
    (hline : readln (buildNtripRequest sw type version2 mpt host auth) = some (line, buf)) :
    field (readHeaders buf).1 "Authorization" =
      if Short (authLine auth) then some (ascii "Basic " ++ utilBase64Encode auth) else none := by
  obtain ⟨first, before, after, htext, hfirst, hbefore, hafter⟩ :=
    request_lines sw hcarries hmpt hhost hauth
  have hletters : ∀ b ∈ ascii "Basic " ++ utilBase64Encode auth, b ≠ 10 ∧ b ≠ 0 := by
    have hbasic : ∀ b ∈ ascii "Basic ", b ≠ 10 ∧ b ≠ 0 := by decide +kernel
    intro b hb
    rcases List.mem_append.mp hb with hb | hb
    · exact hbasic b hb
    · exact encodeGroups_letters hb
  have hcstr :=
    (cstr_eq_iff (ascii "Basic " ++ utilBase64Encode auth)).mpr fun h0 ↦ (hletters 0 h0).2 rfl
  rw [htext, readln_text hfirst] at hline
  cases hline
  refine (field_before before after (fun h hh ↦ ?_) (fun h hh ↦ (hbefore h hh).2)
    (fun h hh ↦ (hbefore h hh).1.other) fun h hh ↦ (hafter h hh).other).trans ?_
  · rcases List.mem_append.mp hh with hh | hh
    · exact ⟨(hbefore h hh).1.key, (hbefore h hh).1.value⟩
    · rcases List.mem_cons.mp hh with rfl | hh
      · exact ⟨key_authorization, fun hmem ↦ (hletters 10 hmem).1 rfl⟩
      · exact ⟨(hafter h hh).key, (hafter h hh).value⟩
  · rw [hcstr]
    rfl

theorem length_utilBase64Encode {auth : Bytes} (h0 : 0 ∉ auth) :
    (utilBase64Encode auth).length = 4 * ((auth.length + 2) / 3) := by
  unfold utilBase64Encode
  rw [(cstr_eq_iff auth).mpr h0, length_encodeGroups]

theorem decodes_iff (sw : Software) (env : Env) (geo : Degrees P) {type : RelayType}
    {version2 : Bool} {mpt host user pwd line buf : Bytes} (hcarries : carries type version2 = true)
    (hmpt : checkMountIsValid mpt = true) (hhost : 10 ∉ host ∧ host.length ≤ 1018)
    (huser : 58 ∉ user)
    (hline :
      readln (buildNtripRequest sw type version2 mpt host (user ++ 58 :: pwd)) = some (line, buf)) :
    Decodes (decodeBuffereventReq env geo (47 :: mpt) buf) user pwd ↔
      Encodable (user ++ 58 :: pwd) := by
  have hfield := field_request sw hcarries hmpt hhost (by simp) hline
  have hkey : (ascii "Authorization").length = 13 ∧ (ascii "Basic ").length = 6 := by decide +kernel
  have hencodable : Encodable (user ++ 58 :: pwd) →
      (utilBase64Encode (user ++ 58 :: pwd)).length ≤ 252 := by
    rintro ⟨hlen, h0, -⟩
    rw [length_utilBase64Encode h0]
    omega
  by_cases hshort : Short (authLine (user ++ 58 :: pwd))
  · rw [if_pos hshort] at hfield
    rw [decodes_some (extractPath_valid hmpt) hfield, decodeBasicAuthentication_encoded]
    split_ifs with hlen
    · have hcolon : user = [] → pwd = [] →
          58 ∈ utilBase64Decode (utilBase64Encode (user ++ 58 :: pwd)) := by
        rintro rfl rfl
        decide +kernel
      rw [Option.map_some, Option.some_inj, credentials_eq_iff huser hcolon, decode_encode_iff]
      refine ⟨fun h ↦ ⟨?_, h⟩, And.right⟩
      rw [length_utilBase64Encode h.1, authSize] at hlen
      omega
    · refine iff_of_false (by simp) fun h ↦ hlen ((hencodable h).trans_lt ?_)
      decide
  · rw [if_neg hshort] at hfield
    rw [decodes_none (extractPath_valid hmpt) hfield]
    refine iff_of_false ?_ fun h ↦ hshort (short_iff.mpr ?_)
    · rintro ⟨rfl, rfl⟩
      exact hshort (by decide +kernel)
    · have hle := hencodable h
      rw [List.length_append, hkey.1, hkey.2]
      omega

theorem decodes_source (sw : Software) (env : Env) (geo : Degrees P)
    {mpt host user pwd line buf : Bytes} (hmpt : checkMountIsValid mpt = true) (huser : 58 ∉ user)
    (hpwd : 10 ∉ pwd)
    (hline :
      readln (buildNtripRequest sw .push false mpt host (user ++ 58 :: pwd)) = some (line, buf)) :
    Decodes (decodeBuffereventReq env geo (47 :: mpt) buf) user pwd ↔ user = [] ∧ pwd = [] := by
  have hall : ∀ b ∈ user, decide (b ≠ 58) = true :=
    fun b hb ↦ decide_eq_true fun heq ↦ huser (heq ▸ hb)
  have hpassword : ((user ++ 58 :: pwd).dropWhile (· ≠ 58)).drop 1 = pwd := by
    rw [List.dropWhile_append_of_pos hall, List.dropWhile_cons_of_neg (by decide)]
    rfl
  have hfirst : 10 ∉ ascii "SOURCE " ++ pwd ++ ascii " /" ++ mpt ++ ascii " HTTP/1.1" := by
    simp only [List.mem_append, not_or]
    exact ⟨⟨⟨⟨by decide +kernel, hpwd⟩, by decide +kernel⟩, mpt_line hmpt⟩, by decide +kernel⟩
  have htext : buildNtripRequest sw .push false mpt host (user ++ 58 :: pwd) =
      text ((ascii "SOURCE " ++ pwd ++ ascii " /" ++ mpt ++ ascii " HTTP/1.1") ::
        [("Source-Agent", sw.agent)].map header) := by
    simp only [buildNtripRequest, hpassword, List.mem_append, List.mem_cons, true_or, or_true,
      if_true]
  refine decodes_none (extractPath_valid hmpt) ?_
  rw [htext, readln_text hfirst] at hline
  cases hline
  have hkey : Key "Source-Agent" ∧ ascii "Source-Agent" ≠ ascii "Authorization" := by decide +kernel
  refine field_text _ (fun h hh ↦ ?_) fun h hh ↦ ?_
  · cases List.mem_singleton.mp hh
    exact ⟨hkey.1, (agent_line sw).1⟩
  · cases List.mem_singleton.mp hh
    exact hkey.2

/-- The buffer holds all but the overlong credentials, and a user and a password come through a
request with a header line for them if and only if they are encodable. -/
theorem basic_credentials (sw : Software) (env : Env) (geo : Degrees P) :
    (∀ authentication, (decodeBasicAuthentication authentication).isSome ↔
      ¬ Overlong authentication) ∧
    ∀ (type : RelayType) (version2 : Bool) (mpt host user pwd line buf : Bytes),
      checkMountIsValid mpt = true → 10 ∉ host ∧ host.length ≤ 1018 → 58 ∉ user →
      readln (buildNtripRequest sw type version2 mpt host (user ++ 58 :: pwd)) = some (line, buf) →
      (carries type version2 = true →
        (Decodes (decodeBuffereventReq env geo (47 :: mpt) buf) user pwd ↔
          Encodable (user ++ 58 :: pwd))) ∧
      (carries type version2 = false → 10 ∉ pwd →
        (Decodes (decodeBuffereventReq env geo (47 :: mpt) buf) user pwd ↔
          user = [] ∧ pwd = [])) := by
  refine ⟨decodeBasicAuthentication_isSome,
    fun type version2 mpt host user pwd line buf hmpt hhost huser hline ↦
      ⟨fun hcarries ↦ decodes_iff sw env geo hcarries hmpt hhost huser hline,
        fun hcarries hpwd ↦ ?_⟩⟩
  obtain ⟨rfl, rfl⟩ : type = .push ∧ version2 = false := by
    cases type <;> cases version2 <;> first | exact ⟨rfl, rfl⟩ | cases hcarries
  exact decodes_source sw env geo hmpt huser hpwd hline

def release : Software where
  name := ascii "NavCaster"
  version := ascii "1"
  line := by decide +kernel
  short := by decide +kernel

def pullRequest (user pwd : Bytes) : Bytes :=
  buildNtripRequest release .pull true (ascii "M") (ascii "h:2101") (user ++ 58 :: pwd)

theorem readln_pullRequest (user pwd : Bytes) : readln (pullRequest user pwd) =
    some (ascii "GET /M HTTP/1.1", ((readln (pullRequest user pwd)).map Prod.snd).getD []) := by
  have hfirst : 10 ∉ ascii "GET /" ++ ascii "M" ++ ascii " HTTP/1.1" := by decide +kernel
  rw [pullRequest, buildNtripRequest, readln_text hfirst]
  rfl

theorem credentials_pulled :
    Decodes (decodeBuffereventReq anyMount noDegrees (47 :: ascii "M")
        (((readln (pullRequest (ascii "u") (ascii "p"))).map Prod.snd).getD [])) (ascii "u")
          (ascii "p") ↔
      Encodable (ascii "u" ++ 58 :: ascii "p") := by
  have hmpt : checkMountIsValid (ascii "M") = true := by decide +kernel
  have hhost : 10 ∉ ascii "h:2101" ∧ (ascii "h:2101").length ≤ 1018 := by decide +kernel
  have huser : 58 ∉ ascii "u" := by decide +kernel
  exact ((basic_credentials release anyMount noDegrees).2 .pull true _ _ _ _ _ _ hmpt hhost huser
    (readln_pullRequest _ _)).1 rfl

/-- 256 letters run over the buffer, and of a user whose name is not in ASCII another one is
made. -/
theorem not_basic_credentials :
    (¬ ∀ line authentication : Bytes, line.length ≤ 1024 →
      headerItem line = some (ascii "Authorization", authentication) →
      (decodeBasicAuthentication authentication).isSome) ∧
    ¬ ∀ user pwd : Bytes, 58 ∉ user →
      Decodes (decodeBuffereventReq anyMount noDegrees (47 :: ascii "M")
        (((readln (pullRequest user pwd)).map Prod.snd).getD [])) user pwd := by
  constructor
  · intro h
    have hsome := h (ascii "Authorization: Basic " ++ List.replicate 256 65)
      (ascii "Basic " ++ List.replicate 256 65) (by decide +kernel) (by decide +kernel)
    refine (decodeBasicAuthentication_isSome _).mp hsome ⟨rfl, ascii " ", List.replicate 256 65, [],
      (List.append_nil _).symm, by decide +kernel, fun b hb ↦ ?_, List.length_replicate⟩
    rw [List.eq_of_mem_replicate hb]
    decide
  · intro h
    have hdecodes := h [0x61, 0xC3, 0xA9] (ascii "x") (by decide)
    have hcarries : carries .pull true = true := rfl
    obtain ⟨-, -, hplain⟩ := (decodes_iff release anyMount noDegrees hcarries (by decide +kernel)
      (by decide +kernel) (by decide) (readln_pullRequest _ _)).mp hdecodes
    exact absurd (hplain 1 0xC3 rfl (by decide)) (by decide)

end NavCaster.Service.BasicAuth
