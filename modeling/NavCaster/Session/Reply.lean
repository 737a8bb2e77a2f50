import NavCaster.Service.BasicAuth
import NavCaster.Service.ExpiryDate
import NavCaster.Session.TransferEncoding

namespace NavCaster.Session.Reply

open NavCaster.Library.Strto NavCaster.Library.Lines NavCaster.Library.Scan
  NavCaster.Library.Calendar
open NavCaster.Base.ConnectKey (decimal decimal_eq toText)
open NavCaster.Service.ExpiryDate (setw)
open NavCaster.Service.BasicAuth
open NavCaster.Session.Response NavCaster.Session.TransferEncoding

def dayNames : List String := ["Sun", "Mon", "Tue", "Wed", "Thu", "Fri", "Sat"]

def monthNames : List String :=
  ["Jan", "Feb", "Mar", "Apr", "May", "Jun", "Jul", "Aug", "Sep", "Oct", "Nov", "Dec"]

/-- `util_get_http_date` at the time `t`, which began with a Thursday. -/
def utilGetHttpDate (t : ℤ) : Bytes :=
  let tm := gmtime t
  ascii (dayNames.getD ((t / 86400 + 4) % 7).toNat "") ++ ascii ", " ++ setw 2 (toText tm.mday) ++
    32 :: ascii (monthNames.getD tm.mon.toNat "") ++ 32 :: toText (tm.year + 1900) ++
    32 :: setw 2 (toText tm.hour) ++ 58 :: setw 2 (toText tm.min) ++ 58 :: setw 2 (toText tm.sec) ++
    ascii " GMT"

inductive ReplyType
  | server | client
  deriving DecidableEq

def chunkedHeader (chunked : Bool) : List (String × Bytes) :=
  if chunked then [("Transfer-Encoding", ascii "chunked")] else []

def replyHeaders (sw : Software) (t : ℤ) (chunked : Bool) : ReplyType → List (String × Bytes)
  | .server =>
    [("Ntrip-Version", ascii "Ntrip/2.0"),
      ("Server", ascii "Ntrip " ++ sw.name ++ 95 :: sw.version ++ ascii "/2.0"),
      ("Date", utilGetHttpDate t)] ++ chunkedHeader chunked ++
    [("Connection", ascii "close")]
  | .client =>
    [("Ntrip-Version", ascii "Ntrip/2.0"),
      ("Server", ascii "Ntrip " ++ sw.name ++ 95 :: sw.version ++ ascii "/2.0"),
      ("Date", utilGetHttpDate t),
      ("Cache-Control", ascii "no-store, no-cache, max-age=0"),
      ("Pragma", ascii "no-cache"),
      ("Connection", ascii "close")] ++ chunkedHeader chunked ++
    [("Content-Type", ascii "gnss/data")]

def buildNrtipReply (sw : Software) (t : ℤ) (type : ReplyType) (version2 chunked : Bool) : Bytes :=
  if version2 then text (ascii "HTTP/1.1 200 OK" :: (replyHeaders sw t chunked type).map header)
  else text [ascii "ICY 200 OK"]

/-- A byte that is neither the end of a line nor in the word `chunked` alone. -/
def Quiet (b : UInt8) : Prop := b ≠ 10 ∧ b ≠ 107

instance : DecidablePred Quiet := fun b ↦ inferInstanceAs (Decidable (b ≠ 10 ∧ b ≠ 107))

theorem quiet_toText {n : ℤ} {b : UInt8} (h : b ∈ toText n) : Quiet b := by
  have hdecimal {m : ℕ} (hb : b ∈ decimal m) : Quiet b := by
    obtain ⟨vs, hvs, -, hlt, -⟩ := decimal_eq m
    rw [hvs] at hb
    obtain ⟨v, hv, rfl⟩ := List.mem_map.mp hb
    have hv := hlt v hv
    interval_cases v <;> decide
  unfold toText at h
  split at h
  · obtain rfl | hb := List.mem_cons.mp h
    · decide
    · exact hdecimal hb
  · exact hdecimal h

theorem quiet_setw {w : ℕ} {n : ℤ} {b : UInt8} (h : b ∈ setw w (toText n)) : Quiet b := by
  obtain hb | hb := List.mem_append.mp h
  · obtain rfl := List.eq_of_mem_replicate hb
    decide
  · exact quiet_toText hb

theorem quiet_name {names : List String} (hnames : ∀ name ∈ names, ∀ b ∈ ascii name, Quiet b)
    (i : ℕ) {b : UInt8} (h : b ∈ ascii (names.getD i "")) : Quiet b := by
  rw [List.getD_eq_getElem?_getD] at h
  cases hi : names[i]? with
  | none =>
    rw [hi] at h
    cases h
  | some name =>
    rw [hi] at h
    exact hnames name (List.mem_of_getElem? hi) b h

theorem quiet_names :
    ∀ name ∈ dayNames ++ monthNames ++ [", ", " GMT"], ∀ b ∈ ascii name, Quiet b := by
  decide +kernel

theorem quiet_utilGetHttpDate {t : ℤ} {b : UInt8} (h : b ∈ utilGetHttpDate t) : Quiet b := by
  have hday : ∀ name ∈ dayNames, ∀ b ∈ ascii name, Quiet b := fun name hn ↦
    quiet_names name (List.mem_append_left _ (List.mem_append_left _ hn))
  have hmonth : ∀ name ∈ monthNames, ∀ b ∈ ascii name, Quiet b := fun name hn ↦
    quiet_names name (List.mem_append_left _ (List.mem_append_right _ hn))
  have hmark : ∀ name ∈ [", ", " GMT"], ∀ b ∈ ascii name, Quiet b := fun name hn ↦
    quiet_names name (List.mem_append_right _ hn)
  unfold utilGetHttpDate at h
  simp only [List.mem_append, List.mem_cons] at h
  obtain (((((((h | h) | h) | rfl | h) | rfl | h) | rfl | h) | rfl | h) | rfl | h) | h := h
  · exact quiet_name hday _ h
  · exact hmark _ (by simp) _ h
  · exact quiet_setw h
  · decide
  · exact quiet_name hmonth _ h
  · decide
  · exact quiet_toText h
  · decide
  · exact quiet_setw h
  · decide
  · exact quiet_setw h
  · decide
  · exact quiet_setw h
  · exact hmark _ (by simp) _ h

theorem not_hasWord {line : Bytes} (h : ∀ b ∈ line, Quiet b) : ¬ HasWord line := by
  intro hword
  have hmem : 107 ∈ ascii "chunked" := by decide +kernel
  exact (h 107 (hword.subset hmem)).2 rfl

def PlainLine (h : String × Bytes) : Prop :=
  Key h.1 ∧ (∀ b ∈ ascii h.1, Quiet b) ∧ ∀ b ∈ h.2, Quiet b

theorem PlainLine.not_hasWord {h : String × Bytes} (hplain : PlainLine h) :
    ¬ HasWord (header h) := by
  apply Reply.not_hasWord
  intro b hb
  obtain hb | hb := List.mem_append.mp hb
  · exact hplain.2.1 b hb
  · obtain rfl | hb := List.mem_cons.mp hb
    · decide
    · obtain rfl | hb := List.mem_cons.mp hb
      · decide
      · exact hplain.2.2 b hb

def statusOk : Bytes := ascii "HTTP/1.1 200 OK"

theorem minor_one : ∀ b ∈ ascii "1", b ≠ 32 ∧ b ≠ 10 := by decide +kernel

theorem reason_ok : 10 ∉ ascii " OK" := by decide +kernel

def okReply (hs : List (String × Bytes)) (hkey : ∀ h ∈ hs, Key h.1 ∧ 10 ∉ h.2) : OkHeader where
  minor := ascii "1"
  reason := ascii " OK"
  fields := hs.attach.map fun h ↦
    { name := ascii h.1.1
      value := 32 :: h.1.2
      name_eq := fun b hb ↦ ⟨((hkey h.1 h.2).1 b hb).2.1, ((hkey h.1 h.2).1 b hb).1⟩
      value_eq := fun hb ↦ (hkey h.1 h.2).2 ((List.mem_cons.mp hb).resolve_left (by decide)) }
  minor_eq := minor_one
  reason_eq := reason_ok

theorem lines_okReply (hs : List (String × Bytes)) (hkey : ∀ h ∈ hs, Key h.1 ∧ 10 ∉ h.2) :
    (okReply hs hkey).lines = hs.map header := by
  unfold OkHeader.lines okReply
  rw [List.map_map]
  exact hs.attach_map_val (f := header)

theorem bytes_okReply (hs : List (String × Bytes)) (hkey : ∀ h ∈ hs, Key h.1 ∧ 10 ∉ h.2) :
    (okReply hs hkey).bytes = text (statusOk :: hs.map header) := by
  have hstatus : (okReply hs hkey).statusLine = statusOk := by
    change ascii "HTTP/1." ++ ascii "1" ++ ascii " 200" ++ ascii " OK" = _
    decide +kernel
  unfold OkHeader.bytes
  rw [hstatus, lines_okReply]
  rfl

theorem told_plain {hs : List (String × Bytes)} (hplain : ∀ h ∈ hs, PlainLine h)
    (more : List Bytes) :
    Told (hs.map header ++ more) ↔ Told more := by
  induction hs with
  | nil => rfl
  | cons h hs ih =>
    have hword := (hplain h List.mem_cons_self).not_hasWord
    have hrest := ih fun h' hh' ↦ hplain h' (.tail _ hh')
    rw [List.map_cons, List.cons_append, told_cons, hrest]
    exact ⟨fun ht ↦ ht.elim (fun ha ↦ absurd ha.hasWord hword) And.right, fun ht ↦ .inr ⟨hword, ht⟩⟩

theorem replyHeaders_eq {sw : Software} (hsw : 107 ∉ sw.name ++ sw.version) (t : ℤ) (chunked : Bool)
    (type : ReplyType) : ∃ before after, replyHeaders sw t chunked type =
      before ++ (chunkedHeader chunked ++ after) ∧ ∀ h ∈ before ++ after, PlainLine h := by
  have hkeys : ∀ key ∈ ["Ntrip-Version", "Server", "Date", "Cache-Control", "Pragma", "Connection",
      "Content-Type"], Key key ∧ ∀ b ∈ ascii key, Quiet b := by
    decide +kernel
  have htexts :
      ∀ value ∈
        ["Ntrip/2.0", "Ntrip ", "/2.0", "no-store, no-cache, max-age=0", "no-cache", "close",
          "gnss/data"], ∀ b ∈ ascii value, Quiet b := by
    decide +kernel
  have hplain {key value : String}
      (hkey :
        key ∈
          ["Ntrip-Version", "Server", "Date", "Cache-Control", "Pragma", "Connection",
            "Content-Type"]) (hvalue : value ∈ ["Ntrip/2.0", "Ntrip ", "/2.0",
      "no-store, no-cache, max-age=0", "no-cache", "close",
      "gnss/data"]) : PlainLine (key, ascii value) :=
    ⟨(hkeys key hkey).1, (hkeys key hkey).2, htexts value hvalue⟩
  have hdate : PlainLine ("Date", utilGetHttpDate t) :=
    ⟨(hkeys _ (by simp)).1, (hkeys _ (by simp)).2, fun b ↦ quiet_utilGetHttpDate⟩
  have hserver :
      PlainLine ("Server", ascii "Ntrip " ++ sw.name ++ 95 :: sw.version ++ ascii "/2.0") := by
    have hline := sw.line
    simp only [List.mem_append, not_or] at hsw hline
    refine ⟨(hkeys _ (by simp)).1, (hkeys _ (by simp)).2, fun b hb ↦ ?_⟩
    simp only [List.mem_append, List.mem_cons] at hb
    obtain ((hb | hb) | rfl | hb) | hb := hb
    · exact htexts _ (by simp) b hb
    · exact ⟨fun h ↦ hline.1 (h ▸ hb), fun h ↦ hsw.1 (h ▸ hb)⟩
    · decide
    · exact ⟨fun h ↦ hline.2 (h ▸ hb), fun h ↦ hsw.2 (h ▸ hb)⟩
    · exact htexts _ (by simp) b hb
  cases type with
  | server =>
    refine ⟨[_, _, _], [_], rfl, ?_⟩
    simp only [List.cons_append, List.nil_append, List.forall_mem_cons]
    exact ⟨hplain (by simp) (by simp), hserver, hdate, hplain (by simp) (by simp), by simp⟩
  | client =>
    refine ⟨[_, _, _, _, _, _], [_], rfl, ?_⟩
    simp only [List.cons_append, List.nil_append, List.forall_mem_cons]
    exact ⟨hplain (by simp) (by simp), hserver, hdate, hplain (by simp) (by simp),
      hplain (by simp) (by simp), hplain (by simp) (by simp), hplain (by simp) (by simp), by simp⟩

theorem told_chunkedHeader (chunked : Bool) (more : List Bytes) :
    Told ((chunkedHeader chunked).map header ++ more) ↔ chunked = true ∨ Told more := by
  cases chunked with
  | false => simp [chunkedHeader]
  | true =>
    have hfind : findText (ascii "chunked") (header ("Transfer-Encoding", ascii "chunked")) =
        some (ascii "chunked") := by
      decide +kernel
    have hannounces : Announces (header ("Transfer-Encoding", ascii "chunked")) := by
      refine (announces_iff hfind).mpr ?_
      decide +kernel
    exact iff_of_true
      (by rw [chunkedHeader, if_pos rfl]; exact (told_cons _ _).mpr (.inl hannounces)) (.inl rfl)

/-- A reply is taken for what it says, but for a body that announces chunks where the header does
not. -/
theorem verify_reply {sw : Software} (hsw : 107 ∉ sw.name ++ sw.version) (t : ℤ) (type : ReplyType)
    (version2 chunked : Bool) (body : Bytes) :
    ∃ b, verifyNtripResponse (buildNrtipReply sw t type version2 chunked ++ body) =
      some ⟨version2, b⟩ ∧
      (b = true ↔ version2 = true ∧ (chunked = true ∨ Told (body.splitOn 10))) := by
  cases version2 with
  | false =>
    have hicy :
        (ascii "ICY 200 OK").isPrefixOf (buildNrtipReply sw t type false chunked ++ body) = true :=
          rfl
    refine ⟨false, ?_, by simp⟩
    unfold verifyNtripResponse
    rw [if_pos hicy]
  | true =>
    obtain ⟨before, after, heq, hplain⟩ := replyHeaders_eq hsw t chunked type
    have hbefore : ∀ h ∈ before, PlainLine h := fun h hh ↦ hplain h (List.mem_append_left _ hh)
    have hafter : ∀ h ∈ after, PlainLine h := fun h hh ↦ hplain h (List.mem_append_right _ hh)
    have hkey : ∀ h ∈ replyHeaders sw t chunked type, Key h.1 ∧ 10 ∉ h.2 := by
      have hchunked : Key "Transfer-Encoding" ∧ 10 ∉ ascii "chunked" := by decide +kernel
      have hline {h : String × Bytes} (hh : PlainLine h) : Key h.1 ∧ 10 ∉ h.2 :=
        ⟨hh.1, fun hmem ↦ (hh.2.2 10 hmem).1 rfl⟩
      intro h hh
      rw [heq, List.mem_append, List.mem_append] at hh
      obtain hh | hh | hh := hh
      · exact hline (hbefore h hh)
      · unfold chunkedHeader at hh
        split at hh
        · obtain rfl := List.mem_singleton.mp hh
          exact hchunked
        · cases hh
      · exact hline (hafter h hh)
    have hbytes : buildNrtipReply sw t type true chunked ++ body =
        (okReply (replyHeaders sw t chunked type) hkey).bytes ++ body := by
      rw [bytes_okReply]
      rfl
    have hstatus : ¬ HasWord (okReply (replyHeaders sw t chunked type) hkey).statusLine := by
      apply not_hasWord
      change ∀ b ∈ ascii "HTTP/1." ++ ascii "1" ++ ascii " 200" ++ ascii " OK", Quiet b
      decide +kernel
    rw [hbytes, OkHeader.accepted]
    refine ⟨_, rfl, ?_⟩
    have htold : Told ((replyHeaders sw t chunked type).map header ++ body.splitOn 10) ↔
        chunked = true ∨ Told (body.splitOn 10) := by
      rw [heq, List.map_append, List.map_append, List.append_assoc, told_plain hbefore,
        List.append_assoc, told_chunkedHeader, told_plain hafter]
    rw [OkHeader.saysChunked_bytes, lines_okReply, htold]
    simp [hstatus]

end NavCaster.Session.Reply
