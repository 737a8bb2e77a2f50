import NavCaster.Service.PushRequest

namespace NavCaster.Service.RelayRequest

open NavCaster.Library.Strto NavCaster.Library.Lines NavCaster.Library.Scan
open NavCaster.Base.Base64
open NavCaster.Auth.Verify (AuthType)
open NavCaster.Service.Request NavCaster.Service.Segmentation NavCaster.Service.BasicAuth
open NavCaster.Service.Dispatch

variable {P : Type} {sw : Software} {type : RelayType} {version2 : Bool} {mpt host auth : Bytes}

/-- What a task is given has no line within, and its header lines are read to their ends. -/
structure Clean (mpt host auth : Bytes) : Prop where
  mpt : 10 ∉ mpt
  host : 10 ∉ host ∧ host.length ≤ 1018
  auth : 10 ∉ auth ∧ auth.length ≤ 750

def authText (auth : Bytes) : Bytes := if auth = [] then [] else utilBase64Encode auth

def password (auth : Bytes) : Bytes := if 58 ∈ auth then (auth.dropWhile (· ≠ 58)).drop 1 else auth

def requestLine (type : RelayType) (version2 : Bool) (mpt auth : Bytes) : Bytes :=
  match type, version2 with
  | .pull, true => ascii "GET /" ++ mpt ++ ascii " HTTP/1.1"
  | .pull, false => ascii "GET /" ++ mpt ++ ascii " HTTP/1.0"
  | .push, true => ascii "POST /" ++ mpt ++ ascii " HTTP/1.1"
  | .push, false => ascii "SOURCE " ++ password auth ++ ascii " /" ++ mpt ++ ascii " HTTP/1.1"

def requestHeaders (sw : Software) (type : RelayType) (version2 : Bool) (host auth : Bytes) :
    List (String × Bytes) :=
  match type, version2 with
  | .pull, true =>
    [("Host", host), ("Ntrip-Version", ascii "Ntrip/2.0"), ("User-Agent", sw.agent),
      ("Authorization", ascii "Basic " ++ authText auth), ("Connection", ascii "close")]
  | .pull, false =>
    [("User-Agent", sw.agent), ("Authorization", ascii "Basic " ++ authText auth)]
  | .push, true =>
    [("Host", host), ("Ntrip-Version", ascii "Ntrip/2.0"),
      ("Authorization", ascii "Basic " ++ authText auth), ("User-Agent", sw.agent),
      ("Transfer-Encoding", ascii "chunked"), ("Connection", ascii "close")]
  | .push, false => [("Source-Agent", sw.agent)]

theorem buildNtripRequest_eq (sw : Software) (type : RelayType) (version2 : Bool)
    (mpt host auth : Bytes) :
    buildNtripRequest sw type version2 mpt host auth =
      text
        (requestLine type version2 mpt auth ::
          (requestHeaders sw type version2 host auth).map header) := by
  cases type with
  | pull => cases version2 <;> rfl
  | push => cases version2 <;> rfl

theorem readln_text_append {line : Bytes} (hline : 10 ∉ line) (lines : List Bytes) (more : Bytes) :
    readln (text (line :: lines) ++ more) = some (line, text lines ++ more) := by
  have hread := readln_crlf hline (text lines ++ more)
  simpa only [text, List.flatMap_cons, List.append_assoc] using hread

theorem readHeaders_text {hs : List (String × Bytes)}
    (hs_eq : ∀ h ∈ hs, Key h.1 ∧ 10 ∉ h.2 ∧ Short h) (more : Bytes) :
    readHeaders (text (hs.map header) ++ more) = (hs.map fun h ↦ (ascii h.1, cstr h.2), more) := by
  induction hs with
  | nil =>
    have hempty : (10 : UInt8) ∉ ([] : Bytes) := List.not_mem_nil
    have hread : readln (text [] ++ more) = some ([], more) := readln_crlf hempty more
    rw [List.map_nil, readHeaders]
    split
    · next hr => cases hread.symm.trans hr
    · next hr =>
      cases hread.symm.trans hr
      rfl
  | cons h hs ih =>
    obtain ⟨hkey, hvalue, hshort⟩ := hs_eq h List.mem_cons_self
    have hline : 10 ∉ header h := by
      unfold header
      simp only [List.mem_append, List.mem_cons, not_or]
      exact ⟨fun hmem ↦ (hkey 10 hmem).1 rfl, by decide, by decide, hvalue⟩
    have hread := readln_text_append hline (hs.map header) more
    have hitem := lineItem_header (h := h) hkey
    rw [if_pos hshort] at hitem
    rw [List.map_cons, readHeaders]
    split
    · next hr => cases hread.symm.trans hr
    · next hr =>
      cases hread.symm.trans hr
      rw [hitem]
      dsimp only
      rw [ih fun h' hh' ↦ hs_eq h' (.tail _ hh')]
      rfl

theorem isGet_of_parseHeader {word rest : Bytes} {m : Method} (hne : word ≠ [])
    (hword : ∀ b ∈ word, b ≠ 32 ∧ b ≠ 124 ∧ b ≠ 10 ∧ b ≠ 0)
    (h : parseHeader (word ++ 32 :: rest) = some m) : isGet m = decide (word = ascii "GET") := by
  have hnul : ∀ b ∈ word, decide (b ≠ 0) = true := fun b hb ↦ decide_eq_true (hword b hb).2.2.2
  have hcstr : cstr (word ++ 32 :: rest) = word ++ 32 :: cstr rest := by
    unfold cstr
    rw [List.takeWhile_append_of_pos hnul, List.takeWhile_cons_of_pos (by decide)]
  have hfirst :
      elements 4 (cstr (word ++ 32 :: rest)) =
        word :: elements 3 (skipSpace (32 :: cstr rest)) := by
    rw [hcstr]
    exact elements_succ 3 hne (fun b hb ↦ ⟨(hword b hb).1, (hword b hb).2.1, (hword b hb).2.2.1⟩)
      (by simp)
  have hsource : ascii "SOURCE" ≠ ascii "GET" ∧ ascii "POST" ≠ ascii "GET" := by decide +kernel
  have hhttp {e1 e2 : Bytes} (hm : parseHeader.parseHttp word e1 e2 = some m) :
      isGet m = decide (word = ascii "GET") := by
    unfold parseHeader.parseHttp at hm
    split_ifs at hm with hversion hget hpost
    · cases hm
      exact (decide_eq_true hget).symm
    · cases hm
      exact (decide_eq_false hget).symm
  unfold parseHeader at h
  rw [hfirst] at h
  split at h
  · next heq =>
    obtain ⟨rfl, -⟩ := List.cons.inj heq
    split at h
    · next hsrc =>
      split at h
      · cases h
        rw [hsrc]
        exact (decide_eq_false hsource.1).symm
      · cases h
    · exact hhttp h
  · next heq =>
    obtain ⟨rfl, -⟩ := List.cons.inj heq
    split at h
    · next hsrc =>
      rw [hsrc]
      split at h
      · cases h
        exact (decide_eq_false hsource.1).symm
      · cases h
        exact (decide_eq_false hsource.1).symm
    · exact hhttp h
  · next heq =>
    obtain ⟨rfl, -⟩ := List.cons.inj heq
    split at h
    · next hsrc =>
      split at h
      · cases h
      · cases h
        rw [hsrc]
        exact (decide_eq_false hsource.1).symm
    · cases h
  · cases h

theorem password_subset {b : UInt8} (h : b ∈ password auth) : b ∈ auth := by
  unfold password at h
  split at h
  · exact List.dropWhile_subset _ (List.mem_of_mem_drop h)
  · exact h

theorem requestLine_lf (hclean : Clean mpt host auth) (type : RelayType) (version2 : Bool) :
    10 ∉ requestLine type version2 mpt auth := by
  have hpassword : 10 ∉ password auth := fun h ↦ hclean.auth.1 (password_subset h)
  have hmpt := hclean.mpt
  have hwords :
      ∀ word ∈ ["GET /", "POST /", "SOURCE ", " /", " HTTP/1.1", " HTTP/1.0"], 10 ∉ ascii word := by
    decide +kernel
  unfold requestLine
  split <;> simp [hwords, hmpt, hpassword]

theorem isGet_requestLine {m : Method}
    (h : parseHeader (requestLine type version2 mpt auth) = some m) :
    isGet m = decide (type = .pull) := by
  have hwords : ∀ word ∈ ["GET", "POST", "SOURCE"],
      ascii word ≠ [] ∧ ∀ b ∈ ascii word, b ≠ 32 ∧ b ≠ 124 ∧ b ≠ 10 ∧ b ≠ 0 := by
    decide +kernel
  have hother : ascii "POST" ≠ ascii "GET" ∧ ascii "SOURCE" ≠ ascii "GET" := by decide +kernel
  have hline (word rest : Bytes) (hne : word ≠ [])
      (hword : ∀ b ∈ word, b ≠ 32 ∧ b ≠ 124 ∧ b ≠ 10 ∧ b ≠ 0)
      (heq : requestLine type version2 mpt auth = word ++ 32 :: rest) :
      isGet m = decide (word = ascii "GET") := by
    rw [heq] at h
    exact isGet_of_parseHeader hne hword h
  obtain ⟨hget, hpost, hsource⟩ : (ascii "GET" ≠ [] ∧ _) ∧ (ascii "POST" ≠ [] ∧ _) ∧
      (ascii "SOURCE" ≠ [] ∧ _) :=
    ⟨hwords _ (by simp), hwords _ (by simp), hwords _ (by simp)⟩
  cases type with
  | pull =>
    have hm : isGet m = decide (ascii "GET" = ascii "GET") := by
      cases version2 with
      | true =>
        exact hline _ (47 :: mpt ++ ascii " HTTP/1.1") hget.1 hget.2 (by simp [requestLine, ascii])
      | false =>
        exact hline _ (47 :: mpt ++ ascii " HTTP/1.0") hget.1 hget.2 (by simp [requestLine, ascii])
    rw [hm]
    simp
  | push =>
    cases version2 with
    | true =>
      have hm :=
        hline _ (47 :: mpt ++ ascii " HTTP/1.1") hpost.1 hpost.2 (by simp [requestLine, ascii])
      rw [hm, decide_eq_false hother.1]
      rfl
    | false =>
      have hm :=
        hline _ (password auth ++ ascii " /" ++ mpt ++ ascii " HTTP/1.1") hsource.1 hsource.2
        (by simp [requestLine, ascii])
      rw [hm, decide_eq_false hother.2]
      rfl

def keys : List String :=
  ["Host", "Ntrip-Version", "User-Agent", "Source-Agent", "Authorization", "Transfer-Encoding",
    "Connection"]

theorem keys_eq : ∀ key ∈ keys, Key key ∧ (ascii key).length ≤ 17 := by
  decide +kernel

theorem requestHeaders_read (hclean : Clean mpt host auth) (sw : Software) (type : RelayType)
    (version2 : Bool) :
    ∀ h ∈ requestHeaders sw type version2 host auth, Key h.1 ∧ 10 ∉ h.2 ∧ Short h := by
  have hline {key : String} {value : Bytes} (hkey : key ∈ keys) (hlf : 10 ∉ value)
      (hlen : value.length ≤ 1005) : Key key ∧ 10 ∉ value ∧ Short (key, value) := by
    have hlength := (keys_eq key hkey).2
    exact ⟨(keys_eq key hkey).1, hlf, short_iff.mpr (by omega)⟩
  have hhost : Key "Host" ∧ 10 ∉ host ∧ Short ("Host", host) := by
    have hlength : (ascii "Host").length = 4 := by decide +kernel
    have hlen := hclean.host.2
    exact ⟨(keys_eq _ (by simp [keys])).1, hclean.host.1, short_iff.mpr (by omega)⟩
  have hagent := agent_line sw
  have hauth : Key "Authorization" ∧ 10 ∉ ascii "Basic " ++ authText auth ∧
      Short ("Authorization", ascii "Basic " ++ authText auth) := by
    have hbasic : 10 ∉ ascii "Basic " ∧ (ascii "Basic ").length = 6 ∧
        (ascii "Authorization").length = 13 := by
      decide +kernel
    have hlf : 10 ∉ authText auth := by
      unfold authText
      split
      · simp
      · exact fun h ↦ (encodeGroups_letters h).1 rfl
    have hlen : (authText auth).length ≤ 1000 := by
      have hcstr : (cstr auth).length ≤ auth.length := (List.takeWhile_prefix _).length_le
      have hle := hclean.auth.2
      unfold authText
      split
      · simp
      · unfold utilBase64Encode
        rw [length_encodeGroups]
        omega
    refine ⟨(keys_eq _ (by simp [keys])).1, ?_, short_iff.mpr ?_⟩
    · simp [hbasic.1, hlf]
    · rw [List.length_append]
      omega
  have htexts : ∀ value ∈ ["Ntrip/2.0", "close", "chunked"], 10 ∉ ascii value ∧
      (ascii value).length ≤ 9 := by
    decide +kernel
  have htext {key value : String} (hkey : key ∈ keys)
      (hvalue : value ∈ ["Ntrip/2.0", "close", "chunked"]) :
      Key key ∧ 10 ∉ ascii value ∧ Short (key, ascii value) := by
    have hlength := (htexts value hvalue).2
    exact hline hkey (htexts value hvalue).1 (by omega)
  have hsoftware {key : String} (hkey : key ∈ keys) : Key key ∧ 10 ∉ sw.agent ∧
      Short (key, sw.agent) :=
    hline hkey hagent.1 (by omega)
  cases type with
  | pull =>
    cases version2 with
    | true =>
      simp only [requestHeaders, List.forall_mem_cons]
      exact ⟨hhost, htext (by simp [keys]) (by simp), hsoftware (by simp [keys]), hauth,
        htext (by simp [keys]) (by simp), by simp⟩
    | false =>
      simp only [requestHeaders, List.forall_mem_cons]
      exact ⟨hsoftware (by simp [keys]), hauth, by simp⟩
  | push =>
    cases version2 with
    | true =>
      simp only [requestHeaders, List.forall_mem_cons]
      exact ⟨hhost, htext (by simp [keys]) (by simp), hauth, hsoftware (by simp [keys]),
        htext (by simp [keys]) (by simp), htext (by simp [keys]) (by simp), by simp⟩
    | false =>
      simp only [requestHeaders, List.forall_mem_cons]
      exact ⟨hsoftware (by simp [keys]), by simp⟩

theorem field_requestHeaders (sw : Software) (type : RelayType) (version2 : Bool)
    (host auth : Bytes) :
    let items := (requestHeaders sw type version2 host auth).map fun h ↦ (ascii h.1, cstr h.2)
    (field items "Ntrip-Version").getD [] = (if version2 then ascii "Ntrip/2.0" else []) ∧
      (field items "Transfer-Encoding").getD [] =
        if version2 ∧ type = .push then ascii "chunked" else [] := by
  have hnil (key : String) : field [] key = none := rfl
  have hcstr : cstr (ascii "Ntrip/2.0") = ascii "Ntrip/2.0" ∧
      cstr (ascii "chunked") = ascii "chunked" := by
    decide +kernel
  have hversion :
      ∀ key ∈
        ["Host", "User-Agent", "Source-Agent", "Authorization", "Transfer-Encoding", "Connection"],
          ascii key ≠ ascii "Ntrip-Version" := by
    decide +kernel
  have htransfer : ∀ key ∈ ["Host", "Ntrip-Version", "User-Agent", "Source-Agent", "Authorization",
      "Connection"], ascii key ≠ ascii "Transfer-Encoding" := by
    decide +kernel
  simp only [List.forall_mem_cons] at hversion htransfer
  cases type with
  | pull => cases version2 <;> simp [requestHeaders, field_cons, hnil, hversion, htransfer, hcstr]
  | push => cases version2 <;> simp [requestHeaders, field_cons, hnil, hversion, htransfer, hcstr]

theorem fields_plan (env : Env) (geo : Degrees P) (m : Method) (mount : Bytes)
    (items : List (Bytes × Bytes)) (left : Bytes) :
    let r := (plan env ((decoded env geo m.url mount items).locate geo left) m).2
    r.ntripVersion = (field items "Ntrip-Version").getD [] ∧
      r.httpChunked = (field items "Transfer-Encoding").getD [] := by
  have hdecoded :
      (decoded env geo m.url mount items).ntripVersion = (field items "Ntrip-Version").getD [] ∧
      (decoded env geo m.url mount items).httpChunked =
        (field items "Transfer-Encoding").getD [] := by
    unfold decoded ConnectInfo.setUser
    cases field items "Authorization" with
    | none => exact ⟨rfl, rfl⟩
    | some auth =>
      dsimp only
      split <;> exact ⟨rfl, rfl⟩
  have hplan (r : ConnectInfo P) : (plan env r m).2.ntripVersion = r.ntripVersion ∧
      (plan env r m).2.httpChunked = r.httpChunked := by
    cases m with
    | get url =>
      unfold plan
      dsimp only
      split <;> exact ⟨rfl, rfl⟩
    | post url => exact ⟨rfl, rfl⟩
    | source url secret =>
      unfold plan
      dsimp only
      split <;> exact ⟨rfl, rfl⟩
  intro r
  rw [(hplan _).1, (hplan _).2, locate_eq]
  exact hdecoded

/-- A listener that takes the request takes it as one of its kind and of its version, to its last
byte. -/
theorem relay_request (hclean : Clean mpt host auth) (opt : ListenerOpt) (env : Env)
    (geo : Degrees P) (more : Bytes) {verify : Option AuthType} {r : ConnectInfo P} {left : Bytes}
    (h : processBevRequest opt env geo (buildNtripRequest sw type version2 mpt host auth ++ more) =
      .accept verify r left) :
    left = more ∧ (type = .push → verify = some .server) ∧
      r.ntripVersion = (if version2 then ascii "Ntrip/2.0" else []) ∧
      r.httpChunked = if version2 ∧ type = .push then ascii "chunked" else [] := by
  have hread : readHeader opt (buildNtripRequest sw type version2 mpt host auth ++ more) =
      some (requestLine type version2 mpt auth,
        text ((requestHeaders sw type version2 host auth).map header) ++ more) := by
    unfold readHeader
    rw [buildNtripRequest_eq, readln_text_append (requestLine_lf hclean type version2)]
  have hitems := readHeaders_text (requestHeaders_read hclean sw type version2) more
  cases fate opt env geo (buildNtripRequest sw type version2 mpt host auth ++ more) with
  | undefined _ heq => cases heq.symm.trans h
  | reject _ _ heq => cases heq.symm.trans h
  | @accept line rest mount m _ _ hheader hdec _ heq =>
    cases hread.symm.trans hheader
    rw [hitems] at heq
    have haccept := heq.symm.trans h
    unfold handOn at haccept
    injection haccept with hverify hr hleft
    have hkind : isGet m = decide (type = .pull) := by
      unfold decodes at hdec
      split at hdec
      · cases hdec
      · exact isGet_requestLine (Option.filter_eq_some_iff.mp hdec).1
    have hfields := fields_plan env geo m mount
      ((requestHeaders sw type version2 host auth).map fun h ↦ (ascii h.1, cstr h.2)) more
    have hsays := field_requestHeaders sw type version2 host auth
    dsimp only at hfields hsays
    rw [hr, hsays.1, hsays.2] at hfields
    refine ⟨hleft.symm, fun hpush ↦ ?_, hfields⟩
    rw [hpush] at hkind
    rw [← hverify]
    cases m with
    | get url => cases hkind
    | post url => rfl
    | source url secret => rfl

end NavCaster.Service.RelayRequest
