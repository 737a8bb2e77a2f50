import NavCaster.Service.BasicAuth
import NavCaster.Service.Dispatch

namespace NavCaster.Service.PushRequest

open NavCaster.Library.Strto NavCaster.Library.Lines NavCaster.Library.Scan
open NavCaster.Service.Request NavCaster.Service.Segmentation NavCaster.Service.BasicAuth
open NavCaster.Service.Dispatch

variable {P : Type}

def called (opt : ListenerOpt) (buf : Bytes) : Option Method :=
  match readHeader opt buf with
  | none => none
  | some (header, _) => if 255 < header.length ∨ header.length < 9 then none else parseHeader header

/-- The request arrives as a push to the mount point with the password. -/
def Understood (opt : ListenerOpt) (buf mount pwd : Bytes) : Prop :=
  ∃ url, called opt buf = some (.source url pwd) ∧ extractPath url = some mount

theorem processBevRequest_called (opt : ListenerOpt) (env : Env) (geo : Degrees P) (buf : Bytes) :
    processBevRequest opt env geo buf =
      match called opt buf with
      | none => .reject
      | some m =>
        let rest := ((readHeader opt buf).map Prod.snd).getD []
        match m with
        | .get url => processGetRequest opt env geo url rest
        | .post url => processPostRequest opt env geo url rest
        | .source url secret => processSourceRequest opt env geo url secret rest := by
  unfold processBevRequest called
  cases readHeader opt buf with
  | none => rfl
  | some r =>
    dsimp only
    split
    · rfl
    · cases parseHeader r.1 with
      | none => rfl
      | some m => cases m <;> rfl

def behindSource (mount pwd : Bytes) : Bytes :=
  pwd ++ 32 :: (47 :: mount ++ 32 :: ascii "HTTP/1.1")

def pushLine (mount pwd : Bytes) : Bytes := ascii "SOURCE" ++ 32 :: behindSource mount pwd

section

variable {mount pwd : Bytes}

theorem buildNtripRequest_push (sw : Software) (mount host pwd : Bytes) {user : Bytes}
    (huser : 58 ∉ user) :
    buildNtripRequest sw .push false mount host (user ++ 58 :: pwd) =
      text (pushLine mount pwd :: [("Source-Agent", sw.agent)].map header) := by
  have hall : ∀ b ∈ user, decide (b ≠ 58) = true := by
    intro b hb
    simp only [ne_eq, decide_not, Bool.not_eq_eq_eq_not, Bool.not_true, decide_eq_false_iff_not]
    intro heq
    exact huser (heq ▸ hb)
  have hpassword : ((user ++ 58 :: pwd).dropWhile (· ≠ 58)).drop 1 = pwd := by
    rw [List.dropWhile_append_of_pos hall, List.dropWhile_cons_of_neg (by decide)]
    rfl
  have hline :
      ascii "SOURCE " ++ pwd ++ ascii " /" ++ mount ++ ascii " HTTP/1.1" = pushLine mount pwd := by
    simp [pushLine, behindSource, ascii]
  simp only [buildNtripRequest, hpassword, List.mem_append, List.mem_cons, true_or, or_true,
    if_true, hline]

theorem length_pushLine (mount pwd : Bytes) :
    (pushLine mount pwd).length = pwd.length + mount.length + 18 := by
  simp [pushLine, behindSource, ascii]
  omega

theorem elements_word (n : Nat) {word : Bytes} (hword : ∀ b ∈ word, b ≠ 32 ∧ b ≠ 124 ∧ b ≠ 10)
    (hne : word ≠ []) {b : UInt8} (hb : isSpace b = false) (s : Bytes) :
    elements (n + 1) (word ++ 32 :: b :: s) = word :: elements n (b :: s) := by
  have hskip : skipSpace (32 :: b :: s) = b :: s := by
    unfold skipSpace
    rw [List.dropWhile_cons_of_pos rfl, List.dropWhile_cons_of_neg (by simp [hb])]
  rw [elements_succ n hne hword (by simp), hskip]

theorem elements_last (n : Nat) {word : Bytes} (hword : ∀ b ∈ word, b ≠ 32 ∧ b ≠ 124 ∧ b ≠ 10)
    {s : Bytes} (hs : ∀ b ∈ s.head?, b = 124) :
    elements (n + 1) (word ++ s) = if word = [] then [] else [word] := by
  have hend (n : Nat) : elements n s = [] := by
    cases n with
    | zero => rfl
    | succ n =>
      cases s with
      | nil => rfl
      | cons b s =>
        obtain rfl : b = 124 := hs b rfl
        simp [elements, scanUntil]
  have hskip : skipSpace s = s := by
    cases s with
    | nil => rfl
    | cons b s =>
      obtain rfl : b = 124 := hs b rfl
      simp [skipSpace, isSpace]
  split_ifs with hnil
  · rw [hnil]
    exact hend (n + 1)
  · rw [elements_succ n hnil hword fun b hb ↦ .inr (.inl (hs b hb)), hskip, hend]

theorem ne_of_isSpace {b : UInt8} (h : isSpace b = false) : b ≠ 32 ∧ b ≠ 10 := by
  constructor <;> rintro rfl <;> cases h

theorem elements_path (n : Nat) (hmount : checkMountIsValid mount = true) :
    elements (n + 2) (47 :: mount ++ 32 :: ascii "HTTP/1.1") = [47 :: mount, ascii "HTTP/1.1"] := by
  have hpath : ∀ b ∈ 47 :: mount, b ≠ 32 ∧ b ≠ 124 ∧ b ≠ 10 := by
    intro b hb
    obtain rfl | hb := List.mem_cons.mp hb
    · decide
    · have hm := isMountChar_of_mem hmount hb
      exact ⟨ne_of_isMountChar hm rfl, ne_of_isMountChar hm rfl, ne_of_isMountChar hm rfl⟩
  have hletters : ∀ b ∈ ascii "HTTP/1.1", b ≠ 32 ∧ b ≠ 124 ∧ b ≠ 10 := by decide +kernel
  have hversion : elements (n + 1) (ascii "HTTP/1.1" ++ []) = [ascii "HTTP/1.1"] :=
    (elements_last n hletters (by simp)).trans (if_neg (by decide))
  rw [List.append_nil] at hversion
  refine (elements_word (n + 1) hpath (by simp) (b := 72) rfl (ascii "TTP/1.1")).trans ?_
  exact congrArg _ hversion

theorem elements_pushLine (hmount : checkMountIsValid mount = true)
    (hpwd : ∀ b ∈ pwd, isSpace b = false) (hbar : 124 ∉ pwd) :
    elements 4 (pushLine mount pwd) =
      ascii "SOURCE" :: ((if pwd = [] then [] else [pwd]) ++ [47 :: mount, ascii "HTTP/1.1"]) := by
  have hsource : ∀ b ∈ ascii "SOURCE", b ≠ 32 ∧ b ≠ 124 ∧ b ≠ 10 := by decide +kernel
  have hword : ∀ b ∈ pwd, b ≠ 32 ∧ b ≠ 124 ∧ b ≠ 10 := by
    intro b hb
    have hne := ne_of_isSpace (hpwd b hb)
    exact ⟨hne.1, fun heq ↦ hbar (heq ▸ hb), hne.2⟩
  unfold pushLine behindSource
  cases pwd with
  | nil =>
    have hskip (s : Bytes) :
        skipSpace (32 :: 32 :: 47 :: s) = 47 :: s := by simp [skipSpace, isSpace]
    rw [List.nil_append, elements_succ 3 (by decide) hsource (by simp), List.cons_append, hskip]
    exact congrArg _ (elements_path 1 hmount)
  | cons b p =>
    have hpath : elements 3 (b :: p ++ 32 :: (47 :: mount ++ 32 :: ascii "HTTP/1.1")) =
        (b :: p) :: elements 2 (47 :: mount ++ 32 :: ascii "HTTP/1.1") :=
      elements_word 2 hword (by simp) rfl _
    refine (elements_word 3 hsource (by decide) (hpwd b List.mem_cons_self) _).trans ?_
    rw [if_neg (by simp)]
    exact congrArg _ (hpath.trans (congrArg _ (elements_path 0 hmount)))

theorem elements_cut {p s : Bytes} (hword : ∀ b ∈ p, isSpace b = false ∧ b ≠ 124)
    (hs : ∀ b ∈ s.head?, b = 124) :
    elements 4 (ascii "SOURCE" ++ 32 :: (p ++ s)) =
      ascii "SOURCE" :: if p = [] then [] else [p] := by
  have hsource : ∀ b ∈ ascii "SOURCE", b ≠ 32 ∧ b ≠ 124 ∧ b ≠ 10 := by decide +kernel
  have hp : ∀ b ∈ p, b ≠ 32 ∧ b ≠ 124 ∧ b ≠ 10 := by
    intro b hb
    have hne := ne_of_isSpace (hword b hb).1
    exact ⟨hne.1, (hword b hb).2, hne.2⟩
  have hskip : skipSpace (32 :: (p ++ s)) = p ++ s := by
    have hhead : ∀ b ∈ (p ++ s).head?, isSpace b = false := by
      cases p with
      | nil =>
        intro b hb
        obtain rfl := hs b hb
        rfl
      | cons b p =>
        intro b' hb'
        cases hb'
        exact (hword b List.mem_cons_self).1
    unfold skipSpace
    rw [List.dropWhile_cons_of_pos rfl]
    cases hps : p ++ s with
    | nil => rfl
    | cons b t =>
      rw [List.dropWhile_cons_of_neg]
      simp [hhead b (by rw [hps]; rfl)]
  rw [elements_succ 3 (by decide) hsource (by simp), hskip, elements_last 2 hp hs]

theorem parseHeader_cut {line p s url : Bytes}
    (hcstr : cstr line = ascii "SOURCE" ++ 32 :: (p ++ s))
    (hword : ∀ b ∈ p, isSpace b = false ∧ b ≠ 124) (hs : ∀ b ∈ s.head?, b = 124) (hne : pwd ≠ []) :
    parseHeader line ≠ some (.source url pwd) := by
  unfold parseHeader
  rw [hcstr, elements_cut hword hs]
  by_cases hp : p = []
  · simp [hp]
  · simp only [if_neg hp, if_true]
    split_ifs
    · simp
    · simp only [ne_eq, Option.some_inj, Method.source.injEq, not_and]
      intro _ h
      exact hne h.symm

theorem parseHeader_pushLine (hmount : checkMountIsValid mount = true)
    (hpwd : ∀ b ∈ pwd, isSpace b = false) (hbar : 124 ∉ pwd) (hnul : 0 ∉ pwd) :
    parseHeader (pushLine mount pwd) = some (.source (47 :: mount) pwd) := by
  have h0 : 0 ∉ pushLine mount pwd := by
    have hm : 0 ∉ mount := fun h ↦ absurd (isMountChar_of_mem hmount h) (by decide)
    simp [pushLine, behindSource, ascii, hnul, hm]
  unfold parseHeader
  rw [(Base.Base64.cstr_eq_iff _).mpr h0, elements_pushLine hmount hpwd hbar]
  by_cases hnil : pwd = []
  · rw [if_pos hnil, hnil]
    rfl
  · rw [if_neg hnil]
    rfl

theorem exists_cut (h : 124 ∈ pwd ∨ 0 ∈ pwd) :
    ∃ p c q, pwd = p ++ c :: q ∧ (c = 124 ∨ c = 0) ∧ ∀ b ∈ p, b ≠ 124 ∧ b ≠ 0 := by
  induction pwd with
  | nil => simp at h
  | cons b pwd ih =>
    by_cases hb : b = 124 ∨ b = 0
    · exact ⟨[], b, pwd, rfl, hb, by simp⟩
    · obtain ⟨h124, h0⟩ := not_or.mp hb
      have hmem : 124 ∈ pwd ∨ 0 ∈ pwd := by
        simpa [Ne.symm h124, Ne.symm h0] using h
      obtain ⟨p, c, q, rfl, hc, hp⟩ := ih hmem
      refine ⟨b :: p, c, q, rfl, hc, fun b' hb' ↦ ?_⟩
      obtain rfl | hb' := List.mem_cons.mp hb'
      · exact ⟨h124, h0⟩
      · exact hp b' hb'

theorem parseHeader_ne (hpwd : ∀ b ∈ pwd, isSpace b = false) (hbad : 124 ∈ pwd ∨ 0 ∈ pwd)
    (url : Bytes) :
    parseHeader (pushLine mount pwd) ≠ some (.source url pwd) := by
  obtain ⟨p, c, q, rfl, hc, hp⟩ := exists_cut hbad
  have hword : ∀ b ∈ p, isSpace b = false ∧ b ≠ 124 := by
    intro b hb
    exact ⟨hpwd b (List.mem_append_left _ hb), (hp b hb).1⟩
  have hline (tail : Bytes) : ascii "SOURCE" ++ 32 :: ((p ++ c :: q) ++ tail) =
      (ascii "SOURCE" ++ 32 :: p) ++ c :: (q ++ tail) := by simp
  have hnul : ∀ b ∈ ascii "SOURCE" ++ 32 :: p, decide (b ≠ 0) = true := by
    have hsource : ∀ b ∈ ascii "SOURCE", b ≠ 0 := by decide +kernel
    intro b hb
    refine decide_eq_true ?_
    obtain hb | hb := List.mem_append.mp hb
    · exact hsource b hb
    · obtain rfl | hb := List.mem_cons.mp hb
      · decide
      · exact (hp b hb).2
  have hcstr (tail : Bytes) : cstr (ascii "SOURCE" ++ 32 :: ((p ++ c :: q) ++ tail)) =
      ascii "SOURCE" ++ 32 :: (p ++ cstr (c :: (q ++ tail))) := by
    rw [hline]
    unfold cstr
    rw [List.takeWhile_append_of_pos hnul]
    simp
  have hend (tail : Bytes) : ∀ b ∈ (cstr (c :: tail)).head?, b = 124 := by
    obtain rfl | rfl := hc <;> simp [cstr]
  exact parseHeader_cut (hcstr _) hword (hend _) (by simp)

end

/-- The caster understands a push of its own if and only if no byte of the password ends a word or
the line. -/
theorem push_understood (sw : Software) (opt : ListenerOpt) {mount host user pwd line rest : Bytes}
    (hmount : checkMountIsValid mount = true) (huser : 58 ∉ user)
    (hpwd : ∀ b ∈ pwd, isSpace b = false)
    (hline :
      readln (buildNtripRequest sw .push false mount host (user ++ 58 :: pwd)) = some (line, rest))
    (hlen : line.length ≤ 255) :
    Understood opt (buildNtripRequest sw .push false mount host (user ++ 58 :: pwd)) mount pwd ↔
      124 ∉ pwd ∧ 0 ∉ pwd := by
  have hlf : 10 ∉ pushLine mount pwd := by
    have hm : 10 ∉ mount := mpt_line hmount
    have hp : 10 ∉ pwd := fun h ↦ absurd (hpwd 10 h) (by decide)
    simp [pushLine, behindSource, ascii, hm, hp]
  have hread := hline
  rw [buildNtripRequest_push sw mount host pwd huser, readln_text hlf] at hread
  cases hread
  have hcalled : called opt (buildNtripRequest sw .push false mount host (user ++ 58 :: pwd)) =
      parseHeader (pushLine mount pwd) := by
    unfold called readHeader
    rw [hline]
    dsimp only
    rw [if_neg]
    have hlength := length_pushLine mount pwd
    omega
  unfold Understood
  rw [hcalled]
  constructor
  · rintro ⟨url, hurl, -⟩
    refine not_or.mp fun hbad ↦ ?_
    exact parseHeader_ne hpwd hbad url hurl
  · rintro ⟨hbar, hnul⟩
    exact ⟨47 :: mount, parseHeader_pushLine hmount hpwd hbar hnul, extractPath_valid hmount⟩

def pushed (pwd : String) : Bytes :=
  buildNtripRequest release .push false (ascii "RTK_01") (ascii "h:2101")
    (ascii "u" ++ 58 :: ascii pwd)

theorem push_understood_pw : Understood openListener (pushed "pw") (ascii "RTK_01") (ascii "pw") ↔
    124 ∉ ascii "pw" ∧ 0 ∉ ascii "pw" := by
  have hline : readln (pushed "pw") = some (ascii "SOURCE pw /RTK_01 HTTP/1.1",
      ((readln (pushed "pw")).map Prod.snd).getD []) := by decide +kernel
  exact push_understood release openListener (by decide +kernel) (by decide +kernel)
    (by decide +kernel)
    hline (by decide +kernel)

/-- With the password `a|b` the request is read as one for the mount point `a`, without a
password. -/
theorem not_push_understood :
    called openListener (pushed "a|b") = some (.source (ascii "a") []) ∧
      ¬ ∀ (mount user pwd line rest : Bytes), checkMountIsValid mount = true → mount ≠ [] →
        58 ∉ user → (∀ b ∈ pwd, isSpace b = false) →
        readln (buildNtripRequest release .push false mount (ascii "h:2101") (user ++ 58 :: pwd)) =
          some (line, rest) → line.length ≤ 255 →
        Understood openListener
          (buildNtripRequest release .push false mount (ascii "h:2101") (user ++ 58 :: pwd)) mount
            pwd := by
  have hcalled :
      called openListener (pushed "a|b") = some (.source (ascii "a") []) := by decide +kernel
  refine ⟨hcalled, fun h ↦ ?_⟩
  have hline : readln (pushed "a|b") = some (ascii "SOURCE a|b /RTK_01 HTTP/1.1",
      ((readln (pushed "a|b")).map Prod.snd).getD []) := by decide +kernel
  obtain ⟨url, hurl, -⟩ :=
    h (ascii "RTK_01") (ascii "u") (ascii "a|b") _ _ (by decide +kernel) (by decide)
    (by decide +kernel) (by decide +kernel) hline (by decide +kernel)
  rw [show buildNtripRequest release .push false (ascii "RTK_01") (ascii "h:2101")
    (ascii "u" ++ 58 :: ascii "a|b") = pushed "a|b" from rfl, hcalled] at hurl
  cases hurl

end NavCaster.Service.PushRequest
