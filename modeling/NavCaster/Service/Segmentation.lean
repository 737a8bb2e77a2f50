import NavCaster.Service.Request

namespace NavCaster.Service.Segmentation

open NavCaster.Library.Strto NavCaster.Library.Lines NavCaster.Library.Scan
open NavCaster.Service.Request
open NavCaster.Auth.Verify (AuthType)

/-- A complete request: a request line, header lines, a blank line and a body. -/
structure Message where
  line : Bytes
  headers : List Bytes
  blank : Bytes
  body : Bytes
  line_lf : 10 ∉ line
  headers_lf : ∀ h ∈ headers, 10 ∉ h
  headers_nonblank : ∀ h ∈ headers, chomp h ≠ []
  blank_eq : blank = [] ∨ blank = [13]

def terminated (lines : List Bytes) : Bytes := lines.flatMap (· ++ [10])

def linesRead : List Bytes → List Bytes
  | [] => []
  | l :: lines => if (lineItem (chomp l)).isSome then l :: linesRead lines else [l]

namespace Message

variable (msg : Message)

def lines : List Bytes := msg.headers ++ [msg.blank]

def bytes : Bytes := msg.line ++ 10 :: (terminated msg.lines ++ msg.body)

/-- What is read of the request. It ends at the blank line, or before it at a line that is too long
or has no colon. -/
def head : Bytes := msg.line ++ 10 :: terminated (linesRead msg.lines)

def items : List (Bytes × Bytes) := (linesRead msg.lines).filterMap fun l ↦ lineItem (chomp l)

def behind : Bytes := msg.bytes.drop msg.head.length

end Message

variable {P : Type} (opt : ListenerOpt) (env : Env) (geo : Degrees P)

def isGet : Method → Bool
  | .get _ => true
  | _ => false

/-- The request line is good enough for the header lines to be read. -/
def decodes (header : Bytes) : Option Method :=
  if 255 < header.length ∨ header.length < 9 then none
  else (parseHeader header).filter fun m ↦
    (isGet m || opt.enableServerLogin) && (extractPath m.url).isSome

def admits (m : Method) (mount : Bytes) : Bool :=
  match m with
  | .get _ => if mount = [] then opt.enableSourceLogin else opt.enableClientLogin
  | _ => !env.checkNearestMpt mount && !env.checkAliasMpt mount

/-- The bytes are rejected for the sake of their request line. -/
def Refused (buf : Bytes) : Prop :=
  ∀ header rest m mount, readHeader opt buf = some (header, rest) → decodes opt header = some m →
    extractPath m.url = some mount → admits opt env m mount = false

def Overruns (buf : Bytes) : Prop :=
  ∃ header rest m auth, readHeader opt buf = some (header, rest) ∧ decodes opt header = some m ∧
    field (readHeaders rest).1 "Authorization" = some auth ∧ decodeBasicAuthentication auth = none

/-- Whatever the verification answers, the same is pushed or rejected as if all bytes arrived in one
read, and with the same bytes for the session. -/
def SameAsWhole (msg : Message) (reads : List Bytes) : Prop :=
  ∀ verify, bevReadCallback opt env geo verify reads =
      bevReadCallback opt env geo verify [msg.bytes] ∧
    bevReadCallback opt env geo verify [msg.bytes] ≠ .undefined

/-- The position does not depend on which of two texts follows the header: the header has one of its
own, or a text that has one is the text of the header. -/
def SamePosition (gga text text' : Bytes) : Prop :=
  text = text' ∨ geo.isZero ((headerPosition geo gga).getD geo.initial) = false ∨
    ∀ t, t = text ∨ t = text' → trailingPosition geo t ≠ none → t = gga

def Unaffected (msg : Message) (first : Bytes) : Prop :=
  ¬ Overruns opt msg.bytes ∧ ¬ Overruns opt first ∧
    (Refused opt env msg.bytes ∧ Refused opt env first ∨
      msg.head.length ≤ first.length ∧ SamePosition geo
        ((field msg.items "Ntrip-GGA").getD []) (first.drop msg.head.length) msg.behind)

section

variable {opt env geo}

theorem terminated_cons (l : Bytes) (lines : List Bytes) (tail : Bytes) :
    terminated (l :: lines) ++ tail = l ++ 10 :: (terminated lines ++ tail) := by
  unfold terminated
  rw [List.flatMap_cons, List.append_assoc, List.append_assoc]
  rfl

theorem Message.lineItem_blank (msg : Message) : lineItem (chomp msg.blank) = none := by
  obtain h | h := msg.blank_eq <;> rw [h] <;> rfl

theorem readHeaders_line {l : Bytes} (h : 10 ∉ l) (rest : Bytes) :
    readHeaders (l ++ 10 :: rest) =
      match lineItem (chomp l) with
      | none => ([], rest)
      | some item => (item :: (readHeaders rest).1, (readHeaders rest).2) := by
  rw [readHeaders]
  split
  · next hr => rw [readln_lf h] at hr; cases hr
  · next hr => rw [readln_lf h] at hr; cases hr; rfl

theorem readHeaders_linesRead {lines : List Bytes} (hlf : ∀ l ∈ lines, 10 ∉ l)
    (hend : ∃ l ∈ lines, lineItem (chomp l) = none) (tail : Bytes) :
    readHeaders (terminated (linesRead lines) ++ tail) =
      ((linesRead lines).filterMap fun l ↦ lineItem (chomp l), tail) := by
  induction lines with
  | nil => obtain ⟨l, hl, -⟩ := hend; cases hl
  | cons l lines ih =>
    have hl := hlf l (List.mem_cons_self ..)
    rw [linesRead]
    cases hitem : lineItem (chomp l) with
    | none =>
      rw [if_neg (by nofun), terminated_cons, readHeaders_line hl, hitem, List.filterMap_cons,
        hitem]
      rfl
    | some item =>
      have hend' : ∃ l ∈ lines, lineItem (chomp l) = none := by
        obtain ⟨l', hl', hnone⟩ := hend
        obtain rfl | hl' := List.mem_cons.mp hl'
        · rw [hitem] at hnone; cases hnone
        · exact ⟨l', hl', hnone⟩
      rw [Option.isSome_some, if_pos rfl, terminated_cons, readHeaders_line hl, hitem,
        List.filterMap_cons, hitem, ih (fun l' hl' ↦ hlf l' (.tail l hl')) hend']

theorem linesRead_prefix (lines : List Bytes) : linesRead lines <+: lines := by
  induction lines with
  | nil => exact List.nil_prefix
  | cons l lines ih =>
    rw [linesRead]
    split
    · exact List.cons_prefix_cons.mpr ⟨rfl, ih⟩
    · exact ⟨lines, rfl⟩

namespace Message

variable (msg : Message)

theorem lines_lf : ∀ l ∈ msg.lines, 10 ∉ l := by
  intro l hl
  obtain hl | hl := List.mem_append.mp hl
  · exact msg.headers_lf l hl
  · rw [List.mem_singleton.mp hl]
    obtain h | h := msg.blank_eq <;> rw [h] <;> decide

theorem head_prefix : msg.head <+: msg.bytes := by
  obtain ⟨more, hmore⟩ := linesRead_prefix msg.lines
  refine ⟨terminated more ++ msg.body, ?_⟩
  have hterm : terminated msg.lines = terminated (linesRead msg.lines) ++ terminated more :=
    (congrArg terminated hmore.symm).trans List.flatMap_append
  unfold head bytes
  rw [hterm, List.append_assoc, List.cons_append, List.append_assoc]

theorem bytes_eq : msg.bytes = msg.head ++ msg.behind := by
  obtain ⟨t, ht⟩ := msg.head_prefix
  unfold behind
  rw [← ht, List.drop_left]

theorem readHeader_head (opt : ListenerOpt) (tail : Bytes) :
    ∃ rest, readHeader opt (msg.head ++ tail) = some (chomp msg.line, rest) ∧
      readHeaders rest = (msg.items, tail) := by
  refine ⟨terminated (linesRead msg.lines) ++ tail, ?_, ?_⟩
  · unfold readHeader head
    rw [List.append_assoc, List.cons_append, readln_lf msg.line_lf]
  · exact readHeaders_linesRead msg.lines_lf
      ⟨msg.blank, List.mem_append_right _ (List.mem_singleton_self _), msg.lineItem_blank⟩ tail

end Message

def plan (env : Env) (info : ConnectInfo P) : Method → Option AuthType × ConnectInfo P
  | .get _ =>
    if info.mountPoint = [] then
      (if info.userName = [] ∧ info.userPwd = [] then none else some .source,
        { info with type := .source })
    else (some .client,
      { info with type := if env.checkNearestMpt info.mountPoint then .nearest else .client })
  | .post _ => (some .server, { info with type := .server })
  | .source _ secret =>
    (some .server,
      if secret = [] then { info with type := .server }
      else { info with
        type := .server
        userBase64 := secret ++ 58 :: secret
        userName := secret
        userPwd := secret })

def info (env : Env) (geo : Degrees P) (url mountPoint : Bytes) : ConnectInfo P where
  connectKey := env.connectKey
  mountPoint
  mountPara := extractPara url
  ip := env.ip
  port := env.port
  position := geo.initial

def verdictOf (opt : ListenerOpt) (env : Env) (m : Method) :
    Except Abort (ConnectInfo P × Bytes) → Verdict P
  | .error e => e.verdict
  | .ok (info, left) =>
    if admits opt env m info.mountPoint then .accept (plan env info m).1 (plan env info m).2 left
    else .reject

theorem decode_eq (env : Env) (geo : Degrees P) {url mount : Bytes} (buf : Bytes)
    (h : extractPath url = some mount) :
    decodeBuffereventReq env geo url buf =
      match field (readHeaders buf).1 "Authorization" with
      | none => .ok (((info env geo url mount).setFields (readHeaders buf).1).locate geo
          (readHeaders buf).2, (readHeaders buf).2)
      | some auth =>
        match decodeBasicAuthentication auth with
        | none => .error .overrun
        | some decodeID =>
          .ok ((((info env geo url mount).setFields (readHeaders buf).1).setUser auth
            decodeID).locate geo (readHeaders buf).2, (readHeaders buf).2) := by
  unfold decodeBuffereventReq
  rw [h]
  rfl

theorem processGetRequest_eq (url buf : Bytes) :
    processGetRequest opt env geo url buf =
      verdictOf opt env (.get url) (decodeBuffereventReq env geo url buf) := by
  unfold processGetRequest verdictOf
  cases decodeBuffereventReq env geo url buf with
  | error e => rfl
  | ok r =>
    obtain ⟨info, left⟩ := r
    simp only [admits, plan, Bool.not_eq_eq_eq_not, Bool.not_true]
    by_cases hm : info.mountPoint = []
    · simp only [if_pos hm]
      cases opt.enableSourceLogin
      · rfl
      · simp only [Bool.true_eq_false, if_false, if_true]
        split <;> rfl
    · simp only [if_neg hm]
      cases opt.enableClientLogin
      · rfl
      · simp only [Bool.true_eq_false, if_false, if_true]
        split <;> rfl

theorem processServerRequest_eq {m : Method} (hm : isGet m = false)
    {finish : ConnectInfo P → ConnectInfo P}
    (hplan : ∀ info, plan env info m = (some .server, finish { info with type := .server }))
    (url buf : Bytes) :
    processServerRequest opt env geo url buf finish =
      if opt.enableServerLogin then verdictOf opt env m (decodeBuffereventReq env geo url buf)
      else .reject := by
  unfold processServerRequest verdictOf
  cases opt.enableServerLogin with
  | false => rfl
  | true =>
    cases decodeBuffereventReq env geo url buf with
    | error e => rfl
    | ok r =>
      obtain ⟨info, left⟩ := r
      have hadm : admits opt env m info.mountPoint =
          (!env.checkNearestMpt info.mountPoint && !env.checkAliasMpt info.mountPoint) := by
        cases m with
        | get url => cases hm
        | post url => rfl
        | source url secret => rfl
      simp only [hadm, hplan]
      cases env.checkNearestMpt info.mountPoint <;> cases env.checkAliasMpt info.mountPoint <;> rfl

theorem processBevRequest_eq (buf : Bytes) :
    processBevRequest opt env geo buf =
      match readHeader opt buf with
      | none => .reject
      | some (header, rest) =>
        match decodes opt header with
        | none => .reject
        | some m => verdictOf opt env m (decodeBuffereventReq env geo m.url rest) := by
  have hbad (m : Method) (rest : Bytes) (h : extractPath m.url = none) :
      verdictOf opt env m (decodeBuffereventReq env geo m.url rest) = .reject := by
    unfold decodeBuffereventReq
    rw [h]
    rfl
  have hcheck (m : Method) (rest : Bytes) (v : Verdict P)
      (hv : v = if isGet m || opt.enableServerLogin then
        verdictOf opt env m (decodeBuffereventReq env geo m.url rest) else .reject) :
      v = match (some m).filter fun m ↦
          (isGet m || opt.enableServerLogin) && (extractPath m.url).isSome with
        | none => .reject
        | some m => verdictOf opt env m (decodeBuffereventReq env geo m.url rest) := by
    rw [hv, Option.filter_some]
    cases hg : isGet m || opt.enableServerLogin
    · rfl
    · cases he : extractPath m.url with
      | none => exact hbad m rest he
      | some mount => rfl
  unfold processBevRequest
  cases readHeader opt buf with
  | none => rfl
  | some r =>
    obtain ⟨header, rest⟩ := r
    unfold decodes
    dsimp only
    split
    · rfl
    · cases parseHeader header with
      | none => rfl
      | some m =>
        refine hcheck m rest _ ?_
        cases m with
        | get url => exact processGetRequest_eq url rest
        | post url => exact processServerRequest_eq (m := .post url) rfl (fun info ↦ rfl) url rest
        | source url secret =>
          refine processServerRequest_eq (m := .source url secret) rfl (fun info ↦ ?_) url rest
          by_cases hs : secret = []
          · simp only [plan, if_pos hs]
          · simp only [plan, if_neg hs]

def decoded (env : Env) (geo : Degrees P) (url mountPoint : Bytes) (items : List (Bytes × Bytes)) :
    ConnectInfo P :=
  let r := (info env geo url mountPoint).setFields items
  match field items "Authorization" with
  | none => r
  | some auth => r.setUser auth ((decodeBasicAuthentication auth).getD [])

def handOn (env : Env) (geo : Degrees P) (m : Method) (mountPoint : Bytes)
    (items : List (Bytes × Bytes)) (left : Bytes) : Verdict P :=
  let r := (decoded env geo m.url mountPoint items).locate geo left
  .accept (plan env r m).1 (plan env r m).2 left

inductive Fate (opt : ListenerOpt) (env : Env) (geo : Degrees P) (buf : Bytes) : Prop
  | undefined : Overruns opt buf → processBevRequest opt env geo buf = .undefined →
      Fate opt env geo buf
  | reject : ¬ Overruns opt buf → Refused opt env buf →
    processBevRequest opt env geo buf = .reject → Fate opt env geo buf
  | accept {header rest mount : Bytes} {m : Method} : ¬ Overruns opt buf → ¬ Refused opt env buf →
    readHeader opt buf = some (header, rest) → decodes opt header = some m →
    extractPath m.url = some mount →
    processBevRequest opt env geo buf =
      handOn env geo m mount (readHeaders rest).1 (readHeaders rest).2 →
    Fate opt env geo buf

theorem mountPoint_locate (trailing : Bytes) (r : ConnectInfo P) :
    (r.locate geo trailing).mountPoint = r.mountPoint := by
  unfold ConnectInfo.locate
  dsimp only
  split
  · cases trailingPosition geo trailing <;> rfl
  · rfl

theorem mountPoint_decoded (env : Env) (url mount : Bytes) (items : List (Bytes × Bytes)) :
    (decoded env geo url mount items).mountPoint = mount := by
  unfold decoded ConnectInfo.setUser
  cases field items "Authorization" with
  | none => rfl
  | some auth => dsimp only; split <;> rfl

/-- The header lines are read, and the credentials are decoded unless they do not fit. -/
theorem decode_cases (env : Env) (geo : Degrees P) {url mount : Bytes} (buf : Bytes)
    (h : extractPath url = some mount) :
    (∃ auth, field (readHeaders buf).1 "Authorization" = some auth ∧
        decodeBasicAuthentication auth = none) ∧
      decodeBuffereventReq env geo url buf = .error .overrun ∨
    (¬ ∃ auth, field (readHeaders buf).1 "Authorization" = some auth ∧
        decodeBasicAuthentication auth = none) ∧
      decodeBuffereventReq env geo url buf =
        .ok ((decoded env geo url mount (readHeaders buf).1).locate geo (readHeaders buf).2,
          (readHeaders buf).2) := by
  rw [decode_eq env geo buf h]
  unfold decoded
  cases field (readHeaders buf).1 "Authorization" with
  | none => exact .inr ⟨nofun, rfl⟩
  | some auth =>
    cases hauth : decodeBasicAuthentication auth with
    | none => exact .inl ⟨⟨auth, rfl, hauth⟩, by dsimp only; rw [hauth]⟩
    | some decodeID =>
      refine .inr ⟨?_, by dsimp only; rw [hauth]; rfl⟩
      rintro ⟨auth', h1, h2⟩
      cases h1
      rw [hauth] at h2
      cases h2

theorem extractPath_of_decodes {header : Bytes} {m : Method} (h : decodes opt header = some m) :
    ∃ mount, extractPath m.url = some mount := by
  unfold decodes at h
  split at h
  · cases h
  · obtain ⟨-, hm⟩ := Option.filter_eq_some_iff.mp h
    exact Option.isSome_iff_exists.mp (Bool.and_eq_true_iff.mp hm).2

theorem fate (opt : ListenerOpt) (env : Env) (geo : Degrees P) (buf : Bytes) :
    Fate opt env geo buf := by
  have hproc : processBevRequest opt env geo buf = _ := processBevRequest_eq buf
  cases hheader : readHeader opt buf with
  | none =>
    rw [hheader] at hproc
    refine .reject ?_ ?_ hproc
    · rintro ⟨_, _, _, _, h, -⟩; rw [hheader] at h; cases h
    · intro _ _ _ _ h; rw [hheader] at h; cases h
  | some r =>
    obtain ⟨header, rest⟩ := r
    rw [hheader] at hproc
    dsimp only at hproc
    cases hdec : decodes opt header with
    | none =>
      rw [hdec] at hproc
      refine .reject ?_ ?_ hproc
      · rintro ⟨_, _, _, _, h, h', -⟩
        rw [hheader] at h; cases h; rw [hdec] at h'; cases h'
      · intro _ _ _ _ h h'
        rw [hheader] at h; cases h; rw [hdec] at h'; cases h'
    | some m =>
      rw [hdec] at hproc
      dsimp only at hproc
      obtain ⟨mount, hmount⟩ := extractPath_of_decodes hdec
      obtain ⟨hover, hres⟩ | ⟨hfit, hres⟩ := decode_cases env geo rest hmount
      · rw [hres] at hproc
        obtain ⟨auth, hauth, hnone⟩ := hover
        exact .undefined ⟨header, rest, m, auth, hheader, hdec, hauth, hnone⟩ hproc
      · have hover : ¬ Overruns opt buf := by
          rintro ⟨_, _, _, auth, h, h', hauth⟩
          rw [hheader] at h; cases h; rw [hdec] at h'; cases h'
          exact hfit ⟨auth, hauth⟩
        rw [hres, verdictOf, mountPoint_locate, mountPoint_decoded] at hproc
        cases hadm : admits opt env m mount with
        | false =>
          rw [hadm] at hproc
          refine .reject hover ?_ hproc
          intro _ _ _ _ h h' h''
          rw [hheader] at h; cases h; rw [hdec] at h'; cases h'; rw [hmount] at h''; cases h''
          exact hadm
        | true =>
          rw [hadm] at hproc
          refine .accept hover ?_ hheader hdec hmount hproc
          intro href
          have := href header rest m mount hheader hdec hmount
          rw [hadm] at this
          cases this

theorem headerPosition_of_trailing {gga : Bytes} {pos : P}
    (h : trailingPosition geo gga = some pos) : headerPosition geo gga = some pos := by
  unfold trailingPosition at h
  split at h
  · next hlen =>
    unfold headerPosition
    rw [if_neg (List.ne_nil_of_length_pos hlen.1), h]
  · cases h

theorem locate_eq_iff {r : ConnectInfo P} (hr : r.position = geo.initial) (t t' : Bytes) :
    (r.locate geo t).ntripGga = (r.locate geo t').ntripGga ∧
      (r.locate geo t).position = (r.locate geo t').position ↔
        SamePosition geo r.ntripGga t t' := by
  unfold ConnectInfo.locate SamePosition
  rw [hr]
  dsimp only
  cases hz : geo.isZero ((headerPosition geo r.ntripGga).getD geo.initial) with
  | false => exact iff_of_true ⟨rfl, rfl⟩ (.inr (.inl rfl))
  | true =>
    rw [if_pos rfl, if_pos rfl]
    have hself {u : Bytes} {pos : P} (hu : trailingPosition geo u = some pos)
        (hg : u = r.ntripGga) :
        (headerPosition geo r.ntripGga).getD geo.initial = pos := by
      rw [hg] at hu
      rw [headerPosition_of_trailing hu]
      rfl
    cases ht : trailingPosition geo t with
    | none =>
      cases ht' : trailingPosition geo t' with
      | none =>
        refine iff_of_true ⟨rfl, rfl⟩ (.inr (.inr ?_))
        rintro u (rfl | rfl) hu
        · exact absurd ht hu
        · exact absurd ht' hu
      | some pos =>
        constructor
        · rintro ⟨hg, -⟩
          refine .inr (.inr ?_)
          rintro u (rfl | rfl) hu
          · exact absurd ht hu
          · exact hg.symm
        · rintro (rfl | h | h)
          · rw [ht] at ht'; cases ht'
          · cases h
          · have hg := h t' (.inr rfl) (by rw [ht']; nofun)
            exact ⟨hg.symm, hself ht' hg⟩
    | some pos =>
      cases ht' : trailingPosition geo t' with
      | none =>
        constructor
        · rintro ⟨hg, -⟩
          refine .inr (.inr ?_)
          rintro u (rfl | rfl) hu
          · exact hg
          · exact absurd ht' hu
        · rintro (rfl | h | h)
          · rw [ht] at ht'; cases ht'
          · cases h
          · have hg := h t (.inl rfl) (by rw [ht]; nofun)
            exact ⟨hg, (hself ht hg).symm⟩
      | some pos' =>
        constructor
        · exact fun h ↦ .inl h.1
        · rintro (rfl | h | h)
          · rw [ht] at ht'; cases ht'; exact ⟨rfl, rfl⟩
          · cases h
          · have hg := h t (.inl rfl) (by rw [ht]; nofun)
            have hg' := h t' (.inr rfl) (by rw [ht']; nofun)
            exact ⟨hg.trans hg'.symm, (hself ht hg).symm.trans (hself ht' hg')⟩

theorem locate_eq {r : ConnectInfo P} (t : Bytes) :
    r.locate geo t =
      { r with
        ntripGga := (r.locate geo t).ntripGga
        position := (r.locate geo t).position } := by
  unfold ConnectInfo.locate
  dsimp only
  split
  · cases trailingPosition geo t <;> rfl
  · rfl

theorem decoded_fields (env : Env) (geo : Degrees P) (url mount : Bytes)
    (items : List (Bytes × Bytes)) :
    (decoded env geo url mount items).ntripGga = (field items "Ntrip-GGA").getD [] ∧
      (decoded env geo url mount items).position = geo.initial := by
  unfold decoded ConnectInfo.setUser
  cases field items "Authorization" with
  | none => exact ⟨rfl, rfl⟩
  | some auth => dsimp only; split <;> exact ⟨rfl, rfl⟩

theorem plan_fields (env : Env) (r : ConnectInfo P) (m : Method) :
    (plan env r m).2.ntripGga = r.ntripGga ∧ (plan env r m).2.position = r.position := by
  cases m with
  | get url => unfold plan; dsimp only; split <;> exact ⟨rfl, rfl⟩
  | post url => exact ⟨rfl, rfl⟩
  | source url secret => unfold plan; dsimp only; split <;> exact ⟨rfl, rfl⟩

def letIn : Verify := fun _ _ _ ↦ some []

theorem result_accept (auth : Option AuthType) (r : ConnectInfo P) (left later : Bytes) :
    (Verdict.accept auth r left).result letIn later =
      .pushed { r with operateCreate := true, groupUid := ascii "default" } (left ++ later) := by
  cases auth <;> rfl

theorem result_accept_ne_undefined (verify : Verify) (auth : Option AuthType) (r : ConnectInfo P)
    (left later : Bytes) : (Verdict.accept auth r left).result verify later ≠ .undefined := by
  cases auth with
  | none => nofun
  | some type =>
    unfold Verdict.result createRequest
    dsimp only
    cases verify type r.userName r.userPwd <;> nofun

namespace Message

variable (msg : Message)

theorem refused_head (opt : ListenerOpt) (env : Env) (tail : Bytes) :
    Refused opt env (msg.head ++ tail) ↔ ∀ m mount, decodes opt (chomp msg.line) = some m →
      extractPath m.url = some mount → admits opt env m mount = false := by
  obtain ⟨rest, hread, -⟩ := msg.readHeader_head opt tail
  constructor
  · exact fun h m mount ↦ h _ rest m mount hread
  · intro h header rest' m mount hread'
    rw [hread] at hread'
    cases hread'
    exact h m mount

theorem process_head {opt : ListenerOpt} {env : Env} (geo : Degrees P) {tail : Bytes}
    (hover : ¬ Overruns opt (msg.head ++ tail)) (href : ¬ Refused opt env (msg.head ++ tail)) :
    ∃ m mount, decodes opt (chomp msg.line) = some m ∧ extractPath m.url = some mount ∧
      processBevRequest opt env geo (msg.head ++ tail) = handOn env geo m mount msg.items tail := by
  obtain ⟨rest, hread, hheaders⟩ := msg.readHeader_head opt tail
  cases fate opt env geo (msg.head ++ tail) with
  | undefined h _ => exact absurd h hover
  | reject _ h _ => exact absurd h href
  | @accept header rest' mount m _ _ hread' hdec hmount hproc =>
    rw [hread] at hread'
    cases hread'
    rw [hheaders] at hproc
    exact ⟨m, mount, hdec, hmount, hproc⟩

theorem head_of_le {first later : Bytes} (h : first ++ later = msg.bytes)
    (hle : msg.head.length ≤ first.length) :
    first = msg.head ++ first.drop msg.head.length ∧
      first.drop msg.head.length ++ later = msg.behind := by
  have hpre : msg.head <+: first :=
    List.prefix_of_prefix_length_le msg.head_prefix (h ▸ List.prefix_append _ _) hle
  obtain ⟨t, rfl⟩ := hpre
  rw [List.drop_left]
  refine ⟨rfl, ?_⟩
  rw [bytes_eq, List.append_assoc] at h
  exact List.append_cancel_left h

end Message

theorem result_later (verify : Verify) (auth : Option AuthType) (r : ConnectInfo P)
    {left left' later : Bytes} (h : left ++ later = left') :
    (Verdict.accept auth r left).result verify later =
      (Verdict.accept auth r left').result verify [] := by
  rw [← List.append_nil left'] at h
  cases auth <;> simp only [Verdict.result, h]

theorem handOn_eq {env : Env} {m : Method} {mount t t' later : Bytes} {items : List (Bytes × Bytes)}
    (hlater : t ++ later = t') (hpos : SamePosition geo ((field items "Ntrip-GGA").getD []) t t')
    (verify : Verify) :
    (handOn env geo m mount items t).result verify later =
      (handOn env geo m mount items t').result verify [] := by
  obtain ⟨hgga, hinit⟩ := decoded_fields env geo m.url mount items
  have hloc := (locate_eq_iff hinit t t').mpr (hgga ▸ hpos)
  have heq : (decoded env geo m.url mount items).locate geo t =
      (decoded env geo m.url mount items).locate geo t' := by
    rw [locate_eq t, locate_eq t', hloc.1, hloc.2]
  unfold handOn
  dsimp only
  rw [heq]
  exact result_later verify _ _ hlater

theorem samePosition_of_handOn {env : Env} {m : Method} {mount t t' later : Bytes}
    {items : List (Bytes × Bytes)}
    (h : (handOn env geo m mount items t).result letIn later =
      (handOn env geo m mount items t').result letIn []) :
    SamePosition geo ((field items "Ntrip-GGA").getD []) t t' := by
  obtain ⟨hgga, hinit⟩ := decoded_fields env geo m.url mount items
  unfold handOn at h
  rw [result_accept, result_accept, Result.pushed.injEq] at h
  have hplan (u : Bytes) :=
    plan_fields env ((decoded env geo m.url mount items).locate geo u) m
  rw [← hgga, ← locate_eq_iff hinit t t', ← (hplan t).1, ← (hplan t').1, ← (hplan t).2,
    ← (hplan t').2]
  have hg := congrArg ConnectInfo.ntripGga h.1
  have hp := congrArg ConnectInfo.position h.1
  exact ⟨hg, hp⟩

theorem left_of_handOn {env : Env} {m m' : Method} {mount mount' t t' later : Bytes}
    {items items' : List (Bytes × Bytes)}
    (h : (handOn env geo m mount items t).result letIn later =
      (handOn env geo m' mount' items' t').result letIn []) : t ++ later = t' := by
  unfold handOn at h
  rw [result_accept, result_accept, Result.pushed.injEq, List.append_nil] at h
  exact h.2

theorem result_handOn (env : Env) (geo : Degrees P) (m : Method) (mount : Bytes)
    (items : List (Bytes × Bytes)) (left later : Bytes) :
    ∃ r, (handOn env geo m mount items left).result letIn later = .pushed r (left ++ later) :=
  ⟨_, result_accept _ _ _ _⟩

theorem same_iff (msg : Message) {first later : Bytes} (h : first ++ later = msg.bytes) :
    (∀ verify, (processBevRequest opt env geo first).result verify later =
        (processBevRequest opt env geo msg.bytes).result verify [] ∧
      (processBevRequest opt env geo msg.bytes).result verify [] ≠ .undefined) ↔
      Unaffected opt env geo msg first := by
  constructor
  · intro hsame
    obtain ⟨heq, hdef⟩ := hsame letIn
    cases fate opt env geo msg.bytes with
    | undefined _ hall => exact absurd (congrArg (Verdict.result letIn []) hall) hdef
    | reject hover href hall =>
      rw [hall] at heq
      cases fate opt env geo first with
      | undefined _ hfirst => rw [hfirst] at heq; cases heq
      | reject hover' href' _ => exact ⟨hover, hover', .inl ⟨href, href'⟩⟩
      | accept _ _ _ _ _ hfirst =>
        obtain ⟨r, hr⟩ := result_handOn env geo _ _ _ _ later
        rw [hfirst, hr] at heq
        cases heq
    | @accept header rest mount m hover href hread hdec hmount hall =>
      cases fate opt env geo first with
      | undefined _ hfirst =>
        obtain ⟨r, hr⟩ := result_handOn env geo _ _ _ _ []
        rw [hfirst, hall, hr] at heq
        cases heq
      | reject _ _ hfirst =>
        obtain ⟨r, hr⟩ := result_handOn env geo _ _ _ _ []
        rw [hfirst, hall, hr] at heq
        cases heq
      | @accept header' rest' mount' m' hover' href' hread' hdec' hmount' hfirst =>
        refine ⟨hover, hover', .inr ?_⟩
        obtain ⟨m₀, mount₀, hdec₀, hmount₀, hall₀⟩ :
            ∃ m mount, decodes opt (chomp msg.line) = some m ∧ extractPath m.url = some mount ∧
              processBevRequest opt env geo msg.bytes =
                handOn env geo m mount msg.items msg.behind := by
          rw [msg.bytes_eq] at hover href ⊢
          exact msg.process_head geo hover href
        rw [hall₀, hfirst] at heq
        have hlen : (readHeaders rest').2.length + later.length = msg.behind.length := by
          rw [← left_of_handOn heq, List.length_append]
        have hle : msg.head.length ≤ first.length := by
          have htotal := congrArg List.length h
          rw [msg.bytes_eq, List.length_append, List.length_append] at htotal
          omega
        obtain ⟨htail, hbehind⟩ := msg.head_of_le h hle
        refine ⟨hle, ?_⟩
        rw [htail] at hover' href' hfirst
        obtain ⟨m₁, mount₁, hdec₁, hmount₁, hfirst₁⟩ := msg.process_head geo hover' href'
        rw [hdec₀] at hdec₁
        cases hdec₁
        rw [hmount₀] at hmount₁
        cases hmount₁
        rw [← hfirst, hfirst₁] at heq
        exact samePosition_of_handOn heq
  · rintro ⟨hover, hover', hcase⟩ verify
    by_cases hrefs : Refused opt env msg.bytes ∧ Refused opt env first
    · obtain ⟨href, href'⟩ := hrefs
      have hall : processBevRequest opt env geo msg.bytes = .reject := by
        cases fate opt env geo msg.bytes with
        | undefined h _ => exact absurd h hover
        | reject _ _ h => exact h
        | accept _ h => exact absurd href h
      have hfirst : processBevRequest opt env geo first = .reject := by
        cases fate opt env geo first with
        | undefined h _ => exact absurd h hover'
        | reject _ _ h => exact h
        | accept _ h => exact absurd href' h
      rw [hall, hfirst]
      exact ⟨rfl, nofun⟩
    · obtain ⟨hle, hpos⟩ := hcase.resolve_left hrefs
      obtain ⟨hfirst, hbehind⟩ := msg.head_of_le h hle
      have hhead : msg.head ++ msg.behind = msg.bytes := msg.bytes_eq.symm
      have href : Refused opt env msg.bytes ↔ Refused opt env first := by
        rw [hfirst, ← hhead, msg.refused_head, msg.refused_head]
      have hgrant : ¬ Refused opt env first := fun hr ↦ hrefs ⟨href.mpr hr, hr⟩
      have hgrant' : ¬ Refused opt env msg.bytes := fun hr ↦ hgrant (href.mp hr)
      rw [← hhead] at hover hgrant' ⊢
      rw [hfirst] at hover' hgrant ⊢
      obtain ⟨m, mount, hdec, hmount, hall⟩ := msg.process_head geo hover hgrant'
      obtain ⟨m₁, mount₁, hdec₁, hmount₁, hpart⟩ := msg.process_head geo hover' hgrant
      rw [hdec] at hdec₁
      cases hdec₁
      rw [hmount] at hmount₁
      cases hmount₁
      rw [hall, hpart]
      exact ⟨handOn_eq hbehind hpos verify, result_accept_ne_undefined verify _ _ _ _⟩

end

def sourceRequest : Message where
  line := ascii "SOURCE pwd MPT\r"
  headers := [ascii "STR: x\r"]
  blank := [13]
  body := []
  line_lf := by decide
  headers_lf := by decide
  headers_nonblank := by decide
  blank_eq := .inr rfl

def cutHeader : Fragmentation sourceRequest.bytes where
  reads := [ascii "SOURCE pwd MPT\r\nST", ascii "R: x\r\n\r\n"]
  nonempty := by decide
  flatten := by decide +kernel

def openListener : ListenerOpt where
  enableSourceLogin := true
  enableServerLogin := true
  enableClientLogin := true
  enableHeaderNoCrlf := false

def anyMount : Env where
  connectKey := ascii "k"
  ip := ascii "127.0.0.1"
  port := 2101
  checkNearestMpt := fun _ ↦ false
  checkAliasMpt := fun _ ↦ false

def noDegrees : Degrees Unit where
  latlon := fun _ _ _ _ ↦ none
  initial := ()
  isZero := fun _ ↦ true

end NavCaster.Service.Segmentation
