import NavCaster.Auth.Account
import NavCaster.Base.ConnectKey

namespace NavCaster.Http.AuditPages

open NavCaster.Library.Strto
open NavCaster.Library.Scan
open NavCaster.Auth.Account (Json)
open NavCaster.Base.ConnectKey (toText scanInt scanInt_toText)

/-- The list `LOG:AUDIT`, in the order in which the store gives it out. The store takes no longer
one. -/
structure AuditList where
  texts : List Bytes
  short : texts.length < 2 ^ 32

structure AuditQuery where
  limit : Option Bytes := none
  cursor : Option Bytes := none
  actor : Option Bytes := none
  action : Option Bytes := none
  target : Option Bytes := none

structure Filter where
  actor : Bytes
  action : Bytes
  target : Bytes

structure Page where
  items : List Json
  nextCursor : Int
  hasMore : Bool
  total : Int

def AuditQuery.filter (q : AuditQuery) : Filter :=
  ⟨q.actor.getD [], q.action.getD [], q.target.getD []⟩

/-- What is no number, or too large a one, is not read. -/
def readParam (default : Int) (param : Option Bytes) : Int :=
  ((param.bind fun s ↦ (stol s).toOption)).getD default

def AuditQuery.pageLimit (q : AuditQuery) : Int :=
  let limit := readParam 100 q.limit
  if limit ≤ 0 ∨ 1000 < limit then 100 else limit

section

variable (parse : Bytes → Option Json)

def parsed (text : Bytes) : Json := (parse (cstr text)).getD (.string (cstr text))

def lrange (log : List Bytes) (start stop : Int) : List Json :=
  let len : Int := log.length
  let start := max 0 (if start < 0 then start + len else start)
  let stop := min (len - 1) (if stop < 0 then stop + len else stop)
  if stop < start then []
  else ((log.drop start.toNat).take (stop - start + 1).toNat).map (parsed parse)

end

/-- A member that is no string throws. -/
def passes (wanted : Bytes) (key : String) (test : Bytes → Bool) (entry : Json) : Option Bool :=
  if wanted = [] then some true else (entry.value Json.getString key []).map test

def Filter.judge (f : Filter) (entry : Json) : Option Bool :=
  match entry with
  | .object _ => do
    if !(← passes f.actor "actor" (· = f.actor) entry) then return false
    if !(← passes f.action "action" (fun s ↦ (findText f.action s).isSome) entry) then return false
    passes f.target "target_type" (· = f.target) entry
  | _ => some false

/-- The entries for the page, and how many have been looked at. -/
def scanEntries (limit : Int) (f : Filter) (out : List Json) (scanned : Nat) :
    List Json → Option (List Json × Nat)
  | [] => some (out, scanned)
  | entry :: arr =>
    match f.judge entry with
    | none => none
    | some false => scanEntries limit f out (scanned + 1) arr
    | some true =>
      if limit ≤ (out ++ [entry]).length then some (out ++ [entry], scanned + 1)
      else scanEntries limit f (out ++ [entry]) (scanned + 1) arr

/-- `none` where it throws, which is answered with an error. -/
def handleGetAudit (parse : Bytes → Option Json) (log : List Bytes) (q : AuditQuery) :
    Option Page :=
  let limit := q.pageLimit
  let start := readParam 0 q.cursor
  let arr := lrange parse log start (start + limit * 4 - 1)
  (scanEntries limit q.filter [] 0 arr).map fun (out, scanned) ↦
    let nextCursor := start + scanned
    ⟨out, nextCursor, nextCursor < log.length, log.length⟩

/-- The items that are collected from a cursor on, page by page, until no more are said to
follow. -/
inductive Collected (parse : Bytes → Option Json) (log : List Bytes)
    (q : AuditQuery) : Int → List Json → Prop
  | last {cursor : Int} {page : Page} :
    handleGetAudit parse log { q with cursor := some (toText cursor) } = some page →
    page.hasMore = false → Collected parse log q cursor page.items
  | more {cursor : Int} {page : Page} {items : List Json} :
    handleGetAudit parse log { q with cursor := some (toText cursor) } = some page →
    page.hasMore = true → Collected parse log q page.nextCursor items →
    Collected parse log q cursor (page.items ++ items)

def stringAt (key : String) (entry : Json) : Bytes := ((entry.find key).bind Json.getString).getD []

namespace Filter

variable (f : Filter) (entry : Json)

def hasActor : Bool := f.actor = [] || stringAt "actor" entry = f.actor

def hasAction : Bool := f.action = [] || (findText f.action (stringAt "action" entry)).isSome

def hasTarget : Bool := f.target = [] || stringAt "target_type" entry = f.target

def accepts : Bool :=
  match entry with
  | .object members =>
    f.hasActor (.object members) && f.hasAction (.object members) && f.hasTarget (.object members)
  | _ => false

end Filter

def Typed (wanted : Bytes) (key : String) (entry : Json) : Prop :=
  wanted = [] ∨ ∀ v, entry.find key = some v → ∃ s, v = .string s

/-- The members that the filter looks at, up to one that is not as wanted, are strings. -/
def Filter.Readable (f : Filter) (entry : Json) : Prop :=
  Typed f.actor "actor" entry ∧ (f.hasActor entry = true →
    Typed f.action "action" entry ∧ (f.hasAction entry = true → Typed f.target "target_type" entry))

section

variable (wanted : Bytes) (key : String) (test : Bytes → Bool) (members : List (String × Json))

theorem passes_typed (h : Typed wanted key (.object members)) :
    passes wanted key test (.object members) =
      some (wanted = [] || test (stringAt key (.object members))) := by
  unfold passes
  split_ifs with hnil
  · simp [hnil]
  · have hstring := h.resolve_left hnil
    simp only [Json.find] at hstring
    simp only [Json.value, stringAt, Json.find, hnil, decide_false, Bool.false_or]
    cases hv : members.lookup key with
    | none => simp
    | some v =>
      obtain ⟨s, rfl⟩ := hstring v hv
      simp [Json.getString]

theorem passes_untyped (h : ¬ Typed wanted key (.object members)) :
    passes wanted key test (.object members) = none := by
  unfold Typed at h
  push Not at h
  obtain ⟨hnil, v, hv, hstring⟩ := h
  simp only [Json.find] at hv
  unfold passes
  rw [if_neg hnil]
  simp only [Json.value, hv, Option.map_eq_none_iff]
  cases v with
  | string s => exact absurd rfl (hstring s)
  | _ => rfl

end

namespace Filter

variable (f : Filter)

theorem judge_object (members : List (String × Json)) : f.judge (.object members) =
    (passes f.actor "actor" (· = f.actor) (.object members)).bind fun a ↦
      if a then
        (passes f.action "action" (fun s ↦ (findText f.action s).isSome) (.object members)).bind
          fun b ↦
          if b then passes f.target "target_type" (· = f.target) (.object members) else some false
      else some false := by
  unfold judge
  simp only [Option.bind_eq_bind]
  congr 1
  funext a
  cases a with
  | false => rfl
  | true =>
    simp only [Bool.not_true, Bool.false_eq_true, if_false, if_true]
    congr 1
    funext b
    cases b <;> rfl

theorem judge_some {entry : Json} (h : f.Readable entry) :
    f.judge entry = some (f.accepts entry) := by
  cases entry with
  | object members =>
    obtain ⟨hactor, h⟩ := h
    rw [judge_object, passes_typed _ _ _ _ hactor, Option.bind_some]
    change (if f.hasActor (.object members) = true then _ else _) = some (f.hasActor _ && _ && _)
    cases ha : f.hasActor (.object members) with
    | false => simp
    | true =>
      obtain ⟨haction, h⟩ := h ha
      rw [if_pos rfl, passes_typed _ _ _ _ haction, Option.bind_some]
      change (if f.hasAction (.object members) = true then _ else _) =
        some (true && f.hasAction _ && _)
      cases hb : f.hasAction (.object members) with
      | false => simp
      | true =>
        rw [if_pos rfl, passes_typed _ _ _ _ (h hb)]
        simp [hasTarget]
  | _ => rfl

theorem judge_none {entry : Json} (h : ¬ f.Readable entry) : f.judge entry = none := by
  cases entry with
  | object members =>
    rw [judge_object]
    by_cases hactor : Typed f.actor "actor" (.object members)
    · obtain ⟨ha, h⟩ : f.hasActor (.object members) = true ∧
          ¬ (Typed f.action "action" (.object members) ∧ (f.hasAction (.object members) = true →
            Typed f.target "target_type" (.object members))) := by
        simpa [Readable, hactor] using h
      rw [passes_typed _ _ _ _ hactor, Option.bind_some]
      change (if f.hasActor (.object members) = true then _ else _) = none
      rw [if_pos ha]
      by_cases haction : Typed f.action "action" (.object members)
      · obtain ⟨hb, htarget⟩ : f.hasAction (.object members) = true ∧
            ¬ Typed f.target "target_type" (.object members) := by
          simpa [haction] using h
        rw [passes_typed _ _ _ _ haction, Option.bind_some]
        change (if f.hasAction (.object members) = true then _ else _) = none
        rw [if_pos hb, passes_untyped _ _ _ _ htarget]
      · rw [passes_untyped _ _ _ _ haction]
        rfl
    · rw [passes_untyped _ _ _ _ hactor]
      rfl
  | _ => simp [Readable, Typed, Json.find] at h

end Filter

theorem scanEntries_some {limit : Int} {f : Filter} {out : List Json} {k : ℕ} {arr : List Json}
    {r : List Json × ℕ} (h : scanEntries limit f out k arr = some r) :
    ∃ n ≤ arr.length, (arr ≠ [] → 0 < n) ∧ (∀ e ∈ arr.take n, f.Readable e) ∧
      r = (out ++ (arr.take n).filter f.accepts, k + n) := by
  induction arr generalizing out k with
  | nil =>
    simp only [scanEntries, Option.some_inj] at h
    exact ⟨0, le_rfl, by simp, by simp, by simp [h]⟩
  | cons entry arr ih =>
    have hreadable : f.Readable entry := by
      by_contra hno
      simp [scanEntries, f.judge_none hno] at h
    have hcons {n : ℕ} (hn : ∀ e ∈ arr.take n, f.Readable e) :
        ∀ e ∈ (entry :: arr).take (n + 1), f.Readable e := by
      simpa [hreadable] using hn
    simp only [scanEntries, f.judge_some hreadable] at h
    cases haccepts : f.accepts entry with
    | false =>
      simp only [haccepts] at h
      obtain ⟨n, hn, -, hread, rfl⟩ := ih h
      exact ⟨n + 1, by simpa using hn, by simp, hcons hread, by simp [haccepts]; omega⟩
    | true =>
      simp only [haccepts] at h
      split_ifs at h with hfull
      · cases h
        exact ⟨1, by simp, by simp, by simpa using hreadable, by simp [haccepts]⟩
      · obtain ⟨n, hn, -, hread, rfl⟩ := ih h
        exact ⟨n + 1, by simpa using hn, by simp, hcons hread, by simp [haccepts]; omega⟩

theorem scanEntries_isSome {limit : Int} {f : Filter} {arr : List Json}
    (h : ∀ e ∈ arr, f.Readable e) (out : List Json)
    (k : ℕ) : (scanEntries limit f out k arr).isSome := by
  induction arr generalizing out k with
  | nil => rfl
  | cons entry arr ih =>
    obtain ⟨hentry, harr⟩ := List.forall_mem_cons.mp h
    simp only [scanEntries, f.judge_some hentry]
    cases f.accepts entry with
    | false => exact ih harr _ _
    | true =>
      dsimp only
      split_ifs
      · rfl
      · exact ih harr _ _

theorem strtol_eq_scanInt (s : Bytes) : strtol s = (scanInt s).map Prod.fst := by
  unfold strtol scanInt
  dsimp only
  cases digits digit (sign (s.dropWhile isSpace)).2 with
  | mk vs rest => cases vs <;> rfl

theorem readParam_toText {n : ℕ} (h : n < 2 ^ 32) (default : Int) :
    readParam default (some (toText n)) = n := by
  have hscan := scanInt_toText n (s := []) (by simp)
  rw [List.append_nil] at hscan
  have hstol : stol (toText n) = .ok n := by
    unfold stol
    rw [strtol_eq_scanInt, hscan]
    dsimp only [Option.map_some]
    rw [if_pos (by omega)]
  simp [readParam, hstol, Except.toOption]

theorem pageLimit_range (q : AuditQuery) : 1 ≤ q.pageLimit ∧ q.pageLimit ≤ 1000 := by
  unfold AuditQuery.pageLimit
  dsimp only
  split_ifs <;> omega

section

variable (parse : Bytes → Option Json)

theorem lrange_page (log : List Bytes) (c : ℕ) {m : Int} (hm : 1 ≤ m) :
    lrange parse log c (c + m - 1) = ((log.drop c).take m.toNat).map (parsed parse) := by
  have hfrom : ¬ (c : Int) < 0 := by omega
  have hto : ¬ (c : Int) + m - 1 < 0 := by omega
  unfold lrange
  dsimp only
  rw [if_neg hfrom, if_neg hto]
  split_ifs with hend
  · have hdrop : log.drop c = [] := List.drop_eq_nil_of_le (by omega)
    simp [hdrop]
  · have hstart : (max 0 (c : Int)).toNat = c := by omega
    rw [hstart]
    congr 1
    rw [List.take_eq_take_iff, List.length_drop]
    omega

variable (log : AuditList) (q : AuditQuery)

def rest (c : ℕ) : List Json := (log.texts.drop c).map (parsed parse)

theorem rest_take (c n : ℕ) :
    (rest parse log c).take n ++ rest parse log (c + n) = rest parse log c := by
  have hdrop : rest parse log (c + n) = (rest parse log c).drop n := by
    simp [rest, List.map_drop, List.drop_drop]
  rw [hdrop, List.take_append_drop]

theorem length_rest (c : ℕ) : (rest parse log c).length = log.texts.length - c := by
  simp [rest]

theorem handleGetAudit_eq (c : ℕ) (hc : c < 2 ^ 32) :
    handleGetAudit parse log.texts { q with cursor := some (toText c) } =
      (scanEntries q.pageLimit q.filter [] 0 ((rest parse log c).take (q.pageLimit * 4).toNat)).map
        fun r ↦
        ⟨r.1, (c + r.2 : ℕ), decide (c + r.2 < log.texts.length), log.texts.length⟩ := by
  have hlimit := pageLimit_range q
  have hcursor : readParam 0 (some (toText c)) = c := readParam_toText hc 0
  have hpage : ({ q with cursor := some (toText c) } : AuditQuery).pageLimit = q.pageLimit := rfl
  have hfilter : ({ q with cursor := some (toText c) } : AuditQuery).filter = q.filter := rfl
  unfold handleGetAudit
  dsimp only
  simp only [hcursor, hpage, hfilter]
  rw [lrange_page parse log.texts c (by omega), List.map_take]
  congr 1
  funext r
  simp
  omega

theorem handleGetAudit_some {c : ℕ} (hc : c ≤ log.texts.length) {page : Page}
    (h : handleGetAudit parse log.texts { q with cursor := some (toText c) } = some page) :
    ∃ n, c + n ≤ log.texts.length ∧ (c < log.texts.length → 0 < n) ∧
      (∀ e ∈ (rest parse log c).take n, q.filter.Readable e) ∧
      page = ⟨((rest parse log c).take n).filter q.filter.accepts, (c + n : ℕ),
        decide (c + n < log.texts.length), log.texts.length⟩ := by
  have hlimit := pageLimit_range q
  have hshort := log.short
  rw [handleGetAudit_eq parse log q c (by omega)] at h
  obtain ⟨r, hr, hpage⟩ := Option.map_eq_some_iff.mp h
  obtain ⟨n, hn, hpos, hread, rfl⟩ := scanEntries_some hr
  have hlength := length_rest parse log c
  rw [List.length_take] at hn
  have htake :
      ((rest parse log c).take (q.pageLimit * 4).toNat).take n = (rest parse log c).take n := by
    rw [List.take_take, Nat.min_eq_left (by omega)]
  rw [htake] at hread
  simp only [htake, List.nil_append, Nat.zero_add] at hpage
  refine ⟨n, by omega, fun hlt ↦ hpos ?_, hread, hpage.symm⟩
  intro hnil
  have hzero := congrArg List.length hnil
  rw [List.length_take, List.length_nil] at hzero
  omega

theorem handleGetAudit_isSome {c : ℕ} (hc : c ≤ log.texts.length)
    (hread : ∀ e ∈ rest parse log c, q.filter.Readable e) :
    (handleGetAudit parse log.texts { q with cursor := some (toText c) }).isSome := by
  have hshort := log.short
  rw [handleGetAudit_eq parse log q c (by omega), Option.isSome_map]
  exact scanEntries_isSome (fun e he ↦ hread e (List.mem_of_mem_take he)) [] 0

theorem rest_end {c n : ℕ} (h : log.texts.length ≤ c + n) :
    (rest parse log c).take n = rest parse log c :=
  List.take_of_length_le (by rw [length_rest]; omega)

theorem Collected.items_eq {cursor : Int} {items : List Json}
    (h : Collected parse log.texts q cursor items) {c : ℕ} (hcursor : cursor = c)
    (hc : c ≤ log.texts.length) :
    items = (rest parse log c).filter q.filter.accepts ∧
      ∀ e ∈ rest parse log c, q.filter.Readable e := by
  induction h generalizing c with
  | last hpage hmore =>
    subst hcursor
    obtain ⟨n, hn, -, hread, rfl⟩ := handleGetAudit_some parse log q hc hpage
    have hend : log.texts.length ≤ c + n := by simpa using hmore
    rw [rest_end parse log hend] at hread ⊢
    exact ⟨rfl, hread⟩
  | more hpage hmore _ ih =>
    subst hcursor
    obtain ⟨n, hn, -, hread, rfl⟩ := handleGetAudit_some parse log q hc hpage
    obtain ⟨rfl, hrest⟩ := ih rfl hn
    have hsplit := rest_take parse log c n
    constructor
    · conv_rhs => rw [← hsplit, List.filter_append]
    · intro e he
      rw [← hsplit, List.mem_append] at he
      exact he.elim (hread e) (hrest e)

theorem collected_rest {c : ℕ} (hc : c ≤ log.texts.length)
    (hread : ∀ e ∈ rest parse log c, q.filter.Readable e) :
    Collected parse log.texts q c ((rest parse log c).filter q.filter.accepts) := by
  obtain ⟨page, hpage⟩ := Option.isSome_iff_exists.mp (handleGetAudit_isSome parse log q hc hread)
  obtain ⟨n, hn, hpos, -, rfl⟩ := handleGetAudit_some parse log q hc hpage
  by_cases hmore : c + n < log.texts.length
  · have hsplit := rest_take parse log c n
    have hnext : ∀ e ∈ rest parse log (c + n), q.filter.Readable e := by
      intro e he
      exact hread e (hsplit ▸ List.mem_append_right _ he)
    have hlt : 0 < n := hpos (by omega)
    have hcollected := Collected.more hpage (by simpa using hmore) (collected_rest hn hnext)
    rwa [← List.filter_append, hsplit] at hcollected
  · have hcollected := Collected.last hpage (by simpa using hmore)
    rwa [rest_end parse log (by omega)] at hcollected
termination_by log.texts.length - c

end

/-- The pages bring all entries that the filter accepts, if and only if no entry has a member that
the filter cannot read. -/
theorem audit_pages_complete (parse : Bytes → Option Json) (log : AuditList) (q : AuditQuery) :
    Collected parse log.texts q 0 ((log.texts.map (parsed parse)).filter q.filter.accepts) ↔
      ∀ text ∈ log.texts, q.filter.Readable (parsed parse text) := by
  have hrest : rest parse log 0 = log.texts.map (parsed parse) := rfl
  rw [← List.forall_mem_map, ← hrest]
  constructor
  · intro h
    exact (h.items_eq parse log q (c := 0) rfl (Nat.zero_le _)).2
  · exact collected_rest parse log q (Nat.zero_le _)

def oddText : Bytes := ascii "\x7b\"actor\":5\x7d"

def oddEntry (text : Bytes) : Option Json :=
  if text = oddText then some (.object [("actor", .number ⟨5, 5, 5⟩)]) else none

def oddLog : AuditList where
  texts := [oddText]
  short := by decide

def adminQuery : AuditQuery where
  actor := some (ascii "admin")

/-- One entry of another kind, and the page is refused. -/
theorem not_audit_pages_complete :
    (handleGetAudit oddEntry oddLog.texts { adminQuery with cursor := some (toText 0) }).isNone ∧
      ¬ ∀ (parse : Bytes → Option Json) (log : AuditList) (q : AuditQuery),
        Collected parse log.texts q 0 ((log.texts.map (parsed parse)).filter q.filter.accepts) := by
  have hcstr : cstr oddText = oddText := by decide +kernel
  have hparsed : parsed oddEntry oddText = .object [("actor", .number ⟨5, 5, 5⟩)] := by
    simp [parsed, hcstr, oddEntry]
  have hodd : ¬ adminQuery.filter.Readable (parsed oddEntry oddText) := by
    rw [hparsed]
    rintro ⟨hactor, -⟩
    have hstring := hactor.resolve_left (by decide +kernel) (.number ⟨5, 5, 5⟩) rfl
    simp at hstring
  have hmem : parsed oddEntry oddText ∈ rest oddEntry oddLog 0 := by simp [rest, oddLog]
  refine ⟨?_, fun h ↦ ?_⟩
  · decide +kernel
  · have hcollected := h oddEntry oddLog adminQuery
    exact hodd
      ((hcollected.items_eq oddEntry oddLog adminQuery (c := 0) rfl (Nat.zero_le _)).2 _ hmem)

end NavCaster.Http.AuditPages
