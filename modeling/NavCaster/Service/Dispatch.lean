import NavCaster.Base.Rtcm
import NavCaster.Core.Subscription
import NavCaster.Service.Segmentation

namespace NavCaster.Service.Dispatch

open NavCaster.Library
open NavCaster.Library.Strto NavCaster.Library.Scan NavCaster.Library.Lines
open NavCaster.Library.Double (ofInt)
open NavCaster.Base.Rtcm (DecodeRtcm Ecef)
open NavCaster.Core.Connections NavCaster.Core.Subscription
open NavCaster.Service.Request NavCaster.Service.Segmentation

def key (s : Bytes) : String := String.ofList (s.map fun b ↦ Char.ofNat b.toNat)

/-- The state that the data of the bases pass through: the maps, and the total of what has been sent
to all. -/
structure Feed (A : Type) where
  caster : Caster A
  sumSend : Float := 0

structure DataCall (A : Type) where
  arg : A
  request : Bytes
  str : Bytes
  deriving DecidableEq

inductive PubCommand (Q : Type)
  | geoadd (pos : Q) (mountPoint : Bytes)
  | publish (channel data : Bytes)

variable {A Q : Type}

def mountChannel (mountPoint : Bytes) : Bytes := ascii "MPT:" ++ mountPoint

/-- `dec` is the decoder of the base, and `hasStatus` says whether its status is kept; `none` where
the decoder does not come back. -/
def pubBaseChannel (ecef2pos : Ecef → Q) (clock : ℕ → ℤ) (dec : Option DecodeRtcm)
    (hasStatus : Bool) (mountPoint data : Bytes) : Option (List (PubCommand Q)) :=
  match dec with
  | none => some [.publish (mountChannel mountPoint) data]
  | some dec => (dec.decode clock data).left.map fun dec ↦
    (match dec.position with
      | some ecef => if hasStatus then [.geoadd (ecef2pos ecef) mountPoint] else []
      | none => []) ++ [.publish (mountChannel mountPoint) data]

def Decodes (clock : ℕ → ℤ) (dec : Option DecodeRtcm) (data : Bytes) : Prop :=
  ∀ st ∈ dec, ∃ st', (st.decode clock data).left = some st'

/-- What Redis sends to a node that is subscribed to the channel. -/
def replies (commands : List (PubCommand Q)) : List (List Bytes) :=
  commands.filterMap fun
    | .geoadd _ _ => none
    | .publish channel data => some [ascii "message", channel, data]

/-- `char type[64]` and `char channel[128]`. -/
def typeSize : Nat := 64

def channelSize : Nat := 128

def scanChannel (name : Bytes) : Bytes × Option Bytes :=
  match scanUntil (fun b ↦ b = 58) (cstr name) with
  | none => ([], none)
  | some (type, 58 :: rest) => (type, (scanWord rest).map Prod.fst)
  | some (type, _) => (type, none)

def countSend (connectKey : String) (size : ℤ) (s : Feed A) : Feed A :=
  if connectKey ∈ s.caster.registry.streamStatusMap then
    { caster := { s.caster with registry := addSend connectKey size s.caster.registry }
      sumSend := s.sumSend + ofInt size }
  else s

def deliver (react : DataCall A → Feed A → Feed A) (request data : Bytes)
    (r : Feed A × List (DataCall A)) (sub : String × CbItem A) : Feed A × List (DataCall A) :=
  let call : DataCall A := ⟨sub.2.arg, request, data⟩
  (countSend sub.2.connectKey data.length (react call r.1), r.2 ++ [call])

/-- `none` where it writes past one of its buffers. The loop goes over a copy of the row. -/
def redisSubBaseCallback (react : DataCall A → Feed A → Feed A) (reply : Option (List Bytes))
    (s : Feed A) : Option (Feed A × List (DataCall A)) :=
  match reply with
  | some [_, name, data] =>
    let (type, channel) := scanChannel name
    if typeSize ≤ type.length then none
    else match channel with
      | none => some (s, [])
      | some channel =>
        if channelSize ≤ channel.length then none
        else match (s.caster.subMap .base).lookup (key channel) with
          | none => some (s, [])
          | some subs => some ((Table.toPairs subs).foldl (deliver react name data) (s, []))
  | _ => some (s, [])

def subscribers (s : Feed A) (mountPoint : Bytes) : List (String × CbItem A) :=
  match (s.caster.subMap .base).lookup (key mountPoint) with
  | none => []
  | some subs => Table.toPairs subs

def Accepted (mountPoint : Bytes) : Prop :=
  checkMountIsValid mountPoint = true ∧ ∃ opt env, ∃ geo : Degrees Unit, ∃ buf auth info left,
    processBevRequest opt env geo buf = .accept auth info left ∧ info.mountPoint = mountPoint

/-- The message is published, and handed to each subscriber of the mount point, once and as it is,
and to nobody else. -/
def Dispatched (ecef2pos : Ecef → Q) (clock : ℕ → ℤ) (dec : Option DecodeRtcm) (hasStatus : Bool)
    (react : DataCall A → Feed A → Feed A) (mountPoint data : Bytes) (s : Feed A) : Prop :=
  ∃ commands reply s' calls,
    pubBaseChannel ecef2pos clock dec hasStatus mountPoint data = some commands ∧
    replies commands = [reply] ∧ redisSubBaseCallback react (some reply) s = some (s', calls) ∧
    calls = (subscribers s mountPoint).map fun sub ↦ ⟨sub.2.arg, mountChannel mountPoint, data⟩

theorem replies_pubBaseChannel {ecef2pos : Ecef → Q} {clock : ℕ → ℤ} {dec : Option DecodeRtcm}
    {hasStatus : Bool} {mountPoint data : Bytes} {commands : List (PubCommand Q)}
    (h : pubBaseChannel ecef2pos clock dec hasStatus mountPoint data = some commands) :
    replies commands = [[ascii "message", mountChannel mountPoint, data]] := by
  cases dec with
  | none =>
    cases h
    rfl
  | some dec =>
    obtain ⟨dec', -, rfl⟩ := Option.map_eq_some_iff.mp h
    cases dec'.position with
    | none => rfl
    | some ecef => cases hasStatus <;> rfl

theorem exists_pubBaseChannel (ecef2pos : Ecef → Q) (clock : ℕ → ℤ) (dec : Option DecodeRtcm)
    (hasStatus : Bool) (mountPoint data : Bytes) :
    (∃ commands, pubBaseChannel ecef2pos clock dec hasStatus mountPoint data = some commands) ↔
      Decodes clock dec data := by
  cases dec with
  | none => simp [pubBaseChannel, Decodes]
  | some dec => simp [pubBaseChannel, Decodes]

theorem foldl_deliver (react : DataCall A → Feed A → Feed A) (request data : Bytes)
    (subs : List (String × CbItem A)) (r : Feed A × List (DataCall A)) :
    (subs.foldl (deliver react request data) r).2 =
      r.2 ++ subs.map fun sub ↦ ⟨sub.2.arg, request, data⟩ := by
  induction subs generalizing r with
  | nil => exact (List.append_nil r.2).symm
  | cons sub subs ih =>
    rw [List.foldl_cons, ih, List.map_cons, List.append_cons]
    rfl

theorem isMountChar_range {b : UInt8} (h : isMountChar b = true) :
    45 ≤ b.toNat ∧ b.toNat ≤ 122 ∧ b.toNat ≠ 58 ∧ b.toNat ≠ 63 := by
  unfold isMountChar at h
  simp only [Bool.or_eq_true, Bool.and_eq_true, decide_eq_true_eq, UInt8.le_iff_toNat_le,
    ← UInt8.toNat_inj, UInt8.reduceToNat] at h
  omega

theorem isSpace_of_isMountChar {b : UInt8} (h : isMountChar b = true) : isSpace b = false := by
  have hrange := isMountChar_range h
  unfold isSpace
  simp only [Bool.or_eq_false_iff, Bool.and_eq_false_iff, decide_eq_false_iff_not,
    UInt8.le_iff_toNat_le, ← UInt8.toNat_inj, UInt8.reduceToNat]
  omega

theorem ne_of_isMountChar {b c : UInt8} (h : isMountChar b = true) (hc : isMountChar c = false) :
    b ≠ c := by
  rintro rfl
  rw [h] at hc
  cases hc

section

variable {mount : Bytes} (hvalid : checkMountIsValid mount = true)

include hvalid

theorem isMountChar_of_mem {b : UInt8} (hb : b ∈ mount) : isMountChar b = true :=
  List.all_eq_true.mp hvalid b hb

theorem cstr_append_mount {before after : Bytes} (hb : 0 ∉ before) (ha : 0 ∉ after) :
    cstr (before ++ mount ++ after) = before ++ mount ++ after := by
  refine List.takeWhile_eq_self_iff.mpr fun b hb' ↦ decide_eq_true ?_
  rintro rfl
  rw [List.mem_append, List.mem_append] at hb'
  obtain (h | h) | h := hb'
  · exact hb h
  · exact absurd (isMountChar_of_mem hvalid h) (by decide)
  · exact ha h

theorem extractPath_slash : extractPath (47 :: mount) = some mount := by
  have htake : (47 :: mount).takeWhile (· ≠ 63) = 47 :: mount := by
    refine List.takeWhile_eq_self_iff.mpr fun b hb ↦ decide_eq_true ?_
    obtain rfl | hb := List.mem_cons.mp hb
    · decide
    · exact ne_of_isMountChar (isMountChar_of_mem hvalid hb) rfl
  unfold extractPath splitPath
  rw [List.head?_cons, if_pos rfl]
  dsimp only
  rw [htake, List.drop_one, List.tail_cons, if_pos hvalid]

theorem scanWord_mount (hne : mount ≠ []) : scanWord mount = some (mount, []) := by
  have hspace : ∀ b ∈ mount, isSpace b = false :=
    fun b hb ↦ isSpace_of_isMountChar (isMountChar_of_mem hvalid hb)
  have hskip : skipSpace mount = mount := by
    obtain ⟨b, m, rfl⟩ := List.exists_cons_of_ne_nil hne
    unfold skipSpace
    rw [List.dropWhile_cons_of_neg]
    rw [hspace b (List.mem_cons_self ..)]
    nofun
  unfold scanWord
  rw [hskip]
  conv => lhs; rw [← List.append_nil mount]
  exact scanUntil_eq hne hspace (by simp)

theorem scanChannel_mountChannel :
    scanChannel (mountChannel mount) = (ascii "MPT", if mount = [] then none else some mount) := by
  have hcstr : cstr (mountChannel mount) = ascii "MPT" ++ 58 :: mount := by
    have h : cstr (ascii "MPT:" ++ mount ++ []) = ascii "MPT:" ++ mount ++ [] :=
      cstr_append_mount hvalid (by decide) (by simp)
    rw [List.append_nil] at h
    exact h
  have hscan : scanUntil (fun b ↦ b = 58) (ascii "MPT" ++ 58 :: mount) =
      some (ascii "MPT", 58 :: mount) :=
    scanUntil_eq (by decide) (by decide +kernel) (by simp)
  have hword : (scanWord mount).map Prod.fst = if mount = [] then none else some mount := by
    split
    · next h => rw [h]; rfl
    · next h => rw [scanWord_mount hvalid h]; rfl
  unfold scanChannel
  rw [hcstr, hscan, ← hword]
  rfl

theorem redisSubBaseCallback_mount (react : DataCall A → Feed A → Feed A) (type data : Bytes)
    (s : Feed A) :
    (redisSubBaseCallback react (some [type, mountChannel mount, data]) s).map Prod.snd =
      if channelSize ≤ mount.length then none
      else if mount = [] then some []
      else some ((subscribers s mount).map fun sub ↦ ⟨sub.2.arg, mountChannel mount, data⟩) := by
  unfold redisSubBaseCallback
  dsimp only
  rw [scanChannel_mountChannel hvalid]
  dsimp only
  rw [if_neg (by decide)]
  by_cases hnil : mount = []
  · subst hnil
    rfl
  · rw [if_neg hnil, if_neg hnil]
    dsimp only
    split
    · rfl
    · unfold subscribers
      cases (s.caster.subMap .base).lookup (key mount) with
      | none => rfl
      | some subs =>
        rw [Option.map_some, foldl_deliver]
        rfl

end

/-- The message of a mount point reaches its subscribers exactly where the decoder gets through it,
the name fits into the buffer, and it is not empty if there are any. -/
theorem base_dispatch (ecef2pos : Ecef → Q) (clock : ℕ → ℤ) (dec : Option DecodeRtcm)
    (hasStatus : Bool) (react : DataCall A → Feed A → Feed A) (mountPoint data : Bytes) (s : Feed A)
    (h : Accepted mountPoint) :
    Dispatched ecef2pos clock dec hasStatus react mountPoint data s ↔
      Decodes clock dec data ∧ mountPoint.length < channelSize ∧
        (mountPoint = [] → subscribers s mountPoint = []) := by
  have hcall := redisSubBaseCallback_mount h.1 react (ascii "message") data s
  have hpub := exists_pubBaseChannel ecef2pos clock dec hasStatus mountPoint data
  unfold Dispatched
  constructor
  · intro ⟨commands, reply, s', calls, hcommands, hreply, hcb, hcalls⟩
    rw [replies_pubBaseChannel hcommands] at hreply
    cases hreply
    rw [hcb, Option.map_some] at hcall
    by_cases hlen : channelSize ≤ mountPoint.length
    · rw [if_pos hlen] at hcall
      cases hcall
    · refine ⟨hpub.mp ⟨commands, hcommands⟩, by omega, fun hnil ↦ ?_⟩
      rw [if_neg hlen, if_pos hnil, Option.some.injEq, hcalls, List.map_eq_nil_iff] at hcall
      exact hcall
  · intro ⟨hdec, hlen, hnil⟩
    obtain ⟨commands, hcommands⟩ := hpub.mpr hdec
    have hout : (redisSubBaseCallback react (some [ascii "message", mountChannel mountPoint, data])
        s).map Prod.snd =
          some ((subscribers s mountPoint).map fun sub ↦
            ⟨sub.2.arg, mountChannel mountPoint, data⟩) := by
      rw [hcall, if_neg (by omega)]
      split
      · next hm => rw [hnil hm]; rfl
      · rfl
    obtain ⟨⟨s', calls⟩, hcb, hcalls⟩ := Option.map_eq_some_iff.mp hout
    exact ⟨commands, _, s', calls, hcommands, replies_pubBaseChannel hcommands, hcb, hcalls⟩

def getLine (mountPoint : Bytes) : Bytes := ascii "GET /" ++ mountPoint ++ ascii " HTTP/1.1"

def clientListener : ListenerOpt where
  enableSourceLogin := false
  enableServerLogin := false
  enableClientLogin := true
  enableHeaderNoCrlf := false

theorem elements_succ (n : Nat) {token rest : Bytes} (hne : token ≠ [])
    (htoken : ∀ b ∈ token, b ≠ 32 ∧ b ≠ 124 ∧ b ≠ 10)
    (hrest : ∀ b ∈ rest.head?, b = 32 ∨ b = 124 ∨ b = 10) :
    elements (n + 1) (token ++ rest) = token :: elements n (skipSpace rest) := by
  have hexcl : ∀ b ∈ token, (b = 32 || b = 124 || b = 10) = false := by
    intro b hb
    obtain ⟨h1, h2, h3⟩ := htoken b hb
    rw [decide_eq_false h1, decide_eq_false h2, decide_eq_false h3]
    rfl
  have hend : ∀ b ∈ rest.head?, (b = 32 || b = 124 || b = 10) = true := by
    intro b hb
    simpa [or_assoc] using hrest b hb
  rw [elements, scanUntil_eq hne hexcl hend]

section

variable {mount : Bytes} (hvalid : checkMountIsValid mount = true)

include hvalid

theorem elements_getLine :
    elements 4 (getLine mount) = [ascii "GET", 47 :: mount, ascii "HTTP/1.1"] := by
  have hline : getLine mount = ascii "GET" ++ 32 :: ((47 :: mount) ++ 32 :: ascii "HTTP/1.1") := by
    unfold getLine
    rw [List.append_assoc]
    rfl
  have hpath : ∀ b ∈ 47 :: mount, b ≠ 32 ∧ b ≠ 124 ∧ b ≠ 10 := by
    intro b hb
    obtain rfl | hb := List.mem_cons.mp hb
    · decide
    · have hm := isMountChar_of_mem hvalid hb
      exact ⟨ne_of_isMountChar hm rfl, ne_of_isMountChar hm rfl, ne_of_isMountChar hm rfl⟩
  have hspace (b : UInt8) (s : Bytes) (hb : isSpace b = false) :
      skipSpace (32 :: b :: s) = b :: s := by
    unfold skipSpace
    rw [List.dropWhile_cons_of_pos rfl, List.dropWhile_cons_of_neg (by rw [hb]; nofun)]
  have hversion : elements 2 (ascii "HTTP/1.1") = [ascii "HTTP/1.1"] := by decide +kernel
  rw [hline, elements_succ 3 (by decide) (by decide +kernel) (by simp), List.cons_append,
    hspace 47 _ rfl, ← List.cons_append,
    elements_succ 2 (List.cons_ne_nil _ _) hpath (by simp), ← hversion]
  rfl

theorem decodes_getLine (hlen : mount.length ≤ 241) :
    decodes clientListener (getLine mount) = some (.get (47 :: mount)) := by
  have hsize : (getLine mount).length = mount.length + 14 := by
    unfold getLine
    rw [List.length_append, List.length_append]
    change 5 + mount.length + 9 = _
    omega
  have hcstr : cstr (getLine mount) = getLine mount :=
    cstr_append_mount hvalid (by decide) (by decide)
  have hparse : parseHeader (getLine mount) = some (.get (47 :: mount)) := by
    unfold parseHeader
    rw [hcstr, elements_getLine hvalid]
    rfl
  unfold decodes
  rw [if_neg (by omega), hparse, Option.filter_some, Method.url, extractPath_slash hvalid]
  rfl

end

theorem accepted_of_length {mount : Bytes} (hvalid : checkMountIsValid mount = true)
    (hne : mount ≠ []) (hlen : mount.length ≤ 241) : Accepted mount := by
  have hlf : 10 ∉ getLine mount := by
    unfold getLine
    rw [List.mem_append, List.mem_append]
    rintro ((h | h) | h)
    · exact absurd h (by decide)
    · exact ne_of_isMountChar (isMountChar_of_mem hvalid h) (by rfl : isMountChar 10 = false) rfl
    · exact absurd h (by decide)
  have hread :
      readHeader clientListener (getLine mount ++ crlf ++ []) = some (getLine mount, []) := by
    unfold readHeader
    rw [readln_crlf hlf]
  have hdec := decodes_getLine hvalid hlen
  have hpath := extractPath_slash hvalid
  have hnone : (readHeaders []).1 = [] := by
    rw [readHeaders]
    rfl
  refine ⟨hvalid, clientListener, anyMount, noDegrees, getLine mount ++ crlf ++ [], ?_⟩
  cases fate clientListener anyMount noDegrees (getLine mount ++ crlf ++ []) with
  | undefined h _ =>
    obtain ⟨header, rest, m, auth, h1, h2, h3, -⟩ := h
    rw [hread] at h1
    cases h1
    rw [hnone] at h3
    cases h3
  | reject _ h _ =>
    have hadm := h _ _ _ _ hread hdec hpath
    unfold admits at hadm
    rw [if_neg hne] at hadm
    cases hadm
  | @accept header rest mount' m _ _ h1 h2 h3 hproc =>
    rw [hread] at h1
    cases h1
    rw [hdec] at h2
    cases h2
    rw [Method.url, hpath] at h3
    cases h3
    refine ⟨_, _, _, hproc, ?_⟩
    unfold plan
    dsimp only
    rw [mountPoint_locate, mountPoint_decoded, if_neg hne]

def oneSubscriber (mountPoint : Bytes) : Feed Nat where
  caster := (addSub .base (key mountPoint)
    { connectKey := "k", channel := key mountPoint, userName := "u", groupUid := "", arg := 7 }
    "" {} : Effect Nat Unit).caster

def stationData : Bytes := [0xD3, 0, 19, 0x3E, 0xD0] ++ List.replicate 17 0 ++ [242, 75, 244]

theorem base_dispatch_named :
    Dispatched (fun ecef ↦ ecef) (fun _ ↦ 0) (some {}) true (fun _ s ↦ s) (ascii "RTK_01")
      stationData (oneSubscriber (ascii "RTK_01")) := by
  have haccepted : Accepted (ascii "RTK_01") :=
    accepted_of_length (by decide) (by decide) (by decide)
  refine (base_dispatch _ _ _ true (fun _ s ↦ s) _ stationData _ haccepted).mpr ⟨?_, by decide, ?_⟩
  · intro st hst
    cases hst
    exact Option.isSome_iff_exists.mp (by decide +kernel)
  · exact fun h ↦ absurd h (by decide)

def longName : Bytes := List.replicate 128 97

theorem valid_longName : checkMountIsValid longName = true :=
  List.all_eq_true.mpr fun b hb ↦ by rw [List.eq_of_mem_replicate hb]; rfl

theorem length_longName : longName.length = channelSize := List.length_replicate

/-- The name is accepted, and one byte too long for the buffer. -/
theorem not_base_dispatch : Accepted longName ∧
    ¬ Dispatched (fun ecef ↦ ecef) (fun _ ↦ 0) none false (fun _ s ↦ s) longName [211, 0]
      (oneSubscriber longName) := by
  constructor
  · refine accepted_of_length valid_longName (List.cons_ne_nil _ _) ?_
    rw [length_longName]
    decide
  · intro ⟨commands, reply, s', calls, hcommands, hreply, hcb, _⟩
    rw [replies_pubBaseChannel hcommands] at hreply
    cases hreply
    have hcall := redisSubBaseCallback_mount valid_longName (fun _ s ↦ s) (ascii "message") [211, 0]
      (oneSubscriber longName)
    rw [hcb, if_pos length_longName.ge] at hcall
    cases hcall

end NavCaster.Service.Dispatch
