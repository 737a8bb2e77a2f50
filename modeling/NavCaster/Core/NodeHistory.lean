import NavCaster.Library.Blocks
import NavCaster.Library.Machine
import NavCaster.Library.Scan

namespace NavCaster.Core.NodeHistory

open NavCaster.Library
open NavCaster.Library.Strto (Bytes)
open NavCaster.Library.Scan (ascii)

/-- A number of a JSON text, as it is converted to `double`, to `int` and to `long long`. -/
structure Number where
  toDouble : Float
  toInt : Int
  toLongLong : Int

abbrev NodeJson := List (String × Number)

def NodeJson.value {α : Type} (node : NodeJson) (get : Number → α) (key : String) (default : α) :
    α :=
  ((node.lookup key).map get).getD default

structure Snapshot where
  t : Int := 0
  cpu : Float := 0
  mem : Float := 0
  mpt : Int := 0
  usr : Int := 0
  pull : Int := 0
  push : Int := 0
  conn : Int := 0
  sendSpeed : Float := 0
  recvSpeed : Float := 0
  sendTotal : Int := 0
  recvTotal : Int := 0
  qDelay : Float := 0

def snapshot (now : Int) (node : NodeJson) : Snapshot where
  t := now
  cpu := node.value Number.toDouble "cpu_usage" 0
  mem := node.value Number.toDouble "mem_usage" 0
  mpt := node.value Number.toInt "server_count" 0
  usr := node.value Number.toInt "client_count" 0
  pull := node.value Number.toInt "pull_count" 0
  push := node.value Number.toInt "push_count" 0
  conn := node.value Number.toInt "connect_count" 0
  sendSpeed := node.value Number.toDouble "send_speed" 0
  recvSpeed := node.value Number.toDouble "recv_speed" 0
  sendTotal := node.value Number.toLongLong "send_total" 0
  recvTotal := node.value Number.toLongLong "recv_total" 0
  qDelay := node.value Number.toDouble "queue_delay" 0

def addInt (a b : Int) : Int := (a + b).bmod (2 ^ 32)

def addLongLong (a b : Int) : Int := (a + b).bmod (2 ^ 64)

def accumulate (sum s : Snapshot) : Snapshot where
  t := addLongLong sum.t s.t
  cpu := sum.cpu + s.cpu
  mem := sum.mem + s.mem
  mpt := addInt sum.mpt s.mpt
  usr := addInt sum.usr s.usr
  pull := addInt sum.pull s.pull
  push := addInt sum.push s.push
  conn := addInt sum.conn s.conn
  sendSpeed := sum.sendSpeed + s.sendSpeed
  recvSpeed := sum.recvSpeed + s.recvSpeed
  sendTotal := s.sendTotal
  recvTotal := s.recvTotal
  qDelay := sum.qDelay + s.qDelay

/-- One record from those of a buffer, which is how both levels do it; `none` where the divisor is
0. -/
def aggregate (buffer : List Snapshot) : Option Snapshot :=
  let n : Int := buffer.length
  let sum := buffer.foldl accumulate {}
  if n = 0 then none
  else some {
    t := sum.t.tdiv n
    cpu := sum.cpu / Float.ofInt n
    mem := sum.mem / Float.ofInt n
    mpt := sum.mpt.tdiv n
    usr := sum.usr.tdiv n
    pull := sum.pull.tdiv n
    push := sum.push.tdiv n
    conn := sum.conn.tdiv n
    sendSpeed := sum.sendSpeed / Float.ofInt n
    recvSpeed := sum.recvSpeed / Float.ofInt n
    sendTotal := sum.sendTotal
    recvTotal := sum.recvTotal
    qDelay := sum.qDelay / Float.ofInt n }

inductive Level
  | raw | oneMin | fiveMin
  deriving DecidableEq

namespace Level

def suffix : Level → Bytes
  | raw => []
  | oneMin => ascii ":1M"
  | fiveMin => ascii ":5M"

def max : Level → Nat
  | raw => 120960
  | oneMin => 43200
  | fiveMin => 8640

def key (nodeID : Bytes) (level : Level) : Bytes := ascii "NODE:HISTORY:" ++ nodeID ++ level.suffix

end Level

inductive Command
  | lpush (key : Bytes) (value : Snapshot)
  | ltrim (key : Bytes) (start stop : Nat)

def store (nodeID : Bytes) (level : Level) (value : Snapshot) : List Command :=
  [.lpush (level.key nodeID) value, .ltrim (level.key nodeID) 0 (level.max - 1)]

structure History where
  nodeHistoryCounter : Nat := 0
  oneMinAggCounter : Nat := 0
  fiveMinAggCounter : Nat := 0
  oneMinAggBuffer : List Snapshot := []
  fiveMinAggBuffer : List Snapshot := []

section

variable (nodeID : Bytes)

def recordNodeHistory (h : History) (now : Int) (node : NodeJson) :
    Option (History × List Command) := do
  let s := snapshot now node
  let raw := store nodeID .raw s
  let buffer := h.oneMinAggBuffer ++ [s]
  let counter := h.oneMinAggCounter + 1
  if counter < 12 then
    return ({ h with oneMinAggBuffer := buffer, oneMinAggCounter := counter }, raw)
  let agg ← aggregate buffer
  let oneMin := store nodeID .oneMin agg
  let h := { h with oneMinAggCounter := 0, oneMinAggBuffer := [] }
  let buffer5 := h.fiveMinAggBuffer ++ [agg]
  let counter5 := h.fiveMinAggCounter + 1
  if counter5 < 5 then
    return ({ h with fiveMinAggBuffer := buffer5, fiveMinAggCounter := counter5 }, raw ++ oneMin)
  let agg5 ← aggregate buffer5
  return ({ h with fiveMinAggCounter := 0, fiveMinAggBuffer := [] },
    raw ++ oneMin ++ store nodeID .fiveMin agg5)

/-- `node` is what the status of the node is printed as, and read back. -/
def uploadNodeStatus (h : History) (now : Int) (node : NodeJson) :
    Option (History × List Command) :=
  let counter := h.nodeHistoryCounter + 1
  if counter < 5 then some ({ h with nodeHistoryCounter := counter }, [])
  else recordNodeHistory nodeID { h with nodeHistoryCounter := 0 } now node

def records : Machine History (Int × NodeJson) Command where
  step h call := recordNodeHistory nodeID h call.1 call.2

def uploads : Machine History (Int × NodeJson) Command where
  step h call := uploadNodeStatus nodeID h call.1 call.2

def pushed (level : Level) (commands : List Command) : List Snapshot :=
  commands.filterMap fun
    | .lpush key value => if key = level.key nodeID then some value else none
    | .ltrim .. => none

end

/-- Each record is made of the next block of those below it, and has the totals of its last
snapshot. -/
structure RolledUp (raw oneMin fiveMin : List Snapshot) : Prop where
  oneMinBlocks : ∃ blocks rest, Cut 12 raw blocks rest ∧ blocks.map aggregate = oneMin.map some
  fiveMinBlocks : ∃ blocks rest, Cut 5 oneMin blocks rest ∧ blocks.map aggregate = fiveMin.map some
  oneMinTotals : ∀ j s, oneMin[j]? = some s → ∃ last, raw[12 * j + 11]? = some last ∧
    s.sendTotal = last.sendTotal ∧ s.recvTotal = last.recvTotal
  fiveMinTotals : ∀ k s, fiveMin[k]? = some s → ∃ last, raw[60 * k + 59]? = some last ∧
    s.sendTotal = last.sendTotal ∧ s.recvTotal = last.recvTotal

theorem aggregate_isSome {buffer : List Snapshot} (h : buffer ≠ []) :
    ∃ s, aggregate buffer = some s := by
  have hn : ¬ (buffer.length : Int) = 0 := by simpa using h
  exact ⟨_, if_neg hn⟩

theorem aggregate_totals {buffer : List Snapshot} {s : Snapshot} (hne : buffer ≠ [])
    (h : aggregate buffer = some s) :
    s.sendTotal = (buffer.getLast hne).sendTotal ∧
      s.recvTotal = (buffer.getLast hne).recvTotal := by
  rw [← List.dropLast_append_getLast hne] at h
  unfold aggregate at h
  dsimp only at h
  split_ifs at h
  · obtain rfl := Option.some.inj h
    simp [List.foldl_append, accumulate]

theorem totals_of_cut {n : ℕ} (hn : 0 < n) {xs records rest : List Snapshot}
    {blocks : List (List Snapshot)} (h : Cut n xs blocks rest)
    (hmap : blocks.map aggregate = records.map some) {j : ℕ} {s : Snapshot}
    (hs : records[j]? = some s) :
    ∃ last, xs[n * j + (n - 1)]? = some last ∧ s.sendTotal = last.sendTotal ∧
      s.recvTotal = last.recvTotal := by
  have hj : (blocks.map aggregate)[j]? = some (some s) := by simp [hmap, hs]
  obtain ⟨block, hblock, hagg⟩ : ∃ block, blocks[j]? = some block ∧ aggregate block = some s := by
    simpa using hj
  have hlen := h.full block (List.mem_of_getElem? hblock)
  have hne : block ≠ [] := List.ne_nil_of_length_pos (hlen ▸ hn)
  refine ⟨block.getLast hne, ?_, aggregate_totals hne hagg⟩
  rw [h.getElem? hblock (by omega), ← List.getLast?_eq_some_getLast hne, List.getLast?_eq_getElem?,
    hlen]

section

variable (nodeID : Bytes)

theorem key_inj {level level' : Level} :
    level.key nodeID = level'.key nodeID ↔ level = level' := by
  unfold Level.key
  rw [List.append_cancel_left_eq]
  cases level <;> cases level' <;> decide

theorem pushed_append (level : Level) (commands commands' : List Command) :
    pushed nodeID level (commands ++ commands') =
      pushed nodeID level commands ++ pushed nodeID level commands' := List.filterMap_append

theorem pushed_store (level level' : Level) (s : Snapshot) :
    pushed nodeID level (store nodeID level' s) = if level' = level then [s] else [] := by
  unfold pushed store
  by_cases h : level' = level <;> simp [key_inj, h]

/-- The buffers hold what is left over of the snapshots and of the records made of them. -/
structure Tied (xs : List Snapshot) (h : History) (commands : List Command) : Prop where
  raw : pushed nodeID .raw commands = xs
  oneMin : ∃ blocks, Collected 12 xs blocks h.oneMinAggCounter h.oneMinAggBuffer ∧
    blocks.map aggregate = (pushed nodeID .oneMin commands).map some
  fiveMin : ∃ blocks, Collected 5 (pushed nodeID .oneMin commands) blocks h.fiveMinAggCounter
      h.fiveMinAggBuffer ∧
    blocks.map aggregate = (pushed nodeID .fiveMin commands).map some

theorem tied_start : Tied nodeID [] {} [] where
  raw := rfl
  oneMin := ⟨[], ⟨.nil (by decide), rfl⟩, rfl⟩
  fiveMin := ⟨[], ⟨.nil (by decide), rfl⟩, rfl⟩

theorem recordNodeHistory_tied {xs : List Snapshot} {h : History} {commands : List Command}
    (ht : Tied nodeID xs h commands) (now : Int) (node : NodeJson) :
    ∃ h' commands', recordNodeHistory nodeID h now node = some (h', commands') ∧
      h'.nodeHistoryCounter = h.nodeHistoryCounter ∧
      Tied nodeID (xs ++ [snapshot now node]) h' (commands ++ commands') := by
  obtain ⟨hraw, ⟨blocks, hcollected, hblocks⟩, blocks5, hcollected5, hblocks5⟩ := ht
  by_cases hcounter : h.oneMinAggCounter + 1 < 12
  · -- the snapshot waits
    refine ⟨_, _, if_pos hcounter, rfl, ?_, ⟨blocks, hcollected.keep hcounter, ?_⟩, blocks5, ?_,
      ?_⟩ <;>
      simp [pushed_append, pushed_store, hraw, hblocks, hcollected5, hblocks5]
  have hne : h.oneMinAggBuffer ++ [snapshot now node] ≠ [] := by simp
  obtain ⟨agg, hagg⟩ := aggregate_isSome hne
  have hfill := hcollected.fill (x := snapshot now node) (by omega)
  by_cases hcounter5 : h.fiveMinAggCounter + 1 < 5
  · -- the record of a minute waits
    refine ⟨{ h with
        oneMinAggCounter := 0, oneMinAggBuffer := [], fiveMinAggCounter := h.fiveMinAggCounter + 1,
        fiveMinAggBuffer := h.fiveMinAggBuffer ++ [agg] },
      store nodeID .raw (snapshot now node) ++ store nodeID .oneMin agg, ?_, rfl, ?_,
      ⟨_, hfill, ?_⟩, blocks5, ?_, ?_⟩
    · simp [recordNodeHistory, hcounter, hagg, hcounter5]
    · simp [pushed_append, pushed_store, hraw]
    · simp [pushed_append, pushed_store, hblocks, hagg]
    · simpa [pushed_append, pushed_store] using hcollected5.keep hcounter5
    · simp [pushed_append, pushed_store, hblocks5]
  · have hne5 : h.fiveMinAggBuffer ++ [agg] ≠ [] := by simp
    obtain ⟨agg5, hagg5⟩ := aggregate_isSome hne5
    have hfill5 := hcollected5.fill (x := agg) (by omega)
    refine ⟨{ h with
        oneMinAggCounter := 0, oneMinAggBuffer := [], fiveMinAggCounter := 0,
        fiveMinAggBuffer := [] },
      store nodeID .raw (snapshot now node) ++ store nodeID .oneMin agg ++
        store nodeID .fiveMin agg5,
      ?_, rfl, ?_, ⟨_, hfill, ?_⟩, blocks5 ++ [h.fiveMinAggBuffer ++ [agg]], ?_, ?_⟩
    · simp [recordNodeHistory, hcounter, hagg, hcounter5, hagg5]
    · simp [pushed_append, pushed_store, hraw]
    · simp [pushed_append, pushed_store, hblocks, hagg]
    · simpa [pushed_append, pushed_store] using hfill5
    · simp [pushed_append, pushed_store, hblocks5, hagg5]

variable {nodeID}

theorem Tied.rolledUp {xs : List Snapshot} {h : History} {commands : List Command}
    (ht : Tied nodeID xs h commands) :
    RolledUp xs (pushed nodeID .oneMin commands) (pushed nodeID .fiveMin commands) := by
  obtain ⟨-, ⟨blocks, hcollected, hblocks⟩, blocks5, hcollected5, hblocks5⟩ := ht
  have htotals {j s} (hs : (pushed nodeID .oneMin commands)[j]? = some s) :=
    totals_of_cut (by decide) hcollected.cut hblocks hs
  refine ⟨⟨blocks, _, hcollected.cut, hblocks⟩, ⟨blocks5, _, hcollected5.cut, hblocks5⟩, ?_, ?_⟩
  · exact fun j s hs ↦ htotals hs
  · intro k s hs
    obtain ⟨minute, hminute, hsend, hrecv⟩ := totals_of_cut (by decide) hcollected5.cut hblocks5 hs
    obtain ⟨last, hlast, hsend', hrecv'⟩ := htotals hminute
    have hindex : 12 * (5 * k + (5 - 1)) + (12 - 1) = 60 * k + 59 := by omega
    exact ⟨last, hindex ▸ hlast, hsend.trans hsend', hrecv.trans hrecv'⟩

variable (nodeID)

theorem exec_tied (calls : List (Int × NodeJson)) :
    ∃ h commands, (records nodeID).exec {} calls = some (h, commands) ∧
      Tied nodeID (calls.map fun call ↦ snapshot call.1 call.2) h commands := by
  induction calls using List.reverseRecOn with
  | nil => exact ⟨_, _, rfl, tied_start nodeID⟩
  | append_singleton calls call ih =>
    obtain ⟨h, commands, hexec, ht⟩ := ih
    obtain ⟨h', commands', hstep, -, ht'⟩ := recordNodeHistory_tied nodeID ht call.1 call.2
    refine ⟨h', commands ++ commands', ?_, by simpa using ht'⟩
    rw [Machine.exec_append, hexec, Option.bind_some, Machine.exec_cons]
    simp [records, hstep, Machine.exec]

theorem uploads_tied (calls : List (Int × NodeJson)) :
    ∃ blocks rest h commands, Collected 5 calls blocks h.nodeHistoryCounter rest ∧
      (uploads nodeID).exec {} calls = some (h, commands) ∧
      Tied nodeID ((blocks.filterMap List.getLast?).map fun call ↦ snapshot call.1 call.2) h
        commands := by
  induction calls using List.reverseRecOn with
  | nil => exact ⟨[], [], _, _, ⟨.nil (by decide), rfl⟩, rfl, tied_start nodeID⟩
  | append_singleton calls call ih =>
    obtain ⟨blocks, rest, h, commands, hcollected, hexec, ht⟩ := ih
    by_cases hcounter : h.nodeHistoryCounter + 1 < 5
    · refine ⟨blocks, rest ++ [call], { h with nodeHistoryCounter := h.nodeHistoryCounter + 1 },
        commands, hcollected.keep hcounter, ?_, ⟨ht.raw, ht.oneMin, ht.fiveMin⟩⟩
      rw [Machine.exec_append, hexec, Option.bind_some, Machine.exec_cons]
      simp [uploads, uploadNodeStatus, hcounter, Machine.exec]
    · have ht0 : Tied nodeID _ { h with nodeHistoryCounter := 0 } commands :=
        ⟨ht.raw, ht.oneMin, ht.fiveMin⟩
      obtain ⟨h', commands', hstep, hzero, ht'⟩ := recordNodeHistory_tied nodeID ht0 call.1 call.2
      refine ⟨blocks ++ [rest ++ [call]], [], h', commands ++ commands', ?_, ?_, by simpa using ht'⟩
      · rw [hzero]
        exact hcollected.fill (by omega)
      · rw [Machine.exec_append, hexec, Option.bind_some, Machine.exec_cons]
        simp [uploads, uploadNodeStatus, hcounter, hstep, Machine.exec]

end

end NavCaster.Core.NodeHistory
