import NavCaster.Library.Double
import NavCaster.Library.Window

namespace NavCaster.Core.Traffic

open NavCaster.Library
open NavCaster.Library.Double hiding round

/-- The time is the second of the clock, so that no difference of two overflows. -/
structure Sample where
  time : ℤ
  bytes : Float

def cleanOld (windowSize : ℤ) (history : List Sample) (now : ℤ) : List Sample :=
  history.dropWhile fun front ↦ windowSize < now - front.time

def calcAvgSpeed : List Sample → Float
  | first :: second :: rest =>
    let last := (second :: rest).getLast (List.cons_ne_nil _ _)
    let deltaTime := last.time - first.time
    if deltaTime ≤ 0 then 0
    else
      let deltaBytes := toInt 64 (last.bytes - first.bytes)
      ofInt deltaBytes / ofInt deltaTime
  | _ => 0

/-- What is stored of one direction. -/
structure Counter where
  total : Float := 0
  speed : Float := 0
  history : List Sample := []

/-- The body that both directions have in both classes. -/
def Counter.add (windowSize now size : ℤ) (counter : Counter) : Counter :=
  let total := counter.total + ofInt size
  let history := cleanOld windowSize (counter.history ++ [⟨now, total⟩]) now
  { total, history, speed := calcAvgSpeed history }

structure StreamStatus where
  uid : String
  onlineTime : ℤ
  updateTime : ℤ
  windowSize : ℤ := 60
  recv : Counter := {}
  send : Counter := {}

structure StreamState where
  uid : String
  onlineTime : ℤ
  updateTime : ℤ
  sendTotal : Float
  sendSpeed : Float
  recvTotal : Float
  recvSpeed : Float

namespace StreamStatus

/-- The constructor reads the clock twice. -/
def create (uid : String) (now now' : ℤ) : StreamStatus :=
  { uid, onlineTime := now, updateTime := now' }

def addRecv (stream : StreamStatus) (now size : ℤ) : StreamStatus :=
  { stream with updateTime := now, recv := stream.recv.add stream.windowSize now size }

def addSend (stream : StreamStatus) (now size : ℤ) : StreamStatus :=
  { stream with updateTime := now, send := stream.send.add stream.windowSize now size }

/-- The speeds are refreshed first; the clock is read for each direction. -/
def toString (stream : StreamStatus) (now now' : ℤ) : StreamStatus × StreamState :=
  let stream := (stream.addRecv now 0).addSend now' 0
  (stream, {
    uid := stream.uid
    onlineTime := stream.onlineTime
    updateTime := stream.updateTime
    sendTotal := stream.send.total
    sendSpeed := stream.send.speed
    recvTotal := stream.recv.total
    recvSpeed := stream.recv.speed })

end StreamStatus

structure CasterInternal where
  updateTime : ℤ := 0
  windowSize : ℤ := 5
  recv : Counter := {}
  send : Counter := {}

namespace CasterInternal

def addSumRecv (caster : CasterInternal) (now size : ℤ) : CasterInternal :=
  { caster with updateTime := now, recv := caster.recv.add caster.windowSize now size }

def addSumSend (caster : CasterInternal) (now size : ℤ) : CasterInternal :=
  { caster with updateTime := now, send := caster.send.add caster.windowSize now size }

def uploadNodeStatus (caster : CasterInternal) (now now' : ℤ) : CasterInternal :=
  (caster.addSumRecv now 0).addSumSend now' 0

end CasterInternal

/-- A call, with the seconds that it reads from the clock. -/
inductive Call
  | recv (now size : ℤ)
  | send (now size : ℤ)
  | refresh (now now' : ℤ)

def StreamStatus.call (stream : StreamStatus) : Call → StreamStatus
  | .recv now size => stream.addRecv now size
  | .send now size => stream.addSend now size
  | .refresh now now' => (stream.toString now now').1

def CasterInternal.call (caster : CasterInternal) : Call → CasterInternal
  | .recv now size => caster.addSumRecv now size
  | .send now size => caster.addSumSend now size
  | .refresh now now' => caster.uploadNodeStatus now now'

/-- What a call adds to one direction. -/
structure Addition where
  now : ℤ
  size : ℤ

def Call.recvs : Call → List Addition
  | .recv now size => [⟨now, size⟩]
  | .send _ _ => []
  | .refresh now _ => [⟨now, 0⟩]

def Call.sends : Call → List Addition
  | .recv _ _ => []
  | .send now size => [⟨now, size⟩]
  | .refresh _ now' => [⟨now', 0⟩]

def Call.times : Call → List ℤ
  | .recv now _ => [now]
  | .send now _ => [now]
  | .refresh now now' => [now, now']

def Call.size : Call → ℤ
  | .recv _ size => size
  | .send _ size => size
  | .refresh _ _ => 0

/-- The clock does not go back, and the sizes are numbers that an `int` can hold and not
negative. -/
structure Valid (calls : List Call) : Prop where
  times : (calls.flatMap Call.times).Pairwise (· ≤ ·)
  sizes : ∀ call ∈ calls, 0 ≤ call.size ∧ call.size ≤ 2147483647

def samples (total : Float) : List Addition → List Sample
  | [] => []
  | a :: l => ⟨a.now, total + ofInt a.size⟩ :: samples (total + ofInt a.size) l

def newest (l : List Addition) : ℤ := (l.getLast?.map (·.now)).getD 0

def totalSize (l : List Addition) : ℤ := (l.map (·.size)).sum

section Counter

variable {windowSize : ℤ} {total : Float} {l : List Addition}

def Counter.addAll (windowSize : ℤ) (counter : Counter) (l : List Addition) : Counter :=
  l.foldl (fun counter a ↦ counter.add windowSize a.now a.size) counter

theorem addAll_append (counter : Counter) (l l' : List Addition) :
    counter.addAll windowSize (l ++ l') = (counter.addAll windowSize l).addAll windowSize l' :=
      List.foldl_append

theorem addAll_history (counter : Counter) (l : List Addition) :
    (counter.addAll windowSize l).history =
      (samples counter.total l).foldl (Window.push Sample.time windowSize) counter.history := by
  induction l generalizing counter with
  | nil => rfl
  | cons a l ih => exact ih (counter.add windowSize a.now a.size)

theorem addAll_speed (counter : Counter) (h : counter.speed = calcAvgSpeed counter.history)
    (l : List Addition) :
    (counter.addAll windowSize l).speed = calcAvgSpeed (counter.addAll windowSize l).history := by
  induction l generalizing counter with
  | nil => exact h
  | cons a l ih => exact ih (counter.add windowSize a.now a.size) rfl

theorem samples_time (total : Float) (l : List Addition) :
    (samples total l).map (·.time) = l.map (·.now) := by
  induction l generalizing total with
  | nil => rfl
  | cons a l ih => exact congrArg (a.now :: ·) (ih _)

theorem addAll_recent (htimes : (l.map (·.now)).Pairwise (· ≤ ·)) :
    (Counter.addAll windowSize {} l).history =
      Window.recent Sample.time windowSize (newest l) (samples 0 l) := by
  rw [addAll_history]
  have htime := samples_time 0 l
  have hsorted : (samples 0 l).Pairwise fun b c ↦ b.time ≤ c.time := by
    rw [← htime, List.pairwise_map] at htimes
    exact htimes
  obtain hnil | ⟨before, last, hlast⟩ := List.eq_nil_or_concat' (samples 0 l)
  · rw [hnil]
    rfl
  · have hnewest : newest l = last.time := by
      have hmap := congrArg List.getLast? htime
      rw [hlast, List.map_append, List.getLast?_map] at hmap
      unfold newest
      rw [← hmap]
      simp
    rw [hlast] at hsorted ⊢
    rw [hnewest]
    exact Window.foldl_push hsorted

def Sized (l : List Addition) : Prop := ∀ a ∈ l, 0 ≤ a.size ∧ a.size ≤ 2147483647

theorem Sized.cons {a : Addition} (h : Sized (a :: l)) :
    (0 ≤ a.size ∧ a.size ≤ 2147483647) ∧ Sized l :=
  ⟨h a List.mem_cons_self, fun b hb ↦ h b (List.mem_cons_of_mem _ hb)⟩

theorem samples_sorted (hnormal : Normal total.toModel.unpack) (hsized : Sized l) :
    (∀ s ∈ samples total l, Normal s.bytes.toModel.unpack ∧ total ≤ s.bytes) ∧
      (samples total l).Pairwise fun b c ↦ b.bytes ≤ c.bytes := by
  induction l generalizing total with
  | nil => exact ⟨nofun, .nil⟩
  | cons a l ih =>
    obtain ⟨⟨hsize, hsize'⟩, hrest⟩ := hsized.cons
    obtain ⟨n, hn⟩ := Int.eq_ofNat_of_zero_le hsize
    have hadd : Normal (total + ofInt a.size).toModel.unpack ∧ total ≤ total + ofInt a.size := by
      rw [hn]
      exact le_add hnormal (whole_of_le (by omega))
    obtain ⟨hlater, hsorted⟩ := ih hadd.1 hrest
    refine ⟨fun s hs ↦ ?_, List.pairwise_cons.mpr ⟨fun s hs ↦ (hlater s hs).2, hsorted⟩⟩
    obtain rfl | hs := List.mem_cons.mp hs
    · exact hadd
    · exact ⟨(hlater s hs).1,
        le_trans_of_normal hnormal hadd.1 (hlater s hs).1 hadd.2 (hlater s hs).2⟩

theorem addAll_bytes (htimes : (l.map (·.now)).Pairwise (· ≤ ·)) (hsized : Sized l) :
    (Counter.addAll windowSize {} l).history.Pairwise fun b c ↦ b.bytes ≤ c.bytes := by
  have hzero : Normal (0 : Float).toModel.unpack := .zero
  rw [addAll_recent htimes]
  exact (samples_sorted hzero hsized).2.sublist List.filter_sublist

end Counter

structure Mark where
  time : ℤ
  sum : ℤ

def Mark.sample (mark : Mark) : Sample := ⟨mark.time, ofInt mark.sum⟩

def marks (sum : ℤ) : List Addition → List Mark
  | [] => []
  | a :: l => ⟨a.now, sum + a.size⟩ :: marks (sum + a.size) l

/-- The bytes between the oldest and the newest of the samples, by the time between them. -/
def averageSpeed (kept : List Mark) : Float :=
  match kept.head?, kept.getLast? with
  | some oldest, some newest =>
    if newest.time = oldest.time then 0
    else ofInt (newest.sum - oldest.sum) / ofInt (newest.time - oldest.time)
  | _, _ => 0

section Exact

variable {windowSize sum : ℤ} {l : List Addition} {kept : List Mark}

theorem totalSize_cons (a : Addition) (l : List Addition) :
    totalSize (a :: l) = a.size + totalSize l := rfl

theorem totalSize_nonneg (hsized : Sized l) : 0 ≤ totalSize l := by
  refine List.sum_nonneg fun size hsize ↦ ?_
  obtain ⟨a, ha, rfl⟩ := List.mem_map.mp hsize
  exact (hsized a ha).1

theorem ofInt_add_size {size : ℤ} (hsum : 0 ≤ sum) (hsize : 0 ≤ size)
    (hbound : sum + size ≤ 2 ^ 53) :
    ofInt sum + ofInt size = ofInt (sum + size) := by
  obtain ⟨m, rfl⟩ := Int.eq_ofNat_of_zero_le hsum
  obtain ⟨n, rfl⟩ := Int.eq_ofNat_of_zero_le hsize
  exact ofInt_add (whole_of_le (by omega)) (whole_of_le (by omega)) (whole_of_le (by omega))

theorem addAll_total (counter : Counter) (hsum : 0 ≤ sum) (hsized : Sized l)
    (hbound : sum + totalSize l ≤ 2 ^ 53) (htotal : counter.total = ofInt sum) :
    (counter.addAll windowSize l).total = ofInt (sum + totalSize l) := by
  induction l generalizing counter sum with
  | nil => rw [totalSize, List.map_nil, List.sum_nil, Int.add_zero]; exact htotal
  | cons a l ih =>
    obtain ⟨⟨hsize, -⟩, hrest⟩ := hsized.cons
    have hnonneg := totalSize_nonneg hrest
    rw [totalSize_cons, ← Int.add_assoc] at hbound ⊢
    refine ih (counter.add windowSize a.now a.size) (by omega) hrest hbound ?_
    rw [← ofInt_add_size hsum hsize (by omega), ← htotal]
    rfl

theorem samples_exact (hsum : 0 ≤ sum) (hsized : Sized l) (hbound : sum + totalSize l ≤ 2 ^ 53) :
    samples (ofInt sum) l = (marks sum l).map Mark.sample := by
  induction l generalizing sum with
  | nil => rfl
  | cons a l ih =>
    obtain ⟨⟨hsize, -⟩, hrest⟩ := hsized.cons
    have hnonneg := totalSize_nonneg hrest
    rw [totalSize_cons, ← Int.add_assoc] at hbound
    rw [samples, marks, ofInt_add_size hsum hsize (by omega), ih (by omega) hrest hbound]
    rfl

theorem marks_time (sum : ℤ) (l : List Addition) : (marks sum l).map (·.time) = l.map (·.now) := by
  induction l generalizing sum with
  | nil => rfl
  | cons a l ih => exact congrArg (a.now :: ·) (ih _)

theorem marks_sorted (hsized : Sized l) :
    (∀ m ∈ marks sum l, sum ≤ m.sum ∧ m.sum ≤ sum + totalSize l) ∧
      (marks sum l).Pairwise fun b c ↦ b.sum ≤ c.sum := by
  induction l generalizing sum with
  | nil => exact ⟨nofun, .nil⟩
  | cons a l ih =>
    obtain ⟨⟨hsize, -⟩, hrest⟩ := hsized.cons
    obtain ⟨hlater, hsorted⟩ := @ih (sum + a.size) hrest
    have hnonneg := totalSize_nonneg hrest
    refine ⟨fun m hm ↦ ?_, List.pairwise_cons.mpr ⟨fun m hm ↦ (hlater m hm).1, hsorted⟩⟩
    rw [totalSize_cons]
    obtain rfl | hm := List.mem_cons.mp hm
    · dsimp only
      omega
    · have hrange := hlater m hm
      omega

theorem toInt_sub {a b : ℤ} (hb : 0 ≤ b) (hle : b ≤ a) (ha : a ≤ 2 ^ 53) :
    toInt 64 (ofInt a - ofInt b) = a - b := by
  obtain ⟨m, rfl⟩ := Int.eq_ofNat_of_zero_le (hb.trans hle)
  obtain ⟨n, rfl⟩ := Int.eq_ofNat_of_zero_le hb
  have hwhole : Whole (m - n) := whole_of_le (by omega)
  have hsub :=
    ofInt_sub (whole_of_le (show m ≤ 2 ^ 53 by omega)) (whole_of_le (show n ≤ 2 ^ 53 by omega))
    (by omega) hwhole
  rw [hsub, toInt_ofInt hwhole (by omega)]
  omega

theorem calcAvgSpeed_cons (first : Sample) {second last : Sample} {rest : List Sample}
    (h : (second :: rest).getLast (List.cons_ne_nil _ _) = last) :
    calcAvgSpeed (first :: second :: rest) =
      if last.time - first.time ≤ 0 then 0
      else ofInt (toInt 64 (last.bytes - first.bytes)) / ofInt (last.time - first.time) := by
  subst h
  rfl

structure Kept (windowSize : ℤ) (kept : List Mark) : Prop where
  times : kept.Pairwise fun b c ↦ b.time ≤ c.time
  sums : kept.Pairwise fun b c ↦ b.sum ≤ c.sum
  range : ∀ m ∈ kept, 0 ≤ m.sum ∧ m.sum ≤ 2 ^ 53
  recent : ∀ m ∈ kept, ∀ n ∈ kept, n.time - m.time ≤ windowSize

theorem calcAvgSpeed_kept (h : Kept windowSize kept) :
    calcAvgSpeed (kept.map Mark.sample) = averageSpeed kept := by
  match kept with
  | [] => rfl
  | [m] =>
    change 0 = if m.time = m.time then _ else _
    rw [if_pos rfl]
  | first :: second :: rest =>
    obtain ⟨last, hlast⟩ : ∃ last, (second :: rest).getLast (List.cons_ne_nil _ _) = last :=
      ⟨_, rfl⟩
    have hmem : last ∈ second :: rest := hlast ▸ List.getLast_mem _
    have htime := (List.pairwise_cons.mp h.times).1 last hmem
    have hsum := (List.pairwise_cons.mp h.sums).1 last hmem
    have hfirst := h.range first List.mem_cons_self
    have hrange := h.range last (List.mem_cons_of_mem _ hmem)
    have hsample :
        ((second :: rest).map Mark.sample).getLast (List.cons_ne_nil _ _) = last.sample := by
      rw [List.getLast_map, hlast]
    have hnewest : (first :: second :: rest).getLast? = some last := by
      rw [List.getLast?_cons_cons, List.getLast?_eq_some_getLast (List.cons_ne_nil _ _), hlast]
    have hspeed := calcAvgSpeed_cons first.sample hsample
    unfold averageSpeed
    rw [hnewest]
    refine hspeed.trans ?_
    by_cases heq : last.time = first.time
    · exact (if_pos (Int.sub_nonpos_of_le heq.le)).trans (if_pos heq).symm
    · have hbytes := toInt_sub hfirst.1 hsum hrange.2
      have hpos : ¬last.time - first.time ≤ 0 := by omega
      refine (if_neg hpos).trans (Eq.trans ?_ (if_neg heq).symm)
      exact congrArg (ofInt · / ofInt (last.time - first.time)) hbytes

theorem averageSpeed_nonneg (h : Kept windowSize kept) (hsize : windowSize ≤ 2 ^ 53) :
    0 ≤ averageSpeed kept := by
  have hzero : (0 : Float) ≤ 0 := le_iff.mpr rfl
  unfold averageSpeed
  split
  · next oldest newest holdest hnewest =>
    obtain ⟨rest, rfl⟩ : ∃ rest, kept = oldest :: rest := List.head?_eq_some_iff.mp holdest
    have hmem := List.mem_of_getLast? hnewest
    split
    · exact hzero
    · next hne =>
      have hlater : newest ∈ rest := (List.mem_cons.mp hmem).resolve_left fun h ↦ hne (h ▸ rfl)
      have htime := (List.pairwise_cons.mp h.times).1 newest hlater
      have hsum := (List.pairwise_cons.mp h.sums).1 newest hlater
      have hrecent := h.recent oldest List.mem_cons_self newest hmem
      have hfirst := h.range oldest List.mem_cons_self
      have hlast := h.range newest hmem
      obtain ⟨m, hm⟩ := Int.eq_ofNat_of_zero_le (show 0 ≤ newest.sum - oldest.sum by omega)
      obtain ⟨n, hn⟩ := Int.eq_ofNat_of_zero_le (show 0 ≤ newest.time - oldest.time by omega)
      rw [hm, hn]
      exact div_nonneg (whole_of_le (by omega)) (whole_of_le (by omega)) (by omega)
  · exact hzero

theorem le_newest (htimes : (l.map (·.now)).Pairwise (· ≤ ·)) :
    ∀ t ∈ l.map (·.now), t ≤ newest l := by
  obtain rfl | ⟨before, last, rfl⟩ := List.eq_nil_or_concat' l
  · exact nofun
  · have hnewest : newest (before ++ [last]) = last.now := by
      unfold newest
      rw [List.getLast?_concat]
      rfl
    rw [hnewest]
    rw [List.map_append, List.pairwise_append] at htimes
    intro t ht
    rw [List.map_append, List.mem_append] at ht
    obtain ht | ht := ht
    · exact htimes.2.2 t ht last.now (List.mem_singleton_self _)
    · exact (List.mem_singleton.mp ht).le

theorem kept_marks (htimes : (l.map (·.now)).Pairwise (· ≤ ·)) (hsized : Sized l)
    (hbound : totalSize l ≤ 2 ^ 53) :
    Kept windowSize (Window.recent Mark.time windowSize (newest l) (marks 0 l)) where
  times := by
    rw [← marks_time 0, List.pairwise_map] at htimes
    exact htimes.sublist List.filter_sublist
  sums := (marks_sorted hsized).2.sublist List.filter_sublist
  range m hm := by
    have hrange := (marks_sorted hsized).1 m (List.mem_of_mem_filter hm)
    omega
  recent m hm n hn := by
    have hlate : newest l - m.time ≤ windowSize := of_decide_eq_true (List.mem_filter.mp hm).2
    have hle : n.time ≤ newest l := by
      refine le_newest htimes n.time ?_
      rw [← marks_time 0]
      exact List.mem_map_of_mem (List.mem_of_mem_filter hn)
    omega

theorem history_exact (htimes : (l.map (·.now)).Pairwise (· ≤ ·)) (hsized : Sized l)
    (hbound : totalSize l ≤ 2 ^ 53) : (Counter.addAll windowSize {} l).history =
      (Window.recent Mark.time windowSize (newest l) (marks 0 l)).map Mark.sample := by
  have hsamples : samples 0 l = (marks 0 l).map Mark.sample :=
    samples_exact le_rfl hsized (by omega)
  rw [addAll_recent htimes, hsamples]
  unfold Window.recent
  rw [List.filter_map]
  rfl

end Exact

/-- What a counter holds and reports after its additions. A double holds every whole number up to
2 ^ 53 exactly. -/
structure Reports (windowSize : ℤ) (l : List Addition) (counter : Counter) : Prop where
  times : counter.history.Pairwise fun b c ↦ b.time ≤ c.time
  bytes : counter.history.Pairwise fun b c ↦ b.bytes ≤ c.bytes
  window : counter.history = Window.recent Sample.time windowSize (newest l) (samples 0 l)
  total : totalSize l ≤ 2 ^ 53 → value counter.total = some (totalSize l : ℚ)
  speed : totalSize l ≤ 2 ^ 53 →
    counter.speed = averageSpeed (Window.recent Mark.time windowSize (newest l) (marks 0 l))
  nonneg : totalSize l ≤ 2 ^ 53 → 0 ≤ counter.speed

theorem reports_addAll {windowSize : ℤ} {l : List Addition} (hsize : windowSize ≤ 2 ^ 53)
    (htimes : (l.map (·.now)).Pairwise (· ≤ ·)) (hsized : Sized l) :
    Reports windowSize l (Counter.addAll windowSize {} l) := by
  have hspeed (hbound : totalSize l ≤ 2 ^ 53) : (Counter.addAll windowSize {} l).speed =
      averageSpeed (Window.recent Mark.time windowSize (newest l) (marks 0 l)) := by
    rw [addAll_speed {} rfl, history_exact htimes hsized hbound]
    exact calcAvgSpeed_kept (kept_marks htimes hsized hbound)
  refine ⟨?_, addAll_bytes htimes hsized, addAll_recent htimes, fun hbound ↦ ?_, hspeed,
    fun hbound ↦ ?_⟩
  · rw [addAll_recent htimes]
    rw [← samples_time 0, List.pairwise_map] at htimes
    exact htimes.sublist List.filter_sublist
  · obtain ⟨n, hn⟩ := Int.eq_ofNat_of_zero_le (totalSize_nonneg hsized)
    have htotal : (Counter.addAll windowSize {} l).total = ofInt (0 + totalSize l) :=
      addAll_total {} le_rfl hsized (by omega) rfl
    rw [htotal, Int.zero_add, hn, value_ofInt (whole_of_le (by omega))]
    rfl
  · rw [hspeed hbound]
    exact averageSpeed_nonneg (kept_marks htimes hsized hbound) hsize

section Calls

variable {calls : List Call}

theorem counters_run (stream : StreamStatus) (calls : List Call) :
    (calls.foldl StreamStatus.call stream).recv =
        stream.recv.addAll stream.windowSize (calls.flatMap Call.recvs) ∧
      (calls.foldl StreamStatus.call stream).send =
        stream.send.addAll stream.windowSize (calls.flatMap Call.sends) := by
  induction calls generalizing stream with
  | nil => exact ⟨rfl, rfl⟩
  | cons call calls ih =>
    rw [List.foldl_cons, List.flatMap_cons, List.flatMap_cons, addAll_append, addAll_append]
    cases call <;> exact ih _

structure Agrees (stream : StreamStatus) (caster : CasterInternal) : Prop where
  windowSize : stream.windowSize = caster.windowSize
  recv : stream.recv = caster.recv
  send : stream.send = caster.send

variable {stream : StreamStatus} {caster : CasterInternal}

theorem Agrees.recv_add (h : Agrees stream caster) (now size : ℤ) :
    Agrees (stream.addRecv now size) (caster.addSumRecv now size) where
  windowSize := h.windowSize
  recv := congrArg₂ (Counter.add · now size ·) h.windowSize h.recv
  send := h.send

theorem Agrees.send_add (h : Agrees stream caster) (now size : ℤ) :
    Agrees (stream.addSend now size) (caster.addSumSend now size) where
  windowSize := h.windowSize
  recv := h.recv
  send := congrArg₂ (Counter.add · now size ·) h.windowSize h.send

theorem Agrees.call (h : Agrees stream caster) (call : Call) :
    Agrees (stream.call call) (caster.call call) := by
  cases call with
  | recv now size => exact h.recv_add now size
  | send now size => exact h.send_add now size
  | refresh now now' => exact (h.recv_add now 0).send_add now' 0

theorem Agrees.run (h : Agrees stream caster) (calls : List Call) :
    Agrees (calls.foldl StreamStatus.call stream) (calls.foldl CasterInternal.call caster) := by
  induction calls generalizing stream caster with
  | nil => exact h
  | cons call calls ih => exact ih (h.call call)

theorem times_sublist (calls : List Call) :
    ((calls.flatMap Call.recvs).map (·.now)).Sublist (calls.flatMap Call.times) ∧
      ((calls.flatMap Call.sends).map (·.now)).Sublist (calls.flatMap Call.times) := by
  induction calls with
  | nil => exact ⟨.slnil, .slnil⟩
  | cons call calls ih =>
    rw [List.flatMap_cons, List.flatMap_cons, List.flatMap_cons, List.map_append, List.map_append]
    refine ⟨List.Sublist.append ?_ ih.1, List.Sublist.append ?_ ih.2⟩ <;>
      cases call <;> simp [Call.recvs, Call.sends, Call.times]

theorem sized_calls (h : Valid calls) :
    Sized (calls.flatMap Call.recvs) ∧ Sized (calls.flatMap Call.sends) := by
  constructor
  · intro a ha
    obtain ⟨call, hcall, ha⟩ := List.mem_flatMap.mp ha
    have hsize := h.sizes call hcall
    cases call with
    | recv now size => exact List.mem_singleton.mp ha ▸ hsize
    | send now size => exact absurd ha List.not_mem_nil
    | refresh now now' => exact List.mem_singleton.mp ha ▸ hsize
  · intro a ha
    obtain ⟨call, hcall, ha⟩ := List.mem_flatMap.mp ha
    have hsize := h.sizes call hcall
    cases call with
    | recv now size => exact absurd ha List.not_mem_nil
    | send now size => exact List.mem_singleton.mp ha ▸ hsize
    | refresh now now' => exact List.mem_singleton.mp ha ▸ hsize

theorem reports_run (h : Valid calls) (hrecv : stream.recv = {}) (hsend : stream.send = {})
    (hsize : stream.windowSize ≤ 2 ^ 53) :
    Reports stream.windowSize (calls.flatMap Call.recvs)
      (calls.foldl StreamStatus.call stream).recv ∧
      Reports stream.windowSize (calls.flatMap Call.sends)
        (calls.foldl StreamStatus.call stream).send := by
  obtain ⟨hrecvs, hsends⟩ := times_sublist calls
  obtain ⟨hrecvsized, hsendsized⟩ := sized_calls h
  rw [(counters_run stream calls).1, (counters_run stream calls).2, hrecv, hsend]
  exact ⟨reports_addAll hsize (h.times.sublist hrecvs) hrecvsized,
    reports_addAll hsize (h.times.sublist hsends) hsendsized⟩

theorem node_reported (h : Valid calls) :
    Reports 5 (calls.flatMap Call.recvs) (calls.foldl CasterInternal.call {}).recv ∧
      Reports 5 (calls.flatMap Call.sends) (calls.foldl CasterInternal.call {}).send := by
  have hfresh : Agrees { StreamStatus.create "" 0 0 with windowSize := 5 } {} := ⟨rfl, rfl, rfl⟩
  have hrun := hfresh.run calls
  have hsize :
      ({ StreamStatus.create "" 0 0 with windowSize := 5 } : StreamStatus).windowSize ≤ 2 ^ 53 := by
    decide
  rw [← hrun.recv, ← hrun.send]
  exact reports_run h rfl rfl hsize

end Calls

/-- The traffic of a connection, after any calls; that of the node has the same speeds if it has a
window of the same size. -/
theorem traffic_reported (uid : String) (now now' : ℤ) {calls : List Call} (h : Valid calls) :
    Reports 60 (calls.flatMap Call.recvs)
      (calls.foldl StreamStatus.call (.create uid now now')).recv ∧
    Reports 60 (calls.flatMap Call.sends)
      (calls.foldl StreamStatus.call (.create uid now now')).send ∧
    ∀ windowSize,
      let stream :=
        calls.foldl StreamStatus.call { StreamStatus.create uid now now' with windowSize }
      let caster := calls.foldl CasterInternal.call { windowSize }
      stream.recv.speed = caster.recv.speed ∧ stream.send.speed = caster.send.speed := by
  have hsize : (60 : ℤ) ≤ 2 ^ 53 := by decide
  have hempty : (StreamStatus.create uid now now').recv = {} := rfl
  obtain ⟨hrecv, hsend⟩ := reports_run h hempty rfl hsize
  refine ⟨hrecv, hsend, fun windowSize ↦ ?_⟩
  have hfresh : Agrees { StreamStatus.create uid now now' with windowSize } { windowSize } :=
    ⟨rfl, rfl, rfl⟩
  have hrun := hfresh.run calls
  exact ⟨congrArg Counter.speed hrun.recv, congrArg Counter.speed hrun.send⟩

/-- The first sample is too old at the end. -/
theorem traffic_reported_minute :
    let calls := [.recv 100 50, .send 120 10, .recv 130 30, .recv 165 70]
    let stream := calls.foldl StreamStatus.call (.create "" 90 90)
    value stream.recv.total = some 150 ∧ stream.recv.speed = ofInt 70 / ofInt 35 ∧
      0 ≤ stream.send.speed := by
  have hvalid : Valid [.recv 100 50, .send 120 10, .recv 130 30, .recv 165 70] :=
    ⟨by decide, by decide⟩
  obtain ⟨hrecv, hsend, -⟩ := traffic_reported "" 90 90 hvalid
  refine ⟨?_, hrecv.speed (by decide), hsend.nonneg (by decide)⟩
  rw [hrecv.total (by decide)]
  rfl

section Flood

theorem recvs_replicate (n : ℕ) (now size : ℤ) :
    (List.replicate n (Call.recv now size)).flatMap Call.recvs = List.replicate n ⟨now, size⟩ := by
  induction n with
  | zero => rfl
  | succ n ih => exact congrArg (⟨now, size⟩ :: ·) ih

theorem totalSize_append (l l' : List Addition) :
    totalSize (l ++ l') = totalSize l + totalSize l' := by
  unfold totalSize
  rw [List.map_append, List.sum_append]

theorem totalSize_replicate (n : ℕ) (now size : ℤ) :
    totalSize (List.replicate n ⟨now, size⟩) = n * size := by
  unfold totalSize
  rw [List.map_replicate, List.sum_replicate, nsmul_eq_mul]

def lot : List Addition := List.replicate 4194304 ⟨0, 2147483647⟩ ++ [⟨0, 4194304⟩]

def flood : List Call := List.replicate 4194304 (.recv 0 2147483647) ++ [.recv 0 4194304, .recv 0 1]

theorem recvs_flood : flood.flatMap Call.recvs = lot ++ [⟨0, 1⟩] := by
  unfold lot
  rw [← recvs_replicate]
  exact List.flatMap_append.trans (List.append_assoc _ _ _).symm

theorem totalSize_lot : totalSize lot = 2 ^ 53 := by
  have hlast : totalSize [⟨0, 4194304⟩] = 4194304 := rfl
  unfold lot
  rw [totalSize_append, totalSize_replicate, hlast]
  norm_num

theorem valid_flood : Valid flood where
  times := by
    have hzero : ∀ t ∈ flood.flatMap Call.times, t = 0 := by
      intro t ht
      obtain ⟨call, hcall, ht⟩ := List.mem_flatMap.mp ht
      obtain hcall | hcall := List.mem_append.mp hcall
      · obtain rfl := List.eq_of_mem_replicate hcall
        exact List.mem_singleton.mp ht
      · obtain rfl | hcall := List.mem_cons.mp hcall
        · exact List.mem_singleton.mp ht
        · obtain rfl := List.mem_singleton.mp hcall
          exact List.mem_singleton.mp ht
    exact List.pairwise_of_forall_mem_list fun a ha b hb ↦ ((hzero a ha).trans (hzero b hb).symm).le
  sizes call hcall := by
    obtain hcall | hcall := List.mem_append.mp hcall
    · obtain rfl := List.eq_of_mem_replicate hcall
      decide
    · obtain rfl | hcall := List.mem_cons.mp hcall
      · decide
      · obtain rfl := List.mem_singleton.mp hcall
        decide

theorem total_lot : (Counter.addAll 60 {} lot).total = ofInt (2 ^ 53 : ℕ) := by
  have hall := (sized_calls valid_flood).1
  rw [recvs_flood] at hall
  have hsized : Sized lot := fun a ha ↦ hall a (List.mem_append_left _ ha)
  have htotal : (Counter.addAll 60 {} lot).total = ofInt (0 + totalSize lot) :=
    addAll_total {} le_rfl hsized (by rw [totalSize_lot]; decide) rfl
  rw [htotal, totalSize_lot]
  rfl

end Flood

/-- The last byte is lost in the total. -/
theorem not_traffic_reported : ¬∀ calls, Valid calls →
    value (calls.foldl StreamStatus.call (.create "" 0 0)).recv.total =
      some (totalSize (calls.flatMap Call.recvs) : ℚ) := by
  intro h
  have hflood := h flood valid_flood
  have hlast : ((Counter.addAll 60 {} lot).addAll 60 [⟨0, 1⟩]).total = ofInt (2 ^ 53 : ℕ) :=
    calc
      ((Counter.addAll 60 {} lot).addAll 60 [⟨0, 1⟩]).total
          = (Counter.addAll 60 {} lot).total + ofInt 1 := rfl
      _ = ofInt (2 ^ 53 : ℕ) + ofInt 1 := by rw [total_lot]
      _ = ofInt (2 ^ 53 : ℕ) := by decide +kernel
  have hone : totalSize [⟨0, 1⟩] = 1 := rfl
  rw [(counters_run _ _).1, recvs_flood, addAll_append, totalSize_append, totalSize_lot,
    hone] at hflood
  have hvalue : value (ofInt (2 ^ 53 : ℕ)) = some ((2 ^ 53 + 1 : ℤ) : ℚ) := hlast ▸ hflood
  rw [value_ofInt (whole_of_le le_rfl)] at hvalue
  exact absurd (Option.some.inj hvalue) (by norm_num)

end NavCaster.Core.Traffic
