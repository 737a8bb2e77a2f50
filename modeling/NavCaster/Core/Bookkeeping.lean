import NavCaster.Core.Connections
import NavCaster.Library.Machine
import NavCaster.Library.Utf8

namespace NavCaster.Core.Bookkeeping

open NavCaster.Library
open NavCaster.Library.Strto (Bytes)
open NavCaster.Library.Utf8
open NavCaster.Core.Message
open NavCaster.Core.Access
open NavCaster.Core.Connections

/-- A number of a record: a total is written as an integer first, and as a double after that. -/
inductive Total
  | integer (n : ℤ)
  | double (x : Float)

/-- The record of one connection in the history, without its address, which is in the key. Only that
of a rover has a mount point. -/
structure HistoryEntry where
  name : String
  mount : Option String
  connectKey : String
  nodeID : String
  type : RegisterType
  account : String
  connectTime : Nat
  lastUpdate : Nat
  disconnectTime : Nat := 0
  sendTotal : Total := .integer 0
  recvTotal : Total := .integer 0

/-- The maps that a registration fills, and the hashes of the history: `LOG:MPT:<name>` and
`LOG:USR:<name>` with a field `<connect_time>_<connect_key>` for each record. -/
structure Books (A : Type) where
  registry : Registry A := {}
  decoderMap : Role → Table String Unit := fun _ ↦ ∅
  historyMap : Role → Table String HistoryEntry := fun _ ↦ ∅
  log : Role → String → Table (Nat × String) HistoryEntry := fun _ _ ↦ ∅

structure State (A : Type) where
  books : Books A := {}
  policy : AccessPolicy := {}
  now : Nat := 1

inductive Action (A : Type)
  | register (r : Role) (type : RegisterType) (item : CbItem A)
  | withdraw (r : Role) (row connectKey : String)
  | send (connectKey : String) (size : ℤ)
  | recv (connectKey : String) (size : ℤ)
  | sweep
  | upload
  | policy (p : AccessPolicy)
  | tick (d : Nat)

structure Config where
  nodeID : String
  opts : Options := {}

structure Result (A : Type) where
  code : Nat
  books : Books A
  calls : List (Call A) := []

variable {A : Type}

def bytes (s : String) : Bytes := s.toList.map fun c ↦ UInt8.ofNat c.toNat

def HistoryEntry.dumps (e : HistoryEntry) : Bool :=
  [e.name, e.mount.getD "", e.connectKey, e.nodeID, e.account].all fun t ↦ isUtf8 (bytes t)

def openHistory (nodeID : String) (r : Role) (type : RegisterType) (item : CbItem A) (now : Nat) :
    HistoryEntry where
  name := r.row item
  mount := match r with
    | .base => none
    | .rover => some item.channel
  connectKey := item.connectKey
  nodeID
  type
  account := item.userName
  connectTime := now
  lastUpdate := now

def HistoryEntry.count (e : HistoryEntry) : Option StreamTotals → HistoryEntry
  | none => e
  | some t => { e with sendTotal := .double t.sendTotal, recvTotal := .double t.recvTotal }

def HistoryEntry.close (now : Nat) (t : StreamTotals) (e : HistoryEntry) : HistoryEntry :=
  { e.count (some t) with disconnectTime := now, lastUpdate := now }

def HistoryEntry.renew (now : Nat) (t : Option StreamTotals) (e : HistoryEntry) : HistoryEntry :=
  { e.count t with lastUpdate := now }

namespace Books

variable (b : Books A)

def setDecoderMap (r : Role) (m : Table String Unit) : Books A :=
  { b with decoderMap := Function.update b.decoderMap r m }

def setHistoryMap (r : Role) (m : Table String HistoryEntry) : Books A :=
  { b with historyMap := Function.update b.historyMap r m }

def hset (r : Role) (name key : String) (e : HistoryEntry) : Books A :=
  let fields := Table.assign (b.log r name) (e.connectTime, key) e
  { b with log := Function.update b.log r (Function.update (b.log r) name fields) }

def Live (r : Role) (key : String) : Prop := ∃ row, (b.registry.entry r row key).isSome

end Books

/-- What is written before the record is dumped. -/
def openBooks (r : Role) (type : RegisterType) (item : CbItem A) (e : HistoryEntry) (b : Books A) :
    Books A :=
  let key := item.connectKey
  let b := { b with registry := openRecord r type item b.registry }
  let b := b.setDecoderMap r (Table.insertNew (b.decoderMap r) key ())
  b.setHistoryMap r (Table.assign (b.historyMap r) key e)

/-- `register_base_channel` and `register_rover_channel`. An exception ends them with what has been
written by then. -/
def registerBooks (nodeID : String) (r : Role) (p : AccessPolicy) (type : RegisterType)
    (item : CbItem A) (now : Nat) (b : Books A) : Result A :=
  match checkLogin r p type item.groupUid item.channel with
  | some reason => { code := 1, books := b, calls := [⟨item.arg, .err, reason⟩] }
  | none =>
    let key := item.connectKey
    let e := openHistory nodeID r type item now
    let b := openBooks r type item e b
    if e.dumps then
      let b := b.hset r (r.row item) key e
      match b.registry.entry r (r.row item) key with
      | some _ => { code := 1, books := b }
      | none =>
        let item := { item with groupUid := normalizeAccessGroupUid item.groupUid }
        { code := 0, books := { b with registry := enterRecord r item b.registry } }
    else { code := 1, books := b }

/-- The end of a withdrawal: the record is written with its time under the field it was opened
with. `none` where that is no JSON, which ends the process. -/
def closeHistory (r : Role) (row key : String) (now : Nat) (t : StreamTotals) (b : Books A) :
    Option (Books A) :=
  match (b.historyMap r).lookup key with
  | none => some b
  | some e =>
    let e := e.close now t
    if e.dumps then some ((b.hset r row key e).setHistoryMap r ((b.historyMap r).erase key))
    else none

/-- `withdraw_base_channel` and `withdraw_rover_channel`. -/
def withdrawBooks (opts : Options) (r : Role) (row key : String) (now : Nat) (b : Books A) :
    Option (Result A) :=
  let t := (b.registry.streamStatusMap.lookup key).getD {}
  let o := withdrawChannel opts r row key b.registry
  let b := { b with registry := o.registry }
  if o.code = 0 then
    (closeHistory r row key now t (b.setDecoderMap r ((b.decoderMap r).erase key))).map fun b ↦
      { code := 0, books := b }
  else some { code := o.code, books := b }

/-- One record of the history in `upload_record_item`. -/
def renewHistory (r : Role) (now : Nat) (b : Option (Books A)) (record : String × HistoryEntry) :
    Option (Books A) :=
  b.bind fun b ↦
    let e := record.2.renew now (b.registry.streamStatusMap.lookup record.1)
    let b := b.setHistoryMap r (Table.assign (b.historyMap r) record.1 e)
    if e.dumps then some (b.hset r e.name record.1 e) else none

def uploadHistory (now : Nat) (b : Books A) : Option (Books A) :=
  [Role.base, Role.rover].foldl
    (fun acc r ↦ (Table.toPairs (b.historyMap r)).foldl (renewHistory r now) acc) (some b)

def step (cfg : Config) (s : State A) : Action A → Option (State A × List (Call A))
  | .register r type item =>
    let o := registerBooks cfg.nodeID r s.policy type item s.now s.books
    some ({ s with books := o.books }, o.calls)
  | .withdraw r row key =>
    (withdrawBooks cfg.opts r row key s.now s.books).map fun o ↦
      ({ s with books := o.books }, o.calls)
  | .send key size =>
    some ({ s with books := { s.books with registry := addSend key size s.books.registry } }, [])
  | .recv key size =>
    some ({ s with books := { s.books with registry := addRecv key size s.books.registry } }, [])
  | .sweep =>
    some ({ s with books := { s.books with registry := clearOverdueItem s.books.registry } }, [])
  | .upload => (uploadHistory s.now s.books).map fun b ↦ ({ s with books := b }, [])
  | .policy p => some ({ s with policy := p }, [])
  | .tick d => some ({ s with now := s.now + d }, [])

def booksMachine (cfg : Config) : Machine (State A) (Action A) (Call A) := ⟨step cfg⟩

/-- The keys of the maps are those of the registered connections. -/
structure Balanced (b : Books A) : Prop where
  status : ∀ r key, key ∈ b.registry.statusMap r ↔ b.Live r key
  decoder : ∀ r key, key ∈ b.decoderMap r ↔ b.Live r key
  history : ∀ r key, key ∈ b.historyMap r ↔ b.Live r key
  stream : ∀ key, key ∈ b.registry.streamStatusMap ↔ b.Live .base key ∨ b.Live .rover key

/-- A registration that the access check lets through has a record that can be written as JSON, and
its key is not registered. -/
def Settled (cfg : Config) (s : State A) : Action A → Prop
  | .register r type item => checkLogin r s.policy type item.groupUid item.channel = none →
      (openHistory cfg.nodeID r type item s.now).dumps = true ∧
        ∀ r', ¬ s.books.Live r' item.connectKey
  | _ => True

section

variable {nodeID : String} {r : Role} {p : AccessPolicy} {type : RegisterType} {item : CbItem A}
  {now : Nat} {b : Books A}

/-- The maps are what the registration of the connections makes of them, if the record is
written. -/
theorem registerBooks_registry (h : (openHistory nodeID r type item now).dumps = true) :
    (registerBooks nodeID r p type item now b).books.registry =
        (registerChannel r p type item b.registry).registry ∧
      (registerBooks nodeID r p type item now b).code =
        (registerChannel r p type item b.registry).code := by
  unfold registerBooks registerChannel
  cases checkLogin r p type item.groupUid item.channel with
  | some reason => exact ⟨rfl, rfl⟩
  | none =>
    dsimp only
    rw [if_pos h]
    unfold insertRecord openBooks
    dsimp only [Books.hset, Books.setDecoderMap, Books.setHistoryMap]
    cases (openRecord r type item b.registry).entry r (r.row item) item.connectKey with
    | some old => exact ⟨rfl, rfl⟩
    | none => exact ⟨rfl, rfl⟩

theorem lookup_hset (b : Books A) (r r' : Role) (name name' key : String) (e : HistoryEntry)
    (field : Nat × String) :
    ((b.hset r name key e).log r' name').lookup field =
      if r' = r ∧ name' = name ∧ field = (e.connectTime, key) then some e
      else (b.log r' name').lookup field := by
  unfold Books.hset
  dsimp only
  by_cases hr : r' = r
  · subst hr
    rw [Function.update_self]
    by_cases hn : name' = name
    · subst hn
      rw [Function.update_self, Table.lookup_assign]
      simp only [true_and]
    · rw [Function.update_of_ne hn, if_neg fun h ↦ hn h.2.1]
  · rw [Function.update_of_ne hr, if_neg fun h ↦ hr h.1]

end

structure Registers (r : Role) (item : CbItem A) (e : HistoryEntry) (b b' : Books A) : Prop where
  entry : ∀ r' row key, (b'.registry.entry r' row key).isSome = true ↔
    r' = r ∧ row = r.row item ∧ key = item.connectKey ∨ (b.registry.entry r' row key).isSome = true
  status : ∀ r' key, key ∈ b'.registry.statusMap r' ↔
    r' = r ∧ key = item.connectKey ∨ key ∈ b.registry.statusMap r'
  stream : ∀ key, key ∈ b'.registry.streamStatusMap ↔
    key = item.connectKey ∨ key ∈ b.registry.streamStatusMap
  decoder : ∀ r' key, key ∈ b'.decoderMap r' ↔
    r' = r ∧ key = item.connectKey ∨ key ∈ b.decoderMap r'
  history : ∀ r' key, (b'.historyMap r').lookup key =
    if r' = r ∧ key = item.connectKey then some e else (b.historyMap r').lookup key
  log : ∀ r' name field, (b'.log r' name).lookup field =
    if r' = r ∧ name = r.row item ∧ field = (e.connectTime, item.connectKey) then some e
    else (b.log r' name).lookup field

structure Withdraws (r : Role) (row key : String) (now : Nat) (e : HistoryEntry) (b b' : Books A) :
    Prop where
  entry : ∀ r' row' key', (b'.registry.entry r' row' key').isSome = true ↔
    ¬ (r' = r ∧ row' = row ∧ key' = key) ∧ (b.registry.entry r' row' key').isSome = true
  status : ∀ r' key', key' ∈ b'.registry.statusMap r' ↔
    ¬ (r' = r ∧ key' = key) ∧ key' ∈ b.registry.statusMap r'
  stream : ∀ key', key' ∈ b'.registry.streamStatusMap ↔
    key' ≠ key ∧ key' ∈ b.registry.streamStatusMap
  decoder : ∀ r' key', key' ∈ b'.decoderMap r' ↔ ¬ (r' = r ∧ key' = key) ∧ key' ∈ b.decoderMap r'
  history : ∀ r' key', (b'.historyMap r').lookup key' =
    if r' = r ∧ key' = key then none else (b.historyMap r').lookup key'
  log : ∀ r' name field, (b'.log r' name).lookup field =
    if r' = r ∧ name = row ∧ field = (e.connectTime, key) then
      some (e.close now ((b.registry.streamStatusMap.lookup key).getD {}))
    else (b.log r' name).lookup field

section

variable {r r' : Role} {key key' : String}

theorem mem_update_insertNew {V : Type} (m : Role → Table String V) (v : V) :
    key' ∈ Function.update m r (Table.insertNew (m r) key v) r' ↔
      r' = r ∧ key' = key ∨ key' ∈ m r' := by
  by_cases hr : r' = r
  · subst hr
    rw [Function.update_self, Table.mem_insertNew]
    simp only [true_and]
  · rw [Function.update_of_ne hr]
    simp only [hr, false_and, false_or]

theorem mem_update_erase {V : Type} (m : Role → Table String V) :
    key' ∈ Function.update m r ((m r).erase key) r' ↔ ¬ (r' = r ∧ key' = key) ∧ key' ∈ m r' := by
  by_cases hr : r' = r
  · subst hr
    rw [Function.update_self, AList.mem_erase]
    simp only [true_and]
  · rw [Function.update_of_ne hr]
    simp only [hr, false_and, not_false_iff, true_and]

theorem lookup_update_assign {V : Type} (m : Role → Table String V) (v : V) :
    (Function.update m r (Table.assign (m r) key v) r').lookup key' =
      if r' = r ∧ key' = key then some v else (m r').lookup key' := by
  by_cases hr : r' = r
  · subst hr
    rw [Function.update_self, Table.lookup_assign]
    simp only [true_and]
  · rw [Function.update_of_ne hr, if_neg fun h ↦ hr h.1]

theorem lookup_update_erase {V : Type} (m : Role → Table String V) :
    (Function.update m r ((m r).erase key) r').lookup key' =
      if r' = r ∧ key' = key then none else (m r').lookup key' := by
  by_cases hr : r' = r
  · subst hr
    rw [Function.update_self, Table.lookup_erase_if]
    simp only [true_and]
  · rw [Function.update_of_ne hr, if_neg fun h ↦ hr h.1]

end

theorem registers_registerBooks {nodeID : String} {r : Role} {p : AccessPolicy}
    {type : RegisterType} {item : CbItem A} {now : Nat} {b : Books A}
    (hallowed : checkLogin r p type item.groupUid item.channel = none)
    (hdumps : (openHistory nodeID r type item now).dumps = true)
    (hnew : ¬ b.Live r item.connectKey) :
    Registers r item (openHistory nodeID r type item now) b
      (registerBooks nodeID r p type item now b).books := by
  have hsame := same_openRecord r type item b.registry
  have hnone : (openRecord r type item b.registry).entry r (r.row item) item.connectKey = none := by
    rw [hsame.entry]
    by_contra hne
    exact hnew ⟨_, Option.isSome_iff_ne_none.mpr hne⟩
  have hin : Registry.Entered r { item with groupUid := normalizeAccessGroupUid item.groupUid }
      (openRecord r type item b.registry) _ := entered_enterRecord hnone
  have hbooks : (registerBooks nodeID r p type item now b).books =
      { ((openBooks r type item (openHistory nodeID r type item now) b).hset r (r.row item)
          item.connectKey (openHistory nodeID r type item now)) with
        registry := enterRecord r { item with groupUid := normalizeAccessGroupUid item.groupUid }
          (openRecord r type item b.registry) } := by
    unfold registerBooks
    rw [hallowed]
    dsimp only
    rw [if_pos hdumps]
    change (match (openRecord r type item b.registry).entry r (r.row item) item.connectKey with
      | some _ => _
      | none => _ : Result A).books = _
    rw [hnone]
    rfl
  rw [hbooks]
  refine ⟨fun r' row key ↦ ?_, fun r' key ↦ mem_update_insertNew .., fun key ↦ Table.mem_insertNew,
    fun r' key ↦ mem_update_insertNew .., fun r' key ↦ lookup_update_assign ..,
    fun r' name field ↦ ?_⟩
  · change ((enterRecord r _ (openRecord r type item b.registry)).entry r' row key).isSome = true ↔
      _
    rw [hin.entry, hsame.entry]
    have hrow :
        r.row { item with groupUid := normalizeAccessGroupUid item.groupUid } = r.row item := by
      cases r <;> rfl
    rw [hrow]
    split
    · next h => exact iff_of_true rfl (.inl h)
    · next h => exact (or_iff_right h).symm
  · exact lookup_hset ..

theorem withdraws_withdrawBooks (opts : Options) (now : Nat) {r : Role} {row key : String}
    {b : Books A} {e : HistoryEntry} (hentry : (b.registry.entry r row key).isSome = true)
    (hstatus : key ∈ b.registry.statusMap r) (hhistory : (b.historyMap r).lookup key = some e)
    (hdumps : e.dumps = true) :
    ∃ b', withdrawBooks opts r row key now b = some { code := 0, books := b' } ∧
      Withdraws r row key now e b b' := by
  obtain ⟨item, hitem⟩ := Option.isSome_iff_exists.mp hentry
  obtain ⟨rowMap, hrow, -⟩ := Option.bind_eq_some_iff.mp hitem
  obtain ⟨status, hs⟩ := Table.mem_iff_lookup.mp hstatus
  let reg : Registry A :=
    { (b.registry.setRegisterMap r (Table.drop (b.registry.registerMap r) row key)) with
    kickMap := b.registry.kickMap.erase key }
  let reg' : Registry A := { reg.setStatusMap r ((reg.statusMap r).erase key) with
    streamStatusMap := b.registry.streamStatusMap.erase key }
  have ho : (withdrawChannel opts r row key b.registry).code = 0 ∧
      (withdrawChannel opts r row key b.registry).registry = reg' := by
    unfold withdrawChannel
    rw [hrow]
    dsimp only
    rw [hitem]
    dsimp only
    have hs' : (reg.statusMap r).lookup key = some status := hs
    rw [hs']
    exact ⟨rfl, rfl⟩
  let closed := e.close now ((b.registry.streamStatusMap.lookup key).getD {})
  let b₁ : Books A :=
    ({ b with registry := reg' } : Books A).setDecoderMap r ((b.decoderMap r).erase key)
  refine ⟨(b₁.hset r row key closed).setHistoryMap r ((b.historyMap r).erase key), ?_, ?_⟩
  · unfold withdrawBooks
    dsimp only
    rw [ho.1, ho.2, if_pos rfl]
    change (closeHistory r row key now _ b₁).map _ = _
    unfold closeHistory
    have hh : (b₁.historyMap r).lookup key = some e := hhistory
    rw [hh]
    dsimp only
    have hd : closed.dumps = true := hdumps
    rw [if_pos hd]
    rfl
  · refine ⟨fun r' row' key' ↦ ?_, fun r' key' ↦ mem_update_erase .., fun key' ↦ AList.mem_erase,
      fun r' key' ↦ mem_update_erase .., fun r' key' ↦ lookup_update_erase ..,
      fun r' name field ↦ ?_⟩
    · change ((b.registry.setRegisterMap r (Table.drop (b.registry.registerMap r) row key)).entry
        r' row' key').isSome = true ↔ _
      rw [Registry.entry_setRegisterMap]
      by_cases hr : r' = r
      · subst hr
        rw [if_pos rfl, Table.entry_drop]
        split
        · next h => exact iff_of_false Bool.false_ne_true fun h' ↦ h'.1 ⟨rfl, h.1, h.2⟩
        · next h => exact (and_iff_right fun h' ↦ h h'.2).symm
      · rw [if_neg hr]
        exact (and_iff_right fun h' ↦ hr h'.1).symm
    · exact lookup_hset ..

structure Recorded (b : Books A) (r : Role) (row key : String) (e : HistoryEntry) : Prop where
  history : (b.historyMap r).lookup key = some e
  dumps : e.dumps = true
  name : e.name = row
  opened : e.disconnectTime = 0
  log : ∃ e', (b.log r row).lookup (e.connectTime, key) = some e' ∧ e'.disconnectTime = 0

/-- What leaves the entry and the record of a connection alone leaves it recorded. -/
theorem Recorded.kept {b b' : Books A} {r : Role} {row key : String} {e : HistoryEntry}
    (h : Recorded b r row key e)
    (hhistory : (b'.historyMap r).lookup key = (b.historyMap r).lookup key)
    (hlog : (b'.log r row).lookup (e.connectTime, key) =
      (b.log r row).lookup (e.connectTime, key)) : Recorded b' r row key e where
  history := hhistory.trans h.history
  dumps := h.dumps
  name := h.name
  opened := h.opened
  log := hlog ▸ h.log

/-- The maps agree, each key is registered once, and the open records are those of the registered
connections. -/
structure Kept (b : Books A) : Prop where
  balanced : Balanced b
  single : ∀ r r' row row' key, (b.registry.entry r row key).isSome = true →
    (b.registry.entry r' row' key).isSome = true → r' = r ∧ row' = row
  recorded : ∀ r row key, (b.registry.entry r row key).isSome = true → ∃ e, Recorded b r row key e
  log : ∀ r name t key e, (b.log r name).lookup (t, key) = some e → e.disconnectTime = 0 →
    (b.registry.entry r name key).isSome = true ∧
      ∃ h, (b.historyMap r).lookup key = some h ∧ h.connectTime = t

theorem Registers.live {r : Role} {item : CbItem A} {e : HistoryEntry} {b b' : Books A}
    (h : Registers r item e b b') (r' : Role) (key : String) :
    b'.Live r' key ↔ r' = r ∧ key = item.connectKey ∨ b.Live r' key := by
  constructor
  · rintro ⟨row, hrow⟩
    obtain ⟨hr, -, hk⟩ | hold := (h.entry r' row key).mp hrow
    · exact .inl ⟨hr, hk⟩
    · exact .inr ⟨row, hold⟩
  · rintro (⟨rfl, rfl⟩ | ⟨row, hold⟩)
    · exact ⟨_, (h.entry ..).mpr (.inl ⟨rfl, rfl, rfl⟩)⟩
    · exact ⟨row, (h.entry ..).mpr (.inr hold)⟩

theorem kept_of_registers {r : Role} {item : CbItem A} {e : HistoryEntry} {b b' : Books A}
    (hb : Kept b) (h : Registers r item e b b') (hnew : ∀ r', ¬ b.Live r' item.connectKey)
    (hdumps : e.dumps = true) (hname : e.name = r.row item)
    (hopen : e.disconnectTime = 0) : Kept b' := by
  have hne {r' : Role} {row key : String} (hold : (b.registry.entry r' row key).isSome = true) :
      key ≠ item.connectKey := by
    rintro rfl
    exact hnew r' ⟨row, hold⟩
  refine ⟨⟨fun r' key ↦ ?_, fun r' key ↦ ?_, fun r' key ↦ ?_, fun key ↦ ?_⟩, ?_, ?_, ?_⟩
  · rw [h.status, h.live, hb.balanced.status]
  · rw [h.decoder, h.live, hb.balanced.decoder]
  · rw [h.live, ← hb.balanced.history, ← AList.lookup_isSome, ← AList.lookup_isSome, h.history]
    split
    · next hk => exact iff_of_true rfl (.inl hk)
    · next hk => exact (or_iff_right hk).symm
  · rw [h.stream, h.live, h.live, hb.balanced.stream]
    cases r <;> simp only [true_and, false_and, false_or, reduceCtorEq] <;> tauto
  · intro r₁ r₂ row₁ row₂ key h₁ h₂
    obtain ⟨rfl, rfl, hk₁⟩ | h₁ := (h.entry ..).mp h₁
    · obtain ⟨rfl, rfl, -⟩ | h₂ := (h.entry ..).mp h₂
      · exact ⟨rfl, rfl⟩
      · exact absurd hk₁ (hne h₂)
    · obtain ⟨-, -, hk₂⟩ | h₂ := (h.entry ..).mp h₂
      · exact absurd hk₂ (hne h₁)
      · exact hb.single _ _ _ _ key h₁ h₂
  · intro r' row key hrow
    obtain ⟨rfl, rfl, rfl⟩ | hold := (h.entry ..).mp hrow
    · refine ⟨e, ?_, hdumps, hname, hopen, e, ?_, hopen⟩
      · rw [h.history, if_pos ⟨rfl, rfl⟩]
      · rw [h.log, if_pos ⟨rfl, rfl, rfl⟩]
    · obtain ⟨e₀, he₀⟩ := hb.recorded r' row key hold
      refine ⟨e₀, he₀.kept ?_ ?_⟩
      · rw [h.history, if_neg fun hp ↦ hne hold hp.2]
      · rw [h.log, if_neg fun hp ↦ hne hold (Prod.mk.inj hp.2.2).2]
  · intro r' name t key e' he' hz
    rw [h.log] at he'
    split at he'
    · next hp =>
      obtain ⟨rfl, rfl, hf⟩ := hp
      obtain ⟨rfl, rfl⟩ := Prod.mk.inj hf
      refine ⟨(h.entry ..).mpr (.inl ⟨rfl, rfl, rfl⟩), e, ?_, rfl⟩
      rw [h.history, if_pos ⟨rfl, rfl⟩]
    · obtain ⟨hold, e₀, he₀, ht⟩ := hb.log r' name t key e' he' hz
      refine ⟨(h.entry ..).mpr (.inr hold), e₀, ?_, ht⟩
      rw [h.history, if_neg fun hp ↦ hne hold hp.2]
      exact he₀

theorem Withdraws.live {r : Role} {row key : String} {now : Nat} {e : HistoryEntry} {b b' : Books A}
    (h : Withdraws r row key now e b b') (hb : Kept b)
    (hrow : (b.registry.entry r row key).isSome = true) (r' : Role)
    (key' : String) : b'.Live r' key' ↔ ¬ (r' = r ∧ key' = key) ∧ b.Live r' key' := by
  constructor
  · rintro ⟨row', hrow'⟩
    obtain ⟨hne, hold⟩ := (h.entry ..).mp hrow'
    refine ⟨?_, row', hold⟩
    rintro ⟨rfl, rfl⟩
    exact hne ⟨rfl, (hb.single _ _ _ _ _ hrow hold).2, rfl⟩
  · rintro ⟨hne, row', hold⟩
    exact ⟨row', (h.entry ..).mpr ⟨fun hp ↦ hne ⟨hp.1, hp.2.2⟩, hold⟩⟩

theorem kept_of_withdraws {r : Role} {row key : String} {now : Nat} {e : HistoryEntry}
    {b b' : Books A} (hb : Kept b) (hrow : (b.registry.entry r row key).isSome = true)
    (hpos : 0 < now) (he : (b.historyMap r).lookup key = some e)
    (h : Withdraws r row key now e b b') : Kept b' := by
  have hother {r' : Role} {row' key' : String}
      (hrow' : (b'.registry.entry r' row' key').isSome = true) :
      ¬ (r' = r ∧ key' = key) ∧ (b.registry.entry r' row' key').isSome = true := by
    obtain ⟨hne, hold⟩ := (h.live hb hrow r' key').mp ⟨row', hrow'⟩
    exact ⟨hne, ((h.entry ..).mp hrow').2⟩
  refine ⟨⟨fun r' key' ↦ ?_, fun r' key' ↦ ?_, fun r' key' ↦ ?_, fun key' ↦ ?_⟩, ?_, ?_, ?_⟩
  · rw [h.status, h.live hb hrow, hb.balanced.status]
  · rw [h.decoder, h.live hb hrow, hb.balanced.decoder]
  · rw [h.live hb hrow, ← hb.balanced.history, ← AList.lookup_isSome, ← AList.lookup_isSome,
      h.history]
    split
    · next hk => exact iff_of_false Bool.false_ne_true fun hp ↦ hp.1 hk
    · next hk => exact (and_iff_right hk).symm
  · rw [h.stream, h.live hb hrow, h.live hb hrow, hb.balanced.stream]
    have honly (r' : Role) (hl : b.Live r' key) : r' = r := by
      obtain ⟨row', hrow'⟩ := hl
      exact (hb.single _ _ _ _ _ hrow hrow').1
    by_cases hk : key' = key
    · subst hk
      refine iff_of_false (fun hp ↦ hp.1 rfl) ?_
      rintro (⟨hne, hl⟩ | ⟨hne, hl⟩)
      · exact hne ⟨honly _ hl, rfl⟩
      · exact hne ⟨honly _ hl, rfl⟩
    · simp only [hk, ne_eq, not_false_iff, true_and, and_false]
  · intro r₁ r₂ row₁ row₂ key' h₁ h₂
    exact hb.single _ _ _ _ key' (hother h₁).2 (hother h₂).2
  · intro r' row' key' hrow'
    obtain ⟨hne, hold⟩ := hother hrow'
    obtain ⟨e₀, he₀⟩ := hb.recorded r' row' key' hold
    refine ⟨e₀, he₀.kept ?_ ?_⟩
    · rw [h.history, if_neg hne]
    · rw [h.log, if_neg fun hp ↦ hne ⟨hp.1, (Prod.mk.inj hp.2.2).2⟩]
  · intro r' name t key' e' he' hz
    rw [h.log] at he'
    split at he'
    · cases he'
      exact absurd hz hpos.ne'
    · next hne =>
      obtain ⟨hold, e₀, he₀, ht⟩ := hb.log r' name t key' e' he' hz
      have hkey : ¬ (r' = r ∧ key' = key) := by
        rintro ⟨rfl, rfl⟩
        cases he.symm.trans he₀
        exact hne ⟨rfl, (hb.single _ _ _ _ _ hrow hold).2, Prod.ext ht.symm rfl⟩
      refine ⟨(h.entry ..).mpr ⟨fun hp ↦ hkey ⟨hp.1, hp.2.2⟩, hold⟩, e₀, ?_, ht⟩
      rw [h.history, if_neg hkey]
      exact he₀

structure Refreshed (b b' : Books A) : Prop where
  registry : b'.registry = b.registry
  history : ∀ r key e, (b.historyMap r).lookup key = some e →
    ∃ e', (b'.historyMap r).lookup key = some e' ∧ e'.name = e.name ∧ e'.connectTime = e.connectTime

theorem Refreshed.refl (b : Books A) : Refreshed b b := ⟨rfl, fun _ _ e h ↦ ⟨e, h, rfl, rfl⟩⟩

theorem Refreshed.trans {b b' b'' : Books A} (h : Refreshed b b') (h' : Refreshed b' b'') :
    Refreshed b b'' := by
  refine ⟨h'.registry.trans h.registry, fun r key e he ↦ ?_⟩
  obtain ⟨e', he', hn, ht⟩ := h.history r key e he
  obtain ⟨e'', he'', hn', ht'⟩ := h'.history r key e' he'
  exact ⟨e'', he'', hn'.trans hn, ht'.trans ht⟩

def Renewable (r : Role) (b : Books A) (record : String × HistoryEntry) : Prop :=
  record.2.dumps = true ∧ record.2.disconnectTime = 0 ∧
    ∃ e, (b.historyMap r).lookup record.1 = some e ∧ e.name = record.2.name ∧
      e.connectTime = record.2.connectTime

theorem Renewable.refreshed {r : Role} {b b' : Books A} {record : String × HistoryEntry}
    (h : Renewable r b record) (hr : Refreshed b b') : Renewable r b' record := by
  obtain ⟨hd, hz, e, he, hn, ht⟩ := h
  obtain ⟨e', he', hn', ht'⟩ := hr.history r _ e he
  exact ⟨hd, hz, e', he', hn'.trans hn, ht'.trans ht⟩

structure Renews (r : Role) (key : String) (e : HistoryEntry) (b b' : Books A) : Prop where
  registry : b'.registry = b.registry
  decoder : b'.decoderMap = b.decoderMap
  history : ∀ r' key', (b'.historyMap r').lookup key' =
    if r' = r ∧ key' = key then some e else (b.historyMap r').lookup key'
  log : ∀ r' name field, (b'.log r' name).lookup field =
    if r' = r ∧ name = e.name ∧ field = (e.connectTime, key) then some e
    else (b.log r' name).lookup field

theorem renew_same (now : Nat) (t : Option StreamTotals) (e : HistoryEntry) :
    (e.renew now t).name = e.name ∧ (e.renew now t).connectTime = e.connectTime ∧
      (e.renew now t).disconnectTime = e.disconnectTime := by
  cases t <;> exact ⟨rfl, rfl, rfl⟩

theorem renew_dumps (now : Nat) (t : Option StreamTotals) {e : HistoryEntry} (h : e.dumps = true) :
    (e.renew now t).dumps = true := by
  cases t <;> exact h

theorem renews_renewHistory (r : Role) (now : Nat) (b : Books A) (key : String) {e : HistoryEntry}
    (hd : e.dumps = true) : ∃ b', renewHistory r now (some b) (key, e) = some b' ∧
      Renews r key (e.renew now (b.registry.streamStatusMap.lookup key)) b b' :=
  ⟨_, if_pos (renew_dumps now _ hd), rfl, rfl, fun _ _ ↦ lookup_update_assign ..,
    fun _ _ _ ↦ lookup_hset ..⟩

theorem kept_of_renews {r : Role} {row key : String} {e e' : HistoryEntry} {b b' : Books A}
    (hb : Kept b) (hrow : (b.registry.entry r row key).isSome = true) (he : Recorded b r row key e)
    (hd : e'.dumps = true) (hz : e'.disconnectTime = 0) (hn : e'.name = e.name)
    (ht : e'.connectTime = e.connectTime) (h : Renews r key e' b b') : Kept b' := by
  have hname : e'.name = row := hn.trans he.name
  have hlive (r' : Role) (key' : String) : b'.Live r' key' ↔ b.Live r' key' := by
    unfold Books.Live
    rw [h.registry]
  refine ⟨⟨fun r' key' ↦ ?_, fun r' key' ↦ ?_, fun r' key' ↦ ?_, fun key' ↦ ?_⟩, ?_, ?_, ?_⟩
  · rw [h.registry, hlive, hb.balanced.status]
  · rw [h.decoder, hlive, hb.balanced.decoder]
  · rw [hlive, ← hb.balanced.history, ← AList.lookup_isSome, ← AList.lookup_isSome, h.history]
    split
    · next hk =>
      obtain ⟨rfl, rfl⟩ := hk
      rw [he.history]
      exact iff_of_true rfl rfl
    · exact Iff.rfl
  · rw [h.registry, hlive, hlive, hb.balanced.stream]
  · intro r₁ r₂ row₁ row₂ key' h₁ h₂
    rw [h.registry] at h₁ h₂
    exact hb.single _ _ _ _ key' h₁ h₂
  · intro r' row' key' hrow'
    rw [h.registry] at hrow'
    by_cases hk : r' = r ∧ key' = key
    · obtain ⟨rfl, rfl⟩ := hk
      obtain ⟨-, rfl⟩ := hb.single _ _ _ _ _ hrow hrow'
      refine ⟨e', ?_, hd, hname, hz, e', ?_, hz⟩
      · rw [h.history, if_pos ⟨rfl, rfl⟩]
      · rw [h.log, if_pos ⟨rfl, hname.symm, rfl⟩]
    · obtain ⟨e₀, he₀⟩ := hb.recorded r' row' key' hrow'
      refine ⟨e₀, he₀.kept ?_ ?_⟩
      · rw [h.history, if_neg hk]
      · rw [h.log, if_neg fun hp ↦ hk ⟨hp.1, (Prod.mk.inj hp.2.2).2⟩]
  · intro r' name t key' e₀ he₀ hz₀
    rw [h.log] at he₀
    rw [h.registry]
    split at he₀
    · next hp =>
      obtain ⟨rfl, rfl, hf⟩ := hp
      obtain ⟨rfl, rfl⟩ := Prod.mk.inj hf
      refine ⟨hname ▸ hrow, e', ?_, rfl⟩
      rw [h.history, if_pos ⟨rfl, rfl⟩]
    · obtain ⟨hold, e₁, he₁, ht₁⟩ := hb.log r' name t key' e₀ he₀ hz₀
      refine ⟨hold, ?_⟩
      by_cases hk : r' = r ∧ key' = key
      · obtain ⟨rfl, rfl⟩ := hk
        cases he.history.symm.trans he₁
        refine ⟨e', ?_, ht.trans ht₁⟩
        rw [h.history, if_pos ⟨rfl, rfl⟩]
      · refine ⟨e₁, ?_, ht₁⟩
        rw [h.history, if_neg hk]
        exact he₁

theorem refreshed_of_renews {r : Role} {key : String} {e e' : HistoryEntry} {b b' : Books A}
    (he : (b.historyMap r).lookup key = some e) (hn : e'.name = e.name)
    (ht : e'.connectTime = e.connectTime) (h : Renews r key e' b b') : Refreshed b b' := by
  refine ⟨h.registry, fun r' key' e₀ he₀ ↦ ?_⟩
  rw [h.history]
  split
  · next hk =>
    obtain ⟨rfl, rfl⟩ := hk
    cases he.symm.trans he₀
    exact ⟨e', rfl, hn, ht⟩
  · exact ⟨e₀, he₀, rfl, rfl⟩

theorem renewHistory_spec {r : Role} (now : Nat) {b : Books A} {record : String × HistoryEntry}
    (hb : Kept b) (hrec : Renewable r b record) :
    ∃ b', renewHistory r now (some b) record = some b' ∧ Kept b' ∧ Refreshed b b' := by
  obtain ⟨key, e₀⟩ := record
  obtain ⟨hd, hz, e, he, hn, ht⟩ := hrec
  obtain ⟨row, hrow⟩ := (hb.balanced.history r key).mp (Table.mem_of_lookup he)
  obtain ⟨e', he'⟩ := hb.recorded r row key hrow
  cases he.symm.trans he'.history
  obtain ⟨b', hrenew, h⟩ := renews_renewHistory r now b key hd
  obtain ⟨hname, htime, hclosed⟩ := renew_same now (b.registry.streamStatusMap.lookup key) e₀
  have hdumps := renew_dumps now (b.registry.streamStatusMap.lookup key) hd
  have hname' := hname.trans hn.symm
  have htime' := htime.trans ht.symm
  exact ⟨b', hrenew, kept_of_renews hb hrow he' hdumps (hclosed.trans hz) hname' htime' h,
    refreshed_of_renews he hname' htime' h⟩

theorem renewAll_spec (r : Role) (now : Nat) (records : List (String × HistoryEntry)) :
    ∀ b : Books A, Kept b → (∀ record ∈ records, Renewable r b record) →
      ∃ b', records.foldl (renewHistory r now) (some b) = some b' ∧ Kept b' ∧ Refreshed b b' := by
  induction records with
  | nil => exact fun b hb _ ↦ ⟨b, rfl, hb, .refl b⟩
  | cons record records ih =>
    intro b hb hrec
    obtain ⟨b₁, h₁, hb₁, hr₁⟩ := renewHistory_spec now hb (hrec record (List.mem_cons_self ..))
    obtain ⟨b₂, h₂, hb₂, hr₂⟩ := ih b₁ hb₁ fun record' hmem ↦
      (hrec record' (List.mem_cons_of_mem record hmem)).refreshed hr₁
    refine ⟨b₂, ?_, hb₂, hr₁.trans hr₂⟩
    rw [List.foldl_cons, h₁]
    exact h₂

theorem renewable_of_kept {b : Books A} (hb : Kept b) (r : Role) :
    ∀ record ∈ Table.toPairs (b.historyMap r), Renewable r b record := by
  rintro ⟨key, e⟩ hmem
  have he := Table.mem_toPairs.mp hmem
  obtain ⟨row, hrow⟩ := (hb.balanced.history r key).mp (Table.mem_of_lookup he)
  obtain ⟨e', he'⟩ := hb.recorded r row key hrow
  cases he.symm.trans he'.history
  exact ⟨he'.dumps, he'.opened, e, he, rfl, rfl⟩

theorem uploadHistory_spec (now : Nat) {b : Books A} (hb : Kept b) :
    ∃ b', uploadHistory now b = some b' ∧ Kept b' := by
  obtain ⟨b₁, h₁, hb₁, hr₁⟩ := renewAll_spec .base now _ b hb (renewable_of_kept hb .base)
  obtain ⟨b₂, h₂, hb₂, -⟩ := renewAll_spec .rover now _ b₁ hb₁ fun record hmem ↦
    (renewable_of_kept hb .rover record hmem).refreshed hr₁
  refine ⟨b₂, ?_, hb₂⟩
  unfold uploadHistory
  rw [List.foldl_cons, List.foldl_cons, List.foldl_nil, h₁, h₂]

theorem kept_registry {b : Books A} {reg : Registry A} (hb : Kept b)
    (hentry : ∀ r row key, reg.entry r row key = b.registry.entry r row key)
    (hstatus : reg.statusMap = b.registry.statusMap)
    (hstream : ∀ key, key ∈ reg.streamStatusMap ↔ key ∈ b.registry.streamStatusMap) :
    Kept { b with registry := reg } := by
  have hlive (r : Role) (key : String) : Books.Live { b with registry := reg } r key ↔
      b.Live r key :=
    exists_congr fun row ↦ by rw [hentry]
  refine ⟨⟨fun r key ↦ ?_, fun r key ↦ ?_, fun r key ↦ ?_, fun key ↦ ?_⟩, ?_, ?_, ?_⟩
  · rw [hlive, hstatus]
    exact hb.balanced.status r key
  · rw [hlive]
    exact hb.balanced.decoder r key
  · rw [hlive]
    exact hb.balanced.history r key
  · rw [hlive, hlive, hstream]
    exact hb.balanced.stream key
  · simp only [hentry]
    exact hb.single
  · simp only [hentry]
    intro r row key hrow
    obtain ⟨e, he⟩ := hb.recorded r row key hrow
    exact ⟨e, he.kept rfl rfl⟩
  · simp only [hentry]
    exact hb.log

theorem kept_modifyStream {b : Books A} (hb : Kept b) (key : String)
    (f : StreamTotals → StreamTotals) :
    Kept { b with registry := modifyStream key f b.registry } := by
  unfold modifyStream
  cases hkey : b.registry.streamStatusMap.lookup key with
  | none => exact hb
  | some totals =>
    refine kept_registry hb (fun _ _ _ ↦ rfl) rfl fun key' ↦ ?_
    refine (AList.mem_insert _).trans (or_iff_right_of_imp ?_)
    rintro rfl
    exact Table.mem_of_lookup hkey

theorem kept_init : Kept ({} : Books A) := by
  have hlive (r : Role) (key : String) : ¬ ({} : Books A).Live r key :=
    fun ⟨row, hrow⟩ ↦ by cases hrow
  have hempty {V : Type} (key : String) : key ∉ (∅ : Table String V) := AList.notMem_empty key
  refine ⟨⟨fun r key ↦ ?_, fun r key ↦ ?_, fun r key ↦ ?_, fun key ↦ ?_⟩, ?_, ?_, ?_⟩
  · exact iff_of_false (hempty key) (hlive r key)
  · exact iff_of_false (hempty key) (hlive r key)
  · exact iff_of_false (hempty key) (hlive r key)
  · exact iff_of_false (hempty key) fun h ↦ h.elim (hlive _ key) (hlive _ key)
  · exact fun _ _ _ _ _ h ↦ by cases h
  · exact fun _ _ _ h ↦ by cases h
  · exact fun _ _ _ _ _ h ↦ by cases h

theorem withdrawBooks_of_not_registered (opts : Options) (now : Nat) {r : Role} {row key : String}
    {b : Books A} (h : b.registry.entry r row key = none) :
    ∃ code, withdrawBooks opts r row key now b = some { code, books := b } := by
  have hsame : ∃ code, code ≠ 0 ∧
      withdrawChannel opts r row key b.registry = { code, registry := b.registry } := by
    unfold withdrawChannel
    split
    · exact ⟨1, Nat.one_ne_zero, rfl⟩
    · rw [h]
      exact ⟨2, Nat.succ_ne_zero 1, rfl⟩
  obtain ⟨code, hne, ho⟩ := hsame
  refine ⟨code, ?_⟩
  unfold withdrawBooks
  rw [ho]
  exact if_neg hne

theorem withdraws_of_kept (opts : Options) (now : Nat) {r : Role} {row key : String} {b : Books A}
    (hb : Kept b) (hrow : (b.registry.entry r row key).isSome = true) :
    ∃ e b', (b.historyMap r).lookup key = some e ∧
      withdrawBooks opts r row key now b = some { code := 0, books := b' } ∧
        Withdraws r row key now e b b' := by
  obtain ⟨e, he⟩ := hb.recorded r row key hrow
  have hstatus := (hb.balanced.status r key).mpr ⟨row, hrow⟩
  obtain ⟨b', hb', hw⟩ := withdraws_withdrawBooks opts now hrow hstatus he.history he.dumps
  exact ⟨e, b', he.history, hb', hw⟩

theorem kept_step {cfg : Config} {s t : State A} {a : Action A} {calls : List (Call A)}
    (h : Kept s.books ∧ 0 < s.now) (hok : Settled cfg s a) (hst : step cfg s a = some (t, calls)) :
    Kept t.books ∧ 0 < t.now := by
  obtain ⟨hb, hpos⟩ := h
  cases a with
  | register r type item =>
    cases hst
    refine ⟨?_, hpos⟩
    cases hc : checkLogin r s.policy type item.groupUid item.channel with
    | some reason =>
      dsimp only
      unfold registerBooks
      rw [hc]
      exact hb
    | none =>
      obtain ⟨hdumps, hnew⟩ := hok hc
      exact kept_of_registers hb (registers_registerBooks hc hdumps (hnew r)) hnew hdumps rfl rfl
  | withdraw r row key =>
    obtain ⟨o, ho, ⟨⟩⟩ := Option.map_eq_some_iff.mp hst
    refine ⟨?_, hpos⟩
    cases he : s.books.registry.entry r row key with
    | none =>
      obtain ⟨code, hcode⟩ := withdrawBooks_of_not_registered cfg.opts s.now he
      cases hcode.symm.trans ho
      exact hb
    | some item =>
      have hrow : (s.books.registry.entry r row key).isSome = true := by
        rw [he]
        rfl
      obtain ⟨e, b', hh, hb', hw⟩ := withdraws_of_kept cfg.opts s.now hb hrow
      cases hb'.symm.trans ho
      exact kept_of_withdraws hb hrow hpos hh hw
  | send key size => cases hst; exact ⟨kept_modifyStream hb key _, hpos⟩
  | recv key size => cases hst; exact ⟨kept_modifyStream hb key _, hpos⟩
  | sweep =>
    cases hst
    exact ⟨kept_registry hb (same_clearOverdueItem _).entry rfl fun _ ↦ Iff.rfl, hpos⟩
  | upload =>
    obtain ⟨b', hb', ⟨⟩⟩ := Option.map_eq_some_iff.mp hst
    obtain ⟨b'', hb'', hk⟩ := uploadHistory_spec s.now hb
    cases hb''.symm.trans hb'
    exact ⟨hk, hpos⟩
  | policy p => cases hst; exact ⟨hb, hpos⟩
  | tick d => cases hst; exact ⟨hb, Nat.add_pos_left hpos d⟩

theorem kept_of_settled {cfg : Config} {s : State A}
    (h : (booksMachine cfg).Reach (Settled cfg) {} s) :
    Kept s.books ∧ 0 < s.now :=
  h.invariant ⟨kept_init, Nat.one_pos⟩ fun _ _ _ _ hi hok hst ↦ kept_step hi hok hst

/-- The maps have the keys of the registered connections in every run of registrations that have a
record and do not repeat a key. -/
theorem balanced_of_settled {cfg : Config} {s : State A}
    (h : (booksMachine cfg).Reach (Settled cfg) {} s) :
    Balanced s.books := (kept_of_settled h).1.balanced

def plain : Config := ⟨"Node_00001", {}⟩

def station : CbItem Unit := ⟨"k", "M", "u", "", ()⟩

def sitting : List (Action Unit) :=
  [.register .base .server station, .withdraw .rover "u" "k", .recv "k" 100, .tick 3, .upload,
    .sweep]

theorem balanced_sitting :
    ∃ s : State Unit, s.books.registry.streamStatusMap.keys = ["k"] ∧ Balanced s.books := by
  have hok : (booksMachine plain).Meets (Settled plain) {} sitting := by
    refine ⟨fun _ ↦ ⟨by decide, ?_⟩, trivial, trivial, trivial, trivial, trivial, trivial⟩
    rintro r' ⟨row, hrow⟩
    cases hrow
  obtain ⟨s, hs, hkeys⟩ :=
    Machine.exists_reach (M := booksMachine plain) (p := Settled plain) (s := {})
    (l := sitting) (fun s ↦ s.books.registry.streamStatusMap.keys) (v := ["k"]) hok (by rfl)
  exact ⟨s, hkeys, balanced_of_settled hs⟩

def Unrepeated (s : State A) : Action A → Prop
  | .register _ _ item => ∀ r', ¬ s.books.Live r' item.connectKey
  | _ => True

/-- A base whose user name is the byte `0xFF`. -/
theorem not_balanced_undumped :
    ¬ ∀ (cfg : Config) (s : State Unit), (booksMachine cfg).Reach Unrepeated {} s →
      Balanced s.books := by
  intro h
  have hok : (booksMachine plain).Meets Unrepeated ({} : State Unit)
      [.register .base .server ⟨"k", "M", "ÿ", "", ()⟩] := by
    refine ⟨?_, trivial⟩
    rintro r' ⟨row, hrow⟩
    cases hrow
  obtain ⟨s, hs, hv⟩ := Machine.exists_reach
    (fun s ↦ (s.books.registry.statusMap .base, s.books.registry.registerMap .base))
    (v := (AList.singleton "k" ⟨"M", .server, "ÿ"⟩, AList.singleton "M" ∅)) hok (by rfl)
  obtain ⟨hstatus, hregister⟩ := Prod.mk.injEq .. ▸ hv
  have hmem : "k" ∈ s.books.registry.statusMap .base := by
    rw [hstatus]
    exact List.mem_singleton.mpr rfl
  obtain ⟨row, hrow⟩ := ((h plain s hs).status .base "k").mp hmem
  rw [Registry.entry, hregister, Table.entry, Table.lookup_singleton] at hrow
  split at hrow
  · cases hrow
  · cases hrow

end NavCaster.Core.Bookkeeping
