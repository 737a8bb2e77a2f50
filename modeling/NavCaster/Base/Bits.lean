import NavCaster.Library.Strto

namespace NavCaster.Base.Bits

open NavCaster.Library.Strto (Bytes)

/-- The bits from `pos` on, the highest first. `none` where a byte is read that the message has
not. -/
def utilGetbitu64 (buff : Bytes) (pos len : Nat) : Option Nat :=
  (List.range' pos len).foldlM
    (fun bits i ↦ do
      let b ← buff[i / 8]?
      return (bits * 2 + b.toNat / 2 ^ (7 - i % 8) % 2) % 2 ^ 64)
    0

def extendSign (bits len : Nat) : Int :=
  if len = 0 ∨ 64 ≤ len ∨ bits / 2 ^ (len - 1) % 2 = 0 then
    if bits < 2 ^ 63 then bits else (bits : Int) - 2 ^ 64
  else (bits : Int) - 2 ^ len

def utilGetbits64 (buff : Bytes) (pos len : Nat) : Option Int :=
  (utilGetbitu64 buff pos len).map fun bits ↦ extendSign bits len

abbrev Reader (α : Type) := StateT Nat Option α

def utilGetbitu64Auto (data : Bytes) (len : Nat) : Reader Nat := fun pos ↦
  (utilGetbitu64 data pos len).map fun bits ↦ (bits, pos + len)

def utilGetbits64Auto (data : Bytes) (len : Nat) : Reader Int := fun pos ↦
  (utilGetbits64 data pos len).map fun bits ↦ (bits, pos + len)

def Spans {α : Type} (data : Bytes) (n : Nat) (m : Reader α) : Prop :=
  ∀ pos, ((m pos).isSome ↔ n = 0 ∨ pos + n ≤ 8 * data.length) ∧ ∀ p, m pos = some p → p.2 = pos + n

variable {α β : Type} {data : Bytes}

theorem isSome_foldlM (pos len bits : Nat) :
    ((List.range' pos len).foldlM
      (fun bits i ↦ do
        let b ← data[i / 8]?
        return (bits * 2 + b.toNat / 2 ^ (7 - i % 8) % 2) % 2 ^ 64)
      bits).isSome ↔ len = 0 ∨ pos + len ≤ 8 * data.length := by
  induction len generalizing pos bits with
  | zero => exact iff_of_true rfl (.inl rfl)
  | succ len ih =>
    rw [List.range'_succ, List.foldlM_cons]
    cases hb : data[pos / 8]? with
    | none =>
      have hlen : data.length ≤ pos / 8 := List.getElem?_eq_none_iff.mp hb
      refine iff_of_false Bool.false_ne_true ?_
      omega
    | some b =>
      have hlen : pos / 8 < data.length := (List.getElem?_eq_some_iff.mp hb).1
      refine (ih (pos + 1) _).trans ?_
      omega

theorem isSome_utilGetbitu64 (pos len : Nat) :
    (utilGetbitu64 data pos len).isSome ↔ len = 0 ∨ pos + len ≤ 8 * data.length :=
  isSome_foldlM pos len 0

theorem spans_utilGetbitu64Auto (len : Nat) : Spans data len (utilGetbitu64Auto data len) := by
  intro pos
  unfold utilGetbitu64Auto
  refine ⟨?_, fun p hp ↦ ?_⟩
  · rw [Option.isSome_map, isSome_utilGetbitu64]
  · obtain ⟨bits, -, rfl⟩ := Option.map_eq_some_iff.mp hp
    rfl

theorem spans_utilGetbits64Auto (len : Nat) : Spans data len (utilGetbits64Auto data len) := by
  intro pos
  unfold utilGetbits64Auto utilGetbits64
  refine ⟨?_, fun p hp ↦ ?_⟩
  · rw [Option.isSome_map, Option.isSome_map, isSome_utilGetbitu64]
  · obtain ⟨bits, -, rfl⟩ := Option.map_eq_some_iff.mp hp
    rfl

theorem spans_pure (a : α) : Spans data 0 (pure a) := by
  refine fun pos ↦ ⟨iff_of_true rfl (.inl rfl), fun p hp ↦ ?_⟩
  cases hp
  rfl

theorem spans_bind {n k : Nat} {m : Reader α} {f : α → Reader β} (hm : Spans data n m)
    (hf : ∀ a, Spans data k (f a)) : Spans data (n + k) (m >>= f) := by
  intro pos
  change (((m pos).bind fun p ↦ f p.1 p.2).isSome ↔ _) ∧
    ∀ p, (m pos).bind (fun p ↦ f p.1 p.2) = some p → _
  obtain ⟨hsome, hpos⟩ := hm pos
  cases h : m pos with
  | none =>
    rw [h] at hsome
    have hno : ¬ (n = 0 ∨ pos + n ≤ 8 * data.length) := fun hp ↦ Bool.false_ne_true (hsome.mpr hp)
    exact ⟨iff_of_false Bool.false_ne_true (by omega), fun p hp ↦ by cases hp⟩
  | some q =>
    rw [h] at hsome
    have hyes := hsome.mp rfl
    have hq := hpos q h
    obtain ⟨hsome', hpos'⟩ := hf q.1 q.2
    refine ⟨hsome'.trans (by omega), fun p hp ↦ ?_⟩
    rw [hpos' p hp, hq, Nat.add_assoc]

end NavCaster.Base.Bits
