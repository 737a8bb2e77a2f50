import Mathlib.Data.Set.Insert
import Mathlib.Logic.Relation

namespace NavCaster.Library

/-- A lock with an owner, and the parties that act as if they held it. -/
structure Lease (Id : Type) where
  owner : Option Id
  confirmed : Set Id

namespace Lease

variable {Id : Type}

/-- A party is confirmed only while it owns the lock, and the lock is not taken away from a
confirmed party. Confirmation may be withdrawn at any time. -/
inductive Step : Lease Id → Lease Id → Prop
  | acquire (l : Lease Id) (a : Id) : l.owner = none → Step l ⟨some a, l.confirmed⟩
  | confirm (l : Lease Id) (a : Id) : l.owner = some a → Step l ⟨l.owner, insert a l.confirmed⟩
  | withdraw (l : Lease Id) (s : Set Id) : s ⊆ l.confirmed → Step l ⟨l.owner, s⟩
  | expire (l : Lease Id) : (∀ a, l.owner = some a → a ∉ l.confirmed) → Step l ⟨none, l.confirmed⟩

def Exclusive (l : Lease Id) : Prop := ∀ a ∈ l.confirmed, l.owner = some a

theorem exclusive_step {l l' : Lease Id} (h : Exclusive l) (hs : Step l l') : Exclusive l' := by
  cases hs with
  | acquire a ho =>
    intro b hb
    exact absurd (ho.symm.trans (h b hb)) nofun
  | confirm a ho =>
    intro b hb
    rcases hb with rfl | hb
    · exact ho
    · exact h b hb
  | withdraw s hsub => exact fun b hb ↦ h b (hsub hb)
  | expire hn =>
    intro b hb
    exact absurd hb (hn b (h b hb))

theorem exclusive_run {l l' : Lease Id} (h : Exclusive l)
    (hr : Relation.ReflTransGen Step l l') : Exclusive l' := by
  induction hr with
  | refl => exact h
  | tail _ hs ih => exact exclusive_step ih hs

theorem Exclusive.unique {l : Lease Id} (h : Exclusive l) {a b : Id}
    (ha : a ∈ l.confirmed) (hb : b ∈ l.confirmed) : a = b :=
  Option.some.inj ((h a ha).symm.trans (h b hb))

end Lease

end NavCaster.Library
