import Mathlib

namespace NavCaster.Library.Walk

open Relation

variable {α : Type} {f : α → Option α} {a b : α}

/-- The walk that goes from each point to the one that `f` names comes to an end. -/
inductive Ends (f : α → Option α) : α → Prop
  | stop {a : α} : f a = none → Ends f a
  | next {a b : α} : f a = some b → Ends f b → Ends f a

def Next (f : α → Option α) (a b : α) : Prop := f a = some b

def Acyclic (f : α → Option α) (a : α) : Prop :=
  ∀ b, ReflTransGen (Next f) a b → ¬ TransGen (Next f) b b

theorem reach_of_next (h : f a = some b) {c : α} (hc : ReflTransGen (Next f) a c) :
    c = a ∨ ReflTransGen (Next f) b c := by
  obtain rfl | ⟨d, hd, hdc⟩ := ReflTransGen.cases_head hc
  · exact .inl rfl
  · cases h.symm.trans hd
    exact .inr hdc

theorem reach_of_trans (h : f a = some b) {c : α} (hc : TransGen (Next f) a c) :
    ReflTransGen (Next f) b c := by
  obtain ⟨d, hd, hdc⟩ := TransGen.head'_iff.mp hc
  cases h.symm.trans hd
  exact hdc

theorem Ends.acyclic (h : Ends f a) : Acyclic f a := by
  induction h with
  | @stop a h =>
    intro b hb hcyc
    obtain ⟨c, hc, -⟩ := TransGen.head'_iff.mp hcyc
    obtain rfl | ⟨d, hd, -⟩ := ReflTransGen.cases_head hb
    · cases h.symm.trans hc
    · cases h.symm.trans hd
  | @next a b h _ ih =>
    intro c hc hcyc
    obtain rfl | hc := reach_of_next h hc
    · exact ih c (reach_of_trans h hcyc) hcyc
    · exact ih c hc hcyc

theorem Acyclic.next (h : Acyclic f a) (hab : f a = some b) : Acyclic f b :=
  fun c hc ↦ h c (.head hab hc)

theorem finite_reach (hf : {a | (f a).isSome}.Finite) (a : α) :
    {b | ReflTransGen (Next f) a b}.Finite := by
  refine ((hf.image fun b ↦ (f b).getD b).insert a).subset fun b hb ↦ ?_
  obtain rfl | ⟨c, -, hc⟩ := ReflTransGen.cases_tail hb
  · exact .inl rfl
  · refine .inr ⟨c, ?_, ?_⟩
    · change (f c).isSome
      rw [hc]
      rfl
    · change (f c).getD c = b
      rw [hc]
      rfl

theorem Acyclic.ends (hf : {a | (f a).isSome}.Finite) (h : Acyclic f a) : Ends f a := by
  have : Finite {b // ReflTransGen (Next f) a b} := (finite_reach hf a).to_subtype
  let r (x y : {b // ReflTransGen (Next f) a b}) : Prop := TransGen (Next f) y.1 x.1
  have htrans : IsTrans _ r := ⟨fun _ _ _ hxy hyz ↦ hyz.trans hxy⟩
  have hirrefl : Std.Irrefl r := ⟨fun x hx ↦ h x.1 x.2 hx⟩
  suffices hall : ∀ x : {b // ReflTransGen (Next f) a b}, Ends f x.1 from hall ⟨a, .refl⟩
  intro x
  induction x using (Finite.wellFounded_of_trans_of_irrefl r).induction with
  | _ x ih =>
    cases hx : f x.1 with
    | none => exact .stop hx
    | some b => exact .next hx (ih ⟨b, x.2.tail hx⟩ (.single hx))

def EndsWithin (f : α → Option α) : ℕ → α → Prop
  | 0, a => f a = none
  | n + 1, a => ∀ b, f a = some b → EndsWithin f n b

/-- A walk that ends passes through each point once. -/
theorem Ends.within [DecidableEq α] (h : Ends f a) {points : List α}
    (hp : ∀ b, ReflTransGen (Next f) a b → (f b).isSome → b ∈ points) :
    EndsWithin f points.length a := by
  induction h generalizing points with
  | @stop a h =>
    cases points with
    | nil => exact h
    | cons p ps => exact fun b hb ↦ absurd (h.symm.trans hb) (Option.some_ne_none b).symm
  | @next a b h hb ih =>
    have ha : a ∈ points := hp a .refl (by rw [h]; rfl)
    obtain ⟨n, hn⟩ : ∃ n, points.length = n + 1 :=
      ⟨points.length - 1, (Nat.succ_pred_eq_of_pos (List.length_pos_of_mem ha)).symm⟩
    rw [hn]
    intro b' hb'
    cases h.symm.trans hb'
    have hlen : (points.erase a).length = n := by
      rw [List.length_erase_of_mem ha, hn]
      rfl
    rw [← hlen]
    refine ih fun c hc hsome ↦ ?_
    have hne : c ≠ a := by
      rintro rfl
      exact (Ends.next h hb).acyclic c .refl (.head' h hc)
    exact (List.mem_erase_of_ne hne).mpr (hp c (.head h hc) hsome)

end NavCaster.Library.Walk
