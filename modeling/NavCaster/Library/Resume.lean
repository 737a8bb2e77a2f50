import Mathlib.Data.List.Basic

namespace NavCaster.Library

/-- A scanner reads what stands at the front of its input, and what it decides there more input does
not change. `none` waits for more. -/
structure Scanner (B M : Type) where
  next : List B → Option (List M × Nat)
  pos : ∀ buf out n, next buf = some (out, n) → 0 < n
  le : ∀ buf out n, next buf = some (out, n) → n ≤ buf.length
  stable : ∀ buf out n more, next buf = some (out, n) → next (buf ++ more) = some (out, n)

namespace Scanner

variable {B M : Type} (S : Scanner B M)

def scan (buf : List B) : List M × List B :=
  match _h : S.next buf with
  | none => ([], buf)
  | some (out, n) =>
    let r := scan (buf.drop n)
    (out ++ r.1, r.2)
termination_by buf.length
decreasing_by
  have hpos := S.pos _ _ _ _h
  have hle := S.le _ _ _ _h
  rw [List.length_drop]
  omega

def feed (buf : List B) : List (List B) → List M × List B
  | [] => ([], buf)
  | piece :: pieces =>
    let r := S.scan (buf ++ piece)
    let r' := feed r.2 pieces
    (r.1 ++ r'.1, r'.2)

variable {S} {buf : List B} {out : List M} {n : Nat}

theorem scan_none (h : S.next buf = none) : S.scan buf = ([], buf) := by
  rw [scan]
  split
  · rfl
  · next heq => cases h.symm.trans heq

theorem scan_some (h : S.next buf = some (out, n)) :
    S.scan buf = (out ++ (S.scan (buf.drop n)).1, (S.scan (buf.drop n)).2) := by
  rw [scan]
  split
  · next heq => cases h.symm.trans heq
  · next heq =>
    cases h.symm.trans heq
    rfl

theorem next_scan (buf : List B) : S.next (S.scan buf).2 = none := by
  induction hl : buf.length using Nat.strongRecOn generalizing buf with
  | _ l ih =>
    cases h : S.next buf with
    | none =>
      rw [scan_none h]
      exact h
    | some p =>
      obtain ⟨out, n⟩ := p
      have hpos := S.pos _ _ _ h
      have hle := S.le _ _ _ h
      rw [scan_some h]
      refine ih (buf.drop n).length ?_ _ rfl
      rw [List.length_drop]
      omega

theorem scan_suffix (buf : List B) : (S.scan buf).2 <:+ buf := by
  induction hl : buf.length using Nat.strongRecOn generalizing buf with
  | _ l ih =>
    cases h : S.next buf with
    | none =>
      simp [scan_none h]
    | some p =>
      obtain ⟨out, n⟩ := p
      have hpos := S.pos _ _ _ h
      have hle := S.le _ _ _ h
      rw [scan_some h]
      exact (ih (buf.drop n).length (by rw [List.length_drop]; omega) _ rfl).trans
        (List.drop_suffix n buf)

theorem scan_append (buf more : List B) :
    S.scan (buf ++ more) = ((S.scan buf).1 ++ (S.scan ((S.scan buf).2 ++ more)).1,
      (S.scan ((S.scan buf).2 ++ more)).2) := by
  induction hl : buf.length using Nat.strongRecOn generalizing buf with
  | _ l ih =>
    cases h : S.next buf with
    | none =>
      rw [scan_none h]
      rfl
    | some p =>
      obtain ⟨out, n⟩ := p
      have hpos := S.pos _ _ _ h
      have hle := S.le _ _ _ h
      have hlen : (buf.drop n).length < l := by
        rw [List.length_drop]
        omega
      rw [scan_some h, scan_some (S.stable _ _ _ more h), List.drop_append_of_le_length hle,
        ih _ hlen _ rfl, List.append_assoc]

theorem feed_eq (hbuf : S.next buf = none) (pieces : List (List B)) :
    S.feed buf pieces = S.scan (buf ++ pieces.flatten) := by
  induction pieces generalizing buf with
  | nil =>
    rw [List.flatten_nil, List.append_nil, scan_none hbuf]
    rfl
  | cons piece pieces ih =>
    rw [feed, ih (next_scan _), List.flatten_cons, ← List.append_assoc, scan_append (buf ++ piece)]

end Scanner

end NavCaster.Library
