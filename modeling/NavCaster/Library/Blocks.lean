import Mathlib.Data.List.Basic

namespace NavCaster.Library

variable {α : Type} {n : ℕ} {xs rest : List α} {blocks : List (List α)} {x : α}

/-- A list is cut into blocks of one length, with less than a block left over. -/
structure Cut (n : ℕ) (xs : List α) (blocks : List (List α)) (rest : List α) : Prop where
  flatten : xs = blocks.flatten ++ rest
  full : ∀ b ∈ blocks, b.length = n
  short : rest.length < n

namespace Cut

theorem nil (hn : 0 < n) : Cut n ([] : List α) [] [] := ⟨rfl, nofun, hn⟩

theorem keep (h : Cut n xs blocks rest) (hlt : rest.length + 1 < n) :
    Cut n (xs ++ [x]) blocks (rest ++ [x]) where
  flatten := by simp [h.flatten]
  full := h.full
  short := by simpa using hlt

theorem fill (h : Cut n xs blocks rest) (hle : n ≤ rest.length + 1) :
    Cut n (xs ++ [x]) (blocks ++ [rest ++ [x]]) [] where
  flatten := by simp [h.flatten]
  full := by
    intro b hb
    rcases List.mem_append.mp hb with hb | hb
    · exact h.full b hb
    · obtain rfl := List.mem_singleton.mp hb
      have := h.short
      simp only [List.length_append, List.length_singleton]
      omega
  short := by
    have := h.short
    simp only [List.length_nil]
    omega

theorem getElem? (h : Cut n xs blocks rest) {j i : ℕ} {b : List α} (hb : blocks[j]? = some b)
    (hi : i < n) : xs[n * j + i]? = b[i]? := by
  obtain ⟨rfl, hfull, -⟩ := h
  induction blocks generalizing j with
  | nil => simp at hb
  | cons c blocks ih =>
    have hc := hfull c List.mem_cons_self
    rw [List.flatten_cons, List.append_assoc]
    cases j with
    | zero =>
      obtain rfl : c = b := by simpa using hb
      rw [Nat.mul_zero, Nat.zero_add, List.getElem?_append_left (by omega)]
    | succ j =>
      have hnext := ih hb fun d hd ↦ hfull d (List.mem_cons_of_mem _ hd)
      have hindex : n * (j + 1) + i - c.length = n * j + i := by
        rw [Nat.mul_succ]
        omega
      rw [List.getElem?_append_right (by rw [Nat.mul_succ]; omega), hindex, hnext]

end Cut

structure Collected (n : ℕ) (xs : List α) (blocks : List (List α)) (counter : ℕ) (buffer : List α) :
    Prop where
  cut : Cut n xs blocks buffer
  counter_eq : counter = buffer.length

namespace Collected

variable {counter : ℕ} {buffer : List α}

theorem keep (h : Collected n xs blocks counter buffer) (hlt : counter + 1 < n) :
    Collected n (xs ++ [x]) blocks (counter + 1) (buffer ++ [x]) where
  cut := h.cut.keep (h.counter_eq ▸ hlt)
  counter_eq := by simp [h.counter_eq]

theorem fill (h : Collected n xs blocks counter buffer) (hle : n ≤ counter + 1) :
    Collected n (xs ++ [x]) (blocks ++ [buffer ++ [x]]) 0 [] where
  cut := h.cut.fill (h.counter_eq ▸ hle)
  counter_eq := rfl

end Collected

end NavCaster.Library
