import Mathlib.Data.List.Basic
import Mathlib.Data.Nat.Notation

namespace NavCaster.Library.Cipher

/-- A round of a block cipher, and what undoes each of its parts. -/
structure Round (S K : Type) where
  add : K → S → S
  sub : S → S
  shift : S → S
  mix : S → S
  unsub : S → S
  unshift : S → S
  unmix : S → S
  unmixKey : K → K
  add_add : ∀ k s, add k (add k s) = s
  unsub_sub : ∀ s, unsub (sub s) = s
  unshift_shift : ∀ s, unshift (shift s) = s
  unmix_mix : ∀ s, unmix (mix s) = s
  unsub_unshift : ∀ s, unsub (unshift s) = unshift (unsub s)
  unmix_add : ∀ k s, unmix (add k s) = add (unmixKey k) (unmix s)

namespace Round

variable {S K : Type} (R : Round S K)

def inner (s : S) (k : K) : S := R.add k (R.mix (R.shift (R.sub s)))

def final (s : S) (k : K) : S := R.add k (R.shift (R.sub s))

def encrypt (first : K) (ks : List K) (last : K) (s : S) : S :=
  R.final (ks.foldl R.inner (R.add first s)) last

def inverseInner (s : S) (k : K) : S := R.add k (R.unmix (R.unshift (R.unsub s)))

def inverseFinal (s : S) (k : K) : S := R.add k (R.unshift (R.unsub s))

/-- Decryption with the steps in the order encryption has them. -/
def decrypt (first : K) (ks : List K) (last : K) (s : S) : S :=
  R.inverseFinal (ks.foldl R.inverseInner (R.add first s)) last

theorem unshift_unsub_shift_sub (s : S) : R.unshift (R.unsub (R.shift (R.sub s))) = s := by
  rw [← R.unsub_unshift, R.unshift_shift, R.unsub_sub]

theorem inverseInner_inner (k : K) (s : S) :
    R.inverseInner (R.shift (R.sub (R.inner s k))) (R.unmixKey k) = R.shift (R.sub s) := by
  rw [inverseInner, unshift_unsub_shift_sub, inner, R.unmix_add, R.add_add, R.unmix_mix]

/-- Each round of decryption takes back the last round of encryption that is left. -/
theorem foldl_inverseInner (ks : List K) (s : S) :
    (ks.reverse.map R.unmixKey).foldl R.inverseInner (R.shift (R.sub (ks.foldl R.inner s))) =
      R.shift (R.sub s) := by
  induction ks generalizing s with
  | nil => rfl
  | cons k ks ih =>
    rw [List.reverse_cons, List.map_append, List.foldl_append, List.foldl_cons, ih,
      List.map_singleton, List.foldl_cons, inverseInner_inner, List.foldl_nil]

theorem decrypt_encrypt (first : K) (ks : List K) (last : K) (s : S) :
    R.decrypt last (ks.reverse.map R.unmixKey) first (R.encrypt first ks last s) = s := by
  have hlast : R.add last (R.encrypt first ks last s) =
      R.shift (R.sub (ks.foldl R.inner (R.add first s))) := R.add_add last _
  rw [decrypt, hlast, foldl_inverseInner, inverseFinal, unshift_unsub_shift_sub, R.add_add]

end Round

section

variable {C B B' : Type} {step : C → B → B' × C} {unstep : C → B' → B × C}

/-- Goes over the blocks of a text with what each block leaves to the next. -/
def chained (step : C → B → B' × C) : C → List B → List B' × C
  | c, [] => ([], c)
  | c, b :: bs =>
    let r := step c b
    let r' := chained step r.2 bs
    (r.1 :: r'.1, r'.2)

theorem chained_append (c : C) (bs bs' : List B) :
    chained step c (bs ++ bs') =
      ((chained step c bs).1 ++ (chained step (chained step c bs).2 bs').1,
        (chained step (chained step c bs).2 bs').2) := by
  induction bs generalizing c with
  | nil => rfl
  | cons b bs ih =>
    rw [List.cons_append, chained, chained, ih]
    rfl

theorem chained_map (f : B → B') (c : C) (bs : List B) :
    chained (fun c b ↦ (f b, c)) c bs = (bs.map f, c) := by
  induction bs with
  | nil => rfl
  | cons b bs ih => rw [chained, ih, List.map_cons]

theorem chained_length (c : C) (bs : List B) : (chained step c bs).1.length = bs.length := by
  induction bs generalizing c with
  | nil => rfl
  | cons b bs ih => exact congrArg Nat.succ (ih _)

theorem chained_chained {I : C → Prop} {J : B → Prop}
    (hstep : ∀ c b, I c → J b → unstep c (step c b).1 = (b, (step c b).2))
    (hI : ∀ c b, I c → J b → I (step c b).2) {c : C} (hc : I c) {bs : List B}
    (hbs : ∀ b ∈ bs, J b) :
    chained unstep c (chained step c bs).1 = (bs, (chained step c bs).2) := by
  induction bs generalizing c with
  | nil => rfl
  | cons b bs ih =>
    have hb := hbs b (List.mem_cons_self ..)
    have hrest := ih (hI c b hc hb) fun b' h ↦ hbs b' (.tail b h)
    have hone := hstep c b hc hb
    dsimp only [chained]
    rw [hone, hrest]

theorem chained_forall {I : C → Prop} {J : B → Prop} {P : B' → Prop}
    (hstep : ∀ c b, I c → J b → P (step c b).1) (hI : ∀ c b, I c → J b → I (step c b).2)
    {c : C} (hc : I c) {bs : List B} (hbs : ∀ b ∈ bs, J b) :
    ∀ b' ∈ (chained step c bs).1, P b' := by
  induction bs generalizing c with
  | nil =>
    intro b' h
    cases h
  | cons b bs ih =>
    have hb := hbs b (List.mem_cons_self ..)
    intro b' h
    cases List.mem_cons.mp h with
    | inl h => exact h ▸ hstep c b hc hb
    | inr h => exact ih (hI c b hc hb) (fun b'' h ↦ hbs b'' (.tail b h)) b' h

end

/-! ### A text in blocks of equal length -/

section

variable {A : Type} {n : ℕ}

def blocks (n count : ℕ) (s : List A) : List (List A) :=
  (List.range count).map fun i ↦ (s.drop (n * i)).take n

theorem blocks_length (count : ℕ) (s : List A) : (blocks n count s).length = count := by
  rw [blocks, List.length_map, List.length_range]

theorem blocks_succ (count : ℕ) (s : List A) :
    blocks n (count + 1) s = s.take n :: blocks n count (s.drop n) := by
  rw [blocks, List.range_succ_eq_map, List.map_cons, List.map_map, Nat.mul_zero, List.drop_zero]
  refine congrArg _ (List.map_congr_left fun i _ ↦ ?_)
  rw [Function.comp_apply, List.drop_drop, Nat.mul_succ, Nat.add_comm]

theorem blocks_add (count count' : ℕ) (s : List A) :
    blocks n (count + count') s = blocks n count s ++ blocks n count' (s.drop (n * count)) := by
  induction count generalizing s with
  | zero => rw [Nat.zero_add, Nat.mul_zero, List.drop_zero]; rfl
  | succ count ih =>
    rw [Nat.add_right_comm, blocks_succ, ih, blocks_succ, List.drop_drop, Nat.mul_succ,
      Nat.add_comm n, List.cons_append]

theorem blocks_flatten (count : ℕ) (s : List A) :
    (blocks n count s).flatten = s.take (n * count) := by
  induction count generalizing s with
  | zero => rfl
  | succ count ih =>
    rw [blocks_succ, List.flatten_cons, ih, Nat.mul_succ, Nat.add_comm, List.take_add]

theorem length_of_mem_blocks {count : ℕ} {s b : List A} (hs : n * count ≤ s.length)
    (hb : b ∈ blocks n count s) : b.length = n := by
  obtain ⟨i, hi, rfl⟩ := List.mem_map.mp hb
  have hlt := List.mem_range.mp hi
  have hle : n * (i + 1) ≤ n * count := Nat.mul_le_mul_left _ hlt
  rw [Nat.mul_succ] at hle
  rw [List.length_take, List.length_drop]
  omega

theorem flatten_length {bs : List (List A)} (hbs : ∀ b ∈ bs, b.length = n) :
    bs.flatten.length = n * bs.length := by
  induction bs with
  | nil => rfl
  | cons b bs ih =>
    rw [List.flatten_cons, List.length_append, hbs b (List.mem_cons_self ..),
      ih fun b' h ↦ hbs b' (.tail b h), List.length_cons, Nat.mul_succ, Nat.add_comm]

theorem blocks_of_flatten {bs : List (List A)} (hbs : ∀ b ∈ bs, b.length = n) (rest : List A) :
    blocks n bs.length (bs.flatten ++ rest) = bs := by
  induction bs with
  | nil => rfl
  | cons b bs ih =>
    have hb := hbs b (List.mem_cons_self ..)
    rw [List.length_cons, blocks_succ, List.flatten_cons, List.append_assoc, List.take_left' hb,
      List.drop_left' hb, ih fun b' h ↦ hbs b' (.tail b h)]

theorem getD_flatten {bs : List (List A)} (hbs : ∀ b ∈ bs, b.length = n) {i j : ℕ}
    (hi : i < bs.length) (hj : j < n)
    (a : A) : bs.flatten.getD (n * i + j) a = (bs.getD i []).getD j a := by
  induction bs generalizing i with
  | nil => cases hi
  | cons b bs ih =>
    have hb := hbs b (List.mem_cons_self ..)
    rw [List.flatten_cons]
    cases i with
    | zero =>
      rw [Nat.mul_zero, Nat.zero_add, List.getD, List.getElem?_append_left (hb.symm ▸ hj)]
      rfl
    | succ i =>
      have hpast : b.length ≤ n * (i + 1) + j := by
        rw [hb, Nat.mul_succ]
        omega
      have hoff : n * (i + 1) + j - b.length = n * i + j := by
        rw [hb, Nat.mul_succ]
        omega
      have hrest := ih (fun b' h ↦ hbs b' (.tail b h)) (Nat.lt_of_succ_lt_succ hi)
      rw [List.getD, List.getElem?_append_right hpast, hoff]
      exact hrest

end

end NavCaster.Library.Cipher
