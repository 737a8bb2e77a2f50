import NavCaster.Library.Scan
import NavCaster.Session.Chunked

namespace NavCaster.Session.ChunkSizes

open NavCaster.Library.Strto NavCaster.Library.Lines NavCaster.Library.Scan
open NavCaster.Session.Chunked

def leading (line : Bytes) : List ℕ := (digits hexDigit line).1

def Denotes (line : Bytes) (n : ℕ) : Prop := leading line ≠ [] ∧ valueOf 16 (leading line) = n

/-- The call ends the session before anything is read, or goes on behind the size line with the
number that its digits denote; the sum with 2 is the true one. -/
structure TakesSize (onError : Ending) (d : Decoder) : Prop where
  size :
    (readChunkHead onError d = .error onError ∧
      publishDataFromChunk onError d = { d with ending := some onError }) ∨
    ∃ line rest n, readln d.recvEvbuf = some (line, rest) ∧ Denotes line n ∧ n + 2 < 2 ^ 64 ∧
      let d' := { d with recvEvbuf := rest, chunkedSize := n }
      readChunkHead onError d = .ok d' ∧
      publishDataFromChunk onError d =
        if rest.length < n + 2 then d'
        else if 2 ^ 63 ≤ n then { d' with ending := some .lengthError }
        else if (takeChunk d').recvEvbuf = [] then takeChunk d'
        else publishDataFromChunk onError (takeChunk d')
  published : (publishDataFromChunk onError d).published.flatten.length +
      (publishDataFromChunk onError d).recvEvbuf.length ≤
    d.published.flatten.length + d.recvEvbuf.length

/-- The mark that the scan passes over. -/
def Marked (line rest : Bytes) : Prop := line = 48 :: 120 :: rest ∨ line = 48 :: 88 :: rest

/-- A size line that is used for what it says. The digits are read behind a mark `0x`, where there
is one. -/
structure Plain (line : Bytes) : Prop where
  digits : leading line ≠ []
  fits : valueOf 16 (leading line) + 2 < 2 ^ 64
  mark : ∀ rest, Marked line rest → leading rest ≠ [] ∧ valueOf 16 (leading rest) = 0

variable {line rest : Bytes} {n : ℕ} {onError : Ending} {d : Decoder}

theorem hexDigit_bounds {b : UInt8} (h : hexDigit b ≠ none) : 48 ≤ b ∧ b ≤ 102 := by
  unfold hexDigit at h
  simp only [UInt8.le_iff_toNat_le, UInt8.reduceToNat] at h ⊢
  by_contra hnot
  rw [if_neg (by omega), if_neg (by omega), if_neg (by omega)] at h
  exact h rfl

theorem leading_cons {b : UInt8} (h : leading (b :: line) ≠ []) : hexDigit b ≠ none := by
  intro hnone
  exact h (by simp [leading, digits, hnone])

theorem leading_cstr (line : Bytes) : leading (cstr line) = leading line := by
  induction line with
  | nil => rfl
  | cons b line ih =>
    by_cases hb : b = 0
    · subst hb
      rfl
    · have hcons : cstr (b :: line) = b :: cstr line :=
        List.takeWhile_cons_of_pos (by simpa using hb)
      rw [hcons]
      simp only [leading, digits] at ih ⊢
      cases hexDigit b with
      | none => rfl
      | some v => exact congrArg (v :: ·) ih

theorem skipHexMark_cstr (line : Bytes) : skipHexMark (cstr line) = cstr (skipHexMark line) := by
  have hstart {front : Bytes} (h : cstr line = front) : front <+: line :=
    h ▸ List.takeWhile_prefix _
  unfold skipHexMark
  split
  · next heq =>
    obtain ⟨more, rfl⟩ := hstart heq
    simpa [cstr] using heq.symm
  · next heq =>
    obtain ⟨more, rfl⟩ := hstart heq
    simpa [cstr] using heq.symm
  · next hno hno' =>
    split
    · exact absurd rfl (hno _)
    · exact absurd rfl (hno' _)
    · rfl

def scanned (vs : List ℕ) : Option ℕ :=
  if vs = [] then none else some (if 2 ^ 64 ≤ valueOf 16 vs then 2 ^ 64 - 1 else valueOf 16 vs)

/-- With a digit in front, neither space nor sign nor NUL matters. -/
theorem scanHex_eq (h : leading line ≠ []) :
    scanHex line = scanned (leading (skipHexMark line)) := by
  obtain _ | ⟨b, line⟩ := line
  · exact absurd rfl h
  have hb := hexDigit_bounds (leading_cons h)
  simp only [UInt8.le_iff_toNat_le, UInt8.reduceToNat] at hb
  have hne (c : UInt8) (hc : c.toNat < 48) : b ≠ c := by
    rintro rfl
    omega
  have hcstr : cstr (b :: line) = b :: cstr line :=
    List.takeWhile_cons_of_pos (by simpa using hne 0 (by decide))
  have hspace : isSpace b = false := by
    simp [isSpace, hne 32 (by decide), UInt8.le_iff_toNat_le]
    omega
  have hsign : sign (b :: cstr line) = (false, b :: cstr line) := by
    unfold sign
    split
    · next heq => exact absurd (List.cons.inj heq).1 (hne 45 (by decide))
    · next heq => exact absurd (List.cons.inj heq).1 (hne 43 (by decide))
    · rfl
  have hleading : leading (skipHexMark (b :: cstr line)) = leading (skipHexMark (b :: line)) := by
    rw [← hcstr, skipHexMark_cstr, leading_cstr]
  unfold scanHex
  rw [← cstr, hcstr, List.dropWhile_cons_of_neg (by rw [hspace]; exact Bool.false_ne_true), hsign]
  dsimp only
  rw [← leading, hleading]
  cases leading (skipHexMark (b :: line)) <;> rfl

theorem marked_or (line : Bytes) :
    (skipHexMark line = line ∧ ∀ rest, ¬ Marked line rest) ∨ ∃ rest, Marked line rest ∧
      skipHexMark line = rest := by
  unfold skipHexMark
  split
  · next rest => exact .inr ⟨rest, .inl rfl, rfl⟩
  · next rest => exact .inr ⟨rest, .inr rfl, rfl⟩
  · next hno hno' => exact .inl ⟨rfl, fun rest h ↦ h.elim (hno rest) (hno' rest)⟩

theorem Marked.unique {rest' : Bytes} (h : Marked line rest) (h' : Marked line rest') :
    rest' = rest := by
  rcases h with rfl | rfl <;> rcases h' with h' | h' <;> cases h' <;> rfl

theorem Marked.valueOf_leading (h : Marked line rest) : valueOf 16 (leading line) = 0 := by
  rcases h with rfl | rfl <;> rfl

theorem Marked.length_ne (h : Marked line rest) : line.length ≠ 0 := by
  rcases h with rfl | rfl <;> exact Nat.succ_ne_zero _

theorem plain_iff (line : Bytes) :
    (Denotes line ((scanHex line).getD line.length) ∧
      (scanHex line).getD line.length + 2 < 2 ^ 64) ↔
      Plain line := by
  by_cases hdigits : leading line = []
  · exact iff_of_false (fun h ↦ h.1.1 hdigits) fun h ↦ h.digits hdigits
  rw [Denotes, and_iff_right hdigits, scanHex_eq hdigits]
  rcases marked_or line with ⟨hskip, hno⟩ | ⟨rest, hmark, hskip⟩
  · rw [hskip, scanned, if_neg hdigits, Option.getD_some]
    constructor
    · rintro ⟨heq, hfits⟩
      exact { digits := hdigits, fits := heq ▸ hfits, mark := fun rest h ↦ absurd h (hno rest) }
    · intro h
      have hfits := h.fits
      rw [if_neg (by omega)]
      exact ⟨rfl, hfits⟩
  · have hzero := hmark.valueOf_leading
    have hlen := hmark.length_ne
    rw [hskip, hzero, scanned]
    by_cases hrest : leading rest = []
    · rw [if_pos hrest, Option.getD_none]
      exact iff_of_false (fun h ↦ hlen h.1.symm) fun h ↦ (h.mark rest hmark).1 hrest
    · rw [if_neg hrest, Option.getD_some]
      constructor
      · rintro ⟨heq, -⟩
        refine { digits := hdigits, fits := by rw [hzero]; decide, mark := fun rest' hmark' ↦ ?_ }
        obtain rfl := hmark.unique hmark'
        split_ifs at heq
        exact ⟨hrest, heq.symm⟩
      · intro h
        have hvalue := (h.mark rest hmark).2
        rw [if_neg (by omega), hvalue]
        decide

/-- A line that begins with the digits of a size, and is no mark, is a size line. -/
def sizeLine (line : Bytes) (n : ℕ) (lf_not_mem : 10 ∉ line) (denotes : Denotes line n)
    (unmarked : ∀ rest, ¬ Marked line rest) (fits : n < 2 ^ 64) : SizeLine n where
  text := line
  lf_not_mem
  scan := by
    obtain ⟨hskip, _⟩ | ⟨rest, hmark, _⟩ := marked_or line
    · rw [scanHex_eq denotes.1, hskip, scanned, if_neg denotes.1, denotes.2, if_neg (by omega)]
    · exact absurd hmark (unmarked rest)

theorem takesSize_iff (hdue : d.chunkedSize = 0) :
    TakesSize onError d ↔ ∀ line rest, readln d.recvEvbuf = some (line, rest) → Plain line := by
  cases hread : readln d.recvEvbuf with
  | none =>
    have hhead : readChunkHead onError d = .error onError := by
      rw [readChunkHead, if_pos hdue, hread]
    refine iff_of_true ?_ fun line rest heq ↦ by cases heq
    exact { size := .inl ⟨hhead, publish_error hhead⟩, published := length_publish onError d }
  | some p =>
    obtain ⟨line, rest⟩ := p
    have hhead : readChunkHead onError d =
        .ok { d with recvEvbuf := rest, chunkedSize := (scanHex line).getD line.length } := by
      rw [readChunkHead, if_pos hdue, hread]
    constructor
    · rintro h line' rest' heq
      cases heq
      rcases h.size with ⟨hstop, -⟩ | ⟨line', rest', n, hline, hdenotes, hfits, hsize, -⟩
      · cases hstop.symm.trans hhead
      · rw [hread] at hline
        cases hline
        have hn := congrArg Decoder.chunkedSize (Except.ok.inj (hhead.symm.trans hsize))
        dsimp only at hn
        exact (plain_iff line).mp (hn ▸ ⟨hdenotes, hfits⟩)
    · intro h
      obtain ⟨hdenotes, hfits⟩ := (plain_iff line).mpr (h line rest rfl)
      refine
        { size := .inr ⟨line, rest, _, hread, hdenotes, hfits, hhead, ?_⟩
          published := length_publish onError d }
      rw [publish_step hhead, Nat.mod_eq_of_lt hfits]

/-- Both sessions take just the plain size lines for what they are. -/
theorem takes_size_iff (hdue : d.chunkedSize = 0) :
    (TakesSize .stop d ↔ ∀ line rest, readln d.recvEvbuf = some (line, rest) → Plain line) ∧
      (TakesSize .scheduleRetry d ↔
        ∀ line rest, readln d.recvEvbuf = some (line, rest) → Plain line) :=
  ⟨takesSize_iff hdue, takesSize_iff hdue⟩

theorem takes_size_abc : (TakesSize .stop { recvEvbuf := stream [abc] } ↔
      ∀ line rest, readln (stream [abc]) = some (line, rest) → Plain line) ∧
    (TakesSize .scheduleRetry { recvEvbuf := stream [abc] } ↔
      ∀ line rest, readln (stream [abc]) = some (line, rest) → Plain line) :=
  takes_size_iff (d := { recvEvbuf := stream [abc] }) rfl

/-- A line without a digit, of which the length is taken for the size. -/
def noSize : Decoder where
  recvEvbuf := ascii "zz" ++ crlf ++ ascii "abcd"

theorem not_takes_size : ¬ (∀ d : Decoder, d.chunkedSize = 0 → TakesSize .stop d) ∧
    ¬ ∀ d : Decoder, d.chunkedSize = 0 → TakesSize .scheduleRetry d := by
  have hline : readln noSize.recvEvbuf = some (ascii "zz", ascii "abcd") := by decide +kernel
  have hplain : ¬ Plain (ascii "zz") := fun h ↦ h.digits (by decide +kernel)
  have hnot (onError : Ending) : ¬ TakesSize onError noSize := fun h ↦
    hplain ((takesSize_iff (d := noSize) rfl).mp h _ _ hline)
  exact ⟨fun h ↦ hnot .stop (h noSize rfl), fun h ↦ hnot .scheduleRetry (h noSize rfl)⟩

end NavCaster.Session.ChunkSizes
