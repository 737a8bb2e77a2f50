import Mathlib.Data.List.TakeWhile
import NavCaster.Library.Strto

namespace NavCaster.Library.Lines

open NavCaster.Library.Strto

def chomp (line : Bytes) : Bytes := if line.getLast? = some 13 then line.dropLast else line

/-- `evbuffer_readln` with `EVBUFFER_EOL_CRLF`: the first line with what follows it, or nothing
where no line has ended. -/
def readln (buf : Bytes) : Option (Bytes × Bytes) :=
  match buf.dropWhile (· ≠ 10) with
  | [] => none
  | _ :: rest => some (chomp (buf.takeWhile (· ≠ 10)), rest)

def crlf : Bytes := [13, 10]

structure Fragmentation (s : Bytes) where
  reads : List Bytes
  nonempty : [] ∉ reads
  flatten : reads.flatten = s

theorem chomp_append_cr (line : Bytes) : chomp (line ++ [13]) = line := by
  unfold chomp
  rw [if_pos (List.getLast?_concat ..), List.dropLast_concat]

theorem span_lf {line : Bytes} (h : 10 ∉ line) (rest : Bytes) :
    (line ++ 10 :: rest).takeWhile (· ≠ 10) = line ∧
      (line ++ 10 :: rest).dropWhile (· ≠ 10) = 10 :: rest := by
  have hall : ∀ b ∈ line, decide (b ≠ 10) = true := by
    intro b hb
    exact decide_eq_true fun heq ↦ h (heq ▸ hb)
  constructor
  · rw [List.takeWhile_append_of_pos hall]
    exact List.append_nil line
  · rw [List.dropWhile_append_of_pos hall]
    rfl

theorem readln_lf {line : Bytes} (h : 10 ∉ line) (rest : Bytes) :
    readln (line ++ 10 :: rest) = some (chomp line, rest) := by
  unfold readln
  rw [(span_lf h rest).1, (span_lf h rest).2]

theorem readln_crlf {line : Bytes} (h : 10 ∉ line) (rest : Bytes) :
    readln (line ++ crlf ++ rest) = some (line, rest) := by
  have hcr : 10 ∉ line ++ [13] := by
    rw [List.mem_append, List.mem_singleton]
    rintro (hl | hl)
    · exact h hl
    · cases hl
  have hline : line ++ crlf ++ rest = (line ++ [13]) ++ 10 :: rest := by
    rw [List.append_assoc, List.append_assoc]
    rfl
  rw [hline, readln_lf hcr, chomp_append_cr]

theorem readln_none {buf : Bytes} (h : 10 ∉ buf) : readln buf = none := by
  have hall : ∀ b ∈ buf, decide (b ≠ 10) = true := by
    intro b hb
    exact decide_eq_true fun heq ↦ h (heq ▸ hb)
  unfold readln
  rw [List.dropWhile_eq_nil_iff.mpr hall]

theorem readln_length {buf line rest : Bytes} (h : readln buf = some (line, rest)) :
    rest.length < buf.length := by
  have hle := (List.dropWhile_suffix (l := buf) (· ≠ 10)).length_le
  unfold readln at h
  split at h
  · cases h
  · next heq =>
    cases h
    rw [heq] at hle
    exact hle

end NavCaster.Library.Lines
