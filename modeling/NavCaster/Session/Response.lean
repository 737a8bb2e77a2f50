import Mathlib.Data.List.DropRight
import NavCaster.Library.Scan

namespace NavCaster.Session.Response

open NavCaster.Library.Strto NavCaster.Library.Scan

structure Accepted where
  version2 : Bool
  chunked : Bool
  deriving DecidableEq

/-- The first `chunked` of the response counts, if its line names a transfer before it. -/
def saysChunked (resp : Bytes) : Bool :=
  match findText (ascii "chunked") resp with
  | none => false
  | some rest =>
    let before := resp.take (resp.length - rest.length)
    10 ∈ before ∧ (findText (ascii "ransfer-") (before.rtakeWhile (· ≠ 10))).isSome

/-- `none` refuses the response, as it does a source table and all that is not known. -/
def verifyNtripResponse (resp : Bytes) : Option Accepted :=
  if (ascii "ICY 200 OK").isPrefixOf resp then some ⟨false, false⟩
  else if (ascii "HTTP/1.").isPrefixOf resp then
    match resp.dropWhile (· ≠ 32) with
    | [] => none
    | _ :: rest =>
      if rest.length < 3 then none
      else if rest.take 3 ≠ ascii "200" then none
      else some ⟨true, saysChunked resp⟩
  else if (ascii "OK").isPrefixOf resp then some ⟨false, false⟩
  else none

theorem accepts_icy {resp : Bytes} (h : ascii "ICY 200 OK" <+: resp) :
    (verifyNtripResponse resp).isSome := by
  unfold verifyNtripResponse
  rw [if_pos (List.isPrefixOf_iff_prefix.mpr h)]
  rfl

theorem accepts_ok {resp : Bytes} (h : ascii "OK" <+: resp) :
    (verifyNtripResponse resp).isSome := by
  unfold verifyNtripResponse
  split
  · rfl
  · split
    · next hhttp =>
      obtain ⟨rest, rfl⟩ := h
      cases hhttp
    · rw [if_pos (List.isPrefixOf_iff_prefix.mpr h)]
      rfl

theorem accepts_http {resp : Bytes} (h : ascii "HTTP/1." <+: resp) :
    (verifyNtripResponse resp).isSome ↔
    ∃ front rest, 32 ∉ front ∧ resp = front ++ 32 :: 50 :: 48 :: 48 :: rest := by
  have hicy : ¬ (ascii "ICY 200 OK").isPrefixOf resp := by
    obtain ⟨rest, rfl⟩ := h
    intro hicy
    cases hicy
  unfold verifyNtripResponse
  rw [if_neg hicy, if_pos (List.isPrefixOf_iff_prefix.mpr h)]
  constructor
  · intro hsome
    split at hsome
    · cases hsome
    · next b rest hdrop =>
      have hsplit := List.takeWhile_append_dropWhile (p := (· ≠ 32)) (l := resp)
      have hspace : b = 32 := by
        have hhead := List.head?_dropWhile_not (p := (· ≠ 32)) resp
        rw [hdrop] at hhead
        exact not_not.mp (of_decide_eq_false hhead)
      rw [hdrop, hspace] at hsplit
      split at hsome
      · cases hsome
      · split at hsome
        · cases hsome
        · next hcode =>
          refine ⟨resp.takeWhile (· ≠ 32), rest.drop 3, fun hmem ↦ ?_, ?_⟩
          · exact of_decide_eq_true (List.mem_takeWhile_imp (p := fun b ↦ decide (b ≠ 32)) hmem) rfl
          · calc resp
              _ = resp.takeWhile (· ≠ 32) ++ 32 :: (rest.take 3 ++ rest.drop 3) := by
                rw [List.take_append_drop, hsplit]
              _ = resp.takeWhile (· ≠ 32) ++ 32 :: 50 :: 48 :: 48 :: rest.drop 3 := by
                rw [not_not.mp hcode]
                rfl
  · rintro ⟨front, rest, hfront, rfl⟩
    have hall : ∀ b ∈ front, decide (b ≠ 32) = true := fun b hb ↦
      decide_eq_true fun heq ↦ hfront (heq ▸ hb)
    rw [List.dropWhile_append_of_pos hall]
    rfl

theorem accepts_cases {resp : Bytes} (h : (verifyNtripResponse resp).isSome) :
    ascii "ICY 200 OK" <+: resp ∨ ascii "HTTP/1." <+: resp ∨ ascii "OK" <+: resp := by
  unfold verifyNtripResponse at h
  split at h
  · next hicy => exact .inl (List.isPrefixOf_iff_prefix.mp hicy)
  · split at h
    · next hhttp => exact .inr (.inl (List.isPrefixOf_iff_prefix.mp hhttp))
    · split at h
      · next hok => exact .inr (.inr (List.isPrefixOf_iff_prefix.mp hok))
      · cases h

theorem verify_http {resp : Bytes} {a : Accepted} (h : ascii "HTTP/1." <+: resp)
    (ha : verifyNtripResponse resp = some a) : a = ⟨true, saysChunked resp⟩ := by
  unfold verifyNtripResponse at ha
  split at ha
  · next hicy =>
    obtain ⟨rest, rfl⟩ := h
    cases hicy
  · rw [if_pos (List.isPrefixOf_iff_prefix.mpr h)] at ha
    split at ha
    · cases ha
    · split at ha
      · cases ha
      · split at ha
        · cases ha
        · exact (Option.some.inj ha).symm

theorem saysChunked_append {resp : Bytes} (h : saysChunked resp = true) (x : Bytes) :
    saysChunked (resp ++ x) = true := by
  unfold saysChunked at h ⊢
  cases hfind : findText (ascii "chunked") resp with
  | none => rw [hfind] at h; cases h
  | some rest =>
    have hlen := findText_length hfind
    have hbefore : (resp ++ x).take ((resp ++ x).length - (rest ++ x).length) =
        resp.take (resp.length - rest.length) := by
      rw [List.length_append, List.length_append, Nat.add_sub_add_right,
        List.take_append_of_le_length (Nat.sub_le ..)]
    rw [hfind] at h
    rw [findText_append hfind]
    dsimp only at h ⊢
    rw [hbefore]
    exact h

theorem chunked_append {resp x : Bytes} {a b : Accepted} (ha : verifyNtripResponse resp = some a)
    (hb : verifyNtripResponse (resp ++ x) = some b) (hc : a.chunked = true) : b.chunked = true := by
  obtain hicy | hhttp | hok := accepts_cases (Option.isSome_of_mem ha)
  · unfold verifyNtripResponse at ha
    rw [if_pos (List.isPrefixOf_iff_prefix.mpr hicy)] at ha
    cases ha
    cases hc
  · rw [verify_http hhttp ha] at hc
    rw [verify_http (hhttp.trans (List.prefix_append ..)) hb]
    exact saysChunked_append hc x
  · unfold verifyNtripResponse at ha
    obtain ⟨rest, rfl⟩ := hok
    cases ha
    cases hc

theorem prefix_of_prefix_append_ok {pattern l : Bytes} (h : pattern <+: l ++ ascii "OK") :
    pattern <+: l ∨ pattern = l ++ [79] ∨ pattern = l ++ ascii "OK" := by
  obtain ⟨rest, hrest⟩ := h
  obtain ⟨as, rfl, -⟩ | ⟨bs, rfl, hbs⟩ := List.append_eq_append_iff.mp hrest
  · exact .inl (List.prefix_append ..)
  · match bs, hbs with
    | [], _ => exact .inl (by rw [List.append_nil])
    | [b], hbs =>
      cases hbs
      exact .inr (.inl rfl)
    | [b, b'], hbs =>
      cases hbs
      exact .inr (.inr rfl)
    | _ :: _ :: _ :: _, hbs => cases hbs

theorem http_of_append_ok {l : Bytes} (hl : ascii "HTTP/1." <+: l)
    (h : (verifyNtripResponse (l ++ ascii "OK")).isSome) (y : Bytes) :
    (verifyNtripResponse (l ++ y)).isSome := by
  obtain ⟨front, rest, hfront, heq⟩ := (accepts_http (hl.trans (List.prefix_append ..))).mp h
  refine (accepts_http (hl.trans (List.prefix_append ..))).mpr ?_
  obtain ⟨as, rfl, has⟩ | ⟨bs, rfl, hbs⟩ := List.append_eq_append_iff.mp heq
  · exact absurd (has ▸ List.mem_append_right as (List.mem_cons_self ..)) (by decide)
  · match bs, hbs with
    | [], hbs => cases hbs
    | [_], hbs => cases hbs
    | [_, _], hbs => cases hbs
    | [_, _, _], hbs => cases hbs
    | _ :: _ :: _ :: _ :: more, hbs =>
      cases hbs
      exact ⟨front, more ++ y, hfront, List.append_assoc ..⟩

theorem eq_nil_of_accepts {l : Bytes} (hok : (verifyNtripResponse (l ++ ascii "OK")).isSome)
    (hx : verifyNtripResponse (l ++ [88]) = none)
    (hicy : (verifyNtripResponse (l ++ ascii "ICY 200 OK")).isSome) : l = [] := by
  have hrefused : ¬ (verifyNtripResponse (l ++ [88])).isSome := by
    rw [hx]
    exact Bool.false_ne_true
  obtain h | h | h := accepts_cases hok
  · obtain h | h | h := prefix_of_prefix_append_ok h
    · exact absurd (accepts_icy (h.trans (List.prefix_append ..))) hrefused
    · have hlast := congrArg List.getLast? h
      rw [List.getLast?_concat] at hlast
      cases hlast
    · -- Before a whole `ICY 200 OK` the rest of one is none.
      have hl : ascii "ICY 200 " = l :=
        List.append_cancel_right (show ascii "ICY 200 " ++ ascii "OK" = l ++ ascii "OK" from h)
      rw [← hl] at hicy
      exact absurd hicy (by decide +kernel)
  · obtain h | h | h := prefix_of_prefix_append_ok h
    · exact absurd (http_of_append_ok h hok [88]) hrefused
    · have hlast := congrArg List.getLast? h
      rw [List.getLast?_concat] at hlast
      cases hlast
    · have hlast := congrArg List.getLast? h
      rw [List.getLast?_append] at hlast
      cases hlast
  · obtain h | h | h := prefix_of_prefix_append_ok h
    · exact absurd (accepts_ok (h.trans (List.prefix_append ..))) hrefused
    · have hlast := congrArg List.getLast? h
      rw [List.getLast?_concat] at hlast
      cases hlast
    · exact List.append_cancel_right (show l ++ ascii "OK" = [] ++ ascii "OK" from h.symm)

end NavCaster.Session.Response
