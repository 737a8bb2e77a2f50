import Mathlib.Data.List.TakeWhile
import NavCaster.Base.Nmea

namespace NavCaster.Base.Framing

open NavCaster.Library.Strto
open NavCaster.Base.Nmea

def IsAngle (field : Bytes) : Prop :=
  degreeLen field ≤ field.length ∧ IsReal (field.take (degreeLen field)) ∧
    IsReal (field.drop (degreeLen field))

def IsTime (field : Bytes) : Prop :=
  4 ≤ field.length ∧ IsInt (field.take 2) ∧ IsInt ((field.drop 2).take 2) ∧ IsReal (field.drop 4)

/-- The fields that a GGA sentence of 15 fields is read from are numbers. -/
def Convertible : List Bytes → Prop
  | [_, f1, f2, _, f4, _, f6, f7, f8, f9, _, f11, _, f13, f14] =>
    IsInt f6 ∧ IsInt f7 ∧ IsReal f8 ∧ IsReal f9 ∧ IsReal f11 ∧ IsReal f13 ∧ IsInt f14 ∧
      IsTime f1 ∧ IsAngle f2 ∧ IsAngle f4
  | _ => True

theorem substr_of_le {s : Bytes} {pos len : Nat} (h : pos ≤ s.length) :
    substr s pos len = .ok ((s.drop pos).take len) := if_pos h

theorem returns_substr_bind {α : Type} {s : Bytes} {pos len : Nat} {f : Bytes → Except Exn α} :
    Returns (substr s pos len >>= f) ↔ pos ≤ s.length ∧ Returns (f ((s.drop pos).take len)) := by
  rw [returns_bind]
  constructor
  · rintro ⟨a, ha, hf⟩
    have hle := returns_substr.mp ⟨a, ha⟩
    rw [substr_of_le hle] at ha
    cases ha
    exact ⟨hle, hf⟩
  · exact fun ⟨hle, hf⟩ ↦ ⟨_, substr_of_le hle, hf⟩

theorem take_drop_length (s : Bytes) (n : Nat) : (s.drop n).take s.length = s.drop n :=
  List.take_of_length_le (by rw [List.length_drop]; omega)

theorem returns_bind_pure {α β : Type} {x : Except Exn α} {g : α → β} :
    Returns (x >>= fun a ↦ pure (g a)) ↔ Returns x :=
  (returns_bind_iff (p := True) fun a ↦ iff_of_true ⟨g a, rfl⟩ trivial).trans (and_iff_left trivial)

theorem returns_readAngle (field : Bytes) (negative : Bool) :
    Returns (readAngle field negative) ↔ IsAngle field := by
  have hmin (deg : Reading) : Returns (do
      let min ← stod (← substr field (degreeLen field) field.length)
      return (deg, min, negative)) ↔
        degreeLen field ≤ field.length ∧ IsReal (field.drop (degreeLen field)) := by
    rw [returns_substr_bind, returns_bind_pure, take_drop_length, returns_stod]
  unfold readAngle IsAngle
  rw [returns_substr_bind, List.drop_zero, returns_bind_iff hmin, returns_stod]
  constructor
  · exact fun ⟨_, hd, hl, hm⟩ ↦ ⟨hl, hd, hm⟩
  · exact fun ⟨hl, hd, hm⟩ ↦ ⟨Nat.zero_le _, hd, hl, hm⟩

theorem returns_readTime (field : Bytes) : Returns (readTime field) ↔ IsTime field := by
  have hsec (hh mm : Int) : Returns (do
      let ss ← stod (← substr field 4 field.length)
      return (hh, mm, ss)) ↔ 4 ≤ field.length ∧ IsReal (field.drop 4) := by
    rw [returns_substr_bind, returns_bind_pure, take_drop_length, returns_stod]
  have hmin (hh : Int) : Returns (do
      let mm ← stoi (← substr field 2 2)
      let ss ← stod (← substr field 4 field.length)
      return (hh, mm, ss)) ↔ 2 ≤ field.length ∧ IsInt ((field.drop 2).take 2) ∧
        4 ≤ field.length ∧ IsReal (field.drop 4) := by
    rw [returns_substr_bind, returns_bind_iff (hsec hh), returns_stoi]
  unfold readTime
  rw [returns_substr_bind, returns_bind_iff hmin, List.drop_zero, returns_stoi]
  constructor
  · exact fun ⟨_, hh, _, hm, hl, hs⟩ ↦ ⟨hl, hh, hm, hs⟩
  · exact fun ⟨hl, hh, hm, hs⟩ ↦ ⟨Nat.zero_le _, hh, by omega, hm, hl, hs⟩

theorem returns_decodeGGA (msg : Bytes) : Returns (decodeGGA msg) ↔ Convertible (splitGGA msg) := by
  unfold decodeGGA
  split
  · next f1 f2 f3 f4 f5 f6 f7 f8 f9 _ f11 _ f13 f14 hfields =>
    rw [hfields]
    simp only [Convertible, ← returns_stoi, ← returns_stod, ← returns_readTime]
    refine returns_bind_iff fun _ ↦ returns_bind_iff fun _ ↦ returns_bind_iff fun _ ↦
      returns_bind_iff fun _ ↦ returns_bind_iff fun _ ↦ returns_bind_iff fun _ ↦
      returns_bind_iff fun _ ↦ returns_bind_iff fun _ ↦ ?_
    refine (returns_bind_iff fun _ ↦ returns_bind_pure).trans ?_
    rw [returns_readAngle, returns_readAngle]
  · next hne =>
    refine iff_of_true (returns_ok _) ?_
    unfold Convertible
    split
    · next hfields => exact (hne _ _ _ _ _ _ _ _ _ _ _ _ _ _ _ hfields).elim
    · trivial

def Gives {α : Type} (P : α → Prop) (x : Except Exn α) : Prop := ∀ a, x = .ok a → P a

theorem gives_bind {α β : Type} {P : β → Prop} {x : Except Exn α} {f : α → Except Exn β}
    (h : ∀ a, x = .ok a → Gives P (f a)) : Gives P (x >>= f) := by
  intro b hb
  cases x with
  | error e => cases hb
  | ok a => exact h a rfl b hb

/-- The sentences that the decoder comes to: from a `$` to the first CR, which LF follows. Bytes
that start no sentence are passed over. -/
inductive Framed : Bytes → Bytes → Prop
  | skip {b : UInt8} {s msg : Bytes} : b ≠ 36 → Framed s msg → Framed (b :: s) msg
  | here {body rest : Bytes} : 13 ∉ body → Framed (36 :: (body ++ 13 :: 10 :: rest)) (36 :: body)
  | later {body rest msg : Bytes} : 13 ∉ body → Framed rest msg →
      Framed (36 :: (body ++ 13 :: 10 :: rest)) msg

theorem framed_skip {b : UInt8} {s msg : Bytes} (hb : b ≠ 36) :
    Framed (b :: s) msg ↔ Framed s msg := by
  refine ⟨fun h ↦ ?_, .skip hb⟩
  cases h with
  | skip _ h => exact h
  | here => exact absurd rfl hb
  | later => exact absurd rfl hb

/-- The first CR tells a sentence from what follows it. -/
theorem body_unique {body body' rest rest' : Bytes} (h : 13 ∉ body) (h' : 13 ∉ body')
    (he : body ++ 13 :: rest = body' ++ 13 :: rest') : body = body' ∧ rest = rest' := by
  induction body generalizing body' with
  | nil =>
    cases body' with
    | nil => cases he; exact ⟨rfl, rfl⟩
    | cons b body' => cases he; exact absurd (List.mem_cons_self ..) h'
  | cons b body ih =>
    cases body' with
    | nil => cases he; exact absurd (List.mem_cons_self ..) h
    | cons b' body' =>
      rw [List.cons_append, List.cons_append, List.cons.injEq] at he
      obtain ⟨rfl, he⟩ := he
      rw [List.mem_cons, not_or] at h h'
      obtain ⟨rfl, rfl⟩ := ih h.2 h'.2 he
      exact ⟨rfl, rfl⟩

theorem framed_sentence {body rest msg : Bytes} (hb : 13 ∉ body) :
    Framed (36 :: (body ++ 13 :: 10 :: rest)) msg ↔ msg = 36 :: body ∨ Framed rest msg := by
  constructor
  · intro h
    generalize hd : 36 :: (body ++ 13 :: 10 :: rest) = data at h
    cases h with
    | skip hne _ => cases hd; exact absurd rfl hne
    | here hb' =>
      obtain ⟨rfl, -⟩ := body_unique hb hb' (List.cons.inj hd).2
      exact .inl rfl
    | later hb' hf =>
      obtain ⟨-, hrest⟩ := body_unique hb hb' (List.cons.inj hd).2
      cases hrest
      exact .inr hf
  · rintro (rfl | h)
    · exact .here hb
    · exact .later hb h

theorem framed_length {data msg : Bytes} (h : Framed data msg) : msg.length ≤ data.length := by
  induction h with
  | skip _ _ ih => exact ih.trans (Nat.le_succ _)
  | here => simp
  | later _ _ ih => simp only [List.length_cons, List.length_append]; omega

inductive Header : Bytes → Nat → Prop
  | none {b : UInt8} {s : Bytes} : b ≠ 36 → Header (b :: s) 0
  | whole {body rest : Bytes} : 13 ∉ body →
      Header (36 :: (body ++ 13 :: 10 :: rest)) (body.length + 1)
  | short {s : Bytes} : (∀ msg, ¬ Framed (36 :: s) msg) → Header (36 :: s) ((36 :: s).length + 1)

theorem forall_ne_cr {body : Bytes} (h : 13 ∉ body) : ∀ b ∈ body, decide (b ≠ 13) = true :=
  fun _ hb ↦ decide_eq_true fun he ↦ h (he ▸ hb)

theorem dropWhile_body {body s : Bytes} (h : 13 ∉ body) :
    (body ++ 13 :: s).dropWhile (· ≠ 13) = 13 :: s := by
  rw [List.dropWhile_append_of_pos (forall_ne_cr h), List.dropWhile_cons_of_neg (by decide)]

theorem takeWhile_body {body s : Bytes} (h : 13 ∉ body) :
    (body ++ 13 :: s).takeWhile (· ≠ 13) = body := by
  rw [List.takeWhile_append_of_pos (forall_ne_cr h), List.takeWhile_cons_of_neg (by decide),
    List.append_nil]

theorem exists_body {s rest : Bytes} (h : s.dropWhile (· ≠ 13) = 13 :: rest) :
    ∃ body, 13 ∉ body ∧ s = body ++ 13 :: rest := by
  refine ⟨s.takeWhile (· ≠ 13), fun hm ↦ ?_, ?_⟩
  · have hne := List.mem_takeWhile_imp hm
    exact of_decide_eq_true hne rfl
  · rw [← h, List.takeWhile_append_dropWhile]

theorem not_framed_of_dropWhile {s : Bytes}
    (h : ∀ rest, (36 :: s).dropWhile (· ≠ 13) ≠ 13 :: 10 :: rest) (msg : Bytes) :
    ¬ Framed (36 :: s) msg := by
  have hbody {body rest : Bytes} (hb : 13 ∉ body)
      (he : s = body ++ 13 :: 10 :: rest) : False := by
    subst he
    refine h rest ?_
    rw [List.dropWhile_cons_of_pos (by decide), dropWhile_body hb]
  intro hf
  cases hf with
  | skip hne _ => exact hne rfl
  | here hb => exact hbody hb rfl
  | later hb _ => exact hbody hb rfl

theorem header_checkHeader {data : Bytes} (hne : data ≠ []) : Header data (checkHeader data) := by
  unfold checkHeader
  split
  · next s =>
    split
    · next rest hd =>
      rw [List.dropWhile_cons_of_pos (by decide)] at hd
      obtain ⟨body, hb, rfl⟩ := exists_body hd
      rw [List.takeWhile_cons_of_pos (by decide), takeWhile_body hb]
      exact .whole hb
    · next hd => exact .short (not_framed_of_dropWhile hd)
  · next hd =>
    cases data with
    | nil => exact absurd rfl hne
    | cons b s => exact .none fun he ↦ hd s (he ▸ rfl)

theorem length_of_messageId {msg : Bytes} (h : messageId msg ≠ 0) : 9 ≤ msg.length := by
  by_contra hlen
  refine h ?_
  have hc : checkNMEA msg = false := if_pos (by omega)
  unfold messageId
  rw [hc]
  rfl

/-- Every GGA sentence that the decoder comes to, and that passes the checksum, has numbers where
they are read. -/
def Readable (data : Bytes) : Prop :=
  ∀ msg, Framed data msg → messageId msg = 1 → Convertible (splitGGA msg)

theorem readable_skip {b : UInt8} {s : Bytes} (hb : b ≠ 36) : Readable (b :: s) ↔ Readable s :=
  forall_congr' fun _ ↦ by rw [framed_skip hb]

theorem readable_sentence {body rest : Bytes} (hb : 13 ∉ body) :
    Readable (36 :: (body ++ 13 :: 10 :: rest)) ↔
      (messageId (36 :: body) = 1 → Convertible (splitGGA (36 :: body))) ∧ Readable rest := by
  unfold Readable
  constructor
  · intro h
    exact ⟨h _ ((framed_sentence hb).mpr (.inl rfl)),
      fun m hm ↦ h m ((framed_sentence hb).mpr (.inr hm))⟩
  · rintro ⟨hfirst, hrest⟩ m hm
    obtain rfl | hm := (framed_sentence hb).mp hm
    · exact hfirst
    · exact hrest m hm

theorem readable_short {data : Bytes} (h : data.length < 9) : Readable data := by
  intro msg hm hid
  have hne : messageId msg ≠ 0 := by omega
  have hlen := length_of_messageId hne
  have hle := framed_length hm
  omega

theorem returns_decodeMessage (id : Nat) (msg : Bytes) (st : DecodeNmea) :
    Returns (st.decodeMessage id msg) ↔ (id = 1 → Convertible (splitGGA msg)) := by
  unfold DecodeNmea.decodeMessage
  split
  · next h => rw [returns_map, returns_decodeGGA]; exact ⟨fun hc _ ↦ hc, fun hc ↦ hc h⟩
  · next h => exact iff_of_true (returns_ok _) fun hid ↦ absurd hid h

theorem decodeMessage_data {id : Nat} {msg : Bytes} {st st' : DecodeNmea}
    (h : st.decodeMessage id msg = .ok st') : st'.data = st.data := by
  unfold DecodeNmea.decodeMessage at h
  split at h
  · cases hd : decodeGGA msg with
    | error e => rw [hd] at h; cases h
    | ok gga => rw [hd] at h; cases h; rfl
  · cases h; rfl

theorem returns_loop (reverse : Bool) (fuel : Nat) (st : DecodeNmea) (hf : st.data.length ≤ fuel) :
    Returns (DecodeNmea.loop reverse fuel st) ↔ Readable st.data := by
  induction fuel generalizing st with
  | zero => exact iff_of_true (returns_ok _) (readable_short (by omega))
  | succ fuel ih =>
    rw [DecodeNmea.loop]
    split
    · next hlen =>
      exact iff_of_true (returns_ok _) (readable_short (by unfold msgMinLength at hlen; omega))
    · next hlen =>
      have hdrop (st : DecodeNmea) (b : UInt8) (s : Bytes) (hd : st.data = b :: s) (hb : b ≠ 36)
          (hs : s.length ≤ fuel) : Returns (DecodeNmea.loop reverse fuel st.dropFront) ↔
            Readable st.data := by
        rw [ih _ (by rw [DecodeNmea.dropFront, hd]; exact hs), hd, readable_skip hb]
        rw [DecodeNmea.dropFront, hd]
        rfl
      have hne : st.data ≠ [] := fun h ↦ hlen (by rw [h]; exact Nat.zero_le _)
      have hh := header_checkHeader hne
      obtain ⟨data, back, front, position⟩ := st
      dsimp only at hf hh ⊢
      generalize checkHeader data = n at hh ⊢
      cases hh with
      | none hb =>
        rw [if_pos rfl]
        exact hdrop ⟨_, back, front, position⟩ _ _ rfl hb (by simpa using hf)
      | short hno =>
        rw [if_neg (Nat.succ_ne_zero _), if_pos (Nat.lt_succ_self _)]
        exact iff_of_true (returns_ok _) fun msg hm ↦ absurd hm (hno msg)
      | @whole body rest hb =>
        have htake : (36 :: (body ++ 13 :: 10 :: rest)).take (body.length + 1) = 36 :: body := by
          simp
        have hrest :
            (36 :: (body ++ 13 :: 10 :: rest)).drop (body.length + 1) = 13 :: 10 :: rest := by
          simp
        simp only [List.length_cons, List.length_append] at hf
        rw [if_neg (Nat.succ_ne_zero _), if_neg (by simp), htake, hrest, readable_sentence hb]
        split
        · next hid =>
          rw [hdrop ⟨_, back, front, position⟩ 13 (10 :: rest) rfl (by decide)
            (by simp only [List.length_cons]; omega)]
          rw [readable_skip (by decide), readable_skip (by decide), hid]
          exact (and_iff_right nofun).symm
        · rw [returns_bind]
          have hst {st : DecodeNmea} (hd : st.data = 13 :: 10 :: rest) :
              Returns (DecodeNmea.loop reverse fuel st) ↔ Readable rest := by
            rw [ih st (by rw [hd]; simp only [List.length_cons]; omega), hd,
              readable_skip (by decide), readable_skip (by decide)]
          constructor
          · rintro ⟨st, hmsg, hloop⟩
            exact ⟨(returns_decodeMessage ..).mp ⟨st, hmsg⟩,
              (hst (decodeMessage_data hmsg)).mp hloop⟩
          · rintro ⟨hfirst, hr⟩
            obtain ⟨st, hmsg⟩ :=
              (returns_decodeMessage _ _ ⟨13 :: 10 :: rest, back, front, position⟩).mpr hfirst
            exact ⟨st, hmsg, (hst (decodeMessage_data hmsg)).mpr hr⟩

theorem returns_decode (st : DecodeNmea) (buffer : Bytes) (reverse : Bool) :
    Returns (st.decode buffer reverse) ↔ Readable (st.pending buffer reverse) :=
  returns_loop reverse _ _ (Nat.le_refl _)

end NavCaster.Base.Framing
