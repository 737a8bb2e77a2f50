import NavCaster.Base.Rtcm

namespace NavCaster.Base.Station

open NavCaster.Library.Strto (Bytes)
open NavCaster.Base.Bits
open NavCaster.Base.Rtcm

structure Extracted (msg : Bytes) : Prop where
  start : checkHeader msg ≠ 0
  length : checkHeader msg = msg.length
  check : crcMatches msg = true

def payloadLength (msg : Bytes) : Nat := msg.length - 6

/-- `get_message` and the decoder for the number read nothing that the message has not. -/
def ReadsInside (msg : Bytes) : Prop :=
  4 < msg.length ∧ ∀ decoder, fieldDecoder (messageNumber msg) = some decoder →
    (decodeFields decoder msg).isSome

/-- The payload that the fields take, less the three bytes of the parity that may be read for
them. -/
def fieldLength : Nat → Nat
  | 1005 => 16
  | 1006 => 18
  | 1032 => 17
  | _ => 0

variable {msg : Bytes}

theorem le_checkHeader (h : checkHeader msg ≠ 0) : 6 ≤ checkHeader msg := by
  unfold checkHeader at h ⊢
  split at h
  · omega
  · exact absurd rfl h

theorem spans_readStation : Spans msg 152 (readStation msg) :=
  spans_bind (k := 140) (spans_utilGetbitu64Auto 12) fun _ ↦
  spans_bind (k := 128) (spans_utilGetbitu64Auto 12) fun _ ↦
  spans_bind (k := 122) (spans_utilGetbitu64Auto 6) fun _ ↦
  spans_bind (k := 121) (spans_utilGetbitu64Auto 1) fun _ ↦
  spans_bind (k := 120) (spans_utilGetbitu64Auto 1) fun _ ↦
  spans_bind (k := 119) (spans_utilGetbitu64Auto 1) fun _ ↦
  spans_bind (k := 118) (spans_utilGetbitu64Auto 1) fun _ ↦
  spans_bind (k := 80) (spans_utilGetbits64Auto 38) fun _ ↦
  spans_bind (k := 79) (spans_utilGetbitu64Auto 1) fun _ ↦
  spans_bind (k := 78) (spans_utilGetbitu64Auto 1) fun _ ↦
  spans_bind (k := 40) (spans_utilGetbits64Auto 38) fun _ ↦
  spans_bind (k := 38) (spans_utilGetbitu64Auto 2) fun _ ↦
  spans_bind (k := 0) (spans_utilGetbits64Auto 38) fun _ ↦ spans_pure _

theorem spans_decodeM1005 : Spans msg 152 (decodeM1005 msg) := spans_readStation

theorem spans_decodeM1006 : Spans msg 168 (decodeM1006 msg) :=
  spans_bind (k := 16) spans_readStation fun _ ↦
  spans_bind (k := 0) (spans_utilGetbitu64Auto 16) fun _ ↦ spans_pure _

theorem spans_decodeM1032 : Spans msg 156 (decodeM1032 msg) :=
  spans_bind (k := 144) (spans_utilGetbitu64Auto 12) fun _ ↦
  spans_bind (k := 132) (spans_utilGetbitu64Auto 12) fun _ ↦
  spans_bind (k := 120) (spans_utilGetbitu64Auto 12) fun _ ↦
  spans_bind (k := 114) (spans_utilGetbitu64Auto 6) fun _ ↦
  spans_bind (k := 76) (spans_utilGetbits64Auto 38) fun _ ↦
  spans_bind (k := 38) (spans_utilGetbits64Auto 38) fun _ ↦
  spans_bind (k := 0) (spans_utilGetbits64Auto 38) fun _ ↦ spans_pure _

theorem isSome_decodeFields {n : Nat} {decoder : Bytes → Reader Rtcm.Station} (hn : n ≠ 0)
    (h : Spans msg n (decoder msg)) :
    (decodeFields decoder msg).isSome ↔ 24 + n ≤ 8 * msg.length := by
  unfold decodeFields
  rw [Option.isSome_map, (h (3 * 8)).1]
  exact or_iff_right hn

theorem fieldDecoder_none {id : Nat} (h₁ : id ≠ 1005) (h₂ : id ≠ 1006) (h₃ : id ≠ 1032) :
    fieldDecoder id = none ∧ fieldLength id = 0 := by
  unfold fieldDecoder fieldLength
  constructor
  · split <;> first | contradiction | rfl
  · split <;> first | contradiction | rfl

theorem isSome_fieldDecoder (hlen : 6 ≤ msg.length) (id : Nat) :
    (∀ decoder, fieldDecoder id = some decoder → (decodeFields decoder msg).isSome) ↔
      fieldLength id ≤ payloadLength msg := by
  have hone (decoder : Bytes → Reader Rtcm.Station) : (∀ decoder', some decoder = some decoder' →
      (decodeFields decoder' msg).isSome = true) ↔ (decodeFields decoder msg).isSome = true :=
    ⟨fun h ↦ h _ rfl, fun h decoder' heq ↦ Option.some.inj heq ▸ h⟩
  unfold payloadLength
  by_cases h₁ : id = 1005
  · subst h₁
    refine (hone decodeM1005).trans ((isSome_decodeFields (by decide) spans_decodeM1005).trans ?_)
    change _ ↔ 16 ≤ msg.length - 6
    omega
  by_cases h₂ : id = 1006
  · subst h₂
    refine (hone decodeM1006).trans ((isSome_decodeFields (by decide) spans_decodeM1006).trans ?_)
    change _ ↔ 18 ≤ msg.length - 6
    omega
  by_cases h₃ : id = 1032
  · subst h₃
    refine (hone decodeM1032).trans ((isSome_decodeFields (by decide) spans_decodeM1032).trans ?_)
    change _ ↔ 17 ≤ msg.length - 6
    omega
  obtain ⟨hd, hz⟩ := fieldDecoder_none h₁ h₂ h₃
  rw [hd, hz]
  exact iff_of_true (fun _ h ↦ by cases h) (Nat.zero_le _)

/-- The number alone selects the decoder, so the message may be too short for the fields. -/
theorem reads_inside_iff (h : Extracted msg) :
    ReadsInside msg ↔ fieldLength (messageNumber msg) ≤ payloadLength msg := by
  have hlen : 6 ≤ msg.length := h.length ▸ le_checkHeader h.start
  exact (and_iff_right (by omega)).trans (isSome_fieldDecoder hlen _)

/-- A message 1005 with the 19 bytes that its fields take. -/
theorem reads_inside_station :
    ReadsInside ([0xD3, 0, 19, 0x3E, 0xD0] ++ List.replicate 17 0 ++ [242, 75, 244]) ↔
      fieldLength (messageNumber
          ([0xD3, 0, 19, 0x3E, 0xD0] ++ List.replicate 17 0 ++ [242, 75, 244])) ≤
        payloadLength ([0xD3, 0, 19, 0x3E, 0xD0] ++ List.replicate 17 0 ++ [242, 75, 244]) :=
  reads_inside_iff
    { start := by decide
      length := by decide
      check := by decide +kernel }

/-- A message 1005 of nothing but its number. -/
theorem not_reads_inside : ¬ ∀ msg : Bytes, Extracted msg → ReadsInside msg := by
  intro h
  have hshort : Extracted [0xD3, 0, 2, 0x3E, 0xD0, 164, 224, 0] :=
    { start := by decide
      length := by decide
      check := by decide +kernel }
  have hlen :=
    (isSome_decodeFields (by decide) spans_decodeM1005).mp ((h _ hshort).2 decodeM1005 rfl)
  simp at hlen

end NavCaster.Base.Station
