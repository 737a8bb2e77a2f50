import NavCaster.Base.Framing
import NavCaster.Core.Subscription

namespace NavCaster.Core.Upstream

open NavCaster.Library
open NavCaster.Library.Strto
open NavCaster.Base.Nmea
open NavCaster.Base.Framing
open NavCaster.Core.Connections
open NavCaster.Core.Subscription

variable {A P : Type}

theorem returns_publish (geo : Geometry P) (userName key : String) (data : Bytes) {s : Caster A}
    {dec : DecodeNmea} (h : s.roverDecoderMap.lookup key = some dec) :
    Returns (pubRoverChannel geo userName key data s) ↔ Returns (dec.decode data) := by
  unfold pubRoverChannel
  rw [h]
  refine (returns_bind_iff (p := True) fun dec' ↦ iff_of_true ?_ trivial).trans
    (and_iff_left trivial)
  dsimp only
  cases dec'.position with
  | none => exact returns_ok _
  | some gga => exact returns_ok _

/-- What a rover sends is taken in without an exception if and only if each GGA sentence of 15
fields among the bytes that wait for it, framed and with its checksum, has numbers in the fields
that are read. -/
theorem upstream_returns (geo : Geometry P) (userName key : String) (data : Bytes) (s : Caster A) :
    Returns (pubRoverChannel geo userName key data s) ↔
      ∀ dec, s.roverDecoderMap.lookup key = some dec → Readable (dec.pending data false) := by
  cases h : s.roverDecoderMap.lookup key with
  | none =>
    unfold pubRoverChannel
    rw [h]
    exact iff_of_true (returns_ok _) fun dec hd ↦ by cases hd
  | some dec =>
    rw [returns_publish geo userName key data h, returns_decode]
    constructor
    · intro hr dec' hd
      cases hd
      exact hr
    · exact fun hr ↦ hr dec rfl

/-- `GPGGA,,,,,,,,,,,,,,*56`, after the `$`: a position report without a position. -/
def emptyReport : Bytes :=
  [71, 80, 71, 71, 65] ++ List.replicate 14 44 ++ [42, 53, 54]

theorem messageId_emptyReport : messageId (36 :: emptyReport) = 1 := by decide +kernel

theorem splitGGA_emptyReport :
    splitGGA (36 :: emptyReport) = [71, 80, 71, 71, 65] :: List.replicate 14 [] := by decide +kernel

theorem not_readable_emptyReport : ¬ Readable (36 :: (emptyReport ++ [13, 10])) := by
  intro h
  have hf : Framed (36 :: (emptyReport ++ [13, 10])) (36 :: emptyReport) :=
    @Framed.here emptyReport [] (by decide)
  have hc := h _ hf messageId_emptyReport
  rw [splitGGA_emptyReport] at hc
  exact not_isInt_nil hc.1

def rover : CbItem Unit where
  connectKey := "k"
  channel := "M"
  userName := "u"
  groupUid := ""
  arg := ()

/-- The report is sent by a rover that has just registered. -/
theorem not_upstream_returns : ¬ ∀ (geo : Geometry Unit) (item : CbItem Unit) (data : Bytes),
    let e : Effect Unit Unit := registerRover .client item {}
    e.code = 0 → Returns (pubRoverChannel geo item.userName item.connectKey data e.caster) := by
  intro h
  have hr :=
    h ⟨fun _ ↦ (), fun _ ↦ false, fun _ _ ↦ true⟩ rover (36 :: (emptyReport ++ [13, 10])) rfl
  have hdec : (registerRover .client rover {} : Effect Unit Unit).caster.roverDecoderMap.lookup
      rover.connectKey = some {} := rfl
  rw [returns_publish _ _ _ _ hdec, returns_decode] at hr
  exact not_readable_emptyReport hr

end NavCaster.Core.Upstream
