import NavCaster.Base.Bits
import NavCaster.Library.Double
import NavCaster.Library.Table

namespace NavCaster.Base.Rtcm

open NavCaster.Library
open NavCaster.Library.Strto (Bytes)
open NavCaster.Library.Double (ofInt round toInt)
open NavCaster.Base.Bits

def crcBit (crc : UInt32) : UInt32 :=
  let crc := crc <<< 1
  if crc &&& 0x1000000 ≠ 0 then crc ^^^ 0x01864CFB else crc

def crcByte (crc : UInt32) (b : UInt8) : UInt32 := crcBit^[8] (crc ^^^ (b.toUInt32 <<< 16))

def calCRC24 (buf : Bytes) : UInt32 := buf.foldl crcByte 0

/-- The length of the message that starts here, with its header and its parity; 0 where none
does. -/
def checkHeader : Bytes → Nat
  | 0xD3 :: b1 :: b2 :: _ => 3 + ((b1 &&& 3).toNat <<< 8 ||| b2.toNat) + 3
  | _ => 0

def parity : Bytes → Option UInt32
  | c0 :: c1 :: c2 :: _ => some (c0.toUInt32 <<< 16 ||| c1.toUInt32 <<< 8 ||| c2.toUInt32)
  | _ => none

def crcMatches (data : Bytes) : Bool :=
  let n := checkHeader data - 3
  parity (data.drop n) = some (calCRC24 (data.take n))

/-- What `get_message` returns for a message: its number, where it has a payload for it. -/
def messageNumber : Bytes → Nat
  | _ :: _ :: _ :: b3 :: b4 :: _ => b3.toNat <<< 4 ||| b4.toNat >>> 4
  | _ => 0

/-- Signed arithmetic wraps around on the targets of the build. -/
def int32 (n : ℤ) : ℤ := n.bmod (2 ^ 32)

def int64 (n : ℤ) : ℤ := n.bmod (2 ^ 64)

/-- The counters have 32 bits and the times 64. -/
structure MsgStat where
  count : ℤ := 0
  firstTime : ℤ := 0
  lastTime : ℤ := 0
  windowCount : ℤ := 0
  windowStart : ℤ := 0
  interval : ℤ := 1
  deriving DecidableEq

/-- The statistics in `decode_message`; `none` where they divide by zero. -/
def MsgStat.arrive (stat : MsgStat) (now : ℤ) : Option MsgStat :=
  let stat := if stat.count = 0 then { stat with firstTime := now } else stat
  let stat := { stat with
    lastTime := now
    count := int32 (stat.count + 1)
    windowCount := int32 (stat.windowCount + 1) }
  if stat.windowCount = 1 then some { stat with windowStart := now }
  else
    let elapsed := int64 (now - stat.windowStart)
    if elapsed ≥ 300 then
      let gaps := int32 (stat.windowCount - 1)
      if gaps = 0 then none
      else
        let interval := toInt 32 (round (ofInt elapsed / ofInt gaps))
        some { stat with
          interval := if interval < 1 then 1 else interval
          windowCount := 1
          windowStart := now }
    else some stat

abbrev MsgStats := Table ℤ MsgStat

def entry (stats : MsgStats) (id : ℤ) : MsgStat := (stats.lookup id).getD {}

-- irreducible, or the equations of the loop are looked for by evaluating it
@[irreducible]
def recordStat (stats : MsgStats) (id now : ℤ) : Option MsgStats :=
  ((entry stats id).arrive now).map (stats.insert id)

structure Systems where
  gps : Bool := false
  glo : Bool := false
  gal : Bool := false
  sbas : Bool := false
  qzss : Bool := false
  bds : Bool := false
  navic : Bool := false
  deriving DecidableEq

def Systems.observe (id : Nat) (s : Systems) : Systems :=
  if 1071 ≤ id ∧ id ≤ 1077 then { s with gps := true }
  else if 1081 ≤ id ∧ id ≤ 1087 then { s with glo := true }
  else if 1091 ≤ id ∧ id ≤ 1097 then { s with gal := true }
  else if 1101 ≤ id ∧ id ≤ 1107 then { s with sbas := true }
  else if 1111 ≤ id ∧ id ≤ 1117 then { s with qzss := true }
  else if 1121 ≤ id ∧ id ≤ 1127 then { s with bds := true }
  else if 1131 ≤ id ∧ id ≤ 1137 then { s with navic := true }
  else s

/-- A position in units of 0.1 mm. -/
structure Ecef where
  x : Int
  y : Int
  z : Int
  deriving DecidableEq

structure Station where
  gps : Bool := false
  glo : Bool := false
  gal : Bool := false
  ecef : Ecef
  deriving DecidableEq

def readStation (msg : Bytes) : Reader Station := do
  let _messageID ← utilGetbitu64Auto msg 12
  let _refId ← utilGetbitu64Auto msg 12
  let _resv ← utilGetbitu64Auto msg 6
  let gps ← utilGetbitu64Auto msg 1
  let glo ← utilGetbitu64Auto msg 1
  let gal ← utilGetbitu64Auto msg 1
  let _refIndicator ← utilGetbitu64Auto msg 1
  let x ← utilGetbits64Auto msg 38
  let _ ← utilGetbitu64Auto msg 1
  let _ ← utilGetbitu64Auto msg 1
  let y ← utilGetbits64Auto msg 38
  let _ ← utilGetbitu64Auto msg 2
  let z ← utilGetbits64Auto msg 38
  return { gps := gps ≠ 0, glo := glo ≠ 0, gal := gal ≠ 0, ecef := { x, y, z } }

def decodeM1005 (msg : Bytes) : Reader Station := readStation msg

def decodeM1006 (msg : Bytes) : Reader Station := do
  let station ← readStation msg
  let _antH ← utilGetbitu64Auto msg 16
  return station

def decodeM1032 (msg : Bytes) : Reader Station := do
  let _messageID ← utilGetbitu64Auto msg 12
  let _nonId ← utilGetbitu64Auto msg 12
  let _refId ← utilGetbitu64Auto msg 12
  let _resv ← utilGetbitu64Auto msg 6
  let x ← utilGetbits64Auto msg 38
  let y ← utilGetbits64Auto msg 38
  let z ← utilGetbits64Auto msg 38
  return { ecef := { x, y, z } }

def fieldDecoder : Nat → Option (Bytes → Reader Station)
  | 1005 => some decodeM1005
  | 1006 => some decodeM1006
  | 1032 => some decodeM1032
  | _ => none

/-- The fields start behind the header. -/
def decodeFields (decoder : Bytes → Reader Station) (msg : Bytes) : Option Station :=
  (decoder msg (3 * 8)).map Prod.fst

structure DecodeRtcm where
  data : Bytes := []
  msg : Bytes := []
  recycleBack : Bytes := []
  recycleFront : Bytes := []
  msgStats : MsgStats := ∅
  systems : Systems := {}
  position : Option Ecef := none
  positionUpdateTime : Int := 0

def msgMinLength : Nat := 3
def msgMaxRecycle : Nat := 1000000

namespace DecodeRtcm

variable (st : DecodeRtcm)

/-- The message is taken out of the data if its check is right; the number is 0 if it is not, but it
may be 0 if it is. -/
def getMessage : Nat × DecodeRtcm :=
  if crcMatches st.data then
    let n := checkHeader st.data
    let msg := st.data.take n
    (messageNumber msg, { st with msg, data := st.data.drop n })
  else (0, st)

def locate (now : Int) (station : Station) : DecodeRtcm :=
  { st with
    systems := { st.systems with
      gps := station.gps || st.systems.gps
      glo := station.glo || st.systems.glo
      gal := station.gal || st.systems.gal }
    position := some station.ecef
    positionUpdateTime := now }

/-- `none` where it reads what the message has not. -/
def decodeMessage (now : Int) (id : Nat) : Option DecodeRtcm := do
  let msgStats ← recordStat st.msgStats id now
  let st := { st with msgStats, systems := st.systems.observe id }
  match fieldDecoder id with
  | none => some st
  | some decoder => (decodeFields decoder st.msg).map (st.locate now)

def dropFront : DecodeRtcm :=
  { st with data := st.data.tail, recycleBack := st.recycleBack ++ st.data.take 1 }

def finish (reverse : Bool) : DecodeRtcm :=
  if reverse then { st with data := [], recycleBack := st.recycleBack ++ st.data }
  else { st with data := [], recycleFront := st.recycleFront ++ st.data }

end DecodeRtcm

/-- What a run has passed to `decode_message`, and the state it leaves; none where it reads what is
not there. -/
structure Run where
  passed : List Bytes := []
  left : Option DecodeRtcm

/-- The loop of `Decode`. Each round takes a byte at least, so the length of the data is enough;
`clock` gives the time of the round. -/
def loop (clock : Nat → Int) (reverse : Bool) : Nat → DecodeRtcm → Run
  | 0, st => { left := some (st.finish reverse) }
  | fuel + 1, st =>
    if st.data.length ≤ msgMinLength then { left := some (st.finish reverse) }
    else
      let n := checkHeader st.data
      if n = 0 then loop clock reverse fuel st.dropFront
      else if n > st.data.length then
        { left := some { st with data := [], recycleFront := st.data ++ st.recycleFront } }
      else
        let p := st.getMessage
        if p.1 = 0 then
          if p.2.data = [] then { left := none } else loop clock reverse fuel p.2.dropFront
        else match p.2.decodeMessage (clock fuel) p.1 with
          | none => { passed := [p.2.msg], left := none }
          | some st' =>
            let r := loop clock reverse fuel { st' with msg := [] }
            { r with passed := p.2.msg :: r.passed }

def DecodeRtcm.pending (st : DecodeRtcm) (buffer : Bytes) (reverse : Bool) : Bytes :=
  let back := if st.recycleBack.length > msgMaxRecycle then [] else st.recycleBack
  let front := if st.recycleFront.length > msgMaxRecycle then [] else st.recycleFront
  if reverse then buffer ++ st.data ++ back else front ++ st.data ++ buffer

def DecodeRtcm.decode (st : DecodeRtcm) (clock : Nat → Int) (buffer : Bytes)
    (reverse : Bool := false) :
    Run :=
  let data := st.pending buffer reverse
  loop clock reverse data.length { st with data, recycleBack := [], recycleFront := [] }

end NavCaster.Base.Rtcm
