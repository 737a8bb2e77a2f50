import NavCaster.Library.Strto

namespace NavCaster.Base.Nmea

open NavCaster.Library.Strto

def hexToVal (c : UInt8) : Option UInt8 :=
  if 48 ≤ c ∧ c ≤ 57 then some (c - 48)
  else if 65 ≤ c ∧ c ≤ 70 then some (c - 65 + 10)
  else if 97 ≤ c ∧ c ≤ 102 then some (c - 97 + 10)
  else none

/-- The two digits after the `*` are the exclusive or of what stands between `$` and `*`. -/
def checkNMEA (msg : Bytes) : Bool :=
  if msg.length < 9 then false
  else
    match msg.dropWhile (· ≠ 36) with
    | [] => false
    | _ :: s =>
      match s.dropWhile (· ≠ 42) with
      | _ :: high :: low :: _ =>
        match hexToVal high, hexToVal low with
        | some h, some l => (s.takeWhile (· ≠ 42)).foldl (· ^^^ ·) 0 = (h <<< 4 ||| l)
        | _, _ => false
      | _ => false

def splitComma (s : Bytes) : List Bytes := s.splitOn 44

def splitGGA (nmea : Bytes) : List Bytes :=
  match nmea.dropWhile fun b ↦ b = 32 || b = 13 || b = 10 with
  | 36 :: s => splitComma (s.takeWhile (· ≠ 42))
  | _ => []

structure Gga where
  fixQuality : Int
  numSat : Int
  hdop : Reading
  alt : Reading
  geoid : Reading
  diffAge : Reading
  diffStation : Int
  utc : Int × Int × Reading
  lat : Reading × Reading × Bool
  lon : Reading × Reading × Bool
  deriving DecidableEq

/-- `size_t dot = find('.')`, which is larger than every length where there is no point. -/
def degreeLen (field : Bytes) : Nat := if 46 ∈ field ∧ field.idxOf 46 ≤ 4 then 2 else 3

def readAngle (field : Bytes) (negative : Bool) : Except Exn (Reading × Reading × Bool) := do
  let deg ← stod (← substr field 0 (degreeLen field))
  let min ← stod (← substr field (degreeLen field) field.length)
  return (deg, min, negative)

def readTime (field : Bytes) : Except Exn (Int × Int × Reading) := do
  let hh ← stoi (← substr field 0 2)
  let mm ← stoi (← substr field 2 2)
  let ss ← stod (← substr field 4 field.length)
  return (hh, mm, ss)

def decodeGGA (msg : Bytes) : Except Exn (Option Gga) :=
  match splitGGA msg with
  | [_, f1, f2, f3, f4, f5, f6, f7, f8, f9, _, f11, _, f13, f14] => do
    let fixQuality ← stoi f6
    let numSat ← stoi f7
    let hdop ← stod f8
    let alt ← stod f9
    let geoid ← stod f11
    let diffAge ← stod f13
    let diffStation ← stoi f14
    let utc ← readTime f1
    let lat ← readAngle f2 (f3 = [83])
    let lon ← readAngle f4 (f5 = [87])
    return some { fixQuality, numSat, hdop, alt, geoid, diffAge, diffStation, utc, lat, lon }
  | _ => .ok none

/-- The decoder of one rover: the bytes that wait for more, and the last position. -/
structure DecodeNmea where
  data : Bytes := []
  recycleBack : Bytes := []
  recycleFront : Bytes := []
  position : Option Gga := none

def msgMinLength : Nat := 3
def msgMaxRecycle : Nat := 1000000

/-- The length of the sentence at the front, 0 where none starts, and more than there is where its
end is missing: the first CR must be followed by LF. -/
def checkHeader (data : Bytes) : Nat :=
  match data with
  | 36 :: _ =>
    match data.dropWhile (· ≠ 13) with
    | 13 :: 10 :: _ => (data.takeWhile (· ≠ 13)).length
    | _ => data.length + 1
  | _ => 0

/-- The kind of a sentence with its checksum: GGA, RMC or ZDA. -/
def messageId (msg : Bytes) : Nat :=
  if checkNMEA msg then
    let name := (msg.drop 3).take 3
    if name = [71, 71, 65] then 1
    else if name = [82, 77, 67] then 2
    else if name = [90, 68, 65] then 3
    else 0
  else 0

namespace DecodeNmea

/-- Only a GGA sentence changes something. -/
def decodeMessage (id : Nat) (msg : Bytes) (st : DecodeNmea) : Except Exn DecodeNmea :=
  if id = 1 then
    (fun gga ↦ { st with position := gga.or st.position }) <$> decodeGGA msg
  else .ok st

def dropFront (st : DecodeNmea) : DecodeNmea :=
  { st with data := st.data.tail, recycleBack := st.recycleBack ++ st.data.take 1 }

def finish (reverse : Bool) (st : DecodeNmea) : DecodeNmea :=
  if reverse then { st with data := [], recycleBack := st.recycleBack ++ st.data }
  else { st with data := [], recycleFront := st.recycleFront ++ st.data }

/-- The loop of `Decode`. Each round takes a byte at least, so the length of the data is enough. -/
def loop (reverse : Bool) : Nat → DecodeNmea → Except Exn DecodeNmea
  | 0, st => .ok (st.finish reverse)
  | fuel + 1, st =>
    if st.data.length ≤ msgMinLength then .ok (st.finish reverse)
    else
      let n := checkHeader st.data
      if n = 0 then loop reverse fuel st.dropFront
      else if n > st.data.length then
        .ok { st with data := [], recycleFront := st.data ++ st.recycleFront }
      else
        let msg := st.data.take n
        let rest := { st with data := st.data.drop n }
        if messageId msg = 0 then loop reverse fuel rest.dropFront
        else do
          let st ← rest.decodeMessage (messageId msg) msg
          loop reverse fuel st

def pending (st : DecodeNmea) (buffer : Bytes) (reverse : Bool) : Bytes :=
  let back := if st.recycleBack.length > msgMaxRecycle then [] else st.recycleBack
  let front := if st.recycleFront.length > msgMaxRecycle then [] else st.recycleFront
  if reverse then buffer ++ st.data ++ back else front ++ st.data ++ buffer

def decode (st : DecodeNmea) (buffer : Bytes) (reverse : Bool := false) : Except Exn DecodeNmea :=
  let data := st.pending buffer reverse
  loop reverse data.length { st with data, recycleBack := [], recycleFront := [] }

end DecodeNmea

end NavCaster.Base.Nmea
