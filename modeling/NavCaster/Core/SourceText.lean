import Mathlib.Data.List.TakeWhile
import Mathlib.Data.List.Basic

namespace NavCaster.Core.SourceText

/-- The fields of a line of the source table, in their order. -/
structure MountInfo where
  STR : String
  mountpoint : String
  identufier : String
  format : String
  formatDetails : String
  carrier : String
  navSystem : String
  network : String
  country : String
  latitude : String
  longitude : String
  nmea : String
  solution : String
  generator : String
  comprEncrryp : String
  authentication : String
  fee : String
  bitrate : String
  misc : String

def buildDefaultMountInfo (mountPoint : String) : MountInfo where
  STR := "STR"
  mountpoint := mountPoint
  identufier := "unknown"
  format := "RTCM 3.3"
  formatDetails := "1074(1),1084(1),1094(1),1124(1)"
  carrier := "2"
  navSystem := "GPS+GLO+GAL+BDS"
  network := "SNT"
  country := "XXX"
  latitude := "0.00"
  longitude := "0.00"
  nmea := "1"
  solution := "0"
  generator := "SNT"
  comprEncrryp := "none"
  authentication := "N"
  fee := "N"
  bitrate := "11520"
  misc := "none"

def convertMountInfoToString (i : MountInfo) : String :=
  i.STR ++ ";" ++ i.mountpoint ++ ";" ++ i.identufier ++ ";" ++ i.format ++ ";" ++
    i.formatDetails ++ ";" ++ i.carrier ++ ";" ++ i.navSystem ++ ";" ++ i.network ++ ";" ++
    i.country ++ ";" ++ i.latitude ++ ";" ++ i.longitude ++ ";" ++ i.nmea ++ ";" ++
    i.solution ++ ";" ++ i.generator ++ ";" ++ i.comprEncrryp ++ ";" ++ i.authentication ++ ";" ++
    i.fee ++ ";" ++ i.bitrate ++ ";" ++ i.misc ++ ";" ++ "\r\n"

/-- The lines of a text, which CR LF ends; `line` is what has been read of the first. -/
def readLines (line : List Char) : List Char → List (List Char)
  | '\r' :: '\n' :: rest => line :: readLines [] rest
  | c :: rest => readLines (line ++ [c]) rest
  | [] => if line = [] then [] else [line]

/-- The mount point that a line is about: what stands between its first two separators. -/
def lineName : List Char → Option String
  | 'S' :: 'T' :: 'R' :: ';' :: rest => some (String.ofList (rest.takeWhile (· ≠ ';')))
  | _ => none

/-- The mount points that a client finds in the text of a source table. -/
def listed (text : String) : List String := (readLines [] text.toList).filterMap lineName

def MountInfo.bears (info : MountInfo) : List String := listed (convertMountInfoToString info)

theorem readLines_cons {line text : List Char} {c : Char}
    (h : ∀ more, c = '\r' → text = '\n' :: more → False) :
    readLines line (c :: text) = readLines (line ++ [c]) text := readLines.eq_2 line c text h

theorem readLines_append (line text rest : List Char) :
    readLines line (text ++ '\r' :: '\n' :: rest) =
      readLines line (text ++ ['\r', '\n']) ++ readLines [] rest := by
  fun_induction readLines line text with
  | case1 line text ih => exact congrArg (line :: ·) ih
  | case2 line c text h ih =>
    -- the line feed that follows belongs to the end
    have hnext (tail : List Char) (more : List Char) (hc : c = '\r') :
        text ++ '\r' :: tail = '\n' :: more → False := by
      cases text with
      | nil => exact fun heq ↦ by cases heq
      | cons d text =>
        intro heq
        cases heq
        exact h text hc rfl
    rw [List.cons_append, List.cons_append, readLines_cons (hnext _), readLines_cons (hnext _), ih]
  | case3 => simp [readLines]
  | case4 line hline => simp [readLines]

theorem readLines_line (line : List Char) {text : List Char} (h : '\n' ∉ text) :
    readLines line (text ++ ['\r', '\n']) = [line ++ text] := by
  induction text generalizing line with
  | nil => simp [readLines]
  | cons c text ih =>
    rw [List.mem_cons, not_or] at h
    have hnext (more : List Char) (_ : c = '\r') : text ++ ['\r', '\n'] = '\n' :: more → False := by
      cases text with
      | nil => exact fun heq ↦ by cases heq
      | cons d text =>
        intro heq
        cases heq
        exact h.2 List.mem_cons_self
    rw [List.cons_append, readLines_cons hnext, ih _ h.2, List.append_assoc]
    rfl

theorem listed_append (text text' : String) :
    listed (text ++ "\r\n" ++ text') = listed (text ++ "\r\n") ++ listed text' := by
  unfold listed
  have hread := readLines_append [] text.toList text'.toList
  simp only [String.toList_append]
  rw [← List.filterMap_append, List.append_assoc]
  exact congrArg _ hread

def MountInfo.fields (i : MountInfo) : List String :=
  [i.STR, i.mountpoint, i.identufier, i.format, i.formatDetails, i.carrier, i.navSystem, i.network,
    i.country, i.latitude, i.longitude, i.nmea, i.solution, i.generator, i.comprEncrryp,
    i.authentication, i.fee, i.bitrate, i.misc]

def MountInfo.lineText (i : MountInfo) : String := String.join (i.fields.map (· ++ ";"))

theorem convertMountInfoToString_eq (i : MountInfo) :
    convertMountInfoToString i = i.lineText ++ "\r\n" := by
  unfold convertMountInfoToString MountInfo.lineText MountInfo.fields
  simp only [List.map_cons, List.map_nil, String.join_cons, String.join_nil, String.append_empty]
  simp only [String.append_assoc]

/-- What a client finds in a table is what it finds in the entries one by one. -/
theorem listed_join (infos : List MountInfo) :
    listed (String.join (infos.map convertMountInfoToString)) = infos.flatMap MountInfo.bears := by
  induction infos with
  | nil => rfl
  | cons info infos ih =>
    rw [List.map_cons, String.join_cons, convertMountInfoToString_eq, listed_append, ih,
      List.flatMap_cons, MountInfo.bears, convertMountInfoToString_eq]

/-- An entry that stands on one line, with its name in its place. -/
structure MountInfo.Plain (info : MountInfo) : Prop where
  STR : info.STR = "STR"
  name : ';' ∉ info.mountpoint.toList
  fields : ∀ field ∈ info.fields, '\n' ∉ field.toList

theorem MountInfo.Plain.bears {info : MountInfo} (h : info.Plain) :
    info.bears = [info.mountpoint] := by
  have hlf : '\n' ∉ info.lineText.toList := by
    rw [MountInfo.lineText, String.toList_join, List.mem_flatMap]
    intro ⟨field, hmem, hfield⟩
    obtain ⟨field', hmem', rfl⟩ := List.mem_map.mp hmem
    rw [String.toList_append, List.mem_append] at hfield
    rcases hfield with hfield | hfield
    · exact h.fields field' hmem' hfield
    · exact absurd hfield (by decide)
  obtain ⟨rest, hrest⟩ : ∃ rest, info.lineText.toList =
      'S' :: 'T' :: 'R' :: ';' :: (info.mountpoint.toList ++ ';' :: rest) := by
    refine ⟨(String.join ((info.fields.drop 2).map (· ++ ";"))).toList, ?_⟩
    simp [MountInfo.lineText, MountInfo.fields, h.STR]
  have hname : (info.mountpoint.toList ++ ';' :: rest).takeWhile (· ≠ ';') =
      info.mountpoint.toList := by
    have hall : ∀ c ∈ info.mountpoint.toList, decide (c ≠ ';') = true := by
      intro c hc
      exact decide_eq_true fun heq ↦ h.name (heq ▸ hc)
    rw [List.takeWhile_append_of_pos hall]
    exact List.append_nil _
  have hread := readLines_line [] hlf
  unfold MountInfo.bears listed
  rw [convertMountInfoToString_eq, String.toList_append]
  change (readLines [] (info.lineText.toList ++ ['\r', '\n'])).filterMap lineName = _
  rw [hread, List.nil_append, hrest, List.filterMap_cons, lineName, hname, String.ofList_toList]
  rfl

end NavCaster.Core.SourceText
