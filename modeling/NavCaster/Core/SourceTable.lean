import NavCaster.Core.Access
import NavCaster.Core.Aliases
import NavCaster.Core.SourceText

namespace NavCaster.Core.SourceTable

open NavCaster.Library
open NavCaster.Core.Access
open NavCaster.Core.Aliases
open NavCaster.Core.SourceText

structure SourceRecord where
  uid : String := ""
  sourceGroupUid : String := ""
  mountpoint : String := ""
  latitude : String := ""
  longitude : String := ""
  formatDetails : String := ""
  navSystem : String := ""

namespace SourceRecord

def ofUid (uid : String) : SourceRecord := { uid, sourceGroupUid := "default" }

/-- Where the text is no message, the record stays as it is: nobody looks at the code that is
returned. -/
def fromString (parse : String → Option SourceRecord) (r : SourceRecord) (str : String) :
    SourceRecord :=
  match parse str with
  | none => r
  | some proto =>
    { uid := proto.uid
      sourceGroupUid := if proto.sourceGroupUid = "" then "default" else proto.sourceGroupUid
      mountpoint := proto.mountpoint
      latitude := if proto.latitude = "" then r.latitude else proto.latitude
      longitude := if proto.longitude = "" then r.longitude else proto.longitude
      formatDetails := if proto.formatDetails = "" then r.formatDetails else proto.formatDetails
      navSystem := if proto.navSystem = "" then r.navSystem else proto.navSystem }

/-- The fields of the line that `toSourceItem` writes. -/
def mountInfo (r : SourceRecord) : MountInfo :=
  let info := buildDefaultMountInfo r.mountpoint
  { info with
    latitude := if r.latitude = "" then info.latitude else r.latitude
    longitude := if r.longitude = "" then info.longitude else r.longitude
    formatDetails := if r.formatDetails = "" then info.formatDetails else r.formatDetails
    navSystem := if r.navSystem = "" then info.navSystem else r.navSystem }

end SourceRecord

structure VisibleRule extends AliasRule where
  visible : Bool := true

/-- What a node has loaded for its source table. -/
structure Sources where
  accessGroupMap : Table String AccessGroup := ∅
  accessItemMap : Table String (Table String AccessItem) := ∅
  sourceRecordMap : Table String SourceRecord := ∅
  sourceDecodeMap : Table String SourceRecord := ∅
  aliasRuleMap : Table String (List String) := ∅
  aliasVisibleMap : Table String String := ∅

/-- The callbacks for `MPT:RECORD` and for the decoded sources: each field with its record. -/
def loadSources (parse : String → Option SourceRecord) (elements : List (String × String)) :
    Table String SourceRecord :=
  elements.foldl
    (fun sources e ↦ Table.insertNew sources e.1 ((SourceRecord.ofUid e.1).fromString parse e.2)) ∅

def loadAliasVisible (decode : String → Option VisibleRule) (names : Table String String)
    (record : String × String) : Table String String :=
  match decode record.2 with
  | some rule =>
    if rule.aliasName ≠ "" ∧ rule.sourceName ≠ "" ∧ rule.visible then
      names.insert rule.aliasName rule.sourceName
    else names
  | none => names

structure Replies where
  records : List (String × String) := []
  decodes : List (String × String) := []
  aliases : List (String × String) := []

def load (parse : String → Option SourceRecord) (decode : String → Option VisibleRule)
    (accessGroupMap : Table String AccessGroup)
    (accessItemMap : Table String (Table String AccessItem)) (replies : Replies) : Sources where
  accessGroupMap
  accessItemMap
  sourceRecordMap := loadSources parse replies.records
  sourceDecodeMap := loadSources parse replies.decodes
  aliasRuleMap :=
    replies.aliases.foldl (loadAliasRule fun value ↦ (decode value).map VisibleRule.toAliasRule) ∅
  aliasVisibleMap := replies.aliases.foldl (loadAliasVisible decode) ∅

inductive Origin
  | source | aliased | nearest
  deriving DecidableEq

/-- A line of the table, and which of the three loops has written it for which key of its map. -/
structure Line where
  origin : Origin
  key : String
  info : MountInfo

def Line.bears (line : Line) : List String := line.info.bears

def names (lines : List Line) : List String := lines.map fun line ↦ line.info.mountpoint

def textOf (lines : List Line) : String :=
  String.join (lines.map fun line ↦ convertMountInfoToString line.info)

namespace Sources

variable (s : Sources) (groupUid : String)

def policy : AccessPolicy where
  accessGroupMap := s.accessGroupMap
  accessItemMap := s.accessItemMap
  sourceRecordMap := Table.filterMap (fun _ r ↦ some r.sourceGroupUid) s.sourceRecordMap
  sourceDecodeMap := Table.filterMap (fun _ r ↦ some r.sourceGroupUid) s.sourceDecodeMap

def visible (mountPoint : String) : Bool := (s.policy.checkMountVisible groupUid mountPoint).isNone

/-- What has been set by hand replaces what has been decoded. -/
def mergedMap : Table String SourceRecord :=
  (Table.toPairs s.sourceRecordMap).foldl (fun merged e ↦ merged.insert e.1 e.2) s.sourceDecodeMap

def sourceLines : List Line :=
  ((Table.toPairs s.mergedMap).filter fun e ↦ s.visible groupUid e.1).map fun e ↦
    ⟨.source, e.1, e.2.mountInfo⟩

def addAlias (lines : List Line) (e : String × String) : List Line :=
  if e.1 ∈ names lines then lines
  else if !s.visible groupUid e.1 then lines
  else
    match s.mergedMap.lookup e.2 with
    | none => lines
    | some r => lines ++ [⟨.aliased, e.1, { r with mountpoint := e.1 }.mountInfo⟩]

def addNearest (lines : List Line) : List Line :=
  match s.accessGroupMap.lookup groupUid with
  | none => lines
  | some g =>
    if g.nearestMptEnable then
      if g.nearestMptSourceName = "" ∨ g.nearestMptSourceName ∈ names lines then lines
      else lines ++
        [⟨.nearest, g.nearestMptSourceName, buildDefaultMountInfo g.nearestMptSourceName⟩]
    else lines

def sourceList : List Line :=
  let group := normalizeAccessGroupUid groupUid
  s.addNearest group
    ((Table.toPairs s.aliasVisibleMap).foldl (s.addAlias group) (s.sourceLines group))

def getSourceListText : String := textOf (s.sourceList groupUid)

/-- The part of the text that the loop over the aliases writes. -/
def aliasText : String :=
  textOf ((s.sourceList groupUid).filter fun line ↦ line.origin = .aliased)

/-- The enabled nearest mount point of the group. -/
def IsNearest (mountPoint : String) : Prop :=
  ∃ g, s.accessGroupMap.lookup (normalizeAccessGroupUid groupUid) = some g ∧
    g.nearestMptEnable = true ∧ g.nearestMptSourceName = mountPoint

/-- What the text may list for a group. -/
structure WellListed : Prop where
  once : (listed (s.getSourceListText groupUid)).Nodup
  named : "" ∉ listed (s.getSourceListText groupUid)
  allowed : ∀ name ∈ listed (s.getSourceListText groupUid),
    s.visible groupUid name ∨ s.IsNearest groupUid name
  subscribable : ∀ name ∈ listed (s.aliasText groupUid), name ∈ s.aliasRuleMap

def source (field : String) : Option SourceRecord :=
  (s.sourceRecordMap.lookup field).or (s.sourceDecodeMap.lookup field)

/-- The name within the record goes into the table when the field of the record may be seen. -/
def Shows (field name : String) : Prop :=
  s.visible groupUid field ∧ ∃ r, s.source field = some r ∧ r.mountpoint = name

/-- An alias that may be seen, of a source, where no record that may be seen has its name. -/
def ShowsAlias (aliasName field : String) : Prop :=
  s.aliasVisibleMap.lookup aliasName = some field ∧ s.visible groupUid aliasName ∧
    ∀ field', ¬ s.Shows groupUid field' aliasName

inductive Gives : Line → Prop
  | source {field : String} {r : SourceRecord} (hvis : s.visible groupUid field)
    (hr : s.source field = some r) : Gives ⟨.source, field, r.mountInfo⟩
  | aliased {aliasName field : String} {r : SourceRecord}
      (h : s.ShowsAlias groupUid aliasName field)
    (hr : s.source field = some r) :
    Gives ⟨.aliased, aliasName, { r with mountpoint := aliasName }.mountInfo⟩
  | nearest {name : String} (hne : name ≠ "") (hnearest : s.IsNearest groupUid name)
    (hsource : ∀ field, ¬ s.Shows groupUid field name)
    (halias : ∀ field, s.ShowsAlias groupUid name field → s.source field = none) :
    Gives ⟨.nearest, name, buildDefaultMountInfo name⟩

/-- The names that the lines bear in the text are names of their own that may be seen, and those of
an alias are aliases to subscribe to. -/
structure Regular : Prop where
  single : ∀ line, s.Gives groupUid line → line.bears.Nodup
  named : ∀ line, s.Gives groupUid line → "" ∉ line.bears
  distinct : ∀ line line' name, s.Gives groupUid line → s.Gives groupUid line' →
    name ∈ line.bears → name ∈ line'.bears → line.origin = line'.origin ∧ line.key = line'.key
  allowed : ∀ line name, s.Gives groupUid line → name ∈ line.bears →
    s.visible groupUid name ∨ s.IsNearest groupUid name
  aliases : ∀ line name, s.Gives groupUid line → line.origin = .aliased → name ∈ line.bears →
    name ∈ s.aliasRuleMap

/-- No name has a separator in it, and no text a line feed. -/
def Plain : Prop := ∀ line, s.Gives groupUid line → line.info.Plain

structure RegularNames : Prop where
  named : ∀ field, ¬ s.Shows groupUid field ""
  distinct : ∀ field field' name, s.Shows groupUid field name → s.Shows groupUid field' name →
    field = field'
  allowed : ∀ field name, s.Shows groupUid field name →
    s.visible groupUid name ∨ s.IsNearest groupUid name
  aliases : ∀ aliasName field, s.ShowsAlias groupUid aliasName field → (s.source field).isSome →
    aliasName ∈ s.aliasRuleMap

end Sources

variable {s : Sources} {groupUid : String}

theorem visible_normalize (s : Sources) (groupUid mountPoint : String) :
    s.visible (normalizeAccessGroupUid groupUid) mountPoint = s.visible groupUid mountPoint := by
  by_cases h : groupUid = ""
  · subst h
    rfl
  · rw [normalizeAccessGroupUid, if_neg h]

theorem lookup_foldl_insert {field : String} {pairs : List (String × SourceRecord)}
    (t : Table String SourceRecord) (hno : field ∉ pairs.map Prod.fst) :
    (pairs.foldl (fun merged e ↦ merged.insert e.1 e.2) t).lookup field = t.lookup field := by
  induction pairs generalizing t with
  | nil => rfl
  | cons e pairs ih =>
    rw [List.map_cons, List.mem_cons, not_or] at hno
    rw [List.foldl_cons, ih _ hno.2, Table.lookup_insert_if, if_neg hno.1]

theorem lookup_foldl_insert_mem {field : String} {r : SourceRecord}
    {pairs : List (String × SourceRecord)} (t : Table String SourceRecord)
    (hnodup : (pairs.map Prod.fst).Nodup) (hmem : (field, r) ∈ pairs) :
    (pairs.foldl (fun merged e ↦ merged.insert e.1 e.2) t).lookup field = some r := by
  induction pairs generalizing t with
  | nil => cases hmem
  | cons e pairs ih =>
    rw [List.map_cons, List.nodup_cons] at hnodup
    rcases List.mem_cons.mp hmem with rfl | hmem
    · rw [List.foldl_cons, lookup_foldl_insert _ hnodup.1, AList.lookup_insert]
    · exact ih _ hnodup.2 hmem

theorem lookup_mergedMap (s : Sources) (field : String) :
    s.mergedMap.lookup field = s.source field := by
  unfold Sources.mergedMap Sources.source
  cases h : s.sourceRecordMap.lookup field with
  | none =>
    have hno : field ∉ (Table.toPairs s.sourceRecordMap).map Prod.fst := by
      intro hmem
      obtain ⟨⟨_, r⟩, hr, rfl⟩ := List.mem_map.mp hmem
      cases h.symm.trans (Table.mem_toPairs.mp hr)
    rw [lookup_foldl_insert _ hno, Option.none_or]
  | some r =>
    rw [lookup_foldl_insert_mem _ (Table.toPairs_nodup _) (Table.mem_toPairs.mpr h), Option.some_or]

theorem mem_mergedMap {field : String} {r : SourceRecord} :
    (field, r) ∈ Table.toPairs s.mergedMap ↔ s.source field = some r := by
  rw [Table.mem_toPairs, lookup_mergedMap]

/-- The line of an alias, where there is one. -/
def aliasLine (s : Sources) (groupUid : String) (lines : List Line) (e : String × String) :
    Option Line :=
  if e.1 ∈ names lines then none
  else if !s.visible groupUid e.1 then none
  else (s.source e.2).map fun r ↦ ⟨.aliased, e.1, { r with mountpoint := e.1 }.mountInfo⟩

theorem addAlias_eq (lines : List Line) (e : String × String) :
    s.addAlias groupUid lines e = lines ++ (aliasLine s groupUid lines e).toList := by
  unfold Sources.addAlias aliasLine
  rw [lookup_mergedMap]
  split_ifs
  · simp
  · simp
  · cases s.source e.2 <;> simp

theorem aliasLine_eq_some {lines : List Line} {e : String × String} {line : Line} :
    aliasLine s groupUid lines e = some line ↔ e.1 ∉ names lines ∧ s.visible groupUid e.1 ∧
      ∃ r, s.source e.2 = some r ∧
        line = ⟨.aliased, e.1, { r with mountpoint := e.1 }.mountInfo⟩ := by
  unfold aliasLine
  split_ifs with hmem hvis
  · simp [hmem]
  · simp_all
  · simp [hmem, Bool.eq_true_of_not_eq_false (by simpa using hvis), eq_comm (a := line)]

theorem name_aliasLine {lines : List Line} {e : String × String} {line : Line}
    (h : aliasLine s groupUid lines e = some line) :
    line.info.mountpoint = e.1 ∧ line.key = e.1 := by
  obtain ⟨-, -, r, -, rfl⟩ := aliasLine_eq_some.mp h
  exact ⟨rfl, rfl⟩

theorem foldl_addAlias {pairs : List (String × String)} (hnodup : (pairs.map Prod.fst).Nodup)
    (lines : List Line) : pairs.foldl (s.addAlias groupUid) lines =
      lines ++ pairs.filterMap (aliasLine s groupUid lines) := by
  induction pairs generalizing lines with
  | nil => simp
  | cons e pairs ih =>
    rw [List.map_cons, List.nodup_cons] at hnodup
    have hsame : ∀ e' ∈ pairs,
        aliasLine s groupUid (lines ++ (aliasLine s groupUid lines e).toList) e' =
          aliasLine s groupUid lines e' := by
      intro e' he'
      have hne : e'.1 ≠ e.1 := fun heq ↦ hnodup.1 (heq ▸ List.mem_map_of_mem he')
      cases hline : aliasLine s groupUid lines e with
      | none => simp
      | some line =>
        have hname := (name_aliasLine hline).1
        simp [aliasLine, names, hname, hne]
    rw [List.foldl_cons, addAlias_eq, ih hnodup.2, List.filterMap_congr hsame, List.append_assoc]
    cases hline : aliasLine s groupUid lines e <;> simp [hline]

def aliasLines (s : Sources) (groupUid : String) : List Line :=
  (Table.toPairs s.aliasVisibleMap).filterMap (aliasLine s groupUid (s.sourceLines groupUid))

theorem mem_sourceLines {line : Line} : line ∈ s.sourceLines groupUid ↔
    ∃ field r, s.visible groupUid field ∧ s.source field = some r ∧
      line = ⟨.source, field, r.mountInfo⟩ := by
  simp only [Sources.sourceLines, List.mem_map, List.mem_filter, Prod.exists, mem_mergedMap]
  constructor
  · intro ⟨field, r, ⟨hr, hvis⟩, hline⟩
    exact ⟨field, r, hvis, hr, hline.symm⟩
  · intro ⟨field, r, hvis, hr, hline⟩
    exact ⟨field, r, ⟨hr, hvis⟩, hline.symm⟩

theorem mem_sourceNames {name : String} :
    name ∈ names (s.sourceLines groupUid) ↔ ∃ field, s.Shows groupUid field name := by
  simp only [names, List.mem_map, mem_sourceLines, Sources.Shows]
  constructor
  · rintro ⟨_, ⟨field, r, hvis, hr, rfl⟩, rfl⟩
    exact ⟨field, hvis, r, hr, rfl⟩
  · rintro ⟨field, hvis, r, hr, rfl⟩
    exact ⟨_, ⟨field, r, hvis, hr, rfl⟩, rfl⟩

theorem mem_aliasLines {line : Line} : line ∈ aliasLines s groupUid ↔
    ∃ aliasName field r, s.ShowsAlias groupUid aliasName field ∧ s.source field = some r ∧
      line = ⟨.aliased, aliasName, { r with mountpoint := aliasName }.mountInfo⟩ := by
  simp only [aliasLines, List.mem_filterMap, Prod.exists, Table.mem_toPairs, aliasLine_eq_some,
    mem_sourceNames, not_exists, Sources.ShowsAlias]
  constructor
  · intro ⟨aliasName, field, hlookup, hno, hvis, r, hr, hline⟩
    exact ⟨aliasName, field, r, ⟨hlookup, hvis, hno⟩, hr, hline⟩
  · intro ⟨aliasName, field, r, ⟨hlookup, hvis, hno⟩, hr, hline⟩
    exact ⟨aliasName, field, hlookup, hno, hvis, r, hr, hline⟩

theorem mem_addNearest {lines : List Line} {line : Line} :
    line ∈ s.addNearest (normalizeAccessGroupUid groupUid) lines ↔ line ∈ lines ∨
      ∃ name, name ≠ "" ∧ s.IsNearest groupUid name ∧ name ∉ names lines ∧
        line = ⟨.nearest, name, buildDefaultMountInfo name⟩ := by
  unfold Sources.addNearest Sources.IsNearest
  cases s.accessGroupMap.lookup (normalizeAccessGroupUid groupUid) with
  | none => simp
  | some g =>
    dsimp only
    split_ifs with henable hskip
    · refine (or_iff_left ?_).symm
      rintro ⟨name, hne, ⟨g', hg', -, rfl⟩, hno, -⟩
      cases hg'
      exact hskip.elim hne hno
    · rw [not_or] at hskip
      rw [List.mem_append, List.mem_singleton]
      refine or_congr_right ⟨?_, ?_⟩
      · intro hline
        exact ⟨g.nearestMptSourceName, hskip.1, ⟨g, rfl, henable, rfl⟩, hskip.2, hline⟩
      · rintro ⟨name, -, ⟨g', hg', -, rfl⟩, -, hline⟩
        cases hg'
        exact hline
    · refine (or_iff_left ?_).symm
      rintro ⟨name, -, ⟨g', hg', henable', -⟩, -⟩
      cases hg'
      exact henable henable'

theorem sourceList_eq (s : Sources) (groupUid : String) : s.sourceList groupUid =
    s.addNearest (normalizeAccessGroupUid groupUid)
      (s.sourceLines groupUid ++ aliasLines s groupUid) := by
  have hlines : s.sourceLines (normalizeAccessGroupUid groupUid) = s.sourceLines groupUid := by
    simp only [Sources.sourceLines, visible_normalize]
  have halias (lines : List Line) : aliasLine s (normalizeAccessGroupUid groupUid) lines =
      aliasLine s groupUid lines := by
    funext e
    simp only [aliasLine, visible_normalize]
  rw [Sources.sourceList, foldl_addAlias (Table.toPairs_nodup _), hlines, halias]
  rfl

theorem mem_sourceList {line : Line} : line ∈ s.sourceList groupUid ↔ s.Gives groupUid line := by
  have hnames {name : String} : name ∉ names (s.sourceLines groupUid ++ aliasLines s groupUid) ↔
      (∀ field, ¬ s.Shows groupUid field name) ∧
        ∀ field, s.ShowsAlias groupUid name field → s.source field = none := by
    have hsource := @mem_sourceNames s groupUid name
    rw [names, List.map_append, List.mem_append, not_or, ← names, hsource, not_exists]
    refine and_congr_right fun _ ↦ ?_
    simp only [List.mem_map, mem_aliasLines, not_exists, not_and]
    constructor
    · intro h field halias
      by_contra hsome
      obtain ⟨r, hr⟩ := Option.ne_none_iff_exists'.mp hsome
      exact h _ ⟨name, field, r, halias, hr, rfl⟩ rfl
    · rintro h _ ⟨aliasName, field, r, halias, hr, rfl⟩ rfl
      cases (h field halias).symm.trans hr
  rw [sourceList_eq, mem_addNearest, List.mem_append, mem_sourceLines, mem_aliasLines]
  constructor
  · rintro ((⟨field, r, hvis, hr, rfl⟩ | ⟨aliasName, field, r, halias, hr, rfl⟩) |
      ⟨name, hne, hnearest, hno, rfl⟩)
    · exact .source hvis hr
    · exact .aliased halias hr
    · exact .nearest hne hnearest (hnames.mp hno).1 (hnames.mp hno).2
  · intro h
    cases h with
    | source hvis hr => exact .inl (.inl ⟨_, _, hvis, hr, rfl⟩)
    | aliased halias hr => exact .inl (.inr ⟨_, _, _, halias, hr, rfl⟩)
    | nearest hne hnearest hsource halias =>
      exact .inr ⟨_, hne, hnearest, hnames.mpr ⟨hsource, halias⟩, rfl⟩

def Line.slot (line : Line) : Origin × String := (line.origin, line.key)

theorem nodup_addNearest {lines : List Line} (h : (lines.map Line.slot).Nodup)
    (hne : ∀ line ∈ lines, line.origin ≠ .nearest) :
    ((s.addNearest groupUid lines).map Line.slot).Nodup := by
  unfold Sources.addNearest
  split
  · exact h
  · split_ifs
    · exact h
    · rw [List.map_append]
      refine h.append (List.nodup_singleton _) (List.disjoint_singleton.mpr fun hmem ↦ ?_)
      obtain ⟨line, hline, hslot⟩ := List.mem_map.mp hmem
      exact hne line hline (congrArg Prod.fst hslot)
    · exact h

theorem nodup_sourceList (s : Sources) (groupUid : String) :
    ((s.sourceList groupUid).map Line.slot).Nodup := by
  have hsources : ((s.sourceLines groupUid).map Line.slot).Nodup := by
    have hfields : (((Table.toPairs s.mergedMap).filter fun e ↦ s.visible groupUid e.1).map
        Prod.fst).Nodup := (List.filter_sublist.map _).nodup (Table.toPairs_nodup _)
    rw [Sources.sourceLines, List.map_map]
    have hmap := hfields.map (f := fun field ↦ (Origin.source, field)) fun _ _ h ↦ (Prod.mk.inj h).2
    rwa [List.map_map] at hmap
  have haliases : ((aliasLines s groupUid).map Line.slot).Nodup := by
    have hslots : ∀ pairs : List (String × String),
        ((pairs.filterMap (aliasLine s groupUid (s.sourceLines groupUid))).map Line.slot).Sublist
          (pairs.map fun e ↦ (Origin.aliased, e.1)) := by
      intro pairs
      induction pairs with
      | nil => exact .slnil
      | cons e pairs ih =>
        cases hline : aliasLine s groupUid (s.sourceLines groupUid) e with
        | none =>
          rw [List.filterMap_cons_none hline]
          exact ih.cons _
        | some line =>
          obtain ⟨-, -, r, -, rfl⟩ := aliasLine_eq_some.mp hline
          rw [List.filterMap_cons_some hline]
          exact ih.cons_cons _
    have hmap := (Table.toPairs_nodup s.aliasVisibleMap).map
      (f := fun aliasName ↦ (Origin.aliased, aliasName)) fun _ _ h ↦ (Prod.mk.inj h).2
    rw [List.map_map] at hmap
    exact (hslots _).nodup hmap
  rw [sourceList_eq]
  refine nodup_addNearest ?_ fun line hline horigin ↦ ?_
  · rw [List.map_append]
    refine hsources.append haliases fun slot hsource halias ↦ ?_
    obtain ⟨line, hline, rfl⟩ := List.mem_map.mp hsource
    obtain ⟨line', hline', hslot⟩ := List.mem_map.mp halias
    obtain ⟨field, r, -, -, rfl⟩ := mem_sourceLines.mp hline
    obtain ⟨aliasName, field', r', -, -, rfl⟩ := mem_aliasLines.mp hline'
    cases hslot
  · rcases List.mem_append.mp hline with hline | hline
    · obtain ⟨field, r, -, -, rfl⟩ := mem_sourceLines.mp hline
      cases horigin
    · obtain ⟨aliasName, field, r, -, -, rfl⟩ := mem_aliasLines.mp hline
      cases horigin

theorem listed_textOf (lines : List Line) : listed (textOf lines) = lines.flatMap Line.bears := by
  have hjoin := listed_join (lines.map Line.info)
  rw [List.map_map, List.flatMap_map] at hjoin
  exact hjoin

theorem mem_listed {name : String} : name ∈ listed (s.getSourceListText groupUid) ↔
    ∃ line, s.Gives groupUid line ∧ name ∈ line.bears := by
  simp only [Sources.getSourceListText, listed_textOf, List.mem_flatMap, mem_sourceList]

theorem mem_aliasText {name : String} : name ∈ listed (s.aliasText groupUid) ↔
    ∃ line, (s.Gives groupUid line ∧ line.origin = .aliased) ∧ name ∈ line.bears := by
  simp only [Sources.aliasText, listed_textOf, List.mem_flatMap, List.mem_filter, mem_sourceList,
    decide_eq_true_eq]

/-- The lines have slots of their own, so that a name twice is a name in two of them. -/
theorem nodup_listed : (listed (s.getSourceListText groupUid)).Nodup ↔
    (∀ line, s.Gives groupUid line → line.bears.Nodup) ∧
      ∀ line line' name, s.Gives groupUid line → s.Gives groupUid line' →
        name ∈ line.bears → name ∈ line'.bears →
          line.origin = line'.origin ∧ line.key = line'.key := by
  have hslots := nodup_sourceList s groupUid
  have hsymm : Std.Symm (Function.onFun List.Disjoint Line.bears) := ⟨fun _ _ h ↦ h.symm⟩
  rw [Sources.getSourceListText, listed_textOf, List.nodup_flatMap]
  simp only [mem_sourceList]
  refine and_congr_right fun _ ↦ ⟨fun h line line' name hline hline' hname hname' ↦ ?_, fun h ↦ ?_⟩
  · by_cases hsame : line = line'
    · exact hsame ▸ ⟨rfl, rfl⟩
    · exact absurd hname' fun _ ↦
        h.forall (mem_sourceList.mpr hline) (mem_sourceList.mpr hline') hsame hname hname'
  · refine (List.Nodup.of_map _ hslots).pairwise_of_forall_ne fun line hline line' hline' hne ↦ ?_
    intro name hname hname'
    obtain ⟨horigin, hkey⟩ :=
      h line line' name (mem_sourceList.mp hline) (mem_sourceList.mp hline') hname hname'
    exact hne (List.inj_on_of_nodup_map hslots hline hline' (Prod.ext horigin hkey))

theorem wellListed_iff (s : Sources) (groupUid : String) :
    s.WellListed groupUid ↔ s.Regular groupUid := by
  constructor
  · intro h
    obtain ⟨hsingle, hdistinct⟩ := nodup_listed.mp h.once
    exact
      { single := hsingle
        named := fun line hline hmem ↦ h.named (mem_listed.mpr ⟨line, hline, hmem⟩)
        distinct := hdistinct
        allowed := fun line name hline hmem ↦ h.allowed name (mem_listed.mpr ⟨line, hline, hmem⟩)
        aliases := fun line name hline horigin hmem ↦
          h.subscribable name (mem_aliasText.mpr ⟨line, ⟨hline, horigin⟩, hmem⟩) }
  · intro h
    refine
      { once := nodup_listed.mpr ⟨h.single, h.distinct⟩
        named := fun hmem ↦ ?_
        allowed := fun name hmem ↦ ?_
        subscribable := fun name hmem ↦ ?_ }
    · obtain ⟨line, hline, hname⟩ := mem_listed.mp hmem
      exact h.named line hline hname
    · obtain ⟨line, hline, hname⟩ := mem_listed.mp hmem
      exact h.allowed line name hline hname
    · obtain ⟨line, ⟨hline, horigin⟩, hname⟩ := mem_aliasText.mp hmem
      exact h.aliases line name hline horigin hname

theorem slot_of_name (h : s.RegularNames groupUid) {line line' : Line}
    (hline : s.Gives groupUid line) (hline' : s.Gives groupUid line')
    (hname : line.info.mountpoint = line'.info.mountpoint) :
    line.origin = line'.origin ∧ line.key = line'.key := by
  cases hline with
  | @source field r hvis hr =>
    have hshows : s.Shows groupUid field r.mountpoint := ⟨hvis, r, hr, rfl⟩
    cases hline' with
    | @source field' r' hvis' hr' =>
      exact ⟨rfl, h.distinct field field' r.mountpoint hshows ⟨hvis', r', hr', hname.symm⟩⟩
    | aliased halias' hr' => exact absurd ⟨hvis, r, hr, hname⟩ (halias'.2.2 field)
    | nearest hne' hnearest' hsource' halias' => exact absurd ⟨hvis, r, hr, hname⟩ (hsource' field)
  | @aliased aliasName field r halias hr =>
    cases hline' with
    | @source field' r' hvis' hr' => exact absurd ⟨hvis', r', hr', hname.symm⟩ (halias.2.2 field')
    | aliased halias' hr' => exact ⟨rfl, hname⟩
    | nearest hne' hnearest' hsource' halias' =>
      replace hname : aliasName = _ := hname
      subst hname
      cases (halias' field halias).symm.trans hr
  | @nearest name hne hnearest hsource halias =>
    cases hline' with
    | @source field' r' hvis' hr' => exact absurd ⟨hvis', r', hr', hname.symm⟩ (hsource field')
    | @aliased aliasName field' r' halias' hr' =>
      replace hname : name = aliasName := hname
      subst hname
      cases (halias field' halias').symm.trans hr'
    | nearest hne' hnearest' hsource' halias' => exact ⟨rfl, hname⟩

theorem regular_iff (hplain : s.Plain groupUid)
    (hnamed : ∀ aliasName ∈ s.aliasVisibleMap, aliasName ≠ "") :
    s.Regular groupUid ↔ s.RegularNames groupUid := by
  have hbears {line : Line} (hline : s.Gives groupUid line) : line.bears = [line.info.mountpoint] :=
    (hplain line hline).bears
  have hmem {line : Line} {name : String} (hline : s.Gives groupUid line) :
      name ∈ line.bears ↔ name = line.info.mountpoint := by
    rw [hbears hline, List.mem_singleton]
  constructor
  · intro h
    refine
      { named := ?_
        distinct := ?_
        allowed := ?_
        aliases := ?_ }
    · intro field ⟨hvis, r, hr, hname⟩
      exact h.named _ (.source hvis hr) ((hmem (.source hvis hr)).mpr hname.symm)
    · intro field field' name ⟨hvis, r, hr, hname⟩ ⟨hvis', r', hr', hname'⟩
      exact (h.distinct _ _ name (.source hvis hr) (.source hvis' hr')
        ((hmem (.source hvis hr)).mpr hname.symm) ((hmem (.source hvis' hr')).mpr hname'.symm)).2
    · intro field name ⟨hvis, r, hr, hname⟩
      exact h.allowed _ name (.source hvis hr) ((hmem (.source hvis hr)).mpr hname.symm)
    · intro aliasName field halias hsome
      obtain ⟨r, hr⟩ := Option.isSome_iff_exists.mp hsome
      exact h.aliases _ aliasName (.aliased halias hr) rfl ((hmem (.aliased halias hr)).mpr rfl)
  · intro h
    refine
      { single := fun line hline ↦ hbears hline ▸ List.nodup_singleton _
        named := fun line hline hempty ↦ ?_
        distinct := fun line line' name hline hline' hname hname' ↦ ?_
        allowed := fun line name hline hname ↦ ?_
        aliases := fun line name hline horigin hname ↦ ?_ }
    · have hname := (hmem hline).mp hempty
      cases hline with
      | @source field r hvis hr => exact h.named field ⟨hvis, r, hr, hname.symm⟩
      | aliased halias hr => exact hnamed _ (Table.mem_of_lookup halias.1) hname.symm
      | nearest hne hnearest hsource halias => exact hne hname.symm
    · exact slot_of_name h hline hline'
        (((hmem hline).mp hname).symm.trans ((hmem hline').mp hname'))
    · obtain rfl := (hmem hline).mp hname
      cases hline with
      | @source field r hvis hr => exact h.allowed field _ ⟨hvis, r, hr, rfl⟩
      | aliased halias hr => exact .inl halias.2.1
      | nearest hne hnearest hsource halias => exact .inr hnearest
    · obtain rfl := (hmem hline).mp hname
      cases hline with
      | source hvis hr => cases horigin
      | aliased halias hr => exact h.aliases _ _ halias (Option.isSome_iff_exists.mpr ⟨_, hr⟩)
      | nearest hne hnearest hsource halias => cases horigin

variable {parse : String → Option SourceRecord} {decode : String → Option VisibleRule}

theorem ne_of_mem_aliasVisible (records : List (String × String)) (t : Table String String)
    (ht : ∀ aliasName ∈ t, aliasName ≠ "") :
    ∀ aliasName ∈ records.foldl (loadAliasVisible decode) t, aliasName ≠ "" := by
  induction records generalizing t with
  | nil => exact ht
  | cons record records ih =>
    refine ih _ fun aliasName hmem ↦ ?_
    unfold loadAliasVisible at hmem
    split at hmem
    · split_ifs at hmem with hrule
      · rcases (AList.mem_insert _).mp hmem with rfl | hmem
        · exact hrule.1
        · exact ht aliasName hmem
      · exact ht aliasName hmem
    · exact ht aliasName hmem

/-- Whatever has been loaded: the text is as it should be just when the lines are regular, which the
names within the records tell if they can be read back. -/
theorem well_listed_iff (parse : String → Option SourceRecord)
    (decode : String → Option VisibleRule) (accessGroupMap : Table String AccessGroup)
    (accessItemMap : Table String (Table String AccessItem)) (replies : Replies)
    (groupUid : String) :
    let s := load parse decode accessGroupMap accessItemMap replies
    (s.WellListed groupUid ↔ s.Regular groupUid) ∧
      (s.Plain groupUid → (s.WellListed groupUid ↔ s.RegularNames groupUid)) := by
  intro s
  have hiff := wellListed_iff s groupUid
  exact ⟨hiff, fun hplain ↦
    hiff.trans (regular_iff hplain (ne_of_mem_aliasVisible replies.aliases ∅ fun _ h ↦ by cases h))⟩

def station : SourceRecord := { uid := "A", sourceGroupUid := "default", mountpoint := "A" }

def stationReplies : Replies where
  records := [("A", "A")]
  aliases := [("B", "B")]

def stationSources : Sources :=
  load (fun _ ↦ some station) (fun _ ↦ some ⟨⟨"B", "A", true⟩, true⟩) ∅ ∅ stationReplies

theorem gives_station {line : Line} (h : stationSources.Gives "default" line) :
    line = ⟨.source, "A", station.mountInfo⟩ ∨
      line = ⟨.aliased, "B", { station with mountpoint := "B" }.mountInfo⟩ := by
  have hsource {field : String} {r : SourceRecord} (hr : stationSources.source field = some r) :
      field = "A" ∧ r = station := by
    have hlookup : stationSources.source field = if field = "A" then some station else none :=
      (Option.or_none ..).trans (Table.lookup_singleton field "A" station)
    rw [hlookup] at hr
    split at hr
    · next hfield =>
      cases hr
      exact ⟨hfield, rfl⟩
    · cases hr
  cases h with
  | source hvis hr =>
    obtain ⟨rfl, rfl⟩ := hsource hr
    exact .inl rfl
  | @aliased aliasName field r halias hr =>
    have hlookup : stationSources.aliasVisibleMap.lookup aliasName =
        if aliasName = "B" then some "A" else none := Table.lookup_singleton aliasName "B" "A"
    have hname := halias.1
    rw [hlookup] at hname
    split at hname
    · next hB =>
      subst hB
      obtain ⟨-, rfl⟩ := hsource hr
      exact .inr rfl
    · cases hname
  | nearest hne hnearest hno halias =>
    obtain ⟨g, hg, -⟩ := hnearest
    cases hg

theorem well_listed_station : stationSources.WellListed "default" ∧
    listed (stationSources.getSourceListText "default") = ["A", "B"] := by
  have hiff := well_listed_iff (fun _ ↦ some station) (fun _ ↦ some ⟨⟨"B", "A", true⟩, true⟩) ∅ ∅
    stationReplies "default"
  have hplain : stationSources.Plain "default" := by
    intro line hline
    rcases gives_station hline with rfl | rfl
    · exact { STR := rfl, name := by decide, fields := by decide +kernel }
    · exact { STR := rfl, name := by decide, fields := by decide +kernel }
  have hnames {field name : String} (h : stationSources.Shows "default" field name) :
      field = "A" ∧ name = "A" := by
    obtain ⟨hvis, r, hr, rfl⟩ := h
    rcases gives_station (.source hvis hr) with h | h
    · exact ⟨congrArg Line.key h, congrArg (fun line ↦ line.info.mountpoint) h⟩
    · cases congrArg Line.origin h
  refine ⟨(hiff.2 hplain).mpr ?_, by decide +kernel⟩
  refine
    { named := fun field h ↦ absurd (hnames h).2 (by decide)
      distinct := fun field field' name h h' ↦ (hnames h).1.trans (hnames h').1.symm
      allowed := fun field name h ↦ .inl ?_
      aliases := fun aliasName field h hsome ↦ ?_ }
  · rw [(hnames h).2]
    decide
  · obtain ⟨r, hr⟩ := Option.isSome_iff_exists.mp hsome
    rcases gives_station (.aliased h hr) with h | h
    · cases congrArg Line.origin h
    · have hname : aliasName = "B" := congrArg Line.key h
      subst hname
      decide

/-- The record of `A` is no message, so that its name stays empty. -/
def unparsed : Replies where
  records := [("A", "[]")]

theorem not_well_listed : ¬ ∀ (parse : String → Option SourceRecord)
    (decode : String → Option VisibleRule) (accessGroupMap : Table String AccessGroup)
    (accessItemMap : Table String (Table String AccessItem)) (replies : Replies)
    (groupUid : String),
    (load parse decode accessGroupMap accessItemMap replies).WellListed groupUid := by
  intro h
  have hnamed := (h (fun _ ↦ none) (fun _ ↦ none) ∅ ∅ unparsed "default").named
  exact hnamed (by decide +kernel)

end NavCaster.Core.SourceTable
