import NavCaster.Core.Access

namespace NavCaster.Core.Membership

open NavCaster.Library
open NavCaster.Core.Access

def Records (p : AccessPolicy) (group mountPoint : String) : Prop :=
  p.sourceRecordMap.lookup mountPoint = some group ∨
    p.sourceDecodeMap.lookup mountPoint = some group ∨
    (p.item group mountPoint).isSome ∨
    ∃ g, p.accessGroupMap.lookup group = some g ∧ g.nearestMptEnable ∧
      g.nearestMptSourceName = mountPoint

/-- No source names a group, other than the default one, that the search would come to. -/
structure Unclaimed (p : AccessPolicy) (mountPoint : String) : Prop where
  record : ∀ group, p.sourceRecordMap.lookup mountPoint = some group → group = "default"
  decode : ∀ group, p.sourceDecodeMap.lookup mountPoint = some group → group = "default"
  item : ∀ group, p.item group mountPoint = none
  nearest : ∀ group g, p.accessGroupMap.lookup group = some g → g.offersNearest mountPoint = false

/-- The same contents, in whatever order the maps give them. -/
structure SameContents (p q : AccessPolicy) : Prop where
  group : ∀ group, p.accessGroupMap.lookup group = q.accessGroupMap.lookup group
  item : ∀ group mountPoint, p.item group mountPoint = q.item group mountPoint
  record : ∀ mountPoint, p.sourceRecordMap.lookup mountPoint = q.sourceRecordMap.lookup mountPoint
  decode : ∀ mountPoint, p.sourceDecodeMap.lookup mountPoint = q.sourceDecodeMap.lookup mountPoint

variable {p q : AccessPolicy} {group mountPoint : String}

theorem records_of_offersNearest {g : AccessGroup} (h : p.accessGroupMap.lookup group = some g)
    (hg : g.offersNearest mountPoint = true) : Records p group mountPoint := by
  simp only [AccessGroup.offersNearest, Bool.and_eq_true, beq_iff_eq] at hg
  exact .inr (.inr (.inr ⟨g, h, hg.1.1, hg.2⟩))

/-- Whatever the search comes to first, is recorded; and it comes to an end without a result just
for the unclaimed mount points. -/
theorem resolveMountGroup_cases (p : AccessPolicy) (mountPoint : String) :
    Records p (p.resolveMountGroup mountPoint) mountPoint ∧ ¬ Unclaimed p mountPoint ∨
      p.resolveMountGroup mountPoint = "default" ∧ Unclaimed p mountPoint := by
  unfold AccessPolicy.resolveMountGroup
  cases hrecord : (p.sourceRecordMap.lookup mountPoint).filter (· != "default") with
  | some g =>
    obtain ⟨hlookup, hg⟩ := Option.filter_eq_some_iff.mp hrecord
    refine .inl ⟨.inl hlookup, fun h ↦ ?_⟩
    simp [h.record g hlookup] at hg
  | none =>
  dsimp only
  cases hdecode : (p.sourceDecodeMap.lookup mountPoint).filter (· != "default") with
  | some g =>
    obtain ⟨hlookup, hg⟩ := Option.filter_eq_some_iff.mp hdecode
    refine .inl ⟨.inr (.inl hlookup), fun h ↦ ?_⟩
    simp [h.decode g hlookup] at hg
  | none =>
  dsimp only
  cases hitem : (Table.toPairs p.accessItemMap).find? fun g ↦ (g.2.lookup mountPoint).isSome with
  | some g =>
    have hlookup := Table.mem_toPairs.mp (List.mem_of_find?_eq_some hitem)
    have hfound := List.find?_some hitem
    have hsome : (p.item g.1 mountPoint).isSome = true := by
      rw [AccessPolicy.item, hlookup]
      exact hfound
    refine .inl ⟨.inr (.inr (.inl hsome)), fun h ↦ ?_⟩
    rw [h.item g.1] at hsome
    cases hsome
  | none =>
  dsimp only
  cases hnearest : (Table.toPairs p.accessGroupMap).find? fun g ↦ g.2.offersNearest mountPoint with
  | some g =>
    have hlookup := Table.mem_toPairs.mp (List.mem_of_find?_eq_some hnearest)
    have hoffers := List.find?_some hnearest
    refine .inl ⟨records_of_offersNearest hlookup hoffers, fun h ↦ ?_⟩
    rw [h.nearest g.1 g.2 hlookup] at hoffers
    cases hoffers
  | none =>
  refine .inr ⟨rfl, ?_⟩
  exact
    { record := fun group h ↦ by simpa using Option.filter_eq_none_iff.mp hrecord group h
      decode := fun group h ↦ by simpa using Option.filter_eq_none_iff.mp hdecode group h
      item := by
        intro group
        cases hrow : p.accessItemMap.lookup group with
        | none => rw [AccessPolicy.item, hrow]; rfl
        | some row =>
          have hnot := List.find?_eq_none.mp hitem (group, row) (Table.mem_toPairs.mpr hrow)
          rw [AccessPolicy.item, hrow]
          exact Option.not_isSome_iff_eq_none.mp hnot
      nearest := by
        intro group g h
        exact Bool.eq_false_iff.mpr
          (List.find?_eq_none.mp hnearest (group, g) (Table.mem_toPairs.mpr h)) }

theorem isMountInsideGroup_iff (p : AccessPolicy) (groupUid mountPoint : String) :
    p.isMountInsideGroup groupUid mountPoint ↔
      Records p (normalizeAccessGroupUid groupUid) mountPoint ∨
      normalizeAccessGroupUid groupUid = "default" ∧ Unclaimed p mountPoint := by
  have hdirect : p.isMountInsideGroup groupUid mountPoint ↔
      Records p (normalizeAccessGroupUid groupUid) mountPoint ∨
        p.resolveMountGroup mountPoint = normalizeAccessGroupUid groupUid := by
    simp only [AccessPolicy.isMountInsideGroup, Bool.or_eq_true, beq_iff_eq, Records, or_assoc,
      AccessPolicy.item, Option.any_eq_true, Bool.and_eq_true]
  rw [hdirect]
  generalize normalizeAccessGroupUid groupUid = group
  rcases resolveMountGroup_cases p mountPoint with ⟨hrecords, hclaimed⟩ | ⟨hdefault, hunclaimed⟩
  · constructor
    · rintro (h | rfl)
      · exact .inl h
      · exact .inl hrecords
    · exact fun h ↦ .inl (h.resolve_right fun hu ↦ hclaimed hu.2)
  · rw [hdefault, and_iff_left hunclaimed, eq_comm]

theorem SameContents.records_iff (h : SameContents p q) (group mountPoint : String) :
    Records p group mountPoint ↔ Records q group mountPoint := by
  simp only [Records, h.group, h.item, h.record, h.decode]

theorem SameContents.unclaimed (h : SameContents p q) (hp : Unclaimed p mountPoint) :
    Unclaimed q mountPoint where
  record group hq := hp.record group ((h.record mountPoint).trans hq)
  decode group hq := hp.decode group ((h.decode mountPoint).trans hq)
  item group := (h.item group mountPoint).symm.trans (hp.item group)
  nearest group g hq := hp.nearest group g ((h.group group).trans hq)

theorem SameContents.symm (h : SameContents p q) : SameContents q p where
  group group := (h.group group).symm
  item group mountPoint := (h.item group mountPoint).symm
  record mountPoint := (h.record mountPoint).symm
  decode mountPoint := (h.decode mountPoint).symm

theorem SameContents.isMountInsideGroup_eq (h : SameContents p q) (groupUid mountPoint : String) :
    p.isMountInsideGroup groupUid mountPoint = q.isMountInsideGroup groupUid mountPoint := by
  rw [Bool.eq_iff_iff, isMountInsideGroup_iff, isMountInsideGroup_iff, h.records_iff]
  exact or_congr_right (and_congr_right fun _ ↦ ⟨h.unclaimed, h.symm.unclaimed⟩)

theorem normalize_of_ne {group : String} (h : group ≠ "") : normalizeAccessGroupUid group = group :=
  if_neg h

theorem exists_inside (h : ∀ group, Records p group mountPoint → group ≠ "") :
    ∃ groupUid, p.isMountInsideGroup groupUid mountPoint := by
  rcases resolveMountGroup_cases p mountPoint with ⟨hrecords, -⟩ | ⟨-, hunclaimed⟩
  · refine ⟨p.resolveMountGroup mountPoint, (isMountInsideGroup_iff ..).mpr (.inl ?_)⟩
    rwa [normalize_of_ne (h _ hrecords)]
  · exact ⟨"default", (isMountInsideGroup_iff ..).mpr (.inr ⟨rfl, hunclaimed⟩)⟩

def shared (group group' : String) : AccessPolicy where
  accessItemMap :=
    AList.insert group (AList.insert "m" {} ∅) (AList.insert group' (AList.insert "m" {} ∅) ∅)

theorem sameContents_shared (group group' : String) :
    SameContents (shared group group') (shared group' group) := by
  have hitem (uid : String) : (shared group group').accessItemMap.lookup uid =
      (shared group' group).accessItemMap.lookup uid := by
    simp only [shared, Table.lookup_insert_if]
    split_ifs <;> rfl
  exact
    { group := fun _ ↦ rfl
      item := fun uid mountPoint ↦ by rw [AccessPolicy.item, hitem, AccessPolicy.item]
      record := fun _ ↦ rfl
      decode := fun _ ↦ rfl }

/-- The order in which the maps give their entries bears on what the search finds, but not on the
answer; and a mount point of which no empty group is recorded is inside a group. -/
theorem membership :
    (∀ p q, SameContents p q → ∀ groupUid mountPoint,
      p.isMountInsideGroup groupUid mountPoint = q.isMountInsideGroup groupUid mountPoint) ∧
    (∃ p q mountPoint, SameContents p q ∧
      p.resolveMountGroup mountPoint ≠ q.resolveMountGroup mountPoint) ∧
    ∀ p mountPoint, (∀ group, Records p group mountPoint → group ≠ "") →
      ∃ groupUid, p.isMountInsideGroup groupUid mountPoint := by
  refine ⟨fun _ _ h ↦ h.isMountInsideGroup_eq, ?_, fun _ _ ↦ exists_inside⟩
  exact ⟨shared "a" "b", shared "b" "a", "m", sameContents_shared "a" "b", by decide⟩

theorem membership_shared :
    (shared "a" "b").isMountInsideGroup "a" "m" = (shared "b" "a").isMountInsideGroup "a" "m" ∧
      ∃ groupUid, (shared "a" "b").isMountInsideGroup groupUid "m" := by
  refine ⟨membership.1 _ _ (sameContents_shared "a" "b") "a" "m", membership.2.2 _ "m" ?_⟩
  rintro group h rfl
  rcases h with h | h | h | ⟨g, h, -⟩
  · cases h
  · cases h
  · revert h
    decide
  · cases h

end NavCaster.Core.Membership
