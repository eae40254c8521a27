import Nagi.Search

/-! What a caller may not see does not show.

Each query is first shown to read only the visible part of its store. -/

namespace Nagi.Search

open Lib SearchService List

def SearchService.Shows (service : SearchService) (access : AccessContext) (id : Nat) : Prop :=
  ∃ record ∈ service.store.records, record.objectId = id ∧ service.isReadable access record = true

instance (service : SearchService) (access : AccessContext) : DecidablePred (service.Shows access) :=
  fun id => inferInstanceAs
    (Decidable (∃ record ∈ service.store.records, record.objectId = id ∧ service.isReadable access record = true))

/-- Workspaces that agree except for members the caller does not see and sessions they may not read. -/
structure SameView (visibility : VisibilityFilter) (access : AccessContext) (seen : Nat → Prop) [DecidablePred seen]
    (first second : Workspace) : Prop where
  fields : { first with objects := second.objects, sessions := second.sessions } = second
  objects : first.objects.filter (seen ·) = second.objects.filter (seen ·)
  sessions : first.sessions.filter (visibility.canReadWorkspaceSession access first) =
    second.sessions.filter (visibility.canReadWorkspaceSession access second)

/-- All that the caller sees in the left store is in the right one. -/
structure Within (access : AccessContext) (left right : SearchService) : Prop where
  records : ∀ record ∈ left.store.records, left.isReadable access record = true → record ∈ right.store.records
  relations : ∀ relation ∈ left.store.relations, left.Shows access relation.source →
    left.Shows access relation.target → relation ∈ right.store.relations
  workspaces : ∀ workspace ∈ left.store.workspaces, left.visibility.canReadWorkspace access workspace = true →
    ∃ other ∈ right.store.workspaces, left.visibility.canReadWorkspace access other = true ∧
      SameView left.visibility access (left.Shows access) workspace other

/-- Under one policy, the caller sees the same in both stores. -/
structure Alike (access : AccessContext) (left right : SearchService) : Prop where
  policy : left.visibility = right.visibility
  forth : Within access left right
  back : Within access right left

section Traversal
variable {isVisible : Nat → Bool} {direction : RelationDirection} {maxNodes : Nat}

def Relation.between (isVisible : Nat → Bool) (relation : Relation) : Bool :=
  isVisible relation.source && isVisible relation.target

variable {current : Nat}

theorem Relation.between_of_candidate {relation : Relation} {candidate : Nat} (visible : isVisible current)
    (followed : relation.candidate direction current = some candidate) :
    relation.between isVisible = isVisible candidate := by
  cases direction <;> simp only [Relation.candidate] at followed <;> split at followed <;>
    simp_all [Relation.between]

/-- A relation with a hidden end is passed over. -/
theorem scanRelations_filter (visible : isVisible current) (relations : List Relation) (traversal : Traversal) :
    scanRelations isVisible direction maxNodes current (relations.filter (·.between isVisible)) traversal =
      scanRelations isVisible direction maxNodes current relations traversal := by
  induction relations generalizing traversal with
  | nil => rfl
  | cons relation rest ih =>
    cases followed : relation.candidate direction current with
    | none => by_cases kept : relation.between isVisible <;> simp [scanRelations, followed, kept, ih]
    | some candidate =>
      have shown := Relation.between_of_candidate visible followed
      by_cases kept : relation.between isVisible
      · simp [scanRelations, followed, kept, ih]
      · rw [shown] at kept
        simp [scanRelations, followed, shown, kept, ih]

theorem scanRelations_frontier {relations : List Relation} {traversal : Traversal}
    (visible : ∀ id ∈ traversal.nextFrontier, isVisible id) :
    ∀ id ∈ (scanRelations isVisible direction maxNodes current relations traversal).nextFrontier, isVisible id := by
  induction relations generalizing traversal with
  | nil => exact visible
  | cons relation rest ih =>
    unfold scanRelations
    split
    · exact ih visible
    split
    · exact ih visible
    rename_i unseen
    split
    · exact visible
    · refine ih fun id member => ?_
      rcases (mem_orderedInsert _).mp member with rfl | member
      · simpa using (not_or.mp unseen).2
      · exact visible id member

variable {frontier : List Nat}

theorem scanFrontier_filter (visible : ∀ id ∈ frontier, isVisible id) (relations : List Relation)
    (traversal : Traversal) :
    scanFrontier isVisible direction maxNodes (relations.filter (·.between isVisible)) frontier traversal =
      scanFrontier isVisible direction maxNodes relations frontier traversal := by
  induction frontier generalizing traversal with
  | nil => rfl
  | cons current rest ih =>
    obtain ⟨here, later⟩ := forall_mem_cons.mp visible
    rw [scanFrontier, scanRelations_filter here, ih later, scanFrontier]

theorem scanFrontier_frontier {relations : List Relation} {traversal : Traversal}
    (visible : ∀ id ∈ traversal.nextFrontier, isVisible id) :
    ∀ id ∈ (scanFrontier isVisible direction maxNodes relations frontier traversal).nextFrontier, isVisible id := by
  induction frontier generalizing traversal with
  | nil => exact visible
  | cons current rest ih => exact ih (scanRelations_frontier visible)

/-- A hidden object is no bridge: from visible objects the traversal follows only relations between such. -/
theorem traverse_filter (relations : List Relation) (depth : Nat)
    (visible : ∀ id ∈ frontier, isVisible id) (visited results : List Nat) :
    traverse isVisible direction maxNodes (relations.filter (·.between isVisible)) depth frontier visited results =
      traverse isVisible direction maxNodes relations depth frontier visited results := by
  induction depth generalizing frontier visited results with
  | zero => rfl
  | succ depth ih =>
    simp only [traverse, scanFrontier_filter visible]
    split
    · rfl
    · exact ih (scanFrontier_frontier (by simp)) _ _

end Traversal

namespace SearchService

variable {service : SearchService} {access : AccessContext}

theorem visibleObject_eq (id : Nat) : service.visibleObject access id =
    (service.store.records.filter (service.isReadable access)).find? (·.objectId = id) :=
  (service.store.recordsAscending.find?_filter _ id).symm

theorem isSome_visibleObject (id : Nat) :
    (service.visibleObject access id).isSome = decide (service.Shows access id) := by
  rw [Bool.eq_iff_iff, decide_eq_true_eq, visibleObject_eq, find?_isSome]
  simp [Shows, and_comm, and_left_comm]

theorem visible_of_readable {record : MetadataRecord} (member : record ∈ service.store.records)
    (readable : service.isReadable access record) : (service.visibleObject access record.objectId).isSome := by
  rw [isSome_visibleObject, decide_eq_true_eq]
  exact ⟨record, member, rfl, readable⟩

def views (service : SearchService) (access : AccessContext) : List Workspace :=
  (service.store.workspaces.filter (service.visibility.canReadWorkspace access)).map (service.retainVisible access)

theorem getWorkspace_eq (id : Nat) :
    service.getWorkspace access id = (service.views access).find? (·.workspaceId = id) := by
  rw [views, find?_map]
  exact congrArg (Option.map _) (service.store.workspacesAscending.find?_filter _ id).symm

theorem visibleRelationMatches_filter (related : Nat) (query : SearchQuery) :
    service.visibleRelationMatches access related query =
      (service.store.relations.filter
          (·.between fun id => (service.visibleObject access id).isSome)).foldl
        (service.addRelationMatch access related query) fun _ => [] := by
  rw [foldl_filter, visibleRelationMatches]
  congr 1
  funext found relation
  simp only [addRelationMatch]
  cases followed : relation.candidate query.relationDirection related with
  | none => simp
  | some candidate =>
    by_cases visible : (service.visibleObject access related).isSome
    · have ends : relation.between (fun id => (service.visibleObject access id).isSome) =
          (service.visibleObject access candidate).isSome := Relation.between_of_candidate visible followed
      simp only [ends, visible, Bool.and_true]
      split <;> rfl
    · simp [visible]

section
variable {toLowercase : String → String} {query : SearchQuery}

theorem matchObject_record {record : MetadataRecord} {relationMatches : List SearchMatch} {hit : SearchHit}
    (matched : matchObject toLowercase record query relationMatches = some hit) : hit.record = record := by
  simp only [matchObject, Option.bind_eq_bind, Option.bind_eq_some_iff, Option.some.injEq] at matched
  obtain ⟨_, _, _, _, _, _, _, _, _, _, _, _, _, _, rfl⟩ := matched
  rfl

theorem visible_of_hit {scope : Option Workspace} {related : Option MetadataRecord} {hit : SearchHit}
    (found : hit ∈ service.objectHits access toLowercase query scope related) :
    (service.visibleObject access hit.record.objectId).isSome := by
  obtain ⟨record, selected, matched⟩ := mem_filterMap.mp found
  obtain ⟨member, readable⟩ := mem_filter.mp selected
  repeat' split at matched
  · cases matched
  · cases matched
  · rw [matchObject_record matched]
    exact visible_of_readable member readable

theorem objectHits_retainVisible (scope : Option Workspace) (related : Option MetadataRecord) :
    service.objectHits access toLowercase query (scope.map (service.retainVisible access)) related =
      service.objectHits access toLowercase query scope related := by
  refine filterMap_congr fun record selected => ?_
  obtain ⟨member, readable⟩ := mem_filter.mp selected
  have visible := visible_of_readable member readable
  cases scope with
  | none => rfl
  | some workspace => simp [retainVisible, visible]

theorem workspaceHits_eq : service.workspaceHits access toLowercase query =
    if query.kind.isNone ∧ query.relatedTo.isNone then
      (service.views access).filterMap (matchWorkspace toLowercase · query)
    else [] := by
  rw [views, filterMap_map]
  rfl

theorem groupMembers_retainVisible {objects : List SearchHit}
    (visible : ∀ hit ∈ objects, (service.visibleObject access hit.record.objectId).isSome) (workspace : Workspace) :
    groupMembers objects (service.retainVisible access workspace) = groupMembers objects workspace := by
  simp only [groupMembers, retainVisible, filter_filter]
  congr 1
  refine filter_congr fun id _ => ?_
  by_cases found : id ∈ objects.map (·.record.objectId)
  · obtain ⟨hit, member, rfl⟩ := mem_map.mp found
    simp [visible hit member]
  · simp [found]

def groupOf (query : SearchQuery) (objects : List SearchHit) (workspace : Workspace) : Option WorkspaceGroup :=
  if query.workspace.any (· ≠ workspace.workspaceId) then none
  else
    let objectIds := groupMembers objects workspace
    if objectIds = [] then none
    else some { workspaceId := workspace.workspaceId, title := workspace.title, objectIds }

theorem workspaceGroups_eq {objects : List SearchHit}
    (visible : ∀ hit ∈ objects, (service.visibleObject access hit.record.objectId).isSome) :
    service.workspaceGroups access query objects =
      ((service.views access).filterMap (groupOf query objects)).mergeSort
        fun left right => left.workspaceId ≤ right.workspaceId := by
  rw [views, filterMap_map, workspaceGroups]
  congr 2
  funext workspace
  simp only [Function.comp_apply, groupOf, groupMembers_retainVisible visible]
  rfl

end

end SearchService

namespace Alike

variable {access : AccessContext} {left right : SearchService}

section
variable (alike : Alike access left right)
include alike

theorem symm : Alike access right left :=
  ⟨alike.policy.symm, alike.back, alike.forth⟩

theorem isReadable : left.isReadable access = right.isReadable access := by
  funext record
  rw [SearchService.isReadable, alike.policy, SearchService.isReadable]

theorem readable :
    left.store.records.filter (left.isReadable access) = right.store.records.filter (right.isReadable access) := by
  refine (left.store.recordsAscending.filter _).ext (right.store.recordsAscending.filter _) fun record => ?_
  rw [mem_filter, mem_filter, ← alike.isReadable]
  constructor
  · rintro ⟨member, readable⟩
    exact ⟨alike.forth.records record member readable, readable⟩
  · rintro ⟨member, readable⟩
    exact ⟨alike.back.records record member (alike.isReadable ▸ readable), readable⟩

theorem visibleObject : left.visibleObject access = right.visibleObject access := by
  funext id
  rw [visibleObject_eq, visibleObject_eq, alike.readable]

theorem shows {id : Nat} : left.Shows access id ↔ right.Shows access id := by
  rw [← decide_eq_decide, ← isSome_visibleObject, ← isSome_visibleObject, alike.visibleObject]

theorem between : left.store.relations.filter (·.between fun id => (left.visibleObject access id).isSome) =
      right.store.relations.filter (·.between fun id => (right.visibleObject access id).isSome) := by
  refine (left.store.relationsAscending.filter _).ext (right.store.relationsAscending.filter _) fun relation => ?_
  simp only [mem_filter, Relation.between, isSome_visibleObject, Bool.and_eq_true, decide_eq_true_eq]
  constructor
  · rintro ⟨member, source, target⟩
    exact ⟨alike.forth.relations relation member source target, alike.shows.mp source, alike.shows.mp target⟩
  · rintro ⟨member, source, target⟩
    exact ⟨alike.back.relations relation member source target, alike.shows.mpr source, alike.shows.mpr target⟩

theorem retainVisible {workspace other : Workspace}
    (same : SameView left.visibility access (left.Shows access) workspace other) :
    left.retainVisible access workspace = right.retainVisible access other := by
  obtain ⟨fields, objects, sessions⟩ := same
  simp only [SearchService.retainVisible, ← alike.visibleObject, ← alike.policy, isSome_visibleObject]
  rw [objects, sessions, ← fields]

theorem mem_views {workspace : Workspace} (member : workspace ∈ left.views access) :
    workspace ∈ right.views access := by
  obtain ⟨stored, selected, rfl⟩ := mem_map.mp member
  obtain ⟨kept, readable⟩ := mem_filter.mp selected
  obtain ⟨other, counterpart, visible, same⟩ := alike.forth.workspaces stored kept readable
  rw [alike.retainVisible same]
  exact mem_map_of_mem (mem_filter.mpr ⟨counterpart, alike.policy ▸ visible⟩)

theorem views : left.views access = right.views access := by
  have ascending (service : SearchService) : Ascending Workspace.workspaceId (service.views access) :=
    (service.store.workspacesAscending.filter _).map fun _ => rfl
  exact (ascending left).ext (ascending right) fun _ => ⟨alike.mem_views, alike.symm.mem_views⟩

theorem getWorkspace (id : Nat) : left.getWorkspace access id = right.getWorkspace access id := by
  rw [getWorkspace_eq, getWorkspace_eq, alike.views]

theorem visibleRelationMatches (related : Nat) (query : SearchQuery) :
    left.visibleRelationMatches access related query = right.visibleRelationMatches access related query := by
  have step : left.addRelationMatch access related query = right.addRelationMatch access related query := by
    funext found relation
    simp only [addRelationMatch, alike.visibleObject]
  rw [visibleRelationMatches_filter, visibleRelationMatches_filter, step, alike.between]

end

variable {toLowercase : String → String} {query : SearchQuery}

section
variable (alike : Alike access left right)
include alike

theorem objectHits (scope : Option Workspace) (related : Option MetadataRecord) :
    left.objectHits access toLowercase query scope related =
      right.objectHits access toLowercase query scope related := by
  have reasons : left.relationMatches access query related = right.relationMatches access query related := by
    funext id
    simp only [relationMatches, alike.visibleRelationMatches]
  rw [SearchService.objectHits, reasons, alike.readable, SearchService.objectHits]

theorem respond {scope other : Option Workspace}
    (same : scope.map (left.retainVisible access) = other.map (right.retainVisible access))
    (related : Option MetadataRecord) :
    left.respond access toLowercase query scope related = right.respond access toLowercase query other related := by
  have hits : left.objectHits access toLowercase query scope related =
      right.objectHits access toLowercase query other related := by
    rw [← objectHits_retainVisible, same, alike.objectHits, objectHits_retainVisible]
  have visible (service : SearchService) (scope : Option Workspace) : ∀ hit ∈
      (sortHits toLowercase (service.objectHits access toLowercase query scope related) query.sort).take query.limit,
      (service.visibleObject access hit.record.objectId).isSome := by
    intro hit taken
    exact visible_of_hit (mem_mergeSort.mp (mem_of_mem_take taken))
  simp only [SearchService.respond, workspaceHits_eq, workspaceGroups_eq (visible _ _)]
  rw [hits, alike.views]

theorem search : left.search access toLowercase query = right.search access toLowercase query := by
  have scopes : (resolve query.workspace (left.visibleWorkspace access)).map
        (Option.map (left.retainVisible access)) =
      (resolve query.workspace (right.visibleWorkspace access)).map
        (Option.map (right.retainVisible access)) := by
    cases query.workspace with
    | none => rfl
    | some id =>
      have same := congrArg (Option.map some) (alike.getWorkspace id)
      simp only [SearchService.getWorkspace, Option.map_map] at same
      simp only [resolve, Option.map_map]
      exact same
  simp only [SearchService.search, alike.visibleObject]
  generalize resolve query.workspace (left.visibleWorkspace access) = scope at scopes ⊢
  generalize resolve query.workspace (right.visibleWorkspace access) = other at scopes ⊢
  cases scope with
  | none =>
    rw [Option.map_none, eq_comm, Option.map_eq_none_iff] at scopes
    rw [scopes]
  | some scope =>
    obtain ⟨counterpart, rfl, same⟩ := Option.map_eq_some_iff.mp scopes.symm
    simp only [alike.respond same.symm]

theorem relatedObjects (start : Nat) (direction : RelationDirection) (maxDepth maxNodes : Nat) :
    left.relatedObjects access start direction maxDepth maxNodes =
      right.relatedObjects access start direction maxDepth maxNodes := by
  have relations := alike.between
  simp only [SearchService.relatedObjects]
  rw [alike.visibleObject] at relations ⊢
  split
  · rfl
  split
  · rfl
  · rename_i visible
    have started : ∀ id ∈ [start], (right.visibleObject access id).isSome := by
      simpa [← Option.ne_none_iff_isSome] using visible
    rw [← traverse_filter _ _ started, ← traverse_filter right.store.relations _ started, relations]

end

end Alike

/-- What the caller does not see changes no answer: whether it is there or not, no query, no lookup and no traversal
tells two such stores apart. -/
theorem hidden_metadata_unobservable (toLowercase : String → String) (access : AccessContext)
    (left right : SearchService) (alike : Alike access left right) :
    (∀ query, left.search access toLowercase query = right.search access toLowercase query) ∧
    (∀ objectId, left.getObject access objectId = right.getObject access objectId) ∧
    (∀ workspaceId, left.getWorkspace access workspaceId = right.getWorkspace access workspaceId) ∧
    ∀ start direction maxDepth maxNodes,
      left.relatedObjects access start direction maxDepth maxNodes =
        right.relatedObjects access start direction maxDepth maxNodes :=
  ⟨fun _ => alike.search, fun _ => congrFun alike.visibleObject _, alike.getWorkspace, alike.relatedObjects⟩

section Witness

private def publicOnly : VisibilityFilter where
  canReadObject _ record := record.visibility = .isPublic
  canReadWorkspace _ _ := true
  canReadWorkspaceSession _ _ _ := false

private def page : MetadataRecord := { objectId := 1, kind := .page, title := "Harbour", visibility := .isPublic }

private def note : MetadataRecord := { objectId := 2, kind := .note, title := "Harbour, for me" }

private def withNote : StoreState where
  records := [page, note]
  relations := [⟨1, .references, 2, .user⟩]
  workspaces := [{ workspaceId := 5, title := "Trip", objects := [1, 2] }]
  recordsAscending := by decide
  relationsAscending := pairwise_singleton _ _
  workspacesAscending := pairwise_singleton _ _

private def withoutNote : StoreState where
  records := [page]
  relations := []
  workspaces := [{ workspaceId := 5, title := "Trip", objects := [1] }]
  recordsAscending := pairwise_singleton _ _
  relationsAscending := List.Pairwise.nil
  workspacesAscending := pairwise_singleton _ _

private theorem note_hidden : Alike ⟨none, none⟩ ⟨withNote, publicOnly⟩ ⟨withoutNote, publicOnly⟩ := by
  constructor
  · rfl
  all_goals
    refine ⟨by decide, by decide, ?_⟩
    simp only [withNote, withoutNote, mem_singleton, exists_eq_left]
    rintro _ rfl -
    exact ⟨rfl, rfl, by decide, rfl⟩

/-- A private note with the same title, linked from the page and kept in the same workspace, does not show. -/
theorem note_unobservable :
    search ⟨withNote, publicOnly⟩ ⟨none, none⟩ (·.map Char.toLower) { text := some "harbour" } =
      search ⟨withoutNote, publicOnly⟩ ⟨none, none⟩ (·.map Char.toLower) { text := some "harbour" } ∧
    relatedObjects ⟨withNote, publicOnly⟩ ⟨none, none⟩ 1 .either 2 4 =
      relatedObjects ⟨withoutNote, publicOnly⟩ ⟨none, none⟩ 1 .either 2 4 := by
  have same := hidden_metadata_unobservable (·.map Char.toLower) ⟨none, none⟩ _ _ note_hidden
  exact ⟨same.1 _, same.2.2.2 1 .either 2 4⟩

end Witness

end Nagi.Search
