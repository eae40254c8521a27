import Mathlib.Data.List.Infix
import Mathlib.Data.Prod.Lex
import Nagi.Lib.Keyed
import Nagi.Lib.Text

/-! The metadata search service.

An ordered map is the list of its values in the order of their keys. Full lower-casing of a text is a parameter. -/

namespace Nagi.Search

open Lib

def maxSearchResults : Nat := 1000
def maxRelationDepth : Nat := 8
def maxRelationNodes : Nat := 256

inductive ModelError where
  | emptyTag
  | emptyAttributeKey
  | invalidTimeRange
  | emptyTextQuery
  | searchLimitExceeded
  deriving DecidableEq

inductive SearchError where
  | invalidModel (error : ModelError)
  | invalidTraversalBound
  deriving DecidableEq

inductive ObjectKind where
  | file
  | page
  | note
  | applicationData
  | other
  deriving DecidableEq

inductive VisibilityScope where
  | isPublic
  | sourceApplication
  | isPrivate
  deriving DecidableEq

structure MetadataRecord where
  objectId : Nat
  kind : ObjectKind
  title : String
  location : Option String := none
  sourceApp : Option Nat := none
  sourceSession : Option Nat := none
  createdAt : Option Int := none
  modifiedAt : Option Int := none
  observedAt : Option Int := none
  tags : List String := []
  attributes : List (String × String) := []
  visibility : VisibilityScope := .isPrivate
  tombstonedAt : Option Int := none
  deriving DecidableEq

inductive RelationKind where
  | relatedTo
  | contains
  | derivedFrom
  | references
  deriving DecidableEq

def RelationKind.code : RelationKind → Nat
  | relatedTo => 1
  | contains => 2
  | derivedFrom => 3
  | references => 4

inductive RelationProvenance where
  | user
  | application
  | aiSuggestion
  deriving DecidableEq

def RelationProvenance.code : RelationProvenance → Nat
  | user => 1
  | application => 2
  | aiSuggestion => 3

structure Relation where
  source : Nat
  kind : RelationKind
  target : Nat
  provenance : RelationProvenance
  deriving DecidableEq

/-- Relations are ordered field by field. -/
def Relation.rank (relation : Relation) : Nat ×ₗ Nat ×ₗ Nat ×ₗ Nat :=
  toLex (relation.source, toLex (relation.kind.code, toLex (relation.target, relation.provenance.code)))

structure WorkspaceSession where
  appId : Nat
  sessionId : Nat
  deriving DecidableEq

structure Workspace where
  workspaceId : Nat
  title : String
  ownerApp : Option Nat := none
  visibility : VisibilityScope := .isPrivate
  createdAt : Option Int := none
  modifiedAt : Option Int := none
  tags : List String := []
  attributes : List (String × String) := []
  sessions : List WorkspaceSession := []
  objects : List Nat := []
  deriving DecidableEq

structure AccessContext where
  appId : Option Nat
  appSessionId : Option Nat

/-- The caller's authority, as far as it depends on nothing but the caller and what is asked for. -/
structure VisibilityFilter where
  canReadObject : AccessContext → MetadataRecord → Bool
  canReadWorkspace : AccessContext → Workspace → Bool
  canReadWorkspaceSession : AccessContext → Workspace → WorkspaceSession → Bool

structure StoreState where
  records : List MetadataRecord
  relations : List Relation
  workspaces : List Workspace
  recordsAscending : Ascending MetadataRecord.objectId records
  relationsAscending : Ascending Relation.rank relations
  workspacesAscending : Ascending Workspace.workspaceId workspaces

namespace StoreState

def record (store : StoreState) (id : Nat) : Option MetadataRecord := store.records.find? (·.objectId = id)

def workspace (store : StoreState) (id : Nat) : Option Workspace := store.workspaces.find? (·.workspaceId = id)

end StoreState

structure SearchTimeRange where
  «from» : Option Int
  through : Option Int

namespace SearchTimeRange

def validate (range : SearchTimeRange) : Except ModelError Unit :=
  match range.from, range.through with
  | some first, some last => if first > last then .error .invalidTimeRange else .ok ()
  | _, _ => .ok ()

def contains (range : SearchTimeRange) : Option Int → Bool
  | none => false
  | some value => range.from.all (· ≤ value) && range.through.all (value ≤ ·)

end SearchTimeRange

inductive RelationDirection where
  | either
  | outgoing
  | incoming
  deriving DecidableEq

inductive SearchSort where
  | relevance
  | modifiedNewest
  | titleAscending
  | objectIdAscending

structure AttributeMatch where
  key : String
  value : String

structure SearchQuery where
  text : Option String := none
  kind : Option ObjectKind := none
  sourceApp : Option Nat := none
  workspace : Option Nat := none
  tagsAny : List String := []
  attributesAll : List AttributeMatch := []
  created : Option SearchTimeRange := none
  modified : Option SearchTimeRange := none
  observed : Option SearchTimeRange := none
  relatedTo : Option Nat := none
  relationDirection : RelationDirection := .either
  sort : SearchSort := .relevance
  limit : Nat := maxSearchResults

inductive SearchMatch where
  | titleExact
  | titlePrefix
  | titleSubstring
  | tag (text : String)
  | attribute (key : String)
  | kind
  | sourceApplication
  | workspace (id : Nat)
  | createdTime
  | modifiedTime
  | observedTime
  | relation (kind : RelationKind) (provenance : RelationProvenance)
  deriving DecidableEq

structure SearchHit where
  record : MetadataRecord
  rationale : List SearchMatch

structure WorkspaceHit where
  workspaceId : Nat
  title : String
  modifiedAt : Option Int
  rationale : List SearchMatch

structure WorkspaceGroup where
  workspaceId : Nat
  title : String
  objectIds : List Nat

structure SearchResponse where
  objects : List SearchHit := []
  workspaces : List WorkspaceHit := []
  workspaceGroups : List WorkspaceGroup := []

def isBlank (text : String) : Bool := text.toList.all Text.isWhitespace

def eqIgnoreAsciiCase (first second : String) : Bool :=
  first.toList.map Char.toLower = second.toList.map Char.toLower

def validateQuery (query : SearchQuery) : Except SearchError Unit := do
  if query.limit > maxSearchResults then throw (.invalidModel .searchLimitExceeded)
  if query.text.any isBlank then throw (.invalidModel .emptyTextQuery)
  if query.tagsAny.any isBlank then throw (.invalidModel .emptyTag)
  if query.attributesAll.any (isBlank ·.key) then throw (.invalidModel .emptyAttributeKey)
  for range in [query.created, query.modified, query.observed].reduceOption do
    range.validate.mapError .invalidModel

section Matching
variable (toLowercase : String → String)

def containsText (text needle : String) : Bool := needle.toList <:+: (toLowercase text).toList

def matchTitle (title needle : String) : Option SearchMatch :=
  let title := toLowercase title
  if title = needle then some .titleExact
  else if needle.toList <+: title.toList then some .titlePrefix
  else if needle.toList <:+: title.toList then some .titleSubstring
  else none

def matchLabels (tags : List String) (attributes : List (String × String)) (needle : String) : List SearchMatch :=
  (tags.filter (containsText toLowercase · needle)).map .tag ++
    (attributes.filter fun (key, value) =>
      containsText toLowercase key needle || containsText toLowercase value needle).map (.attribute ·.1)

def matchTags (tags : List String) (query : SearchQuery) : Option (List SearchMatch) :=
  if query.tagsAny = [] then some []
  else
    let matched := query.tagsAny.filter fun needle => tags.any (eqIgnoreAsciiCase · needle)
    if matched = [] then none else some (matched.map .tag)

def matchAttributes (attributes : List (String × String)) (query : SearchQuery) : Option (List SearchMatch) :=
  query.attributesAll.mapM fun wanted =>
    if attributes.any fun (key, value) => eqIgnoreAsciiCase key wanted.key && eqIgnoreAsciiCase value wanted.value
    then some (.attribute wanted.key)
    else none

def matchTime (range : Option SearchTimeRange) (value : Option Int) (reason : SearchMatch) :
    Option (List SearchMatch) :=
  match range with
  | none => some []
  | some range => if range.contains value then some [reason] else none

def matchObjectText (record : MetadataRecord) : Option String → Option (List SearchMatch)
  | none => some []
  | some text =>
    let needle := toLowercase text
    let matched := (matchTitle toLowercase record.title needle).toList ++
      matchLabels toLowercase record.tags record.attributes needle
    if matched = [] then none else some matched

def matchObject (record : MetadataRecord) (query : SearchQuery) (relationMatches : List SearchMatch) :
    Option SearchHit := do
  guard (query.kind.all (· = record.kind) && query.sourceApp.all (record.sourceApp = some ·))
  let byText ← matchObjectText toLowercase record query.text
  let byKind := if query.kind.isSome then [SearchMatch.kind] else []
  let byApp := if query.sourceApp.isSome then [SearchMatch.sourceApplication] else []
  let byTags ← matchTags record.tags query
  let byAttributes ← matchAttributes record.attributes query
  let byCreated ← matchTime query.created record.createdAt .createdTime
  let byModified ← matchTime query.modified record.modifiedAt .modifiedTime
  let byObserved ← matchTime query.observed record.observedAt .observedTime
  let byWorkspace := query.workspace.toList.map .workspace
  some {
    record
    rationale := byText ++ byKind ++ byApp ++ byTags ++ byAttributes ++ byCreated ++ byModified ++ byObserved ++
      byWorkspace ++ relationMatches }

/-- The labels of a workspace count only where its title does not match. -/
def matchWorkspaceText (workspace : Workspace) : Option String → Option (List SearchMatch)
  | none => some []
  | some text =>
    let needle := toLowercase text
    match matchTitle toLowercase workspace.title needle with
    | some found => some [found]
    | none =>
      let matched := matchLabels toLowercase workspace.tags workspace.attributes needle
      if matched = [] then none else some matched

def matchWorkspace (workspace : Workspace) (query : SearchQuery) : Option WorkspaceHit := do
  guard (query.workspace.all (· = workspace.workspaceId) && query.sourceApp.all (workspace.ownerApp = some ·))
  let byText ← matchWorkspaceText toLowercase workspace query.text
  let byApp := if query.sourceApp.isSome then [SearchMatch.sourceApplication] else []
  let byTags ← matchTags workspace.tags query
  let byAttributes ← matchAttributes workspace.attributes query
  let byCreated ← matchTime query.created workspace.createdAt .createdTime
  let byModified ← matchTime query.modified workspace.modifiedAt .modifiedTime
  some {
    workspaceId := workspace.workspaceId
    title := workspace.title
    modifiedAt := workspace.modifiedAt
    rationale := byText ++ byApp ++ byTags ++ byAttributes ++ byCreated ++ byModified }

def relevance (rationale : List SearchMatch) : Nat :=
  if SearchMatch.titleExact ∈ rationale then 4
  else if SearchMatch.titlePrefix ∈ rationale then 3
  else if SearchMatch.titleSubstring ∈ rationale then 2
  else 1

def compareHits (sort : SearchSort) (left right : SearchHit) : Ordering :=
  match sort with
  | .relevance =>
    ((compare (relevance right.rationale) (relevance left.rationale)).then
      (compare right.record.modifiedAt left.record.modifiedAt)).then
      (compare left.record.objectId right.record.objectId)
  | .modifiedNewest =>
    (compare right.record.modifiedAt left.record.modifiedAt).then (compare left.record.objectId right.record.objectId)
  | .titleAscending =>
    (compare (toLowercase left.record.title) (toLowercase right.record.title)).then
      (compare left.record.objectId right.record.objectId)
  | .objectIdAscending => compare left.record.objectId right.record.objectId

def sortHits (hits : List SearchHit) (sort : SearchSort) : List SearchHit :=
  hits.mergeSort fun left right => (compareHits toLowercase sort left right).isLE

def compareWorkspaceHits (sort : SearchSort) (left right : WorkspaceHit) : Ordering :=
  let byTitle := compare (toLowercase left.title) (toLowercase right.title)
  let ordering := match sort with
    | .relevance => (compare (relevance right.rationale) (relevance left.rationale)).then byTitle
    | .modifiedNewest => (compare right.modifiedAt left.modifiedAt).then byTitle
    | .titleAscending => byTitle
    | .objectIdAscending => .eq
  ordering.then (compare left.workspaceId right.workspaceId)

def sortWorkspaceHits (hits : List WorkspaceHit) (sort : SearchSort) : List WorkspaceHit :=
  hits.mergeSort fun left right => (compareWorkspaceHits toLowercase sort left right).isLE

end Matching

/-- The other end of a relation, followed from an object in the given direction. -/
def Relation.candidate (relation : Relation) (direction : RelationDirection) (current : Nat) : Option Nat :=
  match direction with
  | .either =>
    if relation.source = current then some relation.target
    else if relation.target = current then some relation.source
    else none
  | .outgoing => if relation.source = current then some relation.target else none
  | .incoming => if relation.target = current then some relation.source else none

structure Traversal where
  visited : List Nat
  nextFrontier : List Nat
  results : List Nat

/-- The relations of one object of the frontier; a full result ends the scan. -/
def scanRelations (isVisible : Nat → Bool) (direction : RelationDirection) (maxNodes current : Nat) :
    List Relation → Traversal → Traversal
  | [], traversal => traversal
  | relation :: rest, traversal =>
    match relation.candidate direction current with
    | none => scanRelations isVisible direction maxNodes current rest traversal
    | some candidate =>
      if candidate ∈ traversal.visited ∨ !isVisible candidate then
        scanRelations isVisible direction maxNodes current rest traversal
      else if traversal.results.length ≥ maxNodes then traversal
      else
        scanRelations isVisible direction maxNodes current rest {
          visited := candidate :: traversal.visited
          nextFrontier := traversal.nextFrontier.orderedInsert (· ≤ ·) candidate
          results := traversal.results ++ [candidate] }

def scanFrontier (isVisible : Nat → Bool) (direction : RelationDirection) (maxNodes : Nat) (relations : List Relation) :
    List Nat → Traversal → Traversal
  | [], traversal => traversal
  | current :: rest, traversal =>
    scanFrontier isVisible direction maxNodes relations rest
      (scanRelations isVisible direction maxNodes current relations traversal)

def traverse (isVisible : Nat → Bool) (direction : RelationDirection) (maxNodes : Nat) (relations : List Relation) :
    Nat → List Nat → List Nat → List Nat → List Nat
  | 0, _, _, results => results
  | depth + 1, frontier, visited, results =>
    let round := scanFrontier isVisible direction maxNodes relations frontier
      { visited, nextFrontier := [], results }
    if round.nextFrontier = [] ∨ round.results.length ≥ maxNodes then round.results
    else traverse isVisible direction maxNodes relations depth round.nextFrontier round.visited round.results

structure SearchService where
  store : StoreState
  visibility : VisibilityFilter

namespace SearchService

variable (service : SearchService) (access : AccessContext)

/-- The check made of every stored record before anything else is read of it. -/
def isReadable (record : MetadataRecord) : Bool :=
  record.tombstonedAt.isNone && service.visibility.canReadObject access record

def visibleObject (id : Nat) : Option MetadataRecord :=
  (service.store.record id).filter (service.isReadable access)

def visibleWorkspace (id : Nat) : Option Workspace :=
  (service.store.workspace id).filter (service.visibility.canReadWorkspace access)

def getObject (objectId : Nat) : Option MetadataRecord := service.visibleObject access objectId

/-- A workspace with the members and sessions that the caller may see. -/
def retainVisible (workspace : Workspace) : Workspace :=
  { workspace with
    objects := workspace.objects.filter fun id => (service.visibleObject access id).isSome
    sessions := workspace.sessions.filter (service.visibility.canReadWorkspaceSession access workspace) }

def getWorkspace (workspaceId : Nat) : Option Workspace :=
  (service.visibleWorkspace access workspaceId).map (service.retainVisible access)

def addRelationMatch (related : Nat) (query : SearchQuery) (found : Nat → List SearchMatch) (relation : Relation) :
    Nat → List SearchMatch :=
  match relation.candidate query.relationDirection related with
  | none => found
  | some candidate =>
    if (service.visibleObject access candidate).isSome && (service.visibleObject access related).isSome then
      Function.update found candidate (found candidate ++ [.relation relation.kind relation.provenance])
    else found

/-- The reasons by which each object is related to the given one, in the order of the relations. -/
def visibleRelationMatches (related : Nat) (query : SearchQuery) : Nat → List SearchMatch :=
  service.store.relations.foldl (service.addRelationMatch access related query) fun _ => []

def relationMatches (query : SearchQuery) (relatedRecord : Option MetadataRecord) (id : Nat) : List SearchMatch :=
  match relatedRecord with
  | none => []
  | some related => service.visibleRelationMatches access related.objectId query id

variable (toLowercase : String → String)

def objectHits (query : SearchQuery) (scopedWorkspace : Option Workspace) (relatedRecord : Option MetadataRecord) :
    List SearchHit :=
  (service.store.records.filter (service.isReadable access)).filterMap fun record =>
    if scopedWorkspace.any (record.objectId ∉ ·.objects) then none
    else if relatedRecord.isSome ∧ service.relationMatches access query relatedRecord record.objectId = [] then none
    else matchObject toLowercase record query (service.relationMatches access query relatedRecord record.objectId)

def workspaceHits (query : SearchQuery) : List WorkspaceHit :=
  if query.kind.isNone ∧ query.relatedTo.isNone then
    (service.store.workspaces.filter (service.visibility.canReadWorkspace access)).filterMap
      (matchWorkspace toLowercase · query)
  else []

def groupMembers (objects : List SearchHit) (workspace : Workspace) : List Nat :=
  let found := objects.map (·.record.objectId)
  (workspace.objects.filter (· ∈ found)).mergeSort fun left right => found.idxOf left ≤ found.idxOf right

def workspaceGroups (query : SearchQuery) (objects : List SearchHit) : List WorkspaceGroup :=
  let groups := (service.store.workspaces.filter (service.visibility.canReadWorkspace access)).filterMap
    fun workspace =>
      if query.workspace.any (· ≠ workspace.workspaceId) then none
      else
        let objectIds := groupMembers objects workspace
        if objectIds = [] then none
        else some { workspaceId := workspace.workspaceId, title := workspace.title, objectIds }
  groups.mergeSort fun left right => left.workspaceId ≤ right.workspaceId

/-- What a query names, if it names something; nothing if the caller does not see that. -/
def resolve {α : Type} (wanted : Option Nat) (find : Nat → Option α) : Option (Option α) :=
  match wanted with
  | none => some none
  | some id => (find id).map some

def respond (query : SearchQuery) (scopedWorkspace : Option Workspace) (relatedRecord : Option MetadataRecord) :
    SearchResponse :=
  let objects :=
    (sortHits toLowercase (service.objectHits access toLowercase query scopedWorkspace relatedRecord) query.sort).take
      query.limit
  let workspaces :=
    (sortWorkspaceHits toLowercase (service.workspaceHits access toLowercase query) query.sort).take query.limit
  { objects, workspaces, workspaceGroups := service.workspaceGroups access query objects }

def search (query : SearchQuery) : Except SearchError SearchResponse := do
  validateQuery query
  if query.limit = 0 then return {}
  let some scopedWorkspace := resolve query.workspace (service.visibleWorkspace access) | return {}
  let some relatedRecord := resolve query.relatedTo (service.visibleObject access) | return {}
  return service.respond access toLowercase query scopedWorkspace relatedRecord

def relatedObjects (start : Nat) (direction : RelationDirection) (maxDepth maxNodes : Nat) :
    Except SearchError (List Nat) :=
  if maxDepth = 0 ∨ maxDepth > maxRelationDepth ∨ maxNodes = 0 ∨ maxNodes > maxRelationNodes then
    .error .invalidTraversalBound
  else if (service.visibleObject access start).isNone then .ok []
  else
    .ok (traverse (fun id => (service.visibleObject access id).isSome) direction maxNodes service.store.relations
      maxDepth [start] [start] [])

end SearchService

end Nagi.Search
