import Nagi.Lib.Checks
import Nagi.Lib.Runs
import Nagi.Lib.Slots
import Nagi.Lib.Text

/-! The supervisor's registry of manifests, launches and consent decisions. -/

namespace Nagi.Launch

open Lib

def maxAppManifests : Nat := 8
def maxLiveLaunches : Nat := 4
def maxConsentDecisions : Nat := 16
def maxPendingConsents : Nat := 4
def maxGrantName : Nat := 32

inductive LaunchError where
  | invalidManifest
  | duplicateManifest
  | manifestTableFull
  | conflictingManifest
  | unknownApplication
  | processAlreadyLaunched
  | sessionAlreadyLive
  | launchTableFull
  | initProcess
  | consentUnavailable
  | sessionNotLive
  | consentTableFull
  | noPendingConsent
  deriving DecidableEq

inductive DecisionStoreError where
  | malformed
  | launch (error : LaunchError)
  deriving DecidableEq

inductive GrantDecision where
  | ask
  | allow
  | allowOnce (session : UInt64)
  | deny
  deriving DecidableEq

inductive GrantCheck where
  | granted
  | notLive
  | notDeclared
  | consentRequired
  | denied
  deriving DecidableEq

abbrev Name := List UInt8

def Name.parse (value : List UInt8) (limit : Nat) : Except LaunchError Name :=
  let isLower (byte : UInt8) : Bool := 0x61 ≤ byte ∧ byte ≤ 0x7a
  let isPart (byte : UInt8) : Bool := isLower byte ∨ 0x30 ≤ byte ∧ byte ≤ 0x39 ∨ byte ∈ [0x2e, 0x2d, 0x5f]
  if value.length ≤ limit ∧ value.head?.any isLower ∧ value.all isPart then .ok value else .error .invalidManifest

def AppId.fromIdentifier (identifier : List UInt8) : UInt64 := Text.fnv1a 0x1000000001b3 identifier

structure AppManifest where
  identifier : Name
  grants : List Name
  deriving DecidableEq

def AppManifest.appId (manifest : AppManifest) : UInt64 := AppId.fromIdentifier manifest.identifier

structure LaunchPlacement where
  appSessionId : UInt64
  nodeId : UInt64
  workspaceId : Option UInt64

structure LaunchRecord extends LaunchPlacement where
  processId : UInt32
  appId : UInt64

structure ConsentRequest where
  appId : UInt64
  appSessionId : UInt64
  identifier : Name
  capability : Name
  deriving DecidableEq

structure Consent where
  appId : UInt64
  capability : Name
  decision : GrantDecision

def Consent.isAbout (appId : UInt64) (capability : Name) (consent : Consent) : Bool :=
  consent.appId = appId ∧ consent.capability = capability

abbrev StoredDecision := UInt64 × Name × GrantDecision

structure Session where
  token : UInt64
  locked : Bool

/-- An authenticated session that is not locked. -/
def Session.CanDecide (user : Session) : Prop := ¬(user.token = 0 ∨ user.locked)

structure LaunchRegistry where
  manifests : List (Option AppManifest)
  launches : List (Option LaunchRecord)
  consents : List (Option Consent)
  pending : List (Option ConsentRequest)

namespace LaunchRegistry

def new : LaunchRegistry where
  manifests := List.replicate maxAppManifests none
  launches := List.replicate maxLiveLaunches none
  consents := List.replicate maxConsentDecisions none
  pending := List.replicate maxPendingConsents none

variable (registry : LaunchRegistry)

def manifest (appId : UInt64) : Option AppManifest := registry.manifests.reduceOption.find? (·.appId = appId)

def registerManifest (manifest : AppManifest) : Except LaunchError (UInt64 × LaunchRegistry) :=
  if registry.manifests.reduceOption.any (·.appId = manifest.appId) then .error .duplicateManifest
  else match Slots.replaceFirst Option.isNone (some manifest) registry.manifests with
    | none => .error .manifestTableFull
    | some manifests => .ok (manifest.appId, { registry with manifests })

def registerOrMatch (manifest : AppManifest) : Except LaunchError (UInt64 × LaunchRegistry) :=
  match registry.manifest manifest.appId with
  | some existing => if existing = manifest then .ok (manifest.appId, registry) else .error .conflictingManifest
  | none => registry.registerManifest manifest

def isLive (appId session : UInt64) : Bool :=
  registry.launches.reduceOption.any fun record => record.appId = appId ∧ record.appSessionId = session

def checkLaunch (appId : UInt64) (placement : LaunchPlacement) : Except LaunchError Unit :=
  if (registry.manifest appId).isNone then .error .unknownApplication
  else if registry.isLive appId placement.appSessionId then .error .sessionAlreadyLive
  else if registry.launches.all Option.isSome then .error .launchTableFull
  else .ok ()

def recordLaunch (processId : UInt32) (appId : UInt64) (placement : LaunchPlacement) :
    Except LaunchError (LaunchRecord × LaunchRegistry) :=
  if processId ≤ 1 then .error .initProcess
  else if registry.launches.reduceOption.any (·.processId = processId) then .error .processAlreadyLaunched
  else do
    registry.checkLaunch appId placement
    let record := { placement with processId, appId }
    match Slots.replaceFirst Option.isNone (some record) registry.launches with
    | none => .error .launchTableFull
    | some launches => .ok (record, { registry with launches })

def consent (appId : UInt64) (capability : Name) : Option GrantDecision :=
  (registry.consents.reduceOption.find? (Consent.isAbout appId capability)).map (·.decision)

def checkGrant (appId session : UInt64) (capability : Name) : GrantCheck :=
  if ¬registry.isLive appId session then .notLive
  else if ¬(registry.manifest appId).any fun manifest => capability ∈ manifest.grants then .notDeclared
  else match registry.consent appId capability with
    | some .allow => .granted
    | some (.allowOnce other) => if other = session then .granted else .consentRequired
    | some .deny => .denied
    | _ => .consentRequired

def recordDecision (user : Session) (appId : UInt64) (capability : List UInt8) (decision : GrantDecision) :
    Except LaunchError LaunchRegistry :=
  if user.token = 0 ∨ user.locked then .error .consentUnavailable
  else do
    let capability ← Name.parse capability maxGrantName
    let isThis (slot : Option Consent) : Bool := slot.any (Consent.isAbout appId capability)
    let lapsed := match decision with
      | .allowOnce session => !registry.isLive appId session
      | _ => false
    if lapsed then .error .sessionNotLive
    else if decision = .ask then
      .ok { registry with consents := (Slots.replaceFirst isThis none registry.consents).getD registry.consents }
    else
      let new := some { appId, capability, decision }
      match (Slots.replaceFirst isThis new registry.consents).or
        (Slots.replaceFirst Option.isNone new registry.consents) with
      | none => .error .consentTableFull
      | some consents => .ok { registry with consents }

def requestConsent (appId session : UInt64) (capability : List UInt8) :
    Except GrantCheck (ConsentRequest × LaunchRegistry) :=
  let check := registry.checkGrant appId session capability
  if check ≠ .consentRequired then .error check
  else match registry.manifest appId, Name.parse capability maxGrantName with
    | some manifest, .ok capability =>
      let request := { appId, appSessionId := session, identifier := manifest.identifier, capability }
      if request ∈ registry.pending.reduceOption then .ok (request, registry)
      else match Slots.replaceFirst Option.isNone (some request) registry.pending with
        | none => .error .consentRequired
        | some pending => .ok (request, { registry with pending })
    | _, _ => .error .notDeclared

def nextConsentRequest : Option ConsentRequest := registry.pending.reduceOption.head?

def resolveConsent (user : Session) (request : ConsentRequest) (decision : Option GrantDecision) :
    Except LaunchError LaunchRegistry :=
  match Slots.replaceFirst (· = some request) none registry.pending with
  | none => .error .noPendingConsent
  | some pending =>
    if user.token = 0 ∨ user.locked then .error .consentUnavailable
    else do
      let decided ← match decision with
        | some decision => registry.recordDecision user request.appId request.capability decision
        | none => .ok registry
      return { decided with pending }

/-- Decisions recorded one by one, up to the first that is refused. -/
def recordAll (registry : LaunchRegistry) (user : Session) :
    List StoredDecision → Except LaunchError Unit × LaunchRegistry
  | [] => (.ok (), registry)
  | (appId, capability, decision) :: rest =>
    match registry.recordDecision user appId capability decision with
    | .error error => (.error error, registry)
    | .ok decided => recordAll decided user rest

def restoreDecisions (parse : List UInt8 → Except DecisionStoreError (List StoredDecision)) (user : Session)
    (bytes : List UInt8) : Except DecisionStoreError Nat × LaunchRegistry :=
  if user.token = 0 ∨ user.locked then (.error (.launch .consentUnavailable), registry)
  else match parse bytes with
    | .error error => (.error error, registry)
    | .ok decisions =>
      let free := registry.consents.countP Option.isNone
      let needed := decisions.countP fun (appId, capability, _) => (registry.consent appId capability).isNone
      if needed > free then (.error (.launch .consentTableFull), registry)
      else match registry.recordAll user decisions with
        | (.error error, after) => (.error (.launch error), after)
        | (.ok (), after) => (.ok decisions.length, after)

def recordExit (processId : UInt32) : Option (LaunchRecord × LaunchRegistry) :=
  match registry.launches.reduceOption.find? (·.processId = processId),
      Slots.replaceFirst (·.any (·.processId = processId)) none registry.launches with
  | some record, some launches =>
    let ended (consent : Consent) : Bool :=
      consent.appId = record.appId ∧ consent.decision = .allowOnce record.appSessionId
    let asked (request : ConsentRequest) : Bool :=
      request.appId = record.appId ∧ request.appSessionId = record.appSessionId
    some (record, { registry with
      launches, consents := Slots.clear ended registry.consents, pending := Slots.clear asked registry.pending })
  | _, _ => none

end LaunchRegistry

def decisionsHeader : List UInt8 := Text.asciiBytes "nagi-consent 1\n"
def decisionsTrailer : List UInt8 := Text.asciiBytes "end "

/-- A header, a line for each decision and the line of the checksum. -/
def maxEncodedDecisions : Nat :=
  decisionsHeader.length + maxConsentDecisions * (6 + 16 + 1 + maxGrantName + 1) + decisionsTrailer.length + 16 + 1

def hexNibble (digit : UInt8) : Option UInt8 :=
  if 0x30 ≤ digit ∧ digit ≤ 0x39 then some (digit - 0x30)
  else if 0x61 ≤ digit ∧ digit ≤ 0x66 then some (digit - 0x61 + 10)
  else none

def parseHex (digits : List UInt8) : Option UInt64 :=
  if digits = [] ∨ digits.length > 16 then none
  else digits.foldlM (fun value digit => (hexNibble digit).map fun nibble => value <<< 4 ||| nibble.toUInt64) 0

def fnv1a64 (bytes : List UInt8) : UInt64 := Text.fnv1a 0x100000001b3 bytes

def parseWord (word : List UInt8) : Option GrantDecision :=
  if word = Text.asciiBytes "allow" then some .allow
  else if word = Text.asciiBytes "deny" then some .deny
  else none

def parseLine (line : List UInt8) : Option StoredDecision := do
  match line.splitOn 0x20 with
  | [word, app, capability] =>
    let decision ← parseWord word
    if app.length ≠ 16 then
      none
    let appId ← parseHex app
    let capability ← (Name.parse capability maxGrantName).toOption
    return (appId, capability, decision)
  | _ => none

def addLine (decisions : List StoredDecision) (line : List UInt8) : Option (List StoredDecision) :=
  if line = [] then some decisions
  else do
    let (appId, capability, decision) ← parseLine line
    if (decisions.any fun (existing, name, _) => existing = appId ∧ name = capability) ∨
        decisions.length = maxConsentDecisions then
      none
    return decisions ++ [(appId, capability, decision)]

/-- The decisions in a record whose checksum is right. -/
def readDecisions (bytes : List UInt8) : Option (List StoredDecision) := do
  if bytes.length > maxEncodedDecisions ∨ ¬decisionsHeader.isPrefixOf bytes then
    none
  let trailerLength := decisionsTrailer.length + 16 + 1
  if bytes.length < decisionsHeader.length + trailerLength then
    none
  let body := bytes.take (bytes.length - trailerLength)
  let trailer := bytes.drop (bytes.length - trailerLength)
  if ¬decisionsTrailer.isPrefixOf trailer ∨ trailer.getLast? ≠ some 0x0a then
    none
  let stored ← parseHex ((trailer.drop decisionsTrailer.length).take 16)
  if stored ≠ fnv1a64 body then
    none
  ((body.drop decisionsHeader.length).splitOn 0x0a).foldlM addLine []

def parseDecisions (bytes : List UInt8) : Except DecisionStoreError (List StoredDecision) :=
  match readDecisions bytes with
  | some decisions => .ok decisions
  | none => .error .malformed

inductive Operation where
  | registerManifest (manifest : AppManifest)
  | registerOrMatch (manifest : AppManifest)
  | recordLaunch (processId : UInt32) (appId : UInt64) (placement : LaunchPlacement)
  | recordExit (processId : UInt32)
  | recordDecision (user : Session) (appId : UInt64) (capability : List UInt8) (decision : GrantDecision)
  | requestConsent (appId session : UInt64) (capability : List UInt8)
  | resolveConsent (user : Session) (request : ConsentRequest) (decision : Option GrantDecision)
  | restoreDecisions (user : Session) (bytes : List UInt8)

inductive Reply where
  | registered (result : Except LaunchError UInt64)
  | launched (result : Except LaunchError LaunchRecord)
  | exited (record : Option LaunchRecord)
  | decided (result : Except LaunchError Unit)
  | asked (result : Except GrantCheck ConsentRequest)
  | restored (result : Except DecisionStoreError Nat)

namespace LaunchRegistry

/-- A call that returns an error leaves the registry as it is. -/
def settle {ε α : Type} (registry : LaunchRegistry) (reply : Except ε α → Reply) :
    Except ε (α × LaunchRegistry) → Reply × LaunchRegistry
  | .ok (value, after) => (reply (.ok value), after)
  | .error error => (reply (.error error), registry)

variable (parse : List UInt8 → Except DecisionStoreError (List StoredDecision))

def call (registry : LaunchRegistry) : Operation → Reply × LaunchRegistry
  | .registerManifest manifest => registry.settle .registered (registry.registerManifest manifest)
  | .registerOrMatch manifest => registry.settle .registered (registry.registerOrMatch manifest)
  | .recordLaunch processId appId placement =>
    registry.settle .launched (registry.recordLaunch processId appId placement)
  | .recordExit processId =>
    match registry.recordExit processId with
    | some (record, after) => (.exited (some record), after)
    | none => (.exited none, registry)
  | .recordDecision user appId capability decision =>
    registry.settle .decided ((registry.recordDecision user appId capability decision).map ((), ·))
  | .requestConsent appId session capability =>
    registry.settle .asked (registry.requestConsent appId session capability)
  | .resolveConsent user request decision =>
    registry.settle .decided ((registry.resolveConsent user request decision).map ((), ·))
  | .restoreDecisions user bytes => (registry.restoreDecisions parse user bytes).map .restored id

def step (registry : LaunchRegistry) (operation : Operation) : LaunchRegistry := (registry.call parse operation).2

def run (operations : List Operation) : LaunchRegistry := Runs.run (call parse) new operations

end LaunchRegistry

end Nagi.Launch
