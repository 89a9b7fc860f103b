/-
The actor directory of a node and the calls that change it (`registry.rs`).

`Registry` holds the three actor maps, the admission tables and the queue of
changes to gossip.  The calls are

* `registerActorWithPriority`, `unregisterActor` — by the node itself;
* `applyDeltaFrom` — a delta received from a peer, change by change;
* `mergeFullSync` — a snapshot received from a peer, entry by entry, followed
  by the pruning of what the snapshot omits.

A change is decided by what the three maps say about its name.  `NameView` is
that part of the state, and the two plans (`currentActorUpsertPlan`,
`currentActorRemovalPlan`) are functions of it.  Calls that the session checks
or a shutdown turn away change nothing and are not represented here.
-/
import IcanactRemote.ActorRecords
import IcanactRemote.Table
import IcanactRemote.WireFormat

namespace IcanactRemote

/-! ### Messages and configuration -/

structure RegistryDelta where
  sinceSequence : ℕ
  currentSequence : ℕ
  changes : List RegistryChange
  senderPeerId : PeerId
  deriving DecidableEq

inductive RegistryMessage
  | deltaGossip (delta : RegistryDelta)
  | fullSync (localActors knownActors : List (Text × RemoteActorLocation))
      (senderPeerId : PeerId) (senderBindAddr : Option Text) (sequence : ℕ)
  deriving DecidableEq

/-! An `rkyv` archive has what a value points to before the value, each list
aligned for its elements.  The functions give the position after a part. -/

def alignUp (pos alignment : ℕ) : ℕ := (pos + (alignment - 1)) / alignment * alignment

/-- A text of at most eight bytes is stored in its value. -/
def archiveText (pos : ℕ) (text : Text) : ℕ :=
  if text.length ≤ 8 then pos else pos + text.length

def archiveClock (pos : ℕ) (clock : Clock) : ℕ := alignUp pos 8 + 40 * clock.toVec.length

def archiveLocation (pos : ℕ) (location : RemoteActorLocation) : ℕ :=
  archiveClock (archiveText pos location.address) location.vectorClock + location.metadata.length

def archiveActors (pos : ℕ) (actors : List (Text × RemoteActorLocation)) : ℕ :=
  alignUp (actors.foldl (fun pos a => archiveLocation (archiveText pos a.1) a.2) pos) 16 +
    144 * actors.length

def archiveChange (pos : ℕ) : RegistryChange → ℕ
  | .actorAdded name location _ => archiveLocation (archiveText pos name) location
  | .actorRemoved name clock .. => archiveClock (archiveText pos name) clock

/-- The length of the archive of a message without extensions. -/
def RegistryMessage.archivedLen : RegistryMessage → ℕ
  | .deltaGossip delta =>
    alignUp (alignUp (delta.changes.foldl archiveChange 0) 16 + 160 * delta.changes.length) 8 + 152
  | .fullSync localActors knownActors _ senderBindAddr _ =>
    alignUp (senderBindAddr.toList.foldl archiveText
      (archiveActors (archiveActors 0 localActors) knownActors)) 8 + 152

/-- What a node is configured with.  `encodedLen` is the length of the encoded
message and `text` the text form of socket addresses; both come from
libraries. -/
structure NodeConfig where
  peerId : PeerId
  maxKnownActors : ℕ
  maxKnownActorsPerPeer : ℕ
  maxMessageSize : ℕ
  encodedLen : RegistryMessage → ℕ
  text : AddrText

def gossipMessageSizeSlack : ℕ := 1024

def gossipPayloadFits (payloadLen maxMessageSize : ℕ) : Bool :=
  gossipHeaderLen + payloadLen ≤ maxMessageSize

namespace NodeConfig

variable (cfg : NodeConfig)

def nodeId : GossipNodeId := cfg.peerId.toNodeId

/-- The default limits, with `rkyv` archives and IPv4 addresses. -/
def ofDefaults (peerId : PeerId) : NodeConfig :=
  ⟨peerId, 100000, 10000, 10 * 1024 * 1024, RegistryMessage.archivedLen, .ipv4⟩

/-- `ensure_solo_change_fits`. -/
def soloChangeFits (name : Text) (location : RemoteActorLocation) : Bool :=
  gossipPayloadFits
    (cfg.encodedLen
      (.deltaGossip ⟨0, 0, [.actorAdded name location location.priority], cfg.peerId⟩))
    cfg.maxMessageSize

end NodeConfig

/-! ### Plans -/

/-- What the actor maps say about one name. -/
structure NameView where
  isLocal : Bool
  known : Option RemoteActorLocation
  removed : Option RemovedActorTombstone
  deriving DecidableEq

namespace NameView

/-- Whether an update may pass the tombstone, and then whether it clears one. -/
def passTombstone (location : RemoteActorLocation) (senderPeerId : PeerId)
    (ownerRestartAuthenticated : Bool) : Option RemovedActorTombstone → Option Bool
  | none => some false
  | some tombstone =>
    match location.vectorClock.compare tombstone.vectorClock with
    | .after => some true
    | .before | .equal | .concurrent =>
      if ownerRecoveryWinsTombstone location senderPeerId tombstone ownerRestartAuthenticated
      then some true else none

/-- Whether an update may take the entry, and then whether there was one. -/
def replaceKnown (location : RemoteActorLocation) : Option RemoteActorLocation → Option Bool
  | none => some false
  | some existing =>
    match location.vectorClock.compare existing.vectorClock with
    | .after => some true
    | .concurrent | .equal =>
      if stableConcurrentLocationWins location existing then some true else none
    | .before => none

/-- Whether to store the location: `(clear_tombstone, is_update)` if so. -/
def currentActorUpsertPlan (v : NameView) (selfId : PeerId) (location : RemoteActorLocation)
    (senderPeerId : PeerId) (ownerRestartAuthenticated : Bool) : Option (Bool × Bool) :=
  if location.peerId = selfId then none
  else if v.isLocal then none
  else do
    let clearTombstone ← passTombstone location senderPeerId ownerRestartAuthenticated v.removed
    let isUpdate ← replaceKnown location v.known
    pure (clearTombstone, isUpdate)

/-- Whether to record the removal: `(removal_clock, tombstone_only)` if so. -/
def currentActorRemovalPlan (v : NameView) (vectorClock : Clock) (removingNodeId : GossipNodeId) :
    Option (Clock × Bool) :=
  if v.isLocal then none
  else
    match v.known with
    | some existing =>
      match vectorClock.compare existing.vectorClock with
      | .after => some (vectorClock, false)
      | .concurrent =>
        if stableConcurrentRemovalWins removingNodeId vectorClock existing
        then some (vectorClock, false) else none
      | .before | .equal => none
    | none =>
      match v.removed with
      | none => some (vectorClock, true)
      | some tombstone =>
        match vectorClock.compare tombstone.vectorClock with
        | .before | .equal => none
        | .after => some (vectorClock, true)
        | .concurrent => some (vectorClock.merge tombstone.vectorClock, true)

/-- The kind recorded for a removal. -/
def removalKind (v : NameView) (removingNodeId : GossipNodeId) : TombstoneKind :=
  let existingKind := v.removed.map (·.kind)
  match v.known with
  | some existing =>
    mergeTombstoneKind existingKind (tombstoneKindForRemoval existing.nodeId removingNodeId)
  | none =>
    -- an earlier removal already deleted the entry, or it was never known:
    -- only a recorded owner can tell a deliberate removal
    let inferredKind :=
      if v.removed.bind (·.ownerNodeId) = some removingNodeId then .explicitUnregister
      else existingKind.getD .unknown
    mergeTombstoneKind existingKind inferredKind

/-- The owner recorded for a removal. -/
def removalOwner (v : NameView) (removingNodeId : GossipNodeId) : Option GossipNodeId :=
  match v.known with
  | some existing => some existing.nodeId
  | none =>
    match v.removed.bind (·.ownerNodeId) with
    | some owner => some owner
    | none =>
      match v.removalKind removingNodeId with
      | .explicitUnregister => some removingNodeId
      | .peerDeath | .unknown => none

end NameView

/-! ### The registry -/

/-- The content of a set of names. -/
abbrev NameSet := Table Text Unit

structure Registry where
  localActors : Table Text RemoteActorLocation
  knownActors : Table Text RemoteActorLocation
  removedActors : Table Text RemovedActorTombstone
  actorAdmissionPeerByName : Table Text PeerId
  actorAdmissionsByPeer : Table PeerId NameSet
  compactChargeByName : Table Text ℕ
  compactAdmissionBytes : ℕ
  peerToActors : Table SocketAddr NameSet
  pendingChanges : List RegistryChange
  urgentChanges : List RegistryChange

inductive RegisterError
  | actorAlreadyExists
  | messageTooLarge
  deriving DecidableEq

namespace Registry

def start : Registry :=
  ⟨.empty, .empty, .empty, .empty, .empty, .empty, gossipMessageSizeSlack, .empty, [], []⟩

variable (s : Registry)

def view (name : Text) : NameView :=
  ⟨s.localActors.containsKey name, s.knownActors.get name, s.removedActors.get name⟩

/-! #### Admission -/

def actorAdmissionCount (peerId : PeerId) : ℕ :=
  ((s.actorAdmissionsByPeer.get peerId).map Table.len).getD 0

/-- Take a name out of a peer's set, and the set out of the table once it is
empty. -/
def dropAdmission (byPeer : Table PeerId NameSet) (peerId : PeerId) (name : Text) :
    Table PeerId NameSet :=
  match byPeer.get peerId with
  | none => byPeer
  | some names =>
    if (names.remove name).len = 0 then byPeer.remove peerId
    else byPeer.insert peerId (names.remove name)

def recordActorAdmission (peerId : PeerId) (name : Text) : Registry :=
  let byPeer :=
    match s.actorAdmissionPeerByName.get name with
    | some previousPeer =>
      if previousPeer ≠ peerId then dropAdmission s.actorAdmissionsByPeer previousPeer name
      else s.actorAdmissionsByPeer
    | none => s.actorAdmissionsByPeer
  { s with
    actorAdmissionPeerByName := s.actorAdmissionPeerByName.insert name peerId
    actorAdmissionsByPeer :=
      byPeer.insert peerId (((byPeer.get peerId).getD .empty).insert name ()) }

def compactRecordCharge (name : Text) (location : RemoteActorLocation) : ℕ :=
  name.length + location.address.length + location.metadata.length
    + location.vectorClock.len * 48 + 64

/-- `none` when a new name does not fit the compact snapshot. -/
def tryChargeCompactSnapshot (cfg : NodeConfig) (name : Text) (location : RemoteActorLocation) :
    Option Registry :=
  let charge := compactRecordCharge name location
  match s.compactChargeByName.get name with
  | some old =>
    -- a replacement is accounted even above the limit
    if old ≠ charge then
      some { s with
        compactAdmissionBytes := s.compactAdmissionBytes - old + charge
        compactChargeByName := s.compactChargeByName.insert name charge }
    else some s
  | none =>
    if gossipPayloadFits (s.compactAdmissionBytes + charge) cfg.maxMessageSize then
      some { s with
        compactAdmissionBytes := s.compactAdmissionBytes + charge
        compactChargeByName := s.compactChargeByName.insert name charge }
    else none

def releaseCompactSnapshot (name : Text) : Registry :=
  match s.compactChargeByName.get name with
  | none => s
  | some charge =>
    { s with
      compactAdmissionBytes := s.compactAdmissionBytes - charge
      compactChargeByName := s.compactChargeByName.remove name }

def releaseActorAdmission (name : Text) : Registry :=
  match s.actorAdmissionPeerByName.get name with
  | none => s
  | some peerId =>
    releaseCompactSnapshot
      { s with
        actorAdmissionPeerByName := s.actorAdmissionPeerByName.remove name
        actorAdmissionsByPeer := dropAdmission s.actorAdmissionsByPeer peerId name } name

/-! #### Writes to the maps -/

def upsertKnown (name : Text) (location : RemoteActorLocation) (clearTombstone : Bool) :
    Registry :=
  { s with
    removedActors := if clearTombstone then s.removedActors.remove name else s.removedActors
    knownActors := s.knownActors.insert name location }

def removeKnown (name : Text) : Registry :=
  { s with knownActors := s.knownActors.remove name }

def setTombstone (name : Text) (tombstone : RemovedActorTombstone) : Registry :=
  { s with removedActors := s.removedActors.insert name tombstone }

/-- Queue a change this node made; an urgent one is queued for the periodic
gossip as well. -/
def pushChange (change : RegistryChange) (priority : RegistrationPriority) : Registry :=
  if priority.shouldTriggerImmediateGossip then
    { s with
      urgentChanges := s.urgentChanges ++ [change]
      pendingChanges := s.pendingChanges ++ [change.asRegularGossipChange] }
  else { s with pendingChanges := s.pendingChanges ++ [change] }

/-- Queue a removal this node passes on. -/
def forwardChange (change : RegistryChange) : Registry :=
  { s with pendingChanges := s.pendingChanges ++ [change.asRegularGossipChange] }

/-! #### Local registration -/

/-- The location a registration announces: its clock covers the tombstone the
call has read. -/
def stampLocation (location : RemoteActorLocation) (tombstone : Option RemovedActorTombstone) :
    RemoteActorLocation :=
  let clock :=
    match tombstone with
    | some t => location.vectorClock.merge t.vectorClock
    | none => location.vectorClock
  { location with vectorClock := clock.increment location.nodeId }

/-- The critical section of a registration.  The rollbacks behind the insertion
cannot fire in it: both maps were checked in the same section. -/
def registerCommit (cfg : NodeConfig) (name : Text) (location : RemoteActorLocation)
    (priority : RegistrationPriority) : Registry × Option RegisterError :=
  if s.localActors.containsKey name || s.knownActors.containsKey name then
    (s, some .actorAlreadyExists)
  else
    match s.tryChargeCompactSnapshot cfg name location with
    | none => (s, some .messageTooLarge)
    | some s₁ =>
      (pushChange
        { s₁ with
          localActors := s₁.localActors.insert name location
          removedActors := s₁.removedActors.remove name }
        (.actorAdded name location priority) priority, none)

/-- Forget an entry for our own actor that peers reflected back to us. -/
def dropReflected (cfg : NodeConfig) (name : Text) (sameAddress : Option Text) : Registry :=
  match s.knownActors.get name with
  | some existing =>
    if existing.nodeId = cfg.nodeId ∨ some existing.address = sameAddress then
      (s.removeKnown name).releaseActorAdmission name
    else s
  | none => s

def registerActorWithPriority (cfg : NodeConfig) (now : ℕ) (name : Text)
    (location : RemoteActorLocation) (priority : RegistrationPriority) :
    Registry × Option RegisterError :=
  let location := { location with wallClockTime := now, priority := priority }
  let s := s.dropReflected cfg name (some location.address)
  if s.localActors.containsKey name || s.knownActors.containsKey name then
    (s, some .actorAlreadyExists)
  else
    let location := stampLocation location (s.removedActors.get name)
    if !cfg.soloChangeFits name location then (s, some .messageTooLarge)
    else s.registerCommit cfg name location priority

def removalClock (cfg : NodeConfig) (location : RemoteActorLocation) : Clock :=
  location.vectorClock.increment cfg.nodeId

/-- The critical section of an unregistration that removed `location`. -/
def unregisterCommit (cfg : NodeConfig) (name : Text) (location : RemoteActorLocation) :
    Registry :=
  let clock := removalClock cfg location
  pushChange
    ((s.releaseCompactSnapshot name).setTombstone name
      ⟨clock, .explicitUnregister, some cfg.nodeId⟩)
    (.actorRemoved name clock cfg.nodeId location.priority) location.priority

def removeLocal (name : Text) : Registry :=
  { s with localActors := s.localActors.remove name }

def unregisterActor (cfg : NodeConfig) (name : Text) : Registry :=
  match s.localActors.get name with
  | none => s.dropReflected cfg name none
  | some location =>
    ((s.removeLocal name).dropReflected cfg name none).unregisterCommit cfg name location

/-! #### Deltas -/

end Registry

/-- Who delivered a delta: the sender, the address its advertised addresses are
repaired from, and whether its session showed a restart. -/
structure DeltaSource where
  senderPeerId : PeerId
  repairAddr : Option SocketAddr
  ownerRestartAuthenticated : Bool
  deriving DecidableEq

/-- The location a delta's addition is stored as. -/
def DeltaSource.resolve (text : AddrText) (src : DeltaSource) (location : RemoteActorLocation) :
    RemoteActorLocation :=
  let wireAddr := canonicalWireAddr text location.address
  let resolved :=
    match src.repairAddr with
    | some repairAddr =>
      resolveRemoteActorAddr wireAddr repairAddr (location.peerId = src.senderPeerId)
    | none => wireAddr
  { location with address := text.toText resolved }

namespace Registry

variable (s : Registry)

/-- Whether storing the name would charge a peer that is at its cap. -/
def peerCapReached (cfg : NodeConfig) (senderPeerId : PeerId) (name : Text) : Bool :=
  s.actorAdmissionPeerByName.get name ≠ some senderPeerId
    && s.actorAdmissionCount senderPeerId ≥ cfg.maxKnownActorsPerPeer

def globalCapReached (cfg : NodeConfig) : Bool := s.knownActors.len ≥ cfg.maxKnownActors

/-- Store an admitted location, unless it is too large. -/
def admitLocation (cfg : NodeConfig) (senderPeerId : PeerId) (name : Text)
    (location : RemoteActorLocation) (clearTombstone : Bool) : Option Registry :=
  if !cfg.soloChangeFits name location then none
  else
    (s.tryChargeCompactSnapshot cfg name location).map fun s₁ =>
      (s₁.upsertKnown name location clearTombstone).recordActorAdmission senderPeerId name

/-- One addition of a delta; `none` when it is skipped. -/
def applyAdded (cfg : NodeConfig) (src : DeltaSource) (name : Text)
    (location : RemoteActorLocation) : Option Registry :=
  let location := src.resolve cfg.text location
  match (s.view name).currentActorUpsertPlan cfg.peerId location src.senderPeerId
      src.ownerRestartAuthenticated with
  | none => none
  | some (clearTombstone, isUpdate) =>
    if s.peerCapReached cfg src.senderPeerId name then none
    else if !isUpdate && s.globalCapReached cfg then none
    else s.admitLocation cfg src.senderPeerId name location clearTombstone

/-- One removal of a delta, with whether the sender's set loses the name;
`none` when it is skipped. -/
def applyRemoved (name : Text) (vectorClock : Clock) (removingNodeId : GossipNodeId)
    (priority : RegistrationPriority) : Option (Registry × Bool) :=
  let kind := (s.view name).removalKind removingNodeId
  let owner := (s.view name).removalOwner removingNodeId
  match (s.view name).currentActorRemovalPlan vectorClock removingNodeId with
  | none => none
  | some (removalClock, tombstoneOnly) =>
    let forwarded := .actorRemoved name removalClock removingNodeId priority
    if tombstoneOnly then
      some ((s.setTombstone name ⟨removalClock, kind, owner⟩).forwardChange forwarded, false)
    else if s.knownActors.containsKey name then
      some (((((s.removeKnown name).releaseActorAdmission name).setTombstone name
        ⟨removalClock, kind, owner⟩).forwardChange forwarded), true)
    else none

/-- One change of a delta, on the registry alone. -/
def afterChange (cfg : NodeConfig) (src : DeltaSource) : RegistryChange → Registry
  | .actorAdded name location _ => (s.applyAdded cfg src name location).getD s
  | .actorRemoved name clock removing priority =>
    ((s.applyRemoved name clock removing priority).map Prod.fst).getD s

end Registry

/-- The registry in the middle of a message, with the set of the sender's
names. -/
structure Applying where
  registry : Registry
  names : NameSet

namespace Applying

def applyChange (cfg : NodeConfig) (src : DeltaSource) (a : Applying) : RegistryChange → Applying
  | .actorAdded name location _ =>
    match a.registry.applyAdded cfg src name location with
    | none => a
    | some s => ⟨s, a.names.insert name ()⟩
  | .actorRemoved name clock removing priority =>
    match a.registry.applyRemoved name clock removing priority with
    | none => a
    | some (s, lost) => ⟨s, if lost then a.names.remove name else a.names⟩

end Applying

namespace Registry

variable (s : Registry)

/-- Apply a delta.  `bookkeepingAddr` is the configured address of its sender,
under which the names it announced are filed. -/
def applyDeltaFrom (cfg : NodeConfig) (changes : List RegistryChange) (senderPeerId : PeerId)
    (bookkeepingAddr verifiedSenderAddr : Option SocketAddr) (ownerRestartAuthenticated : Bool) :
    Registry :=
  let src : DeltaSource :=
    ⟨senderPeerId, verifiedSenderAddr.or bookkeepingAddr, ownerRestartAuthenticated⟩
  let senderActors := (bookkeepingAddr.bind s.peerToActors.get).getD .empty
  let a := changes.foldl (Applying.applyChange cfg src) ⟨s, senderActors⟩
  match bookkeepingAddr with
  | some addr => { a.registry with peerToActors := a.registry.peerToActors.insert addr a.names }
  | none => a.registry

end Registry

/-! ### Full syncs -/

/-- Who delivered a full sync.  `owned` says that the sender's claim on
`senderAddr` was committed. -/
structure SyncSource where
  senderPeerId : PeerId
  senderAddr : SocketAddr
  verifiedSenderAddr : Option SocketAddr
  owned : Bool
  ownerRestartAuthenticated : Bool
  deriving DecidableEq

namespace SyncSource

def repairAddr (src : SyncSource) : SocketAddr := src.verifiedSenderAddr.getD src.senderAddr

/-- The location an entry of a full sync is stored as. -/
def resolve (text : AddrText) (src : SyncSource) (location : RemoteActorLocation) :
    RemoteActorLocation :=
  let ownerIsSender := decide (location.peerId = src.senderPeerId)
  let wireAddr := canonicalWireAddr text location.address
  let resolved :=
    if src.owned && ownerIsSender then resolveOwnedActorAddr wireAddr src.repairAddr
    else resolveRemoteActorAddr wireAddr src.repairAddr ownerIsSender
  { location with address := text.toText resolved }

/-- The entries to apply, by name; for one name the sender's own entry comes
first. -/
def updatesToApply (cfg : NodeConfig) (src : SyncSource)
    (remoteLocal remoteKnown : Table Text RemoteActorLocation) :
    List (Text × RemoteActorLocation) :=
  (((remoteLocal.toList ++ remoteKnown.toList).filter fun e => e.2.peerId ≠ cfg.peerId).map
    fun e => (e.1, src.resolve cfg.text e.2)).insertionSort fun a b => ¬ b.1 < a.1

end SyncSource

namespace Applying

/-- A name the sender advertises and we know stays in its set. -/
def noteKnown (a : Applying) (name : Text) : Applying :=
  if a.registry.knownActors.containsKey name then { a with names := a.names.insert name () } else a

def applyUpdate (cfg : NodeConfig) (src : SyncSource) (a : Applying)
    (update : Text × RemoteActorLocation) : Applying :=
  let s := a.registry
  let (name, location) := update
  if s.peerCapReached cfg src.senderPeerId name then a
  else if !s.knownActors.containsKey name && s.globalCapReached cfg then a
  else
    match (s.view name).currentActorUpsertPlan cfg.peerId location src.senderPeerId
        src.ownerRestartAuthenticated with
    | none => a.noteKnown name
    | some (clearTombstone, _) =>
      match s.admitLocation cfg src.senderPeerId name location clearTombstone with
      | none => a.noteKnown name
      | some s₁ => ⟨s₁, a.names.insert name ()⟩

end Applying

namespace Registry

variable (s : Registry)

/-- Remove an actor its peer no longer advertises, if it is still that peer's. -/
def pruneOmitted (senderPeerId : PeerId) (s : Registry) (name : Text) : Registry :=
  if s.localActors.containsKey name then s
  else
    match s.knownActors.get name with
    | some existing =>
      if existing.peerId = senderPeerId then (s.removeKnown name).releaseActorAdmission name else s
    | none => s

/-- File the advertised names under the sender's address, and remove those that
were there before. -/
def pruneAfterSync (src : SyncSource) (a : Applying) : Registry :=
  let s := { a.registry with
    peerToActors := a.registry.peerToActors.insert src.senderAddr a.names }
  match a.registry.peerToActors.get src.senderAddr with
  | some previous =>
    (previous.keys.filter fun name => !a.names.containsKey name).foldl
      (pruneOmitted src.senderPeerId) s
  | none => s

/-- Merge a full sync that passed the sequence and session gates. -/
def mergeFullSync (cfg : NodeConfig) (src : SyncSource)
    (remoteLocal remoteKnown : Table Text RemoteActorLocation) : Registry :=
  pruneAfterSync src
    ((src.updatesToApply cfg remoteLocal remoteKnown).foldl (Applying.applyUpdate cfg src)
      ⟨s, .empty⟩)

end Registry

end IcanactRemote
