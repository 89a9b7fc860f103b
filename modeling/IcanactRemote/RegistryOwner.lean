/-
The single-owner registry actor (`PeerRegistryOwner` of `registry_owner.rs`).

One task owns the address tables and handles one command at a time, so the
model is a pure transition function `handle` from a state and a command to the
next state and the reply.  The production commands are the constructors of
`OwnerCommand`; the ones the source compiles only for tests are left out.

Three things come from outside the task and are explicit here:

* the flag of a reap reservation is shared with the guard that holds the
  reservation, so the flags live in a heap of cells, `cells`, and
  `tryConsume` is the guard's own compare-and-swap on it;
* the connection pool the routes are published to may be gone, in which case
  `routing` is `none`; otherwise it lists the calls made to it;
* a hash map is iterated in no particular order, so the one handler whose
  reply shows the order takes it as an argument (`VisitOrder`).
-/
import IcanactRemote.RoutingSnapshot
import IcanactRemote.Run

namespace IcanactRemote

/-! ### Commands and replies -/

/-- Source state a migration is conditional on. -/
inductive SourceExpectation
  | unowned
  | owned (token : OwnershipToken)
  deriving DecidableEq

/-- Why a claim did not take ownership. -/
inductive ClaimRejection
  | arbitration (reason : RejectReason)
  | ownerUnavailable
  | reapInProgress
  | supersededByNewerConfiguration
  deriving DecidableEq

/-- The committed result of a claim. -/
inductive ClaimCommit
  | accepted (kind : ClaimKind) (displaced : Option PeerId) (createdOwnership : Bool)
      (commitSeq : CommitSeq)
  | rejected (why : ClaimRejection)
  deriving DecidableEq

def ClaimCommit.isAccepted : ClaimCommit → Bool
  | .accepted .. => true
  | .rejected _ => false

/-- The identity an accepted claim took the address from. -/
def ClaimCommit.displaced : ClaimCommit → Option PeerId
  | .accepted _ displaced _ _ => displaced
  | .rejected _ => none

inductive DeadPeerReleaseOutcome
  | released (commitSeq : CommitSeq)
  | provenAlive
  | notApplicable
  deriving DecidableEq

inductive MigrateOutcome
  | migrated (commitSeq : CommitSeq)
  | sourceUnowned
  | targetOwnedByOther
  | targetIsLocal
  | sourceOwnerMismatch
  | reapInProgress
  deriving DecidableEq

/-- The committed result of a `configurePeer` transaction. -/
structure ConfigurePeerCommit where
  claim : ClaimCommit
  evictedPin : Option SocketAddr
  evictedReleaseSeq : Option CommitSeq
  generation : ℕ
  deriving DecidableEq

/-- A call to the connection pool. -/
inductive RoutingCall
  | publishOwner (addr : SocketAddr) (peerId : PeerId)
  | retractOwner (addr : SocketAddr) (peerId : PeerId)
  | setConfiguredPeerAddr (addr : SocketAddr) (peerId : PeerId)
      (evictedAddr : Option SocketAddr)
  deriving DecidableEq

/-- The flag of a reap reservation: `REAP_PENDING`, `REAP_COMMITTED` or
`REAP_INVALIDATED`. -/
inductive ReapState
  | pending
  | committed
  | invalidated
  deriving DecidableEq

/-- Which flag in the heap of flags. -/
abbrev CellId := ℕ

/-- A connection-scoped receipt is held by one transport instance of a peer
for one address. -/
structure ReceiptKey where
  peer : PeerId
  instanceId : ℕ
  addr : SocketAddr
  deriving DecidableEq

/-- The order in which a hash map happens to be iterated. -/
structure VisitOrder where
  arrange : List SocketAddr → List SocketAddr
  perm : ∀ l, (arrange l).Perm l

/-- Iteration in the order of the table. -/
def VisitOrder.stored : VisitOrder := ⟨id, fun l => List.Perm.refl l⟩

/-- The commands of the production build. -/
inductive OwnerCommand
  | claim (addr : SocketAddr) (claim : Claim) (isLocalAddr : Bool)
  | release (addr : SocketAddr) (expectedOwner : PeerId) (expectedGeneration : CommitSeq)
  | migrate (source target : SocketAddr) (isLocalAddr : Bool)
      (expectedSource : SourceExpectation)
  | claimConnectionScoped (addr : SocketAddr) (claim : Claim) (sessionSource : SocketAddr)
      (connectionInstanceId : ℕ) (evidenceAt : Instant)
  | releaseSession (peerId : PeerId) (sessionSource : SocketAddr) (connectionInstanceId : ℕ)
      (order : VisitOrder)
  | releaseDeadPeer (peerId : PeerId) (addr : SocketAddr) (evidenceBefore : Instant)
  | hasNewerLivenessEvidence (addr : SocketAddr) (evidenceBefore : Instant)
  | reapBaselineActivityDetected (addr : SocketAddr) (peerId : PeerId)
      (evidenceBefore : Instant) (baselineConfigurePeerGeneration : ℕ)
  | configurePeerGenerationOf (peerId : PeerId)
  | reserveForReap (addr : SocketAddr) (evidenceBefore : Instant)
      (expectedOwnership : Option OwnershipToken) (expectedPin expectedNodeId : Option PeerId)
  | releaseReapReservation (addr : SocketAddr)
  | configurePeer (addr : SocketAddr) (peerId : PeerId) (expectedGeneration : Option ℕ)
  | setOrdinaryConnectRoute (peerId : PeerId) (addr : SocketAddr)
  | noteLivenessEvidence (addr : SocketAddr) (instant : Instant)

/-- What the caller of a command is answered. -/
inductive OwnerReply
  | claim (commit : ClaimCommit)
  | release (released : Option CommitSeq)
  | migrate (outcome : MigrateOutcome)
  | releaseSession (released : List (SocketAddr × CommitSeq))
  | releaseDeadPeer (outcome : DeadPeerReleaseOutcome)
  | answer (value : Bool)
  | generation (value : ℕ)
  | reserveForReap (granted : Option CellId)
  | configurePeer (commit : ConfigurePeerCommit)
  | done
  deriving DecidableEq

/-! ### The state -/

/-- The owner task's tables. -/
structure PeerRegistryOwner where
  addrOwnership : Table SocketAddr Owner
  claimGeneration : Table SocketAddr CommitSeq
  claimCommittedAt : Table SocketAddr Instant
  connectionScopedClaims : Table ReceiptKey CommitSeq
  operatorPinned : Table SocketAddr PeerId
  pinnedByPeer : Table PeerId SocketAddr
  reapReserved : Table SocketAddr CellId
  livenessEvidenceAt : Table SocketAddr Instant
  configurePeerGeneration : Table PeerId ℕ
  snapshot : RoutingSnapshot
  routing : Option (List RoutingCall)
  commitSeq : CommitSeq
  cells : List ReapState

namespace PeerRegistryOwner

/-- The state the task is spawned with. -/
def start (hasher : SocketAddr → UInt64) (routing : Option (List RoutingCall)) :
    PeerRegistryOwner where
  addrOwnership := .empty
  claimGeneration := .empty
  claimCommittedAt := .empty
  connectionScopedClaims := .empty
  operatorPinned := .empty
  pinnedByPeer := .empty
  reapReserved := .empty
  livenessEvidenceAt := .empty
  configurePeerGeneration := .empty
  snapshot := RoutingSnapshot.default hasher
  routing := routing
  commitSeq := 0
  cells := []

variable (s : PeerRegistryOwner)

/-- Make a call to the pool, if it is still there. -/
def route (call : RoutingCall) : PeerRegistryOwner :=
  { s with routing := s.routing.map (· ++ [call]) }

/-- Take the next position in the commit order. -/
def advance : PeerRegistryOwner × CommitSeq :=
  ({ s with commitSeq := s.commitSeq + 1 }, s.commitSeq + 1)

def publishOwnerSnapshot (addr : SocketAddr) (owner : Option (Owner × CommitSeq)) :
    PeerRegistryOwner :=
  { s with snapshot := s.snapshot.withOwner addr owner }

/-- Drop the connection-scoped receipts `p` selects. -/
def dropReceipts (p : ReceiptKey → Prop) [DecidablePred p] : PeerRegistryOwner :=
  { s with connectionScopedClaims := s.connectionScopedClaims.retain fun key _ => !p key }

/-- Compare-and-swap on a reservation flag. -/
def compareExchange (cell : CellId) (current new : ReapState) : PeerRegistryOwner × Bool :=
  if s.cells[cell]? = some current then
    ({ s with cells := s.cells.set cell new }, true)
  else (s, false)

/-! ### Handlers -/

def claim (addr : SocketAddr) (claim : Claim) (isLocalAddr : Bool) :
    PeerRegistryOwner × ClaimCommit :=
  if s.reapReserved.containsKey addr then (s, .rejected .reapInProgress)
  else
    let current := s.addrOwnership.get addr
    match arbitrate current claim isLocalAddr with
    | .reject reason => (s, .rejected (.arbitration reason))
    | .accept =>
      let kind := resolvedKind current claim
      let displaced := (current.filter fun owner => owner.nodeId ≠ claim.nodeId).map (·.nodeId)
      let nextOwner : Owner := ⟨claim.nodeId, kind⟩
      let ownershipChanged := current ≠ some nextOwner
      let s := if ownershipChanged then
          { s with addrOwnership := s.addrOwnership.insert addr nextOwner } else s
      let (s, commitSeq) := s.advance
      let s := { s with claimGeneration := s.claimGeneration.insert addr commitSeq }
      -- every live receipt of this owner for this address follows the generation
      let s := { s with
        connectionScopedClaims := s.connectionScopedClaims.iterMut fun key generation =>
          if key.peer = claim.nodeId ∧ key.addr = addr then commitSeq else generation }
      let s := s.publishOwnerSnapshot addr (some (nextOwner, commitSeq))
      let s := if ownershipChanged then s.route (.publishOwner addr claim.nodeId) else s
      (s, .accepted kind displaced current.isNone commitSeq)

def claimConnectionScoped (addr : SocketAddr) (claim : Claim) (_sessionSource : SocketAddr)
    (connectionInstanceId : ℕ) (evidenceAt : Instant) : PeerRegistryOwner × ClaimCommit :=
  let peerId := claim.nodeId
  let (s, commit) := s.claim addr claim false
  -- overwrites: an older instant processed later replaces a newer one
  let s := if commit.isAccepted then
      { s with claimCommittedAt := s.claimCommittedAt.insert addr evidenceAt } else s
  if s.operatorPinned.get addr = some peerId then (s, commit)
  else
    match commit with
    | .accepted _ _ _ commitSeq =>
      ({ s with connectionScopedClaims :=
          s.connectionScopedClaims.insert ⟨peerId, connectionInstanceId, addr⟩ commitSeq },
        commit)
    | .rejected _ => (s, commit)

/-- The tail of every path that drops a recorded owner. -/
def retractOwner (addr : SocketAddr) (owner : Owner) : PeerRegistryOwner × CommitSeq :=
  let s := { s with
    claimGeneration := s.claimGeneration.remove addr
    claimCommittedAt := s.claimCommittedAt.remove addr
    livenessEvidenceAt := s.livenessEvidenceAt.remove addr }
  let s := s.dropReceipts fun key => key.addr = addr
  let (s, commitSeq) := s.advance
  let s := s.publishOwnerSnapshot addr none
  (s.route (.retractOwner addr owner.nodeId), commitSeq)

/-- Remove the recorded owner of `addr`, if any, and retract it. -/
def removeOwner (addr : SocketAddr) : Option (PeerRegistryOwner × CommitSeq) :=
  (s.addrOwnership.get addr).map fun owner =>
    { s with addrOwnership := s.addrOwnership.remove addr }.retractOwner addr owner

/-- `addr` is recorded as owned by `peerId`. -/
def ownedBy (addr : SocketAddr) (peerId : PeerId) : Bool :=
  (s.addrOwnership.get addr).any fun owner => owner.nodeId = peerId

def release (addr : SocketAddr) (expectedOwner : PeerId) (expectedGeneration : CommitSeq) :
    PeerRegistryOwner × Option CommitSeq :=
  if s.operatorPinned.containsKey addr then (s, none)
  else if !(s.ownedBy addr expectedOwner
      && s.claimGeneration.get addr = some expectedGeneration) then (s, none)
  else
    match s.removeOwner addr with
    | none => (s, none)
    | some (s, commitSeq) => (s, some commitSeq)

/-- One turn of `releaseSession`'s loop over the addresses no other session
covers. -/
def releaseUncovered (peerId : PeerId)
    (acc : PeerRegistryOwner × List (SocketAddr × CommitSeq)) (addr : SocketAddr) :
    PeerRegistryOwner × List (SocketAddr × CommitSeq) :=
  let (s, released) := acc
  if s.operatorPinned.containsKey addr then acc
  else if !s.ownedBy addr peerId then acc
  else
    match s.removeOwner addr with
    | none => acc
    | some (s, releaseSeq) => (s, released ++ [(addr, releaseSeq)])

def releaseSession (peerId : PeerId) (_sessionSource : SocketAddr) (connectionInstanceId : ℕ)
    (order : VisitOrder) : PeerRegistryOwner × List (SocketAddr × CommitSeq) :=
  let ownEntries := order.arrange ((s.connectionScopedClaims.keys.filter fun key =>
    key.peer = peerId ∧ key.instanceId = connectionInstanceId).map (·.addr))
  let s := s.dropReceipts fun key =>
    key.peer = peerId ∧ key.instanceId = connectionInstanceId
  let noLongerCovered := ownEntries.filter fun addr =>
    !s.connectionScopedClaims.keys.any fun key => key.peer = peerId ∧ key.addr = addr
  noLongerCovered.foldl (releaseUncovered peerId) (s, [])

def invalidateReapReservation (addr : SocketAddr) : PeerRegistryOwner :=
  match s.reapReserved.get addr with
  | some cell => (s.compareExchange cell .pending .invalidated).1
  | none => s

def noteLivenessEvidence (addr : SocketAddr) (instant : Instant) : PeerRegistryOwner :=
  { s with livenessEvidenceAt := s.livenessEvidenceAt.upsertMax addr instant
    }.invalidateReapReservation addr

def hasNewerLivenessEvidence (addr : SocketAddr) (evidenceBefore : Instant) : Bool :=
  (s.claimCommittedAt.get addr).any (fun committedAt => committedAt > evidenceBefore)
    || (s.livenessEvidenceAt.get addr).any (fun seenAt => seenAt > evidenceBefore)

def configurePeerGenerationOf (peerId : PeerId) : ℕ :=
  (s.configurePeerGeneration.get peerId).getD 0

def reapBaselineActivityDetected (addr : SocketAddr) (peerId : PeerId)
    (evidenceBefore : Instant) (baselineConfigurePeerGeneration : ℕ) : Bool :=
  s.hasNewerLivenessEvidence addr evidenceBefore
    || s.configurePeerGenerationOf peerId > baselineConfigurePeerGeneration

/-- The reservation held for `addr` has crossed its commit point. -/
def reapCommitted (addr : SocketAddr) : Bool :=
  (s.reapReserved.get addr).any fun cell => s.cells[cell]? = some .committed

def releaseDeadPeer (peerId : PeerId) (addr : SocketAddr) (evidenceBefore : Instant) :
    PeerRegistryOwner × DeadPeerReleaseOutcome :=
  if !s.reapCommitted addr
      && (s.claimCommittedAt.get addr).any (fun committedAt => committedAt > evidenceBefore) then
    (s, .provenAlive)
  else if !s.reapCommitted addr
      && (s.livenessEvidenceAt.get addr).any (fun seenAt => seenAt > evidenceBefore) then
    (s, .provenAlive)
  else
    let s := s.dropReceipts fun key => key.peer = peerId ∧ key.addr = addr
    if s.operatorPinned.containsKey addr then (s, .notApplicable)
    else if !s.ownedBy addr peerId then (s, .notApplicable)
    else
      match s.removeOwner addr with
      | none => (s, .notApplicable)
      | some (s, commitSeq) => (s, .released commitSeq)

/-- The current token of `addr`.  The source panics when an owned address has
no generation; the two tables always have the same keys (`Coherent.keys`). -/
def currentOwnershipToken (addr : SocketAddr) : Option OwnershipToken :=
  (s.addrOwnership.get addr).bind fun owner =>
    (s.claimGeneration.get addr).map fun generation => ⟨owner.nodeId, generation⟩

def reserveForReap (addr : SocketAddr) (evidenceBefore : Instant)
    (expectedOwnership : Option OwnershipToken) (expectedPin expectedNodeId : Option PeerId) :
    PeerRegistryOwner × Option CellId :=
  if (s.claimCommittedAt.get addr).any (fun committedAt => committedAt > evidenceBefore) then
    (s, none)
  else if s.currentOwnershipToken addr ≠ expectedOwnership then (s, none)
  else if s.operatorPinned.get addr ≠ expectedPin then (s, none)
  else if ((expectedOwnership.map (·.owner)).or expectedPin).any
      (fun currentIdentity => expectedNodeId ≠ some currentIdentity) then (s, none)
  else if s.reapReserved.containsKey addr then (s, none)
  else
    let valid := s.cells.length
    ({ s with
        cells := s.cells ++ [.pending]
        reapReserved := s.reapReserved.insert addr valid },
      some valid)

/-- `pinned_by_peer` without the reverse entry of another peer pinned at
`addr`. -/
def clearDisplaced (addr : SocketAddr) (peerId : PeerId) : Table PeerId SocketAddr :=
  match s.operatorPinned.get addr with
  | some previousPeer =>
    if previousPeer ≠ peerId ∧ s.pinnedByPeer.get previousPeer = some addr then
      s.pinnedByPeer.remove previousPeer else s.pinnedByPeer
  | none => s.pinnedByPeer

def installPin (addr : SocketAddr) (peerId : PeerId) : PeerRegistryOwner × Option SocketAddr :=
  let s := { s with pinnedByPeer := s.clearDisplaced addr peerId }
  let previous := s.pinnedByPeer.get peerId
  let s := { s with pinnedByPeer := s.pinnedByPeer.insert peerId addr }
  let evicted := previous.filter fun previousAddr => previousAddr ≠ addr
  let s := match evicted with
    | some evictedAddr => { s with operatorPinned := s.operatorPinned.remove evictedAddr }
    | none => s
  let s := s.route (.setConfiguredPeerAddr addr peerId evicted)
  let s := { s with operatorPinned := s.operatorPinned.insert addr peerId }
  let snapshot := s.snapshot.withPin addr (some peerId)
  let snapshot := match evicted with
    | some evictedAddr => snapshot.withPin evictedAddr none
    | none => snapshot
  ({ s with snapshot := snapshot }, evicted)

def setOrdinaryConnectRoute (peerId : PeerId) (addr : SocketAddr) : PeerRegistryOwner × Bool :=
  if (s.pinnedByPeer.get peerId).any (fun pinned => pinned ≠ addr) then (s, false)
  else (s.route (.setConfiguredPeerAddr addr peerId none), true)

/-- The peer's previous pin is another address that a sweep holds reserved. -/
def previousPinReserved (peerId : PeerId) (addr : SocketAddr) : Bool :=
  (s.pinnedByPeer.get peerId).any fun previous =>
    previous ≠ addr && s.reapReserved.containsKey previous

/-- The release of an evicted pin's ownership at the end of `configurePeer`. -/
def releaseEvicted (peerId : PeerId) (evictedAddr : SocketAddr) :
    PeerRegistryOwner × Option CommitSeq :=
  let s := s.dropReceipts fun key => key.peer = peerId ∧ key.addr = evictedAddr
  if s.ownedBy evictedAddr peerId then
    match s.removeOwner evictedAddr with
    | none => (s, none)
    | some (s, commitSeq) => (s, some commitSeq)
  else (s, none)

/-- The part of `configurePeer` after its generation has been settled: claim,
pin, and release what the pin evicts. -/
def configureAt (addr : SocketAddr) (peerId : PeerId) (generation : ℕ) :
    PeerRegistryOwner × ConfigurePeerCommit :=
  let (s, commit) := s.claim addr ⟨peerId, .verified⟩ false
  if !commit.isAccepted then (s, ⟨commit, none, none, generation⟩)
  else
    let (s, evictedPin) := s.installPin addr peerId
    match evictedPin with
    | none => (s, ⟨commit, none, none, generation⟩)
    | some evictedAddr =>
      let (s, evictedReleaseSeq) := s.releaseEvicted peerId evictedAddr
      (s, ⟨commit, some evictedAddr, evictedReleaseSeq, generation⟩)

def configurePeer (addr : SocketAddr) (peerId : PeerId) (expectedGeneration : Option ℕ) :
    PeerRegistryOwner × ConfigurePeerCommit :=
  let currentGeneration := s.configurePeerGenerationOf peerId
  if s.previousPinReserved peerId addr then
    (s, ⟨.rejected .reapInProgress, none, none, currentGeneration⟩)
  else
    match expectedGeneration with
    | some expected =>
      if expected < currentGeneration then
        (s, ⟨.rejected .supersededByNewerConfiguration, none, none, currentGeneration⟩)
      else s.configureAt addr peerId expected
    | none =>
      let bumped := currentGeneration + 1
      { s with configurePeerGeneration := s.configurePeerGeneration.insert peerId bumped
        }.configureAt addr peerId bumped

/-- The source of a migration is what the caller expects it to be. -/
def sourceMatches (source : SocketAddr) : SourceExpectation → Bool
  | .unowned => (s.addrOwnership.get source).isNone
  | .owned token =>
    s.ownedBy source token.owner && s.claimGeneration.get source = some token.generation

/-- Carry a timestamp from one address to another, keeping the newer of the
two. -/
def carryEvidence (evidence : Table SocketAddr Instant) (source target : SocketAddr) :
    Table SocketAddr Instant :=
  match evidence.get source with
  | some stamp => (evidence.remove source).upsertMax target stamp
  | none => evidence

/-- Receipts of `owner` move from `source` to `target` at the new generation;
other receipts at `source` are dropped. -/
def migrateReceipts (receipts : Table ReceiptKey CommitSeq) (owner : PeerId)
    (source target : SocketAddr) (commitSeq : CommitSeq) : Table ReceiptKey CommitSeq :=
  let migrated := receipts.keys.filter fun key => key.addr = source ∧ key.peer = owner
  let receipts := receipts.retain fun key _ => !(key.addr = source)
  let receipts := migrated.foldl
    (fun receipts key => receipts.insert ⟨owner, key.instanceId, target⟩ commitSeq) receipts
  receipts.iterMut fun key generation =>
    if key.peer = owner ∧ key.addr = target then commitSeq else generation

/-- The committing part of `migrate`, once every check has passed. -/
def migrateOwned (source target : SocketAddr) (owner : Owner) : PeerRegistryOwner × CommitSeq :=
  let s := { s with
    addrOwnership := (s.addrOwnership.remove source).insert target owner }
  let migratedPin := s.operatorPinned.get source
  let s := { s with operatorPinned := s.operatorPinned.remove source }
  let s := match migratedPin with
    | some pinnedPeer =>
      { s with
        operatorPinned := s.operatorPinned.insert target pinnedPeer
        pinnedByPeer := s.pinnedByPeer.insert pinnedPeer target
      }.route (.setConfiguredPeerAddr target pinnedPeer (some source))
    | none => s
  let (s, commitSeq) := s.advance
  let s := { s with
    claimGeneration := (s.claimGeneration.remove source).insert target commitSeq
    connectionScopedClaims :=
      migrateReceipts s.connectionScopedClaims owner.nodeId source target commitSeq
    claimCommittedAt := carryEvidence s.claimCommittedAt source target
    livenessEvidenceAt := carryEvidence s.livenessEvidenceAt source target }
  let snapshot := (s.snapshot.withOwner source none).withOwner target (some (owner, commitSeq))
  let snapshot := match migratedPin with
    | some pinnedPeer => (snapshot.withPin source none).withPin target (some pinnedPeer)
    | none => snapshot
  let s := { s with snapshot := snapshot }
  let s := s.route (.retractOwner source owner.nodeId)
  (s.route (.publishOwner target owner.nodeId), commitSeq)

def migrate (source target : SocketAddr) (expectedSource : SourceExpectation)
    (isLocalAddr : Bool) : PeerRegistryOwner × MigrateOutcome :=
  if s.reapReserved.containsKey source || s.reapReserved.containsKey target then
    (s, .reapInProgress)
  else if isLocalAddr then (s, .targetIsLocal)
  else if !s.sourceMatches source expectedSource then (s, .sourceOwnerMismatch)
  else
    let sourceOwner := s.addrOwnership.get source
    let destination := s.addrOwnership.get target
    if destination.any (fun existing =>
        !sourceOwner.any fun owner => owner.nodeId = existing.nodeId) then (s, .targetOwnedByOther)
    else
      match sourceOwner with
      | none => (s, .sourceUnowned)
      | some owner =>
        let kind := resolvedKind destination ⟨owner.nodeId, owner.kind⟩
        let (s, commitSeq) := s.migrateOwned source target ⟨owner.nodeId, kind⟩
        (s, .migrated commitSeq)

def handle : OwnerCommand → PeerRegistryOwner × OwnerReply
  | .claim addr claim isLocalAddr =>
    let (s, commit) := s.claim addr claim isLocalAddr
    (s, .claim commit)
  | .release addr expectedOwner expectedGeneration =>
    let (s, released) := s.release addr expectedOwner expectedGeneration
    (s, .release released)
  | .migrate source target isLocalAddr expectedSource =>
    let (s, outcome) := s.migrate source target expectedSource isLocalAddr
    (s, .migrate outcome)
  | .claimConnectionScoped addr claim sessionSource connectionInstanceId evidenceAt =>
    let (s, commit) :=
      s.claimConnectionScoped addr claim sessionSource connectionInstanceId evidenceAt
    (s, .claim commit)
  | .releaseSession peerId sessionSource connectionInstanceId order =>
    let (s, released) := s.releaseSession peerId sessionSource connectionInstanceId order
    (s, .releaseSession released)
  | .releaseDeadPeer peerId addr evidenceBefore =>
    let (s, outcome) := s.releaseDeadPeer peerId addr evidenceBefore
    (s, .releaseDeadPeer outcome)
  | .hasNewerLivenessEvidence addr evidenceBefore =>
    (s, .answer (s.hasNewerLivenessEvidence addr evidenceBefore))
  | .reapBaselineActivityDetected addr peerId evidenceBefore baseline =>
    (s, .answer (s.reapBaselineActivityDetected addr peerId evidenceBefore baseline))
  | .configurePeerGenerationOf peerId => (s, .generation (s.configurePeerGenerationOf peerId))
  | .reserveForReap addr evidenceBefore expectedOwnership expectedPin expectedNodeId =>
    let (s, granted) :=
      s.reserveForReap addr evidenceBefore expectedOwnership expectedPin expectedNodeId
    (s, .reserveForReap granted)
  | .releaseReapReservation addr =>
    ({ s with reapReserved := s.reapReserved.remove addr }, .done)
  | .configurePeer addr peerId expectedGeneration =>
    let (s, commit) := s.configurePeer addr peerId expectedGeneration
    (s, .configurePeer commit)
  | .setOrdinaryConnectRoute peerId addr =>
    let (s, accepted) := s.setOrdinaryConnectRoute peerId addr
    (s, .answer accepted)
  | .noteLivenessEvidence addr instant => (s.noteLivenessEvidence addr instant, .done)

/-- The guard's one-shot authorization: `REAP_PENDING` to `REAP_COMMITTED`. -/
def tryConsume (cell : CellId) : PeerRegistryOwner × Bool :=
  s.compareExchange cell .pending .committed

end PeerRegistryOwner

/-- What happens to the owner's state: a command is handled, or a guard
commits the reservation it holds. -/
inductive OwnerEvent
  | command (cmd : OwnerCommand)
  | tryConsume (cell : CellId)

def PeerRegistryOwner.step (s : PeerRegistryOwner) : OwnerEvent → PeerRegistryOwner
  | .command cmd => (s.handle cmd).1
  | .tryConsume cell => (s.tryConsume cell).1

/-- The state after a run of the owner task started with empty tables. -/
def ownerRun (hasher : SocketAddr → UInt64) (routing : Option (List RoutingCall))
    (events : List OwnerEvent) : PeerRegistryOwner :=
  Run.exec PeerRegistryOwner.step (PeerRegistryOwner.start hasher routing) events

/-! ### Concrete runs -/

namespace Sample

def alice : PeerId := ⟨1⟩

/-- The address 10.0.0.`n`, port 9000. -/
def host (n : BitVec 32) : SocketAddr := .v4 (0x0a000000#32 + n) 9000

end Sample

end IcanactRemote
