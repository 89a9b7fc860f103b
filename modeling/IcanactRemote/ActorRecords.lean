/-
Actor records: what gossip carries and what a node stores for a name
(`remote_actor_location.rs`, `registry.rs`).

A location says where an actor runs and under which vector clock it was
announced; a tombstone remembers under which clock it was removed.  This module
has the records and the pure comparisons on them:

* `stableConcurrentLocationWins`, `stableConcurrentRemovalWins` — the ties of
  concurrent updates;
* `ownerRecoveryWinsTombstone`, `mergeTombstoneKind` — what an owner may undo;
* `resolveRemoteActorAddr`, `resolveOwnedActorAddr` — the address stored for an
  advertised one.

`stableConcurrentLocationWins_iff` reads the first as a strict lexicographic
order, from which it inherits irreflexivity and asymmetry.
-/
import IcanactRemote.AddrOwnership
import IcanactRemote.BigEndian
import IcanactRemote.VectorClock

namespace IcanactRemote

/-! ### Identities and texts -/

/-- The public key of a node, as vector clocks name it.  Keys are ordered by
their bytes. -/
structure GossipNodeId where
  bytes : BitVec 256
  deriving DecidableEq

namespace GossipNodeId

lemma toNat_injective : Function.Injective fun n : GossipNodeId => n.bytes.toNat := by
  rintro ⟨a⟩ ⟨b⟩ h
  exact congrArg mk (BitVec.eq_of_toNat_eq h)

instance : LinearOrder GossipNodeId :=
  LinearOrder.lift' (fun n => n.bytes.toNat) toNat_injective

end GossipNodeId

/-- A peer and its node carry the same key. -/
def PeerId.toNodeId (p : PeerId) : GossipNodeId := ⟨p.bytes⟩

abbrev Byte := Fin 256

/-- A string, as the bytes it is compared by. -/
abbrev Text := List Byte

abbrev Clock := VectorClock GossipNodeId

inductive RegistrationPriority
  | normal
  | immediate
  deriving DecidableEq

def RegistrationPriority.shouldTriggerImmediateGossip : RegistrationPriority → Bool
  | .normal => false
  | .immediate => true

/-! ### Records -/

structure RemoteActorLocation where
  address : Text
  peerId : PeerId
  nodeId : GossipNodeId
  vectorClock : Clock
  wallClockTime : ℕ
  priority : RegistrationPriority
  localRegistrationTime : ℕ
  metadata : List Byte
  deriving DecidableEq

inductive RegistryChange
  | actorAdded (name : Text) (location : RemoteActorLocation) (priority : RegistrationPriority)
  | actorRemoved (name : Text) (vectorClock : Clock) (removingNodeId : GossipNodeId)
      (priority : RegistrationPriority)
  deriving DecidableEq

namespace RegistryChange

/-- `get_change_actor_name`. -/
def actorName : RegistryChange → Text
  | actorAdded name _ _ => name
  | actorRemoved name _ _ _ => name

/-- `change_vector_clock`. -/
def vectorClock : RegistryChange → Clock
  | actorAdded _ location _ => location.vectorClock
  | actorRemoved _ clock _ _ => clock

def isRemoved : RegistryChange → Bool
  | actorAdded .. => false
  | actorRemoved .. => true

def asRegularGossipChange : RegistryChange → RegistryChange
  | actorAdded name location _ => actorAdded name location .normal
  | actorRemoved name clock removing _ => actorRemoved name clock removing .normal

variable (c : RegistryChange) {cs : List RegistryChange}

@[simp] lemma actorName_asRegularGossipChange :
    c.asRegularGossipChange.actorName = c.actorName := by cases c <;> rfl

@[simp] lemma vectorClock_asRegularGossipChange :
    c.asRegularGossipChange.vectorClock = c.vectorClock := by cases c <;> rfl

@[simp] lemma isRemoved_asRegularGossipChange :
    c.asRegularGossipChange.isRemoved = c.isRemoved := by cases c <;> rfl

lemma isChain_concat {c : RegistryChange}
    (h : cs.IsChain fun a b => a.vectorClock < b.vectorClock)
    (hlt : ∀ b, cs.getLast? = some b → b.vectorClock < c.vectorClock) :
    (cs ++ [c]).IsChain fun a b => a.vectorClock < b.vectorClock := by
  refine List.isChain_append.mpr ⟨h, List.isChain_singleton c, ?_⟩
  intro b hb d hd
  rw [List.head?_cons, Option.mem_some_iff] at hd
  rw [← hd]
  exact hlt b hb

lemma pairwise_of_isChain (h : cs.IsChain fun a b => a.vectorClock < b.vectorClock) :
    cs.Pairwise fun a b => a.vectorClock < b.vectorClock := by
  exact List.isChain_iff_pairwise.mp h

end RegistryChange

inductive TombstoneKind
  | peerDeath
  | explicitUnregister
  | unknown
  deriving DecidableEq

structure RemovedActorTombstone where
  vectorClock : Clock
  kind : TombstoneKind
  ownerNodeId : Option GossipNodeId
  deriving DecidableEq

/-! ### Ties between concurrent updates -/

/-- One field of a tie-break: the larger value decides, equal values leave it
to `rest`. -/
def tieBreak {α : Type*} [LT α] [DecidableLT α] (candidate existing : α) (rest : Bool) : Bool :=
  if candidate > existing then true else if candidate < existing then false else rest

lemma tieBreak_eq_true {α : Type*} [LinearOrder α] {d : DecidableLT α} {candidate existing : α}
    {rest : Bool} : tieBreak candidate existing rest = true ↔
      existing < candidate ∨ existing = candidate ∧ rest = true := by
  unfold tieBreak
  rcases lt_trichotomy existing candidate with h | h | h
  · simp [h]
  · simp [h]
  · simp [h, h.not_gt, h.ne']

def stableConcurrentLocationWins (candidate existing : RemoteActorLocation) : Bool :=
  tieBreak candidate.wallClockTime existing.wallClockTime <|
  tieBreak candidate.nodeId existing.nodeId <|
  tieBreak candidate.address existing.address <|
  tieBreak candidate.metadata existing.metadata <|
  candidate.localRegistrationTime > existing.localRegistrationTime

/-- The fields the tie-break reads, in its order. -/
def RemoteActorLocation.tieKey (l : RemoteActorLocation) :
    ℕ ×ₗ GossipNodeId ×ₗ Text ×ₗ List Byte ×ₗ ℕ :=
  toLex (l.wallClockTime, toLex (l.nodeId, toLex (l.address,
    toLex (l.metadata, l.localRegistrationTime))))

variable {candidate existing location : RemoteActorLocation}

/-- **The tie-break is a strict order.**  The candidate wins exactly when its
key is the larger one. -/
theorem stableConcurrentLocationWins_iff : stableConcurrentLocationWins candidate existing = true ↔
    existing.tieKey < candidate.tieKey := by
  unfold stableConcurrentLocationWins RemoteActorLocation.tieKey
  simp only [Prod.Lex.toLex_lt_toLex, tieBreak_eq_true, decide_eq_true_eq, gt_iff_lt]

def stableConcurrentRemovalWins (removingNodeId : GossipNodeId) (removalClock : Clock)
    (existing : RemoteActorLocation) : Bool :=
  tieBreak (removalClock.toVec.map toLex) (existing.vectorClock.toVec.map toLex) <|
  removingNodeId > existing.nodeId

/-! ### Tombstones -/

def ownerRecoveryWinsTombstone (location : RemoteActorLocation) (senderPeerId : PeerId)
    (tombstone : RemovedActorTombstone) (ownerRestartAuthenticated : Bool) : Bool :=
  if location.peerId ≠ senderPeerId then false
  else
    let ownerClock := location.vectorClock.get location.nodeId
    let tombstoneOwnerClock := tombstone.vectorClock.get location.nodeId
    if ownerClock > tombstoneOwnerClock then true
    else if ownerClock = tombstoneOwnerClock then decide (tombstone.kind = .peerDeath)
    else ownerRestartAuthenticated && decide (tombstone.kind = .peerDeath)

/-- Over a tombstone that is not a peer death, recovery takes the actor's own
peer and a larger counter of its node. -/
lemma lt_of_ownerRecoveryWinsTombstone {sender : PeerId} {tombstone : RemovedActorTombstone}
    {restart : Bool} (hkind : tombstone.kind ≠ .peerDeath)
    (h : ownerRecoveryWinsTombstone location sender tombstone restart = true) :
    location.peerId = sender ∧
      tombstone.vectorClock.get location.nodeId < location.vectorClock.get location.nodeId := by
  unfold ownerRecoveryWinsTombstone at h
  by_cases hp : location.peerId = sender
  · refine ⟨hp, ?_⟩
    by_contra hlt
    simp [hp, hlt, hkind] at h
  · simp [hp] at h

def tombstoneKindForRemoval (ownerNodeId removingNodeId : GossipNodeId) : TombstoneKind :=
  if ownerNodeId = removingNodeId then .explicitUnregister else .peerDeath

def mergeTombstoneKind : Option TombstoneKind → TombstoneKind → TombstoneKind
  | some .explicitUnregister, _ => .explicitUnregister
  | _, .explicitUnregister => .explicitUnregister
  | some .peerDeath, _ => .peerDeath
  | _, .peerDeath => .peerDeath
  | _, _ => .unknown

lemma mergeTombstoneKind_ne_peerDeath {existing : Option TombstoneKind} {new : TombstoneKind}
    (hex : existing ≠ some .peerDeath) (hnew : new ≠ .peerDeath) :
    mergeTombstoneKind existing new ≠ .peerDeath := by
  rcases existing with _ | (_ | _ | _) <;> cases new <;> simp_all [mergeTombstoneKind]

/-! ### Addresses -/

/-- `std::net::IpAddr`. -/
inductive IpAddr
  | v4 (ip : BitVec 32)
  | v6 (ip : BitVec 128)
  deriving DecidableEq

namespace IpAddr

def isUnspecified : IpAddr → Bool
  | v4 ip => ip == 0
  | v6 ip => ip == 0

/-- `224.0.0.0/4` and `ff00::/8`. -/
def isMulticast : IpAddr → Bool
  | v4 ip => ip.extractLsb' 28 4 == 0xe
  | v6 ip => ip.extractLsb' 120 8 == 0xff

/-- `127.0.0.0/8` and `::1`. -/
def isLoopback : IpAddr → Bool
  | v4 ip => ip.extractLsb' 24 8 == 127
  | v6 ip => ip == 1

/-- `169.254.0.0/16` and `fe80::/10`. -/
def isLinkLocal : IpAddr → Bool
  | v4 ip => ip.extractLsb' 16 16 == 0xa9fe
  | v6 ip => ip.extractLsb' 118 10 == 0x3fa

end IpAddr

namespace SocketAddr

def ip : SocketAddr → IpAddr
  | v4 ip _ => .v4 ip
  | v6 ip _ _ _ => .v6 ip

def port : SocketAddr → BitVec 16
  | v4 _ port => port
  | v6 _ port _ _ => port

/-- `SocketAddr::new`. -/
def ofIp : IpAddr → BitVec 16 → SocketAddr
  | .v4 ip, port => .v4 ip port
  | .v6 ip, port => .v6 ip port 0 0

end SocketAddr

/-- The text form of socket addresses, with its parser. -/
structure AddrText where
  parse : Text → Option SocketAddr
  toText : SocketAddr → Text

def advertisedIpUnusable (advertisedIp senderIp : IpAddr) : Bool :=
  if advertisedIp.isUnspecified || advertisedIp.isMulticast then true
  else if advertisedIp.isLoopback && !senderIp.isLoopback then true
  else advertisedIp.isLinkLocal && !senderIp.isLinkLocal

def resolveRemoteActorAddr (actorAddr senderAddr : SocketAddr) (ownerIsSender : Bool) :
    SocketAddr :=
  if !ownerIsSender || !advertisedIpUnusable actorAddr.ip senderAddr.ip then actorAddr
  else .ofIp senderAddr.ip actorAddr.port

def resolveOwnedActorAddr (actorAddr repairAddr : SocketAddr) : SocketAddr :=
  .ofIp repairAddr.ip actorAddr.port

/-- A text that is no socket address reads as `0.0.0.0:0`. -/
def canonicalWireAddr (text : AddrText) (address : Text) : SocketAddr :=
  (text.parse address).getD (.v4 0 0)

/-! ### A text form -/

def decimal (n : ℕ) : Text := (Nat.toDigits 10 n).map fun c => Fin.ofNat 256 c.toNat

/-- A decimal number of at most `max`. -/
def readDecimal (max : ℕ) (text : Text) : Option ℕ :=
  if text = [] ∨ ∃ d ∈ text, d < 48 ∨ 57 < d then none
  else (some (text.foldl (fun n d => 10 * n + (d.val - 48)) 0)).filter (· ≤ max)

/-- The text form of IPv4 addresses, `a.b.c.d:port`; no octet has a leading zero.
The one of IPv6 addresses is left out. -/
def AddrText.ipv4 : AddrText where
  toText
    | .v4 ip port =>
      let octet k := decimal (ip.toNat / 256 ^ k % 256)
      octet 3 ++ 46 :: octet 2 ++ 46 :: octet 1 ++ 46 :: octet 0 ++ 58 :: decimal port.toNat
    | .v6 .. => []
  parse text :=
    match text.splitOn 58 with
    | [ip, port] =>
      let octets := ip.splitOn 46
      match octets.mapM (readDecimal 255), readDecimal 65535 port with
      | some [a, b, c, d], some n =>
        if [a, b, c, d].map decimal = octets then
          some (.v4 (BitVec.ofNat 32 (((a * 256 + b) * 256 + c) * 256 + d)) (BitVec.ofNat 16 n))
        else none
      | _, _ => none
    | _ => none

/-- A plain actor of the node with this number, at port 7000. -/
def RemoteActorLocation.hostedBy (id : ℕ) (clock : List (GossipNodeId × ℕ)) :
    RemoteActorLocation :=
  ⟨AddrText.ipv4.toText (.v4 (BitVec.ofNat 32 id) 7000), ⟨BitVec.ofNat 256 id⟩,
    ⟨BitVec.ofNat 256 id⟩, .fromVec clock, 0, .normal, 0, []⟩

end IcanactRemote
