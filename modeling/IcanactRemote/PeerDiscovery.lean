/-
Peer discovery: which addresses are to be dialled, and who holds a dial.

Every address is pending, failed or connected, or not known.  A gossip batch claims
addresses for dialling, each claim under a fresh generation, and a failed dial is
kept as history; both are to stay bounded.

* `PeerDiscovery` — the states and the operations on them;
* `Numbered` — every generation was issued once, to the address that carries it;
* `Bounded`, `Latest` — the bound on failed addresses, and claims as they were last issued;
* `bounded_and_claims_kept` — what holds in all runs, and what holds as long as a
  restored state still fits;
* `scan_eq` — the scan of a batch in closed form;
* `proposes_new_endpoints` — a batch proposes new endpoints only, each once, exactly if
  none of its candidates is another written form of one that is taken.
-/
import IcanactRemote.ActorRecords
import IcanactRemote.Run
import IcanactRemote.Table

namespace IcanactRemote

open List

/-! ### Addresses -/

namespace SocketAddr

/-- The order of `SocketAddr`: the address, then the port, IPv4 before IPv6. -/
def rank : SocketAddr → ℕ
  | v4 ip port => ip.toNat * 2 ^ 16 + port.toNat
  | v6 ip port flowinfo scopeId =>
    2 ^ 48 + ((ip.toNat * 2 ^ 16 + port.toNat) * 2 ^ 32 + flowinfo.toNat) * 2 ^ 32 +
      scopeId.toNat

end SocketAddr

/-- `10.0.0.0/8`, `172.16.0.0/12`, `192.168.0.0/16`. -/
def isPrivateV4 (ip : BitVec 32) : Bool :=
  ip.extractLsb' 24 8 == 10 || ip.extractLsb' 20 12 == 0xac1 || ip.extractLsb' 16 16 == 0xc0a8

/-- `192.0.2.0/24`, `198.51.100.0/24`, `203.0.113.0/24`. -/
def isDocumentationV4 (ip : BitVec 32) : Bool :=
  ip.extractLsb' 8 24 == 0xc00002 || ip.extractLsb' 8 24 == 0xc63364 ||
    ip.extractLsb' 8 24 == 0xcb0071

def isSafeIpv4 (ip : BitVec 32) (allowPrivate allowLoopback allowLinkLocal : Bool) : Bool :=
  !((IpAddr.v4 ip).isLoopback && !allowLoopback) &&
  !((IpAddr.v4 ip).isLinkLocal && !allowLinkLocal) &&
  !(isPrivateV4 ip && !allowPrivate) &&
  !(IpAddr.v4 ip).isUnspecified &&
  !(ip == 0xffffffff) &&
  !(IpAddr.v4 ip).isMulticast &&
  !isDocumentationV4 ip

/-- `to_ipv4_mapped`: `::ffff:a.b.c.d`. -/
def toIpv4Mapped (ip : BitVec 128) : Option (BitVec 32) :=
  if ip.extractLsb' 32 96 = 0xffff then some (ip.extractLsb' 0 32) else none

def isSafeIpv6 (ip : BitVec 128) (allowPrivate allowLoopback allowLinkLocal : Bool) : Bool :=
  match toIpv4Mapped ip with
  | some mapped => isSafeIpv4 mapped allowPrivate allowLoopback allowLinkLocal
  | none =>
    !((IpAddr.v6 ip).isLoopback && !allowLoopback) &&
    !(IpAddr.v6 ip).isUnspecified &&
    !(IpAddr.v6 ip).isMulticast &&
    !((IpAddr.v6 ip).isLinkLocal && !allowLinkLocal) &&
    -- unique local addresses, `fc00::/7`
    !(ip.extractLsb' 121 7 == 0x7e && !allowPrivate) &&
    -- documentation prefix, `2001:db8::/32`
    !(ip.extractLsb' 96 32 == 0x20010db8)

def isSafeToDial (addr : SocketAddr) (allowPrivate allowLoopback allowLinkLocal : Bool) : Bool :=
  match addr.ip with
  | .v4 ip => isSafeIpv4 ip allowPrivate allowLoopback allowLinkLocal
  | .v6 ip => isSafeIpv6 ip allowPrivate allowLoopback allowLinkLocal

/-- An IPv4-mapped address is the endpoint of its IPv4 form. -/
def SocketAddr.endpoint : SocketAddr → SocketAddr
  | v4 ip port => v4 ip port
  | v6 ip port flowinfo scopeId =>
    match toIpv4Mapped ip with
    | some mapped => v4 mapped port
    | none => v6 ip port flowinfo scopeId

/-! ### States -/

def maxPeerFailures : ℕ := 10
def maxBackoffSeconds : ℕ := 3600
def minBackoffSeconds : ℕ := 2

def decorrelatedBackoffSeconds (previous entropy : ℕ) : ℕ :=
  let upper := min (max previous minBackoffSeconds * 3) maxBackoffSeconds
  minBackoffSeconds + entropy % (upper - minBackoffSeconds + 1)

inductive PeerState
  | pending (since attempts previousRetryDelaySeconds claimGeneration : ℕ)
  | failed (since attempts retryDelaySeconds : ℕ)
  | connected
  deriving DecidableEq

namespace PeerState

def isPending : PeerState → Bool
  | pending .. => true
  | _ => false

def isFailed : PeerState → Bool
  | failed .. => true
  | _ => false

def isConnected : PeerState → Bool
  | connected => true
  | _ => false

def pendingClaimGeneration : PeerState → Option ℕ
  | pending _ _ _ claimGeneration => some claimGeneration
  | _ => none

/-- The sum saturates at the end of `u64`. -/
def shouldRetry (now : ℕ) : PeerState → Bool
  | failed since _ retryDelaySeconds => min (since + retryDelaySeconds) (2 ^ 64 - 1) ≤ now
  | _ => true

end PeerState

structure PeerDiscoveryConfig where
  maxPeers : ℕ
  allowPrivateDiscovery : Bool
  allowLoopbackDiscovery : Bool
  allowLinkLocalDiscovery : Bool
  /-- seconds -/
  failTtl : ℕ
  pendingTtl : ℕ

structure PeerDiscovery where
  config : PeerDiscoveryConfig
  localAddr : SocketAddr
  additionalSelfAddr : Option SocketAddr
  peerStates : Table SocketAddr PeerState
  nextClaimGeneration : ℕ

structure PeerDiscoveryCleanupStats where
  pendingRemoved : ℕ
  failedRemoved : ℕ

namespace PeerDiscovery

variable (d : PeerDiscovery)

/-- `PeerDiscovery::new` and `with_additional_self_addr`. -/
def new (config : PeerDiscoveryConfig) (localAddr : SocketAddr)
    (additional : Option SocketAddr) : PeerDiscovery :=
  ⟨config, localAddr, additional.filter (· ≠ localAddr), .empty, 0⟩

/-- How many of the states satisfy `p`. -/
def count (p : PeerState → Bool) : ℕ := d.peerStates.total fun s => if p s then 1 else 0

def failedPeerCount : ℕ := d.count PeerState.isFailed
def connectedPeerCount : ℕ := d.count PeerState.isConnected
def pendingPeerCount : ℕ := d.count PeerState.isPending

def getPeerState (addr : SocketAddr) : Option PeerState := d.peerStates.get addr

def put (addr : SocketAddr) (state : PeerState) : PeerDiscovery :=
  { d with peerStates := d.peerStates.insert addr state }

def drop (addr : SocketAddr) : PeerDiscovery :=
  { d with peerStates := d.peerStates.remove addr }

/-! ### Gossip -/

/-- The filters on a parsed address of a batch. -/
def skips (now : ℕ) (candidates : List SocketAddr) (addr : SocketAddr) : Bool :=
  addr = d.localAddr || some addr = d.additionalSelfAddr || candidates.contains addr ||
  (match d.getPeerState addr with
    | some .connected => true
    | some (.pending ..) => true
    | some state => !state.shouldRetry now
    | none => false) ||
  !isSafeToDial addr d.config.allowPrivateDiscovery d.config.allowLoopbackDiscovery
    d.config.allowLinkLocalDiscovery

/-- The scan of a batch; an address that does not parse is `none`. -/
def scan (now remainingSlots : ℕ) : List (Option SocketAddr) → List SocketAddr → List SocketAddr
  | [], candidates => candidates
  | none :: peers, candidates => scan now remainingSlots peers candidates
  | some addr :: peers, candidates =>
    if d.skips now candidates addr then scan now remainingSlots peers candidates
    else if remainingSlots ≤ (candidates ++ [addr]).length then candidates ++ [addr]
    else scan now remainingSlots peers (candidates ++ [addr])

/-- A candidate becomes pending and keeps its failure history. -/
def claim (now : ℕ) (addr : SocketAddr) : PeerDiscovery :=
  let (attempts, delay) :=
    match d.getPeerState addr with
    | some (.failed _ attempts retryDelaySeconds) => (attempts, retryDelaySeconds)
    | _ => (0, minBackoffSeconds)
  { d.put addr (.pending now attempts delay (d.nextClaimGeneration + 1)) with
    nextClaimGeneration := d.nextClaimGeneration + 1 }

def claimAll (now : ℕ) (candidates : List SocketAddr) : PeerDiscovery :=
  candidates.foldl (fun d addr => d.claim now addr) d

def remainingSlots : ℕ := d.config.maxPeers - (d.connectedPeerCount + d.pendingPeerCount)

def onPeerListGossip (peers : List (Option SocketAddr)) (now : ℕ) :
    PeerDiscovery × List SocketAddr :=
  if d.remainingSlots = 0 then (d, [])
  else
    let candidates := d.scan now d.remainingSlots peers []
    (d.claimAll now candidates, candidates)

/-! ### Failures -/

/-- `(since, addr)` comes before another pair. -/
def before (x y : ℕ × SocketAddr) : Bool :=
  x.1 < y.1 || (x.1 = y.1 && x.2.rank ≤ y.2.rank)

/-- `Iterator::min`. -/
def oldest : List (ℕ × SocketAddr) → Option (ℕ × SocketAddr)
  | [] => none
  | x :: xs =>
    match oldest xs with
    | none => some x
    | some y => some (if before x y then x else y)

def failedSince (x : SocketAddr × PeerState) : Option (ℕ × SocketAddr) :=
  match x.2 with
  | .failed since _ _ => some (since, x.1)
  | _ => none

def makeRoomForFailedPeer (addr : SocketAddr) : PeerDiscovery :=
  if (d.getPeerState addr).any PeerState.isFailed then d
  else if d.failedPeerCount < max d.config.maxPeers 1 then d
  else
    match oldest (d.peerStates.toList.filterMap failedSince) with
    | some (_, evicted) => d.drop evicted
    | none => d

def putFailed (addr : SocketAddr) (since attempts retryDelaySeconds : ℕ) : PeerDiscovery :=
  (d.makeRoomForFailedPeer addr).put addr (.failed since attempts retryDelaySeconds)

/-- `attempts` is a `u8`; `entropy` is the random draw. -/
def onPeerFailure (addr : SocketAddr) (now entropy : ℕ) : PeerDiscovery × Bool :=
  let (attempts, delay) :=
    match d.getPeerState addr with
    | some (.failed _ attempts retryDelaySeconds) => (attempts, retryDelaySeconds)
    | some (.pending _ attempts previousRetryDelaySeconds _) =>
      (attempts, previousRetryDelaySeconds)
    | _ => (0, minBackoffSeconds)
  let newAttempts := min (attempts + 1) 255
  if maxPeerFailures ≤ newAttempts then (d.drop addr, true)
  else (d.putFailed addr now newAttempts (decorrelatedBackoffSeconds delay entropy), false)

def onPeerConnected (addr : SocketAddr) : PeerDiscovery := d.put addr .connected

def onPeerDisconnected (addr : SocketAddr) : PeerDiscovery := d.drop addr

def clearPending (addr : SocketAddr) (now : ℕ) : PeerDiscovery :=
  match d.getPeerState addr with
  | some (.pending _ attempts previousRetryDelaySeconds _) =>
    if 0 < attempts then d.putFailed addr now attempts previousRetryDelaySeconds else d.drop addr
  | _ => d

def clearPendingIfGeneration (addr : SocketAddr) (claimGeneration now : ℕ) : PeerDiscovery :=
  match d.getPeerState addr with
  | some (.pending _ _ _ current) =>
    if current = claimGeneration then d.clearPending addr now else d
  | _ => d

def restorePeerState (addr : SocketAddr) : Option PeerState → PeerDiscovery
  | some state => d.put addr state
  | none => d.drop addr

/-! ### Expiry -/

/-- What is to be done with an entry that has expired. -/
inductive Expiry
  | removePending
  | retry (attempts retryDelaySeconds : ℕ)
  | removeFailed

def expiry (now : ℕ) (addr : SocketAddr) : Option Expiry :=
  match d.getPeerState addr with
  | some (.pending since attempts previousRetryDelaySeconds _) =>
    if 0 < d.config.pendingTtl ∧ d.config.pendingTtl < now - since then
      if attempts = 0 then some .removePending
      else some (.retry attempts previousRetryDelaySeconds)
    else none
  | some (.failed since _ _) =>
    if 0 < d.config.failTtl ∧ d.config.failTtl < now - since then some .removeFailed else none
  | _ => none

def toRemove (now : ℕ) (order : List SocketAddr) : List SocketAddr :=
  order.filter fun addr =>
    match d.expiry now addr with
    | some .removePending => true
    | some .removeFailed => true
    | _ => false

def expiredRetries (now : ℕ) (order : List SocketAddr) : List (SocketAddr × ℕ × ℕ) :=
  order.filterMap fun addr =>
    match d.expiry now addr with
    | some (.retry attempts delay) => some (addr, attempts, delay)
    | _ => none

def cleanupStats (now : ℕ) (order : List SocketAddr) : PeerDiscoveryCleanupStats :=
  { pendingRemoved := order.countP fun addr =>
      match d.expiry now addr with
      | some .removePending => true
      | some (.retry ..) => true
      | _ => false
    failedRemoved := order.countP fun addr =>
      match d.expiry now addr with
      | some .removeFailed => true
      | _ => false }

/-- `order` lists the addresses as the map is iterated. -/
def cleanupExpired (now : ℕ) (order : List SocketAddr) :
    PeerDiscovery × PeerDiscoveryCleanupStats :=
  let removed := (d.toRemove now order).foldl (fun d addr => d.drop addr) d
  ((d.expiredRetries now order).foldl (fun d x => d.putFailed x.1 now x.2.1 x.2.2) removed,
    d.cleanupStats now order)

end PeerDiscovery

/-! ### Runs -/

/-- The discovery state with what was returned and issued so far. -/
structure DiscoveryRun where
  discovery : PeerDiscovery
  /-- what `get_peer_state` returned -/
  returned : List (SocketAddr × Option PeerState)
  /-- the generations issued, the last one first -/
  issued : List (SocketAddr × ℕ)

inductive DiscoveryEvent
  | peerListGossip (peers : List (Option SocketAddr)) (now : ℕ)
  | peerFailure (addr : SocketAddr) (now entropy : ℕ)
  | peerConnected (addr : SocketAddr)
  | peerDisconnected (addr : SocketAddr)
  | clearPending (addr : SocketAddr) (now : ℕ)
  | clearPendingIfGeneration (addr : SocketAddr) (claimGeneration now : ℕ)
  | cleanupExpired (now : ℕ) (order : List SocketAddr)
  | getPeerState (addr : SocketAddr)
  /-- only of a state that was returned for the address -/
  | restorePeerState (addr : SocketAddr) (state : Option PeerState)

namespace DiscoveryRun

def start (config : PeerDiscoveryConfig) (localAddr : SocketAddr)
    (additional : Option SocketAddr) : DiscoveryRun :=
  ⟨.new config localAddr additional, [], []⟩

/-- The generations a batch gets after `n`, the last one first. -/
def numbers : ℕ → List SocketAddr → List (SocketAddr × ℕ)
  | _, [] => []
  | n, addr :: addrs => numbers (n + 1) addrs ++ [(addr, n + 1)]

def lastIssued (issued : List (SocketAddr × ℕ)) (addr : SocketAddr) : Option ℕ :=
  (issued.find? fun x => x.1 = addr).map Prod.snd

def step (r : DiscoveryRun) : DiscoveryEvent → DiscoveryRun
  | .peerListGossip peers now =>
    { r with
      discovery := (r.discovery.onPeerListGossip peers now).1
      issued := numbers r.discovery.nextClaimGeneration
        (r.discovery.onPeerListGossip peers now).2 ++ r.issued }
  | .peerFailure addr now entropy =>
    { r with discovery := (r.discovery.onPeerFailure addr now entropy).1 }
  | .peerConnected addr => { r with discovery := r.discovery.onPeerConnected addr }
  | .peerDisconnected addr => { r with discovery := r.discovery.onPeerDisconnected addr }
  | .clearPending addr now => { r with discovery := r.discovery.clearPending addr now }
  | .clearPendingIfGeneration addr claimGeneration now =>
    { r with discovery := r.discovery.clearPendingIfGeneration addr claimGeneration now }
  | .cleanupExpired now order => { r with discovery := (r.discovery.cleanupExpired now order).1 }
  | .getPeerState addr =>
    { r with returned := (addr, r.discovery.getPeerState addr) :: r.returned }
  | .restorePeerState addr state =>
    if (addr, state) ∈ r.returned then
      { r with discovery := r.discovery.restorePeerState addr state }
    else r

end DiscoveryRun

/-! ### Counts -/

variable (now : ℕ) {state : PeerState}

namespace PeerDiscovery

variable {d d' d'' : PeerDiscovery} {addr : SocketAddr} {p : PeerState → Bool}

lemma count_put_le : (d.put addr state).count p ≤ (if p state then 1 else 0) + d.count p :=
  Table.total_insert_le d.peerStates addr state

lemma count_put_of_uncounted (h : p state = false) : (d.put addr state).count p ≤ d.count p := by
  have hput : (d.put addr state).count p ≤ (if p state then 1 else 0) + d.count p :=
    count_put_le
  rw [h, if_neg Bool.false_ne_true, Nat.zero_add] at hput
  exact hput

lemma count_drop_le : (d.drop addr).count p ≤ d.count p := Table.total_remove_le d.peerStates addr

section

variable (h : d.getPeerState addr = some state) (hp : p state = true)
include h hp

lemma count_drop_add_one : (d.drop addr).count p + 1 = d.count p := by
  have htot := Table.total_remove (w := fun s => if p s then 1 else 0) h
  simp only [hp, if_true] at htot
  unfold count
  rw [htot, Nat.add_comm]
  rfl

lemma count_put_of_counted (state' : PeerState) : (d.put addr state').count p ≤ d.count p := by
  have heq : (d.put addr state').count p = (if p state' then 1 else 0) + (d.drop addr).count p :=
    Table.total_insert_eq d.peerStates addr state'
  have hdrop := count_drop_add_one h hp
  have hweight : (if p state' then 1 else 0) ≤ 1 := by
    split <;> omega
  omega

end

lemma exists_of_count_pos (h : 0 < d.count p) : ∃ a s, d.getPeerState a = some s ∧ p s = true := by
  by_contra hnone
  push Not at hnone
  refine absurd (sum_eq_zero fun n hn => ?_) (Nat.ne_of_gt h)
  obtain ⟨x, hx, rfl⟩ := mem_map.mp hn
  have hget : d.getPeerState x.1 = some x.2 := Table.mem_toList.mp hx
  exact if_neg (hnone x.1 x.2 hget)

/-! ### Room for a failed address -/

variable {P : PeerDiscovery → List (SocketAddr × ℕ) → Prop} {xs : List (ℕ × SocketAddr)}
  (a : SocketAddr)

lemma mem_of_oldest {x : ℕ × SocketAddr} (h : oldest xs = some x) : x ∈ xs := by
  induction xs with
  | nil => cases h
  | cons y ys ih =>
    simp only [oldest] at h
    cases hold : oldest ys with
    | none =>
      rw [hold] at h
      obtain rfl := Option.some.inj h
      exact mem_cons_self
    | some =>
      rw [hold] at h ih
      obtain rfl := Option.some.inj h
      split
      · exact mem_cons_self
      next hlt =>
        rw [if_neg hlt] at ih
        exact mem_cons_of_mem y (ih rfl)

lemma exists_oldest (h : xs ≠ []) : ∃ x, oldest xs = some x := by
  cases xs with
  | nil => exact absurd rfl h
  | cons x xs =>
    simp only [oldest]
    cases oldest xs with
    | none => exact ⟨x, rfl⟩
    | some => exact ⟨_, rfl⟩

lemma failed_of_oldest {since : ℕ}
    (h : oldest (d.peerStates.toList.filterMap failedSince) = some (since, addr)) :
    ∃ state, d.getPeerState addr = some state ∧ state.isFailed = true := by
  obtain ⟨x, hx, hsince⟩ := mem_filterMap.mp (mem_of_oldest h)
  have hget : d.getPeerState x.1 = some x.2 := Table.mem_toList.mp hx
  obtain ⟨a, state⟩ := x
  cases state with
  | pending | connected => cases hsince
  | failed =>
    obtain ⟨rfl, rfl⟩ := Prod.mk.inj (Option.some.inj hsince)
    exact ⟨_, hget, rfl⟩

lemma exists_oldest_of_failed (h : 0 < d.failedPeerCount) :
    ∃ x, oldest (d.peerStates.toList.filterMap failedSince) = some x := by
  obtain ⟨a, state, hget, hfail⟩ := exists_of_count_pos h
  cases state with
  | pending | connected => cases hfail
  | failed since =>
    have hmem : (since, a) ∈ d.peerStates.toList.filterMap failedSince :=
      mem_filterMap.mpr ⟨_, Table.mem_toList.mpr hget, rfl⟩
    exact exists_oldest (ne_nil_of_mem hmem)

lemma makeRoom_cases (d : PeerDiscovery) (addr : SocketAddr) :
    d.makeRoomForFailedPeer addr = d ∨ ∃ a, d.makeRoomForFailedPeer addr = d.drop a := by
  unfold makeRoomForFailedPeer
  split
  · exact .inl rfl
  · split
    · exact .inl rfl
    · split
      · exact .inr ⟨_, rfl⟩
      · exact .inl rfl

def Bounded (d : PeerDiscovery) : Prop := d.failedPeerCount ≤ max 1 d.config.maxPeers

lemma bounded_putFailed (h : Bounded d) (since attempts delay : ℕ) :
    (d.putFailed addr since attempts delay).failedPeerCount ≤ max 1 d.config.maxPeers := by
  unfold putFailed makeRoomForFailedPeer
  by_cases hfail : (d.getPeerState addr).any PeerState.isFailed = true
  · rw [if_pos hfail]
    obtain ⟨state, hget, hst⟩ := (Option.any_eq_true ..).mp hfail
    exact (count_put_of_counted hget hst _).trans h
  rw [if_neg hfail]
  split
  next hroom =>
    have hput : (d.put addr (.failed since attempts delay)).failedPeerCount ≤
        1 + d.failedPeerCount :=
      count_put_le
    omega
  next hfull =>
    -- the oldest failed entry makes room
    have hpos : 0 < d.failedPeerCount := by omega
    obtain ⟨⟨oldSince, evicted⟩, hold⟩ := exists_oldest_of_failed hpos
    rw [hold]
    obtain ⟨state, hget, hst⟩ := failed_of_oldest hold
    have hdrop : (d.drop evicted).failedPeerCount + 1 = d.failedPeerCount :=
      count_drop_add_one hget hst
    have hput : ((d.drop evicted).put addr (.failed since attempts delay)).failedPeerCount ≤
        1 + (d.drop evicted).failedPeerCount :=
      count_put_le
    unfold Bounded at h
    simp only
    omega

/-! ### What an operation leaves of the claims -/

/-- The generation of the claim on an address. -/
def generation (d : PeerDiscovery) (addr : SocketAddr) : Option ℕ :=
  (d.getPeerState addr).bind PeerState.pendingClaimGeneration

lemma generation_put (a : SocketAddr) : (d.put addr state).generation a =
    if a = addr then state.pendingClaimGeneration else d.generation a := by
  unfold generation getPeerState put
  rw [Table.get_insert]
  split <;> rfl

lemma generation_drop : (d.drop addr).generation a = if a = addr then none else d.generation a := by
  unfold generation getPeerState drop
  rw [Table.get_remove]
  split <;> rfl

/-- No claim is new, and the failed addresses are as bounded as before. -/
structure Sheds (d d' : PeerDiscovery) : Prop where
  config : d'.config = d.config
  next : d'.nextClaimGeneration = d.nextClaimGeneration
  claims : ∀ a g, d'.generation a = some g → d.generation a = some g
  bounded : Bounded d → Bounded d'

lemma Sheds.refl : Sheds d d := ⟨rfl, rfl, fun _ _ h => h, id⟩

lemma Sheds.trans (h : Sheds d d') (h' : Sheds d' d'') : Sheds d d'' :=
  ⟨h'.config.trans h.config, h'.next.trans h.next,
    fun a g hg => h.claims a g (h'.claims a g hg), fun hb => h'.bounded (h.bounded hb)⟩

lemma sheds_drop : Sheds d (d.drop addr) := by
  refine ⟨rfl, rfl, fun a g hg => ?_, fun hb => count_drop_le.trans hb⟩
  rw [generation_drop] at hg
  split at hg
  · cases hg
  · exact hg

lemma sheds_makeRoom : Sheds d (d.makeRoomForFailedPeer addr) := by
  obtain heq | ⟨a, heq⟩ := d.makeRoom_cases addr
  · rw [heq]
    exact .refl
  · rw [heq]
    exact sheds_drop

lemma sheds_putFailed {since attempts delay : ℕ} :
    Sheds d (d.putFailed addr since attempts delay) := by
  have hroom : Sheds d (d.makeRoomForFailedPeer addr) := sheds_makeRoom
  refine ⟨hroom.config, hroom.next, fun a g hg => ?_, fun hb => ?_⟩
  · unfold putFailed at hg
    rw [generation_put] at hg
    split at hg
    · cases hg
    · exact hroom.claims a g hg
  · have hle : (d.putFailed addr since attempts delay).failedPeerCount ≤ max 1 d.config.maxPeers :=
      bounded_putFailed hb since attempts delay
    rw [← hroom.config] at hle
    exact hle

lemma sheds_onPeerFailure (now entropy : ℕ) : Sheds d (d.onPeerFailure addr now entropy).1 := by
  simp only [onPeerFailure]
  split <;> exact ite_sheds _
where
  ite_sheds {b : Bool} {attempts delay : ℕ} (c : Prop) [Decidable c] :
      Sheds d (if c then (d.drop addr, true)
        else (d.putFailed addr now attempts delay, b)).1 := by
    split
    · exact sheds_drop
    · exact sheds_putFailed

lemma sheds_onPeerConnected : Sheds d (d.onPeerConnected addr) := by
  refine ⟨rfl, rfl, fun a g hg => ?_, fun hb => ?_⟩
  · unfold onPeerConnected at hg
    rw [generation_put] at hg
    split at hg
    · cases hg
    · exact hg
  · exact (count_put_of_uncounted rfl).trans hb

lemma sheds_clearPending : Sheds d (d.clearPending addr now) := by
  unfold clearPending
  split
  · split
    · exact sheds_putFailed
    · exact sheds_drop
  · exact .refl

lemma sheds_clearPendingIfGeneration (g now : ℕ) :
    Sheds d (d.clearPendingIfGeneration addr g now) := by
  unfold clearPendingIfGeneration
  split
  · split
    · exact sheds_clearPending now
    · exact .refl
  · exact .refl

lemma sheds_foldl {α : Type} {f : PeerDiscovery → α → PeerDiscovery}
    (hf : ∀ d x, Sheds d (f d x)) (xs : List α) (d : PeerDiscovery) : Sheds d (xs.foldl f d) := by
  induction xs generalizing d with
  | nil => exact .refl
  | cons x _ ih => exact (hf d x).trans (ih (f d x))

lemma sheds_cleanupExpired (order : List SocketAddr) : Sheds d (d.cleanupExpired now order).1 :=
  (sheds_foldl (fun _ _ => sheds_drop) _ d).trans
    (sheds_foldl (fun _ _ => sheds_putFailed) _ _)

/-! ### What a batch claims -/

lemma skips_eq_false {now : ℕ} {candidates : List SocketAddr} :
    d.skips now candidates addr = false ↔ addr ∉ candidates ∧ d.skips now [] addr = false := by
  simp only [skips, Bool.or_eq_false_iff, contains_eq_mem, decide_eq_false_iff_not]
  tauto

/-- The addresses of a batch that are not skipped as they are written. -/
def passing (d : PeerDiscovery) (now : ℕ) (peers : List (Option SocketAddr)) : List SocketAddr :=
  peers.reduceOption.filter fun addr => !d.skips now [] addr

/-- The same, each once: the first ones become the candidates. -/
def eligible (d : PeerDiscovery) (now : ℕ) (peers : List (Option SocketAddr)) : List SocketAddr :=
  (d.passing now peers).eraseDups

/-- **The scan** takes the first eligible addresses that are not candidates yet. -/
lemma scan_eq {now slots : ℕ} (peers : List (Option SocketAddr)) {candidates : List SocketAddr}
    (h : candidates.length < slots) : d.scan now slots peers candidates = candidates ++
      ((d.passing now peers).removeAll candidates).eraseDups.take (slots - candidates.length) := by
  induction peers generalizing candidates with
  | nil => simp [scan, passing, removeAll]
  | cons peer peers ih =>
    cases peer with
    | none => exact ih h
    | some addr =>
      have hlen : (candidates ++ [addr]).length = candidates.length + 1 := length_append
      simp only [scan]
      cases hskip : d.skips now candidates addr with
      | true =>
        rw [if_pos rfl, ih h]
        congr 3
        by_cases hfree : d.skips now [] addr = true
        · simp [passing, hfree]
        · -- it passes the filters, so it is skipped as a candidate
          have hmem : addr ∈ candidates := by
            by_contra hmem
            rw [skips_eq_false.mpr ⟨hmem, by simpa using hfree⟩] at hskip
            cases hskip
          simp [passing, hfree, removeAll, hmem]
      | false =>
        obtain ⟨hmem, hfree⟩ := skips_eq_false.mp hskip
        have hpass : (d.passing now (some addr :: peers)).removeAll candidates =
            addr :: (d.passing now peers).removeAll candidates := by
          simp [passing, hfree, removeAll, hmem]
        have hrest : (d.passing now peers).removeAll (candidates ++ [addr]) =
            ((d.passing now peers).removeAll candidates).filter fun b => !b == addr := by
          rw [removeAll, removeAll, filter_filter]
          refine filter_congr fun b _ => Bool.eq_iff_iff.mpr ?_
          simp [and_comm]
        obtain ⟨k, hk⟩ : ∃ k, slots - candidates.length = k + 1 :=
          ⟨slots - candidates.length - 1, by omega⟩
        rw [if_neg Bool.false_ne_true, hpass, eraseDups_cons, hk, take_succ_cons]
        split
        next hfull =>
          -- the last free slot is taken, and the scan stops
          obtain rfl : k = 0 := by omega
          simp
        · have hleft : slots - (candidates.length + 1) = k := by omega
          rw [ih (by omega), hrest, hlen, append_assoc, hleft]
          rfl

lemma proposed_eq (d : PeerDiscovery) (peers : List (Option SocketAddr)) (now : ℕ) :
    (d.onPeerListGossip peers now).2 = (d.eligible now peers).take d.remainingSlots := by
  unfold onPeerListGossip
  split
  next hnone => rw [hnone, take_zero]
  next hslots =>
    have hscan : d.scan now d.remainingSlots peers [] = _ :=
      scan_eq peers (Nat.pos_of_ne_zero hslots)
    simpa [eligible] using hscan

lemma nodup_eraseDups : (l : List SocketAddr) → l.eraseDups.Nodup
  | [] => nodup_nil
  | a :: l => by
    rw [eraseDups_cons, nodup_cons, mem_eraseDups, mem_filter]
    exact ⟨fun h => by simp at h, nodup_eraseDups _⟩
  termination_by l => l.length
  decreasing_by exact Nat.lt_succ_of_le (length_filter_le ..)

/-- The slots in use. -/
def occupied (d : PeerDiscovery) : ℕ := d.pendingPeerCount + d.connectedPeerCount

lemma occupied_claim_le : (d.claim now addr).occupied ≤ d.occupied + 1 := by
  have hpend : (d.claim now addr).pendingPeerCount ≤ 1 + d.pendingPeerCount := count_put_le
  have hconn : (d.claim now addr).connectedPeerCount ≤ 0 + d.connectedPeerCount :=
    count_put_le
  unfold occupied
  omega

lemma occupied_claimAll_le (candidates : List SocketAddr) (d : PeerDiscovery) :
    (d.claimAll now candidates).occupied ≤ d.occupied + candidates.length := by
  induction candidates generalizing d with
  | nil => exact le_rfl
  | cons addr candidates ih =>
    have hrest := ih (d.claim now addr)
    have hfst : (d.claim now addr).occupied ≤ d.occupied + 1 := occupied_claim_le now
    have hlen : (addr :: candidates).length = candidates.length + 1 := rfl
    change ((d.claim now addr).claimAll now candidates).occupied ≤ _
    omega

/-- **A batch fills at most the free slots.** -/
theorem occupied_onPeerListGossip_le (d : PeerDiscovery) (peers : List (Option SocketAddr))
    (now : ℕ) : (d.onPeerListGossip peers now).1.occupied ≤ max d.config.maxPeers d.occupied := by
  unfold onPeerListGossip
  split
  · exact le_max_right _ _
  next hslots =>
    have hscan : (d.scan now d.remainingSlots peers []).length ≤ d.remainingSlots := by
      rw [scan_eq peers (Nat.pos_of_ne_zero hslots)]
      exact length_take_le _ _
    have hclaim := occupied_claimAll_le now (d.scan now d.remainingSlots peers []) d
    have hfree : d.remainingSlots = d.config.maxPeers - d.occupied := by
      rw [remainingSlots, occupied, Nat.add_comm]
    simp only
    omega

/-! ### Generations -/

open DiscoveryRun

/-- Every generation was issued once, and every claim carries one issued to its address. -/
structure Numbered (d : PeerDiscovery) (issued : List (SocketAddr × ℕ)) : Prop where
  below : ∀ x ∈ issued, x.2 ≤ d.nextClaimGeneration
  once : ∀ x ∈ issued, ∀ y ∈ issued, x.2 = y.2 → x = y
  held : ∀ a g, d.generation a = some g → (a, g) ∈ issued

/-- Every claim is the one last issued for its address. -/
def Latest (d : PeerDiscovery) (issued : List (SocketAddr × ℕ)) : Prop :=
  ∀ a g, d.generation a = some g → lastIssued issued a = some g

lemma generation_claim : (d.claim now addr).generation a =
    if a = addr then some (d.nextClaimGeneration + 1) else d.generation a :=
  generation_put a

lemma generation_claimAll (candidates : List SocketAddr) (d : PeerDiscovery) :
    ((d.claimAll now candidates).generation a).isSome =
      ((d.generation a).isSome || candidates.contains a) := by
  induction candidates generalizing d with
  | nil => exact (Bool.or_false _).symm
  | cons addr candidates ih =>
    change (((d.claim now addr).claimAll now candidates).generation a).isSome = _
    rw [ih, generation_claim]
    split <;> simp [*]

variable {issued : List (SocketAddr × ℕ)}

lemma Numbered.claim (h : Numbered d issued) (now : ℕ) :
    Numbered (d.claim now addr) ((addr, d.nextClaimGeneration + 1) :: issued) := by
  have hnew (x) (hx : x ∈ issued) : x.2 < d.nextClaimGeneration + 1 :=
    Nat.lt_succ_of_le (h.below x hx)
  refine ⟨fun x hx => ?_, fun x hx y hy hxy => ?_, fun a g hg => ?_⟩
  · obtain rfl | hx := mem_cons.mp hx
    · exact le_rfl
    · exact (hnew x hx).le
  · obtain rfl | hx := mem_cons.mp hx
    · obtain rfl | hy := mem_cons.mp hy
      · rfl
      · exact absurd hxy (hnew y hy).ne'
    · obtain rfl | hy := mem_cons.mp hy
      · exact absurd hxy (hnew x hx).ne
      · exact h.once x hx y hy hxy
  · rw [generation_claim] at hg
    split at hg
    next heq =>
      obtain rfl := Option.some.inj hg
      rw [heq]
      exact mem_cons_self
    · exact mem_cons_of_mem _ (h.held a g hg)

lemma Latest.claim (h : Latest d issued) (now : ℕ) :
    Latest (d.claim now addr) ((addr, d.nextClaimGeneration + 1) :: issued) := by
  intro a g hg
  rw [generation_claim] at hg
  unfold lastIssued
  split at hg
  next heq =>
    rw [find?_cons_of_pos (by simpa using heq.symm)]
    exact hg
  next hne =>
    rw [find?_cons_of_neg (by simpa using fun heq => hne heq.symm)]
    exact h a g hg

lemma claimAll_induction
    (hclaim : ∀ d issued addr, P d issued →
      P (d.claim now addr) ((addr, d.nextClaimGeneration + 1) :: issued))
    (candidates : List SocketAddr) (d : PeerDiscovery) (issued : List (SocketAddr × ℕ))
    (h : P d issued) :
    P (d.claimAll now candidates) (numbers d.nextClaimGeneration candidates ++ issued) := by
  induction candidates generalizing d issued with
  | nil => exact h
  | cons addr _ ih =>
    rw [numbers, append_assoc]
    exact ih (d.claim now addr) _ (hclaim d issued addr h)

lemma gossip_induction {now : ℕ}
    (hclaim : ∀ d issued addr, P d issued →
      P (d.claim now addr) ((addr, d.nextClaimGeneration + 1) :: issued))
    (peers : List (Option SocketAddr)) (issued : List (SocketAddr × ℕ)) (h : P d issued) :
    P (d.onPeerListGossip peers now).1
      (numbers d.nextClaimGeneration (d.onPeerListGossip peers now).2 ++ issued) := by
  unfold onPeerListGossip
  split
  · exact h
  · exact claimAll_induction now hclaim _ d issued h

lemma Numbered.shed (h : Numbered d issued) (hs : Sheds d d') : Numbered d' issued :=
  ⟨hs.next ▸ h.below, h.once, fun a g hg => h.held a g (hs.claims a g hg)⟩

lemma Latest.shed (h : Latest d issued) (hs : Sheds d d') : Latest d' issued :=
  fun a g hg => h a g (hs.claims a g hg)

end PeerDiscovery

namespace DiscoveryRun

open PeerDiscovery

variable {r : DiscoveryRun}

/-! ### Every run -/

/-- The claims of a run, those that were returned included, are numbered. -/
structure Counted (r : DiscoveryRun) : Prop where
  numbered : Numbered r.discovery r.issued
  returned : ∀ a s g, (a, some s) ∈ r.returned → s.pendingClaimGeneration = some g →
    (a, g) ∈ r.issued

variable (config : PeerDiscoveryConfig) (localAddr : SocketAddr) {addr : SocketAddr}

variable (additional : Option SocketAddr)

lemma Counted.start : Counted (start config localAddr additional) :=
  ⟨⟨nofun, nofun, nofun⟩, nofun⟩

/-- An operation sheds, claims a batch, returns a state or restores one. -/
lemma step_cases (r : DiscoveryRun) (e : DiscoveryEvent) :
    (∃ d, Sheds r.discovery d ∧ r.step e = { r with discovery := d }) ∨
      (∃ peers now, e = .peerListGossip peers now) ∨ (∃ addr, e = .getPeerState addr) ∨
      ∃ addr state, e = .restorePeerState addr (some state) ∧ (addr, some state) ∈ r.returned ∧
        r.step e = { r with discovery := r.discovery.put addr state } := by
  cases e with
  | peerListGossip => exact .inr (.inl ⟨_, _, rfl⟩)
  | peerFailure _ now entropy => exact .inl ⟨_, sheds_onPeerFailure now entropy, rfl⟩
  | peerConnected => exact .inl ⟨_, sheds_onPeerConnected, rfl⟩
  | peerDisconnected => exact .inl ⟨_, sheds_drop, rfl⟩
  | clearPending _ now => exact .inl ⟨_, sheds_clearPending now, rfl⟩
  | clearPendingIfGeneration _ g now =>
    exact .inl ⟨_, sheds_clearPendingIfGeneration g now, rfl⟩
  | cleanupExpired now order => exact .inl ⟨_, sheds_cleanupExpired now order, rfl⟩
  | getPeerState => exact .inr (.inr (.inl ⟨_, rfl⟩))
  | restorePeerState _ state =>
    simp only [step]
    split
    next hmem =>
      cases state with
      | none => exact .inl ⟨_, sheds_drop, rfl⟩
      | some => exact .inr (.inr (.inr ⟨_, _, rfl, hmem, rfl⟩))
    · exact .inl ⟨_, .refl, rfl⟩

lemma Counted.step (h : Counted r) (e : DiscoveryEvent) : Counted (r.step e) := by
  obtain ⟨d, hs, heq⟩ | ⟨peers, now, rfl⟩ | ⟨addr, rfl⟩ | ⟨addr, state, rfl, hmem, heq⟩ :=
    r.step_cases e
  · rw [heq]
    exact ⟨h.numbered.shed hs, h.returned⟩
  · refine ⟨gossip_induction (fun _ _ _ hd => hd.claim now) peers r.issued h.numbered, ?_⟩
    intro a s g hmem hg
    exact mem_append_right _ (h.returned a s g hmem hg)
  · refine ⟨h.numbered, fun a s g hmem hg => ?_⟩
    obtain heq | hmem := mem_cons.mp hmem
    · obtain ⟨rfl, hget⟩ := Prod.mk.inj heq
      refine h.numbered.held a g ?_
      rw [generation, ← hget]
      exact hg
    · exact h.returned a s g hmem hg
  · rw [heq]
    refine ⟨⟨h.numbered.below, h.numbered.once, fun a g hg => ?_⟩, h.returned⟩
    rw [generation_put] at hg
    split at hg
    next hsame =>
      rw [hsame]
      exact h.returned addr state g hmem hg
    · exact h.numbered.held a g hg

/-! ### Restored states that still fit -/

/-- A failed state is restored only while there is room for it, a claim only while
no later one was issued for the address. -/
def Fitting (r : DiscoveryRun) : DiscoveryEvent → Prop
  | .restorePeerState addr (some (.failed ..)) =>
    (r.discovery.getPeerState addr).any PeerState.isFailed = true ∨
      r.discovery.failedPeerCount < max 1 r.discovery.config.maxPeers
  | .restorePeerState addr (some (.pending _ _ _ g)) => lastIssued r.issued addr = some g
  | _ => True

structure Kept (r : DiscoveryRun) : Prop where
  bounded : Bounded r.discovery
  latest : Latest r.discovery r.issued

lemma Kept.start : Kept (start config localAddr additional) := ⟨Nat.zero_le _, nofun⟩

lemma Kept.put (h : Kept r) (hfit : Fitting r (.restorePeerState addr (some state))) :
    Kept { r with discovery := r.discovery.put addr state } := by
  refine ⟨?_, fun a g hg => ?_⟩
  · cases state with
    | pending | connected => exact (count_put_of_uncounted rfl).trans h.bounded
    | failed since attempts delay =>
      obtain hfail | hroom := hfit
      · obtain ⟨old, hget, hold⟩ := (Option.any_eq_true ..).mp hfail
        exact (count_put_of_counted hget hold _).trans h.bounded
      · have hput : (r.discovery.put addr (.failed since attempts delay)).failedPeerCount ≤
            1 + r.discovery.failedPeerCount :=
          count_put_le
        exact hput.trans (Nat.add_comm 1 _ ▸ hroom)
  · change (r.discovery.put addr state).generation a = some g at hg
    rw [generation_put] at hg
    split at hg
    next heq =>
      rw [heq]
      cases state with
      | pending =>
        obtain rfl := Option.some.inj hg
        exact hfit
      | connected | failed => cases hg
    · exact h.latest a g hg

lemma Kept.gossip (h : Kept r) (peers : List (Option SocketAddr)) (now : ℕ) :
    Kept (r.step (.peerListGossip peers now)) := by
  have hboth : Bounded (r.discovery.onPeerListGossip peers now).1 ∧
      Latest (r.discovery.onPeerListGossip peers now).1 (numbers r.discovery.nextClaimGeneration
        (r.discovery.onPeerListGossip peers now).2 ++ r.issued) := by
    refine gossip_induction (P := fun d issued => Bounded d ∧ Latest d issued)
      (fun d issued addr hd => ⟨?_, hd.2.claim now⟩) peers r.issued ⟨h.bounded, h.latest⟩
    exact (count_put_of_uncounted rfl).trans hd.1
  exact ⟨hboth.1, hboth.2⟩

lemma Kept.step (h : Kept r) (e : DiscoveryEvent) (hfit : Fitting r e) : Kept (r.step e) := by
  obtain ⟨d, hs, heq⟩ | ⟨peers, now, rfl⟩ | ⟨addr, rfl⟩ | ⟨addr, state, rfl, -, heq⟩ :=
    r.step_cases e
  · rw [heq]
    exact ⟨hs.bounded h.bounded, h.latest.shed hs⟩
  · exact h.gossip peers now
  · exact ⟨h.bounded, h.latest⟩
  · rw [heq]
    exact h.put hfit

lemma config_step (r : DiscoveryRun) (e : DiscoveryEvent) :
    (r.step e).discovery.config = r.discovery.config := by
  obtain ⟨d, hs, heq⟩ | ⟨peers, now, rfl⟩ | ⟨addr, rfl⟩ | ⟨addr, state, rfl, -, heq⟩ :=
    r.step_cases e
  · rw [heq]
    exact hs.config
  · have hclaim (d : PeerDiscovery) (issued : List (SocketAddr × ℕ)) (addr : SocketAddr)
        (hd : d.config = r.discovery.config) : (d.claim now addr).config = r.discovery.config := hd
    exact gossip_induction (P := fun d _ => d.config = r.discovery.config) hclaim peers [] rfl
  · rfl
  · rw [heq]
    rfl

lemma config_exec (es : List DiscoveryEvent) :
    (Run.exec step (start config localAddr additional) es).discovery.config =
      config :=
  Run.exec_invariant (P := fun r => r.discovery.config = config)
    (fun r e hr => (config_step r e).trans hr) rfl es

lemma claimed_of_clear {d : PeerDiscovery} {g now : ℕ}
    (h : d.clearPendingIfGeneration addr g now ≠ d) : d.generation addr = some g := by
  unfold clearPendingIfGeneration at h
  unfold generation
  split at h
  next hget =>
    rw [hget]
    split at h
    next heq =>
      rw [heq]
      rfl
    · exact absurd rfl h
  · exact absurd rfl h

/-- **Discovery stays bounded and claims stay with their holder.**  Generations are
unique and a batch fills at most the free slots in every run; the failed addresses
are bounded, and only the last claim can be cleared, as long as what is restored
still fits. -/
theorem bounded_and_claims_kept (config : PeerDiscoveryConfig) (localAddr : SocketAddr)
    (additional : Option SocketAddr) (es : List DiscoveryEvent) :
    let r := Run.exec DiscoveryRun.step (start config localAddr additional) es
    (∀ a b g, r.discovery.generation a = some g → r.discovery.generation b = some g → a = b) ∧
      (∀ peers now, (r.discovery.onPeerListGossip peers now).1.occupied ≤
        max config.maxPeers r.discovery.occupied) ∧
      (Run.Meets DiscoveryRun.step Fitting (start config localAddr additional) es →
        r.discovery.failedPeerCount ≤ max 1 config.maxPeers ∧
          ∀ addr g now, r.discovery.clearPendingIfGeneration addr g now ≠ r.discovery →
            lastIssued r.issued addr = some g) := by
  intro r
  have hcnt : Counted r :=
    Run.exec_invariant (P := Counted) (fun _ e hr => hr.step e) (.start ..) es
  have hconfig : r.discovery.config = config := config_exec ..
  refine ⟨fun a b g ha hb => ?_, fun peers now => ?_, fun hmeets => ?_⟩
  · have hsame := hcnt.numbered.once _ (hcnt.numbered.held a g ha) _
      (hcnt.numbered.held b g hb) rfl
    exact (Prod.mk.inj hsame).1
  · have hle := r.discovery.occupied_onPeerListGossip_le peers now
    rw [hconfig] at hle
    exact hle
  · have hkept : Kept r :=
      Run.exec_invariant_of_meets (P := Kept) (fun _ e hr he => hr.step e he) (.start ..) hmeets
    refine ⟨?_, fun addr g now hne => hkept.latest addr g (claimed_of_clear hne)⟩
    rw [← hconfig]
    exact hkept.bounded

/-! ### States that no longer fit -/

def onePeer : PeerDiscoveryConfig := ⟨1, true, true, true, 3600, 3600⟩
def nodeAddr : SocketAddr := .v4 0x0A000001 9000
def firstAddr : SocketAddr := .v4 0x0A000002 9000
def secondAddr : SocketAddr := .v4 0x0A000003 9000

/-- A failed address is claimed by an inbound connection and given back at once. -/
def rolledBack : List DiscoveryEvent :=
  [.peerFailure firstAddr 10 0, .getPeerState firstAddr, .peerConnected firstAddr,
    .restorePeerState firstAddr (some (.failed 10 1 2))]

theorem bounded_and_claims_kept_rolledBack :
    (Run.exec DiscoveryRun.step (start onePeer nodeAddr none) rolledBack).discovery.failedPeerCount
      = 1 ∧
    (Run.exec DiscoveryRun.step (start onePeer nodeAddr none) rolledBack).discovery.failedPeerCount
      ≤ max 1 onePeer.maxPeers := by
  refine ⟨by decide +kernel, ((bounded_and_claims_kept onePeer nodeAddr none rolledBack).2.2 ?_).1⟩
  exact ⟨trivial, trivial, trivial, .inr (by decide +kernel), trivial⟩

/-- Another address fails before the first one is given back. -/
def failedMeanwhile : List DiscoveryEvent :=
  [.peerFailure firstAddr 10 0, .getPeerState firstAddr, .peerConnected firstAddr,
    .peerFailure secondAddr 11 0, .restorePeerState firstAddr (some (.failed 10 1 2))]

/-- The address is claimed again before the first claim is given back. -/
def reclaimedMeanwhile : List DiscoveryEvent :=
  [.peerListGossip [some firstAddr] 10, .getPeerState firstAddr, .peerConnected firstAddr,
    .peerDisconnected firstAddr, .peerListGossip [some firstAddr] 11,
    .restorePeerState firstAddr (some (.pending 10 0 2 1))]

/-- **Rollbacks break the bound, and clear by a generation that was superseded.** -/
theorem restored_state_does_not_fit : (Run.exec DiscoveryRun.step (start onePeer nodeAddr none)
    failedMeanwhile).discovery.failedPeerCount = 2 ∧
    (let r := Run.exec DiscoveryRun.step (start onePeer nodeAddr none) reclaimedMeanwhile
    lastIssued r.issued firstAddr = some 2 ∧
      r.discovery.getPeerState firstAddr ≠ none ∧
      (r.discovery.clearPendingIfGeneration firstAddr 1 12).getPeerState firstAddr = none) := by
  decide +kernel

end DiscoveryRun

/-! ### Two forms of one endpoint -/

namespace PeerDiscovery

/-- What none of the proposed addresses may be another form of: the others, the node's
own addresses, and those that are connected, pending or in backoff. -/
def Taken (d : PeerDiscovery) (now : ℕ) (proposed : List SocketAddr) (x : SocketAddr) : Prop :=
  x ∈ proposed ∨ x = d.localAddr ∨ some x = d.additionalSelfAddr ∨
    ∃ state, d.getPeerState x = some state ∧
      (state.isFailed = false ∨ state.shouldRetry now = false)

/-- None of the addresses is another form of one that is taken. -/
def OneForm (d : PeerDiscovery) (now : ℕ) (proposed : List SocketAddr) : Prop :=
  ∀ a ∈ proposed, ∀ x, d.Taken now proposed x → a.endpoint = x.endpoint → a = x

/-- **A batch proposes new endpoints** exactly if none of its first eligible addresses is
another form of one that is taken.  It proposes only what is safe to dial, and exactly this
becomes pending. -/
theorem proposes_new_endpoints (d : PeerDiscovery) (peers : List (Option SocketAddr)) (now : ℕ) :
    let proposed := (d.onPeerListGossip peers now).2
    (∀ a ∈ proposed, isSafeToDial a d.config.allowPrivateDiscovery
      d.config.allowLoopbackDiscovery d.config.allowLinkLocalDiscovery = true) ∧
    (∀ a, ((d.onPeerListGossip peers now).1.generation a).isSome =
      ((d.generation a).isSome || proposed.contains a)) ∧
    (((proposed.map SocketAddr.endpoint).Nodup ∧
      ∀ a ∈ proposed, a.endpoint ≠ d.localAddr.endpoint ∧
        (∀ x, some x = d.additionalSelfAddr → a.endpoint ≠ x.endpoint) ∧
        ∀ x state, d.getPeerState x = some state →
          state.isFailed = false ∨ state.shouldRetry now = false → a.endpoint ≠ x.endpoint) ↔
      d.OneForm now ((d.eligible now peers).take d.remainingSlots)) := by
  intro proposed
  have heq : proposed = (d.eligible now peers).take d.remainingSlots := d.proposed_eq peers now
  have hfree : ∀ a ∈ proposed, d.skips now [] a = false := by
    intro a ha
    rw [heq] at ha
    simpa using (mem_filter.mp (mem_eraseDups.mp (mem_of_mem_take ha))).2
  refine ⟨fun a ha => ?_, fun a => ?_, ?_⟩
  · have hskip := hfree a ha
    simp only [skips, Bool.or_eq_false_iff] at hskip
    simpa using hskip.2
  · unfold proposed onPeerListGossip
    split
    · exact (Bool.or_false _).symm
    · exact generation_claimAll now a _ d
  · rw [← heq]
    constructor
    · -- two written forms of one endpoint, both proposed or one taken, are excluded
      rintro ⟨hnd, hnew⟩ a ha x (hx | rfl | hx | ⟨state, hx, hbusy⟩) h
      · exact inj_on_of_nodup_map hnd ha hx h
      · exact absurd h (hnew a ha).1
      · exact absurd h ((hnew a ha).2.1 x hx)
      · exact absurd h ((hnew a ha).2.2 x state hx hbusy)
    · intro hforms
      -- as written the candidates differ, and the filters compare as written
      have hnd : proposed.Nodup := heq ▸ (nodup_eraseDups _).sublist (take_sublist _ _)
      refine ⟨hnd.map_on fun a ha b hb h => hforms a ha b (.inl hb) h, fun a ha => ?_⟩
      have hskip := hfree a ha
      simp only [skips, Bool.or_eq_false_iff, decide_eq_false_iff_not] at hskip
      obtain ⟨⟨⟨⟨hloc, hself⟩, -⟩, hst⟩, -⟩ := hskip
      refine ⟨fun h => hloc (hforms a ha _ (.inr (.inl rfl)) h), fun x hx h => ?_,
        fun x state hx hbusy h => ?_⟩
      · rw [← hforms a ha x (.inr (.inr (.inl hx))) h] at hx
        exact hself hx
      · obtain rfl := hforms a ha x (.inr (.inr (.inr ⟨state, hx, hbusy⟩))) h
        rw [hx] at hst
        cases state with
        | pending | connected => cases hst
        | failed =>
          simp only [Bool.not_eq_false'] at hst
          rw [hst] at hbusy
          simp [PeerState.isFailed] at hbusy

open DiscoveryRun

def mappedAddr : SocketAddr := .v6 0xffff0a000002 9000 0 0

/-- **An endpoint is proposed twice**, and a node to itself. -/
theorem endpoint_proposed_twice : let cfg : PeerDiscoveryConfig := ⟨5, true, true, true, 3600, 3600⟩
    mappedAddr.endpoint = firstAddr.endpoint ∧
    ((new cfg nodeAddr none).onPeerListGossip [some firstAddr, some mappedAddr] 10).2 =
      [firstAddr, mappedAddr] ∧
    ((new cfg firstAddr none).onPeerListGossip [some mappedAddr] 10).2 = [mappedAddr] := by
  decide +kernel

end PeerDiscovery

end IcanactRemote
