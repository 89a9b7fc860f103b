/-
The published ownership table (`RoutingSnapshot` of `registry_owner.rs`).

A snapshot is immutable: `withOwner` and `withPin` build the next one by
replacing one shard.  Owners and pins are sharded by a hash of the address;
the pinned address of a peer is kept in one unsharded table.

`published_withOwner`, `pinOwner_withPin` and `pinnedAddrFor_withPin_some`,
`pinnedAddrFor_withPin_none` say what a reader sees after each update.  None
of them depends on the hash: an address is written to and read from the shard
the same hash selects.
-/
import IcanactRemote.AddrOwnership
import IcanactRemote.Table

namespace IcanactRemote

open Table Function

/-- Position in the owner task's commit order.  The source counts in `u64`;
one position is spent per committed mutation. -/
abbrev CommitSeq := ℕ

/-- Exact authority held by one ownership generation. -/
structure OwnershipToken where
  owner : PeerId
  generation : CommitSeq
  deriving DecidableEq

/-- An owner as published, with its generation. -/
structure PublishedOwner where
  owner : Owner
  generation : CommitSeq
  deriving DecidableEq

abbrev routingSnapshotShards : ℕ := 64

/-- The published tables.  `hasher` is the standard library's default hasher:
its algorithm is unspecified, so it is any fixed function here. -/
structure RoutingSnapshot where
  hasher : SocketAddr → UInt64
  ownerShards : Fin routingSnapshotShards → Table SocketAddr PublishedOwner
  pinShards : Fin routingSnapshotShards → Table SocketAddr PeerId
  pinnedByPeer : Table PeerId SocketAddr

namespace RoutingSnapshot

/-- The snapshot published before the first commit. -/
def default (hasher : SocketAddr → UInt64) : RoutingSnapshot where
  hasher := hasher
  ownerShards := fun _ => Table.empty
  pinShards := fun _ => Table.empty
  pinnedByPeer := Table.empty

variable (snap : RoutingSnapshot)

def shardIndex (addr : SocketAddr) : Fin routingSnapshotShards :=
  Fin.ofNat routingSnapshotShards (snap.hasher addr).toNat

def published (addr : SocketAddr) : Option PublishedOwner :=
  (snap.ownerShards (snap.shardIndex addr)).get addr

def owner (addr : SocketAddr) : Option Owner := (snap.published addr).map (·.owner)

def pinOwner (addr : SocketAddr) : Option PeerId :=
  (snap.pinShards (snap.shardIndex addr)).get addr

def pinnedAddrFor (peerId : PeerId) : Option SocketAddr := snap.pinnedByPeer.get peerId

def withOwner (addr : SocketAddr) (owner : Option (Owner × CommitSeq)) : RoutingSnapshot :=
  let index := snap.shardIndex addr
  let shard := snap.ownerShards index
  let shard := match owner with
    | some (owner, generation) => shard.insert addr ⟨owner, generation⟩
    | none => shard.remove addr
  { snap with ownerShards := Function.update snap.ownerShards index shard }

def withPin (addr : SocketAddr) (pin : Option PeerId) : RoutingSnapshot :=
  let index := snap.shardIndex addr
  let shard := snap.pinShards index
  match pin with
  | some peerId =>
    -- a different peer pinned here before loses its reverse entry
    let pinnedByPeer := match shard.get addr with
      | some previous =>
        if previous ≠ peerId then snap.pinnedByPeer.remove previous else snap.pinnedByPeer
      | none => snap.pinnedByPeer
    { snap with
      pinShards := Function.update snap.pinShards index (shard.insert addr peerId)
      pinnedByPeer := pinnedByPeer.insert peerId addr }
  | none =>
    -- the reverse entry goes only if it still points at this address
    let pinnedByPeer := match shard.get addr with
      | some previous =>
        if snap.pinnedByPeer.get previous = some addr then snap.pinnedByPeer.remove previous
        else snap.pinnedByPeer
      | none => snap.pinnedByPeer
    { snap with
      pinShards := Function.update snap.pinShards index (shard.remove addr)
      pinnedByPeer := pinnedByPeer }

/-! ### What a reader sees -/

variable (addr : SocketAddr) (owner : Option (Owner × CommitSeq)) (pin : Option PeerId)
  (b : SocketAddr)

lemma published_withOwner : (snap.withOwner addr owner).published b
    = if b = addr then owner.map fun p => ⟨p.1, p.2⟩ else snap.published b := by
  show (update snap.ownerShards (snap.shardIndex addr) _ (snap.shardIndex b)).get b = _
  rw [update_apply, published]
  by_cases hb : b = addr
  · subst hb
    rw [if_pos rfl, if_pos rfl]
    rcases owner with _ | ⟨o, g⟩
    · exact (get_remove _ _ _).trans (if_pos rfl)
    · exact (get_insert _ _ _ _).trans (if_pos rfl)
  · rw [if_neg hb]
    by_cases hi : snap.shardIndex b = snap.shardIndex addr
    · rw [if_pos hi, hi]
      rcases owner with _ | ⟨o, g⟩
      · exact (get_remove _ _ _).trans (if_neg hb)
      · exact (get_insert _ _ _ _).trans (if_neg hb)
    · rw [if_neg hi]

@[simp] lemma pinOwner_withOwner : (snap.withOwner addr owner).pinOwner = snap.pinOwner := rfl

@[simp] lemma pinnedAddrFor_withOwner :
    (snap.withOwner addr owner).pinnedAddrFor = snap.pinnedAddrFor := rfl

@[simp] lemma published_withPin : (snap.withPin addr pin).published = snap.published := by
  cases pin <;> rfl

lemma pinOwner_withPin :
    (snap.withPin addr pin).pinOwner b = if b = addr then pin else snap.pinOwner b := by
  rcases pin with _ | peerId
  · show (update snap.pinShards (snap.shardIndex addr) _ (snap.shardIndex b)).get b = _
    rw [update_apply, pinOwner]
    by_cases hi : snap.shardIndex b = snap.shardIndex addr
    · rw [if_pos hi, get_remove, hi]
    · rw [if_neg hi, if_neg (fun hb => hi (by rw [hb]))]
  · show (update snap.pinShards (snap.shardIndex addr) _ (snap.shardIndex b)).get b = _
    rw [update_apply, pinOwner]
    by_cases hi : snap.shardIndex b = snap.shardIndex addr
    · rw [if_pos hi, get_insert, hi]
    · rw [if_neg hi, if_neg (fun hb => hi (by rw [hb]))]

lemma pinnedAddrFor_withPin_some (peerId q : PeerId) :
    (snap.withPin addr (some peerId)).pinnedAddrFor q
      = if q = peerId then some addr
        else if snap.pinOwner addr = some q then none else snap.pinnedAddrFor q := by
  show (insert (match snap.pinOwner addr with
    | some previous =>
      if previous ≠ peerId then snap.pinnedByPeer.remove previous else snap.pinnedByPeer
    | none => snap.pinnedByPeer) peerId addr).get q = _
  rw [get_insert, pinnedAddrFor]
  by_cases hq : q = peerId
  · rw [if_pos hq, if_pos hq]
  · rw [if_neg hq, if_neg hq]
    rcases hp : snap.pinOwner addr with _ | previous
    · rw [if_neg (by simp)]
    · by_cases hne : previous = peerId
      · rw [if_neg (by simp [hne, Ne.symm hq])]
        simp [hne]
      · simp only [ne_eq, hne, not_false_eq_true, if_true, get_remove, Option.some.injEq, eq_comm]

lemma pinnedAddrFor_withPin_none (q : PeerId) : (snap.withPin addr none).pinnedAddrFor q
    = if snap.pinOwner addr = some q ∧ snap.pinnedAddrFor q = some addr then none
      else snap.pinnedAddrFor q := by
  show (match snap.pinOwner addr with
    | some previous =>
      if snap.pinnedByPeer.get previous = some addr then snap.pinnedByPeer.remove previous
      else snap.pinnedByPeer
    | none => snap.pinnedByPeer).get q = _
  rcases hp : snap.pinOwner addr with _ | previous
  · simp [pinnedAddrFor]
  · by_cases hq : previous = q
    · subst hq
      by_cases hr : snap.pinnedByPeer.get previous = some addr
      · simp [pinnedAddrFor, hr, get_remove]
      · simp [pinnedAddrFor, hr]
    · by_cases hr : snap.pinnedByPeer.get previous = some addr
      · simp [pinnedAddrFor, hr, get_remove, hq, Ne.symm hq]
      · simp [pinnedAddrFor, hr, hq]

end RoutingSnapshot

end IcanactRemote
