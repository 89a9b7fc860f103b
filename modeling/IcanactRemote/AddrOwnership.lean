/-
Who may own an address: the arbitration core (`addr_ownership.rs`).

`arbitrate` decides whether a claim on an address may be adopted given the
recorded owner, and `resolvedKind` is the evidence kind recorded for an
adopted claim.  The identities and addresses the whole registry is keyed by
are defined here as well.

* `arbitrate_eq_accept_iff` — the accepting rows of the truth table;
* `nodeId_eq_of_accept`, `resolvedKind_of_accept` — where recorded owners are
  verified, an adopted claim displaces nobody and is recorded as verified.
-/
import Mathlib

namespace IcanactRemote

/-- An Ed25519 public key, 32 bytes. -/
structure PeerId where
  bytes : BitVec 256
  deriving DecidableEq

/-- `std::net::SocketAddr`: an IPv4 or IPv6 address with a port. -/
inductive SocketAddr
  | v4 (ip : BitVec 32) (port : BitVec 16)
  | v6 (ip : BitVec 128) (port : BitVec 16) (flowinfo scopeId : BitVec 32)
  deriving DecidableEq

/-- A reading of the monotonic clock, in ticks since an arbitrary origin. -/
abbrev Instant := ℕ

/-- How strongly an address claim is backed by evidence. -/
inductive ClaimKind
  | verified
  | provisional
  deriving DecidableEq

/-- The node recorded as owning an address. -/
structure Owner where
  nodeId : PeerId
  kind : ClaimKind
  deriving DecidableEq

/-- An incoming claim on an address. -/
structure Claim where
  nodeId : PeerId
  kind : ClaimKind
  deriving DecidableEq

inductive RejectReason
  | localAddress
  | unverifiedAddress
  | verifiedOwnerPresent
  | provisionalFirstCome
  deriving DecidableEq

inductive Decision
  | accept
  | reject (reason : RejectReason)
  deriving DecidableEq

/-- Whether `claim` may take or refresh an address recorded as owned by
`current`. -/
def arbitrate (current : Option Owner) (claim : Claim) (isLocalAddr : Bool) : Decision :=
  if isLocalAddr then .reject .localAddress
  else
    match current with
    | none =>
      if claim.kind = .provisional then .reject .unverifiedAddress else .accept
    | some owner =>
      -- a refresh by the recorded owner is always allowed
      if owner.nodeId = claim.nodeId then .accept
      else if owner.kind = .verified then .reject .verifiedOwnerPresent
      else
        match claim.kind with
        | .verified => .accept
        | .provisional => .reject .provisionalFirstCome

/-- The kind persisted for an adopted claim: a refresh never downgrades. -/
def resolvedKind (current : Option Owner) (claim : Claim) : ClaimKind :=
  match current with
  | some owner =>
    if owner.nodeId = claim.nodeId ∧ owner.kind = .verified then .verified else claim.kind
  | none => claim.kind

variable {current : Option Owner} {claim : Claim} {isLocalAddr : Bool}

lemma arbitrate_eq_accept_iff : arbitrate current claim isLocalAddr = .accept ↔
    isLocalAddr = false ∧
      ((current = none ∧ claim.kind = .verified) ∨
        ∃ owner, current = some owner ∧
          (owner.nodeId = claim.nodeId ∨
            (owner.kind = .provisional ∧ claim.kind = .verified))) := by
  cases isLocalAddr with
  | true => simp [arbitrate]
  | false =>
    rcases current with _ | owner
    · cases hk : claim.kind <;> simp [arbitrate, hk]
    · by_cases hn : owner.nodeId = claim.nodeId
      · simp [arbitrate, hn]
      · cases ho : owner.kind <;> cases hk : claim.kind <;> simp [arbitrate, hn, ho, hk]

lemma nodeId_eq_of_accept {owner : Owner} (hv : owner.kind = .verified)
    (h : arbitrate (some owner) claim isLocalAddr = .accept) : owner.nodeId = claim.nodeId := by
  obtain ⟨-, ⟨h0, -⟩ | ⟨o, ho, hn | ⟨hp, -⟩⟩⟩ := arbitrate_eq_accept_iff.mp h
  · simp at h0
  · rw [Option.some_inj] at ho
    rw [ho]
    exact hn
  · rw [Option.some_inj] at ho
    rw [← ho, hv] at hp
    simp at hp

lemma resolvedKind_of_verified (h : claim.kind = .verified) :
    resolvedKind current claim = .verified := by
  rcases current with _ | owner
  · exact h
  · rw [resolvedKind, h, ite_self]

/-- **Verified owners stay verified.**  A claim adopted over a verified owner,
or over no owner, is recorded as verified. -/
theorem resolvedKind_of_accept (hv : ∀ owner, current = some owner → owner.kind = .verified)
    (h : arbitrate current claim isLocalAddr = .accept) :
    resolvedKind current claim = .verified := by
  rcases current with _ | owner
  · obtain ⟨-, ⟨-, hk⟩ | ⟨o, ho, -⟩⟩ := arbitrate_eq_accept_iff.mp h
    · exact hk
    · simp at ho
  · have hn := nodeId_eq_of_accept (hv owner rfl) h
    rw [resolvedKind, if_pos ⟨hn, hv owner rfl⟩]

end IcanactRemote
