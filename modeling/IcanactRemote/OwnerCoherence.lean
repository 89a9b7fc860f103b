/-
The tables of the owner agree with each other.

`Coherent` is the joint invariant: owned addresses are those with a
generation, every recorded owner is verified, the two pin tables are inverse
to each other, a pinned address is owned by the peer it is pinned for,
receipts carry the current generation of an address their peer owns, and the
published snapshot reads like the tables.  Each mutation keeps it under the
checks its handler makes (`Coherent.accept`, `Coherent.installPin`,
`Coherent.move`, …), so every step does (`Coherent.step`) and every point of
every run is coherent (`coherent_run`).
-/
import IcanactRemote.OwnerLedger

namespace IcanactRemote

open Tables RoutingSnapshot Option

/-- The tables agree with each other and with the published snapshot. -/
structure Coherent (t : Tables) : Prop where
  keys : ∀ a, t.owner a = none ↔ t.generation a = none
  verified : ∀ {a o}, t.owner a = some o → o.kind = .verified
  pin_iff : ∀ {a p}, t.pin a = some p ↔ t.pinnedAt p = some a
  pin_owned : ∀ {a p}, t.pin a = some p → t.owner a = some ⟨p, .verified⟩
  receipt : ∀ {key g}, t.receipt key = some g →
    t.OwnedBy key.addr key.peer ∧ t.generation key.addr = some g
  published : ∀ a, t.snapshot.published a
    = (t.owner a).bind fun o => (t.generation a).map fun g => ⟨o, g⟩
  pinOwner : ∀ a, t.snapshot.pinOwner a = t.pin a
  pinnedAddrFor : ∀ p, t.snapshot.pinnedAddrFor p = t.pinnedAt p

namespace Coherent

variable {t t' : Tables}

/-! ### The mutations keep the tables coherent -/

variable {isLocalAddr : Bool} {p : PeerId} {claim : Claim} {a : SocketAddr} {o : Owner}

lemma eq_of_pinned (h : Coherent t) (hp : t.pin a = some p) (ho : t.owner a = some o) :
    o = ⟨p, .verified⟩ := by
  rw [h.pin_owned hp, some_inj] at ho
  exact ho.symm

variable {addr ev b : SocketAddr}

lemma accept (h : Coherent t) {owner : Owner} (hv : owner.kind = .verified)
    (hsame : ∀ o, t.owner addr = some o → o.nodeId = owner.nodeId) :
    Coherent (t.accept addr owner) where
  keys a := by
    rw [owner_accept, generation_accept]
    by_cases ha : a = addr
    · simp [ha]
    · rw [if_neg ha, if_neg ha]
      exact h.keys a
  verified {a o} ho := by
    rw [owner_accept] at ho
    by_cases ha : a = addr
    · rw [if_pos ha, some_inj] at ho
      rw [← ho]
      exact hv
    · rw [if_neg ha] at ho
      exact h.verified ho
  pin_iff := h.pin_iff
  pin_owned {a p} hp := by
    rw [owner_accept]
    by_cases ha : a = addr
    · -- the holder of a pinned address is its peer, so the renewal is its own
      have hn : p = owner.nodeId := hsame ⟨p, .verified⟩ (ha ▸ h.pin_owned hp)
      rw [if_pos ha, hn, ← hv]
    · rw [if_neg ha]
      exact h.pin_owned hp
  receipt {key g} hr := by
    change (if key.peer = owner.nodeId ∧ key.addr = addr then _ else t.receipt key) = some g at hr
    by_cases hc : key.peer = owner.nodeId ∧ key.addr = addr
    · rw [if_pos hc, map_eq_some_iff] at hr
      obtain ⟨_, -, rfl⟩ := hr
      rw [OwnedBy, owner_accept, generation_accept, if_pos hc.2, if_pos hc.2]
      exact ⟨⟨owner, rfl, hc.1.symm⟩, rfl⟩
    · rw [if_neg hc] at hr
      obtain ⟨⟨o, ho, hn⟩, hg⟩ := h.receipt hr
      -- any receipt for the address itself is its owner's, so it was renewed
      have ha : key.addr ≠ addr := by
        intro ha
        exact hc ⟨hn ▸ hsame o (ha ▸ ho), ha⟩
      rw [OwnedBy, owner_accept, generation_accept, if_neg ha, if_neg ha]
      exact ⟨⟨o, ho, hn⟩, hg⟩
  published a := by
    rw [show (t.accept addr owner).snapshot
      = t.snapshot.withOwner addr (some (owner, t.commitSeq + 1)) from rfl,
      published_withOwner, owner_accept, generation_accept]
    by_cases ha : a = addr
    · simp [ha]
    · rw [if_neg ha, if_neg ha, if_neg ha]
      exact h.published a
  pinOwner := h.pinOwner
  pinnedAddrFor := h.pinnedAddrFor

lemma withReceipt (h : Coherent t) {r : ReceiptKey → Option CommitSeq}
    {at₀ : SocketAddr → Option Instant}
    (hr : ∀ {key g}, r key = some g → t.OwnedBy key.addr key.peer ∧ t.generation key.addr = some g) :
    Coherent { t with receipt := r, committedAt := at₀ } where
  keys := h.keys
  verified := h.verified
  pin_iff := h.pin_iff
  pin_owned := h.pin_owned
  receipt := hr
  published := h.published
  pinOwner := h.pinOwner
  pinnedAddrFor := h.pinnedAddrFor

variable {peer : PeerId}

section

variable (h : Coherent t)
include h

lemma scope {instanceId : ℕ} {evidenceAt : Instant} (howned : t.OwnedBy addr peer)
    (hgen : t.generation addr = some t.commitSeq) :
    Coherent (t.scope addr peer instanceId evidenceAt) := by
  refine h.withReceipt ?_
  intro key g hr
  by_cases hp : t.pin addr = some peer
  · rw [if_pos hp] at hr
    exact h.receipt hr
  · rw [if_neg hp, Function.update_apply] at hr
    by_cases hk : key = ⟨peer, instanceId, addr⟩
    · rw [if_pos hk, some_inj] at hr
      rw [hk, ← hr]
      exact ⟨howned, hgen⟩
    · rw [if_neg hk] at hr
      exact h.receipt hr

lemma dropReceipts (p : ReceiptKey → Prop) [DecidablePred p] : Coherent (t.dropReceipts p) := by
  refine h.withReceipt ?_
  intro key g hr
  by_cases hp : p key
  · rw [if_pos hp] at hr
    simp at hr
  · rw [if_neg hp] at hr
    exact h.receipt hr

lemma retract (hpin : t.pin addr = none) : Coherent (t.retract addr) where
  keys a := by
    rw [owner_retract, generation_retract]
    by_cases ha : a = addr
    · simp [ha]
    · rw [if_neg ha, if_neg ha]
      exact h.keys a
  verified ho := h.verified (t.owner_retract_eq_some.mp ho).2
  pin_iff := h.pin_iff
  pin_owned {a p} hp := by
    -- no pinned address is vacated
    have ha : a ≠ addr := by
      rintro rfl
      cases hpin.symm.trans hp
    rw [owner_retract, if_neg ha]
    exact h.pin_owned hp
  receipt {key g} hr := by
    change (if key.addr = addr then none else t.receipt key) = some g at hr
    by_cases ha : key.addr = addr
    · rw [if_pos ha] at hr
      simp at hr
    · rw [if_neg ha] at hr
      rw [ownedBy_retract, generation_retract, if_neg ha]
      obtain ⟨howned, hg⟩ := h.receipt hr
      exact ⟨⟨ha, howned⟩, hg⟩
  published a := by
    rw [show (t.retract addr).snapshot = t.snapshot.withOwner addr none from rfl,
      published_withOwner, owner_retract, generation_retract]
    by_cases ha : a = addr
    · simp [ha]
    · rw [if_neg ha, if_neg ha, if_neg ha]
      exact h.published a
  pinOwner := h.pinOwner
  pinnedAddrFor := h.pinnedAddrFor

lemma retractAll {addrs : List SocketAddr} (hpin : ∀ a ∈ addrs, t.pin a = none) :
    Coherent (t.retractAll addrs) := by
  induction addrs generalizing t with
  | nil => exact h
  | cons _ _ ih =>
    obtain ⟨h1, h2⟩ := List.forall_mem_cons.mp hpin
    exact ih (h.retract h1) h2

lemma releaseEvicted (hpin : t.pin ev = none) : Coherent (t.releaseEvicted peer ev) := by
  have hdrop := h.dropReceipts fun key => key.peer = peer ∧ key.addr = ev
  rw [Tables.releaseEvicted]
  by_cases how : (t.dropReceipts fun key => key.peer = peer ∧ key.addr = ev).OwnedBy ev peer
  · rw [if_pos how]
    exact hdrop.retract hpin
  · rw [if_neg how]
    exact hdrop

/-! ### Pins -/

lemma pin_inj (ha : t.pin a = some p) (hb : t.pin b = some p) : a = b :=
  some_inj.mp ((h.pin_iff.mp ha).symm.trans (h.pin_iff.mp hb))

lemma evicted_eq_some : t.evicted addr peer = some ev ↔ t.pin ev = some peer ∧ ev ≠ addr := by
  rw [evicted, filter_eq_some_iff, ← h.pin_iff]
  simp

lemma pin_installPin (a : SocketAddr) : (t.installPin addr peer).pin a
    = if a = addr then some peer else if t.pin a = some peer then none else t.pin a := by
  show (if a = addr then some peer else if t.evicted addr peer = some a then none else t.pin a) = _
  by_cases ha : a = addr
  · rw [if_pos ha, if_pos ha]
  · rw [if_neg ha, if_neg ha]
    simp only [h.evicted_eq_some, ha, ne_eq, not_false_eq_true, and_true]

lemma pinOwner_installPin (a : SocketAddr) :
    (t.installPin addr peer).snapshot.pinOwner a = (t.installPin addr peer).pin a := by
  rw [h.pin_installPin]
  rcases he : t.evicted addr peer with _ | ev
  · have hnone : ¬ a = addr → ¬ t.pin a = some peer := by
      intro ha hp
      rw [h.evicted_eq_some.mpr ⟨hp, ha⟩] at he
      simp at he
    simp only [installPin, he]
    rw [pinOwner_withPin, h.pinOwner]
    by_cases ha : a = addr
    · rw [if_pos ha, if_pos ha]
    · rw [if_neg ha, if_neg ha, if_neg (hnone ha)]
  · obtain ⟨hev, hne⟩ := h.evicted_eq_some.mp he
    simp only [installPin, he]
    rw [pinOwner_withPin, pinOwner_withPin, h.pinOwner]
    by_cases ha : a = addr
    · rw [if_pos ha, if_pos ha, if_neg (ha ▸ Ne.symm hne)]
    · rw [if_neg ha, if_neg ha]
      by_cases hp : t.pin a = some peer
      · rw [if_pos hp, if_pos (h.pin_inj hp hev)]
      · rw [if_neg hp, if_neg fun hc : a = ev => hp (hc ▸ hev)]

variable (hown : t.owner addr = some ⟨peer, .verified⟩)
include hown

lemma eq_peer_of_pin {q : PeerId} (hq : t.pin addr = some q) : q = peer := by
  have := h.eq_of_pinned hq hown
  exact (congrArg Owner.nodeId this).symm

lemma pinnedAt_installPin (q : PeerId) :
    (t.installPin addr peer).pinnedAt q = if q = peer then some addr else t.pinnedAt q := by
  show (if q = peer then some addr
    else if t.pin addr = some q ∧ t.pinnedAt q = some addr then none else t.pinnedAt q) = _
  by_cases hq : q = peer
  · rw [if_pos hq, if_pos hq]
  · rw [if_neg hq, if_neg hq, if_neg fun hc => hq (h.eq_peer_of_pin hown hc.1)]

lemma pinnedAddrFor_installPin (q : PeerId) : (t.installPin addr peer).snapshot.pinnedAddrFor q
    = (t.installPin addr peer).pinnedAt q := by
  rw [h.pinnedAt_installPin hown]
  -- what the first publication leaves for `q`
  have hfst : (t.snapshot.withPin addr (some peer)).pinnedAddrFor q
      = if q = peer then some addr else t.pinnedAt q := by
    rw [pinnedAddrFor_withPin_some, h.pinOwner, h.pinnedAddrFor]
    by_cases hq : q = peer
    · rw [if_pos hq, if_pos hq]
    · rw [if_neg hq, if_neg hq, if_neg fun hc => hq (h.eq_peer_of_pin hown hc)]
  rcases he : t.evicted addr peer with _ | ev
  · simp only [installPin, he]
    exact hfst
  · obtain ⟨hev, hne⟩ := h.evicted_eq_some.mp he
    simp only [installPin, he]
    rw [pinnedAddrFor_withPin_none, hfst, if_neg]
    -- the reverse entry of the evicted address is the peer's, and points elsewhere now
    rintro ⟨hq, hat⟩
    rw [pinOwner_withPin, if_neg hne, h.pinOwner, hev, some_inj] at hq
    rw [if_pos hq.symm, some_inj] at hat
    exact hne hat.symm

lemma installPin : Coherent (t.installPin addr peer) where
  keys := h.keys
  verified := h.verified
  pin_iff {a p} := by
    rw [h.pin_installPin, h.pinnedAt_installPin hown]
    by_cases ha : a = addr
    · rw [if_pos ha, some_inj]
      -- at the address itself nobody but its owner was pinned
      by_cases hp : p = peer
      · simp [ha, hp]
      · rw [if_neg hp, ← h.pin_iff, ha]
        exact ⟨fun hc => absurd hc.symm hp, fun hc => (h.eq_peer_of_pin hown hc).symm⟩
    · rw [if_neg ha]
      by_cases hp : p = peer
      · rw [if_pos hp, some_inj, hp]
        by_cases hc : t.pin a = some peer <;> simp [hc, Ne.symm ha]
      · rw [if_neg hp, ← h.pin_iff]
        by_cases hc : t.pin a = some peer
        · simp [hc, Ne.symm hp]
        · rw [if_neg hc]
  pin_owned {a p} hp := by
    rw [h.pin_installPin] at hp
    by_cases ha : a = addr
    · rw [if_pos ha, some_inj] at hp
      rw [ha, ← hp]
      exact hown
    · rw [if_neg ha] at hp
      by_cases hc : t.pin a = some peer
      · rw [if_pos hc] at hp
        simp at hp
      · rw [if_neg hc] at hp
        exact h.pin_owned hp
  receipt := h.receipt
  published a := by
    have hsnap : (t.installPin addr peer).snapshot.published = t.snapshot.published := by
      rcases he : t.evicted addr peer with _ | ev <;> simp [Tables.installPin, he]
    rw [hsnap]
    exact h.published a
  pinOwner := h.pinOwner_installPin
  pinnedAddrFor := h.pinnedAddrFor_installPin hown

end

/-! ### Migration -/

section Move

variable {source target : SocketAddr} {owner held : Owner}

lemma pin_move_some (hp : t.pin source = some p) (a : SocketAddr) :
    (t.move source target owner).pin a
      = if a = target then some p else if a = source then none else t.pin a := by
  simp only [move, hp]
  rw [Function.update_apply, Function.update_apply]

lemma pinnedAt_move_some (hp : t.pin source = some p) (q : PeerId) :
    (t.move source target owner).pinnedAt q = if q = p then some target else t.pinnedAt q := by
  simp only [move, hp]
  rw [Function.update_apply]

lemma pin_move_none (hp : t.pin source = none) : (t.move source target owner).pin = t.pin ∧
    (t.move source target owner).pinnedAt = t.pinnedAt := by
  simp only [move, hp]
  exact ⟨trivial, trivial⟩

variable {q : PeerId}

variable (h : Coherent t)
include h

lemma published_move (a : SocketAddr) : (t.move source target owner).snapshot.published a
    = ((t.move source target owner).owner a).bind fun o =>
        ((t.move source target owner).generation a).map fun g => ⟨o, g⟩ := by
  have hsnap : (t.move source target owner).snapshot.published
      = ((t.snapshot.withOwner source none).withOwner target
          (some (owner, t.commitSeq + 1))).published := by
    rcases hp : t.pin source with _ | p <;> simp [move, hp]
  rw [hsnap, published_withOwner, published_withOwner, owner_move, generation_move]
  by_cases ha : a = target
  · simp [ha]
  · by_cases hs : a = source
    · subst hs
      simp [ha]
    · simp only [if_neg ha, if_neg hs]
      exact h.published a

lemma pinOwner_move (a : SocketAddr) :
    (t.move source target owner).snapshot.pinOwner a = (t.move source target owner).pin a := by
  rcases hp : t.pin source with _ | p
  · rw [(pin_move_none hp).1]
    simp only [move, hp]
    exact h.pinOwner a
  · rw [pin_move_some hp]
    simp only [move, hp]
    rw [pinOwner_withPin, pinOwner_withPin]
    simp [h.pinOwner]

variable (hsame : ∀ o, t.owner target = some o → o.nodeId = owner.nodeId)
include hsame

lemma eq_of_pin_target (hq : t.pin target = some q) : q = owner.nodeId :=
  hsame _ (h.pin_owned hq)

lemma receipt_move {key : ReceiptKey} {g : CommitSeq}
    (hr : (t.move source target owner).receipt key = some g) :
    (t.move source target owner).OwnedBy key.addr key.peer ∧
      (t.move source target owner).generation key.addr = some g := by
  rw [OwnedBy, owner_move, generation_move]
  simp only [move] at hr
  by_cases hc : key.peer = owner.nodeId ∧ key.addr = target
  · rw [if_pos hc, ite_eq_iff] at hr
    obtain ⟨-, hg⟩ | ⟨-, hg⟩ := hr
    · rw [if_pos hc.2, if_pos hc.2, ← hg]
      exact ⟨⟨owner, rfl, hc.1.symm⟩, rfl⟩
    · simp at hg
  · rw [if_neg hc] at hr
    by_cases hs : key.addr = source
    · rw [if_pos hs] at hr
      simp at hr
    · rw [if_neg hs] at hr
      obtain ⟨⟨o, ho, hon⟩, hg⟩ := h.receipt hr
      -- a receipt for the target is its owner's, and so the moving node's
      have ha : key.addr ≠ target := by
        intro ha
        exact hc ⟨hon ▸ hsame o (ha ▸ ho), ha⟩
      rw [if_neg ha, if_neg ha, if_neg hs, if_neg hs]
      exact ⟨⟨o, ho, hon⟩, hg⟩

variable (hown : t.owner source = some held) (hn : owner.nodeId = held.nodeId)
include hown hn

omit hsame in
lemma eq_of_pin_source (hp : t.pin source = some p) : p = owner.nodeId := by
  rw [hn, h.eq_of_pinned hp hown]

lemma pin_iff_move : (t.move source target owner).pin a = some q ↔
    (t.move source target owner).pinnedAt q = some a := by
  rcases hp : t.pin source with _ | p
  · rw [(pin_move_none hp).1, (pin_move_none hp).2]
    exact h.pin_iff
  · have hpn : p = owner.nodeId := h.eq_of_pin_source hown hn hp
    rw [pin_move_some hp, pinnedAt_move_some hp]
    by_cases hq : q = p
    · -- the moved pin is at the target only
      rw [if_pos hq, hq]
      by_cases ha : a = target
      · simp [ha]
      · rw [if_neg ha]
        by_cases hs : a = source
        · simp [hs, Ne.symm (hs ▸ ha)]
        · rw [if_neg hs, some_inj]
          exact ⟨fun hc => absurd (h.pin_inj hc hp) hs, fun hc => absurd hc.symm ha⟩
    · -- every other pin stays
      rw [if_neg hq, ← h.pin_iff]
      by_cases ha : a = target
      · rw [if_pos ha, ha]
        exact ⟨fun hc => absurd (some_inj.mp hc).symm hq,
          fun hc => absurd ((h.eq_of_pin_target hsame hc).trans hpn.symm) hq⟩
      · rw [if_neg ha]
        by_cases hs : a = source
        · rw [if_pos hs, hs, hp]
          simp [Ne.symm hq]
        · rw [if_neg hs]

lemma pin_owned_move (hv : owner.kind = .verified)
    (hq : (t.move source target owner).pin a = some q) :
    (t.move source target owner).owner a = some ⟨q, .verified⟩ := by
  have hself : some owner = some ⟨owner.nodeId, .verified⟩ := by rw [← hv]
  rw [owner_move]
  -- a pinned source takes its pin with it
  rcases hp : t.pin source with _ | p
  · rw [(pin_move_none hp).1] at hq
    by_cases ha : a = target
    · have hqn : q = owner.nodeId := h.eq_of_pin_target hsame (by rw [← ha]; exact hq)
      rw [if_pos ha, hqn, hself]
    · have hs : a ≠ source := by
        rintro rfl
        cases hp.symm.trans hq
      rw [if_neg ha, if_neg hs]
      exact h.pin_owned hq
  · rw [pin_move_some hp] at hq
    by_cases ha : a = target
    · rw [if_pos ha, some_inj] at hq
      rw [if_pos ha, ← hq, h.eq_of_pin_source hown hn hp, hself]
    · rw [if_neg ha] at hq
      by_cases hs : a = source
      · rw [if_pos hs] at hq
        simp at hq
      · rw [if_neg hs] at hq
        rw [if_neg ha, if_neg hs]
        exact h.pin_owned hq

lemma pinnedAddrFor_move (q : PeerId) : (t.move source target owner).snapshot.pinnedAddrFor q
    = (t.move source target owner).pinnedAt q := by
  rcases hp : t.pin source with _ | p
  · rw [(pin_move_none hp).2]
    simp only [move, hp]
    exact h.pinnedAddrFor q
  · have hpn : p = owner.nodeId := h.eq_of_pin_source hown hn hp
    rw [pinnedAt_move_some hp]
    simp only [move, hp]
    rw [pinnedAddrFor_withPin_some]
    by_cases hq : q = p
    · rw [if_pos hq, if_pos hq]
    · rw [if_neg hq, if_neg hq, pinOwner_withPin, pinnedAddrFor_withPin_none]
      simp only [pinOwner_withOwner, pinnedAddrFor_withOwner, h.pinOwner, h.pinnedAddrFor]
      -- neither publication touches the reverse entry of another peer
      have htgt : ¬ (if target = source then none else t.pin target) = some q := by
        intro hc
        by_cases hts : target = source
        · rw [if_pos hts] at hc
          simp at hc
        · rw [if_neg hts] at hc
          exact hq ((h.eq_of_pin_target hsame hc).trans hpn.symm)
      rw [if_neg htgt, if_neg]
      rintro ⟨hc, -⟩
      rw [hp, some_inj] at hc
      exact hq hc.symm

lemma move (hv : owner.kind = .verified) : Coherent (t.move source target owner) where
  keys a := by
    rw [owner_move, generation_move]
    by_cases ha : a = target
    · simp [ha]
    · rw [if_neg ha, if_neg ha]
      by_cases hs : a = source
      · simp [hs]
      · rw [if_neg hs, if_neg hs]
        exact h.keys a
  verified {a o} ho := by
    rw [owner_move] at ho
    by_cases ha : a = target
    · rw [if_pos ha, some_inj] at ho
      rw [← ho]
      exact hv
    · rw [if_neg ha] at ho
      by_cases hs : a = source
      · rw [if_pos hs] at ho
        simp at ho
      · rw [if_neg hs] at ho
        exact h.verified ho
  pin_iff := h.pin_iff_move hsame hown hn
  pin_owned := h.pin_owned_move hsame hown hn hv
  receipt := h.receipt_move hsame
  published := h.published_move
  pinOwner := h.pinOwner_move
  pinnedAddrFor := h.pinnedAddrFor_move hsame hown hn

end Move

/-! ### Steps -/

section

variable (h : Coherent t) (hacc : t.Accepts addr claim isLocalAddr)
include h hacc

lemma nodeId_of_accepts (ho : t.owner addr = some o) : o.nodeId = claim.nodeId := by
  have harb := hacc.2
  rw [ho] at harb
  exact nodeId_eq_of_accept (h.verified ho) harb

lemma claimedOwner_of_accepts : t.claimedOwner addr claim = ⟨claim.nodeId, .verified⟩ := by
  rw [claimedOwner, resolvedKind_of_accept (fun _ ho => h.verified ho) hacc.2]

lemma accept_of_accepts : Coherent (t.accept addr (t.claimedOwner addr claim)) := by
  refine h.accept ?_ fun o ho => h.nodeId_of_accepts hacc ho
  rw [h.claimedOwner_of_accepts hacc]

end

lemma settle (h : Coherent t) (peer : PeerId) (expected : Option ℕ) :
    Coherent (t.settle peer expected) := by
  cases expected with
  | none => exact ⟨h.keys, h.verified, h.pin_iff, h.pin_owned, h.receipt, h.published, h.pinOwner,
      h.pinnedAddrFor⟩
  | some => exact h

lemma accepts_settle {expected : Option ℕ} :
    (t.settle peer expected).Accepts addr claim isLocalAddr ↔
      t.Accepts addr claim isLocalAddr := by
  cases expected <;> exact Iff.rfl

/-- A committed configuration: the address is taken, the pin installed, and
the address the pin was evicted from is released. -/
lemma configure (h : Coherent t)
    (hacc : t.Accepts addr ⟨peer, .verified⟩ false) : Coherent (t.configure addr peer) := by
  have hu := h.accept_of_accepts hacc
  rw [Tables.configure]
  set u := t.accept addr (t.claimedOwner addr ⟨peer, .verified⟩) with hu'
  have hown : u.owner addr = some ⟨peer, .verified⟩ := by
    rw [hu', owner_accept, if_pos rfl, h.claimedOwner_of_accepts hacc]
  have hpin := hu.installPin hown
  rcases he : u.evicted addr peer with _ | ev
  · exact hpin
  · obtain ⟨hev, hne⟩ := hu.evicted_eq_some.mp he
    refine hpin.releaseEvicted ?_
    rw [hu.pin_installPin, if_neg hne, if_pos hev]

/-- **Every step keeps the tables coherent.** -/
theorem step {cmd : OwnerCommand} {reply : OwnerReply} (h : Coherent t)
    (hstep : Step t cmd reply t') : Coherent t' := by
  cases hstep with
  | unchanged | provenAlive | configureBlocked | configureSuperseded => exact h
  | claim hacc => exact h.accept_of_accepts hacc
  | @claimScoped addr claim _ _ _ hacc =>
    refine (h.accept_of_accepts hacc).scope ⟨t.claimedOwner addr claim, ?_, rfl⟩ ?_
    · rw [owner_accept, if_pos rfl]
    · rw [generation_accept, if_pos rfl]
      rfl
  | release hpin => exact h.retract hpin
  | releaseSession hrel => exact (h.dropReceipts _).retractAll fun a ha => ((hrel a).mp ha).2.1
  | purge => exact h.dropReceipts _
  | releaseDead _ hpin => exact (h.dropReceipts _).retract hpin
  | reserve | unreserve | note =>
    exact ⟨h.keys, h.verified, h.pin_iff, h.pin_owned, h.receipt, h.published, h.pinOwner,
      h.pinnedAddrFor⟩
  | configureRefused => exact h.settle _ _
  | configured _ _ hyes => exact (h.settle _ _).configure (accepts_settle.mpr hyes)
  | @migrate source target owner _ hsrc htgt hown hgen hsame =>
    exact h.move hsame hown rfl (resolvedKind_of_verified (h.verified hown))

lemma consume (h : Coherent t) (cell : CellId) : Coherent (t.consume cell) := by
  rw [Tables.consume]
  split_ifs
  · exact ⟨h.keys, h.verified, h.pin_iff, h.pin_owned, h.receipt, h.published, h.pinOwner,
      h.pinnedAddrFor⟩
  · exact h

end Coherent

lemma coherent_stepEvent {s : PeerRegistryOwner} (e : OwnerEvent) (hco : Coherent s.tables) :
    Coherent (s.step e).tables := by
  rcases e with cmd | cell
  · exact hco.step (s.handle_step cmd)
  · rw [s.tables_step_tryConsume]
    exact hco.consume cell

variable (hasher : SocketAddr → UInt64)

lemma coherent_empty : Coherent (empty hasher) where
  keys a := by simp [empty]
  verified ho := absurd ho (by simp [empty])
  pin_iff := by simp [empty]
  pin_owned hp := absurd hp (by simp [empty])
  receipt hr := absurd hr (by simp [empty])
  published a := rfl
  pinOwner a := rfl
  pinnedAddrFor p := rfl

/-- The tables are coherent at every point of every run. -/
lemma coherent_run (routing : Option (List RoutingCall)) (events : List OwnerEvent) :
    Coherent (ownerRun hasher routing events).tables :=
  tables_invariant coherent_empty (fun h hstep => h.step hstep) (fun cell h => h.consume cell)
    hasher routing events

end IcanactRemote
