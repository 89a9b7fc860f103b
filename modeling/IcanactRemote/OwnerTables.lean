/-
What the owner's tables say, and the mutations they undergo.

`Tables` is the content of the owner's tables and of its published snapshot as
plain functions, without the hash maps and the routing calls.  The operations
on it (`accept`, `retract`, `installPin`, `move`, …) are the mutations a
command can make.

The theorems `claim_accepted`, `removeOwner_of_ownedBy`, `tables_installPin`,
`tables_releaseEvicted` and `tables_migrateOwned` connect the two levels: each
helper of a handler makes the mutation of the same name.
-/
import IcanactRemote.RegistryOwner

namespace IcanactRemote

open Table Function

/-- The content of the owner's tables and of the published snapshot. -/
@[ext] structure Tables where
  owner : SocketAddr → Option Owner
  generation : SocketAddr → Option CommitSeq
  committedAt : SocketAddr → Option Instant
  seenAt : SocketAddr → Option Instant
  receipt : ReceiptKey → Option CommitSeq
  pin : SocketAddr → Option PeerId
  pinnedAt : PeerId → Option SocketAddr
  reserved : SocketAddr → Option CellId
  configured : PeerId → ℕ
  snapshot : RoutingSnapshot
  commitSeq : CommitSeq
  cells : List ReapState

def PeerRegistryOwner.tables (s : PeerRegistryOwner) : Tables where
  owner := s.addrOwnership.get
  generation := s.claimGeneration.get
  committedAt := s.claimCommittedAt.get
  seenAt := s.livenessEvidenceAt.get
  receipt := s.connectionScopedClaims.get
  pin := s.operatorPinned.get
  pinnedAt := s.pinnedByPeer.get
  reserved := s.reapReserved.get
  configured := s.configurePeerGenerationOf
  snapshot := s.snapshot
  commitSeq := s.commitSeq
  cells := s.cells

def Tables.empty (hasher : SocketAddr → UInt64) : Tables where
  owner _ := none
  generation _ := none
  committedAt _ := none
  seenAt _ := none
  receipt _ := none
  pin _ := none
  pinnedAt _ := none
  reserved _ := none
  configured _ := 0
  snapshot := RoutingSnapshot.default hasher
  commitSeq := 0
  cells := []

lemma PeerRegistryOwner.tables_start (hasher : SocketAddr → UInt64)
    (routing : Option (List RoutingCall)) :
    (PeerRegistryOwner.start hasher routing).tables = Tables.empty hasher := rfl

variable (source target : SocketAddr) (addr : SocketAddr)

namespace Tables

variable (t : Tables)

/-! ### The mutations -/

/-- Commit a claim of `owner` on `addr`. -/
def accept (addr : SocketAddr) (owner : Owner) : Tables :=
  { t with
    owner := update t.owner addr (some owner)
    generation := update t.generation addr (some (t.commitSeq + 1))
    receipt := fun key =>
      if key.peer = owner.nodeId ∧ key.addr = addr then
        (t.receipt key).map fun _ => t.commitSeq + 1
      else t.receipt key
    snapshot := t.snapshot.withOwner addr (some (owner, t.commitSeq + 1))
    commitSeq := t.commitSeq + 1 }

/-- The owner an accepted claim records. -/
def claimedOwner (addr : SocketAddr) (claim : Claim) : Owner :=
  ⟨claim.nodeId, resolvedKind (t.owner addr) claim⟩

/-- The reply of an accepted claim. -/
def acceptedCommit (addr : SocketAddr) (claim : Claim) : ClaimCommit :=
  .accepted (resolvedKind (t.owner addr) claim)
    (((t.owner addr).filter fun owner => owner.nodeId ≠ claim.nodeId).map (·.nodeId))
    (t.owner addr).isNone (t.commitSeq + 1)

/-- A claim on `addr` is accepted: nobody holds a reservation of it and
arbitration adopts the claim. -/
def Accepts (addr : SocketAddr) (claim : Claim) (isLocalAddr : Bool) : Prop :=
  t.reserved addr = none ∧ arbitrate (t.owner addr) claim isLocalAddr = .accept

instance (addr : SocketAddr) (claim : Claim) (isLocalAddr : Bool) :
    Decidable (t.Accepts addr claim isLocalAddr) :=
  inferInstanceAs (Decidable (_ ∧ _))

/-- Record what a connection-scoped claim adds to a plain one: the instant of
its evidence, and a receipt unless the peer is pinned here. -/
def scope (addr : SocketAddr) (peer : PeerId) (instanceId : ℕ) (evidenceAt : Instant) : Tables :=
  { t with
    committedAt := update t.committedAt addr (some evidenceAt)
    receipt := if t.pin addr = some peer then t.receipt
      else update t.receipt ⟨peer, instanceId, addr⟩ (some t.commitSeq) }

def retract (addr : SocketAddr) : Tables :=
  { t with
    owner := update t.owner addr none
    generation := update t.generation addr none
    committedAt := update t.committedAt addr none
    seenAt := update t.seenAt addr none
    receipt := fun key => if key.addr = addr then none else t.receipt key
    snapshot := t.snapshot.withOwner addr none
    commitSeq := t.commitSeq + 1 }

def retractAll (addrs : List SocketAddr) : Tables := addrs.foldl retract t

def dropReceipts (p : ReceiptKey → Prop) [DecidablePred p] : Tables :=
  { t with receipt := fun key => if p key then none else t.receipt key }

/-- The address `peer` is pinned at, when it is not `addr`. -/
def evicted (addr : SocketAddr) (peer : PeerId) : Option SocketAddr :=
  (t.pinnedAt peer).filter fun previous => previous ≠ addr

/-- Pin `peer` at `addr`, evicting the pin it has elsewhere. -/
def installPin (addr : SocketAddr) (peer : PeerId) : Tables :=
  { t with
    pin := fun a =>
      if a = addr then some peer else if t.evicted addr peer = some a then none else t.pin a
    pinnedAt := fun q =>
      if q = peer then some addr
      else if t.pin addr = some q ∧ t.pinnedAt q = some addr then none else t.pinnedAt q
    snapshot := match t.evicted addr peer with
      | some ev => (t.snapshot.withPin addr (some peer)).withPin ev none
      | none => t.snapshot.withPin addr (some peer) }

/-- `addr` is recorded as owned by `peer`. -/
def OwnedBy (addr : SocketAddr) (peer : PeerId) : Prop :=
  ∃ owner, t.owner addr = some owner ∧ owner.nodeId = peer

variable (o : Owner) {peer : PeerId}

lemma ownedBy_iff_any {addr : SocketAddr} :
    ((t.owner addr).any fun owner => owner.nodeId = peer) = true ↔ t.OwnedBy addr peer := by
  rw [Option.any_eq_true]
  simp only [decide_eq_true_eq]
  rfl

instance (addr : SocketAddr) (peer : PeerId) : Decidable (t.OwnedBy addr peer) :=
  decidable_of_iff _ t.ownedBy_iff_any

lemma ownedBy_retract {addr a : SocketAddr} :
    (t.retract addr).OwnedBy a peer ↔ a ≠ addr ∧ t.OwnedBy a peer := by
  rw [OwnedBy, retract]
  by_cases ha : a = addr
  · simp [ha]
  · simp [ha, OwnedBy]

/-- Release the address a pin was evicted from, if its peer still owns it. -/
def releaseEvicted (peer : PeerId) (ev : SocketAddr) : Tables :=
  let t := t.dropReceipts fun key => key.peer = peer ∧ key.addr = ev
  if t.OwnedBy ev peer then t.retract ev else t

/-- Carry a timestamp from `source` to `target`, keeping the newer of two. -/
def carry (f : SocketAddr → Option Instant) (source target : SocketAddr) :
    SocketAddr → Option Instant :=
  match f source with
  | none => f
  | some stamp => fun a =>
    if a = target then some (Table.raised (if target = source then none else f target) stamp)
    else if a = source then none else f a

/-- Move what `owner` holds at `source` to `target`. -/
def move (source target : SocketAddr) (owner : Owner) : Tables :=
  { t with
    owner := update (update t.owner source none) target (some owner)
    generation := update (update t.generation source none) target
      (some (t.commitSeq + 1))
    committedAt := carry t.committedAt source target
    seenAt := carry t.seenAt source target
    receipt := fun key =>
      if key.peer = owner.nodeId ∧ key.addr = target then
        if (t.receipt ⟨key.peer, key.instanceId, source⟩).isSome
            ∨ (key.addr ≠ source ∧ (t.receipt key).isSome) then some (t.commitSeq + 1) else none
      else if key.addr = source then none else t.receipt key
    pin := match t.pin source with
      | some p => update (update t.pin source none) target (some p)
      | none => t.pin
    pinnedAt := match t.pin source with
      | some p => update t.pinnedAt p (some target)
      | none => t.pinnedAt
    snapshot :=
      let snapshot := (t.snapshot.withOwner source none).withOwner target
        (some (owner, t.commitSeq + 1))
      match t.pin source with
      | some p => (snapshot.withPin source none).withPin target (some p)
      | none => snapshot
    commitSeq := t.commitSeq + 1 }

def noteSeen (addr : SocketAddr) (instant : Instant) : Tables :=
  { t with
    seenAt := update t.seenAt addr (some (Table.raised (t.seenAt addr) instant))
    cells := match t.reserved addr with
      | some cell => if t.cells[cell]? = some .pending then t.cells.set cell .invalidated
        else t.cells
      | none => t.cells }

def reserve (addr : SocketAddr) : Tables :=
  { t with
    reserved := update t.reserved addr (some t.cells.length)
    cells := t.cells ++ [.pending] }

def unreserve (addr : SocketAddr) : Tables :=
  { t with reserved := update t.reserved addr none }

/-! ### What is read after a mutation -/

variable (a : SocketAddr)

lemma owner_accept : (t.accept addr o).owner a = if a = addr then some o else t.owner a :=
  update_apply t.owner addr (some o) a

lemma generation_accept : (t.accept addr o).generation a
    = if a = addr then some (t.commitSeq + 1) else t.generation a :=
  update_apply t.generation addr (some (t.commitSeq + 1)) a

lemma owner_retract (addr a : SocketAddr) :
    (t.retract addr).owner a = if a = addr then none else t.owner a :=
  update_apply t.owner addr none a

lemma owner_retract_eq_some {addr a : SocketAddr} {o : Owner} :
    (t.retract addr).owner a = some o ↔ a ≠ addr ∧ t.owner a = some o := by
  rw [owner_retract]
  by_cases ha : a = addr <;> simp [ha]

lemma generation_retract (addr a : SocketAddr) :
    (t.retract addr).generation a = if a = addr then none else t.generation a :=
  update_apply t.generation addr none a

lemma owner_move : (t.move source target o).owner a
    = if a = target then some o else if a = source then none else t.owner a := by
  show update (update t.owner source none) target (some o) a = _
  rw [update_apply, update_apply]

lemma generation_move : (t.move source target o).generation a
    = if a = target then some (t.commitSeq + 1)
      else if a = source then none else t.generation a := by
  show update (update t.generation source none) target _ a = _
  rw [update_apply, update_apply]

lemma owner_retractAll (addrs : List SocketAddr) (a : SocketAddr) :
    (t.retractAll addrs).owner a = if a ∈ addrs then none else t.owner a := by
  induction addrs generalizing t with
  | nil => simp [retractAll]
  | cons addr addrs ih =>
    show ((t.retract addr).retractAll addrs).owner a = _
    rw [ih, owner_retract]
    by_cases ha : a = addr <;> simp [ha]

end Tables

namespace PeerRegistryOwner

variable (s : PeerRegistryOwner)

/-! ### What the helpers do to the tables -/

variable (receipts : Table ReceiptKey CommitSeq) (peerId : PeerId) {isLocalAddr : Bool}
  {claim : Claim} (owner : Owner)

lemma claim_refused {addr : SocketAddr} (h : ¬ s.tables.Accepts addr claim isLocalAddr) :
    ∃ why, s.claim addr claim isLocalAddr = (s, .rejected why) := by
  by_cases hres : s.reapReserved.containsKey addr = true
  · exact ⟨.reapInProgress, by rw [PeerRegistryOwner.claim, if_pos hres]⟩
  · have hfree := containsKey_eq_false.mp (Bool.not_eq_true _ ▸ hres)
    rcases hd : arbitrate (s.addrOwnership.get addr) claim isLocalAddr with _ | reason
    · exact absurd ⟨hfree, hd⟩ h
    · refine ⟨.arbitration reason, ?_⟩
      rw [PeerRegistryOwner.claim, if_neg hres]
      simp [hd]

lemma get_renewReceipts (addr : SocketAddr) (seq : CommitSeq) (key : ReceiptKey) :
    (receipts.iterMut fun key generation =>
        if key.peer = peerId ∧ key.addr = addr then seq else generation).get key
      = if key.peer = peerId ∧ key.addr = addr then (receipts.get key).map fun _ => seq
        else receipts.get key := by
  rw [get_iterMut]
  by_cases hk : key.peer = peerId ∧ key.addr = addr
  · rw [if_pos hk]
    simp [if_pos hk]
  · rw [if_neg hk]
    simp only [if_neg hk, Option.map_id_fun']
    rfl

lemma claim_accepted {addr : SocketAddr} (h : s.tables.Accepts addr claim isLocalAddr) :
    (s.claim addr claim isLocalAddr).2 = s.tables.acceptedCommit addr claim ∧
      (s.claim addr claim isLocalAddr).1.tables
        = s.tables.accept addr (s.tables.claimedOwner addr claim) := by
  have hres : ¬ s.reapReserved.containsKey addr = true := by
    simp [containsKey_eq_false.mpr h.1]
  have harb : arbitrate (s.addrOwnership.get addr) claim isLocalAddr = .accept := h.2
  rw [PeerRegistryOwner.claim, if_neg hres]
  simp only [harb]
  by_cases hch : s.addrOwnership.get addr
      = some ⟨claim.nodeId, resolvedKind (s.addrOwnership.get addr) claim⟩
  · simp only [if_neg (not_not.mpr hch)]
    refine ⟨rfl, Tables.ext ?_ (get_insert_eq_update _ _ _) rfl rfl
      (funext fun key => get_renewReceipts _ _ _ _ key) rfl rfl rfl rfl rfl rfl rfl⟩
    -- a refresh by the recorded owner leaves the entry as it is
    show s.addrOwnership.get = update s.addrOwnership.get addr _
    rw [Tables.claimedOwner, show s.tables.owner addr = s.addrOwnership.get addr from rfl, ← hch,
      update_eq_self]
  · simp only [if_pos hch]
    exact ⟨rfl, Tables.ext (get_insert_eq_update _ _ _) (get_insert_eq_update _ _ _)
      rfl rfl (funext fun key => get_renewReceipts _ _ _ _ key) rfl rfl rfl rfl rfl rfl rfl⟩

lemma ownedBy_eq_true {addr : SocketAddr} {peerId : PeerId} :
    s.ownedBy addr peerId = true ↔ s.tables.OwnedBy addr peerId :=
  s.tables.ownedBy_iff_any

@[simp] lemma tables_dropReceipts (p : ReceiptKey → Prop) [DecidablePred p] :
    (s.dropReceipts p).tables = s.tables.dropReceipts p :=
  Tables.ext rfl rfl rfl rfl (funext fun key => get_retain_not p _ key) rfl rfl rfl rfl rfl
    rfl rfl

lemma tables_retractOwner :
    ({ s with addrOwnership := s.addrOwnership.remove addr }.retractOwner addr owner).1.tables
      = s.tables.retract addr :=
  Tables.ext (get_remove_eq_update _ _) (get_remove_eq_update _ _)
    (get_remove_eq_update _ _) (get_remove_eq_update _ _)
    (funext fun key => get_retain_not (fun key : ReceiptKey => key.addr = addr) _ key)
    rfl rfl rfl rfl rfl rfl rfl

lemma removeOwner_of_ownedBy {addr : SocketAddr} {peerId : PeerId}
    (h : s.tables.OwnedBy addr peerId) :
    ∃ s', s.removeOwner addr = some (s', s.commitSeq + 1) ∧ s'.tables = s.tables.retract addr := by
  obtain ⟨owner, ho, -⟩ := h
  refine ⟨_, ?_, s.tables_retractOwner addr owner⟩
  rw [removeOwner, show s.addrOwnership.get addr = some owner from ho]
  rfl

/-! ### Pins -/

lemma get_clearDisplaced (peerId q : PeerId) : (s.clearDisplaced addr peerId).get q
    = if q ≠ peerId ∧ s.operatorPinned.get addr = some q ∧ s.pinnedByPeer.get q = some addr
      then none else s.pinnedByPeer.get q := by
  rw [clearDisplaced]
  rcases hp : s.operatorPinned.get addr with _ | previousPeer
  · simp
  · by_cases hc : previousPeer ≠ peerId ∧ s.pinnedByPeer.get previousPeer = some addr
    · simp only [if_pos hc, get_remove]
      by_cases hq : q = previousPeer
      · rw [if_pos hq, if_pos ⟨hq ▸ hc.1, by rw [hq], hq ▸ hc.2⟩]
      · rw [if_neg hq, if_neg fun h => hq (Option.some_inj.mp h.2.1).symm]
    · simp only [if_neg hc]
      rw [if_neg]
      rintro ⟨hne, hq, hat⟩
      obtain rfl := Option.some_inj.mp hq
      exact hc ⟨hne, hat⟩

lemma tables_installPin : (s.installPin addr peerId).1.tables = s.tables.installPin addr peerId ∧
    (s.installPin addr peerId).2 = s.tables.evicted addr peerId := by
  -- clearing a displaced pin does not hide the pin of the peer itself
  have hev : (((s.clearDisplaced addr peerId).get peerId).filter
      fun previousAddr => previousAddr ≠ addr) = s.tables.evicted addr peerId := by
    rw [get_clearDisplaced, if_neg fun h => h.1 rfl]
    rfl
  have hpinned : ((s.clearDisplaced addr peerId).insert peerId addr).get
      = (s.tables.installPin addr peerId).pinnedAt := by
    funext q
    show _ = if q = peerId then _ else _
    rw [get_insert]
    by_cases hq : q = peerId
    · rw [if_pos hq, if_pos hq]
    · rw [if_neg hq, if_neg hq, get_clearDisplaced]
      simp only [ne_eq, hq, not_false_eq_true, true_and]
      rfl
  rw [installPin]
  simp only [hev]
  refine ⟨?_, trivial⟩
  rcases he : s.tables.evicted addr peerId with _ | evictedAddr
  · refine Tables.ext rfl rfl rfl rfl rfl ?_ hpinned rfl rfl ?_ rfl rfl
    · funext a
      show (insert _ _ _).get a = if a = addr then _ else if _ = some a then none else _
      rw [get_insert, he, if_neg (by simp : ¬ none = some a)]
      rfl
    · simp only [Tables.installPin, he]
      rfl
  · refine Tables.ext rfl rfl rfl rfl rfl ?_ hpinned rfl rfl ?_ rfl rfl
    · funext a
      show (insert (remove _ _) _ _).get a = if a = addr then _ else if _ = some a then none else _
      rw [get_insert, get_remove, he]
      simp only [Option.some_inj, eq_comm (a := a) (b := evictedAddr)]
      rfl
    · simp only [Tables.installPin, he]
      rfl

lemma tables_releaseEvicted (ev : SocketAddr) :
    (s.releaseEvicted peerId ev).1.tables = s.tables.releaseEvicted peerId ev ∧
      (s.releaseEvicted peerId ev).2
        = if s.tables.OwnedBy ev peerId then some (s.commitSeq + 1) else none := by
  rw [releaseEvicted, Tables.releaseEvicted, ← tables_dropReceipts]
  set s₁ := s.dropReceipts fun key => key.peer = peerId ∧ key.addr = ev with hs₁
  have hiff : s₁.tables.OwnedBy ev peerId ↔ s.tables.OwnedBy ev peerId := Iff.rfl
  by_cases how : s₁.tables.OwnedBy ev peerId
  · obtain ⟨s', hs', ht'⟩ := s₁.removeOwner_of_ownedBy how
    simp only [if_pos (s₁.ownedBy_eq_true.mpr how), if_pos how, if_pos (hiff.mp how), hs', ht']
    exact ⟨trivial, rfl⟩
  · simp only [if_neg (mt s₁.ownedBy_eq_true.mp how), if_neg how, if_neg (mt hiff.mpr how)]
    exact ⟨trivial, trivial⟩

/-! ### Migration -/

lemma get_carryEvidence (evidence : Table SocketAddr Instant) (source target : SocketAddr) :
    (carryEvidence evidence source target).get = Tables.carry evidence.get source target := by
  rw [carryEvidence, Tables.carry]
  rcases evidence.get source with _ | stamp
  · rfl
  · funext a
    simp [get_upsertMax, get_remove]

lemma get_foldl_insert (keys : List ReceiptKey) (f : ReceiptKey → ReceiptKey) (v : CommitSeq)
    (receipts : Table ReceiptKey CommitSeq) (key : ReceiptKey) :
    (keys.foldl (fun receipts k => receipts.insert (f k) v) receipts).get key
      = if ∃ k ∈ keys, key = f k then some v else receipts.get key := by
  induction keys generalizing receipts with
  | nil => simp
  | cons k keys ih =>
    rw [List.foldl_cons, ih, get_insert]
    by_cases hk : key = f k <;> simp [hk]

/-- Receipts after a migration: those of the owner are at the target, at the
new generation; no other receipt at the source survives. -/
lemma get_migrateReceipts (owner : PeerId) (source target : SocketAddr) (seq : CommitSeq)
    (key : ReceiptKey) : (migrateReceipts receipts owner source target seq).get key
      = if key.peer = owner ∧ key.addr = target then
          if (receipts.get ⟨key.peer, key.instanceId, source⟩).isSome
              ∨ (key.addr ≠ source ∧ (receipts.get key).isSome) then some seq else none
        else if key.addr = source then none else receipts.get key := by
  -- which receipts the loop writes
  have hmoved : (∃ k ∈ receipts.keys.filter (fun k => k.addr = source ∧ k.peer = owner),
        key = ⟨owner, k.instanceId, target⟩) ↔
      (key.peer = owner ∧ key.addr = target) ∧
        (receipts.get ⟨key.peer, key.instanceId, source⟩).isSome := by
    constructor
    · rintro ⟨⟨p, i, a⟩, hmem, rfl⟩
      rw [List.mem_filter, decide_eq_true_eq] at hmem
      obtain ⟨hkey, rfl, rfl⟩ := hmem
      exact ⟨⟨rfl, rfl⟩, Option.isSome_iff_exists.mpr (mem_keys.mp hkey)⟩
    · rintro ⟨⟨hp, ha⟩, hsome⟩
      refine ⟨⟨key.peer, key.instanceId, source⟩, ?_, ?_⟩
      · rw [List.mem_filter, decide_eq_true_eq]
        exact ⟨mem_keys.mpr (Option.isSome_iff_exists.mp hsome), rfl, hp⟩
      · rw [← hp, ← ha]
  rw [migrateReceipts, get_renewReceipts, get_foldl_insert, get_retain_not]
  simp only [hmoved]
  by_cases hk : key.peer = owner ∧ key.addr = target
  · simp only [hk, and_self, true_and, if_true]
    by_cases hsrc : (receipts.get ⟨owner, key.instanceId, source⟩).isSome = true
    · simp [hsrc]
    · by_cases hat : target = source
      · simp [hsrc, hat]
      · simp only [hsrc, hat]
        cases receipts.get key <;> simp [hat]
  · simp [hk]

lemma tables_migrateOwned :
    (s.migrateOwned source target owner).1.tables = s.tables.move source target owner ∧
      (s.migrateOwned source target owner).2 = s.commitSeq + 1 := by
  have hupd : ∀ {V : Type} (m : Table SocketAddr V) (v : V), ((m.remove source).insert target v).get
        = update (update m.get source none) target (some v) := by
    intro V m v
    rw [get_insert_eq_update, get_remove_eq_update]
  rw [migrateOwned]
  have hpin : s.tables.pin source = s.operatorPinned.get source := rfl
  rcases hp : s.operatorPinned.get source with _ | pinnedPeer
  · refine ⟨Tables.ext (hupd _ _) (hupd _ _) (get_carryEvidence _ _ _) (get_carryEvidence _ _ _)
      (funext fun key => get_migrateReceipts _ _ _ _ _ key) ?_ ?_ rfl rfl ?_ rfl rfl, rfl⟩
    · -- no pin to carry: removing the absent entry changes nothing
      simp only [Tables.move, hpin, hp]
      show (s.operatorPinned.remove source).get = s.operatorPinned.get
      rw [get_remove_eq_update, ← hp, update_eq_self]
    · simp only [Tables.move, hpin, hp]
      rfl
    · simp only [Tables.move, hpin, hp]
      rfl
  · refine ⟨Tables.ext (hupd _ _) (hupd _ _) (get_carryEvidence _ _ _) (get_carryEvidence _ _ _)
      (funext fun key => get_migrateReceipts _ _ _ _ _ key) ?_ ?_ rfl rfl ?_ rfl rfl, rfl⟩
    · simp only [Tables.move, hpin, hp]
      exact hupd _ _
    · simp only [Tables.move, hpin, hp]
      exact get_insert_eq_update _ _ _
    · simp only [Tables.move, hpin, hp]
      rfl

end PeerRegistryOwner

end IcanactRemote
