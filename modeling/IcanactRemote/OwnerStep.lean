/-
What each command does to the owner's tables.

`Tables.Step t cmd reply t'` lists, command by command, which mutations it
commits, under which checks and with which reply.  `handle_step` is the
refinement theorem: handling a command changes the tables as `Tables.Step`
says.  Every invariant of the owner is proved about `Tables.Step` and never
unfolds a handler.

`tables_invariant` packages the induction over runs once.
-/
import IcanactRemote.OwnerTables

namespace IcanactRemote

open Table Bool Option

namespace Tables

variable (t : Tables)

/-! ### What the checks of the handlers read -/

/-- The current ownership token of `addr`. -/
def token (addr : SocketAddr) : Option OwnershipToken :=
  (t.owner addr).bind fun owner => (t.generation addr).map fun g => ⟨owner.nodeId, g⟩

/-- Evidence newer than `before` is recorded for `addr`. -/
def Newer (addr : SocketAddr) (before : Instant) : Prop :=
  (∃ at₀, t.committedAt addr = some at₀ ∧ before < at₀) ∨
    ∃ at₀, t.seenAt addr = some at₀ ∧ before < at₀

/-- The reservation held for `addr` has crossed its commit point. -/
def ReapCommitted (addr : SocketAddr) : Prop :=
  ∃ cell, t.reserved addr = some cell ∧ t.cells[cell]? = some .committed

/-- The pin of `peer` is at another address, and that address is reserved. -/
def PreviousPinReserved (peer : PeerId) (addr : SocketAddr) : Prop :=
  ∃ previous, t.pinnedAt peer = some previous ∧ previous ≠ addr ∧ t.reserved previous ≠ none

/-- Instance `instanceId` holds the only receipt of `peer` for `addr`. -/
def LastReceipt (peer : PeerId) (instanceId : ℕ) (addr : SocketAddr) : Prop :=
  t.receipt ⟨peer, instanceId, addr⟩ ≠ none ∧
    ∀ i, i ≠ instanceId → t.receipt ⟨peer, i, addr⟩ = none

/-- The generation a configuration runs under. -/
def settledGeneration (peer : PeerId) : Option ℕ → ℕ
  | some expected => expected
  | none => t.configured peer + 1

/-- A first attempt takes a new generation; a retry keeps the one it has. -/
def settle (peer : PeerId) : Option ℕ → Tables
  | some _ => t
  | none => { t with configured := Function.update t.configured peer (t.configured peer + 1) }

/-- Claim `addr` for `peer`, pin it there and release the evicted pin. -/
def configure (addr : SocketAddr) (peer : PeerId) : Tables :=
  let t := t.accept addr (t.claimedOwner addr ⟨peer, .verified⟩)
  match t.evicted addr peer with
  | none => t.installPin addr peer
  | some ev => (t.installPin addr peer).releaseEvicted peer ev

/-- The position at which the evicted pin's ownership was released. -/
def evictedReleaseSeq (addr : SocketAddr) (peer : PeerId) : Option CommitSeq :=
  (t.evicted addr peer).bind fun ev =>
    if (t.accept addr (t.claimedOwner addr ⟨peer, .verified⟩)).OwnedBy ev peer then
      some (t.commitSeq + 2) else none

/-- The guard's compare-and-swap from pending to committed. -/
def consume (cell : CellId) : Tables :=
  if t.cells[cell]? = some .pending then { t with cells := t.cells.set cell .committed } else t

/-! ### The steps -/

end Tables

/-- The command was answered by a read or refused outright. -/
def OwnerCommand.Unchanged : OwnerCommand → OwnerReply → Prop
  | .claim .., .claim commit => commit.isAccepted = false
  | .claimConnectionScoped .., .claim commit => commit.isAccepted = false
  | .release .., .release released => released = none
  | .migrate .., .migrate outcome => ∀ seq, outcome ≠ .migrated seq
  | .reserveForReap .., .reserveForReap granted => granted = none
  | .hasNewerLivenessEvidence .., .answer _ => True
  | .reapBaselineActivityDetected .., .answer _ => True
  | .configurePeerGenerationOf _, .generation _ => True
  | .setOrdinaryConnectRoute .., .answer _ => True
  | _, _ => False

/-- The reply reports a refusal. -/
def OwnerReply.Refused : OwnerReply → Prop
  | .claim commit => commit.isAccepted = false
  | .release released => released = none
  | .migrate outcome => ∀ seq, outcome ≠ .migrated seq
  | .reserveForReap granted => granted = none
  | .configurePeer commit => commit.claim.isAccepted = false
  | _ => False

/-- **The steps of the owner.**  One constructor for each way a command can
go. -/
inductive Tables.Step (t : Tables) : OwnerCommand → OwnerReply → Tables → Prop
  | unchanged {cmd reply} (h : cmd.Unchanged reply) : Step t cmd reply t
  | claim {addr claim isLocalAddr} (h : t.Accepts addr claim isLocalAddr) :
      Step t (.claim addr claim isLocalAddr) (.claim (t.acceptedCommit addr claim))
        (t.accept addr (t.claimedOwner addr claim))
  | claimScoped {addr claim source instanceId evidenceAt} (h : t.Accepts addr claim false) :
      Step t (.claimConnectionScoped addr claim source instanceId evidenceAt)
        (.claim (t.acceptedCommit addr claim))
        ((t.accept addr (t.claimedOwner addr claim)).scope addr claim.nodeId instanceId evidenceAt)
  | release {addr peer generation} (hpin : t.pin addr = none) (howned : t.OwnedBy addr peer)
      (hgen : t.generation addr = some generation) :
      Step t (.release addr peer generation) (.release (some (t.commitSeq + 1))) (t.retract addr)
  | releaseSession {peer source instanceId order released}
      (h : ∀ addr, addr ∈ released.map Prod.fst ↔
        t.LastReceipt peer instanceId addr ∧ t.pin addr = none ∧ t.OwnedBy addr peer) :
      Step t (.releaseSession peer source instanceId order) (.releaseSession released)
        ((t.dropReceipts fun key => key.peer = peer ∧ key.instanceId = instanceId).retractAll
          (released.map Prod.fst))
  | provenAlive {peer addr before} (hreap : ¬ t.ReapCommitted addr) (hnew : t.Newer addr before) :
      Step t (.releaseDeadPeer peer addr before) (.releaseDeadPeer .provenAlive) t
  | purge {peer addr before} (hdead : t.ReapCommitted addr ∨ ¬ t.Newer addr before)
      (h : t.pin addr = none → ¬ t.OwnedBy addr peer) :
      Step t (.releaseDeadPeer peer addr before) (.releaseDeadPeer .notApplicable)
        (t.dropReceipts fun key => key.peer = peer ∧ key.addr = addr)
  | releaseDead {peer addr before} (hdead : t.ReapCommitted addr ∨ ¬ t.Newer addr before)
      (hpin : t.pin addr = none) (howned : t.OwnedBy addr peer) :
      Step t (.releaseDeadPeer peer addr before) (.releaseDeadPeer (.released (t.commitSeq + 1)))
        ((t.dropReceipts fun key => key.peer = peer ∧ key.addr = addr).retract addr)
  | reserve {addr before token pin nodeId}
      (hold : ∀ at₀, t.committedAt addr = some at₀ → at₀ ≤ before)
      (htoken : t.token addr = token) (hpin : t.pin addr = pin) (hfree : t.reserved addr = none) :
      Step t (.reserveForReap addr before token pin nodeId)
        (.reserveForReap (some t.cells.length)) (t.reserve addr)
  | unreserve {addr} : Step t (.releaseReapReservation addr) .done (t.unreserve addr)
  | configureBlocked {addr peer expected} (h : t.PreviousPinReserved peer addr) :
      Step t (.configurePeer addr peer expected)
        (.configurePeer ⟨.rejected .reapInProgress, none, none, t.configured peer⟩) t
  | configureSuperseded {addr peer expected} (h : ¬ t.PreviousPinReserved peer addr)
      (hold : expected < t.configured peer) :
      Step t (.configurePeer addr peer (some expected))
        (.configurePeer
          ⟨.rejected .supersededByNewerConfiguration, none, none, t.configured peer⟩) t
  | configureRefused {addr peer expected why} (h : ¬ t.PreviousPinReserved peer addr)
      (hnew : ∀ e, expected = some e → t.configured peer ≤ e)
      (hno : ¬ t.Accepts addr ⟨peer, .verified⟩ false) :
      Step t (.configurePeer addr peer expected)
        (.configurePeer ⟨.rejected why, none, none, t.settledGeneration peer expected⟩)
        (t.settle peer expected)
  | configured {addr peer expected} (h : ¬ t.PreviousPinReserved peer addr)
      (hnew : ∀ e, expected = some e → t.configured peer ≤ e)
      (hyes : t.Accepts addr ⟨peer, .verified⟩ false) :
      Step t (.configurePeer addr peer expected)
        (.configurePeer ⟨t.acceptedCommit addr ⟨peer, .verified⟩, t.evicted addr peer,
          t.evictedReleaseSeq addr peer, t.settledGeneration peer expected⟩)
        ((t.settle peer expected).configure addr peer)
  | migrate {source target owner generation} (hsrc : t.reserved source = none)
      (htgt : t.reserved target = none) (howner : t.owner source = some owner)
      (hgen : t.generation source = some generation)
      (hsame : ∀ o, t.owner target = some o → o.nodeId = owner.nodeId) :
      Step t (.migrate source target false (.owned ⟨owner.nodeId, generation⟩))
        (.migrate (.migrated (t.commitSeq + 1)))
        (t.move source target (t.claimedOwner target ⟨owner.nodeId, owner.kind⟩))
  | note {addr instant} :
      Step t (.noteLivenessEvidence addr instant) .done (t.noteSeen addr instant)

/-! ### Every handler takes a step -/

namespace PeerRegistryOwner

variable (s : PeerRegistryOwner)

lemma step_claim (addr : SocketAddr) (claim : Claim) (isLocalAddr : Bool) :
    Tables.Step s.tables (.claim addr claim isLocalAddr) (.claim (s.claim addr claim isLocalAddr).2)
      (s.claim addr claim isLocalAddr).1.tables := by
  by_cases h : s.tables.Accepts addr claim isLocalAddr
  · obtain ⟨hreply, htab⟩ := s.claim_accepted h
    rw [hreply, htab]
    exact .claim h
  · obtain ⟨why, hw⟩ := s.claim_refused h
    rw [hw]
    exact .unchanged rfl

lemma step_claimConnectionScoped (addr : SocketAddr) (claim : Claim) (source : SocketAddr)
    (instanceId : ℕ) (evidenceAt : Instant) :
    Tables.Step s.tables (.claimConnectionScoped addr claim source instanceId evidenceAt)
      (.claim (s.claimConnectionScoped addr claim source instanceId evidenceAt).2)
      (s.claimConnectionScoped addr claim source instanceId evidenceAt).1.tables := by
  by_cases h : s.tables.Accepts addr claim false
  · obtain ⟨hreply, htab⟩ := s.claim_accepted h
    rcases hc : s.claim addr claim false with ⟨s₁, commit⟩
    rw [hc] at hreply htab
    obtain rfl : commit = s.tables.acceptedCommit addr claim := hreply
    have hseq : s₁.commitSeq = s.commitSeq + 1 := congrArg Tables.commitSeq htab
    have hcom : ((s.tables.acceptedCommit addr claim).isAccepted) = true := rfl
    -- the state the handler returns is `s₁` with its tables scoped
    have hscope : (s.claimConnectionScoped addr claim source instanceId evidenceAt).2
          = s.tables.acceptedCommit addr claim ∧
        (s.claimConnectionScoped addr claim source instanceId evidenceAt).1.tables
          = s₁.tables.scope addr claim.nodeId instanceId evidenceAt := by
      simp only [claimConnectionScoped, hc, hcom, if_true]
      by_cases hp : s₁.operatorPinned.get addr = some claim.nodeId
      · simp only [if_pos hp]
        exact ⟨trivial, Tables.ext rfl rfl (get_insert_eq_update _ _ _) rfl
          (if_pos hp).symm rfl rfl rfl rfl rfl rfl rfl⟩
      · simp only [if_neg hp, Tables.acceptedCommit]
        refine ⟨trivial, Tables.ext rfl rfl (get_insert_eq_update _ _ _) rfl
          ?_ rfl rfl rfl rfl rfl rfl rfl⟩
        refine Eq.trans (get_insert_eq_update _ _ _) (Eq.trans ?_ (if_neg hp).symm)
        rw [show s₁.tables.commitSeq = s.tables.commitSeq + 1 from hseq]
        rfl
    rw [hscope.1, hscope.2, htab]
    exact .claimScoped h
  · obtain ⟨why, hw⟩ := s.claim_refused h
    simp only [claimConnectionScoped, hw, ClaimCommit.isAccepted, false_eq_true, if_false, ite_self]
    exact .unchanged rfl

variable {addr : SocketAddr}

lemma not_containsKey_pin :
    ¬ s.operatorPinned.containsKey addr = true ↔ s.tables.pin addr = none := by
  rw [not_eq_true, containsKey_eq_false]
  rfl

lemma step_release (addr : SocketAddr) (peer : PeerId) (generation : CommitSeq) :
    Tables.Step s.tables (.release addr peer generation)
      (.release (s.release addr peer generation).2) (s.release addr peer generation).1.tables := by
  rw [release]
  by_cases hpin : s.operatorPinned.containsKey addr = true
  · rw [if_pos hpin]
    exact .unchanged rfl
  · rw [if_neg hpin]
    by_cases hmatch : (s.ownedBy addr peer && s.claimGeneration.get addr = some generation) = true
    · obtain ⟨hown, hgen⟩ := and_eq_true_iff.mp hmatch
      have howned := s.ownedBy_eq_true.mp hown
      obtain ⟨s', hs', ht'⟩ := s.removeOwner_of_ownedBy howned
      rw [if_neg (by simp [hmatch]), hs']
      simp only [ht']
      exact .release (s.not_containsKey_pin.mp hpin) howned (of_decide_eq_true hgen)
    · rw [if_pos (by rw [eq_false_iff.mpr hmatch]; rfl)]
      exact .unchanged rfl

/-! ### The session loop -/

variable (peer : PeerId) (instanceId : ℕ) {before : Instant} (cell : CellId)

lemma releaseUncovered_eq (released : List (SocketAddr × CommitSeq)) (addr : SocketAddr) :
    (¬ (s.tables.pin addr = none ∧ s.tables.OwnedBy addr peer) ∧
        releaseUncovered peer (s, released) addr = (s, released)) ∨
      ((s.tables.pin addr = none ∧ s.tables.OwnedBy addr peer) ∧
        ∃ s' seq, releaseUncovered peer (s, released) addr = (s', released ++ [(addr, seq)]) ∧
          s'.tables = s.tables.retract addr) := by
  rw [releaseUncovered]
  by_cases hpin : s.operatorPinned.containsKey addr = true
  · refine Or.inl ⟨fun h => ?_, if_pos hpin⟩
    exact s.not_containsKey_pin.mpr h.1 hpin
  · by_cases howned : s.ownedBy addr peer = true
    · obtain ⟨s', hs', ht'⟩ := s.removeOwner_of_ownedBy (s.ownedBy_eq_true.mp howned)
      refine Or.inr ⟨⟨s.not_containsKey_pin.mp hpin, s.ownedBy_eq_true.mp howned⟩,
        s', s.commitSeq + 1, ?_, ht'⟩
      simp only [if_neg hpin, howned, hs', Bool.not_true, Bool.false_eq_true, if_false]
    · refine Or.inl ⟨fun h => howned (s.ownedBy_eq_true.mpr h.2), ?_⟩
      simp only [if_neg hpin, Bool.not_eq_true _ ▸ howned, Bool.not_false, if_true]

lemma foldl_releaseUncovered (addrs : List SocketAddr) (released : List (SocketAddr × CommitSeq)) :
    ∃ rel, (addrs.foldl (releaseUncovered peer) (s, released)).2 = released ++ rel ∧
      (addrs.foldl (releaseUncovered peer) (s, released)).1.tables
        = s.tables.retractAll (rel.map Prod.fst) ∧
      ∀ addr, addr ∈ rel.map Prod.fst ↔
        addr ∈ addrs ∧ s.tables.pin addr = none ∧ s.tables.OwnedBy addr peer := by
  induction addrs generalizing s released with
  | nil => exact ⟨[], by simp, rfl, by simp⟩
  | cons a addrs ih =>
    rw [List.foldl_cons]
    rcases s.releaseUncovered_eq peer released a with ⟨hskip, heq⟩ | ⟨hfree, s', seq, heq, ht'⟩
    · rw [heq]
      obtain ⟨rel, h1, h2, h3⟩ := ih s released
      refine ⟨rel, h1, h2, fun addr => ?_⟩
      rw [h3, List.mem_cons]
      constructor
      · rintro ⟨hmem, hrest⟩
        exact ⟨Or.inr hmem, hrest⟩
      · rintro ⟨rfl | hmem, hrest⟩
        · exact absurd hrest hskip
        · exact ⟨hmem, hrest⟩
    · rw [heq]
      obtain ⟨rel, h1, h2, h3⟩ := ih s' (released ++ [(a, seq)])
      refine ⟨(a, seq) :: rel, ?_, ?_, fun addr => ?_⟩
      · rw [h1, List.append_assoc]
        rfl
      · rw [h2, ht']
        rfl
      · -- a vacated address is no longer owned, every other one is as before
        rw [List.map_cons, List.mem_cons, h3, List.mem_cons, ht', Tables.ownedBy_retract]
        constructor
        · rintro (rfl | ⟨hmem, hpin, -, howned⟩)
          · exact ⟨Or.inl rfl, hfree⟩
          · exact ⟨Or.inr hmem, hpin, howned⟩
        · rintro ⟨hmem, hpin, howned⟩
          by_cases ha : addr = a
          · exact Or.inl ha
          · exact Or.inr ⟨hmem.resolve_left ha, hpin, ha, howned⟩

lemma mem_ownEntries (order : VisitOrder) (addr : SocketAddr) :
    (addr ∈ order.arrange ((s.connectionScopedClaims.keys.filter fun key =>
        key.peer = peer ∧ key.instanceId = instanceId).map (·.addr))) ↔
      s.tables.receipt ⟨peer, instanceId, addr⟩ ≠ none := by
  rw [(order.perm _).mem_iff, List.mem_map]
  constructor
  · rintro ⟨⟨p, i, a⟩, hmem, rfl⟩
    rw [List.mem_filter, decide_eq_true_eq] at hmem
    obtain ⟨hkey, rfl, rfl⟩ := hmem
    exact ne_none_iff_exists'.mpr (mem_keys.mp hkey)
  · intro hne
    refine ⟨⟨peer, instanceId, addr⟩, ?_, rfl⟩
    rw [List.mem_filter, decide_eq_true_eq]
    exact ⟨mem_keys.mpr (ne_none_iff_exists'.mp hne), rfl, rfl⟩

lemma covered_iff (addr : SocketAddr) :
    ((s.dropReceipts fun key => key.peer = peer ∧ key.instanceId = instanceId
        ).connectionScopedClaims.keys.any fun key => key.peer = peer ∧ key.addr = addr) = true ↔
      ∃ i, i ≠ instanceId ∧ s.tables.receipt ⟨peer, i, addr⟩ ≠ none := by
  have hget : ∀ key, (s.dropReceipts fun key => key.peer = peer ∧ key.instanceId = instanceId
      ).connectionScopedClaims.get key = if key.peer = peer ∧ key.instanceId = instanceId then none
        else s.tables.receipt key := fun key => get_retain_not _ _ key
  rw [List.any_eq_true]
  constructor
  · rintro ⟨⟨p, i, a⟩, hmem, hkey⟩
    rw [mem_keys, hget] at hmem
    rw [decide_eq_true_eq] at hkey
    obtain ⟨rfl, rfl⟩ := hkey
    obtain ⟨v, hv⟩ := hmem
    by_cases hi : i = instanceId
    · rw [if_pos ⟨rfl, hi⟩] at hv
      simp at hv
    · rw [if_neg (fun h => hi h.2)] at hv
      exact ⟨i, hi, by rw [hv]; simp⟩
  · rintro ⟨i, hi, hne⟩
    refine ⟨⟨peer, i, addr⟩, ?_, by simp⟩
    rw [mem_keys, hget, if_neg (fun h => hi h.2)]
    exact ne_none_iff_exists'.mp hne

lemma step_releaseSession (source : SocketAddr) (instanceId : ℕ) (order : VisitOrder) :
    Tables.Step s.tables (.releaseSession peer source instanceId order)
      (.releaseSession (s.releaseSession peer source instanceId order).2)
      (s.releaseSession peer source instanceId order).1.tables := by
  rw [releaseSession]
  set s₁ := s.dropReceipts fun key => key.peer = peer ∧ key.instanceId = instanceId with hs₁
  set own := order.arrange ((s.connectionScopedClaims.keys.filter fun key =>
    key.peer = peer ∧ key.instanceId = instanceId).map (·.addr)) with hown
  obtain ⟨rel, h1, h2, h3⟩ := s₁.foldl_releaseUncovered peer (own.filter fun addr =>
    !s₁.connectionScopedClaims.keys.any fun key => key.peer = peer ∧ key.addr = addr) []
  rw [h1, h2, List.nil_append, hs₁, tables_dropReceipts]
  refine .releaseSession fun addr => ?_
  -- the list of the loop holds the addresses whose last receipt was this instance's
  have hlast : (addr ∈ own.filter fun addr =>
      !s₁.connectionScopedClaims.keys.any fun key => key.peer = peer ∧ key.addr = addr) ↔
      s.tables.LastReceipt peer instanceId addr := by
    rw [List.mem_filter, hown, s.mem_ownEntries, not_eq_true', ← not_eq_true,
      hs₁, s.covered_iff, Tables.LastReceipt]
    push Not
    rfl
  rw [h3, hlast]
  rfl

/-! ### Dead peers and reservations -/

lemma reapCommitted_eq_true : s.reapCommitted addr = true ↔ s.tables.ReapCommitted addr := by
  rw [reapCommitted, any_eq_true]
  simp only [decide_eq_true_eq]
  rfl

lemma newer_iff : s.hasNewerLivenessEvidence addr before = true ↔ s.tables.Newer addr before := by
  rw [hasNewerLivenessEvidence, or_eq_true, any_eq_true, any_eq_true]
  simp only [decide_eq_true_eq]
  rfl

/-- The liveness fence of a dead-peer release: it answers before anything is
touched. -/
lemma releaseDeadPeer_of_alive {peer : PeerId} (hreap : ¬ s.tables.ReapCommitted addr)
    (hnew : s.tables.Newer addr before) :
    s.releaseDeadPeer peer addr before = (s, .provenAlive) := by
  have hc : s.reapCommitted addr = false :=
    Bool.eq_false_iff.mpr (mt s.reapCommitted_eq_true.mp hreap)
  rw [releaseDeadPeer, hc]
  rcases Bool.or_eq_true_iff.mp (s.newer_iff.mpr hnew) with hA | hB
  · rw [if_pos (by rw [hA]; rfl)]
  · simp [hB]

/-- Past the fence: the peer's receipts for the address go, and the address is
vacated when the peer owns it unpinned. -/
lemma releaseDeadPeer_of_dead {peer : PeerId}
    (hdead : s.tables.ReapCommitted addr ∨ ¬ s.tables.Newer addr before) :
    s.releaseDeadPeer peer addr before =
      let s := s.dropReceipts fun key => key.peer = peer ∧ key.addr = addr
      if s.operatorPinned.containsKey addr then (s, .notApplicable)
      else if !s.ownedBy addr peer then (s, .notApplicable)
      else
        match s.removeOwner addr with
        | none => (s, .notApplicable)
        | some (s, commitSeq) => (s, .released commitSeq) := by
  have hfence : (!s.reapCommitted addr && s.hasNewerLivenessEvidence addr before) = false := by
    rcases hdead with h | h
    · rw [s.reapCommitted_eq_true.mpr h]
      rfl
    · rw [Bool.eq_false_iff.mpr (mt s.newer_iff.mp h), Bool.and_false]
  rw [hasNewerLivenessEvidence, Bool.and_or_distrib_left, Bool.or_eq_false_iff] at hfence
  rw [releaseDeadPeer, hfence.1, hfence.2]
  rfl

lemma step_releaseDeadPeer (addr : SocketAddr) (before : Instant) :
    Tables.Step s.tables (.releaseDeadPeer peer addr before)
      (.releaseDeadPeer (s.releaseDeadPeer peer addr before).2)
      (s.releaseDeadPeer peer addr before).1.tables := by
  by_cases halive : ¬ s.tables.ReapCommitted addr ∧ s.tables.Newer addr before
  · rw [s.releaseDeadPeer_of_alive halive.1 halive.2]
    exact .provenAlive halive.1 halive.2
  · have hdead : s.tables.ReapCommitted addr ∨ ¬ s.tables.Newer addr before := by
      by_cases h : s.tables.ReapCommitted addr
      · exact Or.inl h
      · exact Or.inr fun hn => halive ⟨h, hn⟩
    rw [s.releaseDeadPeer_of_dead hdead]
    set s₁ := s.dropReceipts fun key => key.peer = peer ∧ key.addr = addr with hs₁
    have ht₁ : s₁.tables = s.tables.dropReceipts fun key => key.peer = peer ∧ key.addr = addr :=
      s.tables_dropReceipts _
    by_cases hpin : s₁.operatorPinned.containsKey addr = true
    · simp only [if_pos hpin, ht₁]
      exact .purge hdead fun h => absurd hpin (s.not_containsKey_pin.mpr h)
    · by_cases howned : s₁.ownedBy addr peer = true
      · obtain ⟨s', hs', ht'⟩ := s₁.removeOwner_of_ownedBy (s₁.ownedBy_eq_true.mp howned)
        simp only [if_neg hpin, howned, hs', ht', ht₁, Bool.not_true, Bool.false_eq_true, if_false]
        exact .releaseDead hdead (s.not_containsKey_pin.mp hpin) (s.ownedBy_eq_true.mp howned)
      · simp only [if_neg hpin, Bool.eq_false_iff.mpr howned, Bool.not_false, if_true, ht₁]
        exact .purge hdead fun _ h => howned (s₁.ownedBy_eq_true.mpr h)

lemma step_reserveForReap (addr : SocketAddr) (before : Instant) (token : Option OwnershipToken)
    (pin nodeId : Option PeerId) :
    Tables.Step s.tables (.reserveForReap addr before token pin nodeId)
      (.reserveForReap (s.reserveForReap addr before token pin nodeId).2)
      (s.reserveForReap addr before token pin nodeId).1.tables := by
  rw [reserveForReap]
  split_ifs with hnew htoken hpin hid hres
  · exact .unchanged rfl
  · exact .unchanged rfl
  · exact .unchanged rfl
  · exact .unchanged rfl
  · exact .unchanged rfl
  · have htab : { s with
        cells := s.cells ++ [ReapState.pending]
        reapReserved := s.reapReserved.insert addr s.cells.length }.tables
          = s.tables.reserve addr :=
      Tables.ext rfl rfl rfl rfl rfl rfl rfl (get_insert_eq_update _ _ _) rfl rfl rfl rfl
    rw [htab]
    refine .reserve ?_ (not_not.mp htoken) (not_not.mp hpin)
      (containsKey_eq_false.mp (eq_false_iff.mpr hres))
    intro at₀ hat
    by_contra hlt
    refine hnew ?_
    rw [show s.claimCommittedAt.get addr = some at₀ from hat]
    simpa using hlt

/-! ### Configuration -/

lemma previousPinReserved_eq_true {peer : PeerId} :
    s.previousPinReserved peer addr = true ↔ s.tables.PreviousPinReserved peer addr := by
  rw [previousPinReserved, any_eq_true]
  simp only [and_eq_true, decide_eq_true_eq, containsKey_eq_true, ← ne_none_iff_exists']
  rfl

lemma configureAt_refused {peer : PeerId}
    (h : ¬ s.tables.Accepts addr ⟨peer, .verified⟩ false) (generation : ℕ) :
    ∃ why, s.configureAt addr peer generation = (s, ⟨.rejected why, none, none, generation⟩) := by
  obtain ⟨why, hw⟩ := s.claim_refused h
  refine ⟨why, ?_⟩
  rw [configureAt, hw]
  rfl

lemma configureAt_accepted {peer : PeerId} (h : s.tables.Accepts addr ⟨peer, .verified⟩ false)
    (generation : ℕ) : (s.configureAt addr peer generation).2
        = ⟨s.tables.acceptedCommit addr ⟨peer, .verified⟩, s.tables.evicted addr peer,
            s.tables.evictedReleaseSeq addr peer, generation⟩ ∧
      (s.configureAt addr peer generation).1.tables = s.tables.configure addr peer := by
  obtain ⟨hreply, htab⟩ := s.claim_accepted h
  rcases hc : s.claim addr ⟨peer, .verified⟩ false with ⟨s₁, commit⟩
  rw [hc] at hreply htab
  obtain rfl : commit = s.tables.acceptedCommit addr ⟨peer, .verified⟩ := hreply
  have hcom : (s.tables.acceptedCommit addr ⟨peer, .verified⟩).isAccepted = true := rfl
  obtain ⟨hpinned, hev⟩ := s₁.tables_installPin addr peer
  rcases hp : s₁.installPin addr peer with ⟨s₂, ev⟩
  rw [hp] at hpinned hev
  have hev' : s₁.tables.evicted addr peer = s.tables.evicted addr peer := by
    rw [htab]
    rfl
  simp only [configureAt, hc, hcom, hp, Bool.not_true, Bool.false_eq_true, if_false]
  rw [Tables.configure, Tables.evictedReleaseSeq, ← htab, ← hev', ← hev]
  rcases ev with _ | ev
  · exact ⟨rfl, hpinned⟩
  · obtain ⟨hrel, hseq⟩ := s₂.tables_releaseEvicted peer ev
    simp only [hrel, hseq, bind_some]
    refine ⟨?_, by rw [hpinned]⟩
    have hseq₂ : s₂.commitSeq = s.commitSeq + 1 := by
      have h2 : s₂.tables.commitSeq = s₁.tables.commitSeq := by rw [hpinned]; rfl
      have h1 : s₁.tables.commitSeq = s.tables.commitSeq + 1 := by rw [htab]; rfl
      exact h2.trans h1
    have hown : s₂.tables.OwnedBy ev peer ↔ s₁.tables.OwnedBy ev peer := by rw [hpinned]; rfl
    simp only [hown, hseq₂]
    rfl

lemma tables_settle : { s with configurePeerGeneration :=
        s.configurePeerGeneration.insert peer (s.configurePeerGenerationOf peer + 1) }.tables
      = s.tables.settle peer none := by
  refine Tables.ext rfl rfl rfl rfl rfl rfl rfl rfl (funext fun q => ?_) rfl rfl rfl
  show ((s.configurePeerGeneration.insert peer _).get q).getD 0
    = Function.update s.configurePeerGenerationOf peer (s.configurePeerGenerationOf peer + 1) q
  rw [get_insert, Function.update_apply]
  by_cases hq : q = peer
  · rw [if_pos hq, if_pos hq]
    rfl
  · rw [if_neg hq, if_neg hq]
    rfl

lemma step_configurePeer (addr : SocketAddr) (peer : PeerId) (expected : Option ℕ) :
    Tables.Step s.tables (.configurePeer addr peer expected)
      (.configurePeer (s.configurePeer addr peer expected).2)
      (s.configurePeer addr peer expected).1.tables := by
  rw [configurePeer.eq_def]
  by_cases hblock : s.previousPinReserved peer addr = true
  · simp only [if_pos hblock]
    exact .configureBlocked (s.previousPinReserved_eq_true.mp hblock)
  · simp only [if_neg hblock]
    have hfree := mt s.previousPinReserved_eq_true.mpr hblock
    rcases expected with _ | expected
    · -- a first attempt takes a new generation before it claims
      set s₁ := { s with configurePeerGeneration :=
        s.configurePeerGeneration.insert peer (s.configurePeerGenerationOf peer + 1) } with hs₁
      have hset : s₁.tables = s.tables.settle peer none := s.tables_settle peer
      have hacc : s₁.tables.Accepts addr ⟨peer, .verified⟩ false ↔
          s.tables.Accepts addr ⟨peer, .verified⟩ false := Iff.rfl
      by_cases h : s.tables.Accepts addr ⟨peer, .verified⟩ false
      · obtain ⟨h1, h2⟩ := s₁.configureAt_accepted (hacc.mpr h)
          (s.configurePeerGenerationOf peer + 1)
        rw [h1, h2, hset]
        exact .configured hfree (fun e he => absurd he (by simp)) h
      · obtain ⟨why, hw⟩ := s₁.configureAt_refused (mt hacc.mp h)
          (s.configurePeerGenerationOf peer + 1)
        rw [hw, hset]
        exact .configureRefused hfree (fun e he => absurd he (by simp)) h
    · -- a retry may have been overtaken by a later call
      by_cases hold : expected < s.configurePeerGenerationOf peer
      · simp only [if_pos hold]
        exact .configureSuperseded hfree hold
      · simp only [if_neg hold]
        have hnew : ∀ e, some expected = some e → s.tables.configured peer ≤ e := by
          rintro e he
          rw [← some_inj.mp he]
          exact not_lt.mp hold
        by_cases h : s.tables.Accepts addr ⟨peer, .verified⟩ false
        · obtain ⟨h1, h2⟩ := s.configureAt_accepted h expected
          rw [h1, h2]
          exact .configured hfree hnew h
        · obtain ⟨why, hw⟩ := s.configureAt_refused h expected
          rw [hw]
          exact .configureRefused hfree hnew h

/-! ### Migration and evidence -/

lemma step_migrate (source target : SocketAddr) (expectedSource : SourceExpectation)
    (isLocalAddr : Bool) : Tables.Step s.tables (.migrate source target isLocalAddr expectedSource)
      (.migrate (s.migrate source target expectedSource isLocalAddr).2)
      (s.migrate source target expectedSource isLocalAddr).1.tables := by
  rw [migrate]
  by_cases hres : (s.reapReserved.containsKey source || s.reapReserved.containsKey target) = true
  · rw [if_pos hres]
    exact .unchanged fun seq => by simp
  rw [if_neg hres]
  by_cases hloc : isLocalAddr = true
  · rw [if_pos hloc]
    exact .unchanged fun seq => by simp
  rw [if_neg hloc]
  by_cases hmatch : s.sourceMatches source expectedSource = true
  case neg =>
    rw [if_pos (by rw [eq_false_iff.mpr hmatch]; rfl)]
    exact .unchanged fun seq => by simp
  rw [if_neg (by rw [hmatch]; simp)]
  by_cases hoth : ((s.addrOwnership.get target).any fun existing =>
      !(s.addrOwnership.get source).any fun owner => owner.nodeId = existing.nodeId) = true
  · simp only [if_pos hoth]
    exact .unchanged fun seq => by simp
  simp only [if_neg hoth]
  rcases ho : s.addrOwnership.get source with _ | owner
  · exact .unchanged fun seq => by simp
  -- every check has passed, and the source is owned
  obtain ⟨hsrc, htgt⟩ := or_eq_false_iff.mp (eq_false_iff.mpr hres)
  obtain ⟨htab, hseq⟩ := s.tables_migrateOwned source target
    ⟨owner.nodeId, resolvedKind (s.addrOwnership.get target) ⟨owner.nodeId, owner.kind⟩⟩
  simp only [htab, hseq]
  rcases expectedSource with _ | ⟨peer, generation⟩
  · rw [sourceMatches, ho] at hmatch
    simp at hmatch
  · obtain ⟨hown, hgen⟩ := and_eq_true_iff.mp hmatch
    have hpeer : owner.nodeId = peer := by
      rw [ownedBy, ho] at hown
      simpa using hown
    subst hpeer
    rw [eq_false_iff.mpr hloc]
    refine .migrate (containsKey_eq_false.mp hsrc) (containsKey_eq_false.mp htgt) ho
      (of_decide_eq_true hgen) ?_
    intro o hto
    rw [show s.addrOwnership.get target = some o from hto, ho] at hoth
    have hsame : owner.nodeId = o.nodeId := by simpa using hoth
    exact hsame.symm

lemma tables_noteLivenessEvidence (instant : Instant) :
    (s.noteLivenessEvidence addr instant).tables = s.tables.noteSeen addr instant := by
  have hseen : (s.livenessEvidenceAt.upsertMax addr instant).get
      = (s.tables.noteSeen addr instant).seenAt := get_insert_eq_update _ _ _
  have hres : s.tables.reserved addr = s.reapReserved.get addr := rfl
  rw [noteLivenessEvidence, invalidateReapReservation]
  rcases hr : s.reapReserved.get addr with _ | cell
  · refine Tables.ext rfl rfl rfl hseen rfl rfl rfl rfl rfl rfl rfl ?_
    simp only [Tables.noteSeen, hres, hr]
    rfl
  · simp only [compareExchange]
    by_cases hp : s.cells[cell]? = some .pending
    · rw [if_pos hp]
      refine Tables.ext rfl rfl rfl hseen rfl rfl rfl rfl rfl rfl rfl ?_
      simp only [Tables.noteSeen, hres, hr]
      exact (if_pos hp).symm
    · rw [if_neg hp]
      refine Tables.ext rfl rfl rfl hseen rfl rfl rfl rfl rfl rfl rfl ?_
      simp only [Tables.noteSeen, hres, hr]
      exact (if_neg hp).symm

/-- **Refinement.**  Handling a command changes the tables as its step says. -/
theorem handle_step (cmd : OwnerCommand) :
    Tables.Step s.tables cmd (s.handle cmd).2 (s.handle cmd).1.tables := by
  cases cmd with
  | claim addr claim isLocalAddr => exact s.step_claim addr claim isLocalAddr
  | release addr peer generation => exact s.step_release addr peer generation
  | migrate source target isLocalAddr expected =>
    exact s.step_migrate source target expected isLocalAddr
  | claimConnectionScoped addr claim source instanceId evidenceAt =>
    exact s.step_claimConnectionScoped addr claim source instanceId evidenceAt
  | releaseSession peer source instanceId order =>
    exact s.step_releaseSession peer source instanceId order
  | releaseDeadPeer peer addr before => exact s.step_releaseDeadPeer peer addr before
  | hasNewerLivenessEvidence | reapBaselineActivityDetected | configurePeerGenerationOf =>
    exact .unchanged trivial
  | reserveForReap addr before token pin nodeId =>
    exact s.step_reserveForReap addr before token pin nodeId
  | releaseReapReservation addr =>
    have htab : { s with reapReserved := s.reapReserved.remove addr }.tables
        = s.tables.unreserve addr :=
      Tables.ext rfl rfl rfl rfl rfl rfl rfl (get_remove_eq_update _ _) rfl rfl rfl rfl
    rw [handle, htab]
    exact .unreserve
  | configurePeer addr peer expected => exact s.step_configurePeer addr peer expected
  | setOrdinaryConnectRoute =>
    rw [handle, setOrdinaryConnectRoute]
    split_ifs <;> exact .unchanged trivial
  | noteLivenessEvidence =>
    rw [handle, tables_noteLivenessEvidence]
    exact .note

lemma tables_tryConsume : (s.tryConsume cell).1.tables = s.tables.consume cell := by
  rw [tryConsume, Tables.consume]
  simp only [compareExchange]
  by_cases hp : s.cells[cell]? = some .pending
  · rw [if_pos hp, if_pos (show s.tables.cells[cell]? = _ from hp)]
    rfl
  · rw [if_neg hp, if_neg (show ¬ s.tables.cells[cell]? = _ from hp)]

lemma tables_step_tryConsume : (s.step (.tryConsume cell)).tables = s.tables.consume cell :=
  s.tables_tryConsume cell

end PeerRegistryOwner

/-! ### Runs -/

/-- **Invariants of the tables.**  What holds of empty tables and is kept by
every step and by every guard's compare-and-swap holds at every point of every
run. -/
theorem tables_invariant {P : Tables → Prop}
    (hsta : ∀ hasher, P (Tables.empty hasher))
    (hstep : ∀ {t cmd reply t'}, P t → Tables.Step t cmd reply t' → P t')
    (hconsume : ∀ {t} cell, P t → P (t.consume cell))
    (hasher : SocketAddr → UInt64) (routing : Option (List RoutingCall))
    (events : List OwnerEvent) : P (ownerRun hasher routing events).tables := by
  have hemp : P (PeerRegistryOwner.start hasher routing).tables := by
    exact hsta hasher
  refine Run.exec_invariant (P := fun s : PeerRegistryOwner => P s.tables) ?_ hemp events
  rintro s (cmd | cell) hs
  · exact hstep hs (s.handle_step cmd)
  · show P (s.step (.tryConsume cell)).tables
    rw [s.tables_step_tryConsume]
    exact hconsume cell hs

end IcanactRemote
