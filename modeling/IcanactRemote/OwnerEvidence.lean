/-
Direct evidence of life: `claim_committed_at` and `liveness_evidence_at`.

Three handlers write these instants.  A liveness note and a migration keep the
newer of two; a connection-scoped claim overwrites what is recorded.  The
instants are taken by the callers before they are queued, so they may arrive
out of order, and then a claim sets the evidence back.

* `older_claim_sets_evidence_back` — two claims out of order, after which a
  dead-peer release vacates an address with newer evidence;
* `evidence_never_backwards` — while every connection-scoped claim accepted
  for an address carries an instant at least as new as the one recorded, its
  evidence never goes back, and it protects the address.
-/
import IcanactRemote.OwnerStep

namespace IcanactRemote

open Function

/-- What was recorded is still recorded, or something newer is. -/
def Rises (old new : Option Instant) : Prop :=
  ∀ at₀, old = some at₀ → ∃ at₁, new = some at₁ ∧ at₀ ≤ at₁

variable (old : Option Instant) {before at₀ instant : Instant} {ev : OwnerEvent} (new : Instant)

lemma Rises.refl : Rises old old := fun at₀ h => ⟨at₀, h, Nat.le_refl _⟩

lemma Rises.trans {o₁ o₂ o₃ : Option Instant} (h : Rises o₁ o₂) (h' : Rises o₂ o₃) :
    Rises o₁ o₃ := by
  intro at₀ hat
  obtain ⟨at₁, hat₁, hle⟩ := h at₀ hat
  obtain ⟨at₂, hat₂, hle'⟩ := h' at₁ hat₁
  exact ⟨at₂, hat₂, hle.trans hle'⟩

lemma le_raised_left {old : Option Instant} {new : Instant} (h : old = some at₀) :
    at₀ ≤ Table.raised old new := by
  subst h
  simp only [Table.raised]
  split_ifs with hlt
  · exact Nat.le_of_lt hlt
  · exact Nat.le_refl at₀

lemma le_raised_right : new ≤ Table.raised old new := by
  cases old with
  | none => exact Nat.le_refl new
  | some =>
    simp only [Table.raised]
    split_ifs with hlt
    · exact Nat.le_refl new
    · exact Nat.le_of_not_lt hlt

lemma rises_raised : Rises old (some (Table.raised old new)) :=
  fun _ h => ⟨_, rfl, le_raised_left h⟩

namespace Tables

variable {t t' t'' : Tables} {a : SocketAddr}

/-- The evidence for `a` did not go back. -/
structure Risen (t t' : Tables) (a : SocketAddr) : Prop where
  committed : Rises (t.committedAt a) (t'.committedAt a)
  seen : Rises (t.seenAt a) (t'.seenAt a)

lemma Risen.of_eq (hc : t'.committedAt a = t.committedAt a) (hs : t'.seenAt a = t.seenAt a) :
    Risen t t' a :=
  ⟨hc ▸ .refl _, hs ▸ .refl _⟩

lemma Risen.trans (h : Risen t t' a) (h' : Risen t' t'' a) : Risen t t'' a :=
  ⟨h.committed.trans h'.committed, h.seen.trans h'.seen⟩

lemma risen_dropReceipts (t : Tables) (p : ReceiptKey → Prop) [DecidablePred p]
    (a : SocketAddr) : Risen t (t.dropReceipts p) a :=
  .of_eq rfl rfl

/-! ### One step -/

variable {source target : SocketAddr} {addr : SocketAddr} {peer : PeerId}

lemma risen_retract (h : (t.retract addr).owner a ≠ none) : Risen t (t.retract addr) a := by
  have ha : a ≠ addr := by
    rintro rfl
    exact h (by rw [owner_retract, if_pos rfl])
  exact .of_eq (update_of_ne ha _ _) (update_of_ne ha _ _)

lemma risen_retractAll {addrs : List SocketAddr} (h : (t.retractAll addrs).owner a ≠ none) :
    Risen t (t.retractAll addrs) a := by
  induction addrs generalizing t with
  | nil => exact .of_eq rfl rfl
  | cons addr addrs ih =>
    have hrest : ((t.retract addr).retractAll addrs).owner a ≠ none := h
    refine Risen.trans (risen_retract fun hnone => hrest ?_) (ih hrest)
    rw [owner_retractAll, hnone]
    exact ite_self _

lemma risen_releaseEvicted {ev : SocketAddr} (h : (t.releaseEvicted peer ev).owner a ≠ none) :
    Risen t (t.releaseEvicted peer ev) a := by
  rw [releaseEvicted] at h ⊢
  split_ifs at h ⊢
  · exact (t.risen_dropReceipts _ a).trans (risen_retract h)
  · exact t.risen_dropReceipts _ a

lemma risen_configure (h : (t.configure addr peer).owner a ≠ none) :
    Risen t (t.configure addr peer) a := by
  have hpin : Risen t ((t.accept addr (t.claimedOwner addr ⟨peer, .verified⟩)).installPin
    addr peer) a := .of_eq rfl rfl
  rw [configure] at h ⊢
  rcases hev : (t.accept addr (t.claimedOwner addr ⟨peer, .verified⟩)).evicted addr peer with _ | ev
  · exact hpin
  · simp only [hev] at h ⊢
    exact hpin.trans (risen_releaseEvicted h)

lemma rises_carry (f : SocketAddr → Option Instant) (ha : a = target ∨ a ≠ source) :
    Rises (f a) (carry f source target a) := by
  rw [carry]
  rcases hstamp : f source with _ | stamp
  · exact .refl _
  · by_cases htgt : a = target
    · simp only [if_pos htgt]
      by_cases hself : target = source
      · rw [if_pos hself, htgt, hself, hstamp]
        exact .refl _
      · rw [if_neg hself, htgt]
        exact rises_raised _ stamp
    · simp only [if_neg htgt, if_neg (ha.resolve_left htgt)]
      exact .refl _

lemma risen_move {o : Owner} (h : (t.move source target o).owner a ≠ none) :
    Risen t (t.move source target o) a := by
  have ha : a = target ∨ a ≠ source := by
    by_contra hno
    obtain ⟨hne, heq⟩ := not_or.mp hno
    refine h ?_
    rw [owner_move, if_neg hne, if_pos (not_not.mp heq)]
  exact ⟨rises_carry _ ha, rises_carry _ ha⟩

/-- A connection-scoped claim for `a` that is accepted is not older than what
is recorded. -/
def InOrder (t : Tables) (a : SocketAddr) (cmd : OwnerCommand) (reply : OwnerReply) : Prop :=
  ∀ claim source instanceId evidenceAt recorded,
    cmd = .claimConnectionScoped a claim source instanceId evidenceAt → ¬ reply.Refused →
      t.committedAt a = some recorded → recorded ≤ evidenceAt

/-- **Evidence does not go back** in a step that leaves its address owned. -/
theorem Step.risen {cmd : OwnerCommand} {reply : OwnerReply} (h : Step t cmd reply t')
    (hord : t.InOrder a cmd reply) (howned : t'.owner a ≠ none) : Risen t t' a := by
  cases h with
  | @claimScoped addr claim source instanceId evidenceAt =>
    refine ⟨?_, .refl _⟩
    by_cases ha : a = addr
    · subst ha
      intro at₀ hat
      refine ⟨evidenceAt, update_self _ _ _, ?_⟩
      -- the one command that overwrites, here in order
      exact hord claim source instanceId evidenceAt at₀ rfl (by simp [OwnerReply.Refused,
        acceptedCommit, ClaimCommit.isAccepted]) hat
    · show Rises (t.committedAt a) (update t.committedAt addr (some evidenceAt) a)
      rw [update_of_ne ha]
      exact .refl _
  | release => exact risen_retract howned
  | releaseSession => exact (t.risen_dropReceipts _ a).trans (risen_retractAll howned)
  | releaseDead => exact (t.risen_dropReceipts _ a).trans (risen_retract howned)
  | @configureRefused _ _ expected => cases expected <;> exact .of_eq rfl rfl
  | @configured addr peer expected =>
    have hset : Risen t (t.settle peer expected) a := by
      cases expected <;> exact .of_eq rfl rfl
    exact hset.trans (risen_configure howned)
  | migrate => exact risen_move howned
  | @note addr instant =>
    refine ⟨.refl _, ?_⟩
    by_cases ha : a = addr
    · subst ha
      show Rises (t.seenAt a) (update t.seenAt a _ a)
      rw [update_self]
      exact rises_raised _ instant
    · show Rises (t.seenAt a) (update t.seenAt addr _ a)
      rw [update_of_ne ha]
      exact .refl _
  | _ => exact .of_eq rfl rfl

end Tables

/-! ### Runs -/

/-- The event is no accepted connection-scoped claim for `a` that is older
than the evidence recorded for it. -/
def EvidenceInOrder (a : SocketAddr) (s : PeerRegistryOwner) : OwnerEvent → Prop
  | .command cmd => s.tables.InOrder a cmd (s.handle cmd).2
  | .tryConsume _ => True

variable {s : PeerRegistryOwner}

lemma risen_stepEvent {a : SocketAddr} (hord : EvidenceInOrder a s ev)
    (howned : (s.step ev).tables.owner a ≠ none) : s.tables.Risen (s.step ev).tables a := by
  cases ev with
  | command cmd => exact (s.handle_step cmd).risen hord howned
  | tryConsume =>
    rw [PeerRegistryOwner.tables_step_tryConsume, Tables.consume]
    split_ifs <;> exact .of_eq rfl rfl

lemma risen_exec {a : SocketAddr} {events : List OwnerEvent}
    (howned : ∀ m, m <+: events → (Run.exec PeerRegistryOwner.step s m).tables.owner a ≠ none)
    (hord : Run.Meets PeerRegistryOwner.step (EvidenceInOrder a) s events) :
    s.tables.Risen (Run.exec PeerRegistryOwner.step s events).tables a := by
  induction events generalizing s with
  | nil => exact .of_eq rfl rfl
  | cons ev events ih =>
    have hfst : (s.step ev).tables.owner a ≠ none := howned [ev] ⟨events, rfl⟩
    refine (risen_stepEvent hord.1 hfst).trans (ih (fun m hm => ?_) hord.2)
    exact howned (ev :: m) ((List.prefix_cons_inj ev).mpr hm)

/-- The event carries evidence of life for `a`: a liveness note, or a
connection-scoped claim that is accepted. -/
def OwnerEvent.Evidences (a : SocketAddr) (instant : Instant) (s : PeerRegistryOwner)
    (ev : OwnerEvent) : Prop :=
  ev = .command (.noteLivenessEvidence a instant) ∨
    ∃ claim source instanceId,
      ev = .command (.claimConnectionScoped a claim source instanceId instant) ∧
        ¬ (s.handle (.claimConnectionScoped a claim source instanceId instant)).2.Refused

lemma newer_of_evidences {a : SocketAddr} (h : ev.Evidences a instant s)
    (hlt : before < instant) : (s.step ev).tables.Newer a before := by
  rcases h with rfl | ⟨claim, source, instanceId, rfl, hacc⟩
  · have hstep := s.handle_step (.noteLivenessEvidence a instant)
    show (s.handle (.noteLivenessEvidence a instant)).1.tables.Newer a before
    generalize (s.handle (.noteLivenessEvidence a instant)).1.tables = t' at hstep ⊢
    generalize (s.handle (.noteLivenessEvidence a instant)).2 = reply at hstep
    cases hstep with
    | unchanged hun => cases reply <;> exact hun.elim
    | note =>
      exact Or.inr ⟨_, update_self _ _ _, Nat.lt_of_lt_of_le hlt (le_raised_right _ _)⟩
  · have hstep := s.handle_step (.claimConnectionScoped a claim source instanceId instant)
    show (s.handle (.claimConnectionScoped a claim source instanceId instant)).1.tables.Newer
      a before
    generalize (s.handle (.claimConnectionScoped a claim source instanceId instant)).1.tables
      = t' at hstep ⊢
    generalize (s.handle (.claimConnectionScoped a claim source instanceId instant)).2
      = reply at hstep hacc
    cases hstep with
    | unchanged hun => cases reply <;> first | exact absurd hun hacc | exact hun.elim
    | claimScoped => exact Or.inl ⟨instant, update_self _ _ _, hlt⟩

lemma Tables.Risen.newer {t t' : Tables} {a : SocketAddr} (h : t.Risen t' a)
    (hnew : t.Newer a before) : t'.Newer a before := by
  rcases hnew with ⟨at₀, hat, hlt⟩ | ⟨at₀, hat, hlt⟩
  · obtain ⟨at₁, hat₁, hle⟩ := h.committed at₀ hat
    exact Or.inl ⟨at₁, hat₁, Nat.lt_of_lt_of_le hlt hle⟩
  · obtain ⟨at₁, hat₁, hle⟩ := h.seen at₀ hat
    exact Or.inr ⟨at₁, hat₁, Nat.lt_of_lt_of_le hlt hle⟩

lemma provenAlive_of_newer {a : SocketAddr} (peer : PeerId) (hreap : ¬ s.tables.ReapCommitted a)
    (hnew : s.tables.Newer a before) :
    (s.handle (.releaseDeadPeer peer a before)).2 = .releaseDeadPeer .provenAlive ∧
      (s.handle (.releaseDeadPeer peer a before)).1.tables = s.tables := by
  have hstep := s.handle_step (.releaseDeadPeer peer a before)
  generalize (s.handle (.releaseDeadPeer peer a before)).1.tables = t' at hstep ⊢
  generalize (s.handle (.releaseDeadPeer peer a before)).2 = reply at hstep ⊢
  cases hstep with
  | unchanged hun => cases reply <;> exact hun.elim
  | provenAlive => exact ⟨rfl, rfl⟩
  | purge hdead | releaseDead hdead => exact absurd hdead (not_or.mpr ⟨hreap, not_not.mpr hnew⟩)

/-- **Direct evidence never goes backwards.**  Consider a stretch of a run,
from after `e₁` to after `e₁ ++ e₂`, in which `p` owns `a` throughout and every
connection-scoped claim accepted for `a` carries an instant at least as new as
the one recorded.  Then neither recorded instant of `a` decreases.  And if the
last event of `e₁` carried evidence for `a`, releasing `p` as dead on the word
of anything older leaves `a` owned, unless a reap of `a` has committed. -/
theorem evidence_never_backwards (hasher : SocketAddr → UInt64)
    (routing : Option (List RoutingCall)) (e₁ e₂ : List OwnerEvent) (a : SocketAddr) (p : PeerId)
    (howned : ∀ m, m <+: e₂ → (ownerRun hasher routing (e₁ ++ m)).ownedBy a p = true)
    (hord : Run.Meets PeerRegistryOwner.step (EvidenceInOrder a) (ownerRun hasher routing e₁) e₂) :
    let s₁ := ownerRun hasher routing e₁
    let s₂ := ownerRun hasher routing (e₁ ++ e₂)
    Rises (s₁.claimCommittedAt.get a) (s₂.claimCommittedAt.get a) ∧
    Rises (s₁.livenessEvidenceAt.get a) (s₂.livenessEvidenceAt.get a) ∧
    ∀ e₀ ev instant before, e₁ = e₀ ++ [ev] →
      ev.Evidences a instant (ownerRun hasher routing e₀) → before < instant →
      s₂.reapCommitted a = false →
        (s₂.handle (.releaseDeadPeer p a before)).2 = .releaseDeadPeer .provenAlive ∧
        (s₂.handle (.releaseDeadPeer p a before)).1.addrOwnership.get a
          = s₂.addrOwnership.get a := by
  intro s₁ s₂
  have hs₂ : s₂ = Run.exec PeerRegistryOwner.step s₁ e₂ := Run.exec_append _ _ e₁ e₂
  have hrisen : s₁.tables.Risen s₂.tables a := by
    rw [hs₂]
    refine risen_exec (fun m hm hnone => ?_) hord
    have hown := howned m hm
    rw [ownerRun, Run.exec_append] at hown
    obtain ⟨o, ho, -⟩ := (PeerRegistryOwner.ownedBy_eq_true _).mp hown
    cases ho.symm.trans hnone
  refine ⟨hrisen.committed, hrisen.seen, ?_⟩
  rintro e₀ ev instant before rfl hev hlt hreap
  have hs₁ : s₁ = (ownerRun hasher routing e₀).step ev := Run.exec_concat _ _ e₀ ev
  -- evidence that was new at the end of `e₀` still is
  have hnew : s₂.tables.Newer a before := hrisen.newer (hs₁ ▸ newer_of_evidences hev hlt)
  have hno : ¬ s₂.tables.ReapCommitted a := by
    rw [← s₂.reapCommitted_eq_true, hreap]
    simp
  obtain ⟨hreply, htab⟩ := provenAlive_of_newer p hno hnew
  exact ⟨hreply, congrFun (congrArg Tables.owner htab) a⟩

namespace Sample

/-- Alice's session 1 claims host 1 with evidence of this instant. -/
def claimAt (instant : Instant) : OwnerEvent :=
  .command (.claimConnectionScoped (host 1) ⟨alice, .verified⟩ (host 9) 1 instant)

end Sample

open Sample in
/-- Two claims in order: the later evidence stays. -/
theorem evidence_never_backwards_claims_in_order :
    Rises ((ownerRun (fun _ => 0) none [claimAt 5]).claimCommittedAt.get (host 1))
      ((ownerRun (fun _ => 0) none ([claimAt 5] ++ [claimAt 10])).claimCommittedAt.get
        (host 1)) := by
  refine (evidence_never_backwards (fun _ => 0) none [claimAt 5] [claimAt 10] (host 1) alice
    ?_ ⟨?_, trivial⟩).1
  · rintro (_ | ⟨ev, m⟩) ⟨rest, hm⟩
    · decide
    · obtain ⟨rfl, hnil⟩ := List.cons.inj hm
      obtain rfl : m = [] := (List.append_eq_nil_iff.mp hnil).1
      decide
  · rintro claim source instanceId evidenceAt recorded hcmd - hrec
    obtain rfl : recorded = 5 := Option.some.inj (hrec.symm.trans (by decide))
    obtain rfl : (10 : Instant) = evidenceAt := by injection hcmd
    decide

open Sample in
/-- Two claims out of order: the second sets the evidence back, and the
release of a peer dead since 7 vacates an address claimed alive at 10. -/
theorem older_claim_sets_evidence_back : let s₁ := ownerRun (fun _ => 0) none [claimAt 10]
    let s₂ := ownerRun (fun _ => 0) none [claimAt 10, claimAt 5]
    s₁.ownedBy (host 1) alice = true ∧ s₂.ownedBy (host 1) alice = true ∧
      s₁.claimCommittedAt.get (host 1) = some 10 ∧
      s₂.claimCommittedAt.get (host 1) = some 5 ∧ s₂.reapCommitted (host 1) = false ∧
      (s₂.handle (.releaseDeadPeer alice (host 1) 7)).1.addrOwnership.get (host 1) = none := by
  decide

end IcanactRemote
