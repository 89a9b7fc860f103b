/-
What every run of the owner guarantees about ownership.

* `owner_tables_consistent` — keys, generations and the published snapshot;
* `pins_are_stable` — the pin tables, and which commands move a pin;
* `no_address_hijack` — an address changes hands only through a point at which
  nobody owns it.
-/
import IcanactRemote.OwnerCoherence

namespace IcanactRemote

open Tables PeerRegistryOwner

/-! ### Keys, generations and the snapshot -/

lemma commitSeq_le (hasher : SocketAddr → UInt64) {routing : Option (List RoutingCall)}
    {e₁ e₂ : List OwnerEvent} :
    (ownerRun hasher routing e₁).commitSeq ≤ (ownerRun hasher routing (e₁ ++ e₂)).commitSeq := by
  have h := Ledger.clock_le_applyAll (ownerRun hasher routing e₁).tables.ledger
    ((ownerRun hasher routing e₁).committed e₂)
  rw [← ledger_exec] at h
  rw [show ownerRun hasher routing (e₁ ++ e₂)
    = Run.exec step (ownerRun hasher routing e₁) e₂ from Run.exec_append ..]
  exact h

variable {cmd : OwnerCommand} {reply : OwnerReply} {a : SocketAddr} {addr b : SocketAddr}
  {g : CommitSeq}

lemma Coherent.entry_of_generation {t : Tables} (h : Coherent t) (hg : t.generation a = some g) :
    ∃ p, t.ledger.entry a = some (p, g) := by
  rcases ho : t.owner a with _ | o
  · exact absurd ((h.keys a).mp ho) (by rw [hg]; simp)
  · exact ⟨o.nodeId, t.entry_ledger_iff.mpr ⟨⟨o, ho, rfl⟩, hg⟩⟩

lemma Coherent.published_reads {t : Tables} (h : Coherent t) :
    (t.snapshot.published a).map (·.owner) = t.owner a ∧
      (t.snapshot.published a).map (·.generation) = t.generation a := by
  have hkeys := h.keys a
  rw [h.published]
  rcases ho : t.owner a with _ | o
  · rw [hkeys.mp ho]
    exact ⟨rfl, rfl⟩
  · rcases hg : t.generation a with _ | g
    · rw [hkeys.mpr hg] at ho
      simp at ho
    · exact ⟨rfl, rfl⟩

/-- A generation that was replaced is attached to nothing ever after. -/
lemma generation_never_again {hasher : SocketAddr → UInt64} {routing : Option (List RoutingCall)}
    {e₁ e₂ e₃ : List OwnerEvent} (hg : (ownerRun hasher routing e₁).tables.generation a = some g)
    (hgone : (ownerRun hasher routing (e₁ ++ e₂)).tables.generation a ≠ some g) :
    (ownerRun hasher routing (e₁ ++ e₂ ++ e₃)).tables.generation b ≠ some g := by
  intro hb
  obtain ⟨p, hp⟩ := (coherent_run hasher routing e₁).entry_of_generation hg
  obtain ⟨q, hq⟩ := (coherent_run hasher routing (e₁ ++ e₂ ++ e₃)).entry_of_generation hb
  have hwf := ledger_wellFormed hasher routing e₁
  have hissued : g ≤ (ownerRun hasher routing e₁).commitSeq := hwf.issued hp
  -- the entry of `b` was there at both earlier points
  obtain ⟨hmid, -⟩ := entry_of_old_token hq (le_trans hissued (commitSeq_le hasher))
  obtain ⟨hfst, -⟩ := entry_of_old_token hmid hissued
  obtain rfl : a = b := hwf.unique hp hfst rfl
  exact hgone (entry_ledger_iff _ |>.mp hmid).2

/-- **The owner's tables are consistent.**  After every event of every run:
the owned addresses are those with a generation; generations are positions in
the commit order, no two addresses share one, and one that was replaced is
never attached to any address again; and the published snapshot reads like the
tables, for every address and every peer. -/
theorem owner_tables_consistent (hasher : SocketAddr → UInt64)
    (routing : Option (List RoutingCall)) (events : List OwnerEvent) :
    (∀ a, (ownerRun hasher routing events).addrOwnership.containsKey a
      = (ownerRun hasher routing events).claimGeneration.containsKey a) ∧
    (∀ a b g, (ownerRun hasher routing events).claimGeneration.get a = some g →
      (ownerRun hasher routing events).claimGeneration.get b = some g → a = b) ∧
    (∀ a g, (ownerRun hasher routing events).claimGeneration.get a = some g →
      g ≤ (ownerRun hasher routing events).commitSeq) ∧
    (∀ later evenLater a g, (ownerRun hasher routing events).claimGeneration.get a = some g →
      (ownerRun hasher routing (events ++ later)).claimGeneration.get a ≠ some g →
      ∀ b, (ownerRun hasher routing (events ++ later ++ evenLater)).claimGeneration.get b
        ≠ some g) ∧
    (∀ a, (ownerRun hasher routing events).snapshot.owner a
        = (ownerRun hasher routing events).addrOwnership.get a ∧
      ((ownerRun hasher routing events).snapshot.published a).map (·.generation)
        = (ownerRun hasher routing events).claimGeneration.get a ∧
      (ownerRun hasher routing events).snapshot.pinOwner a
        = (ownerRun hasher routing events).operatorPinned.get a) ∧
    ∀ p, (ownerRun hasher routing events).snapshot.pinnedAddrFor p
      = (ownerRun hasher routing events).pinnedByPeer.get p := by
  have hco := coherent_run hasher routing events
  have hwf := ledger_wellFormed hasher routing events
  refine ⟨fun a => ?_, fun a b g ha hb => ?_, fun a g ha => ?_, fun e₂ e₃ a g ha hgone b => ?_,
    fun a => ?_, fun p => hco.pinnedAddrFor p⟩
  · rw [Table.containsKey, Table.containsKey, Bool.eq_iff_iff, Option.isSome_iff_ne_none,
      Option.isSome_iff_ne_none]
    exact not_congr (hco.keys a)
  · obtain ⟨p, hp⟩ := hco.entry_of_generation ha
    obtain ⟨q, hq⟩ := hco.entry_of_generation hb
    exact hwf.unique hp hq rfl
  · obtain ⟨p, hp⟩ := hco.entry_of_generation ha
    exact hwf.issued hp
  · exact generation_never_again ha hgone
  · obtain ⟨hown, hgen⟩ := hco.published_reads
    exact ⟨hown, hgen, hco.pinOwner a⟩

/-! ### Pins -/

/-- The commands that claim and release addresses. -/
def OwnerCommand.ClaimsOrReleases : OwnerCommand → Prop
  | .claim .. | .claimConnectionScoped .. | .release .. | .releaseSession ..
  | .releaseDeadPeer .. => True
  | _ => False

lemma Tables.pins_retractAll (t : Tables) (addrs : List SocketAddr) :
    (t.retractAll addrs).pin = t.pin ∧ (t.retractAll addrs).pinnedAt = t.pinnedAt := by
  induction addrs generalizing t with
  | nil => exact ⟨rfl, rfl⟩
  | cons addr addrs ih => exact ih (t.retract addr)

lemma Tables.pins_releaseEvicted (t : Tables) (peer : PeerId) (ev : SocketAddr) :
    (t.releaseEvicted peer ev).pin = t.pin ∧ (t.releaseEvicted peer ev).pinnedAt = t.pinnedAt := by
  rw [releaseEvicted]
  split_ifs <;> exact ⟨rfl, rfl⟩

variable {peer q p : PeerId}

lemma Coherent.pinnedAt_configure {t : Tables} (h : Coherent t)
    (hacc : t.Accepts addr ⟨peer, .verified⟩ false) :
    (t.configure addr peer).pinnedAt q = if q = peer then some addr else t.pinnedAt q := by
  have hu := h.accept_of_accepts hacc
  have hown : (t.accept addr (t.claimedOwner addr ⟨peer, .verified⟩)).owner addr
      = some ⟨peer, .verified⟩ := by
    rw [owner_accept, if_pos rfl, h.claimedOwner_of_accepts hacc]
  have hpin := hu.pinnedAt_installPin hown q
  rw [Tables.configure]
  rcases (t.accept addr (t.claimedOwner addr ⟨peer, .verified⟩)).evicted addr peer with _ | ev
  · exact hpin
  · simp only [pins_releaseEvicted]
    exact hpin

/-- **Where pins move.**  A step moves no pin, or it is a configuration and
moves its own peer's, or it is a migration. -/
theorem Coherent.pins_step {t t' : Tables} (h : Coherent t) (hstep : Step t cmd reply t') :
    (t'.pin = t.pin ∧ t'.pinnedAt = t.pinnedAt) ∨
      (∃ addr peer expected, cmd = .configurePeer addr peer expected ∧
        ∀ q, q ≠ peer → t'.pinnedAt q = t.pinnedAt q) ∨
      ∃ source target isLocalAddr expected, cmd = .migrate source target isLocalAddr expected := by
  cases hstep with
  | unchanged | claim | claimScoped | release => exact Or.inl ⟨rfl, rfl⟩
  | releaseSession => exact Or.inl (pins_retractAll _ _)
  | provenAlive | purge | releaseDead | reserve | unreserve | configureBlocked
  | configureSuperseded => exact Or.inl ⟨rfl, rfl⟩
  | @configureRefused addr peer expected =>
    cases expected <;> exact Or.inl ⟨rfl, rfl⟩
  | @configured addr peer expected _ hnew hyes =>
    refine Or.inr (Or.inl ⟨addr, peer, expected, rfl, fun q hq => ?_⟩)
    rw [(h.settle peer expected).pinnedAt_configure (Coherent.accepts_settle.mpr hyes), if_neg hq]
    cases expected <;> rfl
  | migrate => exact Or.inr (Or.inr ⟨_, _, _, _, rfl⟩)
  | note => exact Or.inl ⟨rfl, rfl⟩

/-- **Pins are stable.**  At every point of every run the two pin tables are
inverse to each other, and a pinned address is owned, verified, by the peer it
is pinned for.  Claiming and releasing commands neither vacate a pinned
address nor move a pin, and the only events that change where a peer is pinned
are a configuration of that peer and a migration. -/
theorem pins_are_stable (hasher : SocketAddr → UInt64) (routing : Option (List RoutingCall))
    (events : List OwnerEvent) :
    (∀ a p, (ownerRun hasher routing events).operatorPinned.get a = some p ↔
      (ownerRun hasher routing events).pinnedByPeer.get p = some a) ∧
    (∀ a p, (ownerRun hasher routing events).operatorPinned.get a = some p →
      (ownerRun hasher routing events).addrOwnership.get a = some ⟨p, .verified⟩) ∧
    (∀ cmd : OwnerCommand, cmd.ClaimsOrReleases →
      (∀ a, ((ownerRun hasher routing events).handle cmd).1.operatorPinned.get a
        = (ownerRun hasher routing events).operatorPinned.get a) ∧
      (∀ p, ((ownerRun hasher routing events).handle cmd).1.pinnedByPeer.get p
        = (ownerRun hasher routing events).pinnedByPeer.get p) ∧
      ∀ a p, (ownerRun hasher routing events).operatorPinned.get a = some p →
        ((ownerRun hasher routing events).handle cmd).1.addrOwnership.get a
          = some ⟨p, .verified⟩) ∧
    ∀ e p, ((ownerRun hasher routing events).step e).pinnedByPeer.get p
        ≠ (ownerRun hasher routing events).pinnedByPeer.get p →
      (∃ addr expected, e = .command (.configurePeer addr p expected)) ∨
        ∃ source target isLocalAddr expected,
          e = .command (.migrate source target isLocalAddr expected) := by
  set s := ownerRun hasher routing events with hs
  have hco : Coherent s.tables := coherent_run hasher routing events
  refine ⟨fun a p => hco.pin_iff, fun a p hp => hco.pin_owned hp, fun cmd hcmd => ?_,
    fun e p hne => ?_⟩
  · have hstep := s.handle_step cmd
    have hco' := hco.step hstep
    have hsame : (s.handle cmd).1.tables.pin = s.tables.pin ∧
        (s.handle cmd).1.tables.pinnedAt = s.tables.pinnedAt := by
      rcases hco.pins_step hstep with h | ⟨_, _, _, rfl, -⟩ | ⟨_, _, _, _, rfl⟩
      · exact h
      · exact hcmd.elim
      · exact hcmd.elim
    refine ⟨fun a => congrFun hsame.1 a, fun p => congrFun hsame.2 p, fun a p hp => ?_⟩
    -- the pin is still there, and pinned addresses are owned by their peer
    exact hco'.pin_owned ((congrFun hsame.1 a).trans hp)
  · rcases e with cmd | cell
    · rcases hco.pins_step (s.handle_step cmd) with h | ⟨addr, peer, expected, rfl, h⟩ | h
      · exact absurd (congrFun h.2 p) hne
      · by_cases hp : p = peer
        · subst hp
          exact Or.inl ⟨addr, expected, rfl⟩
        · exact absurd (h p hp) hne
      · obtain ⟨source, target, isLocalAddr, expected, rfl⟩ := h
        exact Or.inr ⟨source, target, isLocalAddr, expected, rfl⟩
    · refine absurd ?_ hne
      have hpins : (s.tables.consume cell).pinnedAt = s.tables.pinnedAt := by
        rw [consume]
        split_ifs <;> rfl
      exact congrFun ((congrArg pinnedAt (s.tables_step_tryConsume cell)).trans hpins) p

/-! ### No address hijack -/

namespace Coherent

variable {t t' : Tables}

lemma displaced_acceptedCommit (h : Coherent t) {claim : Claim} {isLocalAddr : Bool}
    (hacc : t.Accepts addr claim isLocalAddr) : (t.acceptedCommit addr claim).displaced = none := by
  rw [acceptedCommit, ClaimCommit.displaced, Option.map_eq_none_iff]
  rcases ho : t.owner addr with _ | o
  · rfl
  · rw [Option.filter_some, if_neg]
    simp [h.nodeId_of_accepts hacc ho]

variable {commit : ClaimCommit} {o owner : Owner}

lemma displaced_of_refused (h : commit.isAccepted = false) : commit.displaced = none := by
  cases commit with
  | accepted => simp [ClaimCommit.isAccepted] at h
  | rejected => rfl

lemma refused_of_unchanged (h : cmd.Unchanged (.claim commit)) : commit.isAccepted = false := by
  cases cmd <;> first | exact h | exact h.elim

lemma displaced_step (h : Coherent t) (hstep : Step t cmd reply t') :
    (∀ commit, reply = .claim commit → commit.displaced = none) ∧
      ∀ commit, reply = .configurePeer commit → commit.claim.displaced = none := by
  constructor
  · rintro commit rfl
    cases hstep with
    | unchanged hun => exact displaced_of_refused (refused_of_unchanged hun)
    | claim hacc | claimScoped hacc => exact h.displaced_acceptedCommit hacc
  · rintro commit rfl
    cases hstep with
    | @unchanged cmd _ hun => cases cmd <;> exact hun.elim
    | configureBlocked | configureSuperseded | configureRefused => rfl
    | configured _ hnew hyes => exact h.displaced_acceptedCommit hyes

lemma owner_accept_kept (hsame : ∀ o, t.owner addr = some o → o.nodeId = owner.nodeId)
    (ho : t.owner a = some o) : (t.accept addr owner).OwnedBy a o.nodeId := by
  rw [OwnedBy, owner_accept]
  by_cases ha : a = addr
  · rw [if_pos ha]
    exact ⟨owner, rfl, (hsame o (ha ▸ ho)).symm⟩
  · rw [if_neg ha]
    exact ⟨o, ho, rfl⟩

lemma owner_releaseEvicted (ev a : SocketAddr) :
    (t.releaseEvicted peer ev).owner a = none ∨ (t.releaseEvicted peer ev).owner a = t.owner a := by
  rw [Tables.releaseEvicted]
  split_ifs
  · rw [owner_retract]
    by_cases ha : a = ev
    · exact Or.inl (if_pos ha)
    · exact Or.inr (if_neg ha)
  · exact Or.inr rfl

lemma owner_configure_kept (h : Coherent t) (hacc : t.Accepts addr ⟨peer, .verified⟩ false)
    (ho : t.owner a = some o) :
    (t.configure addr peer).owner a = none ∨ (t.configure addr peer).OwnedBy a o.nodeId := by
  have hkept : (t.accept addr (t.claimedOwner addr ⟨peer, .verified⟩)).OwnedBy a o.nodeId :=
    owner_accept_kept (fun o ho => h.nodeId_of_accepts hacc ho) ho
  rw [Tables.configure]
  set u := t.accept addr (t.claimedOwner addr ⟨peer, .verified⟩)
  rcases u.evicted addr peer with _ | ev
  · exact Or.inr hkept
  · rcases owner_releaseEvicted ev a with hnone | hsame
    · exact Or.inl hnone
    · obtain ⟨o', ho', hn⟩ := hkept
      exact Or.inr ⟨o', hsame.trans ho', hn⟩

/-- **No hand-over in one step.**  An owned address keeps its node or becomes
unowned. -/
theorem owner_step (h : Coherent t) (hstep : Step t cmd reply t') (ho : t.owner a = some o) :
    t'.owner a = none ∨ t'.OwnedBy a o.nodeId := by
  cases hstep with
  | unchanged | provenAlive | purge | reserve | unreserve | configureBlocked
  | configureSuperseded | note => exact Or.inr ⟨o, ho, rfl⟩
  | claim hacc => exact Or.inr (owner_accept_kept (fun o ho => h.nodeId_of_accepts hacc ho) ho)
  | claimScoped hacc =>
    exact Or.inr (owner_accept_kept (fun o ho => h.nodeId_of_accepts hacc ho) ho)
  | @release addr =>
    by_cases ha : a = addr
    · exact Or.inl (by rw [owner_retract, if_pos ha])
    · exact Or.inr ⟨o, by rw [owner_retract, if_neg ha]; exact ho, rfl⟩
  | @releaseSession _ _ _ _ released =>
    by_cases ha : a ∈ released.map Prod.fst
    · exact Or.inl (by rw [owner_retractAll, if_pos ha])
    · exact Or.inr ⟨o, by rw [owner_retractAll, if_neg ha]; exact ho, rfl⟩
  | @releaseDead _ addr =>
    by_cases ha : a = addr
    · exact Or.inl (by rw [owner_retract, if_pos ha])
    · exact Or.inr ⟨o, by rw [owner_retract, if_neg ha]; exact ho, rfl⟩
  | @configureRefused _ _ expected =>
    exact Or.inr ⟨o, by cases expected <;> exact ho, rfl⟩
  | @configured _ _ expected _ hnew hyes =>
    exact (h.settle _ expected).owner_configure_kept (accepts_settle.mpr hyes)
      (by cases expected <;> exact ho)
  | @migrate source target owner _ hsrc htgt hown hgen hsame =>
    -- the target had no owner or the one that moves
    rw [OwnedBy, owner_move]
    by_cases ha : a = target
    · rw [if_pos ha]
      exact Or.inr ⟨_, rfl, (hsame o (ha ▸ ho)).symm⟩
    · rw [if_neg ha]
      by_cases hs : a = source
      · exact Or.inl (if_pos hs)
      · rw [if_neg hs]
        exact Or.inr ⟨o, ho, rfl⟩

end Coherent

lemma owner_stepEvent {s : PeerRegistryOwner} (h : Coherent s.tables) (e : OwnerEvent)
    (hp : s.tables.OwnedBy a p) :
    (s.step e).tables.owner a = none ∨ (s.step e).tables.OwnedBy a p := by
  obtain ⟨o, ho, rfl⟩ := hp
  rcases e with cmd | cell
  · exact h.owner_step (s.handle_step cmd) ho
  · rw [s.tables_step_tryConsume, consume]
    split_ifs <;> exact Or.inr ⟨o, ho, rfl⟩

/-- **No address hijack.**  In every run: every recorded owner is verified; no
accepted claim reports a displaced identity; between two points at which an
address has different owners there is one at which it has none; and a
migration never puts an identity on an address that another one owned just
before. -/
theorem no_address_hijack (hasher : SocketAddr → UInt64) (routing : Option (List RoutingCall))
    (e₁ e₂ : List OwnerEvent) :
    (∀ a owner, (ownerRun hasher routing e₁).addrOwnership.get a = some owner →
      owner.kind = .verified) ∧
    (∀ cmd commit, ((ownerRun hasher routing e₁).handle cmd).2 = .claim commit →
      commit.displaced = none) ∧
    (∀ cmd commit, ((ownerRun hasher routing e₁).handle cmd).2 = .configurePeer commit →
      commit.claim.displaced = none) ∧
    (∀ a owner owner', (ownerRun hasher routing e₁).addrOwnership.get a = some owner →
      (ownerRun hasher routing (e₁ ++ e₂)).addrOwnership.get a = some owner' →
      owner.nodeId ≠ owner'.nodeId →
      ∃ f g, e₂ = f ++ g ∧ (ownerRun hasher routing (e₁ ++ f)).addrOwnership.get a = none) ∧
    ∀ source target isLocalAddr expected a owner owner',
      (ownerRun hasher routing e₁).addrOwnership.get a = some owner →
      ((ownerRun hasher routing e₁).handle
        (.migrate source target isLocalAddr expected)).1.addrOwnership.get a = some owner' →
      owner.nodeId = owner'.nodeId := by
  have hco := coherent_run hasher routing e₁
  refine ⟨fun a owner ho => hco.verified ho,
    fun cmd commit hreply => (hco.displaced_step (handle_step _ cmd)).1 _ hreply,
    fun cmd commit hreply => (hco.displaced_step (handle_step _ cmd)).2 _ hreply,
    fun a owner owner' ho ho' hne => ?_,
    fun source target isLocalAddr expected a owner owner' ho ho' => ?_⟩
  · -- the step at which the first owner is lost leaves the address unowned
    have hchg : ¬ (Run.exec step (ownerRun hasher routing e₁) e₂
        ).tables.OwnedBy a owner.nodeId := by
      rintro ⟨o, hlast, hn⟩
      rw [ownerRun, Run.exec_append] at ho'
      rw [show o = owner' from Option.some_inj.mp (hlast.symm.trans ho')] at hn
      exact hne hn.symm
    obtain ⟨f, e, g, rfl, hbefore, haft⟩ := Run.exists_step_of_change
      (P := fun s : PeerRegistryOwner => s.tables.OwnedBy a owner.nodeId) ⟨owner, ho, rfl⟩ hchg
    refine ⟨f ++ [e], g, by rw [List.append_assoc]; rfl, ?_⟩
    have hcof := coherent_run hasher routing (e₁ ++ f)
    rw [ownerRun, Run.exec_append] at hcof
    rw [ownerRun, ← List.append_assoc, Run.exec_concat, Run.exec_append]
    exact (owner_stepEvent hcof e hbefore).resolve_right haft
  · rcases hco.owner_step (handle_step _
      (.migrate source target isLocalAddr expected)) ho with hnone | ⟨o, hkept, hn⟩
    · cases hnone.symm.trans ho'
    · rw [← hn, Option.some_inj.mp (hkept.symm.trans ho')]

end IcanactRemote
