/-
The owner's tables as a ledger of addresses.

`commits` reads the ownership commits of a command off its reply: what was
granted, vacated or moved.  `ledger_step` says that the recorded owners and
generations are the ledger those commits make, so the general facts about
ledgers hold of every run: a generation names one commit, and a token that is
gone never comes back.
-/
import IcanactRemote.OwnerStep
import IcanactRemote.Ledger

namespace IcanactRemote

/-! ### The commits of a command -/

/-- The ownership commits of a command, read off its reply. -/
def OwnerCommand.commits : OwnerCommand → OwnerReply → List (Ledger.Op SocketAddr PeerId)
  | .claim addr claimed _, .claim commit =>
    if commit.isAccepted then [.grant addr claimed.nodeId] else []
  | .claimConnectionScoped addr claimed _ _ _, .claim commit =>
    if commit.isAccepted then [.grant addr claimed.nodeId] else []
  | .release addr _ _, .release (some _) => [.vacate addr]
  | .releaseSession .., .releaseSession released => (released.map Prod.fst).map .vacate
  | .releaseDeadPeer _ addr _, .releaseDeadPeer (.released _) => [.vacate addr]
  | .configurePeer addr peer _, .configurePeer commit =>
    if commit.claim.isAccepted then
      .grant addr peer :: (match commit.evictedPin, commit.evictedReleaseSeq with
        | some ev, some _ => [.vacate ev]
        | _, _ => [])
    else []
  | .migrate source target _ _, .migrate (.migrated _) => [.move source target]
  | _, _ => []

variable {addr : SocketAddr} {cmd : OwnerCommand} {reply : OwnerReply} {source target : SocketAddr}
  {token : OwnershipToken} {peer : PeerId}

lemma OwnerCommand.commits_of_unchanged (h : cmd.Unchanged reply) : cmd.commits reply = [] := by
  cases cmd <;> cases reply <;> simp_all [OwnerCommand.Unchanged, OwnerCommand.commits]

namespace Tables

variable (t : Tables)

/-- Owners and generations as a ledger. -/
def ledger : Ledger SocketAddr PeerId where
  entry a := (t.owner a).bind fun owner => (t.generation a).map fun g => (owner.nodeId, g)
  clock := t.commitSeq

lemma ledger_accept (addr : SocketAddr) (owner : Owner) :
    (t.accept addr owner).ledger = t.ledger.apply (.grant addr owner.nodeId) := by
  refine Ledger.ext (funext fun a => ?_) rfl
  rw [Ledger.entry_grant]
  by_cases ha : a = addr <;> simp [ledger, accept, ha]

lemma ledger_retract (addr : SocketAddr) :
    (t.retract addr).ledger = t.ledger.apply (.vacate addr) := by
  refine Ledger.ext (funext fun a => ?_) rfl
  rw [Ledger.entry_vacate]
  by_cases ha : a = addr <;> simp [ledger, retract, ha]

lemma ledger_retractAll (addrs : List SocketAddr) :
    (t.retractAll addrs).ledger = t.ledger.applyAll (addrs.map .vacate) := by
  induction addrs generalizing t with
  | nil => rfl
  | cons addr _ ih =>
    rw [List.map_cons, Ledger.applyAll_cons, ← ledger_retract]
    exact ih (t.retract addr)

variable {generation : CommitSeq}

lemma ledger_move {owner held : Owner} (ho : t.owner source = some held)
    (hg : t.generation source = some generation) (hn : owner.nodeId = held.nodeId) :
    (t.move source target owner).ledger = t.ledger.apply (.move source target) := by
  refine Ledger.ext (funext fun a => ?_) rfl
  rw [Ledger.entry_move]
  by_cases ha : a = target
  · simp [ledger, move, ha, ho, hg, hn]
  · by_cases hs : a = source
    · subst hs
      simp [ledger, move, ha]
    · simp [ledger, move, ha, hs]

lemma ledger_releaseEvicted (ev : SocketAddr) : (t.releaseEvicted peer ev).ledger
    = if t.OwnedBy ev peer then t.ledger.apply (.vacate ev) else t.ledger := by
  rw [releaseEvicted]
  by_cases how : t.OwnedBy ev peer
  · rw [if_pos how, if_pos (show (t.dropReceipts _).OwnedBy ev peer from how), ledger_retract]
    rfl
  · rw [if_neg how, if_neg (show ¬ (t.dropReceipts _).OwnedBy ev peer from how)]
    rfl

/-- A committed configuration grants the address, and vacates the one the pin
was evicted from when the peer still held it. -/
lemma ledger_configure : (t.configure addr peer).ledger
    = t.ledger.applyAll (.grant addr peer ::
        match t.evicted addr peer, t.evictedReleaseSeq addr peer with
        | some ev, some _ => [.vacate ev]
        | _, _ => []) := by
  rw [configure, Ledger.applyAll_cons, evictedReleaseSeq]
  set u := t.accept addr (t.claimedOwner addr ⟨peer, .verified⟩) with hu
  have hgrant : u.ledger = t.ledger.apply (.grant addr peer) := t.ledger_accept _ _
  rw [← hgrant, show u.evicted addr peer = t.evicted addr peer from rfl]
  rcases t.evicted addr peer with _ | ev
  · rfl
  · by_cases how : u.OwnedBy ev peer
    · simp only [Option.bind_some, if_pos how]
      rw [ledger_releaseEvicted, if_pos (show (u.installPin addr peer).OwnedBy ev peer from how)]
      rfl
    · simp only [Option.bind_some, if_neg how]
      rw [ledger_releaseEvicted, if_neg (show ¬ (u.installPin addr peer).OwnedBy ev peer from how)]
      rfl

/-- **The ledger of a step.**  Owners and generations change by the commits
the reply reports. -/
theorem ledger_step {t t' : Tables} (h : Step t cmd reply t') :
    t'.ledger = t.ledger.applyAll (cmd.commits reply) := by
  cases h with
  | unchanged h => rw [OwnerCommand.commits_of_unchanged h, Ledger.applyAll_nil]
  | claim | claimScoped => exact t.ledger_accept _ _
  | release => exact t.ledger_retract _
  | releaseSession => exact ledger_retractAll _ _
  | provenAlive | purge | reserve | unreserve | configureBlocked | configureSuperseded | note => rfl
  | releaseDead => exact ledger_retract _ _
  | @configureRefused addr peer expected =>
    cases expected <;> rfl
  | @configured addr peer expected =>
    rw [ledger_configure]
    cases expected <;> rfl
  | migrate _ _ hown hgen => exact t.ledger_move hown hgen rfl

lemma entry_ledger_iff : t.ledger.entry addr = some (peer, generation) ↔
    t.OwnedBy addr peer ∧ t.generation addr = some generation := by
  simp only [ledger, Option.bind_eq_some_iff, Option.map_eq_some_iff, Prod.mk.injEq, OwnedBy]
  constructor
  · rintro ⟨owner, ho, g, hg, hn, rfl⟩
    exact ⟨⟨owner, ho, hn⟩, hg⟩
  · rintro ⟨⟨owner, ho, hn⟩, hg⟩
    exact ⟨owner, ho, generation, hg, hn, rfl⟩

lemma token_eq_some_iff :
    t.token addr = some token ↔ t.ledger.entry addr = some (token.owner, token.generation) := by
  rw [entry_ledger_iff, Tables.token]
  simp only [Option.bind_eq_some_iff, Option.map_eq_some_iff, OwnedBy]
  constructor
  · rintro ⟨owner, ho, g, hg, rfl⟩
    exact ⟨⟨owner, ho, rfl⟩, hg⟩
  · rintro ⟨⟨owner, ho, hn⟩, hg⟩
    exact ⟨owner, ho, token.generation, hg, by rw [hn]⟩

end Tables

/-! ### Runs -/

namespace PeerRegistryOwner

def commitsOf (s : PeerRegistryOwner) : OwnerEvent → List (Ledger.Op SocketAddr PeerId)
  | .command cmd => cmd.commits (s.handle cmd).2
  | .tryConsume _ => []

/-- The ownership commits of a run, in order. -/
def committed (s : PeerRegistryOwner) : List OwnerEvent → List (Ledger.Op SocketAddr PeerId)
  | [] => []
  | e :: es => s.commitsOf e ++ (s.step e).committed es

variable {s : PeerRegistryOwner}

variable (s)

lemma ledger_stepEvent (e : OwnerEvent) :
    (s.step e).tables.ledger = s.tables.ledger.applyAll (s.commitsOf e) := by
  rcases e with cmd | cell
  · exact Tables.ledger_step (s.handle_step cmd)
  · rw [s.tables_step_tryConsume, Tables.consume]
    split_ifs <;> rfl

lemma ledger_exec (es : List OwnerEvent) :
    (Run.exec step s es).tables.ledger = s.tables.ledger.applyAll (s.committed es) := by
  induction es generalizing s with
  | nil => rfl
  | cons _ _ ih =>
    rw [Run.exec_cons, ih, committed, Ledger.applyAll_append, ledger_stepEvent]

variable {s}

lemma mem_committed_of_split {es f g : List OwnerEvent} {e : OwnerEvent}
    (h : es = f ++ e :: g) {op : Ledger.Op SocketAddr PeerId}
    (hop : op ∈ (Run.exec step s f).commitsOf e) : op ∈ s.committed es := by
  subst h
  induction f generalizing s with
  | nil => exact List.mem_append_left _ hop
  | cons a f ih => exact List.mem_append_right _ (ih hop)

end PeerRegistryOwner

lemma ledger_wellFormed (hasher : SocketAddr → UInt64) (routing : Option (List RoutingCall))
    (events : List OwnerEvent) : (ownerRun hasher routing events).tables.ledger.WellFormed := by
  rw [ownerRun, PeerRegistryOwner.ledger_exec]
  exact Ledger.wellFormed_empty.applyAll _

lemma entry_of_old_token {hasher : SocketAddr → UInt64} {routing : Option (List RoutingCall)}
    {e₁ e₂ : List OwnerEvent} {entry : PeerId × CommitSeq}
    (hnow : (ownerRun hasher routing (e₁ ++ e₂)).tables.ledger.entry addr = some entry)
    (hold : entry.2 ≤ (ownerRun hasher routing e₁).commitSeq) :
    (ownerRun hasher routing e₁).tables.ledger.entry addr = some entry ∧
      ∀ op ∈ (ownerRun hasher routing e₁).committed e₂, ¬ op.Touches addr := by
  rw [ownerRun, Run.exec_append, PeerRegistryOwner.ledger_exec] at hnow
  exact Ledger.entry_of_old hnow hold

/-! ### Refusals -/

/-- Everything an ownership decision reads or writes is the same. -/
structure Tables.SameAuthority (t t' : Tables) : Prop where
  owner : t'.owner = t.owner
  generation : t'.generation = t.generation
  pin : t'.pin = t.pin
  pinnedAt : t'.pinnedAt = t.pinnedAt
  receipt : t'.receipt = t.receipt
  committedAt : t'.committedAt = t.committedAt
  reserved : t'.reserved = t.reserved
  commitSeq : t'.commitSeq = t.commitSeq
  snapshot : t'.snapshot = t.snapshot

lemma Tables.SameAuthority.refl (t : Tables) : t.SameAuthority t :=
  ⟨rfl, rfl, rfl, rfl, rfl, rfl, rfl, rfl, rfl⟩

lemma Tables.sameAuthority_of_refused {t t' : Tables} (h : Step t cmd reply t')
    (href : reply.Refused) : t.SameAuthority t' := by
  cases h with
  | unchanged | configureBlocked | configureSuperseded => exact .refl t
  | claim | claimScoped | configured =>
    simp [OwnerReply.Refused, acceptedCommit, ClaimCommit.isAccepted] at href
  | release | reserve => simp [OwnerReply.Refused] at href
  | releaseSession | provenAlive | purge | releaseDead | unreserve | note => exact href.elim
  | @configureRefused addr peer expected =>
    -- only the peer's configuration counter moves, and only on a first attempt
    cases expected <;> exact ⟨rfl, rfl, rfl, rfl, rfl, rfl, rfl, rfl, rfl⟩
  | migrate => exact absurd rfl (href _)

/-! ### Tokens -/

lemma Tables.Step.entry_of_release {t t' : Tables} {generation seq : CommitSeq}
    (h : Step t (.release addr peer generation) (.release (some seq)) t') :
    t.ledger.entry addr = some (peer, generation) := by
  cases h with
  | unchanged h => simp [OwnerCommand.Unchanged] at h
  | release _ howned hgen => exact t.entry_ledger_iff.mpr ⟨howned, hgen⟩

lemma Tables.Step.entry_of_migrate {t t' : Tables} {isLocalAddr : Bool} {seq : CommitSeq}
    (h : Step t (.migrate source target isLocalAddr (.owned token)) (.migrate (.migrated seq)) t') :
    t.ledger.entry source = some (token.owner, token.generation) := by
  cases h with
  | unchanged h => exact absurd rfl (h seq)
  | migrate _ _ hown hgen =>
    exact t.entry_ledger_iff.mpr ⟨⟨_, hown, rfl⟩, hgen⟩

/-- **Stale tokens never act and refusals change nothing.**  Take a token that
is current at a point of a run.  If it is accepted at a later point, by a
release of its address or by a migration, then nothing committed in between
touched the address.  And a command that is refused leaves owners,
generations, pins, receipts, evidence of claims, reservations, the commit
position and the snapshot as they were. -/
theorem stale_tokens_never_act (hasher : SocketAddr → UInt64)
    (routing : Option (List RoutingCall)) (e₁ e₂ : List OwnerEvent) :
    (∀ addr token, (ownerRun hasher routing e₁).currentOwnershipToken addr = some token →
      ((∃ seq, ((ownerRun hasher routing (e₁ ++ e₂)).handle
            (.release addr token.owner token.generation)).2 = .release (some seq)) ∨
        ∃ source target isLocalAddr seq, ((ownerRun hasher routing (e₁ ++ e₂)).handle
            (.migrate source target isLocalAddr (.owned token))).2 = .migrate (.migrated seq)) →
      ∀ f e g, e₂ = f ++ e :: g →
        ∀ op ∈ (ownerRun hasher routing (e₁ ++ f)).commitsOf e, ¬ op.Touches addr) ∧
    ∀ cmd, ((ownerRun hasher routing e₁).handle cmd).2.Refused →
      (ownerRun hasher routing e₁).tables.SameAuthority
        ((ownerRun hasher routing e₁).handle cmd).1.tables := by
  constructor
  · intro addr token hcur hact f e g hspl op hop
    have hentry := (ownerRun hasher routing e₁).tables.token_eq_some_iff.mp hcur
    have hwf := ledger_wellFormed hasher routing e₁
    -- the token is the entry of the address at the second point as well
    have hnow : (ownerRun hasher routing (e₁ ++ e₂)).tables.ledger.entry addr
        = some (token.owner, token.generation) := by
      rcases hact with ⟨seq, hrel⟩ | ⟨source, target, isLocalAddr, seq, hmig⟩
      · have hstep := (ownerRun hasher routing (e₁ ++ e₂)).handle_step
          (.release addr token.owner token.generation)
        rw [hrel] at hstep
        exact hstep.entry_of_release
      · have hstep := (ownerRun hasher routing (e₁ ++ e₂)).handle_step
          (.migrate source target isLocalAddr (.owned token))
        rw [hmig] at hstep
        have hsrc := hstep.entry_of_migrate
        -- its generation was already attached to the source, and generations are unique
        obtain ⟨hthen, -⟩ := entry_of_old_token hsrc (hwf.issued hentry)
        rw [hwf.unique hentry hthen rfl]
        exact hsrc
    obtain ⟨-, huntouched⟩ := entry_of_old_token hnow (hwf.issued hentry)
    refine huntouched op (PeerRegistryOwner.mem_committed_of_split hspl ?_)
    rw [ownerRun, Run.exec_append] at hop
    exact hop
  · intro cmd href
    exact Tables.sameAuthority_of_refused ((ownerRun hasher routing e₁).handle_step cmd) href

/-- A token that survives a liveness note is still good for a release. -/
theorem stale_tokens_never_act_after_note :
    ∀ op ∈ (ownerRun (fun _ => 0) none [.command (.claim (Sample.host 1) ⟨Sample.alice, .verified⟩
      false)]).commitsOf (.command (.noteLivenessEvidence (Sample.host 1) 3)),
      ¬ op.Touches (Sample.host 1) :=
  (stale_tokens_never_act (fun _ => 0) none
    [.command (.claim (Sample.host 1) ⟨Sample.alice, .verified⟩ false)]
    [.command (.noteLivenessEvidence (Sample.host 1) 3)]).1 (Sample.host 1) ⟨Sample.alice, 1⟩
    (by decide) (Or.inl ⟨2, by decide⟩) [] _ [] rfl

end IcanactRemote
