/-
Connection-scoped receipts.

A receipt records that one transport instance of a peer keeps the peer's
ownership of an address alive.  `Coherent` already says that a receipt is
current: its peer owns the address, and it carries the address's generation.

`Covered` is the other half: an owned address that is not pinned has a receipt
of its owner.  A plain claim may take an address without leaving one, so this
needs that accepted plain claims only refresh what the peer owns
(`RefreshOnly`).  It is a joint invariant with the pin tables: an address loses
its receipts when it is pinned away from and when it moves, and is vacated or
given receipts in the same command.

Main result: `receipts_current_and_covering`.
-/
import IcanactRemote.OwnerSafety

namespace IcanactRemote

open Tables PeerRegistryOwner Sample

/-- Every owned address that is not pinned has a receipt of its owner. -/
def Covered (t : Tables) : Prop :=
  ∀ a o, t.owner a = some o → t.pin a = none → ∃ i, t.receipt ⟨o.nodeId, i, a⟩ ≠ none

/-- An accepted plain claim refreshes an address the same peer already
owns. -/
def RefreshOnly (s : PeerRegistryOwner) : OwnerEvent → Prop
  | .command (.claim addr claim isLocalAddr) =>
    (s.claim addr claim isLocalAddr).2.isAccepted = true → s.ownedBy addr claim.nodeId = true
  | _ => True

variable {peer : PeerId} {s : PeerRegistryOwner} {key : ReceiptKey} {owner held : Owner}

namespace Tables

variable (t : Tables)

/-! ### Receipts after a mutation -/

lemma receipt_accept_ne_none {addr : SocketAddr} :
    (t.accept addr owner).receipt key ≠ none ↔ t.receipt key ≠ none := by
  show (if key.peer = owner.nodeId ∧ key.addr = addr then _ else t.receipt key) ≠ none ↔ _
  by_cases hc : key.peer = owner.nodeId ∧ key.addr = addr
  · rw [if_pos hc, ne_eq, Option.map_eq_none_iff]
  · rw [if_neg hc]

lemma receipt_retractAll (addrs : List SocketAddr) :
    (t.retractAll addrs).receipt key = if key.addr ∈ addrs then none else t.receipt key := by
  induction addrs generalizing t with
  | nil => simp [retractAll]
  | cons addr addrs ih =>
    show ((t.retract addr).retractAll addrs).receipt key = _
    rw [ih]
    show (if _ then none else if key.addr = addr then none else t.receipt key) = _
    by_cases ha : key.addr = addr <;> simp [ha]

variable {ev : SocketAddr}

lemma receipt_releaseEvicted (hk : key.addr ≠ ev) :
    (t.releaseEvicted peer ev).receipt key = t.receipt key := by
  have hdrop : (t.dropReceipts fun key => key.peer = peer ∧ key.addr = ev).receipt key
      = t.receipt key := if_neg fun h => hk h.2
  rw [releaseEvicted]
  split_ifs
  · exact (if_neg hk).trans hdrop
  · exact hdrop

lemma owner_releaseEvicted_self (h : t.OwnedBy ev peer) :
    (t.releaseEvicted peer ev).owner ev = none := by
  rw [releaseEvicted, if_pos (show (t.dropReceipts _).OwnedBy ev peer from h), owner_retract,
    if_pos rfl]

end Tables

namespace Covered

variable {t t' : Tables}

/-! ### Every step keeps the cover -/

lemma of_eq (h : Covered t) (hown : t'.owner = t.owner) (hpin : t'.pin = t.pin)
    (hrcpt : t'.receipt = t.receipt) : Covered t' := by
  intro a o ho hp
  rw [hown] at ho
  rw [hpin] at hp
  rw [hrcpt]
  exact h a o ho hp

variable {addr source target : SocketAddr}

lemma claim (h : Covered t) (howned : t.OwnedBy addr owner.nodeId) :
    Covered (t.accept addr owner) := by
  intro a o ho hp
  simp only [receipt_accept_ne_none]
  rw [owner_accept] at ho
  by_cases ha : a = addr
  · rw [if_pos ha, Option.some_inj] at ho
    obtain ⟨held, hheld, hn⟩ := howned
    rw [← ho, ← hn, ha]
    exact h addr held hheld (ha ▸ hp)
  · rw [if_neg ha] at ho
    exact h a o ho hp

variable {instanceId : ℕ}

lemma claimScoped (h : Covered t) {evidenceAt : Instant} :
    Covered ((t.accept addr owner).scope addr owner.nodeId instanceId evidenceAt) := by
  intro a o ho hp
  change (t.accept addr owner).owner a = some o at ho
  change t.pin a = none at hp
  change ∃ i, (if t.pin addr = some owner.nodeId then _ else _ : ReceiptKey → Option CommitSeq)
    ⟨o.nodeId, i, a⟩ ≠ none
  rw [owner_accept] at ho
  by_cases ha : a = addr
  · -- the claim leaves a receipt, as the address is not pinned
    rw [if_pos ha, Option.some_inj] at ho
    refine ⟨instanceId, ?_⟩
    rw [if_neg (by rw [← ha, hp]; simp), ← ho, ha, Function.update_self]
    simp
  · rw [if_neg ha] at ho
    obtain ⟨i, hi⟩ := h a o ho hp
    refine ⟨i, ?_⟩
    by_cases hpin : t.pin addr = some owner.nodeId
    · rw [if_pos hpin]
      exact t.receipt_accept_ne_none.mpr hi
    · rw [if_neg hpin, Function.update_of_ne (by simp [ha])]
      exact t.receipt_accept_ne_none.mpr hi

lemma retract_of_ne
    (h : ∀ a o, a ≠ addr → t.owner a = some o → t.pin a = none →
      ∃ i, t.receipt ⟨o.nodeId, i, a⟩ ≠ none) : Covered (t.retract addr) := by
  intro a o ho hp
  obtain ⟨ha, ho⟩ := t.owner_retract_eq_some.mp ho
  obtain ⟨i, hi⟩ := h a o ha ho hp
  refine ⟨i, ?_⟩
  show (if a = addr then none else t.receipt _) ≠ none
  rw [if_neg ha]
  exact hi

variable (h : Covered t)
include h

lemma retract : Covered (t.retract addr) := retract_of_ne fun a o _ => h a o

lemma releaseSession {addrs : List SocketAddr}
    (hrel : ∀ addr, addr ∈ addrs ↔ t.LastReceipt peer instanceId addr ∧ t.pin addr = none ∧
      t.OwnedBy addr peer) :
    Covered ((t.dropReceipts fun key => key.peer = peer ∧ key.instanceId = instanceId).retractAll
      addrs) := by
  intro a o ho hp
  rw [owner_retractAll] at ho
  rw [(pins_retractAll _ _).1] at hp
  by_cases ha : a ∈ addrs
  · rw [if_pos ha] at ho
    simp at ho
  · rw [if_neg ha] at ho
    simp only [receipt_retractAll, if_neg ha]
    -- a receipt that survives the exit
    suffices hsurvives : ∃ i, ¬ (o.nodeId = peer ∧ i = instanceId) ∧
        t.receipt ⟨o.nodeId, i, a⟩ ≠ none by
      obtain ⟨i, hne, hi⟩ := hsurvives
      refine ⟨i, ?_⟩
      show (if o.nodeId = peer ∧ i = instanceId then none else _) ≠ none
      rw [if_neg hne]
      exact hi
    by_contra hnone
    push Not at hnone
    obtain ⟨i, hi⟩ := h a o ho hp
    -- the only receipt left was this instance's, so the address was released
    have hown : o.nodeId = peer ∧ i = instanceId := by
      by_contra hc
      exact hi (hnone i fun h1 h2 => hc ⟨h1, h2⟩)
    refine ha ((hrel a).mpr ⟨⟨?_, fun j hj => ?_⟩, hp, o, ho, hown.1⟩)
    · rw [← hown.1, ← hown.2]
      exact hi
    · rw [← hown.1]
      exact hnone j fun _ => hj

lemma purge (hno : t.pin addr = none → ¬ t.OwnedBy addr peer) :
    Covered (t.dropReceipts fun key => key.peer = peer ∧ key.addr = addr) := by
  intro a o ho hp
  obtain ⟨i, hi⟩ := h a o ho hp
  refine ⟨i, ?_⟩
  show (if o.nodeId = peer ∧ a = addr then none else _) ≠ none
  rw [if_neg]
  · exact hi
  · rintro ⟨hn, rfl⟩
    exact hno hp ⟨o, ho, hn⟩

lemma releaseDead :
    Covered ((t.dropReceipts fun key => key.peer = peer ∧ key.addr = addr).retract addr) := by
  refine retract_of_ne fun a o ha ho hp => ?_
  obtain ⟨i, hi⟩ := h a o ho hp
  refine ⟨i, ?_⟩
  show (if o.nodeId = peer ∧ a = addr then none else _) ≠ none
  rw [if_neg fun hc => ha hc.2]
  exact hi

lemma configure (hco : Coherent t) (hacc : t.Accepts addr ⟨peer, .verified⟩ false) :
    Covered (t.configure addr peer) := by
  have hu := hco.accept_of_accepts hacc
  -- taking the address leaves the cover of the others
  have hcov : ∀ {a o}, a ≠ addr →
      (t.accept addr (t.claimedOwner addr ⟨peer, .verified⟩)).owner a = some o → t.pin a = none →
      ∃ i, (t.accept addr (t.claimedOwner addr ⟨peer, .verified⟩)).receipt ⟨o.nodeId, i, a⟩
        ≠ none := by
    intro a o ha ho hp
    rw [owner_accept, if_neg ha] at ho
    obtain ⟨i, hi⟩ := h a o ho hp
    exact ⟨i, t.receipt_accept_ne_none.mpr hi⟩
  rw [Tables.configure]
  set u := t.accept addr (t.claimedOwner addr ⟨peer, .verified⟩) with hu'
  rcases he : u.evicted addr peer with _ | ev
  · intro a o ho hp
    rw [hu.pin_installPin] at hp
    by_cases ha : a = addr
    · rw [if_pos ha] at hp
      simp at hp
    · rw [if_neg ha] at hp
      by_cases hc : u.pin a = some peer
      · -- the peer's pin would have been evicted
        rw [hu.evicted_eq_some.mpr ⟨hc, ha⟩] at he
        simp at he
      · rw [if_neg hc] at hp
        exact hcov ha ho hp
  · -- the evicted address loses its pin and is vacated with it
    obtain ⟨hev, hne⟩ := hu.evicted_eq_some.mp he
    have howned : (u.installPin addr peer).OwnedBy ev peer := ⟨_, hu.pin_owned hev, rfl⟩
    intro a o ho hp
    by_cases hae : a = ev
    · rw [hae, owner_releaseEvicted_self _ howned] at ho
      simp at ho
    · simp only
      rw [(pins_releaseEvicted _ _ _).1, hu.pin_installPin] at hp
      by_cases ha : a = addr
      · rw [if_pos ha] at hp
        simp at hp
      · rw [if_neg ha, if_neg fun hc => hae (hu.pin_inj hc hev)] at hp
        have ho' : u.owner a = some o := by
          rcases Coherent.owner_releaseEvicted ev a with hn | hs
          · rw [hn] at ho
            simp at ho
          · exact hs.symm.trans ho
        obtain ⟨i, hi⟩ := hcov ha ho' hp
        refine ⟨i, ?_⟩
        have hkey : (⟨o.nodeId, i, a⟩ : ReceiptKey).addr ≠ ev := hae
        rw [receipt_releaseEvicted _ hkey]
        exact hi

lemma migrate (hown : t.owner source = some held) (hn : owner.nodeId = held.nodeId) :
    Covered (t.move source target owner) := by
  intro a o ho hp
  rw [owner_move] at ho
  by_cases ha : a = target
  · rw [if_pos ha, Option.some_inj] at ho
    -- an unpinned target means that the source was not pinned either
    have hsrc : t.pin source = none := by
      rcases hps : t.pin source with _ | p
      · rfl
      · rw [Coherent.pin_move_some hps, if_pos ha] at hp
        simp at hp
    obtain ⟨i, hi⟩ := h source held hown hsrc
    refine ⟨i, ?_⟩
    simp only [move]
    rw [if_pos ⟨by rw [ho], ha⟩, if_pos (Or.inl ?_)]
    · simp
    · rw [← ho, hn]
      exact Option.isSome_iff_ne_none.mpr hi
  · rw [if_neg ha] at ho
    by_cases hs : a = source
    · rw [if_pos hs] at ho
      simp at ho
    · rw [if_neg hs] at ho
      have hpa : t.pin a = none := by
        rcases hps : t.pin source with _ | p
        · rw [(Coherent.pin_move_none hps).1] at hp
          exact hp
        · rw [Coherent.pin_move_some hps, if_neg ha, if_neg hs] at hp
          exact hp
      obtain ⟨i, hi⟩ := h a o ho hpa
      refine ⟨i, ?_⟩
      simp only [move]
      rw [if_neg fun hc => ha hc.2, if_neg hs]
      exact hi

lemma settle (peer : PeerId) (expected : Option ℕ) : Covered (t.settle peer expected) := by
  cases expected with
  | none => exact h.of_eq rfl rfl rfl
  | some => exact h

/-- **Every step keeps the cover**, if an accepted plain claim refreshes an
address its peer owns. -/
theorem step {cmd : OwnerCommand} {reply : OwnerReply} (hco : Coherent t)
    (hstep : Step t cmd reply t')
    (hrefresh : ∀ addr claim isLocalAddr, cmd = .claim addr claim isLocalAddr →
      t.Accepts addr claim isLocalAddr → t.OwnedBy addr claim.nodeId) :
    Covered t' := by
  cases hstep with
  | unchanged | provenAlive | configureBlocked | configureSuperseded => exact h
  | claim hacc => exact h.claim (hrefresh _ _ _ rfl hacc)
  | claimScoped => exact h.claimScoped
  | release => exact h.retract
  | releaseSession hrel => exact h.releaseSession hrel
  | purge _ hno => exact h.purge hno
  | releaseDead => exact h.releaseDead
  | reserve | unreserve | note => exact h.of_eq rfl rfl rfl
  | configureRefused => exact h.settle _ _
  | configured _ _ hyes =>
    exact (h.settle _ _).configure (hco.settle _ _) (Coherent.accepts_settle.mpr hyes)
  | migrate _ _ hown => exact h.migrate hown rfl

end Covered

/-! ### Runs -/

lemma covered_stepEvent {e : OwnerEvent} (hco : Coherent s.tables) (hcov : Covered s.tables)
    (hrefresh : RefreshOnly s e) : Covered (s.step e).tables := by
  rcases e with cmd | cell
  · refine hcov.step hco (s.handle_step cmd) ?_
    rintro addr claim isLocalAddr rfl hacc
    refine s.ownedBy_eq_true.mp (hrefresh ?_)
    rw [(s.claim_accepted hacc).1]
    rfl
  · rw [s.tables_step_tryConsume, consume]
    split_ifs
    · exact hcov.of_eq rfl rfl rfl
    · exact hcov

lemma covered_empty (hasher : SocketAddr → UInt64) : Covered (empty hasher) := by
  intro a o ho _
  simp [empty] at ho

lemma covered_exec {events : List OwnerEvent} (hs : Coherent s.tables ∧ Covered s.tables)
    (hrefresh : Run.Meets step RefreshOnly s events) : Coherent (Run.exec step s events).tables ∧
      Covered (Run.exec step s events).tables :=
  Run.exec_invariant_of_meets
    (P := fun s : PeerRegistryOwner => Coherent s.tables ∧ Covered s.tables)
    (fun _ e h hC => ⟨coherent_stepEvent e h.1, covered_stepEvent h.1 h.2 hC⟩) hs hrefresh

/-! ### Sessions -/

/-- A transport session of a peer. -/
structure Session where
  peer : PeerId
  source : SocketAddr
  instanceId : ℕ
  order : VisitOrder

def Session.exit (c : Session) : OwnerEvent :=
  .command (.releaseSession c.peer c.source c.instanceId c.order)

/-- A session's exit takes its own receipts with it, and vacates nothing that
another instance of the peer holds a receipt for. -/
lemma exit_spec (c : Session) : (∀ key, (s.step c.exit).tables.receipt key ≠ none →
      s.tables.receipt key ≠ none ∧ ¬ (key.peer = c.peer ∧ key.instanceId = c.instanceId)) ∧
    ∀ a i, i ≠ c.instanceId → s.tables.receipt ⟨c.peer, i, a⟩ ≠ none →
      (s.step c.exit).tables.owner a = s.tables.owner a := by
  have hstep : Step s.tables (.releaseSession c.peer c.source c.instanceId c.order)
    (s.handle (.releaseSession c.peer c.source c.instanceId c.order)).2
    (s.step c.exit).tables := s.handle_step _
  generalize (s.handle (.releaseSession c.peer c.source c.instanceId c.order)).2 = reply at hstep
  generalize (s.step c.exit).tables = t' at hstep ⊢
  cases hstep with
  | unchanged hun => cases reply <;> exact hun.elim
  | @releaseSession _ _ _ _ released hrel =>
    constructor
    · intro key hkey
      rw [receipt_retractAll] at hkey
      by_cases ha : key.addr ∈ released.map Prod.fst
      · exact absurd (if_pos ha) hkey
      · rw [if_neg ha] at hkey
        change (if key.peer = c.peer ∧ key.instanceId = c.instanceId then none
          else s.tables.receipt key) ≠ none at hkey
        by_cases hown : key.peer = c.peer ∧ key.instanceId = c.instanceId
        · exact absurd (if_pos hown) hkey
        · rw [if_neg hown] at hkey
          exact ⟨hkey, hown⟩
    · intro a i hi hoth
      rw [owner_retractAll, if_neg]
      · rfl
      · intro ha
        -- a vacated address has no receipt of another instance
        exact hoth (((hrel a).mp ha).1.2 i hi)

lemma receipt_exits {sessions : List Session}
    (h : (Run.exec step s (sessions.map Session.exit)).tables.receipt key ≠ none) :
    s.tables.receipt key ≠ none ∧
      ∀ c ∈ sessions, ¬ (key.peer = c.peer ∧ key.instanceId = c.instanceId) := by
  induction sessions generalizing s with
  | nil => exact ⟨h, by simp⟩
  | cons c _ ih =>
    obtain ⟨hthen, hrest⟩ := ih h
    obtain ⟨hnow, hc⟩ := (exit_spec c).1 key hthen
    exact ⟨hnow, List.forall_mem_cons.mpr ⟨hc, hrest⟩⟩

lemma Covered.owner_eq_none {t : Tables} (h : Covered t) (hnone : ∀ key, t.receipt key = none)
    {a : SocketAddr} (hp : t.pin a = none) : t.owner a = none := by
  by_contra ho
  obtain ⟨o, ho⟩ := Option.ne_none_iff_exists'.mp ho
  obtain ⟨i, hi⟩ := h a o ho hp
  exact hi (hnone _)

/-- **Receipts are current, and no ownership is stranded.**  At every point of
every run a receipt's address is owned by its peer and the receipt carries the
address's generation, and the exit of a session vacates no address another
instance of the peer holds a receipt for.  If every accepted plain claim of
the run refreshed an address its peer owned, then every owned address that is
not pinned has a receipt of its owner: without receipts nothing unpinned is
owned, and so it is once every session that holds a receipt has exited. -/
theorem receipts_current_and_covering (hasher : SocketAddr → UInt64)
    (routing : Option (List RoutingCall)) (events : List OwnerEvent) : (∀ key generation,
      (ownerRun hasher routing events).connectionScopedClaims.get key = some generation →
      (ownerRun hasher routing events).ownedBy key.addr key.peer = true ∧
        (ownerRun hasher routing events).claimGeneration.get key.addr = some generation) ∧
    (∀ (c : Session) (a : SocketAddr) (i : ℕ), i ≠ c.instanceId →
      (ownerRun hasher routing events).connectionScopedClaims.get ⟨c.peer, i, a⟩ ≠ none →
      ((ownerRun hasher routing events).step c.exit).addrOwnership.get a
        = (ownerRun hasher routing events).addrOwnership.get a) ∧
    (Run.Meets PeerRegistryOwner.step RefreshOnly (PeerRegistryOwner.start hasher routing) events →
      (∀ a owner, (ownerRun hasher routing events).addrOwnership.get a = some owner →
        (ownerRun hasher routing events).operatorPinned.get a = none →
        ∃ i, (ownerRun hasher routing events).connectionScopedClaims.get ⟨owner.nodeId, i, a⟩
          ≠ none) ∧
      ((∀ key, (ownerRun hasher routing events).connectionScopedClaims.get key = none) →
        ∀ a, (ownerRun hasher routing events).operatorPinned.get a = none →
          (ownerRun hasher routing events).addrOwnership.get a = none) ∧
      ∀ sessions : List Session,
        (∀ key, (ownerRun hasher routing events).connectionScopedClaims.get key ≠ none →
          ∃ c ∈ sessions, key.peer = c.peer ∧ key.instanceId = c.instanceId) →
        ∀ a, (ownerRun hasher routing (events ++ sessions.map Session.exit)).operatorPinned.get a
            = none →
          (ownerRun hasher routing (events ++ sessions.map Session.exit)).addrOwnership.get a
            = none) := by
  have hco := coherent_run hasher routing events
  refine ⟨fun key g hr => ?_, fun c a i hi hr => (exit_spec c).2 a i hi hr, fun hmeets => ?_⟩
  · obtain ⟨howned, hg⟩ := hco.receipt hr
    exact ⟨ownedBy_eq_true _ |>.mpr howned, hg⟩
  · have hsta : Coherent (start hasher routing).tables ∧
        Covered (start hasher routing).tables := by
      rw [tables_start]
      exact ⟨coherent_empty hasher, covered_empty hasher⟩
    have hcov := (covered_exec hsta hmeets).2
    refine ⟨hcov, fun hnone a hp => hcov.owner_eq_none hnone hp, fun sessions hall a hp => ?_⟩
    rw [ownerRun, Run.exec_append] at hp ⊢
    have hmeets' : Run.Meets step RefreshOnly (ownerRun hasher routing events)
        (sessions.map Session.exit) := by
      refine Run.meets_of_forall_mem (fun s e he => ?_) _
      obtain ⟨c, -, rfl⟩ := List.mem_map.mp he
      trivial
    refine (covered_exec ⟨hco, hcov⟩ hmeets').2.owner_eq_none (fun key => ?_) hp
    -- a receipt left would belong to a session that has exited
    by_contra hleft
    obtain ⟨hnow, hrest⟩ := receipt_exits hleft
    obtain ⟨c, hc, hkey⟩ := hall key hnow
    exact hrest c hc hkey

/-- One session claims an address and exits: the address is vacated. -/
theorem receipts_current_and_covering_one_session :
    (ownerRun (fun _ => 0) none ([.command (.claimConnectionScoped (Sample.host 1)
      ⟨Sample.alice, .verified⟩ (Sample.host 2) 7 5)] ++
      [Session.mk Sample.alice (Sample.host 2) 7 .stored].map Session.exit)).addrOwnership.get
        (Sample.host 1) = none := by
  refine ((receipts_current_and_covering (fun _ => 0) none [.command (.claimConnectionScoped
    (host 1) ⟨alice, .verified⟩ (host 2) 7 5)]).2.2 ⟨trivial, trivial⟩).2.2
    [⟨alice, host 2, 7, .stored⟩] (fun key hkey => ?_) (host 1) (by decide)
  -- the claim left the only receipt
  have hmem := Table.mem_keys.mpr (Option.ne_none_iff_exists'.mp hkey)
  have hkeys : (ownerRun (fun _ => 0) none [.command (.claimConnectionScoped (host 1)
      ⟨alice, .verified⟩ (host 2) 7 5)]).connectionScopedClaims.keys
      = [⟨alice, 7, host 1⟩] := by decide
  rw [hkeys, List.mem_singleton] at hmem
  rw [hmem]
  exact ⟨_, List.mem_singleton.mpr rfl, rfl, rfl⟩

end IcanactRemote
