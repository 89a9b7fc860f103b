/-
One candidate of a dead-peer sweep (`reap_reserved_candidates`).

A candidate reserves its address, asks the owner for newer evidence, commits
by the guard's compare-and-swap, destroys what the node keeps for the peer,
has the owner release the peer's ownership and gives the reservation back.  It
runs beside everybody else's requests and guards: between any two of its steps
the rest of the system takes any steps that do not use the candidate's own
guard or answer for its own request.

`SweepSystem.Relies` says, phase by phase, what the candidate can rely on.

Main result: `reap_linearizes`.
-/
import IcanactRemote.ReapExchange

namespace IcanactRemote

open PeerRegistryOwner List Option

/-! ### The flag of a reservation -/

variable {cmd a b : OwnerCommand} {flag : ReapState} {addr : SocketAddr} {ev : OwnerEvent}

namespace Tables

variable {t t' : Tables}

lemma cells_noteSeen (t : Tables) (addr : SocketAddr) (instant : Instant) :
    (t.noteSeen addr instant).cells = t.cells ∨
      ∃ c, t.reserved addr = some c ∧ t.cells[c]? = some .pending ∧
        (t.noteSeen addr instant).cells = t.cells.set c .invalidated := by
  simp only [noteSeen]
  rcases hres : t.reserved addr with _ | c
  · exact Or.inl rfl
  · by_cases hp : t.cells[c]? = some .pending
    · exact Or.inr ⟨c, rfl, hp, if_pos hp⟩
    · exact Or.inl (if_neg hp)

variable {reply : OwnerReply} {c : CellId}

lemma Step.cell (h : Step t cmd reply t') (hc : t.cells[c]? = some flag) :
    t'.cells[c]? = some flag ∨ flag = .pending ∧ t'.cells[c]? = some .invalidated := by
  have hlt : c < t.cells.length := (List.getElem?_eq_some_iff.mp hc).1
  cases h with
  | releaseSession =>
    rw [(reserves_retractAll _ _).2]
    exact Or.inl hc
  | reserve => exact Or.inl ((getElem?_append_left hlt).trans hc)
  | @configureRefused _ _ expected => cases expected <;> exact Or.inl hc
  | @configured addr peer expected =>
    rw [(reserves_configure (t.settle peer expected) addr peer).2]
    cases expected <;> exact Or.inl hc
  | @note addr instant =>
    rcases t.cells_noteSeen addr instant with heq | ⟨c', -, hp, heq⟩
    · rw [heq]
      exact Or.inl hc
    · rw [heq]
      by_cases hcc : c' = c
      · subst hcc
        exact Or.inr ⟨some.inj (hc.symm.trans hp), getElem?_set_self hlt⟩
      · exact Or.inl ((getElem?_set_ne hcc).trans hc)
  | _ => exact Or.inl hc

lemma Step.cell_of_note {instant : Instant}
    (h : Step t (.noteLivenessEvidence addr instant) reply t') (hres : t.reserved addr = some c)
    (hc : t.cells[c]? = some .pending) : t'.cells[c]? = some .invalidated := by
  cases h with
  | unchanged hun => cases reply <;> exact hun.elim
  | note =>
    simp only [noteSeen, hres]
    rw [if_pos hc]
    exact List.getElem?_set_self (List.getElem?_eq_some_iff.mp hc).1

lemma Step.cells_length_le (h : Step t cmd reply t') : t.cells.length ≤ t'.cells.length := by
  by_contra hlt
  have hin : t'.cells.length < t.cells.length := Nat.lt_of_not_ge hlt
  have hget : t.cells[t'.cells.length]? = some t.cells[t'.cells.length] := getElem?_eq_getElem hin
  have hout : t'.cells[t'.cells.length]? = none := getElem?_eq_none (Nat.le_refl _)
  rcases h.cell hget with heq | ⟨-, heq⟩ <;> cases heq.symm.trans hout

end Tables

/-- The reservation `c` of `addr` was invalidated, or it is pending and `log`
has no evidence for `addr`. -/
def FlagSince (t : Tables) (c : CellId) (addr : SocketAddr) (log : List OwnerEvent) : Prop :=
  t.cells[c]? = some .invalidated ∨
    t.cells[c]? = some .pending ∧ ∀ instant, .command (.noteLivenessEvidence addr instant) ∉ log

namespace PeerRegistryOwner

variable {s : PeerRegistryOwner} {c c' : CellId}

lemma tryConsume_eq_true : (s.tryConsume c).2 = true ↔ s.tables.cells[c]? = some .pending := by
  rw [tryConsume, compareExchange]
  by_cases hp : s.cells[c]? = some .pending
  · rw [if_pos hp]
    exact ⟨fun _ => hp, fun _ => rfl⟩
  · rw [if_neg hp]
    exact ⟨fun h => absurd h (by simp), fun h => absurd h hp⟩

lemma cell_tryConsume_self (h : s.tables.cells[c]? = some .pending) :
    (s.step (.tryConsume c)).tables.cells[c]? = some .committed := by
  rw [tables_step_tryConsume, Tables.consume, if_pos h]
  exact List.getElem?_set_self (List.getElem?_eq_some_iff.mp h).1

lemma cell_tryConsume (hc : s.tables.cells[c]? = some flag) (h : c' ≠ c ∨ flag ≠ .pending) :
    (s.step (.tryConsume c')).tables.cells[c]? = some flag := by
  rw [tables_step_tryConsume, Tables.consume]
  split_ifs with hp
  · have hne : c' ≠ c := by
      rintro rfl
      rcases h with h | h
      · exact h rfl
      · exact h (some.inj (hc.symm.trans hp))
    exact (getElem?_set_ne hne).trans hc
  · exact hc

lemma cell_step (hc : s.tables.cells[c]? = some flag) (hflag : flag ≠ .pending) :
    (s.step ev).tables.cells[c]? = some flag := by
  cases ev with
  | command cmd =>
    rcases (s.handle_step cmd).cell hc with h | ⟨h, -⟩
    · exact h
    · exact absurd h hflag
  | tryConsume => exact cell_tryConsume hc (Or.inr hflag)

lemma flagSince_step {log : List OwnerEvent} (h : FlagSince s.tables c addr log)
    (hres : s.tables.reserved addr = some c) (hev : ev ≠ .tryConsume c) :
    FlagSince (s.step ev).tables c addr (log ++ [ev]) := by
  rcases h with hinv | ⟨hpend, hnone⟩
  · exact Or.inl (cell_step hinv (by simp))
  · cases ev with
    | tryConsume c' =>
      have hne : c' ≠ c := fun hc => hev (hc ▸ rfl)
      refine Or.inr ⟨cell_tryConsume hpend (Or.inl hne), fun instant hmem => ?_⟩
      rcases mem_append.mp hmem with hmem | hmem
      · exact hnone instant hmem
      · exact absurd (mem_singleton.mp hmem) (by simp)
    | command cmd =>
      rcases (s.handle_step cmd).cell hpend with hsame | ⟨-, hinv⟩
      · refine Or.inr ⟨hsame, fun instant hmem => ?_⟩
        rcases mem_append.mp hmem with hmem | hmem
        · exact hnone instant hmem
        · -- evidence would have invalidated it
          obtain rfl := OwnerEvent.command.inj (mem_singleton.mp hmem)
          have hinv := (s.handle_step (.noteLivenessEvidence addr instant)).cell_of_note hres hpend
          cases hsame.symm.trans hinv
      · exact Or.inl hinv

lemma cells_length_le_step (s : PeerRegistryOwner) (ev : OwnerEvent) :
    s.tables.cells.length ≤ (s.step ev).tables.cells.length := by
  cases ev with
  | command cmd => exact (s.handle_step cmd).cells_length_le
  | tryConsume =>
    rw [tables_step_tryConsume, Tables.consume]
    split_ifs
    · exact Nat.le_of_eq length_set.symm
    · exact Nat.le_refl _

end PeerRegistryOwner

lemma grant_unique {hasher : SocketAddr → UInt64} {routing : Option (List RoutingCall)}
    {c : CellId} {h h' l l' : List OwnerEvent}
    (ha : ((ownerRun hasher routing h).handle a).2 = .reserveForReap (some c))
    (hb : ((ownerRun hasher routing h').handle b).2 = .reserveForReap (some c))
    (heq : h ++ .command a :: l = h' ++ .command b :: l') : h = h' := by
  -- the cells only grow, and the grant adds one
  have key : ∀ {h h' m : List OwnerEvent} {a b : OwnerCommand},
      ((ownerRun hasher routing h).handle a).2 = .reserveForReap (some c) →
      ((ownerRun hasher routing h').handle b).2 = .reserveForReap (some c) →
      h' ≠ h ++ .command a :: m := by
    rintro h h' m a b ha hb rfl
    have hstep := (ownerRun hasher routing h).handle_step a
    rw [ha] at hstep
    obtain ⟨addr, -, -, -, -, -, hc, -, -, -, ht⟩ := hstep.granted
    have hstep' := (ownerRun hasher routing (h ++ .command a :: m)).handle_step b
    rw [hb] at hstep'
    obtain ⟨-, -, -, -, -, -, hc', -⟩ := hstep'.granted
    have hone : ((ownerRun hasher routing h).step (.command a)).tables.cells.length = c + 1 := by
      have hlen := congrArg (fun t : Tables => t.cells.length) ht
      rw [hc]
      exact hlen.trans length_append
    have hmono := Run.exec_mono (C := fun _ _ => True)
      (R := fun s s' : PeerRegistryOwner => s.tables.cells.length ≤ s'.tables.cells.length)
      (fun _ => Nat.le_refl _) (fun _ _ _ => Nat.le_trans)
      (fun s ev _ => s.cells_length_le_step ev)
      (Run.meets_of_forall_mem (fun _ e (_ : e ∈ m) => trivial)
        ((ownerRun hasher routing h).step (.command a)))
    have hrun : Run.exec step ((ownerRun hasher routing h).step (.command a)) m
        = ownerRun hasher routing (h ++ .command a :: m) := by
      rw [ownerRun, ownerRun, Run.exec_append, Run.exec_cons]
    rw [hrun, ← hc', hone] at hmono
    exact absurd hmono (Nat.not_succ_le_self c)
  rcases append_eq_append_iff.mp heq with ⟨m, rfl, hm⟩ | ⟨m, rfl, hm⟩
  · rcases m with _ | ⟨e, m⟩
    · exact (append_nil h).symm
    · obtain rfl : OwnerEvent.command a = e := (cons.inj hm).1
      exact absurd rfl (key ha hb)
  · rcases m with _ | ⟨e, m⟩
    · exact append_nil h'
    · obtain rfl : OwnerEvent.command b = e := (cons.inj hm).1
      exact absurd rfl (key hb ha)

/-! ### The candidate -/

/-- A candidate with a resolved identity: the peer, its address, the instant
evidence has to be newer than, and the ownership and pin its selection saw. -/
structure SweepCandidate where
  peer : PeerId
  addr : SocketAddr
  evidenceBefore : Instant
  expectedOwnership : Option OwnershipToken
  expectedPin : Option PeerId

namespace SweepCandidate

variable (cand : SweepCandidate)

def reserveForReap : OwnerCommand :=
  .reserveForReap cand.addr cand.evidenceBefore cand.expectedOwnership cand.expectedPin
    (some cand.peer)

def hasNewerLivenessEvidence : OwnerCommand :=
  .hasNewerLivenessEvidence cand.addr cand.evidenceBefore

def releaseDeadPeer : OwnerCommand :=
  .releaseDeadPeer cand.peer cand.addr cand.evidenceBefore

/-- What a dead peer's release comes to once the reap has committed. -/
def releaseOutcome (s : PeerRegistryOwner) : DeadPeerReleaseOutcome :=
  if s.operatorPinned.get cand.addr = none ∧ s.ownedBy cand.addr cand.peer = true then
    .released (s.commitSeq + 1) else .notApplicable

end SweepCandidate

/-- What a sweep destroys, in its order. -/
inductive DestructiveStep
  | peerCapabilities
  | clockState
  | actors
  | ownership
  deriving DecidableEq

/-- Where the candidate is: which reply it waits for, and the cell of the
guard it holds.  An outcome is known once the reap has gone through. -/
inductive SweepPhase
  | selected
  | reserving (request : ℕ)
  | reserved (cell : CellId)
  | checking (cell : CellId) (request : ℕ)
  | cleared (cell : CellId)
  | committed (cell : CellId)
  | sideTablesCleared (cell : CellId)
  | actorsRemoved (cell : CellId)
  | releasingOwnership (cell : CellId) (request : ℕ)
  | releasing (cell : CellId) (outcome : Option DeadPeerReleaseOutcome)
  | finished (outcome : Option DeadPeerReleaseOutcome)
  deriving DecidableEq

open SweepPhase

namespace SweepPhase

/-- The request whose reply the candidate waits for. -/
def request : SweepPhase → Option ℕ
  | .reserving r | .checking _ r | .releasingOwnership _ r => some r
  | _ => none

/-- The guard the candidate holds. -/
def guard : SweepPhase → Option CellId
  | .reserved c | .checking c _ | .cleared c | .committed c | .sideTablesCleared c
  | .actorsRemoved c | .releasingOwnership c _ | .releasing c _ => some c
  | _ => none

/-- The guard of a candidate that has committed and not yet asked for the
release of the peer's ownership. -/
def committing : SweepPhase → Option CellId
  | .committed c | .sideTablesCleared c | .actorsRemoved c => some c
  | _ => none

/-- The outcome of the reap. -/
def outcome : SweepPhase → Option DeadPeerReleaseOutcome
  | .releasing _ o | .finished o => o
  | _ => none

/-- Only the candidate takes this step: it uses the candidate's guard, or
stands at the receiving end of its request. -/
def owns (phase : SweepPhase) : ReapEvent → Bool
  | .cancel r | .receive r => phase.request = some r
  | .release c | .drop c | .tryConsume c => phase.guard = some c
  | .submit .. | .poll => false

end SweepPhase

/-- The system and one candidate. -/
structure SweepSystem where
  sys : ReapSystem
  phase : SweepPhase
  destroyed : List DestructiveStep

open SweepSystem

inductive SweepEvent
  | other (e : ReapEvent)
  | candidate

namespace SweepSystem

variable (cand : SweepCandidate) (s : SweepSystem)

/-- Send a command and wait for its reply, when the mailbox has room. -/
def ask (cmd : OwnerCommand) (ordinary : ∀ addr, cmd ≠ .releaseReapReservation addr)
    (next : ℕ → SweepPhase) : SweepSystem :=
  if s.sys.mailbox.length < ownerMailboxCapacity then
    { s with sys := s.sys.step (.submit cmd ordinary), phase := next s.sys.requests }
  else s

/-- The candidate's next step. -/
def advance : SweepSystem :=
  match s.phase with
  | .selected => s.ask cand.reserveForReap nofun .reserving
  | .reserving r =>
    match s.sys.replies r with
    | some (.reserveForReap (some c)) =>
      { s with sys := s.sys.step (.receive r), phase := .reserved c }
    | some _ => { s with phase := .finished none }
    | none => s
  | .reserved c => s.ask cand.hasNewerLivenessEvidence nofun (.checking c)
  | .checking c r =>
    match s.sys.replies r with
    | some (.answer false) => { s with phase := .cleared c }
    | some _ => { s with phase := .releasing c none }
    | none => s
  | .cleared c =>
    { s with
      sys := s.sys.step (.tryConsume c)
      phase := if (s.sys.owner.tryConsume c).2 then .committed c else .releasing c none }
  | .committed c =>
    { s with
      phase := .sideTablesCleared c
      destroyed := s.destroyed ++ [.peerCapabilities, .clockState] }
  | .sideTablesCleared c =>
    { s with phase := .actorsRemoved c, destroyed := s.destroyed ++ [.actors] }
  | .actorsRemoved c => s.ask cand.releaseDeadPeer nofun (.releasingOwnership c)
  | .releasingOwnership c r =>
    match s.sys.replies r with
    | some (.releaseDeadPeer outcome) =>
      { s with phase := .releasing c (some outcome), destroyed := s.destroyed ++ [.ownership] }
    | _ => s
  | .releasing c outcome =>
    { s with sys := s.sys.step (.release c), phase := .finished outcome }
  | .finished _ => s

def step : SweepEvent → SweepSystem
  | .other e => if s.phase.owns e then s else { s with sys := s.sys.step e }
  | .candidate => s.advance cand

/-- A candidate is selected after `prior`; then `events` happen. -/
def run (hasher : SocketAddr → UInt64) (routing : Option (List RoutingCall))
    (prior : List ReapEvent) (events : List SweepEvent) : SweepSystem :=
  Run.exec (step cand) ⟨ReapSystem.run hasher routing prior, .selected, []⟩ events

/-- The candidate's reservation is granted and its commit point not reached. -/
def pending : Option CellId :=
  match s.phase with
  | .reserving r =>
    match s.sys.replies r with
    | some (.reserveForReap granted) => granted
    | _ => none
  | .reserved c | .checking c _ | .cleared c => some c
  | _ => none

end SweepSystem

/-! ### What the candidate relies on -/

section

variable (hasher : SocketAddr → UInt64) (routing : Option (List RoutingCall))
variable (cand : SweepCandidate)

namespace ReapSystem

/-- `c` is a guard for the candidate's address, in phase `phase`. -/
def Holds (s : ReapSystem) (c : CellId) (phase : GuardPhase) : Prop :=
  ∃ g, s.guards[c]? = some g ∧ g.addr = cand.addr ∧ g.phase = phase

/-- The event is not the business of a guard in this phase. -/
def Leaves (c : CellId) (phase : GuardPhase) (e : ReapEvent) : Prop :=
  (phase = .held → e ≠ .release c ∧ e ≠ .drop c ∧ e ≠ .tryConsume c) ∧
    ∀ r, phase = .inReply r → e ≠ .cancel r ∧ e ≠ .receive r

/-- The reservation `c` was granted to the candidate after `h₀`, its guard is
there, and `log` is what happened to the owner since. -/
structure Pending (s : ReapSystem) (c : CellId) (phase : GuardPhase)
    (h₀ log : List OwnerEvent) : Prop where
  live : phase = .held ∨ ∃ r, phase = .inReply r
  holds : s.Holds cand c phase
  history : s.history = h₀ ++ .command cand.reserveForReap :: log
  granted : ((ownerRun hasher routing h₀).handle cand.reserveForReap).2
    = .reserveForReap (some c)
  flag : FlagSince s.owner.tables c cand.addr log

/-- The owner saw no newer evidence at a point after the grant. -/
def Checked (s : ReapSystem) (c : CellId) : Prop :=
  ∃ h₀ h₁ h₂, s.Pending hasher routing cand c .held h₀
      (h₁ ++ .command cand.hasNewerLivenessEvidence :: h₂) ∧
    ¬ (ownerRun hasher routing (h₀ ++ .command cand.reserveForReap :: h₁)).tables.Newer
      cand.addr cand.evidenceBefore

/-- The candidate holds the guard and has committed its reservation. -/
structure Committed (s : ReapSystem) (c : CellId) : Prop where
  holds : s.Holds cand c .held
  flag : s.owner.tables.cells[c]? = some .committed
  consumed : .tryConsume c ∈ s.history

/-- The owner handled the candidate's release of the dead peer after the
commit point, with this outcome. -/
def Reaped (s : ReapSystem) (outcome : DeadPeerReleaseOutcome) : Prop :=
  ∃ c h h', s.history = h ++ .command cand.releaseDeadPeer :: h' ∧ .tryConsume c ∈ h ∧
    outcome = cand.releaseOutcome (ownerRun hasher routing h)

end ReapSystem

open ReapSystem

/-- What holds in each phase of the candidate. -/
inductive SweepSystem.Relies (s : ReapSystem) : SweepPhase → List DestructiveStep → Prop
  | selected : Relies s .selected []
  | awaitsGrant {r} (h : s.Awaits r cand.reserveForReap) : Relies s (.reserving r) []
  | refused {r reply} (hr : s.replies r = some reply)
      (hno : ∀ c, reply ≠ .reserveForReap (some c)) : Relies s (.reserving r) []
  | granted {r c h₀ log} (hr : s.replies r = some (.reserveForReap (some c)))
      (h : s.Pending hasher routing cand c (.inReply r) h₀ log) : Relies s (.reserving r) []
  | reserved {c h₀ log} (h : s.Pending hasher routing cand c .held h₀ log) :
      Relies s (.reserved c) []
  | awaitsVerdict {c r h₀ log} (h : s.Pending hasher routing cand c .held h₀ log)
      (hw : s.Awaits r cand.hasNewerLivenessEvidence) : Relies s (.checking c r) []
  | newer {c r h₀ log reply} (h : s.Pending hasher routing cand c .held h₀ log)
      (hr : s.replies r = some reply) (hno : reply ≠ .answer false) : Relies s (.checking c r) []
  | notNewer {c r} (h : s.Checked hasher routing cand c) (hr : s.replies r = some (.answer false)) :
      Relies s (.checking c r) []
  | cleared {c} (h : s.Checked hasher routing cand c) : Relies s (.cleared c) []
  | committed {c} (h : s.Committed cand c) : Relies s (.committed c) []
  | sideTables {c destroyed} (h : s.Committed cand c) :
      Relies s (.sideTablesCleared c) destroyed
  | actors {c destroyed} (h : s.Committed cand c) : Relies s (.actorsRemoved c) destroyed
  | awaitsRelease {c r destroyed} (h : s.Committed cand c)
      (hw : s.Awaits r cand.releaseDeadPeer) : Relies s (.releasingOwnership c r) destroyed
  | released {c r outcome destroyed} (hr : s.replies r = some (.releaseDeadPeer outcome))
      (h : s.Reaped hasher routing cand outcome) : Relies s (.releasingOwnership c r) destroyed
  | abandoning {c} : Relies s (.releasing c none) []
  | reaping {c outcome destroyed} (h : s.Reaped hasher routing cand outcome) :
      Relies s (.releasing c (some outcome)) destroyed
  | abandoned : Relies s (.finished none) []
  | reaped {outcome destroyed} (h : s.Reaped hasher routing cand outcome) :
      Relies s (.finished (some outcome)) destroyed

/-- The invariant of a sweep. -/
structure SweepSystem.Inv (s : SweepSystem) : Prop where
  guarded : s.sys.Guarded
  numbered : s.sys.Numbered
  recorded : s.sys.owner = ownerRun hasher routing s.sys.history
  relies : SweepSystem.Relies hasher routing cand s.sys s.phase s.destroyed

variable {e : ReapEvent} {ordinary : ∀ addr, cmd ≠ .releaseReapReservation addr}
  {outcome : DeadPeerReleaseOutcome}

namespace ReapSystem

variable {hasher routing cand} {s : ReapSystem} {c : CellId} {phase : GuardPhase}
  {h₀ log : List OwnerEvent}

lemma live_of_pending {g : ReapReservation} (h : g.phase = phase)
    (hlive : phase = .held ∨ ∃ r, phase = .inReply r) : g.live = true := by
  rw [ReapReservation.live, h]
  rcases hlive with rfl | ⟨r, rfl⟩ <;> rfl

section

variable (h : s.Holds cand c phase)
  (hs : s.Guarded)
  (hlive : phase = .held ∨ ∃ r, phase = .inReply r)
include h hs hlive

lemma Holds.reserved : s.owner.tables.reserved cand.addr = some c := by
  obtain ⟨g, hg, haddr, hph⟩ := h
  rw [← haddr]
  exact (hs.reserved_iff hg).mpr (Or.inl (live_of_pending hph hlive))

lemma Holds.step (he : Leaves c phase e) : (s.step e).Holds cand c phase := by
  obtain ⟨g, hg, haddr, hph⟩ := h
  refine ⟨g, guards_step hs hg (live_of_pending hph hlive) ?_ ?_, haddr, hph⟩
  · intro hheld
    obtain ⟨h1, h2, -⟩ := he.1 (hph.symm.trans hheld)
    exact ⟨h1, h2⟩
  · intro r hr
    exact he.2 r (hph.symm.trans hr)

end

lemma Holds.not_consumed (h : s.Holds cand c phase) (he : Leaves c phase e)
    (hev : ∀ c, ev = .tryConsume c → e = .tryConsume c ∧ s.phaseOf c = some .held) :
    ev ≠ .tryConsume c := by
  intro heq
  obtain ⟨he', hheld⟩ := hev c heq
  obtain ⟨g, hg, -, hph⟩ := h
  rw [phaseOf, hg, map_some, some_inj, hph] at hheld
  exact (he.1 hheld).2.2 he'

lemma Pending.step (h : s.Pending hasher routing cand c phase h₀ log) (hs : s.Guarded)
    (he : Leaves c phase e) :
    ∃ more, (s.step e).Pending hasher routing cand c phase h₀ (log ++ more) := by
  have hholds := h.holds.step hs h.live he
  rcases s.owner_step_cases e with ⟨hown, hhist⟩ | ⟨ev, hown, hhist, hcons, -⟩
  · refine ⟨[], h.live, hholds, ?_, h.granted, ?_⟩
    · rw [hhist, append_nil]
      exact h.history
    · rw [hown, append_nil]
      exact h.flag
  · refine ⟨[ev], h.live, hholds, ?_, h.granted, ?_⟩
    · rw [hhist, h.history]
      simp
    · rw [hown]
      exact flagSince_step h.flag (h.holds.reserved hs h.live) (h.holds.not_consumed he hcons)

lemma Checked.step (h : s.Checked hasher routing cand c) (hs : s.Guarded)
    (he : Leaves c .held e) : (s.step e).Checked hasher routing cand c := by
  obtain ⟨h₀, h₁, h₂, hp, hnew⟩ := h
  obtain ⟨more, hmore⟩ := hp.step hs he
  refine ⟨h₀, h₁, h₂ ++ more, ?_, hnew⟩
  rw [append_assoc, cons_append] at hmore
  exact hmore

lemma Committed.step (h : s.Committed cand c) (hs : s.Guarded) (he : Leaves c .held e) :
    (s.step e).Committed cand c := by
  have hholds := h.holds.step hs (Or.inl rfl) he
  rcases s.owner_step_cases e with ⟨hown, hhist⟩ | ⟨ev, hown, hhist, -⟩
  · exact ⟨hholds, hown ▸ h.flag, hhist ▸ h.consumed⟩
  · refine ⟨hholds, ?_, ?_⟩
    · rw [hown]
      exact cell_step h.flag (by simp)
    · rw [hhist]
      exact mem_append_left _ h.consumed

lemma Reaped.step (h : s.Reaped hasher routing cand outcome) (e : ReapEvent) :
    (s.step e).Reaped hasher routing cand outcome := by
  obtain ⟨c, l, l', hl, hout⟩ := h
  rcases s.owner_step_cases e with ⟨-, hhist⟩ | ⟨ev, -, hhist, -⟩
  · exact ⟨c, l, l', hhist.trans hl, hout⟩
  · refine ⟨c, l, l' ++ [ev], ?_, hout⟩
    rw [hhist, hl]
    simp

lemma Committed.releaseDeadPeer (h : s.Committed cand c) (hs : s.Guarded) :
    (s.owner.handle cand.releaseDeadPeer).2 = .releaseDeadPeer (cand.releaseOutcome s.owner) := by
  have hreap : s.owner.tables.ReapCommitted cand.addr :=
    ⟨c, h.holds.reserved hs (Or.inl rfl), h.flag⟩
  have hown : s.owner.ownedBy cand.addr cand.peer = true ↔
      s.owner.tables.OwnedBy cand.addr cand.peer := s.owner.ownedBy_eq_true
  have hstep := s.owner.handle_step cand.releaseDeadPeer
  generalize (s.owner.handle cand.releaseDeadPeer).1.tables = t' at hstep
  generalize (s.owner.handle cand.releaseDeadPeer).2 = reply at hstep ⊢
  rw [SweepCandidate.releaseOutcome]
  cases hstep with
  | unchanged hun => cases reply <;> exact hun.elim
  -- the reap has committed, so the evidence is not looked at
  | provenAlive hno => exact absurd hreap hno
  | purge _ hnot =>
    rw [if_neg fun hc => hnot hc.1 (hown.mp hc.2)]
  | releaseDead _ hpin howned =>
    rw [if_pos ⟨hpin, hown.mpr howned⟩]
    rfl

end ReapSystem

/-! ### The steps of the others -/

lemma SweepPhase.leaves_guard {phase : SweepPhase} {c : CellId} (hc : phase.guard = some c)
    (he : phase.owns e = false) : Leaves c .held e := by
  have hno : ∀ {e'}, phase.owns e' = true → e ≠ e' := by
    rintro e' ho rfl
    cases he.symm.trans ho
  refine ⟨fun _ => ⟨hno ?_, hno ?_, hno ?_⟩, fun r hr => absurd hr (by simp)⟩ <;>
    exact decide_eq_true hc

lemma SweepPhase.leaves_reply {r : ℕ} {c : CellId}
    (he : (reserving r).owns e = false) : Leaves c (.inReply r) e := by
  have hno : ∀ {e'}, (reserving r).owns e' = true → e ≠ e' := by
    rintro e' ho rfl
    cases he.symm.trans ho
  refine ⟨fun hh => absurd hh (by simp), fun r' hr => ?_⟩
  obtain rfl : r = r' := by injection hr
  exact ⟨hno (decide_eq_true rfl), hno (decide_eq_true rfl)⟩

lemma SweepPhase.ne_cancel {phase : SweepPhase} {r : ℕ} (hr : phase.request = some r)
    (he : phase.owns e = false) : e ≠ .cancel r := by
  rintro rfl
  cases he.symm.trans (decide_eq_true hr)

namespace SweepSystem.Relies

open ReapSystem

variable {hasher routing cand} {s : ReapSystem} {r : ℕ} {c : CellId}

variable {req : OwnerRequest}

section

variable (hs : s.Guarded)
  (hrec : s.owner = ownerRun hasher routing s.history)
  (hcan : s.cancelled r = false)
include hs hrec hcan

variable (rest : List OwnerRequest)

lemma of_grant (hid : req.id = r) (hcmd : req.cmd = cand.reserveForReap) :
    Relies hasher routing cand ((s.popMailbox rest).handleRequest req) (.reserving r) [] := by
  subst hid
  obtain ⟨hhist, hrep⟩ := handled_frame rest hcan
  by_cases hgrant : ∃ c, (s.owner.handle req.cmd).2 = .reserveForReap (some c)
  · obtain ⟨c, hc⟩ := hgrant
    have hfr := (s.popMailbox rest).handleRequest_frame req
    obtain ⟨g, hph, ⟨before, nodeId, hcmd'⟩, hlen, -, -, -, ht, heq⟩ :=
      serve_of_granted (s := s.popMailbox rest) hc
    have haddr : g.addr = cand.addr := by
      have := hcmd'.symm.trans hcmd
      injection this
    have hguard : ((s.popMailbox rest).handleRequest req).guards[c]? = some g := by
      have hcan' : ¬ (s.popMailbox rest).cancelled req.id = true := by
        show ¬ s.cancelled req.id = true
        rw [hcan]
        simp
      have hlast : c = s.guards.length := hlen.trans hs.aligned.symm
      simp only [handleRequest, if_neg hcan']
      rw [heq, hlast]
      exact getElem?_concat_length
    refine .granted (hrep.trans (congrArg some hc)) ⟨Or.inr ⟨_, rfl⟩, ⟨g, hguard, haddr, hph⟩,
      hhist.trans (by rw [hcmd]), ?_, Or.inr ⟨?_, by simp⟩⟩
    · rw [← hrec, ← hcmd]
      exact hc
    · -- the flag of a new reservation is pending
      rw [hfr.1, ht, hlen]
      exact getElem?_concat_length
  · exact .refused hrep fun c hc => hgrant ⟨c, hc⟩

lemma of_verdict {rest : List OwnerRequest} (hid : req.id = r)
    (hcmd : req.cmd = cand.hasNewerLivenessEvidence) {h₀ log : List OwnerEvent}
    (hp : s.Pending hasher routing cand c .held h₀ log) (he : Leaves c .held e)
    (heq : s.step e = (s.popMailbox rest).handleRequest req) :
    Relies hasher routing cand (s.step e) (.checking c r) [] := by
  subst hid
  obtain ⟨hhist, hrep⟩ := handled_frame rest hcan
  rw [← heq] at hhist hrep
  obtain ⟨more, hmore⟩ := hp.step hs he
  by_cases hfalse : (s.owner.handle req.cmd).2 = .answer false
  · rw [hfalse] at hrep
    have hlog : log ++ more = log ++ .command cand.hasNewerLivenessEvidence :: [] := by
      have hh := hmore.history.symm.trans hhist
      rw [hp.history, hcmd, append_assoc, cons_append] at hh
      exact (cons.inj (append_cancel_left hh)).2
    rw [hlog] at hmore
    refine .notNewer ⟨h₀, log, [], hmore, fun hnew => ?_⟩ hrep
    rw [← hp.history, ← hrec, ← newer_iff] at hnew
    rw [hcmd] at hfalse
    cases (OwnerReply.answer.inj hfalse).symm.trans hnew
  · exact .newer hmore hrep hfalse

lemma of_release (hid : req.id = r) (hcmd : req.cmd = cand.releaseDeadPeer)
    (hc : s.Committed cand c) (destroyed : List DestructiveStep) :
    Relies hasher routing cand ((s.popMailbox rest).handleRequest req) (.releasingOwnership c r)
      destroyed := by
  subst hid
  obtain ⟨hhist, hrep⟩ := handled_frame rest hcan
  rw [hcmd, hc.releaseDeadPeer hs] at hrep
  refine .released hrep ⟨c, s.history, [], ?_, hc.consumed, by rw [← hrec]⟩
  rw [hhist, hcmd]

end

lemma other {phase : SweepPhase} {destroyed : List DestructiveStep}
    (h : Relies hasher routing cand s phase destroyed) (hs : s.Guarded) (hn : s.Numbered)
    (hrec : s.owner = ownerRun hasher routing s.history) (he : phase.owns e = false) :
    Relies hasher routing cand (s.step e) phase destroyed := by
  cases h with
  | selected => exact .selected
  | awaitsGrant hw =>
    -- the owner handles the request now, or it goes on waiting
    rcases awaits_step hw (ne_cancel rfl he) with hw' | ⟨req, rest, hid, hcmd, -, heq⟩
    · exact .awaitsGrant hw'
    · rw [heq]
      exact of_grant hs hrec hw.1 rest hid hcmd
  | refused hr hno => exact .refused (replies_step hn hr e) hno
  | granted hr hp =>
    obtain ⟨more, hmore⟩ := hp.step hs (leaves_reply he)
    exact .granted (replies_step hn hr e) hmore
  | reserved hp =>
    obtain ⟨more, hmore⟩ := hp.step hs (leaves_guard rfl he)
    exact .reserved hmore
  | awaitsVerdict hp hw =>
    have hleaves : Leaves _ .held e := leaves_guard rfl he
    rcases awaits_step hw (ne_cancel rfl he) with hw' | ⟨req, rest, hid, hcmd, -, heq⟩
    · obtain ⟨more, hmore⟩ := hp.step hs hleaves
      exact .awaitsVerdict hmore hw'
    · exact of_verdict hs hrec hw.1 hid hcmd hp hleaves heq
  | newer hp hr hno =>
    obtain ⟨more, hmore⟩ := hp.step hs (leaves_guard rfl he)
    exact .newer hmore (replies_step hn hr e) hno
  | notNewer hc hr =>
    exact .notNewer (hc.step hs (leaves_guard rfl he)) (replies_step hn hr e)
  | cleared hc => exact .cleared (hc.step hs (leaves_guard rfl he))
  | committed hc => exact .committed (hc.step hs (leaves_guard rfl he))
  | sideTables hc => exact .sideTables (hc.step hs (leaves_guard rfl he))
  | actors hc => exact .actors (hc.step hs (leaves_guard rfl he))
  | awaitsRelease hc hw =>
    rcases awaits_step hw (ne_cancel rfl he) with hw' | ⟨req, rest, hid, hcmd, -, heq⟩
    · exact .awaitsRelease (hc.step hs (leaves_guard rfl he)) hw'
    · rw [heq]
      exact of_release hs hrec hw.1 rest hid hcmd hc _
  | released hr hreap => exact .released (replies_step hn hr e) (hreap.step e)
  | abandoning => exact .abandoning
  | reaping hreap => exact .reaping (hreap.step e)
  | abandoned => exact .abandoned
  | reaped hreap => exact .reaped (hreap.step e)

end SweepSystem.Relies

/-! ### The steps of the candidate -/

namespace ReapSystem

variable {hasher routing cand} {s : ReapSystem} {c : CellId} {r : ℕ}

variable {h₀ log : List OwnerEvent} {phase : GuardPhase}

lemma leaves_submit : Leaves c phase (.submit cmd ordinary) :=
  ⟨fun _ => ⟨by simp, by simp, by simp⟩, fun _ _ => ⟨by simp, by simp⟩⟩

lemma awaits_submit (hn : s.Numbered) (hroom : s.mailbox.length < ownerMailboxCapacity) :
    (s.step (.submit cmd ordinary)).Awaits s.requests cmd := by
  have hcan : s.cancelled s.requests = false := by
    by_contra hc
    exact absurd (hn.uncancelled _ (Bool.not_eq_false _ ▸ hc)) (Nat.lt_irrefl _)
  rw [step, if_pos hroom]
  exact ⟨hcan, _, mem_append_right _ mem_cons_self, rfl, rfl⟩

lemma Holds.phaseOf (h : s.Holds cand c phase) : s.phaseOf c = some phase := by
  obtain ⟨g, hg, -, hph⟩ := h
  rw [ReapSystem.phaseOf, hg, map_some, hph]

lemma Pending.receive (h : s.Pending hasher routing cand c (.inReply r) h₀ log)
    (hr : s.replies r = some (.reserveForReap (some c))) :
    (s.step (.receive r)).Pending hasher routing cand c .held h₀ log := by
  have heq : s.step (.receive r) = s.setPhase c .held := by
    simp only [ReapSystem.step, hr, ReapSystem.receive, inReply, if_pos h.holds.phaseOf]
  have honly := s.guardsOnly_setPhase c .held
  rw [heq]
  refine ⟨Or.inl rfl, ?_, honly.history.trans h.history, h.granted, ?_⟩
  · obtain ⟨g, hg, haddr, -⟩ := h.holds
    refine ⟨{ g with phase := .held }, ?_, haddr, rfl⟩
    rw [setPhase, getElem?_modify, hg]
    simp
  · rw [honly.owner]
    exact h.flag

lemma Pending.tryConsume (h : s.Pending hasher routing cand c .held h₀ log)
    (hc : (s.owner.tryConsume c).2 = true) : (s.step (.tryConsume c)).Committed cand c := by
  rw [ReapSystem.step, if_pos h.holds.phaseOf]
  refine ⟨h.holds, ?_, mem_append_right _ mem_cons_self⟩
  exact cell_tryConsume_self (tryConsume_eq_true.mp hc)

end ReapSystem

namespace SweepSystem

variable {hasher routing cand} {s : SweepSystem}

lemma Inv.system (h : s.Inv hasher routing cand) (e : ReapEvent) :
    (s.sys.step e).Guarded ∧ (s.sys.step e).Numbered ∧
      (s.sys.step e).owner = ownerRun hasher routing (s.sys.step e).history :=
  ⟨h.guarded.step e, h.numbered.step e, owner_eq_ownerRun hasher routing h.recorded e⟩

variable {c : CellId} {next : ℕ → SweepPhase}

section

variable (h : s.Inv hasher routing cand)
include h

lemma Inv.ask (ordinary : ∀ addr, cmd ≠ .releaseReapReservation addr)
    (hnext : (s.sys.step (.submit cmd ordinary)).Awaits s.sys.requests cmd →
      Relies hasher routing cand (s.sys.step (.submit cmd ordinary)) (next s.sys.requests)
        s.destroyed) :
    (s.ask cmd ordinary next).Inv hasher routing cand := by
  rw [SweepSystem.ask]
  split_ifs with hroom
  · obtain ⟨hg, hn, hrec⟩ := h.system (.submit cmd ordinary)
    exact ⟨hg, hn, hrec, hnext (awaits_submit h.numbered hroom)⟩
  · exact h

lemma Inv.advance : (s.advance cand).Inv hasher routing cand := by
  obtain ⟨sys, phase, destroyed⟩ := s
  have hg : sys.Guarded := h.guarded
  have hn : sys.Numbered := h.numbered
  have hrec : sys.owner = ownerRun hasher routing sys.history := h.recorded
  have hrel : Relies hasher routing cand sys phase destroyed := h.relies
  cases hrel with
  | selected => exact h.ask _ .awaitsGrant
  | @awaitsGrant r hw =>
    have hr : sys.replies r = none := hw.unanswered hn
    simp only [advance, hr]
    exact h
  | @refused r reply hr =>
    have heq : advance cand ⟨sys, .reserving r, []⟩ = ⟨sys, .finished none, []⟩ := by
      simp [advance, hr]
    rw [heq]
    exact ⟨hg, hn, hrec, .abandoned⟩
  | granted hr hp =>
    obtain ⟨hg', hn', hrec'⟩ := h.system (.receive _)
    simp only [advance, hr]
    exact ⟨hg', hn', hrec', .reserved (hp.receive hr)⟩
  | reserved hp =>
    refine h.ask _ fun hw => ?_
    obtain ⟨more, hmore⟩ := hp.step hg leaves_submit
    exact .awaitsVerdict hmore hw
  | @awaitsVerdict c r _ _ hp hw =>
    have hr : sys.replies r = none := hw.unanswered hn
    simp only [advance, hr]
    exact h
  | @newer c r _ _ reply hp hr =>
    have heq : advance cand ⟨sys, .checking c r, []⟩ = ⟨sys, .releasing c none, []⟩ := by
      simp [advance, hr]
    rw [heq]
    exact ⟨hg, hn, hrec, .abandoning⟩
  | notNewer hc hr =>
    simp only [advance, hr]
    exact ⟨hg, hn, hrec, .cleared hc⟩
  | @cleared c hc =>
    obtain ⟨hg', hn', hrec'⟩ := h.system (.tryConsume c)
    refine ⟨hg', hn', hrec', ?_⟩
    simp only [advance]
    -- the compare-and-swap decides whether the reap commits
    split_ifs with hcons
    · obtain ⟨_, _, _, hp, -⟩ := hc
      exact .committed (hp.tryConsume hcons)
    · exact .abandoning
  | committed hc => exact ⟨hg, hn, hrec, .sideTables hc⟩
  | sideTables hc => exact ⟨hg, hn, hrec, .actors hc⟩
  | actors hc =>
    exact h.ask _ fun hw => .awaitsRelease (hc.step hg leaves_submit) hw
  | @awaitsRelease c r _ hc hw =>
    have hr : sys.replies r = none := hw.unanswered hn
    simp only [advance, hr]
    exact h
  | released hr hreap =>
    simp only [advance, hr]
    exact ⟨hg, hn, hrec, .reaping hreap⟩
  | @abandoning c =>
    obtain ⟨hg', hn', hrec'⟩ := h.system (.release c)
    exact ⟨hg', hn', hrec', .abandoned⟩
  | @reaping c outcome _ hreap =>
    obtain ⟨hg', hn', hrec'⟩ := h.system (.release c)
    exact ⟨hg', hn', hrec', .reaped (hreap.step _)⟩
  | abandoned | reaped => exact h

lemma Inv.step (e : SweepEvent) : (s.step cand e).Inv hasher routing cand := by
  cases e with
  | other e =>
    rw [SweepSystem.step]
    split_ifs with ho
    · exact h
    · obtain ⟨hg, hn, hrec⟩ := h.system e
      exact ⟨hg, hn, hrec, h.relies.other h.guarded h.numbered h.recorded (by simpa using ho)⟩
  | candidate => exact h.advance

end

lemma inv_run {prior : List ReapEvent} {events : List SweepEvent} :
    (run cand hasher routing prior events).Inv hasher routing cand := by
  have hsta : Inv hasher routing cand
      ⟨ReapSystem.run hasher routing prior, .selected, []⟩ := by
    refine ⟨guarded_run hasher routing prior, ?_, ?_, .selected⟩
    · exact Run.exec_invariant (P := Numbered) (fun _ e h => h.step e)
        (numbered_start hasher routing) prior
    · exact Run.exec_invariant
        (P := fun s : ReapSystem => s.owner = ownerRun hasher routing s.history)
        (fun _ e h => ReapSystem.owner_eq_ownerRun hasher routing h e) rfl prior
  exact Run.exec_invariant (P := Inv hasher routing cand) (fun _ e h => h.step e)
    hsta events

/-! ### A candidate whose reservation was invalidated -/

/-- The reservation `c` is invalidated, or the candidate has given up; nothing
was destroyed. -/
def Doomed (c : CellId) (s : SweepSystem) : Prop :=
  s.destroyed = [] ∧
    (s.pending = some c ∧ s.sys.owner.tables.cells[c]? = some .invalidated ∨
      (∃ c', s.phase = .releasing c' none) ∨ s.phase = .finished none)

lemma invalidated_step {sys : ReapSystem} (h : sys.owner.tables.cells[c]? = some .invalidated) :
    (sys.step e).owner.tables.cells[c]? = some .invalidated := by
  rcases sys.owner_step_cases e with ⟨hown, -⟩ | ⟨ev, hown, -⟩
  · rw [hown]
    exact h
  · rw [hown]
    exact cell_step h (by simp)

lemma Doomed.ask (h : Doomed c s) (hinv : s.sys.owner.tables.cells[c]? = some .invalidated)
    (hnext : ∀ sys r destroyed, (⟨sys, next r, destroyed⟩ : SweepSystem).pending = some c) :
    Doomed c (s.ask cmd ordinary next) := by
  rw [SweepSystem.ask]
  split_ifs
  · exact ⟨h.1, Or.inl ⟨hnext _ _ _, invalidated_step hinv⟩⟩
  · exact h

lemma Doomed.advance (h : Doomed c s) : Doomed c (s.advance cand) := by
  obtain ⟨sys, phase, destroyed⟩ := s
  obtain rfl : destroyed = [] := h.1
  rcases h.2 with ⟨hpend, hinv⟩ | ⟨c', hph⟩ | hph
  · cases phase with
    | reserving r =>
      rcases hr : sys.replies r with _ | reply
      · simp only [pending, hr] at hpend
        simp at hpend
      · cases reply with
        | reserveForReap =>
          simp only [pending, hr] at hpend
          subst hpend
          simp only [advance, hr]
          exact ⟨rfl, Or.inl ⟨rfl, invalidated_step hinv⟩⟩
        | _ =>
          simp only [pending, hr] at hpend
          simp at hpend
    | reserved c' =>
      obtain rfl : c' = c := some.inj hpend
      exact h.ask hinv fun _ _ _ => rfl
    | checking c' =>
      obtain rfl : c' = c := some.inj hpend
      simp only [advance]
      split
      · exact ⟨rfl, Or.inl ⟨rfl, hinv⟩⟩
      · exact ⟨rfl, Or.inr (Or.inl ⟨c', rfl⟩)⟩
      · exact h
    | cleared c' =>
      obtain rfl : c' = c := some.inj hpend
      -- the flag is invalidated, so the swap fails
      have hfalse : ¬ (sys.owner.tryConsume c').2 = true := by
        rw [tryConsume_eq_true]
        intro hp
        cases hinv.symm.trans hp
      simp only [advance, if_neg hfalse]
      exact ⟨rfl, Or.inr (Or.inl ⟨c', rfl⟩)⟩
    | _ => simp [pending] at hpend
  · obtain rfl : phase = .releasing c' none := hph
    exact ⟨rfl, Or.inr (Or.inr rfl)⟩
  · obtain rfl : phase = .finished none := hph
    exact h

/-- Nothing is destroyed after the reservation was invalidated. -/
lemma Doomed.step (h : Doomed c s) (hn : s.sys.Numbered) (e : SweepEvent) :
    Doomed c (s.step cand e) := by
  cases e with
  | candidate => exact h.advance
  | other e =>
    rw [SweepSystem.step]
    split_ifs
    · exact h
    · obtain ⟨hd, hcases⟩ := h
      refine ⟨hd, ?_⟩
      rcases hcases with ⟨hpend, hinv⟩ | hgiven
      · refine Or.inl ⟨?_, invalidated_step hinv⟩
        obtain ⟨sys, phase, destroyed⟩ := s
        cases phase with
        | reserving r =>
          rcases hr : sys.replies r with _ | reply
          · simp only [pending, hr] at hpend
            simp at hpend
          · simp only [pending, hr] at hpend
            simp only [pending, replies_step hn hr e]
            exact hpend
        | _ => exact hpend
      · exact Or.inr hgiven

variable (h : s.Inv hasher routing cand)
include h

lemma Inv.pending_flag (hc : s.pending = some c) :
    s.destroyed = [] ∧ ∃ h₀ log, s.sys.history = h₀ ++ .command cand.reserveForReap :: log ∧
      ((ownerRun hasher routing h₀).handle cand.reserveForReap).2 = .reserveForReap (some c) ∧
      FlagSince s.sys.owner.tables c cand.addr log := by
  have key : ∀ {phase h₀ log}, s.sys.Pending hasher routing cand c phase h₀ log →
      ∃ h₀ log, s.sys.history = h₀ ++ .command cand.reserveForReap :: log ∧
        ((ownerRun hasher routing h₀).handle cand.reserveForReap).2 = .reserveForReap (some c) ∧
        FlagSince s.sys.owner.tables c cand.addr log :=
    fun hp => ⟨_, _, hp.history, hp.granted, hp.flag⟩
  obtain ⟨sys, phase, destroyed⟩ := s
  have hn : sys.Numbered := h.numbered
  have hrel : Relies hasher routing cand sys phase destroyed := h.relies
  cases hrel with
  | awaitsGrant hw =>
    simp only [pending, hw.unanswered hn] at hc
    simp at hc
  | @refused r reply hr hno =>
    cases reply with
    | reserveForReap =>
      simp only [pending, hr] at hc
      exact absurd (hc ▸ rfl) (hno c)
    | _ =>
      simp only [pending, hr] at hc
      simp at hc
  | granted hr hp =>
    simp only [pending, hr, some_inj] at hc
    subst hc
    exact ⟨rfl, key hp⟩
  | reserved hp | awaitsVerdict hp | newer hp =>
    obtain rfl := some.inj hc
    exact ⟨rfl, key hp⟩
  | notNewer hch | cleared hch =>
    obtain rfl := some.inj hc
    obtain ⟨_, _, _, hp, -⟩ := hch
    exact ⟨rfl, key hp⟩
  | _ => simp [pending] at hc

lemma Inv.committed (hc : s.phase.committing = some c) : s.sys.Committed cand c := by
  obtain ⟨sys, phase, destroyed⟩ := s
  have hrel : Relies hasher routing cand sys phase destroyed := h.relies
  cases hrel with
  | committed hcom | sideTables hcom | actors hcom => exact some.inj hc ▸ hcom
  | _ => simp [committing] at hc

lemma Inv.reaped (ho : s.phase.outcome = some outcome) :
    s.sys.Reaped hasher routing cand outcome := by
  obtain ⟨sys, phase, destroyed⟩ := s
  have hrel : Relies hasher routing cand sys phase destroyed := h.relies
  cases hrel with
  | reaping hreap | reaped hreap => exact some.inj ho ▸ hreap
  | _ => simp [SweepPhase.outcome] at ho

lemma Inv.checked (hc : s.phase = .cleared c) : s.sys.Checked hasher routing cand c := by
  obtain ⟨sys, phase, destroyed⟩ := s
  obtain rfl : phase = .cleared c := hc
  have hrel : Relies hasher routing cand sys (.cleared c) destroyed := h.relies
  cases hrel with
  | cleared hch => exact hch

end SweepSystem

end

/-- **The reap is linearized at its commit point.**  At every point of every
run of a candidate beside the rest of the system:

* if its compare-and-swap succeeds now, the owner had no evidence newer than
  `evidenceBefore` when it answered the candidate, and processed no evidence
  for the address between the grant and now;
* once it has committed, the owner releases the peer's ownership exactly if
  the peer still owns the address unpinned, whatever evidence came since;
* and that is the outcome the candidate gets;
* if evidence for the address was processed since the grant, the
  compare-and-swap fails and the candidate never destroys anything. -/
theorem reap_linearizes (hasher : SocketAddr → UInt64) (routing : Option (List RoutingCall))
    (cand : SweepCandidate) (prior : List ReapEvent) (events : List SweepEvent) :
    let s := SweepSystem.run cand hasher routing prior events
    (∀ c, s.phase = .cleared c → (s.sys.owner.tryConsume c).2 = true →
      ∃ h₀ h₁ h₂, s.sys.history = h₀ ++ .command cand.reserveForReap ::
          (h₁ ++ .command cand.hasNewerLivenessEvidence :: h₂) ∧
        ((ownerRun hasher routing h₀).handle cand.reserveForReap).2
          = .reserveForReap (some c) ∧
        (let answering := ownerRun hasher routing (h₀ ++ .command cand.reserveForReap :: h₁);
          (∀ at₀, answering.claimCommittedAt.get cand.addr = some at₀ →
            at₀ ≤ cand.evidenceBefore) ∧
          ∀ at₀, answering.livenessEvidenceAt.get cand.addr = some at₀ →
            at₀ ≤ cand.evidenceBefore) ∧
        ∀ instant, .command (.noteLivenessEvidence cand.addr instant) ∉
          h₁ ++ .command cand.hasNewerLivenessEvidence :: h₂) ∧
    (∀ c, s.phase.committing = some c → (s.sys.owner.handle cand.releaseDeadPeer).2
      = .releaseDeadPeer (cand.releaseOutcome s.sys.owner)) ∧
    (∀ outcome, s.phase.outcome = some outcome →
      ∃ c h h', s.sys.history = h ++ .command cand.releaseDeadPeer :: h' ∧ .tryConsume c ∈ h ∧
        outcome = cand.releaseOutcome (ownerRun hasher routing h)) ∧
    (∀ c h₀ h₁ instant, s.pending = some c →
      s.sys.history = h₀ ++ .command cand.reserveForReap :: h₁ →
      ((ownerRun hasher routing h₀).handle cand.reserveForReap).2 = .reserveForReap (some c) →
      .command (.noteLivenessEvidence cand.addr instant) ∈ h₁ →
        (s.sys.owner.tryConsume c).2 = false ∧
        ∀ later, (Run.exec (SweepSystem.step cand) s later).destroyed = []) := by
  intro s
  have hinv : s.Inv hasher routing cand := inv_run
  refine ⟨?_, ?_, ?_, ?_⟩
  · intro c hph hcons
    obtain ⟨h₀, h₁, h₂, hp, hnew⟩ := hinv.checked hph
    refine ⟨h₀, h₁, h₂, hp.history, hp.granted, ⟨?_, ?_⟩, ?_⟩
    · intro at₀ hat
      by_contra hlt
      exact hnew (Or.inl ⟨at₀, hat, Nat.lt_of_not_ge hlt⟩)
    · intro at₀ hat
      by_contra hlt
      exact hnew (Or.inr ⟨at₀, hat, Nat.lt_of_not_ge hlt⟩)
    · rcases hp.flag with hinvalid | ⟨-, hnone⟩
      · have hpend := tryConsume_eq_true.mp hcons
        cases hinvalid.symm.trans hpend
      · exact hnone
  · intro c hc
    exact (hinv.committed hc).releaseDeadPeer hinv.guarded
  · intro outcome ho
    exact hinv.reaped ho
  · intro c h₀ h₁ instant hpend hhist hgrant hnote
    obtain ⟨hdes, h₀', log, hhist', hgrant', hflag⟩ := hinv.pending_flag hpend
    -- the grant the candidate knows is this one
    obtain rfl := grant_unique hgrant hgrant' (hhist.symm.trans hhist')
    obtain rfl : h₁ = log := (cons.inj (append_cancel_left (hhist.symm.trans hhist'))).2
    have hinvalid : s.sys.owner.tables.cells[c]? = some .invalidated := by
      rcases hflag with hinvalid | ⟨-, hnone⟩
      · exact hinvalid
      · exact absurd hnote (hnone instant)
    refine ⟨?_, fun later => ?_⟩
    · rw [← Bool.not_eq_true, tryConsume_eq_true]
      intro hp
      cases hinvalid.symm.trans hp
    · have hdoomed : s.Doomed c := ⟨hdes, Or.inl ⟨hpend, hinvalid⟩⟩
      exact (Run.exec_invariant (P := fun s => Inv hasher routing cand s ∧ s.Doomed c)
        (fun _ e h => ⟨h.1.step e, h.2.step h.1.numbered e⟩) ⟨hinv, hdoomed⟩ later).2.1

end IcanactRemote
