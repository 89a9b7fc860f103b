/-
Concurrent `configure_peer` calls for one peer (`registry.rs`).

A call submits `ConfigurePeer` commands until one of them settles it.  Its
first attempt carries no generation; every later one presents a generation an
earlier reply gave it.  `retryWith` is the loop of
`configure_peer_with_outcome_and_generation` together with the queue behind
it: within a cycle an attempt presents what the previous reply said, and once
the retry budget has elapsed every further cycle starts again from the
generation of the first cycle's last attempt.  A call may stop being scheduled
at any point (shutdown, cancellation).

A later call is meant to supersede the earlier ones.  The generation counter
enforces it only where it is consulted: while the peer's previous pin is
reserved for a sweep, the owner answers with the current generation, neither
advancing nor checking it.

* `older_call_undoes_newer` — a run in which an earlier call undoes a later
  one after both met that answer;
* `newer_call_supersedes` — if the later call's first attempt and the earlier
  call's remaining ones do not meet it, the earlier call never installs or
  moves the pin again.
-/
import IcanactRemote.OwnerStep

namespace IcanactRemote

open Function

/-! ### The calls -/

/-- Where a call stands: not started, about to present a generation, or
settled.  `mine` is the generation queued cycles start from, once the first
cycle is over. -/
inductive CallPhase
  | fresh
  | retrying (expected : ℕ) (mine : Option ℕ)
  | settled
  deriving DecidableEq

open CallPhase

namespace CallPhase

/-- What the next attempt of a call presents as `expected_generation`. -/
def presents : CallPhase → Option (Option ℕ)
  | .fresh => some none
  | .retrying expected _ => some (some expected)
  | .settled => none

/-- `my_generation`, once it is known. -/
def mine : CallPhase → Option ℕ
  | .retrying _ mine => mine
  | _ => none

/-- The call after the reply to an attempt.  Only `ReapInProgress` is retried.
`budgetElapsed` says that the cycle's retry budget is used up. -/
def retryWith (phase : CallPhase) (commit : ConfigurePeerCommit) (budgetElapsed : Bool) :
    CallPhase :=
  match commit.claim with
  | .rejected .reapInProgress =>
    if budgetElapsed then
      let my := phase.mine.getD commit.generation
      .retrying my (some my)
    else .retrying commit.generation phase.mine
  | _ => .settled

end CallPhase

/-- The owner and the calls that configure one peer. -/
structure ConfigureSystem where
  owner : PeerRegistryOwner
  calls : ℕ → CallPhase

/-- What can happen next: an attempt of a call, any other command, or a
guard's compare-and-swap.  Configurations of `peer` come from its calls only. -/
inductive ConfigureEvent (peer : PeerId)
  | attempt (call : ℕ) (budgetElapsed : Bool)
  | other (cmd : OwnerCommand) (h : ∀ addr expected, cmd ≠ .configurePeer addr peer expected)
  | tryConsume (cell : CellId)

namespace ConfigureSystem

def start (hasher : SocketAddr → UInt64) (routing : Option (List RoutingCall)) :
    ConfigureSystem :=
  ⟨.start hasher routing, fun _ => .fresh⟩

/-- One event; call `i` configures the peer at `target i`. -/
def step (peer : PeerId) (target : ℕ → SocketAddr) (s : ConfigureSystem) :
    ConfigureEvent peer → ConfigureSystem
  | .attempt i budgetElapsed =>
    match (s.calls i).presents with
    | none => s
    | some expected =>
      let (owner, commit) := s.owner.configurePeer (target i) peer expected
      ⟨owner, Function.update s.calls i ((s.calls i).retryWith commit budgetElapsed)⟩
  | .other cmd _ => ⟨(s.owner.handle cmd).1, s.calls⟩
  | .tryConsume cell => ⟨(s.owner.tryConsume cell).1, s.calls⟩

/-- The system after a run in which every call is started by its first
attempt. -/
def run (hasher : SocketAddr → UInt64) (routing : Option (List RoutingCall)) (peer : PeerId)
    (target : ℕ → SocketAddr) (events : List (ConfigureEvent peer)) : ConfigureSystem :=
  Run.exec (step peer target) (start hasher routing) events

end ConfigureSystem

/-! ### What the owner does to the generation -/

variable {commit : ConfigurePeerCommit} {cmd : OwnerCommand}

namespace Tables

variable {t t' : Tables}

lemma configured_retractAll (t : Tables) (addrs : List SocketAddr) :
    (t.retractAll addrs).configured = t.configured := by
  induction addrs generalizing t with
  | nil => rfl
  | cons addr addrs ih => exact ih (t.retract addr)

lemma configured_configure (addr : SocketAddr) (peer : PeerId) :
    (t.configure addr peer).configured = t.configured := by
  rw [configure]
  rcases (t.accept addr (t.claimedOwner addr ⟨peer, .verified⟩)).evicted addr peer with _ | ev
  · rfl
  · simp only [releaseEvicted]
    split_ifs <;> rfl

lemma configured_settle (peer : PeerId) (expected : Option ℕ) (q : PeerId) :
    (t.settle peer expected).configured q
      = if q = peer ∧ expected = none then t.configured q + 1 else t.configured q := by
  rcases expected with _ | e
  · show update t.configured peer (t.configured peer + 1) q = _
    rw [update_apply]
    by_cases hq : q = peer
    · subst hq
      simp
    · simp [hq]
  · simp [settle]

variable {peer : PeerId} {addr : SocketAddr}

lemma Step.configured_eq {reply : OwnerReply} (h : Step t cmd reply t')
    (hcmd : ∀ addr expected, cmd ≠ .configurePeer addr peer expected) :
    t'.configured peer = t.configured peer := by
  cases h with
  | releaseSession => rw [configured_retractAll]; rfl
  | @configureRefused addr q expected =>
    rw [configured_settle, if_neg]
    rintro ⟨rfl, -⟩
    exact hcmd addr expected rfl
  | @configured addr q expected =>
    rw [configured_configure, configured_settle, if_neg]
    rintro ⟨rfl, -⟩
    exact hcmd addr expected rfl
  | _ => rfl

lemma Step.configurePeer_generation {expected : Option ℕ}
    (h : Step t (.configurePeer addr peer expected) (.configurePeer commit) t')
    (hexp : ∀ e, expected = some e → e ≤ t.configured peer) :
    t.configured peer ≤ t'.configured peer ∧ commit.generation ≤ t'.configured peer := by
  have hsettle : t.configured peer ≤ (t.settle peer expected).configured peer ∧
      t.settledGeneration peer expected ≤ (t.settle peer expected).configured peer := by
    rw [configured_settle]
    rcases expected with _ | e
    · simp [settledGeneration]
    · simpa [settledGeneration] using hexp e rfl
  cases h with
  | unchanged h => exact h.elim
  | configureBlocked | configureSuperseded => exact ⟨le_rfl, le_rfl⟩
  | configureRefused => exact hsettle
  | configured =>
    rw [configured_configure]
    exact hsettle

lemma Step.configurePeer_bumps
    (h : Step t (.configurePeer addr peer none) (.configurePeer commit) t')
    (hfree : ¬ t.PreviousPinReserved peer addr) : t'.configured peer = t.configured peer + 1 := by
  cases h with
  | unchanged h => exact h.elim
  | configureBlocked h => exact absurd h hfree
  | configureRefused => rw [configured_settle, if_pos ⟨rfl, rfl⟩]
  | configured => rw [configured_configure, configured_settle, if_pos ⟨rfl, rfl⟩]

lemma Step.configurePeer_superseded {e : ℕ}
    (h : Step t (.configurePeer addr peer (some e)) (.configurePeer commit) t')
    (hfree : ¬ t.PreviousPinReserved peer addr) (hold : e < t.configured peer) :
    commit.claim = .rejected .supersededByNewerConfiguration ∧ t' = t := by
  cases h with
  | unchanged h => exact h.elim
  | configureBlocked h => exact absurd h hfree
  | configureSuperseded => exact ⟨rfl, rfl⟩
  | configureRefused _ hnew | configured _ hnew => exact absurd (hnew e rfl) (by omega)

end Tables

namespace ConfigureSystem

variable {peer : PeerId} {target : ℕ → SocketAddr} {s : ConfigureSystem}

/-! ### Generations held by calls -/

/-- The owner's current generation for the peer. -/
def generation (peer : PeerId) (s : ConfigureSystem) : ℕ := s.owner.tables.configured peer

/-- Every generation a call holds is below `bound`. -/
def HoldsBelow (phase : CallPhase) (bound : ℕ) : Prop :=
  (∀ e, phase.presents = some (some e) → e < bound) ∧ ∀ g, phase.mine = some g → g < bound

variable {phase : CallPhase} {i m n bound j : ℕ}

lemma HoldsBelow.mono (h : HoldsBelow phase m) (hmn : m ≤ n) : HoldsBelow phase n :=
  ⟨fun e he => lt_of_lt_of_le (h.1 e he) hmn, fun g hg => lt_of_lt_of_le (h.2 g hg) hmn⟩

lemma holdsBelow_settled : HoldsBelow .settled bound :=
  ⟨fun e he => absurd he (by simp [presents]), fun g hg => absurd hg (by simp [mine])⟩

lemma holdsBelow_retryWith (h : HoldsBelow phase bound) (hc : commit.generation < bound)
    (budgetElapsed : Bool) : HoldsBelow (phase.retryWith commit budgetElapsed) bound := by
  have hmy : phase.mine.getD commit.generation < bound := by
    rcases hm : phase.mine with _ | g
    · exact hc
    · exact h.2 g hm
  rw [retryWith]
  split
  · by_cases hb : budgetElapsed = true
    · rw [if_pos hb]
      refine ⟨fun e he => ?_, fun g hg => ?_⟩
      · rw [presents, Option.some_inj, Option.some_inj] at he
        rw [← he]
        exact hmy
      · rw [mine, Option.some_inj] at hg
        rw [← hg]
        exact hmy
    · rw [if_neg hb]
      refine ⟨fun e he => ?_, fun g hg => h.2 g hg⟩
      rw [presents, Option.some_inj, Option.some_inj] at he
      rw [← he]
      exact hc
  · exact holdsBelow_settled

lemma step_attempt (budgetElapsed : Bool) :
    ((s.calls i).presents = none ∧ step peer target s (.attempt i budgetElapsed) = s) ∨
      ∃ expected commit, (s.calls i).presents = some expected ∧
        Tables.Step s.owner.tables (.configurePeer (target i) peer expected)
          (.configurePeer commit)
          (step peer target s (.attempt i budgetElapsed)).owner.tables ∧
        (step peer target s (.attempt i budgetElapsed)).calls
          = update s.calls i ((s.calls i).retryWith commit budgetElapsed) := by
  rcases hp : (s.calls i).presents with _ | expected
  · exact Or.inl ⟨rfl, by simp only [step, hp]⟩
  · refine Or.inr ⟨expected, (s.owner.configurePeer (target i) peer expected).2, rfl, ?_, ?_⟩
    · have hstep := s.owner.step_configurePeer (target i) peer expected
      simpa only [step, hp] using hstep
    · simp [step, hp]

/-- The generation never goes back, and every generation a call holds was
given out by the owner. -/
def GivenOut (peer : PeerId) (s : ConfigureSystem) : Prop :=
  ∀ i, HoldsBelow (s.calls i) (s.generation peer + 1)

lemma generation_other (target : ℕ → SocketAddr) (s : ConfigureSystem)
    (h : ∀ addr expected, cmd ≠ .configurePeer addr peer expected) :
    (step peer target s (.other cmd h)).generation peer = s.generation peer :=
  (s.owner.handle_step cmd).configured_eq h

lemma generation_tryConsume (peer : PeerId) (target : ℕ → SocketAddr) (s : ConfigureSystem)
    (cell : CellId) :
    (step peer target s (.tryConsume cell)).generation peer = s.generation peer := by
  show (s.owner.tryConsume cell).1.tables.configured peer = _
  rw [s.owner.tables_tryConsume, Tables.consume]
  split_ifs <;> rfl

lemma givenOut_step (target : ℕ → SocketAddr) (h : GivenOut peer s) (e : ConfigureEvent peer) :
    s.generation peer ≤ (step peer target s e).generation peer ∧
      GivenOut peer (step peer target s e) := by
  rcases e with ⟨i, b⟩ | ⟨cmd, hcmd⟩ | cell
  · rcases step_attempt b with ⟨-, heq⟩ | ⟨expected, commit, hp, hstep, hcalls⟩
    · rw [heq]
      exact ⟨le_rfl, h⟩
    · obtain ⟨hmono, hgen⟩ := hstep.configurePeer_generation fun e he => by
        have := (h i).1 e (he ▸ hp)
        exact Nat.lt_succ_iff.mp this
      refine ⟨hmono, fun j => ?_⟩
      rw [hcalls]
      -- the call itself holds what its commit reports
      by_cases hj : j = i
      · subst hj
        rw [update_self]
        exact holdsBelow_retryWith ((h j).mono (Nat.succ_le_succ hmono)) (Nat.lt_succ_of_le hgen) b
      · rw [update_of_ne hj]
        exact (h j).mono (Nat.succ_le_succ hmono)
  · have hgen := generation_other target s hcmd
    refine ⟨hgen.ge, fun j => ?_⟩
    rw [hgen]
    exact h j
  · have hgen := generation_tryConsume peer target s cell
    refine ⟨hgen.ge, fun j => ?_⟩
    rw [hgen]
    exact h j

/-! ### A superseded call -/

/-- The call has started, and every generation it holds is behind the
owner's. -/
def Superseded (peer : PeerId) (i : ℕ) (s : ConfigureSystem) : Prop :=
  s.calls i ≠ .fresh ∧ HoldsBelow (s.calls i) (s.generation peer)

lemma attempt_of_superseded (h : Superseded peer i s)
    (hfree : ¬ s.owner.previousPinReserved peer (target i) = true) (b : Bool) :
    (step peer target s (.attempt i b)).owner.tables = s.owner.tables ∧
      Superseded peer i (step peer target s (.attempt i b)) := by
  rcases step_attempt b with ⟨-, heq⟩ | ⟨expected, commit, hp, hstep, hcalls⟩
  · rw [heq]
    exact ⟨rfl, h⟩
  · obtain ⟨e, rfl⟩ : ∃ e, expected = some e := by
      rcases hph : s.calls i with _ | ⟨e, m⟩ | _
      · exact absurd hph h.1
      · rw [hph, presents, Option.some_inj] at hp
        exact ⟨e, hp.symm⟩
      · rw [hph, presents] at hp
        simp at hp
    obtain ⟨hclaim, htab⟩ := hstep.configurePeer_superseded
      (mt s.owner.previousPinReserved_eq_true.mpr hfree) (h.2.1 e hp)
    have hsett : (step peer target s (.attempt i b)).calls i = .settled := by
      rw [hcalls, update_self, retryWith, hclaim]
    refine ⟨htab, ?_, ?_⟩
    · rw [hsett]
      simp
    · rw [hsett]
      exact holdsBelow_settled

/-- No attempt of call `i` is processed while the peer's previous pin is
reserved. -/
def AttemptFree (peer : PeerId) (target : ℕ → SocketAddr) (i : ℕ) (s : ConfigureSystem)
    (e : ConfigureEvent peer) : Prop :=
  ∀ b, e = .attempt i b → ¬ s.owner.previousPinReserved peer (target i) = true

lemma superseded_step (hg : GivenOut peer s) (h : Superseded peer i s) (e : ConfigureEvent peer)
    (hfree : AttemptFree peer target i s e) : Superseded peer i (step peer target s e) := by
  have hmono := (givenOut_step target hg e).1
  rcases e with ⟨j, b⟩ | ⟨cmd, hcmd⟩ | cell
  · by_cases hj : j = i
    · subst hj
      exact (attempt_of_superseded h (hfree b rfl) b).2
    · have hcall : (step peer target s (.attempt j b)).calls i = s.calls i := by
        rcases step_attempt b with ⟨-, heq⟩ | ⟨_, _, -, -, hcalls⟩
        · rw [heq]
        · rw [hcalls, update_of_ne (Ne.symm hj)]
      rw [Superseded, hcall]
      exact ⟨h.1, h.2.mono hmono⟩
  · exact ⟨h.1, h.2.mono hmono⟩
  · exact ⟨h.1, h.2.mono hmono⟩

/-- The first attempt of a later call supersedes every call that has
started. -/
lemma superseded_by_first_attempt (hg : GivenOut peer s) (hi : s.calls i ≠ .fresh)
    (hj : s.calls j = .fresh) (hfree : ¬ s.owner.previousPinReserved peer (target j) = true)
    (b : Bool) : Superseded peer i (step peer target s (.attempt j b)) := by
  have hij : i ≠ j := by
    rintro rfl
    exact hi hj
  rcases step_attempt b with ⟨hp, -⟩ | ⟨expected, commit, hp, hstep, hcalls⟩
  · rw [hj, presents] at hp
    simp at hp
  · obtain rfl : none = expected := by
      rw [hj, presents, Option.some_inj] at hp
      exact hp
    have hbump := hstep.configurePeer_bumps (mt s.owner.previousPinReserved_eq_true.mpr hfree)
    have hcall : (step peer target s (.attempt j b)).calls i = s.calls i := by
      rw [hcalls, update_of_ne hij]
    rw [Superseded, hcall]
    refine ⟨hi, (hg i).mono ?_⟩
    exact hbump.ge

lemma givenOut_start (hasher : SocketAddr → UInt64)
    {routing : Option (List RoutingCall)} : GivenOut peer (start hasher routing) :=
  fun _ => ⟨fun _ he => absurd he (by simp [start, presents]),
    fun _ hg => absurd hg (by simp [start, mine])⟩

end ConfigureSystem

open ConfigureSystem in
/-- **A newer configuration supersedes an older one.**  Let call `c₁` have
started and call `c₂` not, and process the first attempt of `c₂`.  If neither
it nor any later attempt of `c₁` meets a reserved previous pin, no later
attempt of `c₁` installs or moves a pin. -/
theorem newer_call_supersedes (hasher : SocketAddr → UInt64)
    (routing : Option (List RoutingCall)) (peer : PeerId) (target : ℕ → SocketAddr) (c₁ c₂ : ℕ)
    (e₁ e₂ : List (ConfigureEvent peer)) (b₁ b₂ : Bool)
    (hstarted : (run hasher routing peer target e₁).calls c₁ ≠ .fresh)
    (hfirst : (run hasher routing peer target e₁).calls c₂ = .fresh)
    (hfree₂ : AttemptFree peer target c₂ (run hasher routing peer target e₁) (.attempt c₂ b₂))
    (hfree₁ : Run.Meets (step peer target) (AttemptFree peer target c₁)
      (run hasher routing peer target (e₁ ++ [.attempt c₂ b₂])) (e₂ ++ [.attempt c₁ b₁])) :
    (∀ p, (run hasher routing peer target
        (e₁ ++ [.attempt c₂ b₂] ++ (e₂ ++ [.attempt c₁ b₁]))).owner.pinnedByPeer.get p
      = (run hasher routing peer target
        (e₁ ++ [.attempt c₂ b₂] ++ e₂)).owner.pinnedByPeer.get p) ∧
    ∀ a, (run hasher routing peer target
        (e₁ ++ [.attempt c₂ b₂] ++ (e₂ ++ [.attempt c₁ b₁]))).owner.operatorPinned.get a
      = (run hasher routing peer target
        (e₁ ++ [.attempt c₂ b₂] ++ e₂)).owner.operatorPinned.get a := by
  have hg₁ : GivenOut peer (run hasher routing peer target e₁) :=
    Run.exec_invariant (P := GivenOut peer) (fun s e h => (givenOut_step target h e).2)
      (givenOut_start hasher) e₁
  -- the first attempt of `c₂` leaves `c₁` behind
  have h₂ : GivenOut peer (run hasher routing peer target (e₁ ++ [.attempt c₂ b₂])) ∧
      Superseded peer c₁ (run hasher routing peer target (e₁ ++ [.attempt c₂ b₂])) := by
    rw [run, Run.exec_concat]
    exact ⟨(givenOut_step target hg₁ _).2,
      superseded_by_first_attempt hg₁ hstarted hfirst (hfree₂ b₂ rfl) b₂⟩
  obtain ⟨hmid, hlast, -⟩ := Run.meets_append.mp hfree₁
  -- and `c₁` stays behind, whatever happens before its next attempt
  have h₃ := Run.exec_invariant_of_meets (P := fun s => GivenOut peer s ∧ Superseded peer c₁ s)
    (fun s e h hC => ⟨(givenOut_step target h.1 e).2, superseded_step h.1 h.2 e hC⟩) h₂ hmid
  have htab := (attempt_of_superseded h₃.2 (hlast b₁ rfl) b₁).1
  have hend : (run hasher routing peer target
      (e₁ ++ [.attempt c₂ b₂] ++ (e₂ ++ [.attempt c₁ b₁]))).owner.tables
        = (run hasher routing peer target (e₁ ++ [.attempt c₂ b₂] ++ e₂)).owner.tables := by
    rw [run, ← List.append_assoc, Run.exec_concat, run, Run.exec_append]
    exact htab
  exact ⟨fun p => congrFun (congrArg Tables.pinnedAt hend) p,
    fun a => congrFun (congrArg Tables.pin hend) a⟩

namespace Sample

/-- Call `i` configures alice at host `10 + i`. -/
def targets (i : ℕ) : SocketAddr := host (10 + BitVec.ofNat 32 i)

/-- A sweep reserves the target of call 1, which nobody owns. -/
def reserveUnowned : ConfigureEvent alice :=
  .other (.reserveForReap (targets 1) 0 none none none) (fun _ _ => by simp)

/-- A sweep reserves alice's configured address. -/
def reserveFirst : ConfigureEvent alice :=
  .other (.reserveForReap (targets 0) 0 (some ⟨alice, 1⟩) (some alice) (some alice))
    (fun _ _ => by simp)

/-- The sweep of the target of call `i` is over. -/
def sweepOver (i : ℕ) : ConfigureEvent alice :=
  .other (.releaseReapReservation (targets i)) (fun _ _ => by simp)

end Sample

open ConfigureSystem Sample in
/-- Call 1 waits for the reservation of its own target; call 2 configures
alice meanwhile, and that configuration stays. -/
theorem newer_call_supersedes_waiting_call :
    (run (fun _ => 0) none alice targets ([reserveUnowned, .attempt 1 false] ++ [.attempt 2 false]
      ++ ([sweepOver 1] ++ [.attempt 1 false]))).owner.pinnedByPeer.get alice
        = some (targets 2) := by
  rw [(newer_call_supersedes (fun _ => 0) none alice targets 1 2
    [reserveUnowned, .attempt 1 false] [sweepOver 1] false false (by decide) (by decide)
    (fun _ _ => by decide) ⟨fun _ _ => by decide, fun _ _ => by decide, trivial⟩).1 alice]
  decide

/-! ### The early answer lets an older call through -/

open ConfigureSystem Sample in
/-- Alice is configured at one address and a sweep reserves it.  Call 1 and
then call 2 make their first attempt, and both are told that a reap is in
progress, with the same generation.  Once the reservation ends call 2
configures alice, and then call 1, started earlier, moves the pin away from
it. -/
theorem older_call_undoes_newer : (run (fun _ => 0) none alice targets
      [.attempt 0 false, reserveFirst, .attempt 1 false]).calls 1 ≠ .fresh ∧
    (run (fun _ => 0) none alice targets
      [.attempt 0 false, reserveFirst, .attempt 1 false]).calls 2 = .fresh ∧
    (run (fun _ => 0) none alice targets
      ([.attempt 0 false, reserveFirst, .attempt 1 false] ++ [.attempt 2 false]
        ++ [sweepOver 0, .attempt 2 false])).owner.pinnedByPeer.get alice = some (targets 2) ∧
    (run (fun _ => 0) none alice targets
      ([.attempt 0 false, reserveFirst, .attempt 1 false] ++ [.attempt 2 false]
        ++ ([sweepOver 0, .attempt 2 false] ++ [.attempt 1 false]))).owner.pinnedByPeer.get alice
          = some (targets 1) := by
  decide

end IcanactRemote
