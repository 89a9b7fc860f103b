/-
Updates of one name in different orders.

A node holds one location per name, and an update takes the place of the one it
beats.  `beats` prefers the later clock and breaks ties by wall-clock time, so
it is no order: `A` before `B`, with `C` concurrent to both and its time between
theirs, is a cycle.

* `registrations_converge_iff` — the additions of a name end in the same entry
  in every order exactly when one of them is a champion;
* `add_remove_commute_iff` — an addition and a concurrent removal commute
  exactly when the removal also wins over the stored addition.
-/
import IcanactRemote.ActorCalls
import IcanactRemote.Champion

namespace IcanactRemote

open Run Champion Registry

/-- An addition as it reaches the node, in a delta of its own. -/
structure ActorUpdate where
  location : RemoteActorLocation
  priority : RegistrationPriority
  senderPeerId : PeerId
  bookkeepingAddr : Option SocketAddr
  verifiedSenderAddr : Option SocketAddr
  ownerRestartAuthenticated : Bool
  deriving DecidableEq

open ActorUpdate

namespace ActorUpdate

variable (cfg : NodeConfig) (name : Text) (u : ActorUpdate)

def source : DeltaSource :=
  ⟨u.senderPeerId, u.verifiedSenderAddr.or u.bookkeepingAddr, u.ownerRestartAuthenticated⟩

def change : RegistryChange := .actorAdded name u.location u.priority

/-- The location the node would store. -/
def stored : RemoteActorLocation := u.source.resolve cfg.text u.location

/-- The node's `apply_delta_from` for the update. -/
def deliver (s : Registry) (u : ActorUpdate) : Registry :=
  s.applyDeltaFrom cfg [u.change name] u.senderPeerId u.bookkeepingAddr u.verifiedSenderAddr
    u.ownerRestartAuthenticated

/-- What the update challenges the entry with: nothing when its host is this
node or it does not fit a frame. -/
def challenger : Option RemoteActorLocation :=
  if u.location.peerId ≠ cfg.peerId ∧ cfg.soloChangeFits name (u.stored cfg) = true
  then some (u.stored cfg) else none

/-- No admission cap turns the update away. -/
def CapsAllow (s : Registry) (u : ActorUpdate) : Prop :=
  (s.view name).Wants cfg.peerId (u.stored cfg) u.senderPeerId u.ownerRestartAuthenticated →
    cfg.soloChangeFits name (u.stored cfg) = true →
      s.underCaps cfg u.senderPeerId name (u.stored cfg) = true

instance (s : Registry) (u : ActorUpdate) : Decidable (CapsAllow cfg name s u) :=
  inferInstanceAs (Decidable (_ → _ → _))

lemma view_deliver (s : Registry) (n : Text) :
    (deliver cfg name s u).view n = (s.afterChange cfg u.source (u.change name)).view n := by
  rw [deliver, view_applyDeltaFrom]
  rfl

end ActorUpdate

/-! ### Additions -/

/-- Whether an update would take the place of an entry. -/
def entryBeats : Option RemoteActorLocation → Option RemoteActorLocation → Bool
  | some candidate, some existing => candidate.beats existing
  | some _, none => true
  | none, _ => false

lemma entryBeats_asymm (a b : Option RemoteActorLocation) (h : entryBeats a b = true) :
    entryBeats b a = false := by
  cases a with
  | none => simp [entryBeats] at h
  | some =>
    cases b with
    | none => rfl
    | some => exact RemoteActorLocation.beats_asymm h

section Additions

variable {cfg : NodeConfig} {name : Text}

variable {known : Option RemoteActorLocation} {s : Registry}

/-- **One addition is one challenge.** -/
theorem view_deliver_challenge (hv : s.view name = ⟨false, known, none⟩) {u : ActorUpdate}
    (hcaps : u.CapsAllow cfg name s) : (u.deliver cfg name s).view name =
      ⟨false, challenge entryBeats known (u.challenger cfg name), none⟩ := by
  have hkept : (s.afterChange cfg u.source (u.change name)) = s →
      (u.deliver cfg name s).view name = ⟨false, known, none⟩ := by
    intro h
    rw [u.view_deliver, h, hv]
  have htakes : (s.view name).Takes (u.stored cfg) ↔
      entryBeats (some (u.stored cfg)) known = true := by
    rw [hv]
    cases known <;> simp [NameView.Takes, entryBeats]
  -- own actors and changes too large for a frame never challenge
  by_cases helig : u.location.peerId ≠ cfg.peerId ∧ cfg.soloChangeFits name (u.stored cfg) = true
  · have hchallenger : u.challenger cfg name = some (u.stored cfg) := if_pos helig
    rw [hchallenger]
    by_cases hbeats : entryBeats (some (u.stored cfg)) known = true
    · have hwants : (s.view name).Wants cfg.peerId (u.stored cfg) u.senderPeerId
          u.ownerRestartAuthenticated := by
        refine ⟨helig.1, by rw [hv], fun t ht => ?_, htakes.mpr hbeats⟩
        rw [hv] at ht
        simp at ht
      have hadmits : s.admits cfg u.senderPeerId name (u.stored cfg) = true := by
        rw [admits, hcaps hwants helig.2, helig.2]
        rfl
      rw [challenge_of_beats hbeats, u.view_deliver,
        change, view_afterChange_of_wants hwants hadmits, hv]
      rfl
    · rw [challenge_of_not_beats hbeats]
      exact hkept (afterChange_eq_self fun h => hbeats (htakes.mp h.1.2.2.2))
  · -- refused whatever the entry is
    have hchallenger : u.challenger cfg name = none := if_neg helig
    rw [hchallenger, challenge_of_not_beats (by simp [entryBeats])]
    refine hkept (afterChange_eq_self fun h => helig ⟨h.1.1, ?_⟩)
    exact (Bool.and_eq_true _ _ ▸ h.2 : _ ∧ _).2

/-- **Additions are challenges**, one after another. -/
theorem view_exec_deliver (hv : s.view name = ⟨false, known, none⟩) {us : List ActorUpdate}
    (hcaps : Meets (deliver cfg name) (CapsAllow cfg name) s us) :
    (exec (deliver cfg name) s us).view name =
      ⟨false, (us.map (challenger cfg name)).foldl (challenge entryBeats) known,
        none⟩ := by
  induction us generalizing s known with
  | nil => exact hv
  | cons u us ih =>
    rw [exec_cons, List.map_cons, List.foldl_cons]
    exact ih (view_deliver_challenge hv hcaps.1) hcaps.2

end Additions

/-- **When registrations converge.**  Applying the additions of a name one by one
gives the same entry in every order if and only if one of them, or the entry
the node has, beats everything else that can become the entry. -/
theorem registrations_converge_iff (cfg : NodeConfig) (name : Text) (s₀ : Registry)
    (hlocal : (s₀.view name).isLocal = false) (hremoved : (s₀.view name).removed = none)
    (us : List ActorUpdate)
    (hcaps : ∀ l : List ActorUpdate, l.Perm us →
      Meets (ActorUpdate.deliver cfg name) (ActorUpdate.CapsAllow cfg name) s₀ l) :
    (∀ l : List ActorUpdate, l.Perm us →
      ((exec (ActorUpdate.deliver cfg name) s₀ l).view name).known =
        ((exec (ActorUpdate.deliver cfg name) s₀ us).view name).known) ↔
    ∃ w ∈ (s₀.view name).known :: us.map (ActorUpdate.challenger cfg name),
      Dominates entryBeats (us.map (ActorUpdate.challenger cfg name)) (s₀.view name).known w := by
  have hv : s₀.view name = ⟨false, (s₀.view name).known, none⟩ := by
    rw [← hlocal, ← hremoved]
  have hkn : ∀ l : List ActorUpdate, l.Perm us →
      ((exec (deliver cfg name) s₀ l).view name).known =
        (l.map (challenger cfg name)).foldl (challenge entryBeats) (s₀.view name).known := by
    intro l hl
    rw [view_exec_deliver hv (hcaps l hl)]
  rw [← foldl_challenge_perm_iff entryBeats_asymm]
  constructor
  · intro h m hm
    obtain ⟨l, hl, rfl⟩ := exists_perm_map hm
    rw [← hkn l hl, h l hl, hkn us (List.Perm.refl _)]
  · intro h l hl
    rw [hkn l hl, hkn us (List.Perm.refl _)]
    exact h _ (hl.map _)

/-- An update of node `id` at `ip`, relayed by the node `⟨8⟩`. -/
def relayedUpdate (id : ℕ) (clock : List (GossipNodeId × ℕ)) (wallClockTime : ℕ) : ActorUpdate where
  location := ⟨AddrText.ipv4.toText (.v4 (BitVec.ofNat 32 id) 7000), ⟨BitVec.ofNat 256 id⟩,
    ⟨BitVec.ofNat 256 id⟩, .fromVec clock, wallClockTime, .normal, 0, []⟩
  priority := .normal
  senderPeerId := ⟨8⟩
  bookkeepingAddr := none
  verifiedSenderAddr := none
  ownerRestartAuthenticated := false

/-- Three updates with a champion: two nodes register concurrently, and the
second one again. -/
theorem registrations_converge_iff_champion : let cfg := NodeConfig.ofDefaults ⟨9⟩
    let us := [relayedUpdate 1 [(⟨1⟩, 1)] 10, relayedUpdate 2 [(⟨2⟩, 1)] 20,
      relayedUpdate 2 [(⟨2⟩, 2)] 30]
    ((exec (ActorUpdate.deliver cfg [97]) .start us.reverse).view [97]).known =
      ((exec (ActorUpdate.deliver cfg [97]) .start us).view [97]).known := by
  intro cfg us
  refine (registrations_converge_iff cfg [97] .start rfl rfl us ?_).mpr
    ⟨(relayedUpdate 2 [(⟨2⟩, 2)] 30).challenger cfg [97], by decide +kernel,
      dominates_of_forall_mem (by decide +kernel)⟩ us.reverse us.reverse_perm
  have hall : ∀ l ∈ us.permutations', Meets (deliver cfg [97])
      (CapsAllow cfg [97]) .start l := by decide +kernel
  exact fun l hl => hall l (List.mem_permutations'.mpr hl)

/-- Node 1 registers and registers again, node 3 registers in between by its
clock: the two orders end with different entries. -/
theorem registrations_diverge : let cfg := NodeConfig.ofDefaults ⟨9⟩
    let a := relayedUpdate 1 [(⟨1⟩, 1)] 30
    let b := relayedUpdate 1 [(⟨1⟩, 2)] 10
    let c := relayedUpdate 3 [(⟨3⟩, 1)] 20
    ((exec (ActorUpdate.deliver cfg [97]) .start [a, b, c]).view [97]).known =
        some (c.stored cfg) ∧
      ((exec (ActorUpdate.deliver cfg [97]) .start [c, a, b]).view [97]).known =
        some (b.stored cfg) ∧
      c.stored cfg ≠ b.stored cfg := by
  decide +kernel

/-! ### An addition and a removal -/

/-- A removal as it reaches the node, in a delta of its own. -/
structure ActorRemoval where
  vectorClock : Clock
  removingNodeId : GossipNodeId
  priority : RegistrationPriority
  senderPeerId : PeerId
  bookkeepingAddr : Option SocketAddr
  verifiedSenderAddr : Option SocketAddr
  ownerRestartAuthenticated : Bool

namespace ActorRemoval

variable (cfg : NodeConfig) (name : Text) (r : ActorRemoval)

def source : DeltaSource :=
  ⟨r.senderPeerId, r.verifiedSenderAddr.or r.bookkeepingAddr, r.ownerRestartAuthenticated⟩

def change : RegistryChange := .actorRemoved name r.vectorClock r.removingNodeId r.priority

/-- The node's `apply_delta_from` for the removal. -/
def deliver (s : Registry) (r : ActorRemoval) : Registry :=
  s.applyDeltaFrom cfg [r.change name] r.senderPeerId r.bookkeepingAddr r.verifiedSenderAddr
    r.ownerRestartAuthenticated

lemma view_deliver (s : Registry) (n : Text) :
    (deliver cfg name s r).view n = (s.afterChange cfg r.source (r.change name)).view n := by
  rw [deliver, view_applyDeltaFrom]
  rfl

end ActorRemoval

section AddRemove

variable {cfg : NodeConfig} {name : Text} {s : Registry} {add : ActorUpdate} {r : ActorRemoval}

lemma known_remove_add (hfresh : s.view name = ⟨false, none, none⟩)
    (hsnd : add.senderPeerId ≠ add.location.peerId)
    (hclk : ¬ r.vectorClock < add.location.vectorClock) :
    ((add.deliver cfg name (r.deliver cfg name s)).view name).known = none := by
  have htomb : (r.deliver cfg name s).view name =
      (s.view name).bury ((s.view name).tombstoneFor r.vectorClock r.removingNodeId) := by
    have hplan : (s.view name).currentActorRemovalPlan r.vectorClock r.removingNodeId =
        some (r.vectorClock, true) := by
      rw [hfresh]
      rfl
    rw [r.view_deliver, ActorRemoval.change, view_afterChange_removed, hplan]
  have hself : (r.deliver cfg name s).afterChange cfg add.source (add.change name) =
      r.deliver cfg name s := by
    refine afterChange_eq_self fun h => ?_
    rcases h.1.2.2.1 _ (by rw [htomb]; rfl) with hlt | hrec
    · exact hclk hlt
    · have hpeer : add.location.peerId ≠ add.senderPeerId := hsnd.symm
      simp [ownerRecoveryWinsTombstone, DeltaSource.resolve, source, hpeer] at hrec
  rw [add.view_deliver, hself, htomb]
  rfl

lemma known_add_remove (hfresh : s.view name = ⟨false, none, none⟩)
    (hhost : add.location.peerId ≠ cfg.peerId)
    (hadmits : s.admits cfg add.senderPeerId name (add.stored cfg) = true)
    (hclk : ¬ add.location.vectorClock < r.vectorClock) :
    ((r.deliver cfg name (add.deliver cfg name s)).view name).known = none ↔
      r.vectorClock.compare add.location.vectorClock = .concurrent ∧
        stableConcurrentRemovalWins r.removingNodeId r.vectorClock (add.stored cfg) = true := by
  have hwants : (s.view name).Wants cfg.peerId (add.stored cfg) add.senderPeerId
      add.ownerRestartAuthenticated := by
    rw [hfresh]
    exact ⟨hhost, rfl, fun t ht => absurd ht (by simp), fun e he => absurd he (by simp)⟩
  have hstored : (add.deliver cfg name s).view name = ⟨false, some (add.stored cfg), none⟩ := by
    rw [add.view_deliver, change, view_afterChange_of_wants hwants hadmits, hfresh]
    rfl
  -- the removal now meets the stored entry
  rw [r.view_deliver, ActorRemoval.change, view_afterChange_removed]
  rcases hplan : ((add.deliver cfg name s).view name).currentActorRemovalPlan r.vectorClock
      r.removingNodeId with _ | ⟨removal, only⟩
  · constructor
    · intro h
      rw [hstored] at h
      simp at h
    · intro hwins
      have hsome : ((add.deliver cfg name s).view name).currentActorRemovalPlan r.vectorClock
          r.removingNodeId = some (r.vectorClock, false) := by
        refine NameView.removalPlan_eq_some.mpr
          ⟨by rw [hstored], .inl ⟨add.stored cfg, ?_, rfl, rfl, .inr hwins⟩⟩
        rw [hstored]
      rw [hplan] at hsome
      simp at hsome
  · refine ⟨fun _ => ?_, fun _ => rfl⟩
    rcases (NameView.removalPlan_eq_some.mp hplan).2 with ⟨e, he, -, -, hwins⟩ | ⟨hnone, -⟩
    · rw [hstored] at he
      obtain rfl := Option.some.inj he
      rcases hwins with hlt | hwins
      · exact absurd hlt hclk
      · exact hwins
    · rw [hstored] at hnone
      simp at hnone

end AddRemove

/-- **When an addition and a removal commute.**  Concurrent or equal clocks, a
sender that is not the actor's owner, a node with nothing under the name: the
two orders agree on whether the name is known if and only if the node would not
store the addition at all, or the removal wins over it when it is there. -/
theorem add_remove_commute_iff (cfg : NodeConfig) (name : Text) (s : Registry)
    (hfresh : s.view name = ⟨false, none, none⟩) (add : ActorUpdate) (r : ActorRemoval)
    (hsender : add.senderPeerId ≠ add.location.peerId)
    (hclock : r.vectorClock.compare add.location.vectorClock = .concurrent ∨
      r.vectorClock.compare add.location.vectorClock = .equal) :
    ((r.deliver cfg name (add.deliver cfg name s)).view name).known.isSome =
        ((add.deliver cfg name (r.deliver cfg name s)).view name).known.isSome ↔
      ¬ (add.location.peerId ≠ cfg.peerId ∧
          s.admits cfg add.senderPeerId name (add.stored cfg) = true) ∨
        r.vectorClock.compare add.location.vectorClock = .concurrent ∧
          stableConcurrentRemovalWins r.removingNodeId r.vectorClock (add.stored cfg) = true := by
  have hnotlt : ¬ r.vectorClock < add.location.vectorClock ∧
      ¬ add.location.vectorClock < r.vectorClock := by
    rcases hclock with h | h
    · rw [VectorClock.compare_eq_concurrent] at h
      exact ⟨fun hlt => h.1 hlt.le, fun hlt => h.2 hlt.le⟩
    · rw [VectorClock.compare_eq_equal] at h
      exact ⟨fun hlt => hlt.not_ge h.2, fun hlt => hlt.not_ge h.1⟩
  -- with the removal first the name ends up absent
  rw [known_remove_add hfresh hsender hnotlt.1, Option.isSome_none, Option.isSome_eq_false_iff,
    Option.isNone_iff_eq_none]
  by_cases hstored : add.location.peerId ≠ cfg.peerId ∧
      s.admits cfg add.senderPeerId name (add.stored cfg) = true
  · rw [known_add_remove hfresh hstored.1 hstored.2 hnotlt.2]
    simp [hstored]
  · -- the addition leaves no trace, and the removal only a tombstone
    have hself : s.afterChange cfg add.source (add.change name) = s := by
      exact afterChange_eq_self fun h => hstored ⟨h.1.1, h.2⟩
    have hview : (add.deliver cfg name s).view name = ⟨false, none, none⟩ := by
      rw [add.view_deliver, hself, hfresh]
    have hnone : ((r.deliver cfg name (add.deliver cfg name s)).view name).known = none := by
      rw [r.view_deliver, ActorRemoval.change, view_afterChange_removed, hview]
      rfl
    simp [hnone, hstored]

/-- A removal by node 2 that wins over a concurrent addition of node 1. -/
theorem add_remove_commute_iff_wins : let cfg := NodeConfig.ofDefaults ⟨9⟩
    let add := relayedUpdate 1 [(⟨1⟩, 1)] 10
    let r : ActorRemoval := ⟨.fromVec [(⟨2⟩, 1)], ⟨2⟩, .normal, ⟨8⟩, none, none, false⟩
    ((r.deliver cfg [97] (add.deliver cfg [97] .start)).view [97]).known.isSome =
        ((add.deliver cfg [97] (r.deliver cfg [97] .start)).view [97]).known.isSome := by
  intro cfg add r
  exact (add_remove_commute_iff cfg [97] .start rfl add r (by decide)
    (.inl (by decide +kernel))).mpr (.inr (by decide +kernel))

/-- A removal by node 1 loses against a concurrent addition of node 2 that is
there, and keeps it out when it comes first. -/
theorem add_remove_do_not_commute : let cfg := NodeConfig.ofDefaults ⟨9⟩
    let add := relayedUpdate 2 [(⟨2⟩, 1)] 10
    let r : ActorRemoval := ⟨.fromVec [(⟨1⟩, 1)], ⟨1⟩, .normal, ⟨8⟩, none, none, false⟩
    r.vectorClock.compare add.location.vectorClock = .concurrent ∧
      add.senderPeerId ≠ add.location.peerId ∧
      ((r.deliver cfg [97] (add.deliver cfg [97] .start)).view [97]).known.isSome = true ∧
      ((add.deliver cfg [97] (r.deliver cfg [97] .start)).view [97]).known.isSome = false := by
  decide +kernel

end IcanactRemote
