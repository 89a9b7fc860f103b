/-
Garbage collection of vector clocks (`registry.rs`).

The collection drops the counters of inactive nodes from the clocks of local and
known actors.  A node is active when it is this node or has an entry in the peer
table that is not long dead, so a node without an entry is inactive, although
nothing says that it is dead.

* `activeNodes`, `runVectorClockGc` — the collection;
* `refuses_of_lt` — a change before the stored clock is refused;
* `Announced` — a local actor's clock counts what its announcement counted;
* `gc_keeps_clock_order` — while no counter of a node outside the peer table is
  dropped, older versions stay older;
* `gc_lets_older_version_win` — the runs in which one is.
-/
import IcanactRemote.ActorCalls
import IcanactRemote.SessionSequence

namespace IcanactRemote

open VectorClock List

open Run

/-! ### The collection -/

/-- The settings of the collection; the retention period is in seconds. -/
structure GcConfig where
  maxPeerFailures : ℕ
  vectorClockRetentionPeriod : ℕ

abbrev Peers := Table SocketAddr PeerInfo

/-- Whether the entry keeps its node active at `now`. -/
def PeerInfo.keepsActive (gc : GcConfig) (now : ℕ) (p : PeerInfo) : Bool :=
  if p.failures < gc.maxPeerFailures then true
  else
    match p.lastFailureTime with
    | some failureTime => !(now - failureTime > gc.vectorClockRetentionPeriod)
    | none => true

/-- The nodes whose counters are kept. -/
def activeNodes (cfg : NodeConfig) (gc : GcConfig) (peers : Peers) (now : ℕ) :
    List GossipNodeId :=
  cfg.nodeId :: peers.toList.filterMap fun e =>
    if e.2.keepsActive gc now then e.2.nodeId else none

def RemoteActorLocation.gcOldNodes (active : List GossipNodeId) (l : RemoteActorLocation) :
    RemoteActorLocation :=
  { l with vectorClock := l.vectorClock.gcOldNodes fun node => decide (node ∈ active) }

def Registry.runVectorClockGc (s : Registry) (active : List GossipNodeId) : Registry :=
  { s with
    localActors := s.localActors.iterMut fun _ l => l.gcOldNodes active
    knownActors := s.knownActors.iterMut fun _ l => l.gcOldNodes active }

/-- The node has an entry in the peer table. -/
def Listed (peers : Peers) (node : GossipNodeId) : Prop :=
  ∃ e ∈ peers.toList, e.2.nodeId = some node

/-- The node has entries in the peer table, all of them long dead. -/
def Expired (gc : GcConfig) (peers : Peers) (now : ℕ) (node : GossipNodeId) : Prop :=
  Listed peers node ∧ ∀ e ∈ peers.toList, e.2.nodeId = some node →
    e.2.failures ≥ gc.maxPeerFailures ∧
      ∃ t ∈ e.2.lastFailureTime, now - t > gc.vectorClockRetentionPeriod

instance (peers : Peers) (node : GossipNodeId) : Decidable (Listed peers node) := by
  unfold Listed
  infer_instance

instance (gc : GcConfig) (peers : Peers) (now : ℕ) (node : GossipNodeId) :
    Decidable (Expired gc peers now node) := by
  unfold Expired
  infer_instance

variable {l location : RemoteActorLocation} {node : GossipNodeId} {now : ℕ}

lemma mem_activeNodes_of_listed {cfg : NodeConfig} {gc : GcConfig} {peers : Peers}
    (hlisted : Listed peers node) (hlive : ¬ Expired gc peers now node) :
    node ∈ activeNodes cfg gc peers now := by
  unfold Expired at hlive
  push Not at hlive
  obtain ⟨e, he, hnode, hkeeps⟩ := hlive hlisted
  refine mem_cons_of_mem _ (mem_filterMap.mpr ⟨e, he, ?_⟩)
  have hact : e.2.keepsActive gc now = true := by
    unfold PeerInfo.keepsActive
    split_ifs with hfailures
    · rfl
    · split
      · next t ht => simpa using hkeeps (not_lt.mp hfailures) t ht
      · rfl
  rw [if_pos hact, hnode]

/-! ### Changes that are refused -/

namespace Registry

variable {s : Registry} {cfg : NodeConfig}

/-- A delta with this one change leaves the actors and the queue as they are. -/
def Refuses (cfg : NodeConfig) (s : Registry) (c : RegistryChange) : Prop :=
  ∀ sender bookkeeping verified restart,
    (∀ n, (s.applyDeltaFrom cfg [c] sender bookkeeping verified restart).view n = s.view n) ∧
    (s.applyDeltaFrom cfg [c] sender bookkeeping verified restart).pendingChanges =
      s.pendingChanges

lemma refuses_of_lt {c : RegistryChange} (hkn : s.knownActors.get c.actorName = some l)
    (hlt : c.vectorClock < l.vectorClock) : s.Refuses cfg c := by
  intro sender bookkeeping verified restart
  have hself : ∀ src, s.afterChange cfg src c = s := by
    intro src
    cases c with
    | actorAdded =>
      apply afterChange_eq_self
      rintro ⟨⟨-, -, -, htakes⟩, -⟩
      rcases RemoteActorLocation.beats_iff.mp (htakes l hkn) with haft | ⟨hnot, -⟩
      · exact lt_asymm hlt haft
      · exact hnot hlt
    | actorRemoved name clock removing =>
      have hplan : (s.view name).currentActorRemovalPlan clock removing = none :=
        NameView.removalPlan_eq_none_of_le (.inl ⟨l, hkn, hlt.le⟩)
      simp only [afterChange, applyRemoved, hplan]
      rfl
  have hone : (Applying.applyChange cfg ⟨sender, verified.or bookkeeping, restart⟩
      ⟨s, (bookkeeping.bind s.peerToActors.get).getD .empty⟩ c).registry = s := by
    rw [Applying.registry_applyChange]
    exact hself _
  constructor
  · intro n
    rw [view_applyDeltaFrom, foldl_cons, foldl_nil, hself]
  · -- the sender's file of names may change, nothing else
    cases bookkeeping with
    | none => exact congrArg pendingChanges hone
    | some =>
      show (Applying.applyChange cfg _ _ c).registry.pendingChanges = _
      rw [hone]

/-! ### Announcements of local actors -/

/-- The clock under which a change announces the actor. -/
def announcedClock (name : Text) : RegistryChange → Option Clock
  | .actorAdded n location _ => if n = name then some location.vectorClock else none
  | .actorRemoved .. => none

/-- The clock of the last announcement of the actor. -/
def lastAnnounced (s : Registry) (name : Text) : Option Clock :=
  (s.pendingChanges.filterMap (announcedClock name)).getLast?

/-- Every local actor was announced, and its clock counts what the announcement
counted. -/
def Announced (s : Registry) : Prop :=
  ∀ name l, s.localActors.get name = some l →
    ∃ announced, s.lastAnnounced name = some announced ∧
      ∀ node, l.vectorClock.get node = announced.get node

variable {s' : Registry} {name n : Text}

lemma lastAnnounced_of_removed {cs : List RegistryChange}
    (h : s'.pendingChanges = s.pendingChanges ++ cs) (hcs : ∀ c ∈ cs, c.isRemoved = true) :
    s'.lastAnnounced name = s.lastAnnounced name := by
  have hnone : cs.filterMap (announcedClock name) = [] := by
    rw [filterMap_eq_nil_iff]
    intro c hc
    cases c with
    | actorAdded => exact absurd (hcs _ hc) (by simp [RegistryChange.isRemoved])
    | actorRemoved => rfl
  rw [lastAnnounced, h, filterMap_append, hnone, append_nil, lastAnnounced]

lemma lastAnnounced_of_added {priority : RegistrationPriority}
    (h : s'.pendingChanges = s.pendingChanges ++ [.actorAdded name location priority]) :
    s'.lastAnnounced n = if n = name then some location.vectorClock else s.lastAnnounced n := by
  rw [lastAnnounced, h, filterMap_append]
  split_ifs with hn
  · subst hn
    simp [announcedClock]
  · have hoth : announcedClock n (.actorAdded name location priority) = none :=
      if_neg (Ne.symm hn)
    rw [filterMap_cons_none hoth, filterMap_nil, append_nil, lastAnnounced]

/-- What gossip does to the local actors and the queue: removals are passed on. -/
def OnlyForwards (s s' : Registry) : Prop :=
  s'.localActors = s.localActors ∧
    ∃ cs, (∀ c ∈ cs, c.isRemoved = true) ∧ s'.pendingChanges = s.pendingChanges ++ cs

lemma OnlyForwards.of_same (hloc : s'.localActors = s.localActors)
    (hpend : s'.pendingChanges = s.pendingChanges) : OnlyForwards s s' :=
  ⟨hloc, [], by simp, by rw [hpend, append_nil]⟩

lemma onlyForwards_afterChange (src : DeltaSource) (c : RegistryChange) :
    OnlyForwards s (s.afterChange cfg src c) := by
  rcases s.afterChange_cases cfg src c with
    heq | ⟨location, clear, hadmit⟩ | ⟨tombstone, forwarded, hrem, heq | heq⟩
  · rw [heq]
    exact .of_same rfl rfl
  · have hmaps := admitLocation_maps hadmit
    exact .of_same hmaps.localActors hmaps.pendingChanges
  · rw [heq]
    exact ⟨rfl, [forwarded.asRegularGossipChange], by simpa using hrem, rfl⟩
  · rw [heq]
    have hsame := sameDirectory_release (s.removeKnown c.actorName) c.actorName
    exact ⟨hsame.localActors, [forwarded.asRegularGossipChange], by simpa using hrem,
      congrArg (· ++ [_]) hsame.pendingChanges⟩

lemma onlyForwards_entryStep (e : GossipEntry) : OnlyForwards s (s.entryStep cfg e) := by
  cases e with
  | change src c => exact onlyForwards_afterChange src c
  | update src name location =>
    show OnlyForwards s (Applying.applyUpdate cfg src ⟨s, .empty⟩ (name, location)).registry
    rcases Applying.applyUpdate_cases cfg src ⟨s, .empty⟩ (name, location) with
      ⟨heq, -⟩ | heq | ⟨s', clear, -, hadmit, heq⟩
    · rw [heq]
      exact .of_same rfl rfl
    · rw [heq, Applying.registry_noteKnown]
      exact .of_same rfl rfl
    · rw [heq]
      have hmaps := admitLocation_maps hadmit
      exact .of_same hmaps.localActors hmaps.pendingChanges
  | file => exact .of_same rfl rfl
  | prune sender name =>
    show OnlyForwards s (pruneOmitted sender s name)
    rcases pruneOmitted_cases sender s name with heq | ⟨-, heq⟩
    · rw [heq]
      exact .of_same rfl rfl
    · rw [heq]
      have hsame := sameDirectory_release (s.removeKnown name) name
      exact .of_same hsame.localActors hsame.pendingChanges

variable (hs : s.Announced)
include hs

lemma Announced.of_onlyForwards (h : OnlyForwards s s') : s'.Announced := by
  obtain ⟨hloc, cs, hcs, hpend⟩ := h
  intro name l hl
  rw [hloc] at hl
  rw [lastAnnounced_of_removed hpend hcs]
  exact hs name l hl

lemma Announced.register (now : ℕ) (name : Text) (location : RemoteActorLocation)
    (priority : RegistrationPriority) :
    (s.registerActorWithPriority cfg now name location priority).1.Announced := by
  rcases register_cases s cfg now name location priority with
    ⟨hloc, -, hpend⟩ | ⟨-, hloc, -, -, hpend⟩
  · exact hs.of_onlyForwards (.of_same hloc hpend)
  · intro n l hl
    rw [lastAnnounced_of_added hpend]
    rw [hloc, Table.get_insert] at hl
    split_ifs at hl ⊢ with hn
    · cases hl
      exact ⟨_, rfl, fun _ => rfl⟩
    · exact hs n l hl

lemma Announced.unregister (name : Text) : (s.unregisterActor cfg name).Announced := by
  rcases unregister_cases s cfg name with ⟨-, hloc, -, hpend⟩ | ⟨l, -, hloc, -, hpend⟩
  · exact hs.of_onlyForwards (.of_same hloc hpend)
  · intro n l hl
    rw [lastAnnounced_of_removed hpend (by simp [RegistryChange.isRemoved])]
    rw [hloc, Table.get_remove] at hl
    split_ifs at hl
    exact hs n l hl

lemma Announced.call (c : RegistryCall) : (s.call cfg c).Announced := by
  cases c with
  | gossip c =>
    show (s.gossip cfg c).Announced
    rw [← exec_entriesOf]
    exact exec_invariant (fun _ e h => h.of_onlyForwards (onlyForwards_entryStep e)) hs _
  | register now name location priority => exact hs.register now name location priority
  | unregister name => exact hs.unregister name

lemma Announced.runVectorClockGc {active : List GossipNodeId}
    (hact : ∀ name l, s.localActors.get name = some l →
      ∀ node, 0 < l.vectorClock.get node → node ∈ active) :
    (s.runVectorClockGc active).Announced := by
  intro name l hl
  obtain ⟨l₀, hl₀, rfl⟩ : ∃ l₀, s.localActors.get name = some l₀ ∧ l₀.gcOldNodes active = l := by
    rw [Registry.runVectorClockGc, Table.get_iterMut, Option.map_eq_some_iff] at hl
    exact hl
  obtain ⟨announced, hlast, hcounts⟩ := hs name l₀ hl₀
  refine ⟨announced, hlast, ?_⟩
  intro node
  rw [← hcounts node]
  show (l₀.vectorClock.gcOldNodes _).get node = _
  rw [get_gcOldNodes]
  have hkept := hact name l₀ hl₀ node
  split_ifs with hmem
  · rfl
  · rw [decide_eq_true_eq] at hmem
    have hzero := mt hkept hmem
    omega

end Registry

/-! ### Runs -/

structure GcSystem where
  registry : Registry
  peers : Peers

inductive GcEvent
  | call (c : RegistryCall)
  | setPeers (peers : Peers)
  | gc (now : ℕ)

namespace GcSystem

variable (cfg : NodeConfig) (gc : GcConfig)

def start : GcSystem := ⟨.start, .empty⟩

def step (σ : GcSystem) : GcEvent → GcSystem
  | .call c => { σ with registry := σ.registry.call cfg c }
  | .setPeers peers => { σ with peers := peers }
  | .gc now =>
    { σ with registry := σ.registry.runVectorClockGc (activeNodes cfg gc σ.peers now) }

/-- What keeps the counters: at a collection the clock of a known actor without
expired nodes counts only this node and nodes in the peer table, the clock of a
local actor only active nodes; and an unregistered actor's own counter is below
its bound. -/
def KeepsCounters (σ : GcSystem) : GcEvent → Prop
  | .gc now =>
    (∀ e ∈ σ.registry.knownActors.toList,
      (∀ node ∈ e.2.vectorClock.nodes, ¬ Expired gc σ.peers now node) →
      ∀ node ∈ e.2.vectorClock.nodes, 0 < e.2.vectorClock.get node →
        node = cfg.nodeId ∨ Listed σ.peers node) ∧
    ∀ e ∈ σ.registry.localActors.toList, ∀ node ∈ e.2.vectorClock.nodes,
      0 < e.2.vectorClock.get node → node ∈ activeNodes cfg gc σ.peers now
  | .call (.unregister name) =>
    ∀ l ∈ σ.registry.localActors.get name, l.vectorClock.get cfg.nodeId < u64Max
  | .call (.gossip _) | .call (.register ..) | .setPeers _ => True

instance (σ : GcSystem) : ∀ e : GcEvent, Decidable (KeepsCounters cfg gc σ e)
  | .gc _ => by
    unfold KeepsCounters
    infer_instance
  | .call (.unregister _) => by
    unfold KeepsCounters
    infer_instance
  | .call (.gossip _) => .isTrue trivial
  | .call (.register ..) => .isTrue trivial
  | .setPeers _ => .isTrue trivial

variable {cfg gc}

lemma mem_nodes_of_pos {v : Clock} (h : 0 < v.get node) : node ∈ v.nodes := by
  by_contra hmem
  rw [get_eq_zero_of_not_mem hmem] at h
  exact lt_irrefl 0 h

lemma announced_step (σ : GcSystem) (e : GcEvent) (hσ : σ.registry.Announced)
    (h : KeepsCounters cfg gc σ e) : (step cfg gc σ e).registry.Announced := by
  cases e with
  | call c => exact hσ.call c
  | setPeers => exact hσ
  | gc =>
    apply hσ.runVectorClockGc
    intro name l hl node hpos
    exact h.2 (name, l) (Table.mem_toList.mpr hl) node (mem_nodes_of_pos hpos) hpos

lemma le_gcOldNodes_known {σ : GcSystem} (h : KeepsCounters cfg gc σ (.gc now)) {name : Text}
    (hl : σ.registry.knownActors.get name = some l)
    (hlive : ∀ node ∈ l.vectorClock.nodes, ¬ Expired gc σ.peers now node) :
    l.vectorClock ≤ (l.gcOldNodes (activeNodes cfg gc σ.peers now)).vectorClock := by
  apply le_gcOldNodes
  intro node hpos
  have hmem := mem_nodes_of_pos hpos
  rw [decide_eq_true_eq]
  rcases h.1 (name, l) (Table.mem_toList.mpr hl) hlive node hmem hpos with hself | hlisted
  · rw [hself]
    exact mem_cons_self
  · exact mem_activeNodes_of_listed hlisted (hlive node hmem)

/-- **Collections keep the order of versions**, in every run that keeps the
counters: right after a collection a change before the clock that a known actor
had before it is refused, and the removal of a local actor comes after its
announcement. -/
theorem gc_keeps_clock_order (cfg : NodeConfig) (gc : GcConfig) (es : List GcEvent)
    (h : Meets (step cfg gc) (KeepsCounters cfg gc) start es) : (∀ p now q, es = p ++ .gc now :: q →
      ∀ name l, (exec (step cfg gc) start p).registry.knownActors.get name = some l →
        (∀ node ∈ l.vectorClock.nodes,
          ¬ Expired gc (exec (step cfg gc) start p).peers now node) →
        ∀ c : RegistryChange, c.actorName = name →
          c.vectorClock.compare l.vectorClock = .before →
          (exec (step cfg gc) start (p ++ [.gc now])).registry.Refuses cfg c) ∧
    (∀ p name q, es = p ++ .call (.unregister name) :: q →
      ∀ l, (exec (step cfg gc) start p).registry.localActors.get name = some l →
        ∃ announced removal,
          (exec (step cfg gc) start p).registry.lastAnnounced name = some announced ∧
          (exec (step cfg gc) start (p ++ [.call (.unregister name)])).registry.pendingChanges =
            (exec (step cfg gc) start p).registry.pendingChanges ++
              [.actorRemoved name removal cfg.nodeId .normal] ∧
          removal.compare announced = .after) := by
  constructor
  · rintro p now q rfl name l hl hlive c rfl hbefore
    obtain ⟨-, hkeeps, -⟩ := meets_append.mp h
    -- the clock of an actor without expired nodes is not lowered
    have hle := le_gcOldNodes_known hkeeps hl hlive
    have hlt := (compare_eq_before.mp hbefore).trans_le hle
    rw [exec_concat]
    refine Registry.refuses_of_lt ?_ hlt
    show (Table.iterMut _ _).get c.actorName = _
    rw [Table.get_iterMut, hl]
    rfl
  · rintro p name q rfl l hl
    obtain ⟨hp, hkeeps, -⟩ := meets_append.mp h
    have hsta : start.registry.Announced := by
      intro n l hl
      simp [start, Registry.start] at hl
    -- the counters of the last announcement are still in the local clock
    have hann : (exec (step cfg gc) start p).registry.Announced :=
      exec_invariant_of_meets announced_step hsta hp
    obtain ⟨announced, hlast, hcounts⟩ := hann name l hl
    refine ⟨announced, Registry.removalClock cfg l, hlast, ?_, ?_⟩
    · rw [exec_concat]
      rcases Registry.unregister_cases (exec (step cfg gc) start p).registry cfg name with
        ⟨hnone, -⟩ | ⟨l', hl', -, -, hpend⟩
      · rw [hl] at hnone
        simp at hnone
      · obtain rfl := Option.some.inj (hl.symm.trans hl')
        exact hpend
    · have hle : announced ≤ l.vectorClock := fun node => (hcounts node).ge
      rw [compare_eq_after]
      exact hle.trans_lt (lt_increment (hkeeps l hl))

/-- The node `⟨8⟩` relays an actor of the node `⟨1⟩`. -/
def relayedActor (clock : ℕ) : RegistryChange :=
  .actorAdded [97] (.hostedBy 1 [(⟨1⟩, clock)]) .normal

def relay (changes : List RegistryChange) : GcEvent :=
  .call (.gossip (.delta changes ⟨8⟩ none none false))

def peerEntry (id : ℕ) : PeerInfo := { PeerInfo.new with nodeId := some ⟨BitVec.ofNat 256 id⟩ }

/-- With the owner in the peer table the collection keeps its counter. -/
theorem gc_keeps_clock_order_listed : let cfg := NodeConfig.ofDefaults ⟨9⟩
    let gc : GcConfig := ⟨2, 7200⟩
    let p := [relay [relayedActor 2], .setPeers (Table.empty.insert (.v4 1 7000) (peerEntry 1))]
    (exec (step cfg gc) start (p ++ [.gc 0])).registry.Refuses cfg (relayedActor 1) := by
  intro cfg gc p
  have hl : (exec (step cfg gc) start p).registry.knownActors.get [97] =
      some (.hostedBy 1 [(⟨1⟩, 2)]) := by decide +kernel
  exact (gc_keeps_clock_order cfg gc (p ++ [.gc 0]) (by decide +kernel)).1 p 0 [] rfl [97] _ hl
    (by decide +kernel) (relayedActor 1) rfl (by decide +kernel)

/-- With only the relay in the peer table an older version of the actor wins
after a collection; and a local actor whose clock covers the removal of an earlier
remote one is removed by a clock that does not cover its own announcement. -/
theorem gc_lets_older_version_win : let cfg := NodeConfig.ofDefaults ⟨9⟩
    let gc : GcConfig := ⟨2, 7200⟩
    let peers : GcEvent := .setPeers (Table.empty.insert (.v4 8 7000) (peerEntry 8))
    let σ := exec (step cfg gc) start [relay [relayedActor 2], peers]
    let collected := step cfg gc σ (.gc 0)
    let removal : RegistryChange := .actorRemoved [97] (.fromVec [(⟨1⟩, 3)]) ⟨1⟩ .normal
    let τ := exec (step cfg gc) start [peers, relay [relayedActor 2, removal],
      .call (.register 0 [97] (.hostedBy 9 []) .normal), .gc 0]
    let unregistered := step cfg gc τ (.call (.unregister [97]))
    (σ.registry.knownActors.get [97] = some (.hostedBy 1 [(⟨1⟩, 2)]) ∧
      ¬ Expired gc σ.peers 0 ⟨1⟩ ∧
      (relayedActor 1).vectorClock.compare (.fromVec [(⟨1⟩, 2)]) = .before ∧
      (collected.registry.applyDeltaFrom cfg [relayedActor 1] ⟨8⟩ none none
        false).knownActors.get [97] = some (.hostedBy 1 [(⟨1⟩, 1)])) ∧
    (τ.registry.lastAnnounced [97] = some (.fromVec [(⟨1⟩, 3), (⟨9⟩, 1)]) ∧
      unregistered.registry.pendingChanges.getLast? =
        some (.actorRemoved [97] (.fromVec [(⟨9⟩, 2)]) ⟨9⟩ .normal) ∧
      (VectorClock.fromVec [(⟨9⟩, 2)] : Clock).compare (.fromVec [(⟨1⟩, 3), (⟨9⟩, 1)]) =
        .concurrent) := by
  decide +kernel

end GcSystem

end IcanactRemote
