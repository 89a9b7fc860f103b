/-
Runs of the calls that change the actor directory.

A gossip call handles its message entry by entry, so a run of calls is a run of
entries: `entriesOf` lists those of one call and `exec_entriesOf` says that the
call does nothing else.  A point inside a call is a prefix of its entries.

* `GossipCall`, `RegistryCall` — the calls, with `Registry.gossip` and
  `Registry.call` their effect;
* `exec_entriesOfRun` — a run of gossip calls is the run of its entries;
* `view_entryStep` — everything one entry can do to one name;
* `delta_idempotent` — a delta within the limits changes nothing when it comes again.
-/
import IcanactRemote.ActorViews
import IcanactRemote.Run

namespace IcanactRemote

open Run List

/-! ### Calls -/

/-- A message of a peer that passed the session and sequence gates. -/
inductive GossipCall
  | delta (changes : List RegistryChange) (senderPeerId : PeerId)
      (bookkeepingAddr verifiedSenderAddr : Option SocketAddr) (ownerRestartAuthenticated : Bool)
  | fullSync (src : SyncSource) (remoteLocal remoteKnown : Table Text RemoteActorLocation)

/-- A call on the registry, by a peer or by the node itself. -/
inductive RegistryCall
  | gossip (call : GossipCall)
  | register (now : ℕ) (name : Text) (location : RemoteActorLocation)
      (priority : RegistrationPriority)
  | unregister (name : Text)

namespace Registry

variable (cfg : NodeConfig)

def gossip (s : Registry) : GossipCall → Registry
  | .delta changes sender bookkeeping verified restart =>
    s.applyDeltaFrom cfg changes sender bookkeeping verified restart
  | .fullSync src remoteLocal remoteKnown => s.mergeFullSync cfg src remoteLocal remoteKnown

def call (s : Registry) : RegistryCall → Registry
  | .gossip c => s.gossip cfg c
  | .register now name location priority =>
    (s.registerActorWithPriority cfg now name location priority).1
  | .unregister name => s.unregisterActor cfg name

end Registry

/-! ### Entries -/

/-- One thing a gossip call does. -/
inductive GossipEntry
  | change (src : DeltaSource) (change : RegistryChange)
  | update (src : SyncSource) (name : Text) (location : RemoteActorLocation)
  | file (addr : SocketAddr) (names : NameSet)
  | prune (senderPeerId : PeerId) (name : Text)

namespace Registry

variable (cfg : NodeConfig)

def entryStep (s : Registry) : GossipEntry → Registry
  | .change src c => s.afterChange cfg src c
  | .update src name location =>
    (Applying.applyUpdate cfg src ⟨s, .empty⟩ (name, location)).registry
  | .file addr names => { s with peerToActors := s.peerToActors.insert addr names }
  | .prune sender name => pruneOmitted sender s name

/-- The entries of a call that starts in `s`. -/
def entriesOf (s : Registry) : GossipCall → List GossipEntry
  | .delta changes sender bookkeeping verified restart =>
    let src : DeltaSource := ⟨sender, verified.or bookkeeping, restart⟩
    let senderActors := (bookkeeping.bind s.peerToActors.get).getD .empty
    let a := changes.foldl (Applying.applyChange cfg src) ⟨s, senderActors⟩
    changes.map (.change src) ++ (bookkeeping.map (.file · a.names)).toList
  | .fullSync src remoteLocal remoteKnown =>
    let updates := src.updatesToApply cfg remoteLocal remoteKnown
    let a := updates.foldl (Applying.applyUpdate cfg src) ⟨s, .empty⟩
    let omitted :=
      ((a.registry.peerToActors.get src.senderAddr).map fun previous =>
        previous.keys.filter fun name => !a.names.containsKey name).getD []
    updates.map (fun u => .update src u.1 u.2) ++
      .file src.senderAddr a.names :: omitted.map (.prune src.senderPeerId)

end Registry

namespace Applying

variable {cfg : NodeConfig}

lemma registry_applyUpdate (src : SyncSource) (a : Applying) (u : Text × RemoteActorLocation) :
    (a.applyUpdate cfg src u).registry = a.registry.entryStep cfg (.update src u.1 u.2) := by
  simp only [Registry.entryStep, applyUpdate]
  split_ifs with hpeer hglobal
  · rfl
  · rfl
  · split
    · rw [registry_noteKnown, registry_noteKnown]
    · split
      · rw [registry_noteKnown, registry_noteKnown]
      · rfl

lemma registry_foldl_applyUpdate (src : SyncSource) (us : List (Text × RemoteActorLocation))
    (a : Applying) : (us.foldl (applyUpdate cfg src) a).registry =
      exec (Registry.entryStep cfg) a.registry (us.map fun u => .update src u.1 u.2) := by
  induction us generalizing a with
  | nil => rfl
  | cons _ _ ih => rw [foldl_cons, ih, registry_applyUpdate, map_cons, exec_cons]

lemma exec_map_change (cfg : NodeConfig) (src : DeltaSource) (changes : List RegistryChange)
    (a : Applying) : exec (Registry.entryStep cfg) a.registry (changes.map (.change src)) =
      (changes.foldl (applyChange cfg src) a).registry := by
  rw [registry_foldl_applyChange, exec, foldl_map]
  rfl

end Applying

namespace Registry

variable {cfg : NodeConfig}

lemma exec_map_prune (sender : PeerId) (names : List Text) (s : Registry) :
    exec (entryStep cfg) s (names.map (.prune sender)) = names.foldl (pruneOmitted sender) s := by
  rw [exec, foldl_map]
  rfl

/-- **A call is the run of its entries.** -/
theorem exec_entriesOf (s : Registry) (c : GossipCall) :
    exec (entryStep cfg) s (entriesOf cfg s c) = s.gossip cfg c := by
  cases c with
  | delta changes sender bookkeeping verified restart =>
    have hfold := Applying.exec_map_change cfg ⟨sender, verified.or bookkeeping, restart⟩
      changes ⟨s, (bookkeeping.bind s.peerToActors.get).getD .empty⟩
    rw [entriesOf, exec_append, hfold]
    cases bookkeeping <;> rfl
  | fullSync src remoteLocal remoteKnown =>
    rw [entriesOf, exec_append, ← Applying.registry_foldl_applyUpdate src _ ⟨s, .empty⟩, exec_cons,
      exec_map_prune, gossip, mergeFullSync, pruneAfterSync, entryStep]
    cases ((src.updatesToApply cfg remoteLocal remoteKnown).foldl (Applying.applyUpdate cfg src)
      ⟨s, .empty⟩).registry.peerToActors.get src.senderAddr <;> rfl

/-- The entries of a run of calls. -/
def entriesOfRun (cfg : NodeConfig) (s : Registry) : List GossipCall → List GossipEntry
  | [] => []
  | c :: cs => entriesOf cfg s c ++ entriesOfRun cfg (s.gossip cfg c) cs

/-- **A run of calls is the run of its entries.** -/
theorem exec_entriesOfRun (s : Registry) (cs : List GossipCall) :
    exec (entryStep cfg) s (entriesOfRun cfg s cs) = exec (gossip cfg) s cs := by
  induction cs generalizing s with
  | nil => rfl
  | cons _ _ ih => rw [entriesOfRun, exec_append, exec_entriesOf, ih, exec_cons]

end Registry

/-! ### What an entry does to a name -/

/-- The entry offers to store `location` under `name`, on behalf of `sender`. -/
def GossipEntry.Offers (text : AddrText) (name : Text) (location : RemoteActorLocation)
    (sender : PeerId) (restart : Bool) : GossipEntry → Prop
  | .change src (.actorAdded n l _) => n = name ∧ src.resolve text l = location ∧
      src.senderPeerId = sender ∧ src.ownerRestartAuthenticated = restart
  | .update src n l => n = name ∧ l = location ∧
      src.senderPeerId = sender ∧ src.ownerRestartAuthenticated = restart
  | _ => False

namespace Registry

/-- **Everything an entry can do to a name**: nothing, store what it offers,
record a removal, or drop an entry the sender no longer advertises. -/
theorem view_entryStep (cfg : NodeConfig) (s : Registry) (e : GossipEntry) (n : Text) :
    (s.entryStep cfg e).view n = s.view n ∨
    (∃ location sender restart, e.Offers cfg.text n location sender restart ∧
      (s.view n).Wants cfg.peerId location sender restart ∧
      (s.entryStep cfg e).view n = (s.view n).store location) ∨
    (∃ clock removing removal only,
      (s.view n).currentActorRemovalPlan clock removing = some (removal, only) ∧
      (s.entryStep cfg e).view n =
        (s.view n).bury ((s.view n).tombstoneFor removal removing)) ∨
    (∃ l, (s.view n).known = some l) ∧
      (s.entryStep cfg e).view n = { s.view n with known := none } := by
  cases e with
  | change src c =>
    -- a change acts on its own name, by the plan of its kind
    by_cases hn : n = c.actorName
    · subst hn
      cases c with
      | actorAdded name location priority =>
        rcases view_afterChange_added s cfg src name location priority with h | ⟨hw, h⟩
        · exact .inl h
        · exact .inr (.inl ⟨_, _, _, ⟨rfl, rfl, rfl, rfl⟩, hw, h⟩)
      | actorRemoved name clock removing priority =>
        have h := view_afterChange_removed s cfg src name clock removing priority
        rcases hplan : (s.view name).currentActorRemovalPlan clock removing with
          _ | ⟨removal, only⟩
        · rw [hplan] at h
          exact .inl h
        · rw [hplan] at h
          exact .inr (.inr (.inl ⟨clock, removing, removal, only, hplan, h⟩))
    · exact .inl (view_afterChange_of_ne hn)
  | update src name location =>
    rcases Applying.view_applyUpdate cfg src ⟨s, .empty⟩ name location with h | ⟨hw, h⟩
    · exact .inl (by rw [entryStep, h])
    · by_cases hn : n = name
      · subst hn
        have hview := h n
        rw [if_pos rfl] at hview
        exact .inr (.inl ⟨_, _, _, ⟨rfl, rfl, rfl, rfl⟩, hw, hview⟩)
      · exact .inl (by rw [entryStep, h, if_neg hn])
  | file => exact .inl rfl
  | prune sender name =>
    rcases view_pruneOmitted sender s name n with h | ⟨rfl, ⟨l, hl, -⟩, h⟩
    · exact .inl h
    · exact .inr (.inr (.inr ⟨⟨l, hl⟩, h⟩))

end Registry

/-! ### The same delta again -/

variable {cfg : NodeConfig} {src : DeltaSource} {s : Registry} {changes : List RegistryChange}

/-- Nothing is left to do for the change. -/
def NameView.Settled (cfg : NodeConfig) (src : DeltaSource) (v : NameView) : RegistryChange → Prop
  | .actorAdded _ location _ =>
    ¬ v.Wants cfg.peerId (src.resolve cfg.text location) src.senderPeerId
      src.ownerRestartAuthenticated
  | .actorRemoved _ clock removing _ => v.currentActorRemovalPlan clock removing = none

lemma NameView.settled_apply (v : NameView) (c : RegistryChange) :
    (v.apply cfg src c).Settled cfg src c := by
  cases c with
  | actorAdded _ location =>
    by_cases hwants : v.Wants cfg.peerId (src.resolve cfg.text location) src.senderPeerId
        src.ownerRestartAuthenticated
    · rw [apply_added_of_wants hwants]
      rintro ⟨-, -, -, htakes⟩
      exact absurd (htakes _ rfl) (by simp [RemoteActorLocation.beats_irrefl])
    · rw [apply_added_of_not_wants hwants]
      exact hwants
  | actorRemoved _ clock removing =>
    simp only [Settled, NameView.apply]
    rcases hplan : v.currentActorRemovalPlan clock removing with _ | ⟨removal, only⟩
    · exact hplan
    · -- the tombstone covers the removal, also where it was merged into an older one
      refine removalPlan_eq_none_of_le (.inr ⟨rfl, _, rfl, ?_⟩)
      rcases (removalPlan_eq_some.mp hplan).2 with
        ⟨-, -, -, rfl, -⟩ | ⟨-, -, ⟨-, rfl⟩ | ⟨t, -, ⟨-, rfl⟩ | ⟨-, rfl⟩⟩⟩
      · exact le_rfl
      · exact le_rfl
      · exact le_rfl
      · exact VectorClock.le_merge_left _ _

namespace Registry

lemma afterChange_of_settled {c : RegistryChange}
    (h : (s.view c.actorName).Settled cfg src c) : s.afterChange cfg src c = s := by
  cases c with
  | actorAdded => exact afterChange_eq_self fun hw => h hw.1
  | actorRemoved name clock removing =>
    have hplan : (s.view name).currentActorRemovalPlan clock removing = none := h
    simp only [afterChange, applyRemoved, hplan]
    rfl

lemma settled_exec (hnames : (changes.map RegistryChange.actorName).Nodup)
    (hlim : Meets (fun s c => s.afterChange cfg src c) (WithinLimits cfg src) s changes) :
    ∀ c ∈ changes, ((exec (fun s c => s.afterChange cfg src c) s changes).view
      c.actorName).Settled cfg src c := by
  induction changes generalizing s with
  | nil => exact nofun
  | cons d ds ih =>
    rw [map_cons, nodup_cons] at hnames
    intro c hc
    rcases mem_cons.mp hc with rfl | hc
    · have hothers : Meets (fun s c => s.afterChange cfg src c)
          (fun _ e => c.actorName ≠ e.actorName) (s.afterChange cfg src c) ds := by
        refine meets_of_forall_mem (fun _ e he heq => ?_) _
        exact hnames.1 (heq ▸ mem_map_of_mem he)
      have hkept := exec_invariant_of_meets
        (P := fun t : Registry => t.view c.actorName = (s.view c.actorName).apply cfg src c)
        (fun t e ht hne => (view_afterChange_of_ne hne).trans ht) (view_afterChange hlim.1)
        hothers
      rw [exec_cons, hkept]
      exact NameView.settled_apply _ c
    · exact ih hnames.2 hlim.2 c hc

/-- The names that `apply_delta_from` returns: additions with immediate priority. -/
def appliedImmediate (cfg : NodeConfig) (src : DeltaSource) (s : Registry) :
    List RegistryChange → List Text
  | [] => []
  | change :: changes =>
    (match change with
      | .actorAdded name location priority =>
        if (s.applyAdded cfg src name location).isSome && priority.shouldTriggerImmediateGossip
        then [name] else []
      | .actorRemoved .. => []) ++ appliedImmediate cfg src (s.afterChange cfg src change) changes

lemma exec_of_settled (h : ∀ c ∈ changes, (s.view c.actorName).Settled cfg src c) :
    exec (fun s c => s.afterChange cfg src c) s changes = s ∧
      s.appliedImmediate cfg src changes = [] := by
  induction changes with
  | nil => exact ⟨rfl, rfl⟩
  | cons c _ ih =>
    have hself := afterChange_of_settled (h c mem_cons_self)
    obtain ⟨hexec, hnone⟩ := ih fun d hd => h d (mem_cons_of_mem c hd)
    rw [exec_cons, hself]
    refine ⟨hexec, ?_⟩
    cases c with
    | actorRemoved =>
      rw [appliedImmediate, hself, hnone]
      rfl
    | actorAdded name location =>
      have hskipped : (s.applyAdded cfg src name location).isSome = false := by
        rw [Bool.eq_false_iff, Ne, isSome_applyAdded]
        exact fun hw => h _ mem_cons_self hw.1
      rw [appliedImmediate, hself, hnone, hskipped]
      rfl

lemma applyDeltaFrom_maps {sender : PeerId} {bookkeeping verified : Option SocketAddr}
    {restart : Bool} : ∃ filed, s.applyDeltaFrom cfg changes sender bookkeeping verified restart =
      { exec (fun s c => s.afterChange cfg ⟨sender, verified.or bookkeeping, restart⟩ c) s changes
        with peerToActors := filed } := by
  have hfold := Applying.registry_foldl_applyChange cfg ⟨sender, verified.or bookkeeping, restart⟩
    changes ⟨s, (bookkeeping.bind s.peerToActors.get).getD .empty⟩
  rw [exec, ← hfold]
  cases bookkeeping with
  | none => exact ⟨_, rfl⟩
  | some => exact ⟨_, rfl⟩

/-- **A delta that is applied again changes nothing** and returns no names, if it has one
change for each name and none of them was turned away at a limit. -/
theorem delta_idempotent (s : Registry) (cfg : NodeConfig) (changes : List RegistryChange)
    (sender : PeerId) (bookkeeping verified : Option SocketAddr) (restart : Bool)
    (hnames : (changes.map RegistryChange.actorName).Nodup)
    (hlimits : Meets (fun s c => s.afterChange cfg ⟨sender, verified.or bookkeeping, restart⟩ c)
      (WithinLimits cfg ⟨sender, verified.or bookkeeping, restart⟩) s changes) :
    let once := s.applyDeltaFrom cfg changes sender bookkeeping verified restart
    let twice := once.applyDeltaFrom cfg changes sender bookkeeping verified restart
    twice.knownActors = once.knownActors ∧ twice.removedActors = once.removedActors ∧
      twice.pendingChanges = once.pendingChanges ∧
      once.appliedImmediate cfg ⟨sender, verified.or bookkeeping, restart⟩ changes = [] := by
  intro once twice
  have hsett : ∀ c ∈ changes, (once.view c.actorName).Settled cfg
      ⟨sender, verified.or bookkeeping, restart⟩ c := by
    intro c hc
    rw [view_applyDeltaFrom]
    exact settled_exec hnames hlimits c hc
  obtain ⟨hsame, hnone⟩ := exec_of_settled hsett
  obtain ⟨filed, htwice⟩ := applyDeltaFrom_maps
  rw [hsame] at htwice
  rw [show twice = _ from htwice]
  exact ⟨rfl, rfl, rfl, hnone⟩

/-- A removal that merges into a concurrent tombstone, and an urgent addition. -/
theorem delta_idempotent_merged : let cfg := NodeConfig.ofDefaults ⟨9⟩
    let s := start.setTombstone [97] ⟨.fromVec [(⟨1⟩, 1)], .unknown, none⟩
    let changes : List RegistryChange := [.actorRemoved [97] (.fromVec [(⟨2⟩, 1)]) ⟨2⟩ .normal,
      .actorAdded [98] (.hostedBy 2 [(⟨2⟩, 2)]) .immediate]
    let once := s.applyDeltaFrom cfg changes ⟨2⟩ none none false
    s.appliedImmediate cfg ⟨⟨2⟩, none, false⟩ changes = [[98]] ∧ once.pendingChanges.length = 1 ∧
      once.appliedImmediate cfg ⟨⟨2⟩, none, false⟩ changes = [] := by
  intro cfg s changes once
  refine ⟨by decide +kernel, by decide +kernel, ?_⟩
  exact (delta_idempotent s cfg changes ⟨2⟩ none none false (by decide +kernel)
    (by decide +kernel)).2.2.2

end Registry

end IcanactRemote
