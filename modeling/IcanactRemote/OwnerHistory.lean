/-
One owner's changes converge.

A node registers and unregisters an actor of its own, and each change goes out
with a clock above that of the change before it (`ownHistory_exec`).  A receiver that
is fed these changes in any order, with repetitions and gaps, ends up showing
the latest one it was given (`exec_reflects`), because at every point it shows
the latest one so far:

* a later change replaces what is shown (`shows_of_lt`);
* the same or an earlier change leaves it (`shows_of_same`, `shows_of_gt`); an
  earlier addition cannot pass the tombstone of a deliberate removal.

The clocks are strictly increasing as long as the owner's counter has not
reached its bound, where increments stop counting.
-/
import IcanactRemote.ActorCalls

namespace IcanactRemote

open Run Registry List

/-! ### The owner -/

/-- A call of the owner for its actor. -/
inductive OwnerCall
  | register (now : ℕ) (location : RemoteActorLocation) (priority : RegistrationPriority)
  | unregister

namespace OwnerCall

def toCall (name : Text) : OwnerCall → RegistryCall
  | register now location priority => .register now name location priority
  | unregister => .unregister name

/-- What is registered is an actor of this node. -/
def Owned (cfg : NodeConfig) : OwnerCall → Prop
  | register _ location _ => location.peerId = cfg.peerId ∧ location.nodeId = cfg.nodeId
  | unregister => True

end OwnerCall

/-- A change the node makes to an actor of its own. -/
def RegistryChange.ByOwner (cfg : NodeConfig) (name : Text) : RegistryChange → Prop
  | .actorAdded n location _ =>
    n = name ∧ location.peerId = cfg.peerId ∧ location.nodeId = cfg.nodeId
  | .actorRemoved n _ removing _ => n = name ∧ removing = cfg.nodeId

/-- The changes queued since `s₀`. -/
def Registry.announcedSince (s₀ s : Registry) : List RegistryChange :=
  s.pendingChanges.drop s₀.pendingChanges.length

/-- The registry agrees with the last change it announced. -/
def Registry.Agrees (s : Registry) (name : Text) : RegistryChange → Prop
  | .actorAdded _ location _ => s.localActors.get name = some location
  | .actorRemoved _ clock _ _ =>
    s.localActors.get name = none ∧ ∃ t, s.removedActors.get name = some t ∧ t.vectorClock = clock

/-- What holds of the owner after it has announced `cs`. -/
structure OwnHistory (cfg : NodeConfig) (name : Text) (s₀ s : Registry) (cs : List RegistryChange) :
    Prop where
  pending : s.pendingChanges = s₀.pendingChanges ++ cs
  byOwner : ∀ c ∈ cs, c.ByOwner cfg name
  agrees : ∀ c ∈ cs.getLast?, s.Agrees name c
  ascending : (∀ c ∈ cs.dropLast, c.vectorClock.get cfg.nodeId < u64Max) →
    cs.IsChain fun a b => a.vectorClock < b.vectorClock

namespace OwnHistory

variable {cfg : NodeConfig} {name : Text} {s₀ s s' : Registry} {cs : List RegistryChange}

lemma of_unchanged (h : OwnHistory cfg name s₀ s cs) (hl : s'.localActors = s.localActors)
    (hr : s'.removedActors = s.removedActors) (hp : s'.pendingChanges = s.pendingChanges) :
    OwnHistory cfg name s₀ s' cs where
  pending := hp.trans h.pending
  byOwner := h.byOwner
  agrees c hc := by
    have hagrees := h.agrees c hc
    cases c with
    | actorAdded =>
      rw [Agrees, hl]
      exact hagrees
    | actorRemoved =>
      rw [Agrees, hl, hr]
      exact hagrees
  ascending := h.ascending

lemma concat {c : RegistryChange} (h : OwnHistory cfg name s₀ s cs)
    (hp : s'.pendingChanges = s.pendingChanges ++ [c]) (hc : c.ByOwner cfg name)
    (hagrees : s'.Agrees name c)
    (hlt : ∀ b ∈ cs.getLast?, b.vectorClock.get cfg.nodeId < u64Max →
      b.vectorClock < c.vectorClock) : OwnHistory cfg name s₀ s' (cs ++ [c]) where
  pending := by rw [hp, h.pending, append_assoc]
  byOwner d hd := by
    rcases mem_append.mp hd with hd | hd
    · exact h.byOwner d hd
    · rw [mem_singleton.mp hd]
      exact hc
  agrees d hd := by
    rw [getLast?_concat, Option.mem_some_iff] at hd
    rw [← hd]
    exact hagrees
  ascending hmax := by
    rw [dropLast_concat] at hmax
    refine RegistryChange.isChain_concat ?_ ?_
    · exact h.ascending fun d hd => hmax d (dropLast_subset cs hd)
    · intro b hb
      exact hlt b hb (hmax b (mem_of_getLast? hb))

end OwnHistory

lemma ownHistory_step {cfg : NodeConfig} {name : Text} {s₀ s : Registry}
    {cs : List RegistryChange} (h : OwnHistory cfg name s₀ s cs) (call : OwnerCall)
    (howned : call.Owned cfg) :
    ∃ cs', OwnHistory cfg name s₀ (s.call cfg (call.toCall name)) cs' := by
  cases call with
  | register now location priority =>
    rcases s.register_cases cfg now name location priority with
      ⟨hl, hr, hp⟩ | ⟨hfree, hl, -, hr, hp⟩
    · exact ⟨cs, h.of_unchanged hl hr hp⟩
    · refine ⟨_, h.concat hp ⟨rfl, howned.1, howned.2⟩ ?_ ?_⟩
      · exact (congrArg (·.get name) hl).trans (by rw [Table.get_insert, if_pos rfl])
      · -- the name is free, so the last change was a removal; its tombstone is
        -- merged into the new clock
        intro b hb hmax
        have hagrees := h.agrees b hb
        cases b with
        | actorAdded =>
          rw [Agrees, hfree] at hagrees
          simp at hagrees
        | actorRemoved =>
          obtain ⟨-, t, ht, rfl⟩ := hagrees
          have hnode : location.nodeId = cfg.nodeId := howned.2
          simp only [stampLocation, ht, RegistryChange.vectorClock, hnode]
          exact VectorClock.lt_increment_merge _ hmax
  | unregister =>
    rcases s.unregister_cases cfg name with ⟨-, hl, hr, hp⟩ | ⟨l, hloc, hl, hr, hp⟩
    · exact ⟨cs, h.of_unchanged hl hr hp⟩
    · refine ⟨_, h.concat hp ⟨rfl, rfl⟩ ?_ ?_⟩
      · exact ⟨(congrArg (·.get name) hl).trans (by rw [Table.get_remove, if_pos rfl]), _,
          (congrArg (·.get name) hr).trans (by rw [Table.get_insert, if_pos rfl]), rfl⟩
      · -- the actor is local, so the last change announced it, with this clock
        intro b hb hmax
        have hagrees := h.agrees b hb
        cases b with
        | actorAdded =>
          obtain rfl := Option.some.inj (hagrees.symm.trans hloc)
          exact VectorClock.lt_increment hmax
        | actorRemoved =>
          rw [Agrees, hloc] at hagrees
          exact absurd hagrees.1 (by simp)

/-- **The owner's changes** are its own, and their clocks ascend while its
counter is below the bound. -/
theorem ownHistory_exec {cfg : NodeConfig} {name : Text} (s₀ : Registry) {calls : List OwnerCall}
    (howned : ∀ call ∈ calls, call.Owned cfg) :
    OwnHistory cfg name s₀ (exec (call cfg) s₀ (calls.map (·.toCall name)))
      (s₀.announcedSince (exec (call cfg) s₀ (calls.map (·.toCall name)))) := by
  have hrun : ∀ s cs, OwnHistory cfg name s₀ s cs → ∃ cs', OwnHistory cfg name s₀
      (exec (call cfg) s (calls.map (·.toCall name))) cs' := by
    induction calls with
    | nil => exact fun s cs h => ⟨cs, h⟩
    | cons call calls ih =>
      intro s cs h
      obtain ⟨cs', h'⟩ := ownHistory_step h call (howned call mem_cons_self)
      exact ih (fun c hc => howned c (mem_cons_of_mem _ hc)) _ cs' h'
  have hsta : OwnHistory cfg name s₀ s₀ [] :=
    ⟨(append_nil _).symm, by simp, by simp, fun _ => isChain_nil⟩
  obtain ⟨cs, h⟩ := hrun s₀ [] hsta
  have hcs : s₀.announcedSince (exec (call cfg) s₀ (calls.map (·.toCall name))) = cs := by
    rw [announcedSince, h.pending, drop_left]
  rw [hcs]
  exact h

/-! ### The receiver -/

namespace NameView

/-- The view shows the change: its actor under its clock, or its tombstone. -/
def Shows (v : NameView) : RegistryChange → Prop
  | .actorAdded _ location _ => ∃ e, v.known = some e ∧ e.vectorClock = location.vectorClock
  | .actorRemoved _ clock _ _ => v.known = none ∧ ∃ t, v.removed = some t ∧ t.vectorClock = clock

/-- Everything in the view is below `clock` and comes from the owner. -/
structure Below (owner : GossipNodeId) (v : NameView) (clock : Clock) : Prop where
  notLocal : v.isLocal = false
  known : ∀ e, v.known = some e → e.vectorClock < clock ∧ e.nodeId = owner
  removed : ∀ t, v.removed = some t → t.vectorClock < clock ∧ t.kind ≠ .peerDeath

/-- The view shows an owner's change and has nothing else. -/
structure ShowsOwn (owner : GossipNodeId) (v : NameView) (c : RegistryChange) : Prop where
  shows : v.Shows c
  notLocal : v.isLocal = false
  known : ∀ e, v.known = some e → e.vectorClock = c.vectorClock ∧ e.nodeId = owner
  removed : ∀ t, v.removed = some t → t.vectorClock = c.vectorClock ∧ t.kind ≠ .peerDeath

variable {v : NameView} {owner rcv : NodeConfig} {src : DeltaSource} {name : Text}
  {c d : RegistryChange}

lemma below_fresh (owner : GossipNodeId) (clock : Clock) : Below owner ⟨false, none, none⟩ clock :=
  ⟨rfl, by simp, by simp⟩

lemma ShowsOwn.below {owner : GossipNodeId} (h : ShowsOwn owner v c)
    (hlt : c.vectorClock < d.vectorClock) : Below owner v d.vectorClock where
  notLocal := h.notLocal
  known e he := ⟨(h.known e he).1 ▸ hlt, (h.known e he).2⟩
  removed t ht := ⟨(h.removed t ht).1 ▸ hlt, (h.removed t ht).2⟩

lemma showsOwn_store {owner : GossipNodeId} {location : RemoteActorLocation}
    {priority : RegistrationPriority} (hloc : v.isLocal = false) (hnode : location.nodeId = owner)
    {text : AddrText} : ShowsOwn owner (v.store (src.resolve text location))
      (.actorAdded name location priority) where
  shows := ⟨_, rfl, rfl⟩
  notLocal := hloc
  known e he := by
    obtain rfl := Option.some.inj he
    exact ⟨rfl, hnode⟩
  removed t ht := absurd ht (by simp [store])

/-- **A change above everything in the view is shown.** -/
theorem Below.showsOwn (h : Below owner.nodeId v d.vectorClock) (hd : d.ByOwner owner name)
    (hself : rcv.peerId ≠ owner.peerId) : ShowsOwn owner.nodeId (v.apply rcv src d) d := by
  cases d with
  | actorAdded n l =>
    obtain ⟨-, hpeer, hnode⟩ := hd
    have hwants : v.Wants rcv.peerId (src.resolve rcv.text l) src.senderPeerId
        src.ownerRestartAuthenticated := by
      refine ⟨fun heq => hself ?_, h.notLocal, fun t ht => .inl (h.removed t ht).1,
        fun e he => RemoteActorLocation.beats_iff.mpr (.inl (h.known e he).1)⟩
      rw [← hpeer, ← heq]
      rfl
    rw [apply_added_of_wants hwants]
    exact showsOwn_store h.notLocal hnode
  | actorRemoved n r =>
    obtain ⟨-, rfl⟩ := hd
    -- the clock of the removal is above the entry, or above the tombstone
    have hplan : ∃ only, v.currentActorRemovalPlan r owner.nodeId = some (r, only) := by
      rcases hk : v.known with _ | e
      · refine ⟨true, removalPlan_eq_some.mpr ⟨h.notLocal, .inr ⟨hk, rfl, ?_⟩⟩⟩
        rcases hr : v.removed with _ | t
        · exact .inl ⟨rfl, rfl⟩
        · exact .inr ⟨t, rfl, .inl ⟨(h.removed t hr).1, rfl⟩⟩
      · exact ⟨false, removalPlan_eq_some.mpr
          ⟨h.notLocal, .inl ⟨e, hk, rfl, rfl, .inl (h.known e hk).1⟩⟩⟩
    obtain ⟨only, hplan⟩ := hplan
    have hkind : v.removalKind owner.nodeId ≠ .peerDeath :=
      removalKind_ne_peerDeath (fun e he => (h.known e he).2) fun t ht => (h.removed t ht).2
    rw [apply, hplan]
    exact
      { shows := ⟨rfl, _, rfl, rfl⟩
        notLocal := h.notLocal
        known := fun e he => absurd he (by simp [bury])
        removed := fun t ht => by
          obtain rfl := Option.some.inj ht
          exact ⟨rfl, hkind⟩ }

/-- **An earlier change leaves the view alone**; no addition undoes a deliberate
removal without a restart. -/
theorem ShowsOwn.apply_of_lt {owner : GossipNodeId} (h : ShowsOwn owner v c)
    (hlt : d.vectorClock < c.vectorClock) : v.apply rcv src d = v := by
  cases d with
  | actorAdded n l =>
    refine apply_added_of_not_wants fun hwants => ?_
    obtain ⟨-, -, hpass, htakes⟩ := hwants
    cases c with
    | actorAdded =>
      obtain ⟨e, he, hclk⟩ := h.shows
      have hbefore : l.vectorClock < e.vectorClock := hclk ▸ hlt
      rcases RemoteActorLocation.beats_iff.mp (htakes e he) with haft | ⟨hnot, -⟩
      · exact lt_asymm haft hbefore
      · exact hnot hbefore
    | actorRemoved =>
      obtain ⟨-, t, ht, hclk⟩ := h.shows
      have hbefore : l.vectorClock < t.vectorClock := hclk ▸ hlt
      rcases hpass t ht with haft | hrec
      · exact lt_asymm haft hbefore
      · -- recovery would need a larger counter of the owner
        have hget := (lt_of_ownerRecoveryWinsTombstone (h.removed t ht).2 hrec).2
        exact hget.not_ge (hbefore.le l.nodeId)
  | actorRemoved n r m =>
    have hplan : v.currentActorRemovalPlan r m = none := by
      apply removalPlan_eq_none_of_le
      cases c with
      | actorAdded =>
        obtain ⟨e, he, hclk⟩ := h.shows
        exact .inl ⟨e, he, (hclk ▸ hlt.le)⟩
      | actorRemoved =>
        obtain ⟨hnone, t, ht, hclk⟩ := h.shows
        exact .inr ⟨hnone, t, ht, (hclk ▸ hlt.le)⟩
    rw [apply, hplan]

/-- **A repeated change leaves what is shown.** -/
theorem ShowsOwn.apply_of_same (h : ShowsOwn owner.nodeId v c) (hc : c.ByOwner owner name)
    (hsame : d.asRegularGossipChange = c) : ShowsOwn owner.nodeId (v.apply rcv src d) c := by
  subst hsame
  cases d with
  | actorAdded n l =>
    by_cases hwants : v.Wants rcv.peerId (src.resolve rcv.text l) src.senderPeerId
        src.ownerRestartAuthenticated
    · rw [apply_added_of_wants hwants]
      exact showsOwn_store h.notLocal hc.2.2
    · rw [apply_added_of_not_wants hwants]
      exact h
  | actorRemoved n r m =>
    obtain ⟨hnone, t, ht, hclk⟩ := h.shows
    have hplan : v.currentActorRemovalPlan r m = none :=
      removalPlan_eq_none_of_le (.inr ⟨hnone, t, ht, hclk.ge⟩)
    rw [apply, hplan]
    exact h

end NameView

/-! ### Deliveries -/

/-- A delta that reaches the receiver. -/
structure Delivery where
  changes : List RegistryChange
  senderPeerId : PeerId
  bookkeepingAddr : Option SocketAddr
  verifiedSenderAddr : Option SocketAddr
  ownerRestartAuthenticated : Bool

def Delivery.toCall (d : Delivery) : GossipCall :=
  .delta d.changes d.senderPeerId d.bookkeepingAddr d.verifiedSenderAddr
    d.ownerRestartAuthenticated

namespace GossipEntry

/-- The change of an entry of a delta. -/
def change? : GossipEntry → Option RegistryChange
  | change _ c => some c
  | _ => none

/-- The entry is one of a delta. -/
def OfDelta : GossipEntry → Prop
  | change .. | file .. => True
  | update .. | prune .. => False

/-- The entry hits no admission cap and no size limit. -/
def WithinLimits (cfg : NodeConfig) (s : Registry) : GossipEntry → Prop
  | change src c => s.WithinLimits cfg src c
  | file .. | update .. | prune .. => True

instance (cfg : NodeConfig) (s : Registry) : (e : GossipEntry) → Decidable (e.WithinLimits cfg s)
  | change src c => inferInstanceAs (Decidable (s.WithinLimits cfg src c))
  | file .. | update .. | prune .. => inferInstanceAs (Decidable True)

end GossipEntry

namespace Registry

lemma ofDelta_of_mem {cfg : NodeConfig} {ds : List Delivery} {s : Registry} {e : GossipEntry}
    (he : e ∈ s.entriesOfRun cfg (ds.map Delivery.toCall)) : e.OfDelta := by
  induction ds generalizing s with
  | nil => simp [entriesOfRun] at he
  | cons d ds ih =>
    rw [map_cons, entriesOfRun, mem_append] at he
    rcases he with he | he
    · simp only [Delivery.toCall, entriesOf, mem_append, mem_map] at he
      rcases he with ⟨c, -, rfl⟩ | he
      · trivial
      · cases hb : d.bookkeepingAddr with
        | none =>
          rw [hb] at he
          simp at he
        | some =>
          rw [hb] at he
          rw [mem_singleton.mp he]
          trivial
    · exact ih he

lemma changes_entriesOfRun {cfg : NodeConfig} {ds : List Delivery} {s : Registry} :
    (s.entriesOfRun cfg (ds.map Delivery.toCall)).filterMap GossipEntry.change? =
      ds.flatMap (·.changes) := by
  induction ds generalizing s with
  | nil => rfl
  | cons d ds ih =>
    have hchanges : ∀ src : DeltaSource,
        (d.changes.map (GossipEntry.change src)).filterMap GossipEntry.change? = d.changes := by
      intro src
      rw [filterMap_map]
      exact filterMap_some
    rw [map_cons, entriesOfRun, filterMap_append, ih, flatMap_cons]
    congr 1
    simp only [Delivery.toCall, entriesOf, filterMap_append, hchanges]
    cases d.bookkeepingAddr <;> simp [GossipEntry.change?]

end Registry

/-- The view shows the latest of the changes seen so far, if there is one. -/
def Reflects (owner : NodeConfig) (cs : List RegistryChange) (v : NameView)
    (seen : List RegistryChange) : Prop :=
  (seen = [] ∧ v = ⟨false, none, none⟩) ∨
    ∃ c ∈ cs, (∃ d ∈ seen, d.asRegularGossipChange = c) ∧
      (∀ d ∈ seen, d.asRegularGossipChange = c ∨ d.vectorClock < c.vectorClock) ∧
      v.ShowsOwn owner.nodeId c

section Receiver

variable {owner rcv : NodeConfig} {name : Text} {cs seen : List RegistryChange}

lemma lt_or_eq_or_gt (hcs : cs.Pairwise fun a b => a.vectorClock < b.vectorClock)
    {c d : RegistryChange} (hc : c ∈ cs) (hd : d ∈ cs) :
    d.vectorClock < c.vectorClock ∨ d = c ∨ c.vectorClock < d.vectorClock := by
  by_cases heq : d = c
  · exact .inr (.inl heq)
  · have hsymm : cs.Pairwise fun a b =>
        a.vectorClock < b.vectorClock ∨ b.vectorClock < a.vectorClock :=
      hcs.imp fun h => .inl h
    have : Std.Symm fun a b : RegistryChange =>
        a.vectorClock < b.vectorClock ∨ b.vectorClock < a.vectorClock := ⟨fun _ _ h => h.symm⟩
    rcases hsymm.forall hd hc heq with h | h
    · exact .inl h
    · exact .inr (.inr h)

lemma Reflects.concat {v : NameView} {d : RegistryChange} (h : Reflects owner cs v seen)
    (hcs : cs.Pairwise fun a b => a.vectorClock < b.vectorClock)
    (hown : ∀ c ∈ cs, c.ByOwner owner name) (hself : rcv.peerId ≠ owner.peerId)
    (hd : d.asRegularGossipChange ∈ cs) (src : DeltaSource) :
    Reflects owner cs (v.apply rcv src d) (seen ++ [d]) := by
  have hclk : d.asRegularGossipChange.vectorClock = d.vectorClock := by simp
  have hdOwn : d.ByOwner owner name := by
    have hreg := hown _ hd
    cases d <;> exact hreg
  have hmem : d ∈ seen ++ [d] := mem_append_right _ mem_cons_self
  have hshow : ∀ {u : NameView}, u.ShowsOwn owner.nodeId d →
      u.ShowsOwn owner.nodeId d.asRegularGossipChange := by
    intro u hu
    cases d <;> exact ⟨hu.shows, hu.notLocal, hu.known, hu.removed⟩
  rcases h with ⟨rfl, rfl⟩ | ⟨c, hc, ⟨d₀, hd₀, hd₀c⟩, hmax, hshows⟩
  · refine .inr ⟨_, hd, ⟨d, hmem, rfl⟩, ?_, ?_⟩
    · intro d' hd'
      rw [mem_singleton.mp hd']
      exact .inl rfl
    · exact hshow ((NameView.below_fresh owner.nodeId _).showsOwn hdOwn hself)
  · rcases lt_or_eq_or_gt hcs hc hd with hlt | heq | hgt
    · -- earlier than what is shown
      rw [hclk] at hlt
      rw [hshows.apply_of_lt hlt]
      refine .inr ⟨c, hc, ⟨d₀, mem_append_left _ hd₀, hd₀c⟩, ?_, hshows⟩
      intro d' hd'
      rcases mem_append.mp hd' with hd' | hd'
      · exact hmax d' hd'
      · rw [mem_singleton.mp hd']
        exact .inr hlt
    · -- what is shown, once more
      refine .inr ⟨c, hc, ⟨d₀, mem_append_left _ hd₀, hd₀c⟩, ?_,
        hshows.apply_of_same (hown c hc) heq⟩
      intro d' hd'
      rcases mem_append.mp hd' with hd' | hd'
      · exact hmax d' hd'
      · rw [mem_singleton.mp hd']
        exact .inl heq
    · -- later than everything so far
      rw [hclk] at hgt
      refine .inr ⟨_, hd, ⟨d, hmem, rfl⟩, ?_, hshow ((hshows.below hgt).showsOwn hdOwn hself)⟩
      intro d' hd'
      rcases mem_append.mp hd' with hd' | hd'
      · rw [hclk]
        rcases hmax d' hd' with heq | hlt
        · have hclock' : d'.vectorClock = c.vectorClock := by rw [← heq]; simp
          exact .inr (hclock' ▸ hgt)
        · exact .inr (hlt.trans hgt)
      · rw [mem_singleton.mp hd']
        exact .inl rfl

/-- **The receiver shows the latest change so far**, after any entries that
deliver changes of the owner. -/
theorem exec_reflects {r₀ : Registry} (hcs : cs.Pairwise fun a b => a.vectorClock < b.vectorClock)
    (hown : ∀ c ∈ cs, c.ByOwner owner name) (hself : rcv.peerId ≠ owner.peerId)
    (hfresh : r₀.view name = ⟨false, none, none⟩) {es : List GossipEntry}
    (hdelta : ∀ e ∈ es, e.OfDelta)
    (hdel : ∀ c ∈ es.filterMap GossipEntry.change?, c.asRegularGossipChange ∈ cs)
    (hlimits : Meets (entryStep rcv) (GossipEntry.WithinLimits rcv) r₀ es) :
    Reflects owner cs ((exec (entryStep rcv) r₀ es).view name)
      (es.filterMap GossipEntry.change?) := by
  induction es using reverseRecOn with
  | nil => exact .inl ⟨rfl, hfresh⟩
  | append_singleton es e ih =>
    obtain ⟨hlim, hlime, -⟩ := meets_append.mp hlimits
    have hprev := ih (fun e' he' => hdelta e' (mem_append_left _ he'))
      (fun c hc => hdel c (by rw [filterMap_append]; exact mem_append_left _ hc)) hlim
    rw [exec_concat, filterMap_append]
    cases e with
    | change src d =>
      have hd : d.asRegularGossipChange ∈ cs :=
        hdel d (by rw [filterMap_append]; exact mem_append_right _ mem_cons_self)
      have hname : d.actorName = name := by
        have hreg := hown _ hd
        cases d <;> exact hreg.1
      have hview := view_afterChange hlime
      rw [hname] at hview
      exact hview ▸ hprev.concat hcs hown hself hd src
    | file =>
      rw [filterMap_cons_none rfl, filterMap_nil, append_nil]
      exact hprev
    | update | prune => exact absurd (hdelta _ (mem_append_right _ mem_cons_self)) id

end Receiver

/-- **Single-owner gossip converges.**  The changes `cs` an owner announces for
its actor, delivered in any order with repetitions and gaps to a node that has
nothing under the name, leave it showing the latest one delivered.  All but the
last change have the owner's counter below its bound. -/
theorem single_owner_converges (owner rcv : NodeConfig) (hself : rcv.peerId ≠ owner.peerId)
    (name : Text) (s₀ : Registry) (calls : List OwnerCall)
    (howned : ∀ call ∈ calls, call.Owned owner) (cs : List RegistryChange)
    (hcs : cs = s₀.announcedSince (exec (Registry.call owner) s₀ (calls.map (·.toCall name))))
    (hbound : ∀ c ∈ cs.dropLast, c.vectorClock.get owner.nodeId < u64Max)
    (r₀ : Registry) (hfresh : r₀.view name = ⟨false, none, none⟩) (ds : List Delivery)
    (hds : ∀ d ∈ ds.flatMap (·.changes), d.asRegularGossipChange ∈ cs)
    (hlimits : Meets (Registry.entryStep rcv) (GossipEntry.WithinLimits rcv) r₀
      (r₀.entriesOfRun rcv (ds.map Delivery.toCall)))
    {k : ℕ} {c : RegistryChange} (hk : cs[k]? = some c)
    (hdelivered : ∃ d ∈ ds.flatMap (·.changes), d.asRegularGossipChange = c)
    (hlatest : ∀ d ∈ ds.flatMap (·.changes), ∃ i ≤ k, cs[i]? = some d.asRegularGossipChange) :
    ((exec (Registry.gossip rcv) r₀ (ds.map Delivery.toCall)).view name).Shows c := by
  have hhist : OwnHistory owner name s₀ _ cs := hcs ▸ ownHistory_exec s₀ howned
  have hpair := RegistryChange.pairwise_of_isChain (hhist.ascending hbound)
  have hreflects := exec_reflects hpair hhist.byOwner hself hfresh (fun e he => ofDelta_of_mem he)
    (fun d hd => hds d (changes_entriesOfRun ▸ hd)) hlimits
  rw [changes_entriesOfRun, exec_entriesOfRun] at hreflects
  rcases hreflects with ⟨hnil, -⟩ | ⟨c', hc', ⟨d', hd', hd'c⟩, hmax, hshows⟩
  · obtain ⟨d, hd, -⟩ := hdelivered
    rw [hnil] at hd
    simp at hd
  · -- the change shown is the latest delivered one
    have heq : c = c' := by
      obtain ⟨d, hd, hdc⟩ := hdelivered
      rcases hmax d hd with h | hlt
      · exact hdc.symm.trans h
      · exfalso
        obtain ⟨i, hik, hi⟩ := hlatest d' hd'
        rw [hd'c] at hi
        have hclk : d.vectorClock = c.vectorClock := by
          rw [← hdc]
          simp
        rw [hclk] at hlt
        rcases Nat.lt_or_eq_of_le hik with hik | rfl
        · obtain ⟨hil, hi⟩ := List.getElem?_eq_some_iff.mp hi
          obtain ⟨hkl, hk⟩ := List.getElem?_eq_some_iff.mp hk
          have hlt' := pairwise_iff_getElem.mp hpair i k hil hkl hik
          rw [hi, hk] at hlt'
          exact lt_asymm hlt hlt'
        · obtain rfl := Option.some.inj (hk.symm.trans hi)
          exact lt_irrefl _ hlt
    rw [heq]
    exact hshows.shows

/-- An actor of the node `⟨1⟩` under a clock that its caller chose. -/
def ownedLocation (clock : Clock) : RemoteActorLocation :=
  ⟨AddrText.ipv4.toText (.v4 0x0a000001 7000), ⟨1⟩, ⟨1⟩, clock, 0, .normal, 0, []⟩

/-- A removal that overtakes its registration on the way to the node `⟨9⟩`. -/
theorem single_owner_converges_overtaken : let owner := NodeConfig.ofDefaults ⟨1⟩
    let rcv := NodeConfig.ofDefaults ⟨9⟩
    let calls : List OwnerCall := [.register 5 (ownedLocation .empty) .normal, .unregister]
    let cs := Registry.start.announcedSince
      (exec (Registry.call owner) .start (calls.map (·.toCall [97])))
    let ds : List Delivery := cs.reverse.map fun c => ⟨[c], ⟨2⟩, none, none, false⟩
    ((exec (Registry.gossip rcv) .start (ds.map Delivery.toCall)).view [97]).Shows
      (.actorRemoved [97] (.fromVec [(⟨1⟩, 2)]) ⟨1⟩ .normal) := by
  intro owner rcv calls cs ds
  refine single_owner_converges owner rcv (by decide) [97] .start calls ?_ cs rfl
    (by decide +kernel) .start rfl ds (by decide +kernel) (by decide +kernel) (k := 1)
    (by decide +kernel) (by decide +kernel) (by decide +kernel)
  intro call hcall
  rcases mem_cons.mp hcall with rfl | hcall
  · exact ⟨rfl, rfl⟩
  · rw [mem_singleton.mp hcall]
    trivial

/-- With the owner's counter at its bound the removal carries the clock of the
registration, and a receiver that gets both keeps the actor. -/
theorem single_owner_stuck_at_bound : let owner := NodeConfig.ofDefaults ⟨1⟩
    let rcv := NodeConfig.ofDefaults ⟨9⟩
    let calls : List OwnerCall :=
      [.register 5 (ownedLocation (.fromVec [(⟨1⟩, u64Max)])) .normal, .unregister]
    let cs := Registry.start.announcedSince
      (exec (Registry.call owner) .start (calls.map (·.toCall [97])))
    let ds : List Delivery := cs.map fun c => ⟨[c], ⟨1⟩, none, none, false⟩
    let v := (exec (Registry.gossip rcv) .start (ds.map Delivery.toCall)).view [97]
    cs.map RegistryChange.isRemoved = [false, true] ∧
      cs.map RegistryChange.vectorClock =
        [.fromVec [(⟨1⟩, u64Max)], .fromVec [(⟨1⟩, u64Max)]] ∧
      v.known.map (·.vectorClock) = some (.fromVec [(⟨1⟩, u64Max)]) ∧ v.removed = none := by
  decide +kernel

end IcanactRemote
