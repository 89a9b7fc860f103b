/-
The delta history and the gossip rounds that read it (`registry.rs`).

A round commits the queued changes to the history under a new sequence and then
prepares a message for each selected peer: a delta with the history since a base
sequence, or a full sync.  The base is `last_sequence`, the highest sequence that
was received from the peer.  What has been sent to the peer is recorded next to it
in `last_sent_sequence`, under the sequences of this node.

* `deduplicate_keeps_maximal` — of the changes of one name, deduplication keeps one that
  is before none of them, exactly if no outdated change takes the place last, and
  `deduplicate_keeps_surpassed` is a list in which one does;
* `message_of_mem_tasks` — what a round sends to a peer, cached or not;
* `delta_covers_unsent` — in runs whose rounds leave no gap between the two
  sequences, a delta represents every change that was not yet sent, and
  `delta_skips_unsent` is a run in which one does not.
-/
import IcanactRemote.ActorCalls
import IcanactRemote.SessionSequence

namespace IcanactRemote

open Run List

/-! ### Deduplication -/

variable {c e x w : RegistryChange}

namespace RegistryChange

/-- Causal order first, and of two unordered changes a removal displaces
an addition. -/
def changeWins (candidate existing : RegistryChange) : Bool :=
  match candidate.vectorClock.compare existing.vectorClock with
  | .after => true
  | .before => false
  | .equal | .concurrent => candidate.isRemoved && !existing.isRemoved

/-- One change of the loop of `deduplicate_changes`. -/
def keepWinner (actorChanges : Table Text RegistryChange) (change : RegistryChange) :
    Table Text RegistryChange :=
  match actorChanges.get change.actorName with
  | none => actorChanges.insert change.actorName change
  | some existing =>
    if change.changeWins existing then actorChanges.insert change.actorName change else actorChanges

/-- The change kept for each name. -/
def winners (changes : List RegistryChange) : Table Text RegistryChange :=
  changes.foldl keepWinner .empty

def deduplicateChanges (changes : List RegistryChange) : List RegistryChange :=
  ((winners changes).toList.insertionSort fun a b => ¬ b.1 < a.1).map Prod.snd

/-- The change takes the place of the one that is kept of the earlier changes of its
name, although one of them is causally after it, and no later change takes it back. -/
def Outdated (earlier : List RegistryChange) (w : RegistryChange) (later : List RegistryChange) :
    Prop :=
  (∃ x ∈ earlier, x.actorName = w.actorName ∧ w.vectorClock.compare x.vectorClock = .before) ∧
    (∃ e ∈ deduplicateChanges earlier, e.actorName = w.actorName ∧ w.changeWins e = true) ∧
    ∀ y ∈ later, y.actorName = w.actorName → y.changeWins w = false

instance (earlier later : List RegistryChange) (w : RegistryChange) :
    Decidable (Outdated earlier w later) :=
  inferInstanceAs (Decidable (_ ∧ _ ∧ _))

/-- No change of the list is outdated. -/
def Orderly (changes : List RegistryChange) : Prop :=
  ∀ i : Fin changes.length, ¬ Outdated (changes.take i) (changes.get i) (changes.drop (i + 1))

instance (changes : List RegistryChange) : Decidable (Orderly changes) :=
  inferInstanceAs (Decidable (∀ _ : Fin changes.length, ¬ _))

variable {changes : List RegistryChange} {n : Text}

lemma get_winners_concat (seen : List RegistryChange) (c : RegistryChange) :
    (winners (seen ++ [c])).get n =
      if n = c.actorName ∧ ∀ e ∈ (winners seen).get n, c.changeWins e = true then some c
      else (winners seen).get n := by
  rw [winners, foldl_append]
  show (keepWinner (winners seen) c).get n = _
  unfold keepWinner
  by_cases hn : n = c.actorName
  · subst hn
    cases he : (winners seen).get c.actorName with
    | none => simp [Table.get_insert]
    | some e => by_cases hwins : c.changeWins e = true <;> simp [hwins, he, Table.get_insert]
  · rw [if_neg fun h => hn h.1]
    repeat' split
    all_goals simp [Table.get_insert, hn]

/-- **What is kept for a name** won at its turn, and nothing later wins against it. -/
theorem get_winners_iff : (winners changes).get n = some w ↔ w.actorName = n ∧
    ∃ earlier later, changes = earlier ++ w :: later ∧
      (∀ e ∈ (winners earlier).get n, w.changeWins e = true) ∧
      ∀ y ∈ later, y.actorName = n → y.changeWins w = false := by
  induction changes using reverseRecOn with
  | nil => simp [winners]
  | append_singleton seen c ih =>
    rw [get_winners_concat]
    constructor
    · intro hget
      split_ifs at hget with hc
      · cases hget
        exact ⟨hc.1.symm, seen, [], rfl, hc.2, by simp⟩
      · obtain ⟨hname, earlier, later, hsplit, hwon, hheld⟩ := ih.mp hget
        refine ⟨hname, earlier, later ++ [c], by simp [hsplit], hwon, fun y hy hy' => ?_⟩
        rcases mem_append.mp hy with hy | hy
        · exact hheld y hy hy'
        · rw [mem_singleton.mp hy] at hy' ⊢
          by_contra hwins
          refine hc ⟨hy'.symm, fun e he => ?_⟩
          rw [← Option.some.inj (hget.symm.trans he)]
          simpa using hwins
    · rintro ⟨hname, earlier, later, hsplit, hwon, hheld⟩
      -- either `c` is the last change that won, or it came after that
      rcases eq_nil_or_concat later with rfl | ⟨later, d, rfl⟩
      · obtain ⟨rfl, hcw⟩ := append_inj' hsplit rfl
        cases hcw
        exact if_pos ⟨hname.symm, hwon⟩
      · rw [concat_eq_append, ← cons_append, ← append_assoc] at hsplit
        obtain ⟨rfl, hcd⟩ := append_inj' hsplit rfl
        cases hcd
        have hget := ih.mpr ⟨hname, earlier, later, rfl, hwon,
          fun y hy => hheld y (by simp [hy])⟩
        rw [if_neg, hget]
        rintro ⟨hn, hwins⟩
        have hloses := hheld c (by simp) hn.symm
        rw [hwins w hget] at hloses
        cases hloses

lemma exists_winner (hc : c ∈ changes) : ∃ e, (winners changes).get c.actorName = some e := by
  induction changes using reverseRecOn with
  | nil => cases hc
  | append_singleton seen d ih =>
    rw [get_winners_concat]
    split_ifs with hd
    · exact ⟨d, rfl⟩
    · rcases mem_append.mp hc with hc | hc
      · exact ih hc
      · rw [mem_singleton.mp hc] at hd ⊢
        by_contra hnone
        exact hd ⟨rfl, fun e he => absurd ⟨e, he⟩ hnone⟩

lemma mem_deduplicateChanges :
    w ∈ deduplicateChanges changes ↔ (winners changes).get w.actorName = some w := by
  rw [deduplicateChanges, mem_map]
  constructor
  · rintro ⟨e, he, rfl⟩
    have hget := Table.mem_toList.mp ((mem_insertionSort _).mp he)
    rwa [(get_winners_iff.mp hget).1]
  · intro hget
    exact ⟨(w.actorName, w), (mem_insertionSort _).mpr (Table.mem_toList.mpr hget), rfl⟩

/-- The kept changes are maximal exactly if none of the list is outdated. -/
lemma orderly_iff : Orderly changes ↔ ∀ w ∈ deduplicateChanges changes, ∀ c ∈ changes,
    c.actorName = w.actorName → c.vectorClock.compare w.vectorClock ≠ .after := by
  constructor
  · intro hord w hw c hc hname hafter
    obtain ⟨-, earlier, later, rfl, hwon, hheld⟩ := get_winners_iff.mp (mem_deduplicateChanges.mp hw)
    rcases mem_append.mp hc with hc | hc
    · -- an earlier change is after the kept one, which won nevertheless
      obtain ⟨e, he⟩ := exists_winner hc
      rw [hname] at he
      have hkept : e ∈ deduplicateChanges earlier := by
        rw [mem_deduplicateChanges, (get_winners_iff.mp he).1]
        exact he
      have hnot := hord ⟨earlier.length, by simp⟩
      simp only [take_left', get_eq_getElem, getElem_append_right, le_refl, Nat.sub_self] at hnot
      refine hnot ⟨⟨c, hc, hname, ?_⟩, ⟨e, hkept, (get_winners_iff.mp he).1, hwon e he⟩, ?_⟩
      · exact VectorClock.compare_eq_before.mpr (VectorClock.compare_eq_after.mp hafter)
      · simpa using hheld
    · rcases mem_cons.mp hc with rfl | hc
      · -- a later one that is after the kept one would have won
        exact absurd (VectorClock.compare_eq_after.mp hafter) (lt_irrefl _)
      · have hloses := hheld c hc hname
        rw [changeWins, hafter] at hloses
        cases hloses
  · rintro hmax i ⟨⟨x, hx, hname, hbefore⟩, ⟨e, he, hname', hwins⟩, hheld⟩
    have hkept : changes.get i ∈ deduplicateChanges changes := by
      rw [mem_deduplicateChanges, get_winners_iff]
      refine ⟨rfl, changes.take i, changes.drop (i + 1), ?_, fun d hd => ?_, hheld⟩
      · rw [get_eq_getElem, getElem_cons_drop, take_append_drop]
      · rw [mem_deduplicateChanges, hname'] at he
        rwa [← Option.some.inj (he.symm.trans hd)]
    exact hmax _ hkept x (mem_of_mem_take hx) hname
      (VectorClock.compare_eq_after.mpr (VectorClock.compare_eq_before.mp hbefore))

lemma Orderly.represents {d : RegistryChange} (h : Orderly changes) (hd : d ∈ changes)
    (hname : d.actorName = c.actorName) (hle : c.vectorClock ≤ d.vectorClock) :
    ∃ w ∈ deduplicateChanges changes, w.actorName = c.actorName ∧
      w.vectorClock.compare c.vectorClock ≠ .before := by
  obtain ⟨w, hw⟩ := exists_winner hd
  have hwd := (get_winners_iff.mp hw).1
  have hmem : w ∈ deduplicateChanges changes := by rwa [mem_deduplicateChanges, hwd]
  refine ⟨w, hmem, hwd.trans hname, ?_⟩
  have hmax := orderly_iff.mp h w hmem d hd hwd.symm
  rw [Ne, VectorClock.compare_eq_after] at hmax
  rw [Ne, VectorClock.compare_eq_before]
  exact fun hlt => hmax (hlt.trans_le hle)

lemma map_actorName_deduplicateChanges (changes : List RegistryChange) :
    (deduplicateChanges changes).map actorName =
      ((winners changes).toList.insertionSort fun a b => ¬ b.1 < a.1).map Prod.fst := by
  rw [deduplicateChanges, map_map]
  refine map_congr_left fun e he => ?_
  exact (get_winners_iff.mp (Table.mem_toList.mp ((mem_insertionSort _).mp he))).1

lemma pairwise_lt_winners :
    (((winners changes).toList.insertionSort fun a b => ¬ b.1 < a.1).map Prod.fst).Pairwise
      (· < ·) := by
  have htot : Std.Total fun a b : Text × RegistryChange => ¬ b.1 < a.1 :=
    ⟨fun a b => by simpa only [not_lt] using le_total a.1 b.1⟩
  have htrans : IsTrans (Text × RegistryChange) fun a b => ¬ b.1 < a.1 :=
    ⟨fun a b c hab hbc => not_lt.mpr ((not_lt.mp hab).trans (not_lt.mp hbc))⟩
  have hsorted := pairwise_insertionSort (fun a b : Text × RegistryChange => ¬ b.1 < a.1)
    (winners changes).toList
  have hperm := (perm_insertionSort (fun a b : Text × RegistryChange => ¬ b.1 < a.1)
    (winners changes).toList).map Prod.fst
  have hnd := (Table.nodup_keys (winners changes)).perm
    (Table.keys_toList (winners changes) ▸ hperm.symm)
  -- ordered, and no name twice
  have hle := pairwise_map.mpr (hsorted.imp fun hab => not_lt.mp hab)
  exact (hle.and hnd).imp fun hab => lt_of_le_of_ne hab.1 hab.2

/-- The node `⟨n⟩` announces the actor `a` under its `count`-th update. -/
def addedBy (n count : ℕ) : RegistryChange :=
  .actorAdded [97] (.hostedBy n [(⟨n⟩, count)]) .normal

/-- A removal by the second node, before its own later announcement. -/
def removedEarly : RegistryChange := .actorRemoved [97] (.fromVec [(⟨2⟩, 1)]) ⟨2⟩ .normal

end RegistryChange

/-! ### Rounds -/

/-- What the rounds are configured with.  `advertisedBindAddr` is the address that goes
into full syncs. -/
structure GossipConfig where
  maxPeerFailures : ℕ
  smallClusterThreshold : ℕ
  fullSyncInterval : ℕ
  maxDeltaHistory : ℕ
  maxVectorClockSize : ℕ
  advertisedBindAddr : Option Text

def GossipConfig.ofDefaults : GossipConfig := ⟨2, 5, 50, 100, 1000, none⟩

structure HistoricalDelta where
  sequence : ℕ
  changes : List RegistryChange
  deriving DecidableEq

/-- The gossip state of a node, with its actor directory and its queues. -/
structure GossipNode where
  registry : Registry
  gossipSequence : ℕ
  deltaHistory : List HistoricalDelta
  peers : Table SocketAddr PeerInfo

structure GossipTask where
  peerAddr : SocketAddr
  message : RegistryMessage
  currentSequence : ℕ
  deriving DecidableEq

/-- A clock over the limit is compacted. -/
def boundClock (maxSize : ℕ) (clock : Clock) : Clock :=
  if clock.len > maxSize then clock.compact maxSize else clock

def RegistryChange.boundClock (maxSize : ℕ) : RegistryChange → RegistryChange
  | .actorAdded name location priority =>
    .actorAdded name
      { location with vectorClock := IcanactRemote.boundClock maxSize location.vectorClock }
      priority
  | .actorRemoved name clock removing priority =>
    .actorRemoved name (IcanactRemote.boundClock maxSize clock) removing priority

/-- The entries of an actor map in the order of their names. -/
def sortedPairs (actors : Table Text RemoteActorLocation) : List (Text × RemoteActorLocation) :=
  actors.toList.insertionSort fun a b => ¬ b.1 < a.1

variable {peerAddr : SocketAddr}

namespace GossipNode

variable (cfg : NodeConfig) (gc : GossipConfig)

def start : GossipNode := ⟨.start, 0, [], .empty⟩

/-- Commit the queued changes to the history, under a new sequence. -/
def commitChanges (g : GossipNode) : GossipNode :=
  if g.registry.pendingChanges.isEmpty && g.registry.urgentChanges.isEmpty then g
  else
    -- urgent changes were fanned out already and go on as regular ones
    let combined := g.registry.pendingChanges ++
      g.registry.urgentChanges.map RegistryChange.asRegularGossipChange
    let delta : HistoricalDelta :=
      ⟨g.gossipSequence + 1, combined.map (RegistryChange.boundClock gc.maxVectorClockSize)⟩
    let history := g.deltaHistory ++ [delta]
    { g with
      registry := { g.registry with pendingChanges := [], urgentChanges := [] }
      gossipSequence := g.gossipSequence + 1
      deltaHistory := if history.length > gc.maxDeltaHistory then history.tail else history }

def shouldUseDeltaState (g : GossipNode) (peerInfo : PeerInfo) : Bool :=
  let healthyPeers := (g.peers.toList.filter fun e => e.2.failures < gc.maxPeerFailures).length
  let oldestAvailable := (g.deltaHistory.head?.map (·.sequence)).getD g.gossipSequence
  if peerInfo.lastSequence = 0 ∧ g.gossipSequence = 0 then false
  -- a small cluster prefers full syncs unless there is something new
  else if healthyPeers + 1 ≤ gc.smallClusterThreshold ∧
      g.gossipSequence ≤ peerInfo.lastSequence then false
  else if peerInfo.consecutiveDeltas ≥ gc.fullSyncInterval then false
  -- the history does not reach back far enough; a peer at zero gets the directory
  else if peerInfo.lastSequence > 0 ∧ peerInfo.lastSequence < oldestAvailable then false
  else true

/-- The changes that go into a delta, before deduplication.  A peer without a sequence
gets the whole directory first. -/
def deltaCandidates (g : GossipNode) (localActors knownActors : Table Text RemoteActorLocation)
    (sinceSequence : ℕ) : List RegistryChange :=
  (if sinceSequence = 0 then
    (sortedPairs localActors ++ sortedPairs knownActors).map fun e => .actorAdded e.1 e.2 .normal
    else []) ++
  g.registry.urgentChanges.map RegistryChange.asRegularGossipChange ++
  g.registry.pendingChanges ++
  (g.deltaHistory.filter fun d => d.sequence > sinceSequence).flatMap HistoricalDelta.changes

def createDeltaFromState (g : GossipNode)
    (localActors knownActors : Table Text RemoteActorLocation) (sinceSequence : ℕ) :
    RegistryDelta :=
  ⟨sinceSequence, g.gossipSequence,
    RegistryChange.deduplicateChanges (g.deltaCandidates localActors knownActors sinceSequence),
    cfg.peerId⟩

def createFullSyncMessageFromState (localActors knownActors : Table Text RemoteActorLocation)
    (sequence : ℕ) : RegistryMessage :=
  .fullSync (sortedPairs localActors) (sortedPairs knownActors) cfg.peerId gc.advertisedBindAddr
    sequence

/-- The tasks of a round so far, with the messages that are kept for further peers: the
full sync, and the deltas by their base. -/
structure RoundMessages where
  tasks : List GossipTask
  fullSyncMessage : Option RegistryMessage
  deltaMessages : Table ℕ RegistryMessage

def peerInfo (g : GossipNode) (peerAddr : SocketAddr) : PeerInfo :=
  (g.peers.get peerAddr).getD .new

/-- One selected peer of a round. -/
def addTask (g : GossipNode) (localActors knownActors : Table Text RemoteActorLocation)
    (r : RoundMessages) (peerAddr : SocketAddr) : RoundMessages :=
  let info := g.peerInfo peerAddr
  let push (message : RegistryMessage) : List GossipTask :=
    r.tasks ++ [⟨peerAddr, message, g.gossipSequence⟩]
  if g.shouldUseDeltaState gc info then
    match r.deltaMessages.get info.lastSequence with
    | some message => { r with tasks := push message }
    | none =>
      let message : RegistryMessage :=
        .deltaGossip (g.createDeltaFromState cfg localActors knownActors info.lastSequence)
      { r with
        tasks := push message
        deltaMessages := r.deltaMessages.insert info.lastSequence message }
  else
    match r.fullSyncMessage with
    | some message => { r with tasks := push message }
    | none =>
      let message :=
        createFullSyncMessageFromState cfg gc localActors knownActors g.gossipSequence
      { r with tasks := push message, fullSyncMessage := some message }

/-- A round.  `selected` are the peers that the fanout chose, in its order, and the two
maps what the round reads of the directory, which is not under its lock. -/
def prepareGossipRound (g : GossipNode) (selected : List SocketAddr)
    (localActors knownActors : Table Text RemoteActorLocation) :
    GossipNode × List GossipTask :=
  let g := g.commitChanges gc
  if g.peers.len = 0 then (g, [])
  else (g, (selected.foldl (g.addTask cfg gc localActors knownActors) ⟨[], none, .empty⟩).tasks)

/-! ### What a round sends -/

variable {cfg gc} {g : GossipNode} {localActors knownActors : Table Text RemoteActorLocation}

/-- The message for a peer, by itself. -/
def messageFor (cfg : NodeConfig) (gc : GossipConfig) (g : GossipNode)
    (localActors knownActors : Table Text RemoteActorLocation) (peerAddr : SocketAddr) :
    RegistryMessage :=
  let info := g.peerInfo peerAddr
  if g.shouldUseDeltaState gc info then
    .deltaGossip (g.createDeltaFromState cfg localActors knownActors info.lastSequence)
  else createFullSyncMessageFromState cfg gc localActors knownActors g.gossipSequence

/-- The messages that are kept are those that would be made again. -/
structure Cached (cfg : NodeConfig) (gc : GossipConfig) (g : GossipNode)
    (localActors knownActors : Table Text RemoteActorLocation) (r : RoundMessages) : Prop where
  fullSync : ∀ m, r.fullSyncMessage = some m →
    m = createFullSyncMessageFromState cfg gc localActors knownActors g.gossipSequence
  deltas : ∀ since m, r.deltaMessages.get since = some m →
    m = .deltaGossip (g.createDeltaFromState cfg localActors knownActors since)

variable {r : RoundMessages}

lemma addTask_spec (h : Cached cfg gc g localActors knownActors r) :
    Cached cfg gc g localActors knownActors
        (g.addTask cfg gc localActors knownActors r peerAddr) ∧
      (g.addTask cfg gc localActors knownActors r peerAddr).tasks =
        r.tasks ++
          [⟨peerAddr, messageFor cfg gc g localActors knownActors peerAddr, g.gossipSequence⟩] := by
  cases hdelta : g.shouldUseDeltaState gc (g.peerInfo peerAddr) with
  | true =>
    simp only [addTask, messageFor, hdelta, if_true]
    cases hkept : r.deltaMessages.get (g.peerInfo peerAddr).lastSequence with
    | some m =>
      -- the cached delta was made for the same base
      rw [h.deltas _ m hkept]
      exact ⟨⟨h.fullSync, h.deltas⟩, rfl⟩
    | none =>
      refine ⟨⟨h.fullSync, ?_⟩, rfl⟩
      intro since m hm
      rw [Table.get_insert] at hm
      split_ifs at hm with hsince
      · cases hm
        rw [hsince]
      · exact h.deltas since m hm
  | false =>
    simp only [addTask, messageFor, hdelta, Bool.false_eq_true, if_false]
    cases hkept : r.fullSyncMessage with
    | some m =>
      obtain rfl := h.fullSync m hkept
      exact ⟨⟨fun m hm => (Option.some.inj hm).symm, h.deltas⟩, rfl⟩
    | none =>
      refine ⟨⟨?_, h.deltas⟩, rfl⟩
      intro m hm
      cases hm
      rfl

lemma tasks_foldl_addTask (h : Cached cfg gc g localActors knownActors r)
    (selected : List SocketAddr) :
    (selected.foldl (g.addTask cfg gc localActors knownActors) r).tasks =
      r.tasks ++ selected.map fun a =>
        ⟨a, messageFor cfg gc g localActors knownActors a, g.gossipSequence⟩ := by
  induction selected generalizing r with
  | nil => exact (append_nil _).symm
  | cons a _ ih =>
    obtain ⟨hcached, htasks⟩ := addTask_spec h
    rw [foldl_cons, ih hcached, htasks, append_assoc, map_cons, singleton_append]

/-- **What a round sends to a peer** does not depend on the peers before it. -/
theorem message_of_mem_tasks {selected : List SocketAddr} {t : GossipTask}
    (ht : t ∈ (g.prepareGossipRound cfg gc selected localActors knownActors).2) :
    t.peerAddr ∈ selected ∧
      t.message = messageFor cfg gc (g.commitChanges gc) localActors knownActors t.peerAddr := by
  simp only [prepareGossipRound] at ht
  split_ifs at ht
  · simp at ht
  · have hnil : Cached cfg gc (g.commitChanges gc) localActors knownActors ⟨[], none, .empty⟩ :=
      ⟨fun m hm => absurd hm (by simp), fun since m hm => absurd hm (by simp)⟩
    rw [tasks_foldl_addTask hnil, nil_append] at ht
    obtain ⟨a, ha, rfl⟩ := mem_map.mp ht
    exact ⟨ha, rfl⟩

end GossipNode

/-! ### Runs -/

/-- How the write of a message ended; a hard error closed the socket. -/
inductive SendOutcome
  | ok
  | error (hard : Bool)

/-- The entry of a peer after the result of a send (`apply_gossip_results`). -/
def PeerInfo.applyGossipResult (gc : GossipConfig) (now sentSequence : ℕ) (p : PeerInfo) :
    SendOutcome → PeerInfo
  | .ok =>
    { p with
      lastSentSequence := sentSequence
      failures := 0
      lastFailureTime := if p.failures > 0 then none else p.lastFailureTime }
  | .error hard =>
    if p.failures < gc.maxPeerFailures then
      let failures := p.failures + if hard then gc.maxPeerFailures - p.failures else 1
      { p with
        failures := failures
        lastFailureTime := if failures ≥ gc.maxPeerFailures then some now else p.lastFailureTime }
    else p

/-- What happens at a node.  `requeue` stands for the other code that queues changes or
drops them from the queues, `setPeers` for the other code that writes the peer table,
and `retainHistory` for the code that drops old deltas. -/
inductive GossipEvent
  | call (c : RegistryCall)
  | requeue (pending urgent : List RegistryChange)
  | receiveDelta (peerAddr : SocketAddr) (current : Option PoolConnection) (epoch : ℕ)
      (sessionSource : SocketAddr) (currentSequence : ℕ)
  | receiveFullSync (peerAddr : SocketAddr) (current : Option PoolConnection) (epoch : ℕ)
      (sessionSource : Option SocketAddr) (sequence : ℕ)
  | sent (peerAddr : SocketAddr) (now sentSequence : ℕ) (outcome : SendOutcome)
  | setPeers (peers : Table SocketAddr PeerInfo)
  | retainHistory (keep : HistoricalDelta → Bool)
  | round (selected : List SocketAddr) (localActors knownActors : Table Text RemoteActorLocation)

namespace GossipNode

variable (cfg : NodeConfig) (gc : GossipConfig)

def modifyPeer (g : GossipNode) (peerAddr : SocketAddr) (f : PeerInfo → PeerInfo) : GossipNode :=
  match g.peers.get peerAddr with
  | some p => { g with peers := g.peers.insert peerAddr (f p) }
  | none => g

def step (g : GossipNode) : GossipEvent → GossipNode
  | .call c => { g with registry := g.registry.call cfg c }
  | .requeue pending urgent =>
    { g with registry := { g.registry with pendingChanges := pending, urgentChanges := urgent } }
  | .receiveDelta peerAddr current epoch sessionSource currentSequence =>
    g.modifyPeer peerAddr fun p => (p.receiveDelta current epoch sessionSource currentSequence).1
  | .receiveFullSync peerAddr current epoch sessionSource sequence =>
    g.modifyPeer peerAddr fun p => (p.receiveFullSync current epoch sessionSource sequence).1
  | .sent peerAddr now sentSequence outcome =>
    g.modifyPeer peerAddr fun p => p.applyGossipResult gc now sentSequence outcome
  | .setPeers peers => { g with peers := peers }
  | .retainHistory keep => { g with deltaHistory := g.deltaHistory.filter keep }
  | .round selected localActors knownActors =>
    (g.prepareGossipRound cfg gc selected localActors knownActors).1

/-- The delta carries the change, or another one of its name that is not before it. -/
def Represents (delta : RegistryDelta) (c : RegistryChange) : Prop :=
  c ∈ delta.changes ∨ ∃ w ∈ delta.changes, w.actorName = c.actorName ∧
    w.vectorClock.compare c.vectorClock ≠ .before

/-- No change of the history lies in the gap between what was sent to the peer and what
was received from it, unless a candidate of its name is as new. -/
def NothingSkipped (g : GossipNode) (localActors knownActors : Table Text RemoteActorLocation)
    (p : PeerInfo) : Prop :=
  ∀ d ∈ g.deltaHistory, p.lastSentSequence < d.sequence → d.sequence ≤ p.lastSequence →
    ∀ c ∈ d.changes, ∃ x ∈ g.deltaCandidates localActors knownActors p.lastSequence,
      x.actorName = c.actorName ∧ c.vectorClock ≤ x.vectorClock

/-- At a round, for the peers that get a delta: nothing is skipped, and the candidates
are orderly. -/
def Complete (g : GossipNode) : GossipEvent → Prop
  | .round selected localActors knownActors =>
    ∀ a ∈ selected,
      (g.commitChanges gc).shouldUseDeltaState gc (g.peerInfo a) = true →
        (g.commitChanges gc).NothingSkipped localActors knownActors (g.peerInfo a) ∧
        RegistryChange.Orderly
          ((g.commitChanges gc).deltaCandidates localActors knownActors
            (g.peerInfo a).lastSequence)
  | _ => True

variable {cfg gc} {g : GossipNode} {localActors knownActors : Table Text RemoteActorLocation}

lemma peerInfo_commitChanges : (g.commitChanges gc).peerInfo peerAddr = g.peerInfo peerAddr := by
  unfold commitChanges
  split_ifs <;> rfl

variable {d : HistoricalDelta}

lemma mem_deltaCandidates {since : ℕ} (hd : d ∈ g.deltaHistory) (hsince : since < d.sequence)
    (hc : c ∈ d.changes) : c ∈ g.deltaCandidates localActors knownActors since := by
  apply mem_append_right
  rw [mem_flatMap]
  exact ⟨d, mem_filter.mpr ⟨hd, decide_eq_true hsince⟩, hc⟩

lemma represents_createDelta {p : PeerInfo} (hskip : g.NothingSkipped localActors knownActors p)
    (hord : RegistryChange.Orderly (g.deltaCandidates localActors knownActors p.lastSequence))
    (hd : d ∈ g.deltaHistory) (hsent : p.lastSentSequence < d.sequence) (hc : c ∈ d.changes) :
    Represents (g.createDeltaFromState cfg localActors knownActors p.lastSequence) c := by
  right
  rcases Nat.lt_or_ge p.lastSequence d.sequence with hnew | hold
  · -- after the base: the change is a candidate itself
    exact hord.represents (mem_deltaCandidates hd hnew hc) rfl le_rfl
  · -- in the gap: a candidate as new stands for it
    obtain ⟨x, hx, hname, hle⟩ := hskip d hd hsent hold c hc
    exact hord.represents hx hname hle

/-- **Deltas represent every change that was not yet sent**, in every run whose rounds
are complete. -/
theorem delta_covers_unsent (cfg : NodeConfig) (gc : GossipConfig) (es : List GossipEvent)
    (h : Meets (step cfg gc) (Complete gc) start es) :
    ∀ p selected localActors knownActors q, es = p ++ .round selected localActors knownActors :: q →
      ∀ t ∈ ((exec (step cfg gc) start p).prepareGossipRound cfg gc selected localActors
          knownActors).2,
        ∀ delta, t.message = .deltaGossip delta →
          ∀ d ∈ (exec (step cfg gc) start
              (p ++ [.round selected localActors knownActors])).deltaHistory,
            ((exec (step cfg gc) start p).peerInfo t.peerAddr).lastSentSequence < d.sequence →
              ∀ c ∈ d.changes, Represents delta c := by
  rintro p selected localActors knownActors q rfl t ht delta hdelta d hd hsent c hc
  obtain ⟨-, hround, -⟩ := meets_append.mp h
  -- from here on only the state before the round matters
  generalize hg : exec (step cfg gc) start p = g at hround ht hsent
  have hhistory : d ∈ (g.commitChanges gc).deltaHistory := by
    rw [exec_concat, hg] at hd
    simp only [step, prepareGossipRound] at hd
    split_ifs at hd <;> exact hd
  obtain ⟨hsel, hmessage⟩ := message_of_mem_tasks ht
  rw [hmessage] at hdelta
  simp only [messageFor, peerInfo_commitChanges] at hdelta
  split_ifs at hdelta with huse
  · cases hdelta
    obtain ⟨hskip, hord⟩ := hround t.peerAddr hsel huse
    exact represents_createDelta hskip hord hhistory hsent hc
  · simp [createFullSyncMessageFromState] at hdelta

instance (g : GossipNode) : ∀ e : GossipEvent, Decidable (Complete gc g e)
  | .round selected localActors knownActors => by
    unfold Complete NothingSkipped
    infer_instance
  | .call _ | .requeue .. | .receiveDelta .. | .receiveFullSync .. | .sent .. | .setPeers _
  | .retainHistory _ => .isTrue trivial

instance (delta : RegistryDelta) (c : RegistryChange) : Decidable (Represents delta c) := by
  unfold Represents
  infer_instance

/-- The node `⟨9⟩` registers an actor of its own. -/
def registers (name : Text) : GossipEvent :=
  .call (.register 0 name (.hostedBy 9 []) .normal)

/-- The change that announces it. -/
def announces (name : Text) : RegistryChange :=
  .actorAdded name (.hostedBy 9 [(⟨9⟩, 1)]) .normal

/-- A round for one peer, while the node hosts these actors. -/
def roundFor (peerAddr : SocketAddr) (names : List Text) : GossipEvent :=
  .round [peerAddr] (.ofPairs (names.map fun n => (n, .hostedBy 9 [(⟨9⟩, 1)]))) .empty

/-- A peer that nothing was heard of yet gets the first change by a delta. -/
theorem delta_covers_unsent_bootstrap : let cfg := NodeConfig.ofDefaults ⟨9⟩
    let gc := GossipConfig.ofDefaults
    let peer := SocketAddr.v4 1 7000
    let p := [.setPeers (Table.empty.insert peer .new), registers [97]]
    let delta : RegistryDelta := ⟨0, 1, [announces [97]], ⟨9⟩⟩
    (exec (step cfg gc) start (p ++ [roundFor peer [[97]]])).deltaHistory =
      [⟨1, [announces [97]]⟩] ∧ Represents delta (announces [97]) := by
  intro cfg gc peer p delta
  refine ⟨by decide +kernel, ?_⟩
  exact delta_covers_unsent cfg gc (p ++ [roundFor peer [[97]]]) (by decide +kernel) p [peer] _ _
    [] rfl ⟨peer, .deltaGossip delta, 1⟩ (by decide +kernel) delta rfl ⟨1, [announces [97]]⟩
    (by decide +kernel) (by decide +kernel) (announces [97]) (by decide +kernel)

/-- **A delta can skip a change that was never sent.**  The peer has reported its own
sequence 1.  The first actor is committed under sequence 1, and the write of the full
sync that carries it fails.  The next round sends a delta since 1, with the second actor
only. -/
theorem delta_skips_unsent : let cfg := NodeConfig.ofDefaults ⟨9⟩
    let gc := GossipConfig.ofDefaults
    let peer := SocketAddr.v4 1 7000
    let g := exec (step cfg gc) start
      [.setPeers (Table.empty.insert peer .new), registers [97],
        .receiveDelta peer none 0 (.v4 1 40000) 1, roundFor peer [[97]],
        .sent peer 0 1 (.error false), registers [98]]
    let actors : Table Text RemoteActorLocation :=
      .ofPairs [([97], .hostedBy 9 [(⟨9⟩, 1)]), ([98], .hostedBy 9 [(⟨9⟩, 1)])]
    let delta : RegistryDelta := ⟨1, 2, [announces [98]], ⟨9⟩⟩
    let round := g.prepareGossipRound cfg gc [peer] actors .empty
    round.2 = [⟨peer, .deltaGossip delta, 2⟩] ∧
      round.1.deltaHistory = [⟨1, [announces [97]]⟩, ⟨2, [announces [98]]⟩] ∧
      (g.peerInfo peer).lastSentSequence = 0 ∧ ¬ Represents delta (announces [97]) := by
  decide +kernel

end GossipNode

end IcanactRemote
