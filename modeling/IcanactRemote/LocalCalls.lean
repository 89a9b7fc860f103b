/-
Concurrent local calls for one name (`register_actor_with_priority`,
`unregister_actor`).

A call is a sequence of steps on the shared maps: each critical section under
the gossip lock is one step and so is every other access to a map.  Between two
steps other calls may run, and a call may be cancelled where it waits.
`LocalCall` is the point a call has reached, `LocalCall.advance` its next step.

An unregistration takes the actor out of the local map first and writes the
tombstone and the change later, under the lock.  In between it is the only one
that knows what it has removed (`held`).

* `runAlone_register`, `runAlone_unregister` — a call without interleaving is the
  call of `ActorGossip`;
* `advance_cases` — everything a step can do to the local map, the tombstones
  and the queue;
* `localInv_step` — the node agrees with its last announcement, or exactly one
  call holds what was announced last;
* `local_calls_announce` — the announcements of every orderly run;
* `local_calls_overtaken` — a registration that runs between the two halves of
  an unregistration is announced as removed.
-/
import IcanactRemote.ActorCalls

namespace IcanactRemote

open Run Registry

/-! ### The steps of a call -/

/-- What a running call does next. -/
inductive LocalCall
  /-- Look for an entry of our own that peers reflected back. -/
  | readReflected (location : RemoteActorLocation)
  /-- Remove it. -/
  | removeReflected (location : RemoteActorLocation)
  /-- Wait for the lock and release its admission. -/
  | releaseReflected (location : RemoteActorLocation)
  | checkLocal (location : RemoteActorLocation)
  | checkKnown (location : RemoteActorLocation)
  | readTombstone (location : RemoteActorLocation)
  /-- Wait for the lock and register the stamped location. -/
  | commit (location : RemoteActorLocation) (previousTombstone : Option RemovedActorTombstone)
  | removeLocal
  | readOwn (removed : Option RemoteActorLocation)
  | removeOwn (removed : Option RemoteActorLocation)
  | releaseOwn (removed : Option RemoteActorLocation)
  /-- Wait for the lock and record the removal. -/
  | record (location : RemoteActorLocation)
  /-- Wait for the lock and take the urgent changes. -/
  | takeUrgent
  /-- Send them; if that fails, wait for the lock and queue them again. -/
  | broadcast (urgentChanges : List RegistryChange)
  deriving DecidableEq

/-- A request as it comes in. -/
inductive LocalRequest
  | register (now : ℕ) (location : RemoteActorLocation) (priority : RegistrationPriority)
  | unregister
  deriving DecidableEq

def LocalRequest.first : LocalRequest → LocalCall
  | register now location priority =>
    .readReflected { location with wallClockTime := now, priority := priority }
  | unregister => .removeLocal

namespace LocalCall

/-- An unregistration that looked at the known actors goes on if it removed a
local actor. -/
def afterOwn : Option RemoteActorLocation → Option LocalCall
  | some location => some (record location)
  | none => none

/-- A committed change goes on to the immediate gossip if it is urgent. -/
def afterCommit (priority : RegistrationPriority) : Option LocalCall :=
  if priority.shouldTriggerImmediateGossip then some takeUrgent else none

/-- The next step of a call, and where the call is then; `none` when it
returns.  `sendFailed` is the outcome of a broadcast. -/
def advance (cfg : NodeConfig) (immediatePropagation : Bool) (name : Text) (sendFailed : Bool)
    (s : Registry) : LocalCall → Registry × Option LocalCall
  | readReflected location =>
    match s.knownActors.get name with
    | some existing =>
      if existing.nodeId = cfg.nodeId ∨ existing.address = location.address
      then (s, some (removeReflected location)) else (s, some (checkLocal location))
    | none => (s, some (checkLocal location))
  | removeReflected location =>
    if s.knownActors.containsKey name
    then (s.removeKnown name, some (releaseReflected location))
    else (s, some (checkLocal location))
  | releaseReflected location => (s.releaseActorAdmission name, some (checkLocal location))
  | checkLocal location =>
    if s.localActors.containsKey name then (s, none) else (s, some (checkKnown location))
  | checkKnown location =>
    if s.knownActors.containsKey name then (s, none) else (s, some (readTombstone location))
  | readTombstone location =>
    let tombstone := s.removedActors.get name
    let stamped := Registry.stampLocation location tombstone
    if cfg.soloChangeFits name stamped then (s, some (commit stamped tombstone)) else (s, none)
  | commit location _ =>
    match s.registerCommit cfg name location location.priority with
    | (s', some _) => (s', none)
    | (s', none) => (s', afterCommit location.priority)
  | removeLocal => (s.removeLocal name, some (readOwn (s.localActors.get name)))
  | readOwn removed =>
    match s.knownActors.get name with
    | some existing =>
      if existing.nodeId = cfg.nodeId then (s, some (removeOwn removed)) else (s, afterOwn removed)
    | none => (s, afterOwn removed)
  | removeOwn removed =>
    if s.knownActors.containsKey name
    then (s.removeKnown name, some (releaseOwn removed)) else (s, afterOwn removed)
  | releaseOwn removed => (s.releaseActorAdmission name, afterOwn removed)
  | record location => (s.unregisterCommit cfg name location, afterCommit location.priority)
  | takeUrgent =>
    if immediatePropagation && !s.urgentChanges.isEmpty
    then ({ s with urgentChanges := [] }, some (broadcast s.urgentChanges)) else (s, none)
  | broadcast urgentChanges =>
    (if sendFailed then
      { s with
        pendingChanges :=
          s.pendingChanges ++ urgentChanges.map RegistryChange.asRegularGossipChange }
    else s, none)

/-- What an unregistration has removed and not yet recorded. -/
def held : LocalCall → Option RemoteActorLocation
  | readOwn removed | removeOwn removed | releaseOwn removed => removed
  | record location => some location
  | _ => none

/-- The same for a call that may have returned. -/
def heldBy (c : Option LocalCall) : Option RemoteActorLocation := c.bind held

@[simp] lemma heldBy_none : heldBy none = none := rfl

@[simp] lemma heldBy_afterOwn {removed : Option RemoteActorLocation} :
    heldBy (afterOwn removed) = removed := by cases removed <;> rfl

@[simp] lemma heldBy_afterCommit (priority : RegistrationPriority) :
    heldBy (afterCommit priority) = none := by cases priority <;> rfl

end LocalCall

/-! ### Calls without interleaving -/

namespace LocalCall

/-- What a call that runs alone leaves, if it returns within so many steps. -/
def runAlone (cfg : NodeConfig) (name : Text) : ℕ → Registry → LocalCall → Option Registry
  | 0, _, _ => none
  | k + 1, s, c =>
    match c.advance cfg false name false s with
    | (s', none) => some s'
    | (s', some c') => runAlone cfg name k s' c'

variable (cfg : NodeConfig) (name : Text) (k : ℕ) (s : Registry)

variable (l : RemoteActorLocation) (r : Option RemoteActorLocation)

lemma runAlone_commit (t : Option RemovedActorTombstone) :
    runAlone cfg name (k + 2) s (commit l t) =
      some (s.registerCommit cfg name l l.priority).1 := by
  rw [runAlone, advance]
  rcases s.registerCommit cfg name l l.priority with ⟨s', _ | e⟩
  · cases l.priority <;> rfl
  · rfl

lemma runAlone_checkLocal : runAlone cfg name (k + 5) s (checkLocal l) =
    some (if s.localActors.containsKey name || s.knownActors.containsKey name then s
    else if !cfg.soloChangeFits name (stampLocation l (s.removedActors.get name)) then s
    else (s.registerCommit cfg name (stampLocation l (s.removedActors.get name))
      l.priority).1) := by
  have hcom := runAlone_commit cfg name k s
    (stampLocation l (s.removedActors.get name)) (s.removedActors.get name)
  rw [runAlone, advance]
  cases s.localActors.containsKey name with
  | true => rfl
  | false =>
    simp only [Bool.false_eq_true, if_false, Bool.false_or]
    rw [runAlone, advance]
    cases s.knownActors.containsKey name with
    | true => rfl
    | false =>
      simp only [Bool.false_eq_true, if_false]
      rw [runAlone, advance]
      cases cfg.soloChangeFits name (stampLocation l (s.removedActors.get name)) with
      | true => exact hcom
      | false => rfl

/-- **A registration that runs alone** returns within eight steps. -/
theorem runAlone_register (now : ℕ) (l : RemoteActorLocation) (p : RegistrationPriority) :
    runAlone cfg name 8 s (LocalRequest.register now l p).first =
      some (s.registerActorWithPriority cfg now name l p).1 := by
  have hrest : ∀ (k : ℕ) (s' : Registry), s' = s.dropReflected cfg name (some l.address) →
      runAlone cfg name (k + 5) s' (checkLocal { l with wallClockTime := now, priority := p }) =
        some (s.registerActorWithPriority cfg now name l p).1 := by
    rintro k s' rfl
    rw [runAlone_checkLocal]
    simp only [registerActorWithPriority]
    split_ifs <;> rfl
  rw [LocalRequest.first, runAlone, advance]
  rcases hk : s.knownActors.get name with _ | e
  · exact hrest 2 s (by rw [dropReflected, hk])
  · dsimp only
    by_cases hrefl : e.nodeId = cfg.nodeId ∨ e.address = l.address
    · have hcont : s.knownActors.containsKey name = true :=
        Table.containsKey_eq_true.mpr ⟨e, hk⟩
      rw [if_pos hrefl]
      simp only [runAlone, advance, hcont, if_true]
      refine hrest 0 _ ?_
      rw [dropReflected, hk]
      simp [hrefl]
    · rw [if_neg hrefl]
      refine hrest 2 s ?_
      rw [dropReflected, hk]
      simp [hrefl]

lemma runAlone_afterOwn : (match afterOwn r with
    | none => some s
    | some c => runAlone cfg name (k + 2) s c) =
    some (match r with
    | none => s
    | some l => s.unregisterCommit cfg name l) := by
  cases r with
  | none => rfl
  | some l =>
    simp only [afterOwn, runAlone, advance]
    cases l.priority <;> rfl

lemma runAlone_readOwn : runAlone cfg name 5 s (readOwn r) =
    some (match r with
    | none => s.dropReflected cfg name none
    | some l => (s.dropReflected cfg name none).unregisterCommit cfg name l) := by
  rw [runAlone, advance]
  rcases hk : s.knownActors.get name with _ | e
  · have hdrop : s.dropReflected cfg name none = s := by rw [dropReflected, hk]
    rw [hdrop, ← runAlone_afterOwn cfg name 2 s r]
    cases afterOwn r <;> rfl
  · by_cases hown : e.nodeId = cfg.nodeId
    · have hdrop : s.dropReflected cfg name none =
          (s.removeKnown name).releaseActorAdmission name := by
        simp [dropReflected, hk, hown]
      have hcont : s.knownActors.containsKey name = true :=
        Table.containsKey_eq_true.mpr ⟨e, hk⟩
      rw [hdrop, ← runAlone_afterOwn cfg name 0 _ r]
      simp only [hown, if_true, runAlone, advance, hcont]
      cases afterOwn r <;> rfl
    · have hdrop : s.dropReflected cfg name none = s := by
        simp [dropReflected, hk, hown]
      rw [hdrop, ← runAlone_afterOwn cfg name 2 s r]
      simp only [hown, if_false]
      cases afterOwn r <;> rfl

/-- **An unregistration that runs alone** returns within six steps. -/
theorem runAlone_unregister :
    runAlone cfg name 6 s LocalRequest.unregister.first =
      some (s.unregisterActor cfg name) := by
  have hfst : runAlone cfg name 6 s LocalRequest.unregister.first =
      runAlone cfg name 5 (s.removeLocal name) (readOwn (s.localActors.get name)) := rfl
  rw [hfst, runAlone_readOwn, unregisterActor]
  rcases hl : s.localActors.get name with _ | l
  · have hsame : s.removeLocal name = s := by
      rw [Registry.removeLocal, Table.remove_of_get_none hl]
    simp [hsame]
  · rfl

end LocalCall

/-! ### What a step can do -/

/-- The local map, the tombstones and the queue are as before. -/
def Registry.SameAnnounced (s s' : Registry) : Prop :=
  s'.localActors = s.localActors ∧ s'.removedActors = s.removedActors ∧
    s'.pendingChanges = s.pendingChanges

lemma Registry.SameDirectory.sameAnnounced {s s' : Registry} (h : s.SameDirectory s') :
    s.SameAnnounced s' :=
  ⟨h.localActors, h.removedActors, h.pendingChanges⟩

namespace LocalCall

variable (cfg : NodeConfig) (immediate : Bool) (name : Text) (sendFailed : Bool) (s : Registry)

/-- **Everything a step can do**: nothing that concerns the announcements, take
the local actor, commit a registration, record a removal, or queue urgent
changes again. -/
theorem advance_cases (c : LocalCall) : let s' := (c.advance cfg immediate name sendFailed s).1
    let next := (c.advance cfg immediate name sendFailed s).2
    (s.SameAnnounced s' ∧ heldBy next = c.held) ∨
    (c = removeLocal ∧ s' = s.removeLocal name ∧ heldBy next = s.localActors.get name) ∨
    (∃ l t, c = commit l t ∧ s.registerCommit cfg name l l.priority = (s', none) ∧
      heldBy next = none) ∨
    (∃ l, c = record l ∧ s' = s.unregisterCommit cfg name l ∧ heldBy next = none) ∨
    (∃ cs, c = broadcast cs ∧ sendFailed = true ∧ heldBy next = none ∧
      s'.localActors = s.localActors ∧ s'.removedActors = s.removedActors ∧
      s'.pendingChanges =
        s.pendingChanges ++ cs.map RegistryChange.asRegularGossipChange) := by
  have hsame : s.SameAnnounced s := ⟨rfl, rfl, rfl⟩
  have hkn : s.SameAnnounced (s.removeKnown name) := ⟨rfl, rfl, rfl⟩
  have hrel : s.SameAnnounced (s.releaseActorAdmission name) :=
    (sameDirectory_release s name).sameAnnounced
  intro s' next
  cases c with
  | readReflected =>
    left
    simp only [s', next, advance]
    split
    · split <;> exact ⟨hsame, rfl⟩
    · exact ⟨hsame, rfl⟩
  | removeReflected =>
    left
    simp only [s', next, advance]
    split
    · exact ⟨hkn, rfl⟩
    · exact ⟨hsame, rfl⟩
  | releaseReflected => exact .inl ⟨hrel, rfl⟩
  | checkLocal | checkKnown | readTombstone =>
    left
    simp only [s', next, advance]
    split <;> exact ⟨hsame, rfl⟩
  | commit l t =>
    -- a commit that is refused leaves everything as it was
    rcases hcom : s.registerCommit cfg name l l.priority with ⟨s₁, _ | e⟩
    · have hs' : s' = s₁ := by simp only [s', advance, hcom]
      have hnext : heldBy next = none := by simp only [next, advance, hcom, heldBy_afterCommit]
      exact .inr (.inr (.inl ⟨l, t, rfl, hs' ▸ hcom, hnext⟩))
    · have hs' : s' = s₁ := by simp only [s', advance, hcom]
      have hnext : heldBy next = none := by simp only [next, advance, hcom, heldBy_none]
      rw [hs', registerCommit_err hcom]
      exact .inl ⟨hsame, hnext⟩
  | removeLocal => exact .inr (.inl ⟨rfl, rfl, rfl⟩)
  | readOwn r =>
    left
    simp only [s', next, advance]
    split
    · split
      · exact ⟨hsame, rfl⟩
      · exact ⟨hsame, heldBy_afterOwn⟩
    · exact ⟨hsame, heldBy_afterOwn⟩
  | removeOwn r =>
    left
    simp only [s', next, advance]
    split
    · exact ⟨hkn, rfl⟩
    · exact ⟨hsame, heldBy_afterOwn⟩
  | releaseOwn r => exact .inl ⟨hrel, heldBy_afterOwn⟩
  | record l => exact .inr (.inr (.inr (.inl ⟨l, rfl, rfl, heldBy_afterCommit _⟩)))
  | takeUrgent =>
    left
    simp only [s', next, advance]
    split
    · exact ⟨⟨rfl, rfl, rfl⟩, rfl⟩
    · exact ⟨hsame, rfl⟩
  | broadcast cs =>
    cases sendFailed with
    | false => exact .inl ⟨hsame, rfl⟩
    | true => exact .inr (.inr (.inr (.inr ⟨cs, rfl, rfl, rfl, rfl, rfl, rfl⟩)))

end LocalCall

/-! ### Interleavings -/

/-- The node with its running calls. -/
structure LocalSystem where
  registry : Registry
  calls : Table ℕ LocalCall

open LocalSystem

inductive LocalEvent
  | start (id : ℕ) (request : LocalRequest)
  | step (id : ℕ) (sendFailed : Bool)
  | cancel (id : ℕ)
  deriving DecidableEq

namespace LocalSystem

/-- Move a call to its next point, or drop it. -/
def put (calls : Table ℕ LocalCall) (id : ℕ) : Option LocalCall → Table ℕ LocalCall
  | some c => calls.insert id c
  | none => calls.remove id

lemma get_put (calls : Table ℕ LocalCall) (id : ℕ) (next : Option LocalCall) (id' : ℕ) :
    (put calls id next).get id' = if id' = id then next else calls.get id' := by
  cases next with
  | none => exact Table.get_remove _ _ _
  | some => exact Table.get_insert _ _ _ _

def step (cfg : NodeConfig) (immediatePropagation : Bool) (name : Text) (σ : LocalSystem) :
    LocalEvent → LocalSystem
  | .start id request =>
    match σ.calls.get id with
    | some _ => σ
    | none => { σ with calls := put σ.calls id (some request.first) }
  | .step id sendFailed =>
    match σ.calls.get id with
    | some c =>
      let r := c.advance cfg immediatePropagation name sendFailed σ.registry
      ⟨r.1, put σ.calls id r.2⟩
    | none => σ
  | .cancel id => { σ with calls := put σ.calls id none }

def holds (σ : LocalSystem) (id : ℕ) : Option RemoteActorLocation :=
  LocalCall.heldBy (σ.calls.get id)

/-- No call is between the two halves of an unregistration. -/
def NoHolder (σ : LocalSystem) : Prop := ∀ id, σ.holds id = none

/-- The call `id` alone has removed `location` and not yet recorded it. -/
def Holder (σ : LocalSystem) (id : ℕ) (location : RemoteActorLocation) : Prop :=
  ∀ id', σ.holds id' = if id' = id then some location else none

/-- No call is running. -/
def Quiet (σ : LocalSystem) : Prop := ∀ id, σ.calls.get id = none

end LocalSystem

/-! ### Announcements -/

/-- The changes queued for the name, in order. -/
def Registry.announced (s : Registry) (name : Text) : List RegistryChange :=
  s.pendingChanges.filter fun c => c.actorName = name

/-- The node has what it announced last: the actor under the announced clock and
no tombstone, or no actor after a removal or before any announcement. -/
def Registry.HasAnnounced (s : Registry) (name : Text) : Prop :=
  match s.localActors.get name with
  | some l => (∃ l' p, (s.announced name).getLast? = some (.actorAdded name l' p) ∧
      l'.vectorClock = l.vectorClock) ∧ s.removedActors.get name = none
  | none => ∀ c, (s.announced name).getLast? = some c → c.isRemoved = true

/-- **Orderly steps of a call**: a registration commits while no unregistration
is between its halves and with the tombstone it has read still in place, own
counters are below their bound, and immediate gossip does not queue changes of
the name again. -/
def LocalCall.Orderly (cfg : NodeConfig) (name : Text) (sendFailed : Bool) (σ : LocalSystem) :
    LocalCall → Prop
  | .commit l t =>
    (σ.registry.registerCommit cfg name l l.priority).2 = none →
      σ.NoHolder ∧ ∀ t' ∈ σ.registry.removedActors.get name,
        t = some t' ∧ t'.vectorClock.get l.nodeId < u64Max
  | .record l => l.vectorClock.get cfg.nodeId < u64Max
  | .broadcast cs => sendFailed = true → ∀ c ∈ cs, c.actorName ≠ name
  | _ => True

/-- **Orderly steps**: those of the calls, and no unregistration is cancelled
between its halves. -/
def LocalSystem.Orderly (cfg : NodeConfig) (name : Text) (σ : LocalSystem) : LocalEvent → Prop
  | .start .. => True
  | .cancel id => σ.holds id = none
  | .step id sendFailed => ∀ c ∈ σ.calls.get id, c.Orderly cfg name sendFailed σ

instance (σ : LocalSystem) : Decidable σ.NoHolder :=
  decidable_of_iff (∀ id ∈ σ.calls.keys, σ.holds id = none) (by
    constructor
    · intro h id
      rcases hcall : σ.calls.get id with _ | c
      · rw [LocalSystem.holds, hcall]
        rfl
      · exact h id (Table.mem_keys.mpr ⟨c, hcall⟩)
    · exact fun h id _ => h id)

instance (cfg : NodeConfig) (name : Text) (sendFailed : Bool) (σ : LocalSystem) :
    (c : LocalCall) → Decidable (c.Orderly cfg name sendFailed σ)
  | .commit l t =>
    inferInstanceAs (Decidable ((σ.registry.registerCommit cfg name l l.priority).2 = none →
      σ.NoHolder ∧ ∀ t' ∈ σ.registry.removedActors.get name,
        t = some t' ∧ t'.vectorClock.get l.nodeId < u64Max))
  | .record l => inferInstanceAs (Decidable (l.vectorClock.get cfg.nodeId < u64Max))
  | .broadcast cs => inferInstanceAs (Decidable (sendFailed = true → ∀ c ∈ cs, c.actorName ≠ name))
  | .readReflected .. | .removeReflected .. | .releaseReflected .. | .checkLocal ..
  | .checkKnown .. | .readTombstone .. | .removeLocal | .readOwn .. | .removeOwn ..
  | .releaseOwn .. | .takeUrgent => inferInstanceAs (Decidable True)

instance (cfg : NodeConfig) (name : Text) (σ : LocalSystem) :
    (e : LocalEvent) → Decidable (σ.Orderly cfg name e)
  | .start .. => inferInstanceAs (Decidable True)
  | .cancel id => inferInstanceAs (Decidable (σ.holds id = none))
  | .step id sendFailed =>
    inferInstanceAs (Decidable (∀ c ∈ σ.calls.get id, c.Orderly cfg name sendFailed σ))

/-- A committing registration carries the clock it stamped over the tombstone
it has read. -/
def LocalSystem.Stamped (σ : LocalSystem) : Prop :=
  ∀ id l t, σ.calls.get id = some (.commit l t) →
    ∃ location, l = Registry.stampLocation location t

/-- The announcements ascend, and the node has what it announced last or one
call holds it. -/
structure LocalInv (name : Text) (σ : LocalSystem) : Prop where
  ascending : (σ.registry.announced name).IsChain fun a b => a.vectorClock < b.vectorClock
  stamped : σ.Stamped
  agrees :
    (σ.NoHolder ∧ ∃ l, σ.registry.localActors.get name = some l ∧
      σ.registry.removedActors.get name = none ∧
      (σ.registry.announced name).getLast? = some (.actorAdded name l .normal)) ∨
    (σ.NoHolder ∧ σ.registry.localActors.get name = none ∧
      ∀ c, (σ.registry.announced name).getLast? = some c → c.isRemoved = true ∧
        ∃ t, σ.registry.removedActors.get name = some t ∧ t.vectorClock = c.vectorClock) ∨
    (∃ id l, σ.Holder id l ∧ σ.registry.localActors.get name = none ∧
      (σ.registry.announced name).getLast? = some (.actorAdded name l .normal))

namespace LocalSystem

variable {σ : LocalSystem} {s' : Registry} {id : ℕ} {next : Option LocalCall} {name : Text}

lemma holds_put (id' : ℕ) : holds ⟨s', put σ.calls id next⟩ id' =
    if id' = id then LocalCall.heldBy next else σ.holds id' := by
  rw [holds, get_put]
  split_ifs <;> rfl

lemma holds_put_same (h : LocalCall.heldBy next = σ.holds id) (id' : ℕ) :
    holds ⟨s', put σ.calls id next⟩ id' = σ.holds id' := by
  rw [holds_put]
  split_ifs with hid
  · rw [h, hid]
  · rfl

lemma stamped_put (h : σ.Stamped)
    (hnext : ∀ l t, next = some (.commit l t) → ∃ location, l = stampLocation location t) :
    Stamped ⟨s', put σ.calls id next⟩ := by
  intro id' l t hcall
  rw [get_put] at hcall
  split_ifs at hcall
  · exact hnext l t hcall
  · exact h id' l t hcall

end LocalSystem

lemma LocalCall.advance_commit {cfg : NodeConfig} {immediate : Bool} {name : Text}
    {sendFailed : Bool} {s : Registry} {c : LocalCall} {l : RemoteActorLocation}
    {t : Option RemovedActorTombstone}
    (h : (c.advance cfg immediate name sendFailed s).2 = some (.commit l t)) :
    ∃ location, l = stampLocation location t := by
  have hown : ∀ r : Option RemoteActorLocation, afterOwn r ≠ some (.commit l t) := by
    intro r
    cases r <;> simp [afterOwn]
  have hcom : ∀ p : RegistrationPriority, afterCommit p ≠ some (.commit l t) := by
    intro p
    cases p <;> simp [afterCommit, RegistrationPriority.shouldTriggerImmediateGossip]
  cases c with
  | readTombstone location =>
    simp only [advance] at h
    split_ifs at h
    -- only here a commit is prepared
    obtain ⟨rfl, rfl⟩ := LocalCall.commit.inj (Option.some.inj h)
    exact ⟨location, rfl⟩
  | readReflected | removeReflected | releaseReflected | checkLocal | checkKnown | removeLocal
  | takeUrgent | broadcast =>
    simp only [advance] at h
    repeat' split at h
    all_goals simp at h
  | readOwn r =>
    simp only [advance] at h
    repeat' split at h
    · simp at h
    · exact absurd h (hown r)
    · exact absurd h (hown r)
  | removeOwn r =>
    simp only [advance] at h
    repeat' split at h
    · simp at h
    · exact absurd h (hown r)
  | releaseOwn r => exact absurd h (hown r)
  | record location => exact absurd h (hcom location.priority)
  | commit location =>
    simp only [advance] at h
    split at h
    · simp at h
    · exact absurd h (hcom location.priority)

lemma Registry.announced_append {s s' : Registry} {name : Text} {c : RegistryChange}
    (h : s'.pendingChanges = s.pendingChanges ++ [c]) (hc : c.actorName = name) :
    s'.announced name = s.announced name ++ [c] := by
  rw [announced, h, List.filter_append, announced]
  simp [hc]

namespace LocalInv

variable {name : Text} {σ σ' : LocalSystem}

lemma of_same (h : LocalInv name σ) (hstamp : σ'.Stamped)
    (hl : σ'.registry.localActors = σ.registry.localActors)
    (hr : σ'.registry.removedActors = σ.registry.removedActors)
    (hp : σ'.registry.announced name = σ.registry.announced name)
    (hheld : ∀ id, σ'.holds id = σ.holds id) : LocalInv name σ' where
  ascending := by
    rw [hp]
    exact h.ascending
  stamped := hstamp
  agrees := by
    have hno : σ.NoHolder → σ'.NoHolder := fun hn id => (hheld id).trans (hn id)
    rw [hl, hr, hp]
    rcases h.agrees with ⟨hn, hA⟩ | ⟨hn, hC⟩ | ⟨id, l, hh, hB⟩
    · exact .inl ⟨hno hn, hA⟩
    · exact .inr (.inl ⟨hno hn, hC⟩)
    · exact .inr (.inr ⟨id, l, fun id' => (hheld id').trans (hh id'), hB⟩)

variable {next : Option LocalCall} {l : RemoteActorLocation} {id : ℕ}

lemma removeLocal (h : LocalInv name σ) (hcall : σ.holds id = none)
    (hnext : LocalCall.heldBy next = σ.registry.localActors.get name)
    (hstamp : Stamped ⟨σ.registry.removeLocal name, put σ.calls id next⟩) :
    LocalInv name ⟨σ.registry.removeLocal name, put σ.calls id next⟩ where
  ascending := h.ascending
  stamped := hstamp
  agrees := by
    have hgone : (σ.registry.removeLocal name).localActors.get name = none := by
      rw [Registry.removeLocal, Table.get_remove, if_pos rfl]
    rcases h.agrees with ⟨hn, l, hl, -, hlast⟩ | ⟨hn, hl, hC⟩ | ⟨id₀, l, hh, hl, hlast⟩
    · refine .inr (.inr ⟨id, l, fun id' => ?_, hgone, hlast⟩)
      rw [holds_put, hnext, hl]
      split_ifs
      · rfl
      · exact hn id'
    · refine .inr (.inl ⟨fun id' => ?_, hgone, hC⟩)
      rw [holds_put_same (by rw [hnext, hl, hcall])]
      exact hn id'
    · refine .inr (.inr ⟨id₀, l, fun id' => ?_, hgone, hlast⟩)
      rw [holds_put_same (by rw [hnext, hl, hcall])]
      exact hh id'

lemma commit {cfg : NodeConfig} (h : LocalInv name σ) {s' : Registry}
    (hok : σ.registry.registerCommit cfg name l l.priority = (s', none)) (hno : σ.NoHolder)
    (hlt : ∀ t, σ.registry.removedActors.get name = some t → t.vectorClock < l.vectorClock)
    (hnext : LocalCall.heldBy next = none) (hstamp : Stamped ⟨s', put σ.calls id next⟩) :
    LocalInv name ⟨s', put σ.calls id next⟩ := by
  obtain ⟨hfree, -, hl', -, hr', hp'⟩ := registerCommit_ok hok
  have hann : s'.announced name = σ.registry.announced name ++ [.actorAdded name l .normal] :=
    announced_append hp' rfl
  -- the name is free and nobody holds it, so the last announcement was a removal
  have hlast : ∀ b, (σ.registry.announced name).getLast? = some b →
      b.vectorClock < l.vectorClock := by
    intro b hb
    rcases h.agrees with ⟨-, l₀, hl₀, -⟩ | ⟨-, -, hC⟩ | ⟨id₀, l₀, hh, -⟩
    · rw [hfree] at hl₀
      simp at hl₀
    · obtain ⟨-, t, ht, hclk⟩ := hC b hb
      exact hclk ▸ hlt t ht
    · have hheld := hh id₀
      rw [hno id₀, if_pos rfl] at hheld
      simp at hheld
  exact
    { ascending := by
        rw [hann]
        exact RegistryChange.isChain_concat h.ascending hlast
      stamped := hstamp
      agrees := by
        refine .inl ⟨fun id' => ?_, l, ?_, ?_, ?_⟩
        · rw [holds_put_same (by rw [hnext, hno id])]
          exact hno id'
        · exact (congrArg (·.get name) hl').trans (by rw [Table.get_insert, if_pos rfl])
        · exact (congrArg (·.get name) hr').trans (by rw [Table.get_remove, if_pos rfl])
        · rw [hann, List.getLast?_concat] }

lemma record (cfg : NodeConfig) (h : LocalInv name σ) (hcall : σ.holds id = some l)
    (hbd : l.vectorClock.get cfg.nodeId < u64Max) (hnext : LocalCall.heldBy next = none)
    (hstamp : Stamped ⟨σ.registry.unregisterCommit cfg name l, put σ.calls id next⟩) :
    LocalInv name ⟨σ.registry.unregisterCommit cfg name l, put σ.calls id next⟩ := by
  obtain ⟨hl', -, hr', hp'⟩ := σ.registry.unregisterCommit_spec cfg name l
  have hann : (σ.registry.unregisterCommit cfg name l).announced name = σ.registry.announced name ++
        [.actorRemoved name (removalClock cfg l) cfg.nodeId .normal] :=
    announced_append hp' rfl
  -- this call is the holder
  obtain ⟨hno, hloc, hlast⟩ : (∀ id', id' ≠ id → σ.holds id' = none) ∧
      σ.registry.localActors.get name = none ∧
      (σ.registry.announced name).getLast? = some (.actorAdded name l .normal) := by
    rcases h.agrees with ⟨hn, -⟩ | ⟨hn, -⟩ | ⟨id₀, l₀, hh, hloc, hlast⟩
    · rw [hn id] at hcall
      simp at hcall
    · rw [hn id] at hcall
      simp at hcall
    · rw [hh id] at hcall
      split_ifs at hcall with hid
      obtain rfl := Option.some.inj hcall
      refine ⟨fun id' hid' => ?_, hloc, hlast⟩
      rw [hh id', if_neg (hid ▸ hid')]
  exact
    { ascending := by
        rw [hann]
        refine RegistryChange.isChain_concat h.ascending fun b hb => ?_
        obtain rfl := Option.some.inj (hlast.symm.trans hb)
        exact VectorClock.lt_increment hbd
      stamped := hstamp
      agrees := by
        refine .inr (.inl ⟨fun id' => ?_, by rw [hl']; exact hloc, fun c hc => ?_⟩)
        · rw [holds_put]
          split_ifs with hid
          · exact hnext
          · exact hno id' hid
        · rw [hann, List.getLast?_concat] at hc
          obtain rfl := Option.some.inj hc
          refine ⟨rfl, ⟨removalClock cfg l, .explicitUnregister, some cfg.nodeId⟩, ?_, rfl⟩
          exact (congrArg (·.get name) hr').trans (by rw [Table.get_insert, if_pos rfl]) }

end LocalInv

lemma localInv_step (cfg : NodeConfig) (immediate : Bool) (name : Text) (σ : LocalSystem)
    (e : LocalEvent) (h : LocalInv name σ) (hord : σ.Orderly cfg name e) :
    LocalInv name (σ.step cfg immediate name e) := by
  cases e with
  | start id request =>
    rw [step]
    rcases hcall : σ.calls.get id with _ | c
    · have hfst : LocalCall.heldBy (some request.first) = σ.holds id := by
        rw [holds, hcall]
        cases request <;> rfl
      refine h.of_same (stamped_put h.stamped fun l t hl => ?_) rfl rfl rfl (holds_put_same hfst)
      cases request <;> exact absurd (Option.some.inj hl) (by simp [LocalRequest.first])
    · exact h
  | cancel =>
    refine h.of_same (stamped_put h.stamped fun l t hl => ?_) rfl rfl rfl
      (holds_put_same (Eq.symm hord))
    simp at hl
  | step id sendFailed =>
    rcases hcall : σ.calls.get id with _ | c
    · rw [step, hcall]
      exact h
    · have hholds : σ.holds id = c.held := by rw [holds, hcall]; rfl
      have hord : c.Orderly cfg name sendFailed σ := hord c hcall
      have hstep : σ.step cfg immediate name (.step id sendFailed) =
          ⟨(c.advance cfg immediate name sendFailed σ.registry).1,
            put σ.calls id (c.advance cfg immediate name sendFailed σ.registry).2⟩ := by
        rw [step, hcall]
      have hstamp : Stamped ⟨(c.advance cfg immediate name sendFailed σ.registry).1,
            put σ.calls id (c.advance cfg immediate name sendFailed σ.registry).2⟩ :=
        stamped_put h.stamped fun l t hl => LocalCall.advance_commit hl
      rw [hstep]
      rcases c.advance_cases cfg immediate name sendFailed σ.registry with
        ⟨hsame, hheld⟩ | ⟨rfl, hs', hheld⟩ | ⟨l, t, rfl, hok, hheld⟩ | ⟨l, rfl, hs', hheld⟩ |
        ⟨cs, rfl, hfail, hheld, hl, hr, hp⟩
      · refine h.of_same hstamp hsame.1 hsame.2.1 ?_ (holds_put_same (hheld.trans hholds.symm))
        rw [announced, hsame.2.2]
        rfl
      · exact h.removeLocal hholds hheld hstamp
      · -- the commit is above the tombstone it has read, which is still in place
        obtain ⟨hno, htomb⟩ := hord (by rw [hok])
        refine h.commit hok hno (fun t' ht' => ?_) hheld hstamp
        obtain ⟨rfl, hbd⟩ := htomb t' ht'
        obtain ⟨location, rfl⟩ := h.stamped id l _ hcall
        exact VectorClock.lt_increment_merge _ hbd
      · exact h.record cfg hholds hord hheld hstamp
      · refine h.of_same hstamp hl hr ?_ (holds_put_same (hheld.trans hholds.symm))
        -- what is queued again after a failed send is not about this name
        have hnone : (cs.map RegistryChange.asRegularGossipChange).filter
            (fun c => c.actorName = name) = [] := by
          rw [List.filter_eq_nil_iff]
          intro c hc
          obtain ⟨c', hc', rfl⟩ := List.mem_map.mp hc
          simpa using hord hfail c' hc'
        rw [announced, hp, List.filter_append, hnone, List.append_nil]
        rfl

/-- **Concurrent local calls announce what the node ends up with**, in every run
of orderly steps: the clocks of the announcements ascend, and whenever no call
is running the node has what it announced last. -/
theorem local_calls_announce (cfg : NodeConfig) (immediate : Bool) (name : Text) (s₀ : Registry)
    (hlocal : s₀.localActors.get name = none) (hpending : s₀.announced name = [])
    (es : List LocalEvent)
    (horderly : Meets (LocalSystem.step cfg immediate name) (LocalSystem.Orderly cfg name)
      ⟨s₀, .empty⟩ es) :
    let σ := exec (LocalSystem.step cfg immediate name) ⟨s₀, .empty⟩ es
    ((σ.registry.announced name).Pairwise fun a b => a.vectorClock < b.vectorClock) ∧
      (σ.Quiet → σ.registry.HasAnnounced name) := by
  intro σ
  have hsta : LocalInv name ⟨s₀, .empty⟩ :=
    { ascending := by
        rw [hpending]
        exact List.isChain_nil
      stamped := fun id l t hcall => absurd hcall (by simp)
      agrees := .inr (.inl ⟨fun id => rfl, hlocal, by simp [hpending]⟩) }
  have hinv : LocalInv name σ :=
    exec_invariant_of_meets (localInv_step cfg immediate name) hsta horderly
  constructor
  · exact RegistryChange.pairwise_of_isChain hinv.ascending
  · intro hquiet
    rw [HasAnnounced]
    rcases hinv.agrees with ⟨-, l, hl, hr, hlast⟩ | ⟨-, hl, hC⟩ | ⟨id, l, hh, -⟩
    · rw [hl]
      exact ⟨⟨l, .normal, hlast, rfl⟩, hr⟩
    · rw [hl]
      exact fun c hc => (hC c hc).1
    · have hheld := hh id
      rw [holds, hquiet id, if_pos rfl] at hheld
      simp at hheld

/-- A fresh location of the node `⟨1⟩`. -/
def freshLocation : RemoteActorLocation :=
  ⟨AddrText.ipv4.toText (.v4 0x0a000001 7000), ⟨1⟩, ⟨1⟩, .empty, 0, .normal, 0, []⟩

/-- All the steps of a registration that finds nothing in its way. -/
def registerEvents (id : ℕ) : List LocalEvent :=
  .start id (.register 5 freshLocation .normal) :: List.replicate 5 (.step id false)

/-- A registration and an unregistration, one after the other. -/
theorem local_calls_announce_removed : let cfg := NodeConfig.ofDefaults ⟨1⟩
    let es := registerEvents 0 ++ .start 1 .unregister :: List.replicate 3 (.step 1 false)
    let s := (exec (LocalSystem.step cfg true [97]) ⟨.start, .empty⟩ es).registry
    ((s.announced [97]).map RegistryChange.isRemoved = [false, true]) ∧
      (s.announced [97]).Pairwise fun a b => a.vectorClock < b.vectorClock := by
  intro cfg es s
  refine ⟨by decide +kernel, ?_⟩
  exact (local_calls_announce cfg true [97] .start rfl rfl es (by decide +kernel)).1

/-- A registration runs between the two halves of an unregistration.  All calls
have returned, the actor is registered, and the last announcement says that it
was removed. -/
theorem local_calls_overtaken : let cfg := NodeConfig.ofDefaults ⟨1⟩
    let es := registerEvents 0 ++ [.start 1 .unregister, .step 1 false] ++ registerEvents 2 ++
      [.step 1 false, .step 1 false]
    let σ := exec (LocalSystem.step cfg true [97]) ⟨.start, .empty⟩ es
    σ.calls.keys = [] ∧
      (σ.registry.localActors.get [97]).map (·.vectorClock) = some (.fromVec [(⟨1⟩, 1)]) ∧
      (σ.registry.announced [97]).map RegistryChange.isRemoved = [false, false, true] ∧
      (σ.registry.announced [97]).map RegistryChange.vectorClock =
        [.fromVec [(⟨1⟩, 1)], .fromVec [(⟨1⟩, 1)], .fromVec [(⟨1⟩, 2)]] ∧
      (σ.registry.removedActors.get [97]).isSome = true := by
  decide +kernel

end IcanactRemote
