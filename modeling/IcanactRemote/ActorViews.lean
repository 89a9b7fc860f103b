/-
What the calls do to one name.

The actor maps are read and written one name at a time, so the effect of a
received change on a name is a function of its `NameView`: an applied addition
stores a location (`store`), an applied removal leaves a tombstone (`bury`), and
every other name is untouched.
-/
import IcanactRemote.ActorGossip

namespace IcanactRemote

open VectorClock Option Prod

open NameView

/-! ### The plans -/

/-- Whether an update takes the place of an entry: it is later, or it is
neither earlier nor later and wins the tie. -/
def RemoteActorLocation.beats (candidate existing : RemoteActorLocation) : Bool :=
  match candidate.vectorClock.compare existing.vectorClock with
  | .after => true
  | .concurrent | .equal => stableConcurrentLocationWins candidate existing
  | .before => false

namespace RemoteActorLocation

variable {a b : RemoteActorLocation}

lemma beats_iff : a.beats b = true ↔
    b.vectorClock < a.vectorClock ∨
      ¬ a.vectorClock < b.vectorClock ∧ stableConcurrentLocationWins a b = true := by
  unfold beats
  rcases compare_cases a.vectorClock b.vectorClock with h | h | h | h <;>
    simp [h, lt_iff_le_not_ge]

lemma beats_asymm (h : a.beats b = true) : b.beats a = false := by
  rw [← Bool.not_eq_true, beats_iff]
  rintro (hab | ⟨hnot, hwin⟩)
  · rcases beats_iff.mp h with hba | ⟨hnot, -⟩
    · exact lt_asymm hab hba
    · exact hnot hab
  · rcases beats_iff.mp h with hba | ⟨-, hwin'⟩
    · exact hnot hba
    · rw [stableConcurrentLocationWins_iff] at hwin hwin'
      exact lt_asymm hwin hwin'

lemma beats_irrefl (a : RemoteActorLocation) : a.beats a = false := by
  by_contra h
  rw [Bool.not_eq_false] at h
  have := beats_asymm h
  rw [h] at this
  simp at this

end RemoteActorLocation

variable {removing : GossipNodeId} (change : RegistryChange) {clock removal : Clock}

namespace NameView

variable {v : NameView} {selfId sender : PeerId} {location : RemoteActorLocation}
  {restart isUpdate only : Bool}

lemma replaceKnown_some (existing : RemoteActorLocation) : replaceKnown location (some existing) =
    if location.beats existing then some true else none := by
  unfold replaceKnown RemoteActorLocation.beats
  cases h : location.vectorClock.compare existing.vectorClock <;> simp [h]

def store (v : NameView) (location : RemoteActorLocation) : NameView :=
  ⟨v.isLocal, some location, none⟩

def bury (v : NameView) (tombstone : RemovedActorTombstone) : NameView :=
  ⟨v.isLocal, none, some tombstone⟩

/-- The update gets past the tombstone of the name, if there is one. -/
def Passes (v : NameView) (location : RemoteActorLocation) (sender : PeerId) (restart : Bool) :
    Prop :=
  ∀ t, v.removed = some t → t.vectorClock < location.vectorClock ∨
    ownerRecoveryWinsTombstone location sender t restart = true

/-- The update takes the entry of the name, if there is one. -/
def Takes (v : NameView) (location : RemoteActorLocation) : Prop :=
  ∀ existing, v.known = some existing → location.beats existing = true

lemma passTombstone_cases
    (t : RemovedActorTombstone) : (passTombstone location sender restart (some t) = some true ∧
      (t.vectorClock < location.vectorClock ∨
        ownerRecoveryWinsTombstone location sender t restart = true)) ∨
    (passTombstone location sender restart (some t) = none ∧
      ¬ t.vectorClock < location.vectorClock ∧
        ownerRecoveryWinsTombstone location sender t restart = false) := by
  unfold passTombstone
  by_cases hr : ownerRecoveryWinsTombstone location sender t restart = true <;>
    rcases compare_cases location.vectorClock t.vectorClock with h | h | h | h <;>
    simp_all [lt_iff_le_not_ge]

/-- The update would be stored: its host is another node, the name is not
local, and it gets past the tombstone and the entry. -/
def Wants (v : NameView) (selfId : PeerId) (location : RemoteActorLocation) (sender : PeerId)
    (restart : Bool) : Prop :=
  location.peerId ≠ selfId ∧ v.isLocal = false ∧ v.Passes location sender restart ∧
    v.Takes location

lemma passTombstone_eq (hpass : v.Passes location sender restart) :
    passTombstone location sender restart v.removed = some v.removed.isSome := by
  rcases hr : v.removed with _ | t
  · rfl
  · rcases passTombstone_cases t with ⟨h, -⟩ | ⟨-, hnot, hrec⟩
    · exact h
    · rcases hpass t hr with hlt | hwin
      · exact absurd hlt hnot
      · rw [hrec] at hwin
        simp at hwin

lemma replaceKnown_eq (htakes : v.Takes location) :
    replaceKnown location v.known = some v.known.isSome := by
  rcases hk : v.known with _ | e
  · rfl
  · rw [replaceKnown_some, if_pos (htakes e hk)]
    rfl

/-- **When an update is stored.** -/
theorem upsertPlan_of_wants (h : v.Wants selfId location sender restart) :
    v.currentActorUpsertPlan selfId location sender restart =
      some (v.removed.isSome, v.known.isSome) := by
  obtain ⟨hp, hl, hpass, htakes⟩ := h
  rw [currentActorUpsertPlan, if_neg hp, hl, passTombstone_eq hpass, replaceKnown_eq htakes]
  rfl

lemma wants_of_upsertPlan {plan : Bool × Bool}
    (h : v.currentActorUpsertPlan selfId location sender restart = some plan) :
    v.Wants selfId location sender restart := by
  unfold currentActorUpsertPlan at h
  split_ifs at h with hp hl
  obtain ⟨clear, hclear, h⟩ := bind_eq_some_iff.mp h
  obtain ⟨isUpdate, hupd, -⟩ := bind_eq_some_iff.mp h
  refine ⟨hp, Bool.eq_false_iff.mpr hl, fun t ht => ?_, fun e he => ?_⟩
  · rw [ht] at hclear
    rcases passTombstone_cases t with ⟨-, hpass⟩ | ⟨hnone, -⟩
    · exact hpass
    · rw [hnone] at hclear
      simp at hclear
  · by_contra hb
    rw [he, replaceKnown_some, if_neg hb] at hupd
    simp at hupd

lemma upsertPlan_eq_some {clear : Bool} :
    v.currentActorUpsertPlan selfId location sender restart = some (clear, isUpdate) ↔
      v.Wants selfId location sender restart ∧
        clear = v.removed.isSome ∧ isUpdate = v.known.isSome := by
  constructor
  · intro h
    have hw := wants_of_upsertPlan h
    rw [upsertPlan_of_wants hw] at h
    obtain ⟨h1, h2⟩ := Prod.mk.inj (some.inj h)
    exact ⟨hw, h1.symm, h2.symm⟩
  · rintro ⟨hw, rfl, rfl⟩
    exact upsertPlan_of_wants hw

lemma upsertPlan_eq_none : v.currentActorUpsertPlan selfId location sender restart = none ↔
    ¬ v.Wants selfId location sender restart := by
  constructor
  · intro h hw
    rw [upsertPlan_of_wants hw] at h
    simp at h
  · intro hw
    rcases hp : v.currentActorUpsertPlan selfId location sender restart with _ | plan
    · rfl
    · exact absurd (wants_of_upsertPlan hp) hw

instance : Decidable (v.Wants selfId location sender restart) :=
  decidable_of_iff (v.currentActorUpsertPlan selfId location sender restart ≠ none) (by
    rw [ne_eq, upsertPlan_eq_none, not_not])

/-- **When a removal is recorded**, and under which clock: over an entry it
must be later, or concurrent and win the tie; over a tombstone it must not be
covered by it, and keeps what it had. -/
theorem removalPlan_eq_some : v.currentActorRemovalPlan clock removing = some (removal, only) ↔
    v.isLocal = false ∧
    ((∃ e, v.known = some e ∧ only = false ∧ removal = clock ∧
        (e.vectorClock < clock ∨ clock.compare e.vectorClock = .concurrent ∧
          stableConcurrentRemovalWins removing clock e = true)) ∨
      v.known = none ∧ only = true ∧
        ((v.removed = none ∧ removal = clock) ∨
          ∃ t, v.removed = some t ∧
            ((t.vectorClock < clock ∧ removal = clock) ∨
              clock.compare t.vectorClock = .concurrent ∧
                removal = clock.merge t.vectorClock))) := by
  unfold currentActorRemovalPlan
  cases hl : v.isLocal with
  | true => simp
  | false =>
    rcases hk : v.known with _ | e
    · rcases hr : v.removed with _ | t
      · grind
      · rcases compare_cases clock t.vectorClock with h | h | h | h <;>
          grind [lt_iff_le_not_ge]
    · rcases compare_cases clock e.vectorClock with h | h | h | h <;>
        grind [lt_iff_le_not_ge]

lemma removalPlan_eq_none_of_le
    (h : (∃ e, v.known = some e ∧ clock ≤ e.vectorClock) ∨
      v.known = none ∧ ∃ t, v.removed = some t ∧ clock ≤ t.vectorClock) :
    v.currentActorRemovalPlan clock removing = none := by
  rcases hplan : v.currentActorRemovalPlan clock removing with _ | ⟨removal, only⟩
  · rfl
  · exfalso
    rcases (removalPlan_eq_some.mp hplan).2 with ⟨e, he, -, -, hwins⟩ | ⟨hnone, -, htomb⟩
    · rcases h with ⟨e', he', hle⟩ | ⟨hnone, -⟩
      · obtain rfl := some.inj (he.symm.trans he')
        -- later than the entry, or concurrent with it: neither is at or before it
        rcases hwins with hlt | ⟨hconc, -⟩
        · exact hlt.not_ge hle
        · exact (compare_eq_concurrent.mp hconc).1 hle
      · rw [he] at hnone
        simp at hnone
    · rcases h with ⟨e', he', -⟩ | ⟨-, t, ht, hle⟩
      · rw [hnone] at he'
        simp at he'
      · rcases htomb with ⟨hnone', -⟩ | ⟨t', ht', ⟨hlt, -⟩ | ⟨hconc, -⟩⟩
        · rw [ht] at hnone'
          simp at hnone'
        · obtain rfl := some.inj (ht.symm.trans ht')
          exact hlt.not_ge hle
        · obtain rfl := some.inj (ht.symm.trans ht')
          exact (compare_eq_concurrent.mp hconc).1 hle

lemma removalKind_ne_peerDeath (hkn : ∀ e, v.known = some e → e.nodeId = removing)
    (hrem : ∀ t, v.removed = some t → t.kind ≠ .peerDeath) :
    v.removalKind removing ≠ .peerDeath := by
  have hexisting : v.removed.map (·.kind) ≠ some .peerDeath := by
    intro h
    obtain ⟨t, ht, hkind⟩ := map_eq_some_iff.mp h
    exact hrem t ht hkind
  unfold removalKind
  rcases hk : v.known with _ | e
  · refine mergeTombstoneKind_ne_peerDeath hexisting ?_
    split
    · simp
    · rcases hr : v.removed with _ | t
      · simp
      · exact hrem t hr
  · refine mergeTombstoneKind_ne_peerDeath hexisting ?_
    rw [tombstoneKindForRemoval, if_pos (hkn e hk)]
    simp

/-- The tombstone a recorded removal leaves. -/
def tombstoneFor (v : NameView) (removal : Clock) (removing : GossipNodeId) :
    RemovedActorTombstone :=
  ⟨removal, v.removalKind removing, v.removalOwner removing⟩

end NameView

/-! ### The directory -/

/-- A source's addition would be stored, as resolved. -/
abbrev NameView.WantsFrom (v : NameView) (cfg : NodeConfig) (src : DeltaSource)
    (location : RemoteActorLocation) : Prop :=
  v.Wants cfg.peerId (src.resolve cfg.text location) src.senderPeerId src.ownerRestartAuthenticated

namespace Registry

/-- The two states agree on everything but admission. -/
structure SameDirectory (s s' : Registry) : Prop where
  localActors : s'.localActors = s.localActors
  knownActors : s'.knownActors = s.knownActors
  removedActors : s'.removedActors = s.removedActors
  peerToActors : s'.peerToActors = s.peerToActors
  pendingChanges : s'.pendingChanges = s.pendingChanges
  urgentChanges : s'.urgentChanges = s.urgentChanges

variable {s s' t : Registry} {name n : Text}

lemma SameDirectory.refl (s : Registry) : SameDirectory s s := ⟨rfl, rfl, rfl, rfl, rfl, rfl⟩

lemma SameDirectory.view_eq (h : SameDirectory s s') (n : Text) : s'.view n = s.view n := by
  rw [view, view, h.localActors, h.knownActors, h.removedActors]

lemma sameDirectory_record (p : PeerId) : SameDirectory s (s.recordActorAdmission p name) :=
  ⟨rfl, rfl, rfl, rfl, rfl, rfl⟩

lemma releaseCompact_eq (s : Registry) (name : Text) :
    ∃ bytes charges, s.releaseCompactSnapshot name =
      { s with compactAdmissionBytes := bytes, compactChargeByName := charges } := by
  unfold releaseCompactSnapshot
  split <;> exact ⟨_, _, rfl⟩

lemma charge_eq {cfg : NodeConfig} {location : RemoteActorLocation}
    (h : s.tryChargeCompactSnapshot cfg name location = some s') : ∃ bytes charges,
      s' = { s with compactAdmissionBytes := bytes, compactChargeByName := charges } := by
  unfold tryChargeCompactSnapshot at h
  split at h
  · dsimp only at h
    split_ifs at h <;> exact ⟨_, _, (some.inj h).symm⟩
  · dsimp only at h
    split_ifs at h
    exact ⟨_, _, (some.inj h).symm⟩

lemma sameDirectory_releaseCompact (s : Registry) (name : Text) :
    SameDirectory s (s.releaseCompactSnapshot name) := by
  obtain ⟨bytes, charges, heq⟩ := releaseCompact_eq s name
  rw [heq]
  exact ⟨rfl, rfl, rfl, rfl, rfl, rfl⟩

lemma sameDirectory_release (s : Registry) (name : Text) :
    SameDirectory s (s.releaseActorAdmission name) := by
  unfold releaseActorAdmission
  split
  · exact .refl s
  · obtain ⟨h1, h2, h3, h4, h5, h6⟩ := sameDirectory_releaseCompact { s with
        actorAdmissionPeerByName := s.actorAdmissionPeerByName.remove name
        actorAdmissionsByPeer := dropAdmission s.actorAdmissionsByPeer _ name } name
    exact ⟨h1, h2, h3, h4, h5, h6⟩

lemma sameDirectory_charge {cfg : NodeConfig} {location : RemoteActorLocation}
    (h : s.tryChargeCompactSnapshot cfg name location = some s') : SameDirectory s s' := by
  obtain ⟨bytes, charges, rfl⟩ := charge_eq h
  exact ⟨rfl, rfl, rfl, rfl, rfl, rfl⟩

/-! #### Views after the writes -/

variable {priority : RegistrationPriority} {clear lost : Bool} {sender : PeerId}

lemma view_upsertKnown {location : RemoteActorLocation}
    (h : clear = (s.view name).removed.isSome) : (s.upsertKnown name location clear).view n =
      if n = name then (s.view name).store location else s.view n := by
  have hrem : (if clear then s.removedActors.remove name else s.removedActors).get n =
      if n = name then none else s.removedActors.get n := by
    cases clear with
    | true => exact Table.get_remove _ _ _
    | false =>
      have hnone : s.removedActors.get name = none :=
        not_isSome_iff_eq_none.mp (Bool.eq_false_iff.mp h.symm)
      by_cases hn : n = name
      · rw [if_pos hn, hn]
        exact hnone
      · rw [if_neg hn]
        rfl
  unfold view upsertKnown store
  simp only [hrem, Table.get_insert]
  by_cases hn : n = name <;> simp [hn]

lemma view_removeKnown (n : Text) : (s.removeKnown name).view n =
    if n = name then { s.view name with known := none } else s.view n := by
  unfold view removeKnown
  simp only [Table.get_remove]
  by_cases hn : n = name <;> simp [hn]

lemma view_setTombstone {tombstone : RemovedActorTombstone} :
    (s.setTombstone name tombstone).view n =
      if n = name then { s.view name with removed := some tombstone } else s.view n := by
  unfold view setTombstone
  simp only [Table.get_insert]
  by_cases hn : n = name <;> simp [hn]

@[simp] lemma view_forwardChange : (s.forwardChange change).view n = s.view n := rfl

/-! #### One entry -/

variable {cfg : NodeConfig} {src : DeltaSource} {location : RemoteActorLocation}

lemma view_admitLocation (hclear : clear = (s.view name).removed.isSome)
    (h : s.admitLocation cfg sender name location clear = some s') (n : Text) :
    s'.view n = if n = name then (s.view name).store location else s.view n := by
  unfold admitLocation at h
  split_ifs at h with hfit
  obtain ⟨s₁, hchg, rfl⟩ := map_eq_some_iff.mp h
  have hsame := sameDirectory_charge hchg
  rw [(sameDirectory_record _).view_eq, view_upsertKnown (by rw [hsame.view_eq]; exact hclear),
    hsame.view_eq, hsame.view_eq]

lemma admitLocation_maps (h : s.admitLocation cfg sender name location clear = some s') :
    SameDirectory
      { s with
        knownActors := s.knownActors.insert name location
        removedActors := if clear then s.removedActors.remove name else s.removedActors } s' := by
  unfold admitLocation at h
  split_ifs at h
  obtain ⟨s₁, hchg, rfl⟩ := map_eq_some_iff.mp h
  obtain ⟨hloc, hkn, hrem, hfiled, hpend, hurgent⟩ := sameDirectory_charge hchg
  refine ⟨hloc, ?_, ?_, hfiled, hpend, hurgent⟩
  · exact congrArg (·.insert name location) hkn
  · show (if clear then s₁.removedActors.remove name else s₁.removedActors) = _
    rw [hrem]

/-- **An applied addition** is one the plan lets through; it is stored as
resolved. -/
theorem applyAdded_eq_some (h : s.applyAdded cfg src name location = some s') :
    (s.view name).WantsFrom cfg src location ∧
      ∀ n, s'.view n =
        if n = name then (s.view name).store (src.resolve cfg.text location) else s.view n := by
  simp only [applyAdded] at h
  split at h
  · simp at h
  · next hplan =>
    split_ifs at h
    obtain ⟨hwants, hclear, -⟩ := upsertPlan_eq_some.mp hplan
    exact ⟨hwants, view_admitLocation hclear h⟩

/-- No admission cap stands in the way of the location. -/
def underCaps (s : Registry) (cfg : NodeConfig) (sender : PeerId) (name : Text)
    (location : RemoteActorLocation) : Bool :=
  !s.peerCapReached cfg sender name &&
    (s.knownActors.containsKey name || !s.globalCapReached cfg) &&
    (s.tryChargeCompactSnapshot cfg name location).isSome

/-- Neither an admission cap nor the size limit stands in its way. -/
def admits (s : Registry) (cfg : NodeConfig) (sender : PeerId) (name : Text)
    (location : RemoteActorLocation) : Bool :=
  s.underCaps cfg sender name location && cfg.soloChangeFits name location

lemma isSome_applyAdded : (s.applyAdded cfg src name location).isSome = true ↔
    (s.view name).WantsFrom cfg src location ∧
    s.admits cfg src.senderPeerId name (src.resolve cfg.text location) = true := by
  simp only [applyAdded]
  split
  · next hplan => simp [upsertPlan_eq_none.mp hplan]
  · next hplan =>
    obtain ⟨hwants, -, hupd⟩ := upsertPlan_eq_some.mp hplan
    have hkn : (s.view name).known.isSome = s.knownActors.containsKey name := rfl
    rw [hkn] at hupd
    simp only [admits, underCaps, admitLocation, hwants, hupd]
    cases s.peerCapReached cfg src.senderPeerId name <;>
      cases s.knownActors.containsKey name <;> cases s.globalCapReached cfg <;>
      cases cfg.soloChangeFits name (src.resolve cfg.text location) <;> simp

/-- **An applied removal** leaves its tombstone in place of what was there. -/
theorem applyRemoved_eq_some (h : s.applyRemoved name clock removing priority = some (s', lost)) :
    ∃ removal, (∃ only, (s.view name).currentActorRemovalPlan clock removing =
        some (removal, only)) ∧
      ∀ n, s'.view n = if n = name then (s.view name).bury
        ((s.view name).tombstoneFor removal removing) else s.view n := by
  unfold applyRemoved at h
  rcases hplan : (s.view name).currentActorRemovalPlan clock removing with _ | ⟨removal, only⟩
  · rw [hplan] at h
    simp at h
  · refine ⟨removal, ⟨only, rfl⟩, fun n => ?_⟩
    simp only [hplan] at h
    split_ifs at h with honly hkn
    · -- only a tombstone: nothing was known
      obtain ⟨rfl, -⟩ := Prod.mk.inj (some.inj h)
      have hnone : (s.view name).known = none := by
        rcases (removalPlan_eq_some.mp hplan).2 with ⟨e, -, hfalse, -⟩ | ⟨hnone, -⟩
        · rw [honly] at hfalse
          simp at hfalse
        · exact hnone
      rw [view_forwardChange, view_setTombstone]
      split_ifs with hn
      · rw [bury, ← hnone]
        rfl
      · rfl
    · obtain ⟨rfl, -⟩ := Prod.mk.inj (some.inj h)
      rw [view_forwardChange, view_setTombstone, (sameDirectory_release _ _).view_eq,
        (sameDirectory_release _ _).view_eq, view_removeKnown, view_removeKnown, if_pos rfl]
      split_ifs with hn <;> rfl

lemma view_afterChange_of_ne {change : RegistryChange} (h : n ≠ change.actorName) :
    (s.afterChange cfg src change).view n = s.view n := by
  cases change with
  | actorAdded name location =>
    rcases ha : s.applyAdded cfg src name location with _ | s'
    · rw [afterChange, ha, getD_none]
    · rw [afterChange, ha, getD_some, (applyAdded_eq_some ha).2]
      exact if_neg h
  | actorRemoved name clock removing priority =>
    rcases ha : s.applyRemoved name clock removing priority with _ | ⟨s', lost⟩
    · rw [afterChange, ha, map_none, getD_none]
    · obtain ⟨removal, -, hview⟩ := applyRemoved_eq_some ha
      rw [afterChange, ha, map_some, getD_some, hview]
      exact if_neg h

lemma view_afterChange_added (s : Registry) (cfg : NodeConfig) (src : DeltaSource) (name : Text)
    (location : RemoteActorLocation) (priority : RegistrationPriority) :
    (s.afterChange cfg src (.actorAdded name location priority)).view name = s.view name ∨
      (s.view name).WantsFrom cfg src location ∧
      (s.afterChange cfg src (.actorAdded name location priority)).view name =
        (s.view name).store (src.resolve cfg.text location) := by
  rcases ha : s.applyAdded cfg src name location with _ | s'
  · rw [afterChange, ha]
    exact .inl rfl
  · obtain ⟨hwants, hview⟩ := applyAdded_eq_some ha
    rw [afterChange, ha, getD_some, hview, if_pos rfl]
    exact .inr ⟨hwants, rfl⟩

lemma afterChange_eq_self
    (h : ¬ ((s.view name).WantsFrom cfg src location ∧
      s.admits cfg src.senderPeerId name (src.resolve cfg.text location) = true)) :
    s.afterChange cfg src (.actorAdded name location priority) = s := by
  have hnone : s.applyAdded cfg src name location = none := by
    rw [← not_isSome_iff_eq_none, isSome_applyAdded]
    exact h
  rw [afterChange, hnone, getD_none]

lemma view_afterChange_of_wants (h : (s.view name).WantsFrom cfg src location)
    (hadmits : s.admits cfg src.senderPeerId name (src.resolve cfg.text location) = true) :
    (s.afterChange cfg src (.actorAdded name location priority)).view name =
      (s.view name).store (src.resolve cfg.text location) := by
  obtain ⟨s', hs'⟩ := isSome_iff_exists.mp (isSome_applyAdded.mpr ⟨h, hadmits⟩)
  rw [afterChange, hs', getD_some, (applyAdded_eq_some hs').2, if_pos rfl]

lemma view_afterChange_removed (s : Registry) (cfg : NodeConfig) (src : DeltaSource)
    (name : Text) (clock : Clock) (removing : GossipNodeId) (priority : RegistrationPriority) :
    (s.afterChange cfg src (.actorRemoved name clock removing priority)).view name =
      match (s.view name).currentActorRemovalPlan clock removing with
      | none => s.view name
      | some (removal, _) => (s.view name).bury ((s.view name).tombstoneFor removal removing) := by
  rcases ha : s.applyRemoved name clock removing priority with _ | ⟨s', lost⟩
  · rw [afterChange, ha, map_none, getD_none]
    -- skipped: the plan said so, since an entry it would remove is there
    rcases hplan : (s.view name).currentActorRemovalPlan clock removing with _ | ⟨removal, only⟩
    · rfl
    · exfalso
      unfold applyRemoved at ha
      simp only [hplan] at ha
      split_ifs at ha with honly hkn
      rcases (removalPlan_eq_some.mp hplan).2 with ⟨e, he, -⟩ | ⟨-, htrue, -⟩
      · exact hkn (Table.containsKey_eq_true.mpr ⟨e, he⟩)
      · exact honly htrue
  · obtain ⟨removal, ⟨only, hplan⟩, hview⟩ := applyRemoved_eq_some ha
    rw [afterChange, ha, map_some, getD_some, hview, if_pos rfl, hplan]

/-- **Everything a change can do to the registry**: nothing, store a location, or
record a removal and pass it on, with the entry removed if there was one. -/
theorem afterChange_cases (s : Registry) (cfg : NodeConfig) (src : DeltaSource)
    (c : RegistryChange) : s.afterChange cfg src c = s ∨
    (∃ location clear, s.admitLocation cfg src.senderPeerId c.actorName location clear =
      some (s.afterChange cfg src c)) ∨
    ∃ tombstone forwarded, forwarded.isRemoved = true ∧
      (s.afterChange cfg src c =
          (s.setTombstone c.actorName tombstone).forwardChange forwarded ∨
        s.afterChange cfg src c =
          (((s.removeKnown c.actorName).releaseActorAdmission c.actorName).setTombstone
            c.actorName tombstone).forwardChange forwarded) := by
  cases c with
  | actorAdded name location =>
    rw [afterChange]
    cases happ : s.applyAdded cfg src name location with
    | none => exact .inl rfl
    | some =>
      simp only [applyAdded] at happ
      split at happ
      · simp at happ
      · -- stored, unless a cap or the size limit is in the way
        split_ifs at happ
        exact .inr (.inl ⟨_, _, happ⟩)
  | actorRemoved name clock removing priority =>
    rw [afterChange]
    cases happ : s.applyRemoved name clock removing priority with
    | none => exact .inl rfl
    | some =>
      simp only [applyRemoved] at happ
      split at happ
      · simp at happ
      · split_ifs at happ
        · cases happ
          exact .inr (.inr ⟨_, _, rfl, .inl rfl⟩)
        · cases happ
          exact .inr (.inr ⟨_, _, rfl, .inr rfl⟩)

end Registry

/-! ### Changes within the limits -/

/-- What a change does to the view of its name when no limit is hit. -/
def NameView.apply (cfg : NodeConfig) (src : DeltaSource) (v : NameView) :
    RegistryChange → NameView
  | .actorAdded _ location _ =>
    match v.currentActorUpsertPlan cfg.peerId (src.resolve cfg.text location) src.senderPeerId
        src.ownerRestartAuthenticated with
    | none => v
    | some _ => v.store (src.resolve cfg.text location)
  | .actorRemoved _ clock removing _ =>
    match v.currentActorRemovalPlan clock removing with
    | none => v
    | some (removal, _) => v.bury (v.tombstoneFor removal removing)

/-- The change is no addition that an admission cap or a size limit turns
away. -/
def Registry.WithinLimits (cfg : NodeConfig) (src : DeltaSource) (s : Registry) :
    RegistryChange → Prop
  | .actorAdded name location _ =>
    (s.view name).Wants cfg.peerId (src.resolve cfg.text location) src.senderPeerId
        src.ownerRestartAuthenticated →
      s.admits cfg src.senderPeerId name (src.resolve cfg.text location) = true
  | .actorRemoved .. => True

instance (cfg : NodeConfig) (src : DeltaSource) (s : Registry) :
    (change : RegistryChange) → Decidable (s.WithinLimits cfg src change)
  | .actorAdded name location _ =>
    inferInstanceAs (Decidable ((s.view name).Wants cfg.peerId (src.resolve cfg.text location)
        src.senderPeerId src.ownerRestartAuthenticated →
      s.admits cfg src.senderPeerId name (src.resolve cfg.text location) = true))
  | .actorRemoved .. => inferInstanceAs (Decidable True)

namespace NameView

variable {v : NameView} {cfg : NodeConfig} {src : DeltaSource} {name : Text}
  {location : RemoteActorLocation} {priority : RegistrationPriority}

lemma apply_added_of_wants (h : v.WantsFrom cfg src location) :
    v.apply cfg src (.actorAdded name location priority) =
      v.store (src.resolve cfg.text location) := by
  rw [apply, upsertPlan_of_wants h]

lemma apply_added_of_not_wants (h : ¬ v.WantsFrom cfg src location) :
    v.apply cfg src (.actorAdded name location priority) = v := by
  rw [apply, upsertPlan_eq_none.mpr h]

end NameView

lemma Registry.view_afterChange {s : Registry} {cfg : NodeConfig} {src : DeltaSource}
    {change : RegistryChange} (h : s.WithinLimits cfg src change) :
    (s.afterChange cfg src change).view change.actorName =
      (s.view change.actorName).apply cfg src change := by
  cases change with
  | actorAdded name location =>
    by_cases hw : (s.view name).WantsFrom cfg src location
    · exact (view_afterChange_of_wants hw (h hw)).trans (apply_added_of_wants hw).symm
    · rw [afterChange_eq_self fun h' => hw h'.1]
      exact (apply_added_of_not_wants hw).symm
  | actorRemoved name clock removing priority =>
    exact view_afterChange_removed s cfg src name clock removing priority

/-! ### Calls of the node itself -/

namespace Registry

variable {s s' : Registry} {cfg : NodeConfig} {name : Text} {location : RemoteActorLocation}
  {priority : RegistrationPriority}

lemma pendingChanges_pushChange (h : priority = .normal → change.asRegularGossipChange = change) :
    (s.pushChange change priority).pendingChanges =
      s.pendingChanges ++ [change.asRegularGossipChange] := by
  cases priority with
  | normal =>
    rw [h rfl]
    rfl
  | immediate => rfl

lemma pushChange_maps (s : Registry) (change : RegistryChange) (priority : RegistrationPriority) :
    (s.pushChange change priority).localActors = s.localActors ∧
      (s.pushChange change priority).knownActors = s.knownActors ∧
      (s.pushChange change priority).removedActors = s.removedActors := by
  cases priority <;> exact ⟨rfl, rfl, rfl⟩

lemma registerCommit_ok (h : s.registerCommit cfg name location priority = (s', none)) :
    s.localActors.get name = none ∧ s.knownActors.get name = none ∧
      s'.localActors = s.localActors.insert name location ∧ s'.knownActors = s.knownActors ∧
      s'.removedActors = s.removedActors.remove name ∧
      s'.pendingChanges = s.pendingChanges ++ [.actorAdded name location .normal] := by
  unfold registerCommit at h
  split_ifs at h with hfree
  · exact absurd (congrArg snd h) (by simp)
  · rw [Bool.or_eq_true, not_or, Bool.not_eq_true, Bool.not_eq_true, Table.containsKey_eq_false,
      Table.containsKey_eq_false] at hfree
    split at h
    · exact absurd (congrArg snd h) (by simp)
    · next s₁ hchg =>
      obtain rfl := congrArg fst h
      have hsame := sameDirectory_charge hchg
      obtain ⟨hl, hk, hr⟩ := pushChange_maps { s₁ with
          localActors := s₁.localActors.insert name location
          removedActors := s₁.removedActors.remove name }
        (.actorAdded name location priority) priority
      refine ⟨hfree.1, hfree.2, ?_, ?_, ?_, ?_⟩
      · rw [hl, hsame.localActors]
      · rw [hk, hsame.knownActors]
      · rw [hr, hsame.removedActors]
      · rw [pendingChanges_pushChange, hsame.pendingChanges]
        · rfl
        · rintro rfl
          rfl

lemma registerCommit_err {e : RegisterError}
    (h : s.registerCommit cfg name location priority = (s', some e)) : s' = s := by
  unfold registerCommit at h
  split_ifs at h
  · exact (congrArg fst h).symm
  · split at h
    · exact (congrArg fst h).symm
    · exact absurd (congrArg snd h) (by simp)

variable (s)

variable (cfg)

lemma unregisterCommit_spec (name : Text) (location : RemoteActorLocation) :
    (s.unregisterCommit cfg name location).localActors = s.localActors ∧
      (s.unregisterCommit cfg name location).knownActors = s.knownActors ∧
      (s.unregisterCommit cfg name location).removedActors = s.removedActors.insert name
        ⟨removalClock cfg location, .explicitUnregister, some cfg.nodeId⟩ ∧
      (s.unregisterCommit cfg name location).pendingChanges = s.pendingChanges ++
        [.actorRemoved name (removalClock cfg location) cfg.nodeId .normal] := by
  have hsame := sameDirectory_releaseCompact s name
  unfold unregisterCommit
  obtain ⟨hl, hk, hr⟩ := pushChange_maps ((s.releaseCompactSnapshot name).setTombstone name
      ⟨removalClock cfg location, .explicitUnregister, some cfg.nodeId⟩)
    (.actorRemoved name (removalClock cfg location) cfg.nodeId location.priority)
    location.priority
  refine ⟨?_, ?_, ?_, ?_⟩
  · rw [hl, setTombstone, hsame.localActors]
  · rw [hk, setTombstone, hsame.knownActors]
  · rw [hr, setTombstone, hsame.removedActors]
  · rw [pendingChanges_pushChange, setTombstone, hsame.pendingChanges]
    · rfl
    · intro h
      rw [h]
      rfl

lemma dropReflected_cases (name : Text)
    (sameAddress : Option Text) : s.dropReflected cfg name sameAddress = s ∨
      s.dropReflected cfg name sameAddress =
        (s.removeKnown name).releaseActorAdmission name := by
  unfold dropReflected
  split
  · split_ifs
    · exact .inr rfl
    · exact .inl rfl
  · exact .inl rfl

lemma dropReflected_spec (name : Text) (sameAddress : Option Text) :
    (s.dropReflected cfg name sameAddress).localActors = s.localActors ∧
      ((s.dropReflected cfg name sameAddress).knownActors = s.knownActors ∨
        (s.dropReflected cfg name sameAddress).knownActors = s.knownActors.remove name) ∧
      (s.dropReflected cfg name sameAddress).removedActors = s.removedActors ∧
      (s.dropReflected cfg name sameAddress).pendingChanges = s.pendingChanges := by
  rcases s.dropReflected_cases cfg name sameAddress with heq | heq
  · rw [heq]
    exact ⟨rfl, .inl rfl, rfl, rfl⟩
  · rw [heq]
    have hsame := sameDirectory_release (s.removeKnown name) name
    exact ⟨hsame.localActors, .inr hsame.knownActors, hsame.removedActors, hsame.pendingChanges⟩

/-- **A registration** either leaves the local actors, the tombstones and the
queue alone, or finds the name free and announces the stamped location. -/
theorem register_cases (now : ℕ) (name : Text)
    (location : RemoteActorLocation) (priority : RegistrationPriority) :
    let s' := (s.registerActorWithPriority cfg now name location priority).1
    let stamped := stampLocation { location with wallClockTime := now, priority := priority }
      (s.removedActors.get name)
    (s'.localActors = s.localActors ∧ s'.removedActors = s.removedActors ∧
      s'.pendingChanges = s.pendingChanges) ∨
    (s.localActors.get name = none ∧ s'.localActors = s.localActors.insert name stamped ∧
      s'.knownActors.get name = none ∧ s'.removedActors = s.removedActors.remove name ∧
      s'.pendingChanges = s.pendingChanges ++ [.actorAdded name stamped .normal]) := by
  intro s' stamped
  have hdrop := s.dropReflected_spec cfg name (some location.address)
  rcases hreg : s.registerActorWithPriority cfg now name location priority with ⟨s₂, err⟩
  have hs' : s' = s₂ := congrArg fst hreg
  rw [hs']
  simp only [registerActorWithPriority, hdrop.2.2.1] at hreg
  -- dropping a reflected entry moves none of the three
  split_ifs at hreg with hfree hfits
  · obtain rfl := congrArg fst hreg
    exact .inl ⟨hdrop.1, hdrop.2.2.1, hdrop.2.2.2⟩
  · obtain rfl := congrArg fst hreg
    exact .inl ⟨hdrop.1, hdrop.2.2.1, hdrop.2.2.2⟩
  · cases err with
    | none =>
      obtain ⟨hl, hk, hl', hk', hr', hp'⟩ := registerCommit_ok hreg
      rw [hdrop.1] at hl hl'
      rw [hdrop.2.2.1] at hr'
      rw [hdrop.2.2.2] at hp'
      exact .inr ⟨hl, hl', by rw [hk', hk], hr', hp'⟩
    | some =>
      obtain rfl := registerCommit_err hreg
      exact .inl ⟨hdrop.1, hdrop.2.2.1, hdrop.2.2.2⟩

/-- **An unregistration** of a local actor removes it and announces that; of
any other name it leaves the local actors, the tombstones and the queue
alone. -/
theorem unregister_cases (name : Text) : let s' := s.unregisterActor cfg name
    (s.localActors.get name = none ∧ s'.localActors = s.localActors ∧
      s'.removedActors = s.removedActors ∧ s'.pendingChanges = s.pendingChanges) ∨
    ∃ l, s.localActors.get name = some l ∧ s'.localActors = s.localActors.remove name ∧
      s'.removedActors = s.removedActors.insert name
        ⟨removalClock cfg l, .explicitUnregister, some cfg.nodeId⟩ ∧
      s'.pendingChanges = s.pendingChanges ++
        [.actorRemoved name (removalClock cfg l) cfg.nodeId .normal] := by
  intro s'
  rcases hl : s.localActors.get name with _ | l
  · have hs' : s' = s.dropReflected cfg name none := by
      simp only [s', unregisterActor, hl]
    have hdrop := s.dropReflected_spec cfg name none
    rw [hs']
    exact .inl ⟨rfl, hdrop.1, hdrop.2.2.1, hdrop.2.2.2⟩
  · have hs' : s' = ((s.removeLocal name).dropReflected cfg name none).unregisterCommit cfg name
        l := by
      simp only [s', unregisterActor, hl]
    have hdrop := (s.removeLocal name).dropReflected_spec cfg name none
    have hcom := ((s.removeLocal name).dropReflected cfg name none).unregisterCommit_spec cfg
      name l
    rw [hs', hcom.1, hcom.2.2.1, hcom.2.2.2, hdrop.1, hdrop.2.2.1, hdrop.2.2.2]
    exact .inr ⟨l, rfl, rfl, rfl, rfl⟩

end Registry

/-! ### Whole messages -/

namespace Applying

variable (cfg : NodeConfig)

variable (src : DeltaSource)

lemma registry_applyChange (a : Applying) (change : RegistryChange) :
    (a.applyChange cfg src change).registry = a.registry.afterChange cfg src change := by
  cases change with
  | actorAdded name location =>
    rw [applyChange, Registry.afterChange]
    cases a.registry.applyAdded cfg src name location <;> rfl
  | actorRemoved name clock removing priority =>
    rw [applyChange, Registry.afterChange]
    cases a.registry.applyRemoved name clock removing priority <;> rfl

lemma registry_foldl_applyChange (changes : List RegistryChange) (a : Applying) :
    (changes.foldl (applyChange cfg src) a).registry =
      changes.foldl (fun s c => s.afterChange cfg src c) a.registry := by
  induction changes generalizing a with
  | nil => rfl
  | cons c cs ih => rw [List.foldl_cons, List.foldl_cons, ih, registry_applyChange]

@[simp] lemma registry_noteKnown (a : Applying) (name : Text) :
    (a.noteKnown name).registry = a.registry := by
  unfold noteKnown
  split <;> rfl

end Applying

namespace Registry

variable (sender : PeerId) (s : Registry)

lemma view_applyDeltaFrom (cfg : NodeConfig) (changes : List RegistryChange) (sender : PeerId)
    (bookkeeping verified : Option SocketAddr) (restart : Bool) (n : Text) :
    (s.applyDeltaFrom cfg changes sender bookkeeping verified restart).view n =
      (changes.foldl (fun s c => s.afterChange cfg ⟨sender, verified.or bookkeeping, restart⟩ c)
        s).view n := by
  have hfold := Applying.registry_foldl_applyChange cfg ⟨sender, verified.or bookkeeping, restart⟩
    changes ⟨s, (bookkeeping.bind s.peerToActors.get).getD .empty⟩
  rw [← hfold]
  cases bookkeeping <;> rfl

lemma pruneOmitted_cases (name : Text) : pruneOmitted sender s name = s ∨
    (∃ e, s.knownActors.get name = some e ∧ e.peerId = sender) ∧
      pruneOmitted sender s name = (s.removeKnown name).releaseActorAdmission name := by
  unfold pruneOmitted
  split_ifs
  · exact .inl rfl
  · split
    · next e he =>
      split_ifs with hp
      · exact .inr ⟨⟨e, he, hp⟩, rfl⟩
      · exact .inl rfl
    · exact .inl rfl

lemma view_pruneOmitted (name n : Text) : (pruneOmitted sender s name).view n = s.view n ∨
    n = name ∧ (∃ e, (s.view name).known = some e ∧ e.peerId = sender) ∧
      (pruneOmitted sender s name).view n = { s.view name with known := none } := by
  rcases pruneOmitted_cases sender s name with heq | ⟨hsnd, heq⟩
  · rw [heq]
    exact .inl rfl
  · rw [heq, (sameDirectory_release _ _).view_eq, view_removeKnown]
    split_ifs with hn
    · exact .inr ⟨hn, hsnd, rfl⟩
    · exact .inl rfl

end Registry

namespace Applying

variable (cfg : NodeConfig) (src : SyncSource) (a : Applying)

/-- Everything an entry of a full sync can do: it is refused at a cap, it changes
nothing and is noted if its name is known, or it is stored and noted. -/
lemma applyUpdate_cases (u : Text × RemoteActorLocation) :
    (a.applyUpdate cfg src u = a ∧ (a.registry.peerCapReached cfg src.senderPeerId u.1 = true ∨
      a.registry.knownActors.containsKey u.1 = false)) ∨
    a.applyUpdate cfg src u = a.noteKnown u.1 ∨
    ∃ s' clear, (∃ isUpdate, (a.registry.view u.1).currentActorUpsertPlan cfg.peerId u.2
        src.senderPeerId src.ownerRestartAuthenticated = some (clear, isUpdate)) ∧
      a.registry.admitLocation cfg src.senderPeerId u.1 u.2 clear = some s' ∧
      a.applyUpdate cfg src u = ⟨s', a.names.insert u.1 ()⟩ := by
  simp only [applyUpdate]
  split_ifs with hpeer hglobal
  · exact .inl ⟨rfl, .inl hpeer⟩
  · rw [Bool.and_eq_true, Bool.not_eq_true'] at hglobal
    exact .inl ⟨rfl, .inr hglobal.1⟩
  · split
    · exact .inr (.inl rfl)
    · next hplan =>
      split
      · exact .inr (.inl rfl)
      · next hadmit => exact .inr (.inr ⟨_, _, ⟨_, hplan⟩, hadmit, rfl⟩)

/-- **An entry of a full sync** either leaves the registry alone or is one the
plan wants, and is then stored. -/
theorem view_applyUpdate (name : Text) (location : RemoteActorLocation) :
    (a.applyUpdate cfg src (name, location)).registry = a.registry ∨
      (a.registry.view name).Wants cfg.peerId location src.senderPeerId
        src.ownerRestartAuthenticated ∧
      ∀ n, (a.applyUpdate cfg src (name, location)).registry.view n =
        if n = name then (a.registry.view name).store location else a.registry.view n := by
  rcases applyUpdate_cases cfg src a (name, location) with
    ⟨heq, -⟩ | heq | ⟨s', clear, ⟨isUpdate, hplan⟩, hadmit, heq⟩
  · exact .inl (congrArg registry heq)
  · exact .inl (by rw [heq, registry_noteKnown])
  · obtain ⟨hwants, hclear, -⟩ := upsertPlan_eq_some.mp hplan
    rw [heq]
    exact .inr ⟨hwants, Registry.view_admitLocation hclear hadmit⟩

end Applying

end IcanactRemote
