/-
Omission pruning (`registry.rs`).

A full sync lists the actors that its sender knows, and an actor that is filed
under the sender's address and missing from the list is pruned.  The set of
listed names is collected in the admission loop, and a name that the loop refuses
at the sender's cap is missing from it too.  The cap counts the names charged to
the sender, and a name is charged to the peer that refreshed it last, which need
not be its owner.

* `Charged` — the two admission tables agree, in every reachable state;
* `LoopInv` — what the admission loop keeps, entry by entry;
* `fullSync_keeps_listed` — a listed name survives while the charged names and the
  listed ones fit the cap together;
* `fullSync_prunes_listed` — and can be pruned otherwise.
-/
import IcanactRemote.ActorCalls

namespace IcanactRemote

open Run Table Option

/-! ### Charges -/

namespace Registry

/-- The names charged to a peer. -/
def chargedTo (s : Registry) (peerId : PeerId) : NameSet :=
  (s.actorAdmissionsByPeer.get peerId).getD .empty

/-- A name is in a peer's set when it is charged to that peer. -/
def Charged (s : Registry) : Prop :=
  ∀ name peerId, (s.chargedTo peerId).containsKey name = true ↔
    s.actorAdmissionPeerByName.get name = some peerId

variable {s s' : Registry} {cfg : NodeConfig} {name n : Text} {p q : PeerId}

lemma actorAdmissionCount_eq : s.actorAdmissionCount p = (s.chargedTo p).len := by
  unfold actorAdmissionCount chargedTo
  cases s.actorAdmissionsByPeer.get p <;> rfl

lemma containsKey_dropAdmission (byPeer : Table PeerId NameSet) :
    (((dropAdmission byPeer p name).get q).getD .empty).containsKey n =
      (!(decide (q = p) && decide (n = name)) &&
        ((byPeer.get q).getD .empty).containsKey n) := by
  unfold dropAdmission
  cases hp : byPeer.get p with
  | none =>
    by_cases hq : q = p
    · subst hq
      simp [hp, containsKey]
    · simp [hq]
  | some names =>
    dsimp only
    by_cases hq : q = p
    · subst hq
      have hrem := containsKey_remove names name n
      split_ifs with hemp
      · rw [containsKey_of_len_zero hemp] at hrem
        simpa [get_remove, hp, containsKey] using hrem
      · simpa [get_insert, hp] using hrem
    · split_ifs
      · simp [get_remove, hq]
      · simp [get_insert, hq]

/-- The two states have the same admission tables. -/
def SameAdmissions (s s' : Registry) : Prop :=
  s'.actorAdmissionPeerByName = s.actorAdmissionPeerByName ∧
    s'.actorAdmissionsByPeer = s.actorAdmissionsByPeer

lemma SameAdmissions.chargedTo_eq (h : SameAdmissions s s') : s'.chargedTo p = s.chargedTo p := by
  rw [chargedTo, chargedTo, h.2]

lemma Charged.of_same (hs : s.Charged) (h : SameAdmissions s s') : s'.Charged := by
  intro name p
  rw [h.chargedTo_eq, h.1]
  exact hs name p

lemma chargedTo_record (hs : s.Charged) :
    ((s.recordActorAdmission p name).chargedTo q).containsKey n =
      if n = name then decide (q = p) else (s.chargedTo q).containsKey n := by
  -- the table that the new name is inserted into holds it for no other peer
  have hdropped : ∀ byPeer : Table PeerId NameSet,
      (∀ q, ((byPeer.get q).getD .empty).containsKey n =
        if n = name ∧ q ≠ p then false else (s.chargedTo q).containsKey n) →
      (((byPeer.insert p (((byPeer.get p).getD .empty).insert name ())).get q).getD
        .empty).containsKey n =
      if n = name then decide (q = p) else (s.chargedTo q).containsKey n := by
    intro byPeer h
    rw [get_insert]
    by_cases hq : q = p
    · rw [if_pos hq, getD_some, containsKey_insert, h p, hq]
      by_cases hn : n = name <;> simp [hn]
    · rw [if_neg hq, h q]
      by_cases hn : n = name <;> simp [hn, hq]
  apply hdropped
  intro q
  have hchg := hs n q
  cases hprev : s.actorAdmissionPeerByName.get name with
  | none =>
    show (s.chargedTo q).containsKey n = _
    split_ifs with h
    · rw [h.1, hprev] at hchg
      simpa [h.1] using hchg
    · rfl
  | some previous =>
    dsimp only
    split_ifs with hmoved h h
    · rw [containsKey_dropAdmission]
      show (_ && (s.chargedTo q).containsKey n) = _
      rw [h.1, hprev] at hchg
      by_cases hq : q = previous
      · simp [hq, h.1]
      · have hnot : (s.chargedTo q).containsKey name = false := by
          rw [← Bool.not_eq_true, hchg]
          exact fun heq => hq (some.inj heq).symm
        rw [h.1, hnot, Bool.and_false]
    · rw [containsKey_dropAdmission]
      show (_ && (s.chargedTo q).containsKey n) = _
      by_cases hqn : q = previous ∧ n = name
      · exact absurd ⟨hqn.2, by rw [hqn.1]; exact hmoved⟩ h
      · rw [← Bool.decide_and, decide_eq_false hqn, Bool.not_false, Bool.true_and]
    · show (s.chargedTo q).containsKey n = _
      rw [h.1, hprev] at hchg
      rw [← Bool.not_eq_true, h.1, hchg]
      intro heq
      exact h.2 ((some.inj heq).symm.trans (not_not.mp hmoved))
    · rfl

lemma Charged.record (hs : s.Charged) (p : PeerId) (name : Text) :
    (s.recordActorAdmission p name).Charged := by
  intro n q
  have hbyName : (s.recordActorAdmission p name).actorAdmissionPeerByName.get n =
      if n = name then some p else s.actorAdmissionPeerByName.get n :=
    get_insert ..
  rw [chargedTo_record hs, hbyName]
  split_ifs with h
  · rw [decide_eq_true_eq, some_inj]
    exact eq_comm
  · exact hs n q

lemma sameAdmissions_releaseCompact (s : Registry) (name : Text) :
    SameAdmissions s (s.releaseCompactSnapshot name) := by
  obtain ⟨bytes, charges, heq⟩ := releaseCompact_eq s name
  rw [heq]
  exact ⟨rfl, rfl⟩

lemma Charged.release (hs : s.Charged) (name : Text) : (s.releaseActorAdmission name).Charged := by
  unfold releaseActorAdmission
  cases hp : s.actorAdmissionPeerByName.get name with
  | none => exact hs
  | some p =>
    refine Charged.of_same ?_ (sameAdmissions_releaseCompact _ name)
    intro n q
    have hchg := hs n q
    have hset : (chargedTo { s with
          actorAdmissionPeerByName := s.actorAdmissionPeerByName.remove name
          actorAdmissionsByPeer := dropAdmission s.actorAdmissionsByPeer p name } q).containsKey n =
        (!(decide (q = p) && decide (n = name)) && (s.chargedTo q).containsKey n) :=
      containsKey_dropAdmission ..
    rw [hset]
    rw [get_remove]
    -- the name is in the set of the peer it was charged to, and in no other
    by_cases hn : n = name
    · subst hn
      rw [hp] at hchg
      rw [if_pos rfl, Bool.and_eq_true, hchg]
      simp only [decide_true, Bool.and_true, Bool.not_eq_true', decide_eq_false_iff_not]
      constructor
      · rintro ⟨hq, heq⟩
        exact absurd (some.inj heq).symm hq
      · intro heq
        simp at heq
    · rw [if_neg hn]
      simpa [hn] using hchg

variable {location : RemoteActorLocation} {sender : PeerId} {clear : Bool}

lemma sameAdmissions_charge (h : s.tryChargeCompactSnapshot cfg name location = some s') :
    SameAdmissions s s' := by
  obtain ⟨bytes, charges, rfl⟩ := charge_eq h
  exact ⟨rfl, rfl⟩

lemma sameAdmissions_pushChange (s : Registry) (change : RegistryChange)
    (priority : RegistrationPriority) : SameAdmissions s (s.pushChange change priority) := by
  cases priority <;> exact ⟨rfl, rfl⟩

lemma admitLocation_admissions (h : s.admitLocation cfg sender name location clear = some s') :
    ∃ s₁, SameAdmissions s s₁ ∧ s' = s₁.recordActorAdmission sender name := by
  unfold admitLocation at h
  split_ifs at h
  obtain ⟨s₁, hchg, rfl⟩ := map_eq_some_iff.mp h
  obtain ⟨hbyName, hbyPeer⟩ := sameAdmissions_charge hchg
  exact ⟨s₁.upsertKnown name location clear, ⟨hbyName, hbyPeer⟩, rfl⟩

variable (hs : s.Charged)
include hs

lemma Charged.admitLocation (h : s.admitLocation cfg sender name location clear = some s') :
    s'.Charged := by
  obtain ⟨s₁, hsame, rfl⟩ := admitLocation_admissions h
  exact (hs.of_same hsame).record sender name

lemma Charged.applyUpdate (src : SyncSource) (u : Text × RemoteActorLocation) (names : NameSet) :
    (Applying.applyUpdate cfg src ⟨s, names⟩ u).registry.Charged := by
  rcases Applying.applyUpdate_cases cfg src ⟨s, names⟩ u with
    ⟨heq, -⟩ | heq | ⟨s', clear, -, hadmit, heq⟩
  · rw [heq]
    exact hs
  · rw [heq, Applying.registry_noteKnown]
    exact hs
  · rw [heq]
    exact hs.admitLocation hadmit

lemma Charged.afterChange (src : DeltaSource) (c : RegistryChange) :
    (s.afterChange cfg src c).Charged := by
  have hkept : (s.removeKnown c.actorName).Charged := hs.of_same ⟨rfl, rfl⟩
  rcases s.afterChange_cases cfg src c with
    heq | ⟨location, clear, hadmit⟩ | ⟨tombstone, forwarded, -, heq | heq⟩
  · rw [heq]
    exact hs
  · exact hs.admitLocation hadmit
  · rw [heq]
    exact hs.of_same ⟨rfl, rfl⟩
  · rw [heq]
    exact (hkept.release c.actorName).of_same ⟨rfl, rfl⟩

lemma Charged.pruneOmitted (sender : PeerId) (name : Text) :
    (pruneOmitted sender s name).Charged := by
  have hkept : (s.removeKnown name).Charged := hs.of_same ⟨rfl, rfl⟩
  rcases pruneOmitted_cases sender s name with heq | ⟨-, heq⟩
  · rw [heq]
    exact hs
  · rw [heq]
    exact hkept.release name

lemma Charged.dropReflected (cfg : NodeConfig) (name : Text) (sameAddress : Option Text) :
    (s.dropReflected cfg name sameAddress).Charged := by
  have hkept : (s.removeKnown name).Charged := hs.of_same ⟨rfl, rfl⟩
  rcases s.dropReflected_cases cfg name sameAddress with heq | heq
  · rw [heq]
    exact hs
  · rw [heq]
    exact hkept.release name

lemma Charged.registerCommit (name : Text) (location : RemoteActorLocation)
    (priority : RegistrationPriority) :
    (s.registerCommit cfg name location priority).1.Charged := by
  unfold Registry.registerCommit
  split_ifs
  · exact hs
  · split
    · exact hs
    · next s₁ hchg =>
      obtain ⟨hbyName, hbyPeer⟩ := sameAdmissions_charge hchg
      have hins : SameAdmissions s { s₁ with
            localActors := s₁.localActors.insert name location
            removedActors := s₁.removedActors.remove name } := ⟨hbyName, hbyPeer⟩
      exact (hs.of_same hins).of_same (sameAdmissions_pushChange ..)

lemma Charged.register (now : ℕ) (name : Text) (location : RemoteActorLocation)
    (priority : RegistrationPriority) :
    (s.registerActorWithPriority cfg now name location priority).1.Charged := by
  have hdrop := hs.dropReflected cfg name (some location.address)
  unfold registerActorWithPriority
  dsimp only
  split_ifs
  · exact hdrop
  · exact hdrop
  · exact hdrop.registerCommit _ _ _

lemma Charged.unregister (name : Text) : (s.unregisterActor cfg name).Charged := by
  unfold unregisterActor
  split
  · exact hs.dropReflected cfg name none
  · have hrem : (s.removeLocal name).Charged := hs.of_same ⟨rfl, rfl⟩
    have hdrop := hrem.dropReflected cfg name none
    have hreleased := hdrop.of_same (sameAdmissions_releaseCompact _ name)
    refine Charged.of_same ?_ (sameAdmissions_pushChange ..)
    exact hreleased.of_same ⟨rfl, rfl⟩

lemma Charged.entryStep (e : GossipEntry) : (s.entryStep cfg e).Charged := by
  cases e with
  | change src c => exact hs.afterChange src c
  | update src name location => exact hs.applyUpdate src (name, location) .empty
  | file => exact hs.of_same ⟨rfl, rfl⟩
  | prune sender name => exact hs.pruneOmitted sender name

lemma Charged.call (c : RegistryCall) : (s.call cfg c).Charged := by
  cases c with
  | gossip c =>
    show (s.gossip cfg c).Charged
    rw [← exec_entriesOf]
    exact exec_invariant (fun _ e h => h.entryStep e) hs _
  | register now name location priority => exact hs.register now name location priority
  | unregister name => exact hs.unregister name

end Registry

/-! ### Runs -/

/-- A call on the registry, or what any other code may do to it.  Peer death,
a change of an address's owner and the rollback of a projection write the
admission tables through these two operations only. -/
inductive DirectoryEvent
  | call (c : RegistryCall)
  | recordAdmission (peerId : PeerId) (name : Text)
  | releaseAdmission (name : Text)
  | rewrite (maps : Registry)

namespace Registry

def directoryStep (cfg : NodeConfig) (s : Registry) : DirectoryEvent → Registry
  | .call c => s.call cfg c
  | .recordAdmission peerId name => s.recordActorAdmission peerId name
  | .releaseAdmission name => s.releaseActorAdmission name
  | .rewrite maps =>
    { maps with
      actorAdmissionPeerByName := s.actorAdmissionPeerByName
      actorAdmissionsByPeer := s.actorAdmissionsByPeer }

lemma charged_start : start.Charged := by
  intro name p
  simp [start, chargedTo, containsKey]

/-- **The admission tables agree in every reachable state.** -/
theorem charged_exec (cfg : NodeConfig) (es : List DirectoryEvent) :
    (exec (directoryStep cfg) start es).Charged := by
  refine exec_invariant ?_ charged_start es
  intro s e hs
  cases e with
  | call c => exact hs.call c
  | recordAdmission peerId name => exact hs.record peerId name
  | releaseAdmission name => exact hs.release name
  | rewrite => exact hs.of_same ⟨rfl, rfl⟩

/-- **The count at the cap is exact.** -/
theorem actorAdmissionCount_exact (cfg : NodeConfig) (es : List DirectoryEvent) (p : PeerId) :
    let s := exec (directoryStep cfg) start es
    s.actorAdmissionCount p = (s.actorAdmissionPeerByName.retain fun _ q => q = p).len := by
  intro s
  rw [actorAdmissionCount_eq]
  refine ((List.perm_ext_iff_of_nodup (nodup_keys _) (nodup_keys _)).mpr fun n => ?_).length_eq
  rw [mem_keys, ← containsKey_eq_true, charged_exec cfg es n p]
  simp [mem_keys, get_retain, filter_eq_some_iff, s]

end Registry

/-! ### The admission loop -/

namespace Registry

/-- The names a full sync lists for actors that this node does not host. -/
def listedNames (cfg : NodeConfig) (remoteLocal remoteKnown : Table Text RemoteActorLocation) :
    Finset Text :=
  (((remoteLocal.toList ++ remoteKnown.toList).filter fun e => e.2.peerId ≠ cfg.peerId).map
    Prod.fst).toFinset

/-- The names charged to a peer, as a finite set. -/
def chargedNames (s : Registry) (peerId : PeerId) : Finset Text :=
  (s.chargedTo peerId).keys.toFinset

lemma mem_chargedNames {s : Registry} {p : PeerId} {n : Text} :
    n ∈ s.chargedNames p ↔ (s.chargedTo p).containsKey n = true := by
  rw [chargedNames, List.mem_toFinset, mem_keys, containsKey_eq_true]

lemma card_chargedNames (s : Registry) (p : PeerId) :
    (s.chargedNames p).card = s.actorAdmissionCount p := by
  rw [actorAdmissionCount_eq]
  exact List.toFinset_card_of_nodup (nodup_keys _)

end Registry

open Registry

/-- What the loop keeps while it goes through the entries of a full sync from
`sender`: the admission tables agree, only listed names are newly charged to the
sender, none of its charges is lost, no entry of the directory is, and the filed
names stay. -/
structure LoopInv (s : Registry) (sender : PeerId) (listed : Finset Text) (a : Applying) :
    Prop where
  charged : a.registry.Charged
  within : a.registry.chargedNames sender ⊆ s.chargedNames sender ∪ listed
  keeps : ∀ n, s.actorAdmissionPeerByName.get n = some sender →
    a.registry.actorAdmissionPeerByName.get n = some sender
  known : ∀ n, s.knownActors.containsKey n = true →
    a.registry.knownActors.containsKey n = true
  filed : a.registry.peerToActors = s.peerToActors

namespace Applying

variable {cfg : NodeConfig} {src : SyncSource} {s : Registry} {a : Applying}
  {listed : Finset Text} {u : Text × RemoteActorLocation} {n : Text}

lemma loopInv_applyUpdate (h : LoopInv s src.senderPeerId listed a) (hu : u.1 ∈ listed) :
    LoopInv s src.senderPeerId listed (a.applyUpdate cfg src u) := by
  rcases applyUpdate_cases cfg src a u with ⟨heq, -⟩ | heq | ⟨s', clear, -, hadmit, heq⟩
  · rw [heq]
    exact h
  · have hsame : (a.noteKnown u.1).registry = a.registry := registry_noteKnown a u.1
    rw [heq]
    constructor
    · rw [hsame]
      exact h.charged
    · rw [hsame]
      exact h.within
    · rw [hsame]
      exact h.keeps
    · rw [hsame]
      exact h.known
    · rw [hsame]
      exact h.filed
  · rw [heq]
    obtain ⟨s₁, hsame, hs'⟩ := admitLocation_admissions hadmit
    -- a stored entry is charged to the sender, under a name of the list
    have hcharged₁ := h.charged.of_same hsame
    constructor
    · exact h.charged.admitLocation hadmit
    · intro n hn
      rw [mem_chargedNames] at hn
      simp only [hs', chargedTo_record hcharged₁] at hn
      rw [hsame.chargedTo_eq] at hn
      split_ifs at hn with hname
      · rw [hname]
        exact Finset.mem_union_right _ hu
      · exact h.within (mem_chargedNames.mpr hn)
    · intro n hn
      rw [hs']
      show (s₁.actorAdmissionPeerByName.insert u.1 src.senderPeerId).get n = _
      rw [get_insert, hsame.1, h.keeps n hn, ite_self]
    · intro n hn
      rw [(admitLocation_maps hadmit).knownActors, containsKey_insert, h.known n hn, Bool.or_true]
    · exact (admitLocation_maps hadmit).peerToActors.trans h.filed

lemma loopInv_foldl (cfg : NodeConfig) (us : List (Text × RemoteActorLocation))
    (hus : ∀ u ∈ us, u.1 ∈ listed) (h : LoopInv s src.senderPeerId listed a) :
    LoopInv s src.senderPeerId listed (us.foldl (applyUpdate cfg src) a) := by
  induction us generalizing a with
  | nil => exact h
  | cons u us ih =>
    apply ih
    · intro v hv
      exact hus v (List.mem_cons_of_mem _ hv)
    · exact loopInv_applyUpdate h (hus u List.mem_cons_self)

lemma noted_applyUpdate (h : a.names.containsKey n = true) :
    (a.applyUpdate cfg src u).names.containsKey n = true := by
  rcases applyUpdate_cases cfg src a u with ⟨heq, -⟩ | heq | ⟨s', clear, -, -, heq⟩
  · rw [heq]
    exact h
  · rw [heq]
    unfold noteKnown
    split_ifs
    · show (a.names.insert u.1 ()).containsKey n = true
      rw [containsKey_insert, h, Bool.or_true]
    · exact h
  · rw [heq]
    rw [containsKey_insert, h, Bool.or_true]

lemma noted_foldl (us : List (Text × RemoteActorLocation)) (h : a.names.containsKey n = true) :
    (us.foldl (applyUpdate cfg src) a).names.containsKey n = true := by
  induction us generalizing a with
  | nil => exact h
  | cons u us ih => exact ih (noted_applyUpdate h)

lemma noted_of_underCap (hcap : a.registry.peerCapReached cfg src.senderPeerId u.1 = false)
    (hkn : a.registry.knownActors.containsKey u.1 = true) :
    (a.applyUpdate cfg src u).names.containsKey u.1 = true := by
  have hins : (a.names.insert u.1 ()).containsKey u.1 = true := by
    simp [containsKey_insert]
  rcases applyUpdate_cases cfg src a u with ⟨-, hcapped | hmiss⟩ | heq | ⟨s', clear, -, -, heq⟩
  · rw [hcap] at hcapped
    simp at hcapped
  · rw [hkn] at hmiss
    simp at hmiss
  · rw [heq, noteKnown, if_pos hkn]
    exact hins
  · rw [heq]
    exact hins

lemma underCap_of_loopInv (h : LoopInv s src.senderPeerId listed a) (hn : n ∈ listed)
    (hroom : s.actorAdmissionPeerByName.get n = some src.senderPeerId ∨
      (s.chargedNames src.senderPeerId ∪ listed).card ≤ cfg.maxKnownActorsPerPeer) :
    a.registry.peerCapReached cfg src.senderPeerId n = false := by
  by_contra hcap
  rw [Bool.not_eq_false, peerCapReached, Bool.and_eq_true, decide_eq_true_eq,
    decide_eq_true_eq] at hcap
  obtain ⟨htransfers, hcnt⟩ := hcap
  rcases hroom with hsame | hcard
  · exact htransfers (h.keeps n hsame)
  · have hnot : n ∉ a.registry.chargedNames src.senderPeerId := by
      intro hmem
      exact htransfers ((h.charged n _).mp (mem_chargedNames.mp hmem))
    -- the names charged so far are among the others
    have hsub : a.registry.chargedNames src.senderPeerId ⊂
        s.chargedNames src.senderPeerId ∪ listed := by
      refine Finset.ssubset_iff_subset_ne.mpr ⟨h.within, ?_⟩
      intro heq
      rw [heq] at hnot
      exact hnot (Finset.mem_union_right _ hn)
    have hlt := Finset.card_lt_card hsub
    rw [card_chargedNames] at hlt
    omega

end Applying

namespace Registry

variable {cfg : NodeConfig} {src : SyncSource} {s : Registry}
  {remoteLocal remoteKnown : Table Text RemoteActorLocation} {name : Text}

lemma mem_updatesToApply {u : Text × RemoteActorLocation}
    (h : u ∈ src.updatesToApply cfg remoteLocal remoteKnown) :
    u.1 ∈ listedNames cfg remoteLocal remoteKnown := by
  rw [SyncSource.updatesToApply, List.mem_insertionSort, List.mem_map] at h
  obtain ⟨e, he, rfl⟩ := h
  rw [listedNames, List.mem_toFinset, List.mem_map]
  exact ⟨e, he, rfl⟩

lemma exists_update_of_listed (src : SyncSource)
    (h : name ∈ listedNames cfg remoteLocal remoteKnown) :
    ∃ l, (name, l) ∈ src.updatesToApply cfg remoteLocal remoteKnown := by
  rw [listedNames, List.mem_toFinset, List.mem_map] at h
  obtain ⟨⟨n, l⟩, he, rfl⟩ := h
  refine ⟨src.resolve cfg.text l, ?_⟩
  rw [SyncSource.updatesToApply, List.mem_insertionSort, List.mem_map]
  exact ⟨(n, l), he, rfl⟩

/-- The name is filed under the sender's address. -/
def filedUnder (s : Registry) (addr : SocketAddr) (name : Text) : Bool :=
  ((s.peerToActors.get addr).getD .empty).containsKey name

/-- Whether a listed name has room: it is not filed under the sender's address,
or it is listed for an actor hosted elsewhere and is charged to the sender, or
the names charged to the sender and those it lists fit its cap together. -/
def HasRoom (cfg : NodeConfig) (s : Registry) (src : SyncSource)
    (remoteLocal remoteKnown : Table Text RemoteActorLocation) (name : Text) : Prop :=
  s.filedUnder src.senderAddr name = false ∨
    name ∈ listedNames cfg remoteLocal remoteKnown ∧
      (s.actorAdmissionPeerByName.get name = some src.senderPeerId ∨
        (s.chargedNames src.senderPeerId ∪ listedNames cfg remoteLocal remoteKnown).card ≤
          cfg.maxKnownActorsPerPeer)

instance : Decidable (HasRoom cfg s src remoteLocal remoteKnown name) := by
  unfold HasRoom
  infer_instance

lemma containsKey_foldl_pruneOmitted (sender : PeerId) (names : List Text)
    (hname : name ∉ names) (s : Registry) (h : s.knownActors.containsKey name = true) :
    (names.foldl (pruneOmitted sender) s).knownActors.containsKey name = true := by
  induction names generalizing s with
  | nil => exact h
  | cons n names ih =>
    rw [List.mem_cons, not_or] at hname
    apply ih hname.2
    rcases view_pruneOmitted sender s n name with hview | ⟨heq, -⟩
    · exact (congrArg (fun v => v.known.isSome) hview).trans h
    · exact absurd heq hname.1

lemma containsKey_pruneAfterSync {a : Applying}
    (hkn : a.registry.knownActors.containsKey name = true)
    (hkept : a.names.containsKey name = true ∨ a.registry.filedUnder src.senderAddr name = false) :
    (pruneAfterSync src a).knownActors.containsKey name = true := by
  unfold pruneAfterSync
  cases hprev : a.registry.peerToActors.get src.senderAddr with
  | none => exact hkn
  | some =>
    refine containsKey_foldl_pruneOmitted _ _ ?_ _ hkn
    rw [List.mem_filter, Bool.not_eq_true']
    rintro ⟨hmem, homit⟩
    rcases hkept with hnoted | hfiled
    · rw [hnoted] at homit
      simp at homit
    · rw [filedUnder, hprev, getD_some, containsKey_eq_false] at hfiled
      obtain ⟨u, hu⟩ := mem_keys.mp hmem
      rw [hfiled] at hu
      simp at hu

/-- What a full sync advertises: it lists no more names than the cap allows, the
name is among them, and the directory, which is not full, attributes it to the
sender. -/
structure Advertises (cfg : NodeConfig) (s : Registry) (src : SyncSource)
    (remoteLocal remoteKnown : Table Text RemoteActorLocation) (name : Text) : Prop where
  atMost : (remoteLocal.keys ++ remoteKnown.keys).toFinset.card ≤ cfg.maxKnownActorsPerPeer
  listed : name ∈ remoteLocal.keys ++ remoteKnown.keys
  attributed : (s.knownActors.get name).map (·.peerId) = some src.senderPeerId
  notFull : s.globalCapReached cfg = false

/-- **A full sync keeps what it lists**, in every reachable state, while there is
room for it. -/
theorem fullSync_keeps_listed (cfg : NodeConfig) (es : List DirectoryEvent) (src : SyncSource)
    (remoteLocal remoteKnown : Table Text RemoteActorLocation) (name : Text)
    (hadvertised : Advertises cfg (exec (directoryStep cfg) start es) src remoteLocal remoteKnown
      name)
    (hroom : HasRoom cfg (exec (directoryStep cfg) start es) src remoteLocal remoteKnown name) :
    ((exec (directoryStep cfg) start es).mergeFullSync cfg src remoteLocal
      remoteKnown).knownActors.containsKey name = true := by
  have hchg := charged_exec cfg es
  generalize exec (directoryStep cfg) start es = s at *
  have hkn : s.knownActors.containsKey name = true := by
    have h := hadvertised.attributed
    rw [map_eq_some_iff] at h
    obtain ⟨l, hl, -⟩ := h
    rw [containsKey, hl]
    rfl
  have hsta : LoopInv s src.senderPeerId (listedNames cfg remoteLocal remoteKnown) ⟨s, .empty⟩ :=
    ⟨hchg, Finset.subset_union_left, fun _ h => h, fun _ h => h, rfl⟩
  have hend := Applying.loopInv_foldl cfg (src.updatesToApply cfg remoteLocal remoteKnown)
    (fun u hu => mem_updatesToApply hu) hsta
  apply containsKey_pruneAfterSync (hend.known name hkn)
  rcases hroom with hfiled | ⟨hlisted, hroom⟩
  · -- the loop leaves the filed names alone
    right
    rw [filedUnder, hend.filed]
    exact hfiled
  · -- the name is noted when its turn comes, and stays so
    left
    obtain ⟨l, hl⟩ := exists_update_of_listed src hlisted
    obtain ⟨us, vs, hspl⟩ := List.append_of_mem hl
    have hbefore : LoopInv s src.senderPeerId (listedNames cfg remoteLocal remoteKnown)
        (us.foldl (Applying.applyUpdate cfg src) ⟨s, .empty⟩) := by
      apply Applying.loopInv_foldl cfg us _ hsta
      intro u hu
      have hmem : u ∈ src.updatesToApply cfg remoteLocal remoteKnown := by
        rw [hspl]
        exact List.mem_append_left _ hu
      exact mem_updatesToApply hmem
    rw [hspl, List.foldl_append, List.foldl_cons]
    apply Applying.noted_foldl
    exact Applying.noted_of_underCap (u := (name, l))
      (Applying.underCap_of_loopInv hbefore hlisted hroom) (hbefore.known name hkn)

/-- The node `⟨1⟩` announces `a`, the node `⟨2⟩` relays a newer version of it, and
then the node `⟨1⟩` announces `b`. -/
def refreshedByRelay : List DirectoryEvent :=
  let announce (name : Text) (clock : ℕ) (sender : PeerId) (addr : SocketAddr) : DirectoryEvent :=
    .call (.gossip (.delta [.actorAdded name (.hostedBy 1 [(⟨1⟩, clock)]) .normal] sender
      (some addr) none false))
  [announce [97] 1 ⟨1⟩ (.v4 1 7000), announce [97] 2 ⟨2⟩ (.v4 2 7000),
    announce [98] 1 ⟨1⟩ (.v4 1 7000)]

theorem fullSync_keeps_listed_refreshed :
    let cfg := { NodeConfig.ofDefaults ⟨9⟩ with maxKnownActorsPerPeer := 2 }
    ((exec (directoryStep cfg) start refreshedByRelay).mergeFullSync cfg
      ⟨⟨1⟩, .v4 1 7000, none, true, false⟩ (Table.empty.insert [97] (.hostedBy 1 [(⟨1⟩, 2)]))
      .empty).knownActors.containsKey [97] = true := by
  intro cfg
  exact fullSync_keeps_listed cfg refreshedByRelay ⟨⟨1⟩, .v4 1 7000, none, true, false⟩
    (empty.insert [97] (.hostedBy 1 [(⟨1⟩, 2)])) .empty [97]
    ⟨by decide +kernel, by decide +kernel, by decide +kernel, by decide +kernel⟩
    (by decide +kernel)

/-- At a cap of one actor per peer the full sync that lists `a` alone is refused,
since `b` takes the only place of its sender, and then prunes `a`. -/
theorem fullSync_prunes_listed :
    let cfg := { NodeConfig.ofDefaults ⟨9⟩ with maxKnownActorsPerPeer := 1 }
    let s := exec (directoryStep cfg) start refreshedByRelay
    let src : SyncSource := ⟨⟨1⟩, .v4 1 7000, none, true, false⟩
    let listed := Table.empty.insert [97] (.hostedBy 1 [(⟨1⟩, 2)])
    Advertises cfg s src listed .empty [97] ∧
      (s.mergeFullSync cfg src listed .empty).knownActors.containsKey [97] = false := by
  intro cfg s src listed
  exact ⟨⟨by decide +kernel, by decide +kernel, by decide +kernel, by decide +kernel⟩,
    by decide +kernel⟩

end Registry

end IcanactRemote
