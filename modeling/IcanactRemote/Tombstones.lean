/-
Deliberate removals stay removed.

A tombstone whose kind is not a peer death was left by the owner of the actor,
or by someone this node cannot tell from the owner.  While the name is absent
such a tombstone keeps its kind and its clock only grows, and what brings the
name back is later than it.

* `separate_entryStep` — no name is known and removed at once;
* `entryStep_tombstone` — what one entry can do to a name with a deliberate
  tombstone: raise its clock, or bring the name back past it;
* `no_resurrection` — the same at every point of every run of gossip calls.
-/
import IcanactRemote.ActorCalls

namespace IcanactRemote

open Run

namespace NameView

/-- The name is not known and removed at once. -/
def Separate (v : NameView) : Prop := v.known = none ∨ v.removed = none

/-- The update is later than the tombstone, or comes from the actor's own peer
with a larger counter of its own node. -/
def Supersedes (location : RemoteActorLocation) (sender : PeerId) (t : RemovedActorTombstone) :
    Prop :=
  t.vectorClock < location.vectorClock ∨ location.peerId = sender ∧
    t.vectorClock.get location.nodeId < location.vectorClock.get location.nodeId

variable {v : NameView} {t : RemovedActorTombstone}

lemma le_of_removalPlan {clock removal : Clock} {removing : GossipNodeId} {only : Bool}
    (hkn : v.known = none) (ht : v.removed = some t)
    (hplan : v.currentActorRemovalPlan clock removing = some (removal, only)) :
    t.vectorClock ≤ removal := by
  rcases (removalPlan_eq_some.mp hplan).2 with ⟨e, he, -⟩ | ⟨-, -, hcases⟩
  · rw [hkn] at he
    simp at he
  · rcases hcases with ⟨hnone, -⟩ | ⟨t', ht', ⟨hlt, rfl⟩ | ⟨-, rfl⟩⟩
    · rw [ht] at hnone
      simp at hnone
    · obtain rfl := Option.some.inj (ht.symm.trans ht')
      exact hlt.le
    · obtain rfl := Option.some.inj (ht.symm.trans ht')
      exact VectorClock.le_merge_right _ _

end NameView

namespace Registry

variable {cfg : NodeConfig}

/-- No name is known and removed at once. -/
def Separate (s : Registry) : Prop := ∀ n, (s.view n).Separate

lemma separate_start : start.Separate := fun _ => .inl rfl

lemma separate_entryStep (s : Registry) (e : GossipEntry) (h : s.Separate) :
    (s.entryStep cfg e).Separate := by
  intro n
  rcases view_entryStep cfg s e n with
    hv | ⟨l, p, r, -, -, hv⟩ | ⟨c, m, r, o, -, hv⟩ | ⟨-, hv⟩
  · rw [hv]
    exact h n
  · rw [hv]
    exact .inr rfl
  · rw [hv]
    exact .inl rfl
  · rw [hv]
    exact .inl rfl

variable {t : RemovedActorTombstone} {s : Registry} {n : Text}

section

variable (hsep : s.Separate) (ht : (s.view n).removed = some t) (hkind : t.kind ≠ .peerDeath)
include hsep ht hkind

/-- **One entry over a deliberate tombstone**: the name stays absent behind a
deliberate tombstone that covers the old one, or the entry brings it back and
supersedes the tombstone. -/
theorem entryStep_tombstone (e : GossipEntry) :
    (∃ t', (s.entryStep cfg e).view n = (s.view n).bury t' ∧ t'.kind ≠ .peerDeath ∧
      t.vectorClock ≤ t'.vectorClock) ∨
    (∃ location sender restart, e.Offers cfg.text n location sender restart ∧
      ((s.entryStep cfg e).view n).known = some location ∧
      NameView.Supersedes location sender t) := by
  have hkn : (s.view n).known = none := by
    rcases hsep n with h | h
    · exact h
    · rw [ht] at h
      simp at h
  have hsame : s.view n = (s.view n).bury t := by
    rw [NameView.bury, ← ht, ← hkn]
  -- nothing, an addition, a removal, or pruning what is not there
  rcases view_entryStep cfg s e n with
    hv | ⟨l, p, r, hoffer, hwants, hv⟩ | ⟨c, m, r, o, hplan, hv⟩ | ⟨⟨l, hl⟩, -⟩
  · exact .inl ⟨t, hv.trans hsame, hkind, le_rfl⟩
  · refine .inr ⟨l, p, r, hoffer, by rw [hv]; rfl, ?_⟩
    rcases hwants.2.2.1 t ht with hlt | hrec
    · exact .inl hlt
    · exact .inr (lt_of_ownerRecoveryWinsTombstone hkind hrec)
  · refine .inl ⟨_, hv, ?_, NameView.le_of_removalPlan hkn ht hplan⟩
    refine NameView.removalKind_ne_peerDeath (fun l hl => ?_) fun t' ht' => ?_
    · rw [hkn] at hl
      simp at hl
    · obtain rfl := Option.some.inj (ht.symm.trans ht')
      exact hkind
  · rw [hkn] at hl
    simp at hl

lemma exec_tombstone {es : List GossipEntry}
    (habs : ∀ p, p <+: es → ((exec (entryStep cfg) s p).view n).known = none) :
    ∃ t', ((exec (entryStep cfg) s es).view n).removed = some t' ∧ t'.kind ≠ .peerDeath ∧
      t.vectorClock ≤ t'.vectorClock := by
  induction es generalizing s t with
  | nil => exact ⟨t, ht, hkind, le_rfl⟩
  | cons e es ih =>
    have hnone : ((s.entryStep cfg e).view n).known = none :=
      habs [e] (List.prefix_append [e] es)
    rcases entryStep_tombstone hsep ht hkind e with ⟨t', hv, hkind', hle⟩ | ⟨l, p, r, -, hl, -⟩
    · obtain ⟨t'', ht'', hkind'', hle'⟩ := ih (separate_entryStep s e hsep)
        (by rw [hv]; rfl) hkind' fun p hp => habs (e :: p) (List.cons_prefix_cons.mpr ⟨rfl, hp⟩)
      exact ⟨t'', ht'', hkind'', hle.trans hle'⟩
    · rw [hl] at hnone
      simp at hnone

end

/-- **No resurrection of a deliberate removal.**  At every point of every run of
gossip calls, inside calls included: no name is known and removed at once; while
a name stays absent its deliberate tombstone does not become a peer death and
its clock only grows; and an entry that brings the name back supersedes the
tombstone it finds. -/
theorem no_resurrection (cfg : NodeConfig) {s₀ : Registry} (h₀ : s₀.Separate)
    (calls : List GossipCall) :
    (∀ p, p <+: s₀.entriesOfRun cfg calls → (exec (entryStep cfg) s₀ p).Separate) ∧
    (∀ p q, p ++ q <+: s₀.entriesOfRun cfg calls → ∀ n t,
      ((exec (entryStep cfg) s₀ p).view n).removed = some t →
      t.kind = .explicitUnregister ∨ t.kind = .unknown →
      (∀ q', q' <+: q → ((exec (entryStep cfg) s₀ (p ++ q')).view n).known = none) →
      ∃ t', ((exec (entryStep cfg) s₀ (p ++ q)).view n).removed = some t' ∧
        t'.kind ≠ .peerDeath ∧ t.vectorClock ≤ t'.vectorClock) ∧
    (∀ p e, p ++ [e] <+: s₀.entriesOfRun cfg calls → ∀ n t l,
      ((exec (entryStep cfg) s₀ p).view n).removed = some t →
      t.kind = .explicitUnregister ∨ t.kind = .unknown →
      ((exec (entryStep cfg) s₀ (p ++ [e])).view n).known = some l →
      ∃ sender restart, e.Offers cfg.text n l sender restart ∧
        NameView.Supersedes l sender t) := by
  have hsep : ∀ p, (exec (entryStep cfg) s₀ p).Separate := exec_invariant separate_entryStep h₀
  have hdeliberate : ∀ t : RemovedActorTombstone,
      t.kind = .explicitUnregister ∨ t.kind = .unknown → t.kind ≠ .peerDeath := by
    intro t ht
    rcases ht with h | h <;> simp [h]
  refine ⟨fun p _ => hsep p, ?_, ?_⟩
  · intro p q _ n t ht hkind habs
    simp only [exec_append] at habs ⊢
    exact exec_tombstone (hsep p) ht (hdeliberate t hkind) habs
  · intro p e _ n t l ht hkind hl
    rw [exec_concat] at hl
    rcases entryStep_tombstone (hsep p) ht (hdeliberate t hkind) e with
      ⟨t', hv, -⟩ | ⟨l', sender, restart, hoffer, hl', hsup⟩
    · rw [hv] at hl
      simp [NameView.bury] at hl
    · obtain rfl := Option.some.inj (hl'.symm.trans hl)
      exact ⟨sender, restart, hoffer, hsup⟩

/-- An actor removed at `{1: 1}`, by a message that names no owner this node
knows, comes back at `{1: 2}`. -/
theorem no_resurrection_readded : let cfg := NodeConfig.ofDefaults ⟨9⟩
    let src : DeltaSource := ⟨⟨2⟩, none, false⟩
    let removed : RegistryChange := .actorRemoved [97] (.fromVec [(⟨1⟩, 1)]) ⟨1⟩ .normal
    let location : RemoteActorLocation :=
      ⟨cfg.text.toText (.v4 0x0a000001 7000), ⟨1⟩, ⟨1⟩, .fromVec [(⟨1⟩, 2)], 5, .normal, 0, []⟩
    let added : RegistryChange := .actorAdded [97] location .normal
    ((start.afterChange cfg src removed).view [97]).removed =
        some ⟨.fromVec [(⟨1⟩, 1)], .unknown, none⟩ ∧
    ∃ sender restart, (GossipEntry.change src added).Offers cfg.text [97] location sender restart ∧
      NameView.Supersedes location sender ⟨.fromVec [(⟨1⟩, 1)], .unknown, none⟩ := by
  intro cfg src removed location added
  have hrem : ((start.afterChange cfg src removed).view [97]).removed =
      some ⟨.fromVec [(⟨1⟩, 1)], .unknown, none⟩ := by decide
  exact ⟨hrem,
    (no_resurrection cfg separate_start [.delta [removed, added] ⟨2⟩ none none false]).2.2
      [.change src removed] (.change src added) (List.prefix_refl _) [97] _ _ hrem
      (.inr rfl) (by decide +kernel)⟩

end Registry

end IcanactRemote
