/-
The laws of the registry's vector clocks.

`==` on clocks compares counters and a node without an entry counts as zero;
the hash walks the stored entries.

* `clock_join_semilattice` — `compare` is the pointwise order, `merge` the least
  upper bound, `increment` moves up below the bound, `fromVec` undoes `toVec`;
* `equal_clocks_hash_apart`, `hash_eq_iff_same_zeros` — equal clocks hash alike
  exactly when they store zeros for the same nodes;
* `bounded_clock_looks_stale`, `bounded_clock_stays_newer` — the clock of a queued
  change after compaction, against an older one.
-/
import IcanactRemote.DeltaHistory

namespace IcanactRemote

open VectorClock List

lemma compare_eq_equal_iff {a b : Clock} : a.compare b = .equal ↔ ∀ k, a.get k = b.get k := by
  rw [compare_eq_equal]
  exact ⟨fun h k => (h.1 k).antisymm (h.2 k), fun h => ⟨fun k => (h k).le, fun k => (h k).ge⟩⟩

lemma lt_iff_get {a b : Clock} : a < b ↔ (∀ k, a.get k ≤ b.get k) ∧ ∃ k, a.get k < b.get k := by
  rw [lt_iff_le_not_ge, le_def, le_def, not_forall]
  simp only [not_le]

theorem clock_join_semilattice (a b c : Clock) (n : GossipNodeId) :
    (a.compare b = .before ↔ (∀ k, a.get k ≤ b.get k) ∧ ∃ k, a.get k < b.get k) ∧
    (a.compare b = .equal ↔ ∀ k, a.get k = b.get k) ∧
    (a.compare b = .after ↔ (∀ k, b.get k ≤ a.get k) ∧ ∃ k, b.get k < a.get k) ∧
    (a.compare b = .concurrent ↔ (∃ k, a.get k < b.get k) ∧ ∃ k, b.get k < a.get k) ∧
    IsLUB {a, b} (a.merge b) ∧
    (a.merge b).compare (b.merge a) = .equal ∧
    ((a.merge b).merge c).compare (a.merge (b.merge c)) = .equal ∧
    (a.merge a).compare a = .equal ∧
    (a.increment n).compare a = (if a.get n < u64Max then .after else .equal) ∧
    (fromVec a.toVec).compare a = .equal := by
  refine ⟨compare_eq_before.trans lt_iff_get, compare_eq_equal_iff,
    compare_eq_after.trans lt_iff_get, ?_, ?_, ?_, ?_, ?_, ?_, ?_⟩
  · rw [compare_eq_concurrent, le_def, le_def, not_forall, not_forall, and_comm]
    simp only [not_le]
  · refine ⟨?_, fun w hw k => ?_⟩
    · rintro v (rfl | rfl)
      · exact le_merge_left _ _
      · exact le_merge_right _ _
    · rw [get_merge]
      exact max_le (hw (.inl rfl) k) (hw (.inr rfl) k)
  · exact compare_eq_equal_iff.mpr fun k => by rw [get_merge, get_merge, max_comm]
  · refine compare_eq_equal_iff.mpr fun k => ?_
    rw [get_merge, get_merge, get_merge, get_merge, max_assoc]
  · exact compare_eq_equal_iff.mpr fun k => by rw [get_merge, max_self]
  · -- at the bound the increment changes nothing
    split_ifs with hn
    · exact compare_eq_after.mpr (lt_increment hn)
    · refine compare_eq_equal_iff.mpr fun k => ?_
      rw [get_increment, saturatingSucc, if_neg hn]
      split_ifs with hk
      · rw [hk]
      · rfl
  · exact compare_eq_equal_iff.mpr fun k => get_fromVec a.entries_ne k

/-! ### Equality and hashing -/

/-- What is fed to a hasher at once. -/
inductive HashWrite
  | node (id : GossipNodeId)
  | clock (counter : ℕ)
  deriving DecidableEq

/-- Everything a clock feeds to a hasher. -/
def Clock.hash (v : Clock) : List HashWrite :=
  v.toVec.flatMap fun e => [.node e.1, .clock e.2]

/-- The clocks that the public constructors and operations make. -/
inductive Clock.Built : Clock → Prop
  | new : Built .empty
  | withNode (n : GossipNodeId) : Built (.withNode n)
  | increment (n : GossipNodeId) {v : Clock} : Built v → Built (v.increment n)
  | merge {v w : Clock} : Built v → Built w → Built (v.merge w)
  | gcOldNodes (active : GossipNodeId → Bool) {v : Clock} : Built v → Built (v.gcOldNodes active)
  | compact (maxSize : ℕ) {v : Clock} : Built v → Built (v.compact maxSize)
  | fromVec (es : List (GossipNodeId × ℕ)) : Built (.fromVec es)

/-- A new clock and one with a node at zero. -/
theorem equal_clocks_hash_apart :
    ∃ a b : Clock, a.Built ∧ b.Built ∧ a.compare b = .equal ∧ a.hash ≠ b.hash :=
  ⟨.withNode ⟨1⟩, .empty, .withNode _, .new, by decide, by decide⟩

lemma mem_entries_of_equal {a b : Clock} (h : a.compare b = .equal)
    (hzero : ∀ n, (n, 0) ∈ a.toVec → (n, 0) ∈ b.toVec) {e : GossipNodeId × ℕ}
    (he : e ∈ a.entries) : e ∈ b.entries := by
  obtain ⟨n, c⟩ := e
  have hget : valueAt n b.entries = c :=
    (compare_eq_equal_iff.mp h n).symm.trans (valueAt_of_mem a.entries_ne he)
  rcases Nat.eq_zero_or_pos c with rfl | hpos
  · exact hzero n he
  · rw [← hget] at hpos ⊢
    exact mem_of_valueAt_pos hpos

lemma toVec_eq_of_hash_eq {a b : Clock} (h : a.hash = b.hash) : a.toVec = b.toVec := by
  unfold Clock.hash at h
  generalize a.toVec = es, b.toVec = ds at h ⊢
  induction es generalizing ds with
  | nil =>
    cases ds with
    | nil => rfl
    | cons => simp at h
  | cons e es ih =>
    cases ds with
    | nil => simp at h
    | cons d ds =>
      simp only [flatMap_cons, cons_append, nil_append, cons.injEq, HashWrite.node.injEq,
        HashWrite.clock.injEq] at h
      rw [ih _ h.2.2, Prod.ext h.1 h.2.1]

theorem hash_eq_iff_same_zeros {a b : Clock} (h : a.compare b = .equal) :
    a.hash = b.hash ↔ ∀ n, (n, 0) ∈ a.toVec ↔ (n, 0) ∈ b.toVec := by
  constructor
  · intro hhash n
    rw [toVec_eq_of_hash_eq hhash]
  intro hzero
  have hmem : ∀ e, e ∈ a.entries ↔ e ∈ b.entries := fun e =>
    ⟨mem_entries_of_equal h fun n => (hzero n).mp,
      mem_entries_of_equal (compare_eq_equal.mpr (compare_eq_equal.mp h).symm)
        fun n => (hzero n).mpr⟩
  have hnd (v : Clock) : v.entries.Nodup :=
    v.entries_ne.imp fun hne he => hne (congrArg Prod.fst he)
  have hperm : a.entries.Perm b.entries := (perm_ext_iff_of_nodup (hnd a) (hnd b)).mpr hmem
  rw [Clock.hash, Clock.hash, toVec, toVec, hperm.eq_of_pairwise ?_ a.sorted b.sorted]
  intro d e _ _ hde hed
  exact absurd hde hed.asymm

theorem hash_increment_eq_hash_fromVec :
    Clock.hash (VectorClock.empty.increment ⟨1⟩) = Clock.hash (fromVec [(⟨1⟩, 1)]) := by
  have hvec : (empty.increment ⟨1⟩ : Clock).toVec = (fromVec [(⟨1⟩, 1)]).toVec := by
    decide
  exact (hash_eq_iff_same_zeros (by decide)).mpr fun n => by rw [hvec]

/-! ### Compaction of queued changes -/

/-- The counter that makes a removal newer is the smaller one and is cut: the
receiver ignores the removal. -/
theorem bounded_clock_looks_stale : let old : Clock := .fromVec [(⟨1⟩, 5)]
    let new := old.increment ⟨2⟩
    let receiver : NameView := ⟨false, some (.hostedBy 1 old.toVec), none⟩
    new.compare old = .after ∧ (boundClock 1 new).compare old = .equal ∧
      receiver.currentActorRemovalPlan new ⟨2⟩ = some (new, false) ∧
      receiver.currentActorRemovalPlan (boundClock 1 new) ⟨2⟩ = none := by
  decide

/-- A bounded clock stays newer exactly when a counter that makes it so is among those
that compaction keeps. -/
theorem bounded_clock_stays_newer (old new : Clock) (maxSize : ℕ) :
    ((boundClock maxSize new).compare old ≠ .before ∧
        (boundClock maxSize new).compare old ≠ .equal) ↔
      ∃ n, old.get n < new.get n ∧ new.rank n < maxSize := by
  have hbound : boundClock maxSize new = new.compact maxSize := by
    unfold boundClock compact
    split_ifs <;> first | rfl | omega
  have hnle : ((boundClock maxSize new).compare old ≠ .before ∧
      (boundClock maxSize new).compare old ≠ .equal) ↔ ¬ boundClock maxSize new ≤ old := by
    rw [Ne, compare_eq_before, Ne, compare_eq_equal, lt_iff_le_not_ge]
    tauto
  rw [hnle, hbound, le_def, not_forall]
  refine exists_congr fun n => ?_
  rw [not_le, get_compact]
  split_ifs with hrank
  · exact (and_iff_left hrank).symm
  · exact iff_of_false (Nat.not_lt_zero _) fun h => hrank h.2

end IcanactRemote
