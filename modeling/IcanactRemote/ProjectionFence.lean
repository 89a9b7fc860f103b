/-
The fence of ownership projections (`GossipState`, `registry.rs`).

Commits of the owner are projected into the gossip state by tasks that may run
in any order.  The state keeps the newest commit position applied to each
address (`ownership_commit_seq`) and refuses older ones.  The table is bounded:
when it exceeds its capacity the oldest entries without a peer are dropped, and
one position, `ownership_pruned_through`, stands for all of them.

The fence of an address is its entry, or that position if it has none
(`fence`).  An admission and a compaction never lower it.  A tombstone for an
address without an entry does when it is older than `ownership_pruned_through`,
since it starts from zero.

* `pruned_tombstone_reopens_fence` — a run in which an admission passes below a
  tombstone of the same address;
* `projection_fence_holds` — in runs without such tombstones it never does.
-/
import IcanactRemote.RoutingSnapshot
import IcanactRemote.Run

namespace IcanactRemote

open Run List Nat

open Table

/-! ### The state and its calls -/

def ownershipWatermarkCapacity : ℕ := 8192

def ownershipWatermarkTarget : ℕ := 6144

/-- `select_nth_unstable_by_key` on the positions: some rearrangement that puts
the `n` smallest first. -/
structure SelectNth where
  arrange : ℕ → List (SocketAddr × CommitSeq) → List (SocketAddr × CommitSeq)
  perm : ∀ n l, (arrange n l).Perm l
  smallest : ∀ n l, ∀ x ∈ (arrange n l).take n, ∀ y ∈ (arrange n l).drop n, x.2 ≤ y.2

/-- Selection by sorting. -/
def SelectNth.sorted : SelectNth where
  arrange _ l := l.mergeSort fun x y => decide (x.2 ≤ y.2)
  perm _ l := List.mergeSort_perm l _
  smallest n l x hx y hy := by
    have hsorted : (l.mergeSort fun x y => decide (x.2 ≤ y.2)).Pairwise
        fun x y => decide (x.2 ≤ y.2) = true := by
      refine List.pairwise_mergeSort (fun x y z hxy hyz => ?_) (fun x y => ?_) l
      · exact decide_eq_true (Nat.le_trans (of_decide_eq_true hxy) (of_decide_eq_true hyz))
      · simpa using Nat.le_total x.2 y.2
    rw [← List.take_append_drop n (l.mergeSort _), List.pairwise_append] at hsorted
    exact of_decide_eq_true (hsorted.2.2 x hx y hy)

/-- What the fence reads of the gossip state.  Of the peers only their
addresses matter. -/
structure GossipState where
  peers : Finset SocketAddr
  ownershipCommitSeq : Table SocketAddr CommitSeq
  ownershipPrunedThrough : CommitSeq

namespace GossipState

def start : GossipState := ⟨∅, .empty, 0⟩

variable (s : GossipState)

def ownershipProjectionCanAdmit (peerAddr : SocketAddr) (commitSeq : CommitSeq) : Bool :=
  (s.ownershipCommitSeq.get peerAddr).any (fun newest => commitSeq ≥ newest)
    || (!s.ownershipCommitSeq.containsKey peerAddr && commitSeq > s.ownershipPrunedThrough)

def dropWatermark (tombstone : SocketAddr × CommitSeq) : GossipState :=
  { s with
    ownershipCommitSeq := s.ownershipCommitSeq.remove tombstone.1
    ownershipPrunedThrough := max s.ownershipPrunedThrough tombstone.2 }

/-- The watermarks that may be forgotten. -/
def tombstones (keepAddrs : List SocketAddr) : List (SocketAddr × CommitSeq) :=
  s.ownershipCommitSeq.toList.filter fun entry =>
    !decide (entry.1 ∈ s.peers) && !keepAddrs.contains entry.1

/-- The oldest of them, when there are more than the excess. -/
def oldestTombstones (select : SelectNth) (keepAddrs : List SocketAddr) :
    List (SocketAddr × CommitSeq) :=
  let tombstones := s.tombstones keepAddrs
  let excess := s.ownershipCommitSeq.len - ownershipWatermarkTarget
  if tombstones.length > excess then (select.arrange excess tombstones).take excess
  else tombstones

def pruneOwnershipWatermarks (select : SelectNth) (keepAddrs : List SocketAddr) : GossipState :=
  if s.ownershipCommitSeq.len ≤ ownershipWatermarkCapacity then s
  else (s.oldestTombstones select keepAddrs).foldl dropWatermark s

def setWatermark (addr : SocketAddr) (seq : CommitSeq) : GossipState :=
  { s with ownershipCommitSeq := s.ownershipCommitSeq.insert addr seq }

def admitOwnershipProjection (select : SelectNth) (peerAddr : SocketAddr)
    (commitSeq : CommitSeq) : GossipState × Bool :=
  if !s.ownershipProjectionCanAdmit peerAddr commitSeq then (s, false)
  else ((s.setWatermark peerAddr commitSeq).pruneOwnershipWatermarks select [peerAddr], true)

def admitOwnershipMigrationProjection (select : SelectNth) (source target : SocketAddr)
    (commitSeq : CommitSeq) : GossipState × Bool :=
  if !s.ownershipProjectionCanAdmit source commitSeq
      || !s.ownershipProjectionCanAdmit target commitSeq then (s, false)
  else
    (((s.setWatermark source commitSeq).setWatermark target commitSeq).pruneOwnershipWatermarks
      select [source, target], true)

def tombstoneOwnershipProjection (select : SelectNth) (peerAddr : SocketAddr)
    (commitSeq : CommitSeq) : GossipState :=
  let floor := (s.ownershipCommitSeq.get peerAddr).getD 0
  (s.setWatermark peerAddr (max floor commitSeq)).pruneOwnershipWatermarks select []

end GossipState

/-- A call on the gossip state, or any change of its peers. -/
inductive FenceCall
  | admission (select : SelectNth) (peerAddr : SocketAddr) (commitSeq : CommitSeq)
  | migration (select : SelectNth) (source target : SocketAddr) (commitSeq : CommitSeq)
  | tombstone (select : SelectNth) (peerAddr : SocketAddr) (commitSeq : CommitSeq)
  | setPeers (peers : Finset SocketAddr)

namespace GossipState

def step (s : GossipState) : FenceCall → GossipState
  | .admission select addr seq => (s.admitOwnershipProjection select addr seq).1
  | .migration select source target seq =>
    (s.admitOwnershipMigrationProjection select source target seq).1
  | .tombstone select addr seq => s.tombstoneOwnershipProjection select addr seq
  | .setPeers peers => { s with peers := peers }

/-- The call admits a projection for `a` at position `c`. -/
def Admits (s : GossipState) (a : SocketAddr) (c : CommitSeq) : FenceCall → Prop
  | .admission select addr seq =>
    addr = a ∧ seq = c ∧ (s.admitOwnershipProjection select addr seq).2 = true
  | .migration select source target seq => (source = a ∨ target = a) ∧ seq = c ∧
    (s.admitOwnershipMigrationProjection select source target seq).2 = true
  | _ => False

/-- The call admits or tombstones `a` at position `c`. -/
def Marks (s : GossipState) (a : SocketAddr) (c : CommitSeq) (call : FenceCall) : Prop :=
  s.Admits a c call ∨ ∃ select, call = .tombstone select a c

/-! ### The fence of an address -/

variable {s t u : GossipState} {a : SocketAddr} {c : CommitSeq}

/-- The position admissions for `a` are measured against. -/
def fence (s : GossipState) (a : SocketAddr) : CommitSeq :=
  (s.ownershipCommitSeq.get a).getD s.ownershipPrunedThrough

/-- No fence of `s'` is lower than in `s`. -/
def Raises (s s' : GossipState) : Prop := ∀ a, s.fence a ≤ s'.fence a

lemma Raises.refl (s : GossipState) : Raises s s := fun _ => le_refl _

lemma Raises.trans {s : GossipState} (h : Raises s t) (h' : Raises t u) : Raises s u :=
  fun a => le_trans (h a) (h' a)

lemma get_dropWatermark (tombstone : SocketAddr × CommitSeq) :
    (s.dropWatermark tombstone).ownershipCommitSeq.get a
      = if a = tombstone.1 then none else s.ownershipCommitSeq.get a :=
  get_remove _ _ _

variable {seq : CommitSeq} {addr source target : SocketAddr} {l : List (SocketAddr × CommitSeq)}
  {call : FenceCall}

lemma raises_dropWatermark (h : s.ownershipCommitSeq.get addr = some seq) :
    Raises s (s.dropWatermark (addr, seq)) := by
  intro a
  rw [fence, fence, get_dropWatermark]
  by_cases ha : a = addr
  · rw [if_pos ha, ha, h]
    exact le_max_right _ _
  · rw [if_neg ha]
    rcases s.ownershipCommitSeq.get a with _ | w
    · exact le_max_left _ _
    · exact le_refl w

/-- The entries of `l` are watermarks of `s`, each of its own address. -/
structure Recorded (s : GossipState) (l : List (SocketAddr × CommitSeq)) : Prop where
  nodup : (l.map Prod.fst).Nodup
  get : ∀ addr seq, (addr, seq) ∈ l → s.ownershipCommitSeq.get addr = some seq

lemma Recorded.tail (h : Recorded s ((addr, seq) :: l)) :
    Recorded (s.dropWatermark (addr, seq)) l := by
  have hnd := h.nodup
  rw [map_cons, nodup_cons] at hnd
  refine ⟨hnd.2, fun addr' seq' hmem => ?_⟩
  have hne : addr' ≠ addr := by
    rintro rfl
    exact hnd.1 (mem_map.mpr ⟨_, hmem, rfl⟩)
  rw [get_dropWatermark, if_neg hne]
  exact h.get addr' seq' (mem_cons_of_mem _ hmem)

lemma raises_foldl_dropWatermark (h : Recorded s l) : Raises s (l.foldl dropWatermark s) := by
  induction l generalizing s with
  | nil => exact .refl s
  | cons entry l ih =>
    have hfst := raises_dropWatermark (h.get entry.1 entry.2 mem_cons_self)
    exact hfst.trans (ih h.tail)

lemma mem_tombstones {keepAddrs : List SocketAddr} : (addr, seq) ∈ s.tombstones keepAddrs ↔
    s.ownershipCommitSeq.get addr = some seq ∧ addr ∉ s.peers ∧ addr ∉ keepAddrs := by
  rw [tombstones, mem_filter, mem_toList]
  simp

variable {keepAddrs : List SocketAddr}

lemma nodup_tombstones : ((s.tombstones keepAddrs).map Prod.fst).Nodup := by
  have hkeys := s.ownershipCommitSeq.nodup_keys
  rw [← keys_toList] at hkeys
  exact hkeys.sublist (filter_sublist.map _)

variable {select : SelectNth}

lemma oldestTombstones_subset : s.oldestTombstones select keepAddrs ⊆ s.tombstones keepAddrs := by
  simp only [oldestTombstones]
  split_ifs
  · exact fun _ hmem => (select.perm _ _).mem_iff.mp (mem_of_mem_take hmem)
  · exact Subset.refl _

lemma recorded_oldestTombstones (s : GossipState) (select : SelectNth)
    (keepAddrs : List SocketAddr) : Recorded s (s.oldestTombstones select keepAddrs) := by
  refine ⟨?_, fun addr seq hmem => ?_⟩
  · simp only [oldestTombstones]
    split_ifs
    · refine Nodup.sublist ((take_sublist _ _).map _) ?_
      exact ((select.perm _ _).map Prod.fst).nodup_iff.mpr nodup_tombstones
    · exact nodup_tombstones
  · exact (mem_tombstones.mp (oldestTombstones_subset hmem)).1

/-- **A compaction lowers no fence.** -/
theorem raises_prune : Raises s (s.pruneOwnershipWatermarks select keepAddrs) := by
  rw [pruneOwnershipWatermarks]
  split_ifs
  · exact .refl s
  · exact raises_foldl_dropWatermark (s.recorded_oldestTombstones select keepAddrs)

lemma fence_le_of_canAdmit (h : s.ownershipProjectionCanAdmit a c = true) : s.fence a ≤ c := by
  rw [ownershipProjectionCanAdmit, Bool.or_eq_true, Bool.and_eq_true, Option.any_eq_true] at h
  rcases h with ⟨newest, hget, hle⟩ | ⟨habs, hlt⟩
  · rw [fence, hget]
    exact of_decide_eq_true hle
  · rw [Bool.not_eq_true', containsKey_eq_false] at habs
    rw [fence, habs]
    exact le_of_lt (of_decide_eq_true hlt)

lemma fence_setWatermark : (s.setWatermark addr seq).fence a = if a = addr then seq else s.fence a
    := by
  rw [fence, setWatermark, get_insert]
  split_ifs <;> rfl

lemma raises_setWatermark (h : s.fence addr ≤ seq) : Raises s (s.setWatermark addr seq) := by
  intro a
  rw [fence_setWatermark]
  split_ifs with ha
  · exact ha ▸ h
  · exact le_refl _

/-! ### One call -/

lemma admission_cases (s : GossipState) (select : SelectNth) (addr : SocketAddr)
    (seq : CommitSeq) : s.admitOwnershipProjection select addr seq = (s, false) ∨
      s.fence addr ≤ seq ∧ s.admitOwnershipProjection select addr seq
        = ((s.setWatermark addr seq).pruneOwnershipWatermarks select [addr], true) := by
  by_cases h : s.ownershipProjectionCanAdmit addr seq = true
  · refine Or.inr ⟨fence_le_of_canAdmit h, ?_⟩
    rw [admitOwnershipProjection, if_neg (by simp [h])]
  · refine Or.inl ?_
    rw [admitOwnershipProjection, if_pos (by simp [h])]

lemma migration_cases (s : GossipState) (select : SelectNth) (source target : SocketAddr)
    (seq : CommitSeq) : s.admitOwnershipMigrationProjection select source target seq = (s, false) ∨
      s.fence source ≤ seq ∧ s.fence target ≤ seq ∧
        s.admitOwnershipMigrationProjection select source target seq
          = (((s.setWatermark source seq).setWatermark target seq).pruneOwnershipWatermarks select
              [source, target], true) := by
  by_cases h : s.ownershipProjectionCanAdmit source seq = true ∧
      s.ownershipProjectionCanAdmit target seq = true
  · refine Or.inr ⟨fence_le_of_canAdmit h.1, fence_le_of_canAdmit h.2, ?_⟩
    rw [admitOwnershipMigrationProjection, if_neg (by simp [h.1, h.2])]
  · refine Or.inl ?_
    rw [admitOwnershipMigrationProjection, if_pos]
    rw [Bool.or_eq_true, Bool.not_eq_true', Bool.not_eq_true', Bool.eq_false_iff, Bool.eq_false_iff]
    exact not_and_or.mp h

/-- A tombstone for an address without a watermark is not below
`ownership_pruned_through`. -/
def TombstoneAboveFloor (s : GossipState) : FenceCall → Prop
  | .tombstone _ addr seq =>
    s.ownershipCommitSeq.get addr = none → s.ownershipPrunedThrough ≤ seq
  | _ => True

lemma fence_le_tombstone
    (h : s.ownershipCommitSeq.get addr = none → s.ownershipPrunedThrough ≤ seq) :
    s.fence addr ≤ max ((s.ownershipCommitSeq.get addr).getD 0) seq := by
  rw [fence]
  rcases hget : s.ownershipCommitSeq.get addr with _ | w
  · exact le_trans (h hget) (le_max_right _ _)
  · exact le_max_left _ _

lemma raises_migration (hsrc : s.fence source ≤ seq) (htgt : s.fence target ≤ seq) :
    Raises s ((s.setWatermark source seq).setWatermark target seq) := by
  refine (raises_setWatermark hsrc).trans (raises_setWatermark ?_)
  rw [fence_setWatermark]
  split_ifs
  · exact le_refl seq
  · exact htgt

/-- **No call lowers a fence**, except a tombstone below the floor. -/
theorem raises_step (h : s.TombstoneAboveFloor call) : Raises s (s.step call) := by
  cases call with
  | admission select addr seq =>
    rw [step]
    rcases s.admission_cases select addr seq with heq | ⟨hle, heq⟩
    · rw [heq]
      exact .refl s
    · rw [heq]
      exact (raises_setWatermark hle).trans raises_prune
  | migration select source target seq =>
    rw [step]
    rcases s.migration_cases select source target seq with heq | ⟨hsrc, htgt, heq⟩
    · rw [heq]
      exact .refl s
    · rw [heq]
      exact (raises_migration hsrc htgt).trans raises_prune
  | tombstone select =>
    exact (raises_setWatermark (fence_le_tombstone h)).trans raises_prune
  | setPeers => exact .refl s

lemma fence_of_admits (h : s.Admits a c call) : s.fence a ≤ c ∧ c ≤ (s.step call).fence a := by
  cases call with
  | admission select addr seq =>
    obtain ⟨rfl, rfl, hadm⟩ := h
    rcases s.admission_cases select addr seq with heq | ⟨hle, heq⟩
    · rw [heq] at hadm
      simp at hadm
    · refine ⟨hle, ?_⟩
      rw [step, heq]
      -- the watermark is set first; compaction does not lower the fence
      refine le_trans ?_ (raises_prune addr)
      rw [fence_setWatermark, if_pos rfl]
  | migration select source target seq =>
    obtain ⟨ha, rfl, hadm⟩ := h
    rcases s.migration_cases select source target seq with heq | ⟨hsrc, htgt, heq⟩
    · rw [heq] at hadm
      simp at hadm
    · constructor
      · rcases ha with rfl | rfl
        · exact hsrc
        · exact htgt
      · rw [step, heq]
        refine le_trans ?_ (raises_prune a)
        rw [fence_setWatermark, fence_setWatermark]
        split_ifs with hnt hns
        · exact le_refl seq
        · exact le_refl seq
        · exact absurd ha (not_or.mpr ⟨Ne.symm hns, Ne.symm hnt⟩)
  | tombstone | setPeers => exact h.elim

lemma le_fence_of_marks (h : s.Marks a c call) : c ≤ (s.step call).fence a := by
  rcases h with hadm | ⟨select, rfl⟩
  · exact (fence_of_admits hadm).2
  · refine le_trans ?_ (raises_prune a)
    rw [fence_setWatermark, if_pos rfl]
    exact le_max_right _ _

/-! ### Runs of calls -/

/-- An admission that follows `calls` is not below an earlier admission or
tombstone of the same address. -/
def Fenced (s₀ : GossipState) (calls : List FenceCall) : Prop :=
  ∀ e₁ call e₂ last a c c', calls = e₁ ++ call :: e₂ →
    (Run.exec step s₀ e₁).Marks a c' call → (Run.exec step s₀ calls).Admits a c last → c' ≤ c

/-- **Projection fence.**  In a run whose tombstones for addresses without a
watermark are not below `ownership_pruned_through`, an admission at `c` passes
only if no earlier call admitted or tombstoned its address above `c`.  A refused
migration changes nothing, in any run. -/
theorem projection_fence_holds (s₀ : GossipState) (calls : List FenceCall)
    (hmeets : Run.Meets step TombstoneAboveFloor s₀ calls) : Fenced s₀ calls ∧
      ∀ select source target seq,
        ((Run.exec step s₀ calls).admitOwnershipMigrationProjection select source target seq).2
          = false →
        ((Run.exec step s₀ calls).admitOwnershipMigrationProjection select source target seq).1
          = Run.exec step s₀ calls := by
  refine ⟨fun e₁ call e₂ last a c c' hcalls hmark hadm => ?_,
    fun select source target seq href => ?_⟩
  · -- the fence is not below the mark right after its call, and it only rises
    subst hcalls
    have hrest := (meets_append.mp hmeets).2.2
    have hraises := exec_mono Raises.refl (fun _ _ _ h h' => h.trans h')
      (fun _ _ => raises_step) hrest
    rw [exec_append, exec_cons] at hadm
    calc c' ≤ ((exec step s₀ e₁).step call).fence a := le_fence_of_marks hmark
      _ ≤ (exec step ((exec step s₀ e₁).step call) e₂).fence a := hraises a
      _ ≤ c := (fence_of_admits hadm).1
  · rcases migration_cases (exec step s₀ calls) select source target seq with
      heq | ⟨-, -, heq⟩
    · rw [heq]
    · rw [heq] at href
      simp at href

/-- The address of the runs below. -/
def churned : SocketAddr := .v4 0x0a000001#32 9000#16

/-- An admission above a tombstone is admitted and the run is fenced. -/
theorem projection_fence_holds_above_tombstone :
    let calls := [FenceCall.tombstone .sorted churned 5]
    Run.Meets step TombstoneAboveFloor start calls ∧
      (Run.exec step start calls).Admits churned 7 (.admission .sorted churned 7) ∧
      Fenced start calls :=
  have hmeets : Meets step TombstoneAboveFloor start
      [FenceCall.tombstone .sorted churned 5] := ⟨fun _ => by decide, trivial⟩
  ⟨hmeets, ⟨rfl, rfl, by decide⟩, (projection_fence_holds start _ hmeets).1⟩

/-! ### A forgotten tombstone -/

section Forgotten

variable {s : GossipState} {a overflow : SocketAddr} {c newest : CommitSeq} {select : SelectNth}
  {keepAddrs addrs others : List SocketAddr}

lemma mem_oldestTombstones (hmem : (a, c) ∈ s.tombstones keepAddrs)
    (holdest : ∀ entry ∈ s.tombstones keepAddrs, entry ≠ (a, c) → c < entry.2)
    (hexcess : ownershipWatermarkTarget < s.ownershipCommitSeq.len) :
    (a, c) ∈ s.oldestTombstones select keepAddrs := by
  simp only [oldestTombstones]
  split_ifs with hmany
  · generalize hn : s.ownershipCommitSeq.len - ownershipWatermarkTarget = n at hmany ⊢
    have hpos : 0 < n := hn ▸ Nat.sub_pos_of_lt hexcess
    by_contra hnot
    have hperm := select.perm n (s.tombstones keepAddrs)
    have hdrop : (a, c) ∈ (select.arrange n (s.tombstones keepAddrs)).drop n := by
      have harr := hperm.mem_iff.mpr hmem
      rw [← take_append_drop n (select.arrange n (s.tombstones keepAddrs)), mem_append] at harr
      exact harr.resolve_left hnot
    -- something is selected, and it would have to be as old
    obtain ⟨entry, hentry⟩ := exists_mem_of_length_pos
      (l := (select.arrange n (s.tombstones keepAddrs)).take n) (by
        rw [length_take, hperm.length_eq]
        exact Nat.lt_min.mpr ⟨hpos, Nat.lt_trans hpos hmany⟩)
    have hle : entry.2 ≤ c := select.smallest n _ entry hentry (a, c) hdrop
    have hne : entry ≠ (a, c) := fun heq => hnot (heq ▸ hentry)
    have hlt := holdest entry (hperm.mem_iff.mp (mem_of_mem_take hentry)) hne
    exact absurd hle (Nat.not_le_of_lt hlt)
  · exact hmem

lemma get_foldl_dropWatermark : (l.foldl dropWatermark s).ownershipCommitSeq.get a
    = if a ∈ l.map Prod.fst then none else s.ownershipCommitSeq.get a := by
  induction l generalizing s with
  | nil => rfl
  | cons entry l ih =>
    rw [foldl_cons, ih, get_dropWatermark, map_cons, ← ite_or]
    exact if_congr (by rw [mem_cons, or_comm]) rfl rfl

lemma len_foldl_dropWatermark (h : Recorded s l) :
    (l.foldl dropWatermark s).ownershipCommitSeq.len + l.length = s.ownershipCommitSeq.len := by
  induction l generalizing s with
  | nil => rfl
  | cons entry l ih =>
    have hfst : (s.dropWatermark entry).ownershipCommitSeq.len + 1 = s.ownershipCommitSeq.len :=
      len_remove (h.get entry.1 entry.2 mem_cons_self)
    rw [foldl_cons, length_cons, ← hfst, ← ih h.tail, add_assoc]

lemma length_oldestTombstones : (s.oldestTombstones select keepAddrs).length
    = min (s.ownershipCommitSeq.len - ownershipWatermarkTarget)
        (s.tombstones keepAddrs).length := by
  simp only [oldestTombstones]
  split_ifs with hmany
  · rw [length_take, (select.perm _ _).length_eq]
  · exact (min_eq_right (le_of_not_gt hmany)).symm

section

variable (hover : ownershipWatermarkCapacity < s.ownershipCommitSeq.len)
include hover

lemma len_prune
    (henough : s.ownershipCommitSeq.len - ownershipWatermarkTarget ≤
      (s.tombstones keepAddrs).length) :
    (s.pruneOwnershipWatermarks select keepAddrs).ownershipCommitSeq.len
      = ownershipWatermarkTarget := by
  have hlen := len_foldl_dropWatermark (s.recorded_oldestTombstones select keepAddrs)
  rw [length_oldestTombstones, Nat.min_eq_left henough] at hlen
  rw [pruneOwnershipWatermarks, if_neg (Nat.not_le_of_lt hover)]
  simp only [ownershipWatermarkCapacity, ownershipWatermarkTarget] at hover hlen ⊢
  omega

lemma get_prune_oldest (hmem : (a, c) ∈ s.tombstones keepAddrs)
    (holdest : ∀ entry ∈ s.tombstones keepAddrs, entry ≠ (a, c) → c < entry.2) :
    (s.pruneOwnershipWatermarks select keepAddrs).ownershipCommitSeq.get a = none := by
  have hexcess : ownershipWatermarkTarget < s.ownershipCommitSeq.len :=
    Nat.lt_trans (by decide) hover
  rw [pruneOwnershipWatermarks, if_neg (Nat.not_le_of_lt hover), get_foldl_dropWatermark, if_pos]
  exact mem_map.mpr ⟨_, mem_oldestTombstones hmem holdest hexcess, rfl⟩

end

lemma tombstones_of_no_peers (h : s.peers = ∅) : s.tombstones [] = s.ownershipCommitSeq.toList := by
  rw [tombstones, h]
  exact filter_eq_self.mpr fun _ _ => by simp

lemma tombstone_of_room (hnew : s.ownershipCommitSeq.get addr = none)
    (hroom : s.ownershipCommitSeq.len < ownershipWatermarkCapacity) :
    s.step (.tombstone select addr seq) = s.setWatermark addr seq := by
  have hlen : (s.setWatermark addr seq).ownershipCommitSeq.len ≤ ownershipWatermarkCapacity := by
    rw [setWatermark, len_insert hnew]
    exact hroom
  rw [step, tombstoneOwnershipProjection, hnew, Option.getD_none, zero_max,
    pruneOwnershipWatermarks, if_pos hlen]

lemma tombstone_of_full (select : SelectNth) (hpeers : s.peers = ∅)
    (hfull : s.ownershipCommitSeq.len = ownershipWatermarkCapacity)
    (hnew : s.ownershipCommitSeq.get addr = none) (ha : s.ownershipCommitSeq.get a = some c)
    (holdest : ∀ x w, x ≠ a → s.ownershipCommitSeq.get x = some w → c < w) (hlt : c < seq) :
    (s.step (.tombstone select addr seq)).ownershipCommitSeq.get a = none ∧
      (s.step (.tombstone select addr seq)).ownershipCommitSeq.len = ownershipWatermarkTarget := by
  rw [step, tombstoneOwnershipProjection, hnew, Option.getD_none, zero_max]
  have hget : ∀ x, (s.setWatermark addr seq).ownershipCommitSeq.get x
      = if x = addr then some seq else s.ownershipCommitSeq.get x :=
    get_insert _ addr seq
  have hlen : (s.setWatermark addr seq).ownershipCommitSeq.len = ownershipWatermarkCapacity + 1 :=
    hfull ▸ len_insert hnew seq
  have hall : (s.setWatermark addr seq).tombstones []
      = (s.setWatermark addr seq).ownershipCommitSeq.toList := tombstones_of_no_peers hpeers
  -- one entry too many: the compaction runs
  have hover : ownershipWatermarkCapacity < (s.setWatermark addr seq).ownershipCommitSeq.len :=
    hlen ▸ lt_succ_self _
  refine ⟨get_prune_oldest (c := c) hover ?_ ?_, len_prune hover ?_⟩
  · have hne : a ≠ addr := by
      rintro rfl
      cases ha.symm.trans hnew
    rw [hall, mem_toList, hget, if_neg hne, ha]
  · rintro ⟨x, w⟩ hmem hne
    rw [hall, mem_toList, hget] at hmem
    by_cases hx : x = addr
    · rw [if_pos hx] at hmem
      exact Option.some.inj hmem ▸ hlt
    · rw [if_neg hx] at hmem
      refine holdest x w (fun hxa => hne ?_) hmem
      rw [hxa, ha] at hmem
      rw [hxa, Option.some.inj hmem]
  · rw [hall, length_toList]
    exact sub_le _ _

lemma exec_tombstones (select : SelectNth) (seq : CommitSeq) (hnd : addrs.Nodup)
    (hnew : ∀ addr ∈ addrs, s.ownershipCommitSeq.get addr = none)
    (hroom : s.ownershipCommitSeq.len + addrs.length ≤ ownershipWatermarkCapacity) :
    let t := exec step s (addrs.map fun addr => .tombstone select addr seq)
    t.peers = s.peers ∧ t.ownershipCommitSeq.len = s.ownershipCommitSeq.len + addrs.length ∧
      ∀ x, t.ownershipCommitSeq.get x
        = if x ∈ addrs then some seq else s.ownershipCommitSeq.get x := by
  induction addrs generalizing s with
  | nil => exact ⟨rfl, rfl, fun _ => rfl⟩
  | cons addr addrs ih =>
    rw [nodup_cons] at hnd
    rw [length_cons] at hroom
    have hfst : s.ownershipCommitSeq.get addr = none := hnew addr mem_cons_self
    have hlen : (s.setWatermark addr seq).ownershipCommitSeq.len = s.ownershipCommitSeq.len + 1 :=
      len_insert hfst seq
    have hnew' : ∀ x ∈ addrs, (s.setWatermark addr seq).ownershipCommitSeq.get x = none := by
      intro x hx
      have hne : x ≠ addr := fun heq => hnd.1 (heq ▸ hx)
      rw [setWatermark, get_insert, if_neg hne]
      exact hnew x (mem_cons_of_mem _ hx)
    have hstep : s.step (.tombstone select addr seq) = s.setWatermark addr seq :=
      tombstone_of_room hfst (by omega)
    obtain ⟨hpeers, hlen', hget⟩ := ih hnd.2 hnew' (by omega)
    rw [map_cons, exec_cons, hstep]
    refine ⟨hpeers, by rw [hlen', length_cons]; omega, fun x => ?_⟩
    rw [hget, setWatermark, get_insert, ← ite_or]
    exact if_congr (by rw [mem_cons, or_comm]) rfl rfl

/-- `a` is tombstoned at 100 and forgotten when the other addresses, tombstoned
at 200, overflow the table.  Then a tombstone at 5 arrives late. -/
def lateTombstone (select : SelectNth) (a : SocketAddr) (others : List SocketAddr)
    (overflow : SocketAddr) : List FenceCall :=
  .tombstone select a 100 :: (others.map fun addr => .tombstone select addr 200)
    ++ [.tombstone select overflow 200, .tombstone select a 5]

lemma get_lateTombstone (select : SelectNth) (hnd : others.Nodup) (ha : a ∉ others)
    (hoverflow : overflow ∉ others) (hne : overflow ≠ a)
    (hlen : others.length + 1 = ownershipWatermarkCapacity) :
    (exec step start (lateTombstone select a others overflow)).ownershipCommitSeq.get a
      = some 5 := by
  have hsta : start.step (.tombstone select a 100) = start.setWatermark a 100 :=
    tombstone_of_room rfl (by decide)
  have hget₀ : ∀ x, (start.setWatermark a 100).ownershipCommitSeq.get x
      = if x = a then some 100 else none := get_insert _ a 100
  have hlen₀ : (start.setWatermark a 100).ownershipCommitSeq.len = 1 := rfl
  have hnew : ∀ x ∈ others, (start.setWatermark a 100).ownershipCommitSeq.get x = none := by
    intro x hx
    have hxa : x ≠ a := fun heq => ha (heq ▸ hx)
    rw [hget₀, if_neg hxa]
  obtain ⟨hpeers, hfull, hget⟩ := exec_tombstones select 200 hnd hnew (by omega)
  rw [lateTombstone, exec_append, exec_cons _ start, hsta]
  generalize exec step (start.setWatermark a 100) _ = t at hpeers hfull hget ⊢
  -- the table is full and `a` is its oldest entry
  have holdest : ∀ x w, x ≠ a → t.ownershipCommitSeq.get x = some w → 100 < w := by
    intro x w hxa hx
    rw [hget, hget₀, if_neg hxa] at hx
    split_ifs at hx
    exact Option.some.inj hx ▸ by decide
  have hnone : t.ownershipCommitSeq.get overflow = none := by
    rw [hget, if_neg hoverflow, hget₀, if_neg hne]
  have hsome : t.ownershipCommitSeq.get a = some 100 := by
    rw [hget, if_neg ha, hget₀, if_pos rfl]
  have hlt : (100 : CommitSeq) < 200 := by decide
  have hforgotten := tombstone_of_full select hpeers (by omega) hnone hsome holdest hlt
  -- there is room again, and nothing of `a`
  rw [exec_cons, exec_cons, exec_nil,
    tombstone_of_room hforgotten.1 (hforgotten.2 ▸ by decide), setWatermark, get_insert,
    if_pos rfl]

lemma canAdmit_of_get (h : s.ownershipCommitSeq.get a = some newest) (hle : newest ≤ c) :
    s.ownershipProjectionCanAdmit a c = true := by
  rw [ownershipProjectionCanAdmit, h]
  simp [hle]

lemma admission_of_canAdmit (select : SelectNth) (h : s.ownershipProjectionCanAdmit a c = true) :
    (s.admitOwnershipProjection select a c).2 = true := by
  rw [admitOwnershipProjection, if_neg (by simp [h])]

end Forgotten

/-- 8192 addresses besides `churned`. -/
def otherAddr (i : ℕ) : SocketAddr := .v4 (BitVec.ofNat 32 i) 9001#16

lemma otherAddr_ne_churned (i : ℕ) : otherAddr i ≠ churned := by
  intro h
  rw [otherAddr, churned] at h
  injection h with _ hport
  exact absurd hport (by decide)

lemma otherAddr_inj {i j : ℕ} (hi : i < 8192) (hj : j < 8192) (h : otherAddr i = otherAddr j) :
    i = j := by
  injection h with hip
  have hnat := congrArg BitVec.toNat hip
  rw [BitVec.toNat_ofNat, BitVec.toNat_ofNat] at hnat
  omega

/-- **The fence can open again.**  The tombstone at 100 is forgotten, the late
one at 5 takes its place, and an admission at 50 passes. -/
theorem pruned_tombstone_reopens_fence : ¬ Fenced start
    (lateTombstone .sorted churned ((List.range 8191).map otherAddr) (otherAddr 8191)) := by
  intro hfenced
  have hnd : ((range 8191).map otherAddr).Nodup := by
    refine Nodup.map_on (fun i hi j hj h => ?_) nodup_range
    rw [mem_range] at hi hj
    exact otherAddr_inj (by omega) (by omega) h
  have hchurned : churned ∉ (range 8191).map otherAddr := by
    rw [mem_map]
    rintro ⟨i, -, h⟩
    exact otherAddr_ne_churned i h
  have hlast : otherAddr 8191 ∉ (range 8191).map otherAddr := by
    rw [mem_map]
    rintro ⟨i, hi, h⟩
    rw [mem_range] at hi
    exact absurd (otherAddr_inj (by omega) (by omega) h) (by omega)
  have hget := get_lateTombstone .sorted hnd hchurned hlast
    (otherAddr_ne_churned 8191) (by rw [length_map, length_range]; rfl)
  have hadm := admission_of_canAdmit .sorted (canAdmit_of_get (c := 50) hget (by decide))
  exact absurd (hfenced [] _ _ (.admission .sorted churned 50) churned 50 100 rfl (Or.inr ⟨_, rfl⟩)
      ⟨rfl, rfl, hadm⟩)
    (by decide)

end GossipState

end IcanactRemote
