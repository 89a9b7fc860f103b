/-
Vector clocks.

A clock assigns a counter to finitely many nodes; a node without an entry
counts as zero.  `VectorClock N` keeps its entries sorted by node, as an
ordered map does, so equal contents are equal clocks.  Entries with the value
zero are part of the content (`toVec`, `len`), but not of the causal order.

The causal order `v ≤ w` is pointwise on `get`, and `compare` decides it.  Counters
saturate at `u64Max`.
-/
import Mathlib

/-- The largest 64-bit unsigned number. -/
def u64Max : ℕ := 2 ^ 64 - 1

/-- `saturating_add(1)` on 64-bit counters. -/
def saturatingSucc (c : ℕ) : ℕ := if c < u64Max then c + 1 else c

lemma le_saturatingSucc (c : ℕ) : c ≤ saturatingSucc c := by
  unfold saturatingSucc
  split <;> omega

lemma lt_saturatingSucc {c : ℕ} (h : c < u64Max) : c < saturatingSucc c := by
  rw [saturatingSucc, if_pos h]
  omega

/-- How one clock stands to another. -/
inductive ClockOrdering
  | before
  | after
  | equal
  | concurrent
  deriving DecidableEq

/-- A counter for finitely many nodes, sorted by node. -/
structure VectorClock (N : Type*) [LinearOrder N] where
  entries : List (N × ℕ)
  sorted : entries.Pairwise fun a b => a.1 < b.1
  deriving DecidableEq

namespace VectorClock

open List

variable {N : Type*} [LinearOrder N]

/-! ### Sorted entry lists -/

/-- The counter of `n` in an entry list. -/
def valueAt (n : N) : List (N × ℕ) → ℕ
  | [] => 0
  | (m, c) :: es => if m = n then c else valueAt n es

/-- Apply `f` to the counter of `n`, inserted at its place if it is new. -/
def adjustEntries (n : N) (f : ℕ → ℕ) : List (N × ℕ) → List (N × ℕ)
  | [] => [(n, f 0)]
  | (m, c) :: es =>
    if n < m then (n, f 0) :: (m, c) :: es
    else if n = m then (m, f c) :: es
    else (m, c) :: adjustEntries n f es

variable {es : List (N × ℕ)}

lemma valueAt_eq_zero {n : N} (h : ∀ e ∈ es, n < e.1) : valueAt n es = 0 := by
  induction es with
  | nil => rfl
  | cons e es ih =>
    have hne : e.1 ≠ n := (h e mem_cons_self).ne'
    rw [valueAt, if_neg hne]
    exact ih fun e' he' => h e' (mem_cons_of_mem _ he')

lemma mem_adjustEntries {n : N} {f : ℕ → ℕ} {e : N × ℕ}
    (h : e ∈ adjustEntries n f es) : e.1 = n ∨ e ∈ es := by
  induction es with
  | nil =>
    rw [adjustEntries, mem_singleton] at h
    exact .inl (congrArg Prod.fst h)
  | cons d es ih =>
    rw [adjustEntries] at h
    split_ifs at h with hlt heq
    · rcases mem_cons.mp h with rfl | h
      · exact .inl rfl
      · exact .inr h
    · rcases mem_cons.mp h with rfl | h
      · exact .inl heq.symm
      · exact .inr (mem_cons_of_mem _ h)
    · rcases mem_cons.mp h with rfl | h
      · exact .inr mem_cons_self
      · exact (ih h).imp_right (mem_cons_of_mem _)

section

variable (n : N) (f : ℕ → ℕ) (h : es.Pairwise fun a b => a.1 < b.1)
include n f h

lemma sorted_adjustEntries : (adjustEntries n f es).Pairwise fun a b => a.1 < b.1 := by
  induction es with
  | nil => exact pairwise_singleton _ _
  | cons d es ih =>
    obtain ⟨hd, hes⟩ := pairwise_cons.mp h
    rw [adjustEntries]
    split_ifs with hlt heq
    · refine pairwise_cons.mpr ⟨?_, h⟩
      intro e he
      rcases mem_cons.mp he with rfl | he
      · exact hlt
      · exact hlt.trans (hd e he)
    · exact pairwise_cons.mpr ⟨hd, hes⟩
    · refine pairwise_cons.mpr ⟨?_, ih hes⟩
      intro e he
      rcases mem_adjustEntries he with hen | he
      · rw [hen]
        exact lt_of_le_of_ne (not_lt.mp hlt) (Ne.symm heq)
      · exact hd e he

lemma valueAt_adjustEntries (k : N) :
    valueAt k (adjustEntries n f es) = if k = n then f (valueAt n es) else valueAt k es := by
  induction es with
  | nil => simp [adjustEntries, valueAt, eq_comm]
  | cons d es ih =>
    obtain ⟨hd, hes⟩ := pairwise_cons.mp h
    rw [adjustEntries]
    rcases lt_trichotomy n d.1 with hlt | heq | hgt
    · -- `n` is new: it stands before every entry, so its counter was zero
      have hzero : valueAt n (d :: es) = 0 := by
        refine valueAt_eq_zero fun e he => ?_
        rcases mem_cons.mp he with rfl | he
        · exact hlt
        · exact hlt.trans (hd e he)
      rw [if_pos hlt, valueAt, hzero]
      simp [eq_comm]
    · subst heq
      rw [if_neg (lt_irrefl _), if_pos rfl, valueAt, valueAt, valueAt, if_pos rfl]
      by_cases hk : k = d.1
      · rw [if_pos hk.symm, if_pos hk]
      · rw [if_neg (Ne.symm hk), if_neg hk, if_neg (Ne.symm hk)]
    · rw [if_neg hgt.not_gt, if_neg hgt.ne', valueAt, valueAt, valueAt, ih hes, if_neg hgt.ne]
      by_cases hdk : d.1 = k
      · rw [if_pos hdk, if_pos hdk, if_neg (hdk ▸ hgt.ne)]
      · rw [if_neg hdk, if_neg hdk]

end

lemma valueAt_filter {p : N → Bool} (k : N) :
    valueAt k (es.filter fun e => p e.1) = if p k then valueAt k es else 0 := by
  induction es with
  | nil => simp [valueAt]
  | cons d es ih =>
    by_cases hdk : d.1 = k
    · subst hdk
      by_cases hp : p d.1
      · simp [hp, valueAt]
      · simp [hp, ih]
    · by_cases hp : p d.1 <;> simp [hp, valueAt, hdk, ih]

lemma valueAt_eq_zero_of_not_mem {n : N} (h : n ∉ es.map Prod.fst) : valueAt n es = 0 := by
  induction es with
  | nil => rfl
  | cons d es ih =>
    rw [map_cons, mem_cons, not_or] at h
    rw [valueAt, if_neg (Ne.symm h.1), ih h.2]

lemma valueAt_of_mem (h : es.Pairwise fun a b => a.1 ≠ b.1) {e : N × ℕ} (he : e ∈ es) :
    valueAt e.1 es = e.2 := by
  induction es with
  | nil => exact absurd he not_mem_nil
  | cons d es ih =>
    obtain ⟨hd, hes⟩ := pairwise_cons.mp h
    rcases mem_cons.mp he with rfl | he
    · exact if_pos rfl
    · rw [valueAt, if_neg (hd e he), ih hes he]

lemma mem_of_valueAt_pos {n : N} (h : 0 < valueAt n es) : (n, valueAt n es) ∈ es := by
  induction es with
  | nil => exact absurd h (Nat.lt_irrefl 0)
  | cons d es ih =>
    rw [valueAt] at h ⊢
    split_ifs at h ⊢ with hd
    · rw [← hd]
      exact mem_cons_self
    · exact mem_cons_of_mem _ (ih h)

/-! ### The operations -/

/-- The clock without entries. -/
def empty : VectorClock N := ⟨[], List.Pairwise.nil⟩

/-- The counter of a node. -/
def get (v : VectorClock N) (n : N) : ℕ := valueAt n v.entries

/-- The nodes that have an entry. -/
def nodes (v : VectorClock N) : List N := v.entries.map Prod.fst

/-- The number of entries. -/
def len (v : VectorClock N) : ℕ := v.entries.length

/-- The entries, sorted by node. -/
def toVec (v : VectorClock N) : List (N × ℕ) := v.entries

/-- Apply `f` to one counter. -/
def adjust (v : VectorClock N) (n : N) (f : ℕ → ℕ) : VectorClock N :=
  ⟨adjustEntries n f v.entries, sorted_adjustEntries n f v.sorted⟩

/-- The clock with one entry, at zero. -/
def withNode (n : N) : VectorClock N := empty.adjust n fun _ => 0

/-- The clock with these entries; a later one replaces an earlier one. -/
def fromVec (es : List (N × ℕ)) : VectorClock N :=
  es.foldl (fun v e => v.adjust e.1 fun _ => e.2) empty

def increment (v : VectorClock N) (n : N) : VectorClock N := v.adjust n saturatingSucc

def merge (v w : VectorClock N) : VectorClock N :=
  w.entries.foldl (fun v e => v.adjust e.1 fun c => max c e.2) v

/-- Whether some counter of `v` exceeds that of `w`. -/
def exceeds (v w : VectorClock N) : Bool :=
  (v.nodes ++ w.nodes).any fun n => w.get n < v.get n

def compare (v w : VectorClock N) : ClockOrdering :=
  match v.exceeds w, w.exceeds v with
  | true, false => .after
  | false, true => .before
  | false, false => .equal
  | true, true => .concurrent

/-- Drop the entries of inactive nodes. -/
def gcOldNodes (v : VectorClock N) (active : N → Bool) : VectorClock N :=
  ⟨v.entries.filter fun e => active e.1, v.sorted.sublist List.filter_sublist⟩

/-- Keep the `maxSize` largest counters. -/
def compact (v : VectorClock N) (maxSize : ℕ) : VectorClock N :=
  if v.len ≤ maxSize then v
  else fromVec ((v.entries.insertionSort fun a b => b.2 ≤ a.2).take maxSize)

/-- Compaction prefers `a` to `b`: by the larger counter, then by the lesser node. -/
def Precedes (a b : N × ℕ) : Prop := b.2 < a.2 ∨ a.2 = b.2 ∧ a.1 < b.1

instance : DecidableRel (Precedes (N := N)) := fun _ _ => inferInstanceAs (Decidable (_ ∨ _))

/-- How many entries compaction prefers to that of `n`. -/
def rank (v : VectorClock N) (n : N) : ℕ := (v.entries.filter (Precedes · (n, v.get n))).length

/-! ### Counters after each operation -/

lemma get_adjust {v : VectorClock N} {n : N} {f : ℕ → ℕ} {k : N} :
    (v.adjust n f).get k = if k = n then f (v.get n) else v.get k :=
  valueAt_adjustEntries n f v.sorted k

lemma get_increment (v : VectorClock N) (n k : N) :
    (v.increment n).get k = if k = n then saturatingSucc (v.get n) else v.get k :=
  get_adjust

lemma get_gcOldNodes (v : VectorClock N) (active : N → Bool) (k : N) :
    (v.gcOldNodes active).get k = if active k then v.get k else 0 :=
  valueAt_filter k

lemma get_foldl_max (h : es.Pairwise fun a b => a.1 < b.1) (v : VectorClock N) (k : N) :
    (es.foldl (fun v e => v.adjust e.1 fun c => max c e.2) v).get k =
      max (v.get k) (valueAt k es) := by
  induction es generalizing v with
  | nil => simp [valueAt]
  | cons e es ih =>
    obtain ⟨he, hes⟩ := pairwise_cons.mp h
    rw [foldl_cons, ih hes, get_adjust, valueAt]
    by_cases hk : k = e.1
    · subst hk
      rw [if_pos rfl, if_pos rfl, valueAt_eq_zero he, Nat.max_zero]
    · rw [if_neg hk, if_neg (Ne.symm hk)]

lemma get_merge (v w : VectorClock N) (k : N) : (v.merge w).get k = max (v.get k) (w.get k) :=
  get_foldl_max w.sorted v k

lemma get_foldl_set (h : es.Pairwise fun a b => a.1 ≠ b.1) (v : VectorClock N) (k : N) :
    (es.foldl (fun v e => v.adjust e.1 fun _ => e.2) v).get k =
      if k ∈ es.map Prod.fst then valueAt k es else v.get k := by
  induction es generalizing v with
  | nil => simp
  | cons e es ih =>
    obtain ⟨he, hes⟩ := pairwise_cons.mp h
    rw [foldl_cons, ih hes, get_adjust, valueAt]
    by_cases hk : k = e.1
    · have hnot : e.1 ∉ es.map Prod.fst := by
        intro hmem
        obtain ⟨d, hd, hde⟩ := mem_map.mp hmem
        exact he d hd hde.symm
      simp [hk, hnot]
    · rw [if_neg hk, if_neg (Ne.symm hk), map_cons]
      simp only [mem_cons, hk, false_or]

lemma get_fromVec (h : es.Pairwise fun a b => a.1 ≠ b.1) (k : N) :
    (fromVec es).get k = valueAt k es := by
  rw [fromVec, get_foldl_set h]
  split_ifs with hk
  · rfl
  · exact (valueAt_eq_zero_of_not_mem hk).symm

lemma entries_ne (v : VectorClock N) : v.entries.Pairwise fun a b => a.1 ≠ b.1 :=
  v.sorted.imp LT.lt.ne

lemma Precedes.asymm {a b : N × ℕ} (h : Precedes a b) : ¬ Precedes b a := by
  rintro (hlt | ⟨heq, hlt⟩)
  · exact h.elim hlt.asymm fun h => hlt.ne' h.1.symm
  · exact h.elim (fun h => h.ne heq) fun h => hlt.asymm h.2

lemma precedes_orderedInsert {a : N × ℕ} (ha : ∀ e ∈ es, a.1 < e.1) (h : es.Pairwise Precedes) :
    (es.orderedInsert (fun a b => b.2 ≤ a.2) a).Pairwise Precedes := by
  induction es with
  | nil => exact pairwise_singleton _ _
  | cons b es ih =>
    obtain ⟨hb, hes⟩ := pairwise_cons.mp h
    rw [orderedInsert_cons]
    split_ifs with hle
    · refine pairwise_cons.mpr ⟨fun e he => ?_, h⟩
      have hbe : e.2 ≤ b.2 := by
        rcases mem_cons.mp he with rfl | he
        · exact le_rfl
        · exact (hb e he).elim le_of_lt fun h => h.1.ge
      exact (hbe.trans hle).lt_or_eq.imp_right fun heq => ⟨heq.symm, ha e he⟩
    · refine pairwise_cons.mpr ⟨fun e he => ?_, ih (fun e he => ha e (mem_cons_of_mem _ he)) hes⟩
      rcases (mem_orderedInsert _).mp he with rfl | he
      · exact .inl (not_le.mp hle)
      · exact hb e he

lemma precedes_insertionSort (h : es.Pairwise fun a b => a.1 < b.1) :
    (es.insertionSort fun a b => b.2 ≤ a.2).Pairwise Precedes := by
  induction es with
  | nil => exact .nil
  | cons a es ih =>
    obtain ⟨ha, hes⟩ := pairwise_cons.mp h
    exact precedes_orderedInsert (fun e he => ha e ((mem_insertionSort _).mp he)) (ih hes)

/-- In a list in the order of preference an entry is before a cut if fewer others precede it. -/
lemma mem_take_iff (h : es.Pairwise Precedes) {e : N × ℕ} (he : e ∈ es) (k : ℕ) :
    e ∈ es.take k ↔ (es.filter (Precedes · e)).length < k := by
  obtain ⟨pre, post, rfl⟩ := append_of_mem he
  obtain ⟨-, hpost, hpre⟩ := pairwise_append.mp h
  have hfilter : (pre ++ e :: post).filter (Precedes · e) = pre := by
    have hbefore : pre.filter (Precedes · e) = pre :=
      filter_eq_self.mpr fun d hd => decide_eq_true (hpre d hd e mem_cons_self)
    have hafter : (e :: post).filter (Precedes · e) = [] := by
      refine filter_eq_nil_iff.mpr fun d hd hde => ?_
      have hde := of_decide_eq_true hde
      rcases mem_cons.mp hd with rfl | hd
      · exact hde.asymm hde
      · exact hde.asymm ((pairwise_cons.mp hpost).1 d hd)
    rw [filter_append, hbefore, hafter, append_nil]
  rw [hfilter]
  constructor
  · intro hmem
    by_contra hk
    rw [take_append_of_le_length (not_lt.mp hk)] at hmem
    have hself := hpre e (mem_of_mem_take hmem) e mem_cons_self
    exact hself.asymm hself
  · intro hk
    obtain ⟨j, rfl⟩ := Nat.exists_eq_add_of_lt hk
    rw [Nat.add_assoc, take_length_add_append, take_succ_cons]
    exact mem_append_right _ mem_cons_self

lemma valueAt_sublist {v : VectorClock N} (h : ∀ e ∈ es, e ∈ v.entries)
    (hdist : es.Pairwise fun a b => a.1 ≠ b.1) (n : N) :
    valueAt n es = if (n, v.get n) ∈ es then v.get n else 0 := by
  split_ifs with hmem
  · exact valueAt_of_mem hdist hmem
  · refine valueAt_eq_zero_of_not_mem fun hn => ?_
    obtain ⟨e, he, rfl⟩ := mem_map.mp hn
    have hget : v.get e.1 = e.2 := valueAt_of_mem v.entries_ne (h e he)
    rw [hget] at hmem
    exact hmem he

/-- **Compaction keeps the counters of the first `maxSize` entries in the order of
preference** and drops the others. -/
lemma get_compact (v : VectorClock N) (maxSize : ℕ) (n : N) :
    (v.compact maxSize).get n = if v.rank n < maxSize then v.get n else 0 := by
  set s := v.entries.insertionSort fun a b => b.2 ≤ a.2
  have hperm : s.Perm v.entries := perm_insertionSort _ _
  have hdist : s.Pairwise fun a b => a.1 ≠ b.1 :=
    (hperm.pairwise_iff fun h => Ne.symm h).mpr v.entries_ne
  have hmem (hpos : 0 < v.get n) : (n, v.get n) ∈ s := hperm.mem_iff.mpr (mem_of_valueAt_pos hpos)
  have hkept : (v.compact maxSize).get n =
      if (n, v.get n) ∈ s.take maxSize then v.get n else 0 := by
    rw [compact]
    split_ifs with hlen hin hin
    · rfl
    · rw [take_of_length_le (hperm.length_eq.trans_le hlen)] at hin
      exact Nat.eq_zero_of_not_pos fun hpos => hin (hmem hpos)
    all_goals
      have hsub := hdist.sublist (take_sublist maxSize s)
      rw [get_fromVec hsub, valueAt_sublist (fun e he => hperm.mem_iff.mp (mem_of_mem_take he)) hsub]
      simp [hin]
  rw [hkept]
  rcases Nat.eq_zero_or_pos (v.get n) with hzero | hpos
  · rw [hzero, ite_self, ite_self]
  · have hrank : (s.filter (Precedes · (n, v.get n))).length = v.rank n :=
      (hperm.filter _).length_eq
    rw [← hrank]
    exact if_congr (mem_take_iff (precedes_insertionSort v.sorted) (hmem hpos) maxSize) rfl rfl

lemma get_eq_zero_of_not_mem {v : VectorClock N} {n : N} (h : n ∉ v.nodes) : v.get n = 0 :=
  valueAt_eq_zero_of_not_mem h

/-! ### The causal order -/

/-- Pointwise on the counters. -/
instance : Preorder (VectorClock N) where
  le v w := ∀ n, v.get n ≤ w.get n
  le_refl _ _ := Nat.le_refl _
  le_trans _ _ _ hvw hwx n := (hvw n).trans (hwx n)

variable {v w : VectorClock N}

lemma le_def : v ≤ w ↔ ∀ n, v.get n ≤ w.get n := Iff.rfl

lemma exceeds_eq_true : v.exceeds w = true ↔ ¬ v ≤ w := by
  rw [exceeds, any_eq_true, le_def]
  constructor
  · rintro ⟨n, -, hn⟩ hle
    exact absurd (hle n) (not_le.mpr (of_decide_eq_true hn))
  · intro hle
    obtain ⟨n, hn⟩ := not_forall.mp hle
    have hlt : w.get n < v.get n := not_le.mp hn
    refine ⟨n, mem_append_left _ ?_, decide_eq_true hlt⟩
    by_contra hmem
    rw [get_eq_zero_of_not_mem hmem] at hlt
    exact Nat.not_lt_zero _ hlt

lemma exceeds_eq_false : v.exceeds w = false ↔ v ≤ w := by
  rw [← Bool.not_eq_true, exceeds_eq_true, not_not]

instance : DecidableLE (VectorClock N) := fun _ _ => decidable_of_iff _ exceeds_eq_false

lemma compare_cases (v w : VectorClock N) :
    (v.compare w = .after ∧ w ≤ v ∧ ¬ v ≤ w) ∨ (v.compare w = .before ∧ v ≤ w ∧ ¬ w ≤ v) ∨
      (v.compare w = .equal ∧ v ≤ w ∧ w ≤ v) ∨
      (v.compare w = .concurrent ∧ ¬ v ≤ w ∧ ¬ w ≤ v) := by
  unfold compare
  cases hs : v.exceeds w <;> cases ho : w.exceeds v <;>
    simp_all only [exceeds_eq_true, exceeds_eq_false] <;> simp

lemma compare_eq_after : v.compare w = .after ↔ w < v := by
  rw [lt_iff_le_not_ge]
  rcases compare_cases v w with h | h | h | h <;> simp [h]

lemma compare_eq_before : v.compare w = .before ↔ v < w := by
  rw [lt_iff_le_not_ge]
  rcases compare_cases v w with h | h | h | h <;> simp [h]

lemma compare_eq_equal : v.compare w = .equal ↔ v ≤ w ∧ w ≤ v := by
  rcases compare_cases v w with h | h | h | h <;> simp [h]

lemma compare_eq_concurrent : v.compare w = .concurrent ↔ ¬ v ≤ w ∧ ¬ w ≤ v := by
  rcases compare_cases v w with h | h | h | h <;> simp [h]

lemma le_increment (n : N) : v ≤ v.increment n := by
  intro k
  rw [get_increment]
  split_ifs with hk
  · rw [hk]
    exact le_saturatingSucc _
  · exact Nat.le_refl _

lemma lt_increment {n : N} (h : v.get n < u64Max) : v < v.increment n := by
  refine lt_of_le_not_ge (le_increment n) fun hle => ?_
  have hn := hle n
  rw [get_increment, if_pos rfl] at hn
  exact absurd hn (not_le.mpr (lt_saturatingSucc h))

lemma le_merge_left (v w : VectorClock N) : v ≤ v.merge w := by
  intro k
  rw [get_merge]
  exact le_max_left _ _

lemma le_merge_right (v w : VectorClock N) : w ≤ v.merge w := by
  intro k
  rw [get_merge]
  exact le_max_right _ _

lemma lt_increment_merge (v : VectorClock N) {n : N} (h : w.get n < u64Max) :
    w < (v.merge w).increment n := by
  refine lt_of_le_not_ge ((le_merge_right v w).trans (le_increment n)) fun hle => ?_
  have hn := hle n
  rw [get_increment, if_pos rfl, get_merge] at hn
  -- either `v` is ahead of `w` at `n`, or the increment is below the bound
  rcases le_or_gt (v.get n) (w.get n) with hvw | hvw
  · rw [max_eq_right hvw] at hn
    exact absurd hn (not_le.mpr (lt_saturatingSucc h))
  · rw [max_eq_left hvw.le] at hn
    exact absurd (hvw.trans_le ((le_saturatingSucc _).trans hn)) (lt_irrefl _)

/-- Collection that drops no positive counter leaves the clock where it was. -/
lemma le_gcOldNodes {active : N → Bool} (h : ∀ n, 0 < v.get n → active n = true) :
    v ≤ v.gcOldNodes active := by
  intro k
  rw [get_gcOldNodes]
  by_cases hk : active k = true
  · rw [if_pos hk]
  · have hzero : v.get k = 0 := by
      by_contra hpos
      exact hk (h k (Nat.pos_of_ne_zero hpos))
    rw [hzero]
    exact Nat.zero_le _

end VectorClock
