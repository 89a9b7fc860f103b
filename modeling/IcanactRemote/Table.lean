/-
Finite tables with unordered keys.

`Table K V` is the content of a hash map: at most one value per key, read by
`get`.  It is Mathlib's `AList` with the operations a mutable map has besides
`insert` and `erase`:

* `retain` — keep the entries that satisfy a predicate;
* `iterMut` — rewrite every value in place;
* `upsertMax` — insert a value, or raise the present one to it.

Every operation has one lemma that says what `get` reads after it.  The order
of `AList.entries` is an artefact of the representation; nothing below `get`
depends on it.
-/
import Mathlib

/-- A finite map from `K` to `V`. -/
def Table (K V : Type*) := AList fun _ : K => V

namespace Table

open List

open AList

variable {K V W : Type*}

/-- The table without entries. -/
def empty : Table K V := (∅ : AList fun _ : K => V)

/-- The keys that have an entry, each once. -/
def keys (m : Table K V) : List K := AList.keys m

/-- The number of entries. -/
def len (m : Table K V) : ℕ := m.keys.length

/-- The entries as pairs. -/
def toList (m : Table K V) : List (K × V) := m.entries.map fun e => (e.1, e.2)

/-- The sum of `w` over all values. -/
def total (m : Table K V) (w : V → ℕ) : ℕ := (m.toList.map fun e => w e.2).sum

variable (p : K → V → Bool) (f : K → V → W) (m : Table K V)

lemma nodupKeys_retain : (m.entries.filter fun e => p e.1 e.2).NodupKeys :=
  NodupKeys.sublist filter_sublist m.nodupKeys

/-- Keep the entries that satisfy `p`. -/
def retain (p : K → V → Bool) (m : Table K V) : Table K V :=
  ⟨m.entries.filter fun e => p e.1 e.2, nodupKeys_retain p m⟩

lemma nodupKeys_iterMut : (m.entries.map fun e => (⟨e.1, f e.1 e.2⟩ : Σ _ : K, W)).NodupKeys :=
  NodupKeys.map₂ f m.entries m.nodupKeys

/-- Rewrite every value. -/
def iterMut (f : K → V → W) (m : Table K V) : Table K W :=
  ⟨m.entries.map fun e => ⟨e.1, f e.1 e.2⟩, nodupKeys_iterMut f m⟩

lemma keys_toList : m.toList.map Prod.fst = m.keys := map_map ..

lemma nodup_keys : m.keys.Nodup := keys_nodup m

lemma length_toList : m.toList.length = m.len := by
  rw [len, ← keys_toList, length_map]

lemma len_iterMut : (m.iterMut f).len = m.len := by
  rw [← length_toList, ← length_toList, toList, toList, length_map, length_map]
  exact length_map ..

variable {w : V → ℕ}

lemma total_retain_le : (m.retain p).total w ≤ m.total w :=
  (((filter_sublist (l := m.entries)).map _).map _).sum_le_sum fun _ _ => Nat.zero_le _

lemma len_retain_le : (m.retain p).len ≤ m.len := by
  rw [← length_toList, ← length_toList]
  exact ((filter_sublist (l := m.entries)).map _).length_le

variable [DecidableEq K]

/-- The value stored at `k`. -/
def get (m : Table K V) (k : K) : Option V := AList.lookup k m

/-- Whether `k` has an entry. -/
def containsKey (m : Table K V) (k : K) : Bool := (m.get k).isSome

/-- Store `v` at `k`, replacing what was there. -/
def insert (m : Table K V) (k : K) (v : V) : Table K V := AList.insert k v m

/-- Drop the entry at `k`, if any. -/
def remove (m : Table K V) (k : K) : Table K V := AList.erase k m

/-- The table with these entries; a later one replaces an earlier one. -/
def ofPairs (es : List (K × V)) : Table K V := es.foldl (fun m e => m.insert e.1 e.2) empty

/-- Rewrite the value at `k`, if there is one. -/
def modify (m : Table K V) (k : K) (f : V → V) : Table K V :=
  m.iterMut fun k' v => if k' = k then f v else v

/-- The larger of the present value and `v`. -/
def raised [LT V] [DecidableRel (α := V) (· < ·)] (present : Option V) (v : V) : V :=
  match present with
  | some u => if u < v then v else u
  | none => v

/-- Store `v` at `k`, unless a larger value is already there. -/
def upsertMax [LT V] [DecidableRel (α := V) (· < ·)] (m : Table K V) (k : K) (v : V) :
    Table K V :=
  m.insert k (raised (m.get k) v)

/-! ### What `get` reads after each operation -/

variable (k : K) (v : V)

@[simp] lemma get_empty : (empty : Table K V).get k = none := rfl

lemma get_insert (k' : K) : (m.insert k v).get k' = if k' = k then some v else m.get k' := by
  by_cases h : k' = k
  · subst h
    rw [if_pos rfl]
    exact lookup_insert m
  · rw [if_neg h]
    exact lookup_insert_ne h

lemma get_remove (k' : K) : (m.remove k).get k' = if k' = k then none else m.get k' := by
  by_cases h : k' = k
  · subst h
    rw [if_pos rfl]
    exact lookup_erase k' m
  · rw [if_neg h]
    exact lookup_erase_ne h

lemma get_insert_eq_update : (m.insert k v).get = Function.update m.get k (some v) := by
  funext k'
  rw [get_insert, Function.update_apply]

lemma get_remove_eq_update : (m.remove k).get = Function.update m.get k none := by
  funext k'
  rw [get_remove, Function.update_apply]

lemma containsKey_insert (k' : K) :
    (m.insert k v).containsKey k' = (decide (k' = k) || m.containsKey k') := by
  rw [containsKey, get_insert]
  by_cases h : k' = k
  · simp [h]
  · simp [h, containsKey]

lemma containsKey_remove (k' : K) :
    (m.remove k).containsKey k' = (!decide (k' = k) && m.containsKey k') := by
  rw [containsKey, get_remove]
  by_cases h : k' = k
  · simp [h]
  · simp [h, containsKey]

lemma get_upsertMax [LT V] [DecidableRel (α := V) (· < ·)] (k' : K) :
    (m.upsertMax k v).get k' = if k' = k then some (raised (m.get k) v) else m.get k' :=
  get_insert m k _ k'

variable {m} {k} {v} (es : List (K × V)) {f g : V → V}

lemma remove_of_get_none (h : m.get k = none) : m.remove k = m := by
  refine ext (kerase_of_notMem_keys fun hmem => ?_)
  have hsome : (lookup k m).isSome = true := lookup_isSome.mpr hmem
  rw [Option.isSome_iff_exists] at hsome
  obtain ⟨v, hv⟩ := hsome
  cases h.symm.trans hv

lemma get_eq_some_iff : m.get k = some v ↔ (⟨k, v⟩ : Σ _ : K, V) ∈ m.entries := mem_lookup_iff

lemma get_retain (m : Table K V) (k : K) : (m.retain p).get k = (m.get k).filter (p k) := by
  apply Option.ext
  intro v
  rw [Option.filter_eq_some_iff, get_eq_some_iff, get_eq_some_iff]
  exact mem_filter

lemma get_retain_not (q : K → Prop) [DecidablePred q] (m : Table K V) (k : K) :
    (m.retain fun k _ => !decide (q k)).get k = if q k then none else m.get k := by
  rw [get_retain]
  by_cases hq : q k
  · rw [if_pos hq]
    simp [hq]
  · rw [if_neg hq]
    cases m.get k <;> simp [hq]

lemma get_iterMut (f : K → V → W) (m : Table K V) (k : K) :
    (m.iterMut f).get k = (m.get k).map (f k) :=
  dlookup_map₂ k

lemma containsKey_eq_true : m.containsKey k = true ↔ ∃ v, m.get k = some v := by
  rw [containsKey, Option.isSome_iff_exists]

lemma containsKey_eq_false : m.containsKey k = false ↔ m.get k = none := by
  rw [containsKey, Option.isSome_eq_false_iff, Option.isNone_iff_eq_none]

lemma mem_keys : k ∈ m.keys ↔ ∃ v, m.get k = some v := by
  rw [← Option.isSome_iff_exists]
  exact (lookup_isSome (s := m)).symm

lemma mem_toList : (k, v) ∈ m.toList ↔ m.get k = some v := by
  rw [get_eq_some_iff, toList, mem_map]
  constructor
  · rintro ⟨⟨k', v'⟩, he, heq⟩
    obtain ⟨rfl, rfl⟩ := Prod.mk.inj heq
    exact he
  · intro he
    exact ⟨⟨k, v⟩, he, rfl⟩

lemma get_foldl_insert (m : Table K V) (k : K) : (es.foldl (fun m e => m.insert e.1 e.2) m).get k =
    ((es.filter fun e => e.1 = k).getLast?.map Prod.snd).or (m.get k) := by
  induction es generalizing m with
  | nil => rfl
  | cons e es ih =>
    rw [foldl_cons, ih, get_insert]
    by_cases hk : e.1 = k
    · rw [filter_cons_of_pos (by simpa using hk), if_pos hk.symm, getLast?_cons]
      cases (es.filter fun e => e.1 = k).getLast? <;> rfl
    · rw [filter_cons_of_neg (by simpa using hk), if_neg (Ne.symm hk)]

lemma get_ofPairs (k : K) :
    (ofPairs es).get k = (es.filter fun e => e.1 = k).getLast?.map Prod.snd := by
  rw [ofPairs, get_foldl_insert, get_empty, Option.or_none]

lemma filter_toList (m : Table K V) (k : K) :
    m.toList.filter (fun e => e.1 = k) = ((m.get k).map fun v => (k, v)).toList := by
  have hnd : m.toList.Nodup := by
    apply Nodup.of_map Prod.fst
    rw [keys_toList]
    exact m.nodup_keys
  cases hget : m.get k with
  | none =>
    refine filter_eq_nil_iff.mpr ?_
    rintro ⟨k', v⟩ hmem heq
    obtain rfl : k' = k := by simpa using heq
    rw [mem_toList, hget] at hmem
    simp at hmem
  | some =>
    refine perm_singleton.mp ?_
    rw [perm_ext_iff_of_nodup (hnd.filter _) (nodup_singleton _)]
    rintro ⟨k', v'⟩
    rw [mem_filter, mem_toList, mem_singleton, Prod.mk.injEq, decide_eq_true_eq]
    constructor
    · rintro ⟨hmem, rfl⟩
      rw [hget] at hmem
      exact ⟨rfl, (Option.some.inj hmem).symm⟩
    · rintro ⟨rfl, rfl⟩
      exact ⟨hget, rfl⟩

lemma len_insert (h : m.get k = none) (v : V) : (m.insert k v).len = m.len + 1 := by
  have hmem : k ∉ m.keys := by
    rw [mem_keys]
    rintro ⟨v', hv'⟩
    cases hv'.symm.trans h
  have hkeys : (m.insert k v).keys = k :: m.keys.erase k := keys_insert m
  rw [len, hkeys, erase_of_not_mem hmem]
  rfl

lemma len_remove (h : m.get k = some v) : (m.remove k).len + 1 = m.len := by
  have hmem : k ∈ m.keys := mem_keys.mpr ⟨v, h⟩
  have hkeys : (m.remove k).keys = m.keys.erase k := keys_erase k m
  rw [len, len, hkeys, length_erase_of_mem hmem]
  exact Nat.sub_add_cancel (length_pos_of_mem hmem)

lemma length_le_len {ks : List K} (hnd : ks.Nodup)
    (hget : ∀ k ∈ ks, ∃ v, m.get k = some v) : ks.length ≤ m.len :=
  (subperm_of_subset hnd fun k hk => mem_keys.mpr (hget k hk)).length_le

lemma containsKey_of_len_zero (h : m.len = 0) (k : K) : m.containsKey k = false := by
  rw [containsKey_eq_false]
  by_contra hsome
  have hmem : k ∈ m.keys := mem_keys.mpr (Option.ne_none_iff_exists'.mp hsome)
  have hpos : 0 < m.len := length_pos_of_mem hmem
  omega

lemma eq_empty (h : ∀ k, m.get k = none) : m = empty := by
  refine ext (eq_nil_iff_forall_not_mem.mpr ?_)
  intro e he
  have hmem : e.1 ∈ m.keys := mem_map_of_mem he
  obtain ⟨v, hget⟩ := mem_keys.mp hmem
  rw [h] at hget
  cases hget

/-- Looking up several keys keeps those that are present, in order. -/
lemma map_fst_filterMap_get (m : Table K V) (ks : List K) :
    (ks.filterMap fun k => (m.get k).map fun v => (k, v)).map Prod.fst =
      ks.filter m.containsKey := by
  induction ks with
  | nil => rfl
  | cons k ks ih =>
    cases hget : m.get k with
    | none =>
      rw [filterMap_cons_none (by rw [hget]; rfl),
        filter_cons_of_neg (by rw [containsKey, hget]; simp), ih]
    | some =>
      rw [filterMap_cons_some (by rw [hget]; rfl), map_cons, ih,
        filter_cons_of_pos (by rw [containsKey, hget]; rfl)]

/-! ### Updates in place -/

lemma get_modify (m : Table K V) (k : K) (f : V → V) (k' : K) :
    (m.modify k f).get k' = if k' = k then (m.get k).map f else m.get k' := by
  rw [modify, get_iterMut]
  split
  next h =>
    rw [h]
  · exact Option.map_id' ..

lemma len_modify : (m.modify k f).len = m.len :=
  len_iterMut ..

lemma modify_modify : (m.modify k f).modify k g = m.modify k (g ∘ f) := by
  apply ext
  show map _ (map _ m.entries) = map _ m.entries
  rw [map_map]
  refine map_congr_left fun e _ => ?_
  show (⟨e.1, if e.1 = k then g (if e.1 = k then f e.2 else e.2) else
    if e.1 = k then f e.2 else e.2⟩ : Σ _ : K, V) = ⟨e.1, if e.1 = k then g (f e.2) else e.2⟩
  split <;> rfl

lemma get_of_mem_entries {e : Σ _ : K, V} (he : e ∈ m.entries) : m.get e.1 = some e.2 := by
  rw [← mem_toList]
  exact mem_map_of_mem (f := fun e : Σ _ : K, V => (e.1, e.2)) he

lemma modify_congr (h : ∀ v, m.get k = some v → f v = g v) : m.modify k f = m.modify k g := by
  apply ext
  refine map_congr_left fun e he => ?_
  show (⟨e.1, if e.1 = k then f e.2 else e.2⟩ : Σ _ : K, V) = ⟨e.1, if e.1 = k then g e.2 else e.2⟩
  split
  next heq =>
    rw [h e.2 (heq ▸ get_of_mem_entries he)]
  · rfl

lemma modify_eq_self (h : ∀ v, m.get k = some v → f v = v) : m.modify k f = m := by
  apply ext
  refine (map_congr_left ?_).trans (map_id _)
  intro e he
  show (⟨e.1, if e.1 = k then f e.2 else e.2⟩ : Σ _ : K, V) = e
  split
  next heq =>
    rw [h e.2 (heq ▸ get_of_mem_entries he)]
  · rfl

lemma modify_insert : (m.insert k v).modify k f = m.insert k (f v) := by
  have hrest : ∀ e ∈ m.entries.kerase k, e.1 ≠ k := by
    rintro e he rfl
    exact notMem_keys_kerase e.1 m.nodupKeys (mem_map_of_mem he)
  apply ext
  show ((m.insert k v).entries.map fun e => (⟨e.1, if e.1 = k then f e.2 else e.2⟩ : Σ _ : K, V)) =
    (m.insert k (f v)).entries
  rw [show (m.insert k v).entries = _ from entries_insert,
    show (m.insert k (f v)).entries = _ from entries_insert, map_cons, if_pos rfl]
  refine congrArg _ ((map_congr_left ?_).trans (map_id _))
  intro e he
  rw [if_neg (hrest e he)]
  rfl

lemma kerase_map {l : List (Σ _ : K, V)} (f : K → V → W) :
    (l.map fun e => (⟨e.1, f e.1 e.2⟩ : Σ _ : K, W)).kerase k =
      (l.kerase k).map fun e => ⟨e.1, f e.1 e.2⟩ := by
  induction l with
  | nil => rfl
  | cons e l ih =>
    by_cases h : k = e.1
    · rw [kerase_cons_eq h]
      exact kerase_cons_eq h
    · rw [kerase_cons_ne h, map_cons, map_cons, ← ih]
      exact kerase_cons_ne (s := (⟨e.1, f e.1 e.2⟩ : Σ _ : K, W)) h

lemma iterMut_remove (f : K → V → W) (m : Table K V) (k : K) :
    (m.remove k).iterMut f = (m.iterMut f).remove k :=
  ext (kerase_map f).symm

lemma iterMut_insert (f : K → V → W) (m : Table K V) (k : K) (v : V) :
    (m.insert k v).iterMut f = (m.iterMut f).insert k (f k v) := by
  apply ext
  show ((m.insert k v).entries.map fun e => (⟨e.1, f e.1 e.2⟩ : Σ _ : K, W)) =
    ((m.iterMut f).insert k (f k v)).entries
  rw [show (m.insert k v).entries = _ from entries_insert,
    show ((m.iterMut f).insert k (f k v)).entries = _ from entries_insert, map_cons]
  exact congrArg _ (kerase_map f).symm

lemma iterMut_modify {f : K → V → W} {g' : W → W}
    (h : ∀ v, m.get k = some v → f k (g v) = g' (f k v)) :
    (m.modify k g).iterMut f = (m.iterMut f).modify k g' := by
  apply ext
  show map _ (map _ m.entries) = map _ (map _ m.entries)
  rw [map_map, map_map]
  refine map_congr_left fun e he => ?_
  show (⟨e.1, f e.1 (if e.1 = k then g e.2 else e.2)⟩ : Σ _ : K, W) =
    ⟨e.1, if e.1 = k then g' (f e.1 e.2) else f e.1 e.2⟩
  split
  next heq =>
    rw [heq, h e.2 (heq ▸ get_of_mem_entries he)]
  · rfl

lemma remove_modify : (m.modify k f).remove k = m.remove k := by
  apply ext
  show (m.entries.map fun e => (⟨e.1, if e.1 = k then f e.2 else e.2⟩ : Σ _ : K, V)).kerase k =
    m.entries.kerase k
  rw [kerase_map fun k' v => if k' = k then f v else v]
  refine (map_congr_left ?_).trans (map_id _)
  intro e he
  have hne : e.1 ≠ k := by
    rintro rfl
    exact notMem_keys_kerase e.1 m.nodupKeys (mem_map_of_mem he)
  rw [if_neg hne]
  rfl

/-! ### Totals -/

lemma total_insert (h : m.get k = none) (v : V) : (m.insert k v).total w = w v + m.total w := by
  have hmem : k ∉ keys m := by
    intro hk
    obtain ⟨v', hv'⟩ := mem_keys.mp hk
    rw [h] at hv'
    cases hv'
  have hent : (m.insert k v).entries = ⟨k, v⟩ :: m.entries.kerase k := entries_insert
  rw [kerase_of_notMem_keys hmem] at hent
  rw [total, total, toList, toList, hent, map_cons, map_cons, sum_cons]

lemma total_remove (h : m.get k = some v) : m.total w = w v + (m.remove k).total w := by
  have hmem : k ∈ m.entries.keys := mem_keys.mpr ⟨v, h⟩
  obtain ⟨v', l₁, l₂, hnot, hent, herase⟩ := exists_of_kerase hmem
  have hrem : (m.remove k).entries = l₁ ++ l₂ := herase
  have hv : v' = v := by
    have hv' : m.get k = some v' := by
      rw [← mem_toList, toList, hent]
      simp
    rw [h] at hv'
    exact (Option.some.inj hv').symm
  rw [total, total, toList, toList, hrem, hent, hv]
  simp only [map_append, map_cons, sum_append, sum_cons]
  omega

variable (m)

lemma total_insert_eq (k : K) (v : V) : (m.insert k v).total w = w v + (m.remove k).total w := by
  have hent : (m.insert k v).entries = ⟨k, v⟩ :: m.entries.kerase k := entries_insert
  rw [total, total, toList, toList, hent, map_cons, map_cons, sum_cons]
  rfl

lemma total_remove_le (k : K) : (m.remove k).total w ≤ m.total w := by
  cases h : m.get k with
  | none => rw [remove_of_get_none h]
  | some =>
    rw [total_remove h]
    omega

lemma total_insert_le (k : K) (v : V) : (m.insert k v).total w ≤ w v + m.total w := by
  rw [total_insert_eq]
  exact Nat.add_le_add_left (total_remove_le m k) (w v)

variable {m}

lemma total_iterMut {f : K → V → V}
    (h : ∀ k v, m.get k = some v → w (f k v) = w v) : (m.iterMut f).total w = m.total w := by
  have hlist : (m.iterMut f).toList = m.toList.map fun e => (e.1, f e.1 e.2) := by
    rw [toList, toList, map_map]
    exact map_map ..
  rw [total, total, hlist, map_map]
  refine congrArg sum (map_congr_left ?_)
  intro e he
  exact h e.1 e.2 (mem_toList.mp he)

lemma total_modify (h : ∀ v, m.get k = some v → w (f v) = w v) :
    (m.modify k f).total w = m.total w := by
  refine total_iterMut fun k' v hget => ?_
  split
  next heq =>
    exact h v (heq ▸ hget)
  · rfl

end Table
