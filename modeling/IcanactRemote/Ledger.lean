/-
Versioned ownership: a ledger of keys, each held by at most one owner.

A ledger records for every key who holds it and at which version.  One counter
issues the versions: every commit advances it and stamps what it writes, so a
version names one commit and the pair of a holder and a version is a token for
it.

* `WellFormed` — versions are issued ones and no two keys carry the same one;
* `entry_of_old` — a token issued before a batch of commits and still present
  after it was present before it, and no commit of the batch touched its key:
  tokens never come back.
-/
import Mathlib

/-- Holders and versions of keys, and the counter that issues versions. -/
@[ext] structure Ledger (K O : Type*) where
  entry : K → Option (O × ℕ)
  clock : ℕ

namespace Ledger

open Function

variable {K O : Type*} [DecidableEq K]

/-- The commits: give a key to a holder (or renew it), take it away, or move
what is held at one key to another. -/
inductive Op (K O : Type*)
  | grant (k : K) (o : O)
  | vacate (k : K)
  | move (k k' : K)

def empty : Ledger K O := ⟨fun _ => none, 0⟩

def apply (L : Ledger K O) : Op K O → Ledger K O
  | .grant k o => ⟨update L.entry k (some (o, L.clock + 1)), L.clock + 1⟩
  | .vacate k => ⟨update L.entry k none, L.clock + 1⟩
  | .move k k' =>
    ⟨update (update L.entry k none) k'
      ((L.entry k).map fun e => (e.1, L.clock + 1)), L.clock + 1⟩

def applyAll (L : Ledger K O) (ops : List (Op K O)) : Ledger K O := ops.foldl apply L

@[simp] lemma applyAll_nil (L : Ledger K O) : L.applyAll [] = L := rfl

@[simp] lemma applyAll_cons (L : Ledger K O) (op : Op K O) (ops : List (Op K O)) :
    L.applyAll (op :: ops) = (L.apply op).applyAll ops := rfl

lemma applyAll_append (L : Ledger K O) (ops ops' : List (Op K O)) :
    L.applyAll (ops ++ ops') = (L.applyAll ops).applyAll ops' :=
  List.foldl_append

omit [DecidableEq K] in
/-- Whether an operation writes to `k`. -/
def Op.Touches (k : K) : Op K O → Prop
  | .grant k' _ => k = k'
  | .vacate k' => k = k'
  | .move k₁ k₂ => k = k₁ ∨ k = k₂

/-- Every version was issued, and names one key only. -/
structure WellFormed (L : Ledger K O) : Prop where
  issued : ∀ {k e}, L.entry k = some e → e.2 ≤ L.clock
  unique : ∀ {k k' e e'}, L.entry k = some e → L.entry k' = some e' → e.2 = e'.2 → k = k'

/-! ### One commit -/

omit [DecidableEq K] in
lemma wellFormed_empty : (empty : Ledger K O).WellFormed :=
  ⟨fun h => by simp [empty] at h, fun h => by simp [empty] at h⟩

section

variable (L : Ledger K O)
include L

@[simp] lemma clock_apply (op : Op K O) : (L.apply op).clock = L.clock + 1 := by
  cases op <;> rfl

lemma entry_grant (k : K) (o : O) (j : K) :
    (L.apply (.grant k o)).entry j = if j = k then some (o, L.clock + 1) else L.entry j :=
  update_apply L.entry k (some (o, L.clock + 1)) j

lemma entry_vacate (k j : K) : (L.apply (.vacate k)).entry j = if j = k then none else L.entry j :=
  update_apply L.entry k none j

lemma entry_move (k k' j : K) : (L.apply (.move k k')).entry j
    = if j = k' then (L.entry k).map fun e => (e.1, L.clock + 1)
      else if j = k then none else L.entry j := by
  show update (update L.entry k none) k' _ j = _
  rw [update_apply, update_apply]

end

variable {L : Ledger K O}

variable {op : Op K O} {e e' : O × ℕ} {k k' : K}

lemma entry_apply_of_not_touches (h : ¬ op.Touches k) : (L.apply op).entry k = L.entry k := by
  cases op with
  | grant =>
    rw [Op.Touches] at h
    rw [entry_grant, if_neg h]
  | vacate =>
    rw [Op.Touches] at h
    rw [entry_vacate, if_neg h]
  | move =>
    obtain ⟨h1, h2⟩ := not_or.mp h
    rw [entry_move, if_neg h2, if_neg h1]

lemma version_of_touches (h : op.Touches k) (he : (L.apply op).entry k = some e) :
    e.2 = L.clock + 1 := by
  cases op with
  | grant =>
    rw [Op.Touches] at h
    rw [entry_grant, if_pos h, Option.some_inj] at he
    rw [← he]
  | vacate =>
    rw [Op.Touches] at h
    rw [entry_vacate, if_pos h] at he
    simp at he
  | move _ k₂ =>
    rw [entry_move] at he
    by_cases h2 : k = k₂
    · rw [if_pos h2, Option.map_eq_some_iff] at he
      obtain ⟨_, _, rfl⟩ := he
      rfl
    · rw [if_neg h2, if_pos (h.resolve_right h2)] at he
      simp at he

lemma eq_of_stamped (hk : op.Touches k) (hk' : op.Touches k')
    (he : (L.apply op).entry k = some e) (he' : (L.apply op).entry k' = some e') : k = k' := by
  cases op with
  | grant k₀ | vacate k₀ => exact Eq.trans (b := k₀) hk (Eq.symm hk')
  | move k₁ k₂ =>
    -- what is not the target of the move is empty after it
    have key : ∀ {j : K} {f : O × ℕ}, (Op.move (O := O) k₁ k₂).Touches j →
        (L.apply (.move k₁ k₂)).entry j = some f → j = k₂ := by
      intro j f hj hf
      by_contra h2
      rw [entry_move, if_neg h2, if_pos (hj.resolve_right h2)] at hf
      simp at hf
    rw [key hk he, key hk' he']

lemma WellFormed.apply (h : L.WellFormed) (op : Op K O) : (L.apply op).WellFormed := by
  constructor
  · intro k e he
    rw [clock_apply]
    by_cases ht : op.Touches k
    · exact le_of_eq (version_of_touches ht he)
    · rw [entry_apply_of_not_touches ht] at he
      exact Nat.le_succ_of_le (h.issued he)
  · intro k k' e e' he he' hv
    by_cases ht : op.Touches k <;> by_cases ht' : op.Touches k'
    · exact eq_of_stamped ht ht' he he'
    · -- an old version is below the stamp
      rw [entry_apply_of_not_touches ht'] at he'
      have h1 := version_of_touches ht he
      have h2 := h.issued he'
      omega
    · rw [entry_apply_of_not_touches ht] at he
      have h1 := version_of_touches ht' he'
      have h2 := h.issued he
      omega
    · rw [entry_apply_of_not_touches ht] at he
      rw [entry_apply_of_not_touches ht'] at he'
      exact h.unique he he' hv

/-! ### Batches of commits -/

lemma clock_le_applyAll (L : Ledger K O) (ops : List (Op K O)) :
    L.clock ≤ (L.applyAll ops).clock := by
  induction ops generalizing L with
  | nil => exact le_rfl
  | cons op _ ih =>
    have h1 := ih (L.apply op)
    rw [clock_apply] at h1
    exact le_trans (Nat.le_succ L.clock) h1

lemma WellFormed.applyAll (h : L.WellFormed) (ops : List (Op K O)) :
    (L.applyAll ops).WellFormed := by
  induction ops generalizing L with
  | nil => exact h
  | cons op _ ih => exact ih (h.apply op)

/-- **Old tokens were never gone.**  If a key carries after a batch a version
issued before it, it carried the same entry before the batch and nothing in
the batch touched it. -/
theorem entry_of_old {ops : List (Op K O)} (he : (L.applyAll ops).entry k = some e)
    (hold : e.2 ≤ L.clock) : L.entry k = some e ∧ ∀ op ∈ ops, ¬ op.Touches k := by
  induction ops generalizing L with
  | nil => exact ⟨he, by simp⟩
  | cons op _ ih =>
    obtain ⟨h1, h2⟩ := ih he (by rw [clock_apply]; exact Nat.le_succ_of_le hold)
    have ht : ¬ op.Touches k := by
      intro ht
      have := version_of_touches ht h1
      omega
    rw [entry_apply_of_not_touches ht] at h1
    refine ⟨h1, ?_⟩
    intro op' hop'
    rcases List.mem_cons.mp hop' with rfl | hmem
    · exact ht
    · exact h2 op' hmem

end Ledger
