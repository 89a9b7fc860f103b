/-
Rosters: parties in a list that grows at its end, each known by its place.

A step of one party replaces the entry at its place; a new party is appended.

* `getElem?_set`, `getElem?_concat` — what a place holds afterwards;
* `countP_set`, `countP_concat` — how many parties satisfy a predicate afterwards;
* `of_update` — what a party has after a step, where they are known by other keys.
-/
import Mathlib

namespace Roster

open List

variable {α : Type*} {l : List α} {a b c : α} {j k : ℕ} {p : α → Bool}

lemma getElem?_set (hk : l[k]? = some a) (b : α) (j : ℕ) :
    (l.set k b)[j]? = if j = k then some b else l[j]? := by
  have hlt : k < l.length := (List.getElem?_eq_some_iff.mp hk).1
  by_cases hj : j = k
  · rw [if_pos hj, hj, getElem?_set_self hlt]
  · rw [if_neg hj, getElem?_set_ne (Ne.symm hj)]

lemma getElem?_concat (h : l[j]? = some c) (b : α) : (l ++ [b])[j]? = some c := by
  have hlt : j < l.length := (List.getElem?_eq_some_iff.mp h).1
  rw [getElem?_append_left hlt]
  exact h

lemma countP_concat : (l ++ [b]).countP p = l.countP p + if p b then 1 else 0 := by
  rw [countP_append, countP_singleton]

lemma countP_set (p : α → Bool) (hk : l[k]? = some a) (b : α) :
    (l.set k b).countP p + (if p a then 1 else 0) = l.countP p + if p b then 1 else 0 := by
  induction l generalizing k with
  | nil => cases hk
  | cons x l ih =>
    cases k with
    | zero =>
      obtain rfl : x = a := Option.some.inj hk
      rw [set_cons_zero, countP_cons, countP_cons]
      omega
    | succ =>
      have hrest := ih hk
      rw [set_cons_succ, countP_cons, countP_cons]
      omega

lemma countP_pos (hk : l[k]? = some a) (ha : p a = true) : 0 < l.countP p :=
  countP_pos_iff.mpr ⟨a, mem_of_getElem? hk, ha⟩

lemma of_update {K : Type*} [DecidableEq K] {f : K → Option α} {i k : K} {v : Option α}
    (h : Function.update f k v i = some a) : i = k ∧ v = some a ∨ i ≠ k ∧ f i = some a := by
  by_cases hi : i = k
  · rw [hi, Function.update_self] at h
    exact .inl ⟨hi, h⟩
  · rw [Function.update_of_ne hi] at h
    exact .inr ⟨hi, h⟩

end Roster
