/-
Champions: keeping the winner of a series of challenges.

A single place is held by a value, and each challenger takes it when it beats
the holder.  `beats` need not be transitive, so the final holder may depend on
the order of the challengers.  It does not exactly when one of the values beats
every other one that can ever hold the place:

* `Reaches` — `y` can come to hold the place after `x`;
* `foldl_challenge_perm_iff` — the outcome is the same for every order if and
  only if some `w` beats everything else that is reached;
* `Unbeaten.challenge` — what is kept is unbeaten, if `beats` is transitive.
-/
import Mathlib

namespace Champion

open List

variable {α β : Type*} (beats : α → α → Bool)

/-- The holder after a challenge. -/
def challenge (holder challenger : α) : α := if beats challenger holder then challenger else holder

/-- `y` can come to hold the place after `x`, with challengers from `us`. -/
def Reaches (us : List α) : α → α → Prop :=
  Relation.ReflTransGen fun x y => y ∈ us ∧ beats y x = true

/-- `w` beats every other value that can come to hold the place after `x`. -/
def Dominates (us : List α) (x w : α) : Prop :=
  ∀ y, Reaches beats us x y → y = w ∨ beats w y = true

/-- One of the values, and none of them beats it. -/
def Unbeaten (us : List α) (x : α) : Prop := x ∈ us ∧ ∀ u ∈ us, beats u x = false

variable {beats} {us l m : List α} {x y w u z : α}

lemma challenge_of_beats (h : beats u x = true) : challenge beats x u = u := if_pos h

lemma challenge_of_not_beats (h : ¬ beats u x = true) : challenge beats x u = x := if_neg h

lemma challenge_cases (beats : α → α → Bool) (x u : α) :
    challenge beats x u = x ∨ beats u x = true ∧ challenge beats x u = u := by
  by_cases h : beats u x = true
  · exact .inr ⟨h, challenge_of_beats h⟩
  · exact .inl (challenge_of_not_beats h)

lemma Unbeaten.challenge (hirrefl : ∀ a, beats a a = false)
    (htrans : ∀ a b c, beats a b = true → beats b c = true → beats a c = true)
    (h : Unbeaten beats us x) : Unbeaten beats (us ++ [u]) (challenge beats x u) := by
  refine ⟨?_, fun v hv => Bool.eq_false_iff.mpr fun hbeats => ?_⟩
  · rcases challenge_cases beats x u with hx | ⟨-, hu⟩
    · rw [hx]
      exact mem_append_left _ h.1
    · rw [hu]
      exact mem_concat_self
  · by_cases hux : beats u x = true
    · rw [challenge_of_beats hux] at hbeats
      rcases mem_append.mp hv with hv | hv
      · -- what beats `u` would beat `x` as well
        exact absurd (htrans v u x hbeats hux) (by rw [h.2 v hv]; simp)
      · rw [mem_singleton.mp hv, hirrefl] at hbeats
        cases hbeats
    · rw [challenge_of_not_beats hux] at hbeats
      rcases mem_append.mp hv with hv | hv
      · exact absurd hbeats (by rw [h.2 v hv]; simp)
      · exact hux (mem_singleton.mp hv ▸ hbeats)

lemma foldl_challenge_mem (beats : α → α → Bool) (us : List α) (x : α) :
    us.foldl (challenge beats) x ∈ x :: us := by
  induction us generalizing x with
  | nil => exact mem_cons_self
  | cons u us ih =>
    rw [foldl_cons]
    rcases mem_cons.mp (ih (challenge beats x u)) with h | h
    · rw [h]
      rcases challenge_cases beats x u with hx | ⟨-, hu⟩
      · rw [hx]
        exact mem_cons_self
      · rw [hu]
        exact mem_cons_of_mem _ mem_cons_self
    · exact mem_cons_of_mem _ (mem_cons_of_mem _ h)

lemma Reaches.erase [DecidableEq α] (h : Reaches beats us u y) :
    Reaches beats (us.erase u) u y := by
  induction h with
  | refl => exact .refl
  | @tail z y _ hzy ih =>
    by_cases hy : y = u
    · rw [hy]
      exact .refl
    · exact ih.tail ⟨(mem_erase_of_ne hy).mpr hzy.1, hzy.2⟩

lemma Reaches.mem (h : Reaches beats us x y) : y ∈ x :: us := by
  rcases h.cases_tail with rfl | ⟨z, -, hzy⟩
  · exact mem_cons_self
  · exact mem_cons_of_mem _ hzy.1

lemma dominates_of_forall_mem (h : ∀ y ∈ x :: us, y = w ∨ beats w y = true) :
    Dominates beats us x w :=
  fun y hy => h y hy.mem

lemma dominates_of_perm [DecidableEq α]
    (h : ∀ l : List α, l.Perm us → l.foldl (challenge beats) x = w) : Dominates beats us x w := by
  induction hn : us.length generalizing us x with
  | zero =>
    obtain rfl := length_eq_zero_iff.mp hn
    intro y hy
    rcases hy.cases_head with rfl | ⟨z, hz, -⟩
    · exact .inl (h [] (Perm.refl _))
    · exact absurd hz.1 (by simp)
  | succ n ih =>
    -- any challenger can come first, and the others then follow in any order
    have hfst : ∀ u ∈ us, Dominates beats (us.erase u) (challenge beats x u) w := by
      intro u hu
      refine ih (fun l hl => ?_) (by rw [length_erase_of_mem hu, hn, Nat.add_sub_cancel])
      have hperm : (u :: l).Perm us := (hl.cons u).trans (perm_cons_erase hu).symm
      exact h (u :: l) hperm
    intro y hy
    rcases hy.cases_head with rfl | ⟨u, ⟨hu, hbeats⟩, huy⟩
    · -- the start: `w` itself can come first
      by_cases hw : w ∈ us
      · by_cases hwx : beats w x = true
        · exact .inr hwx
        · have hdom := hfst w hw
          rw [challenge_of_not_beats hwx] at hdom
          exact hdom x .refl
      · have hmem := foldl_challenge_mem beats us x
        rw [h us (Perm.refl _)] at hmem
        rcases mem_cons.mp hmem with hwx | hmem
        · exact .inl hwx.symm
        · exact absurd hmem hw
    · have hdom := hfst u hu
      rw [challenge_of_beats hbeats] at hdom
      exact hdom y (Reaches.erase huy)

lemma foldl_challenge_eq (hasymm : ∀ a b, beats a b = true → beats b a = false)
    (hdom : Dominates beats us x w) (hl : ∀ u ∈ l, u ∈ us) (hz : Reaches beats us x z)
    (hw : z = w ∨ w ∈ l) : l.foldl (challenge beats) z = w := by
  -- the holder stays reachable, and `w` holds the place or is still to come
  induction l generalizing z with
  | nil =>
    rcases hw with hw | hw
    · exact hw
    · simp at hw
  | cons u l ih =>
    have hl' : ∀ u' ∈ l, u' ∈ us := fun u' hu' => hl u' (mem_cons_of_mem _ hu')
    rw [foldl_cons]
    by_cases hbeats : beats u z = true
    · rw [challenge_of_beats hbeats]
      have hu : Reaches beats us x u := hz.tail ⟨hl u mem_cons_self, hbeats⟩
      refine ih hl' hu ?_
      rcases hdom u hu with huw | hwu
      · exact .inl huw
      · -- `w` beats `u`, so `w` is neither the old holder nor `u`
        rcases hw with rfl | hw
        · rw [hasymm _ _ hbeats] at hwu
          simp at hwu
        · rcases mem_cons.mp hw with rfl | hw
          · exact absurd (hasymm _ _ hwu) (by rw [hwu]; simp)
          · exact .inr hw
    · rw [challenge_of_not_beats hbeats]
      refine ih hl' hz ?_
      rcases hdom z hz with hzw | hwz
      · exact .inl hzw
      · rcases hw with hw | hw
        · exact .inl hw
        · rcases mem_cons.mp hw with rfl | hw
          · exact absurd hwz hbeats
          · exact .inr hw

/-- **When the order does not matter.**  The last holder is the same for every
order of the challengers if and only if one of the values beats every other one
that can come to hold the place. -/
theorem foldl_challenge_perm_iff (hasymm : ∀ a b, beats a b = true → beats b a = false)
    (us : List α) (x : α) :
    (∀ l : List α, l.Perm us → l.foldl (challenge beats) x = us.foldl (challenge beats) x) ↔
      ∃ w ∈ x :: us, Dominates beats us x w := by
  classical
  constructor
  · intro h
    exact ⟨_, foldl_challenge_mem beats us x, dominates_of_perm h⟩
  · rintro ⟨w, hw, hdom⟩
    have hend : ∀ l : List α, l.Perm us → l.foldl (challenge beats) x = w := by
      intro l hl
      refine foldl_challenge_eq hasymm hdom (fun u hu => hl.mem_iff.mp hu) .refl ?_
      rcases mem_cons.mp hw with hw | hw
      · exact .inl hw.symm
      · exact .inr (hl.mem_iff.mpr hw)
    intro l hl
    rw [hend l hl, hend us (Perm.refl _)]

lemma exists_perm_map {f : β → α} {l : List β} (h : m.Perm (l.map f)) :
    ∃ l' : List β, l'.Perm l ∧ l'.map f = m := by
  have hmap : Forall₂ (fun a b => a = f b) (l.map f) l := by
    rw [forall₂_map_left_iff]
    exact forall₂_same.mpr fun _ _ => rfl
  obtain ⟨l', hl', hperm⟩ := perm_comp_forall₂ h hmap
  rw [← forall₂_map_right_iff, forall₂_eq_eq_eq] at hl'
  exact ⟨l', hperm, hl'.symm⟩

end Champion
