/-
Runs of a step function.

`exec step s es` feeds the events `es` to a state machine one by one.  A point
of a run is a prefix of its events, so a statement about two points of one run
is a statement about `exec step s e₁` and `exec step s (e₁ ++ e₂)`.

* `meets_not_or_last` — the last step of a kind in a run, if there is one;
* `exec_invariant` — what every step preserves holds at every point;
* `exec_invariant_of_meets` — the same when only the steps of this run are
  known to preserve it;
* `exec_mono` — what no step can undo relates any two points;
* `exists_step_of_change` — a property lost between two points is lost at one
  step between them.
-/
import Mathlib

namespace Run

variable {σ ε : Type*} (step : σ → ε → σ)

/-- The state after the events `es`, started in `s`. -/
def exec (s : σ) (es : List ε) : σ := es.foldl step s

@[simp] lemma exec_nil (s : σ) : exec step s [] = s := rfl

@[simp] lemma exec_cons (s : σ) (e : ε) (es : List ε) :
    exec step s (e :: es) = exec step (step s e) es := rfl

lemma exec_append (s : σ) (es fs : List ε) :
    exec step s (es ++ fs) = exec step (exec step s es) fs :=
  List.foldl_append

lemma exec_concat (s : σ) (es : List ε) (e : ε) :
    exec step s (es ++ [e]) = step (exec step s es) e := by
  rw [exec_append]
  rfl

/-- Every step taken from `s` along `es` meets the condition `C`. -/
def Meets (C : σ → ε → Prop) : σ → List ε → Prop
  | _, [] => True
  | s, e :: es => C s e ∧ Meets C (step s e) es

instance decidableMeets (C : σ → ε → Prop) [∀ s e, Decidable (C s e)] :
    ∀ s es, Decidable (Meets step C s es)
  | _, [] => inferInstanceAs (Decidable True)
  | s, e :: es =>
    have := decidableMeets C (step s e) es
    inferInstanceAs (Decidable (C s e ∧ Meets step C (step s e) es))

variable {step}

variable {es fs : List ε} {C D : σ → ε → Prop} {s : σ} {P : σ → Prop}

lemma meets_append :
    Meets step C s (es ++ fs) ↔ Meets step C s es ∧ Meets step C (exec step s es) fs := by
  induction es generalizing s with
  | nil => simp [Meets]
  | cons e es ih =>
    rw [List.cons_append, Meets, Meets, ih, exec_cons, and_assoc]

lemma Meets.and (hC : Meets step C s es) (hD : Meets step D s es) :
    Meets step (fun s e => C s e ∧ D s e) s es := by
  induction es generalizing s with
  | nil => trivial
  | cons e es ih => exact ⟨⟨hC.1, hD.1⟩, ih hC.2 hD.2⟩

lemma Meets.imp (h : ∀ s e, C s e → D s e) (hC : Meets step C s es) : Meets step D s es := by
  induction es generalizing s with
  | nil => trivial
  | cons e es ih => exact ⟨h s e hC.1, ih hC.2⟩

lemma meets_of_forall_mem (h : ∀ s, ∀ e ∈ es, C s e) (s : σ) : Meets step C s es := by
  induction es generalizing s with
  | nil => trivial
  | cons e es ih =>
    exact ⟨h s e List.mem_cons_self, ih (fun s e he => h s e (List.mem_cons_of_mem _ he)) _⟩

/-- A run meets `¬ P` throughout, or `P` has a last step in it. -/
lemma meets_not_or_last (P : σ → ε → Prop) (s : σ) (es : List ε) :
    Meets step (fun s e => ¬ P s e) s es ∨
      ∃ p a q, es = p ++ a :: q ∧ P (exec step s p) a ∧
        Meets step (fun s e => ¬ P s e) (exec step s (p ++ [a])) q := by
  induction es generalizing s with
  | nil => exact .inl trivial
  | cons e es ih =>
    rcases ih (step s e) with hnone | ⟨p, a, q, rfl, ha, hq⟩
    · by_cases he : P s e
      · exact .inr ⟨[], e, es, rfl, he, hnone⟩
      · exact .inl ⟨he, hnone⟩
    · exact .inr ⟨e :: p, a, q, rfl, ha, hq⟩

/-- **Invariants along conditioned runs.**  A property that the steps meeting
`C` preserve holds at the end of every run whose steps all meet `C`. -/
theorem exec_invariant_of_meets (hstep : ∀ s e, P s → C s e → P (step s e)) (hs : P s)
    (hC : Meets step C s es) : P (exec step s es) := by
  induction es generalizing s with
  | nil => exact hs
  | cons e es ih => exact ih (hstep s e hs hC.1) hC.2

/-- **Invariants.**  A property every step preserves holds at every point. -/
theorem exec_invariant (hstep : ∀ s e, P s → P (step s e)) (hs : P s) (es : List ε) :
    P (exec step s es) :=
  exec_invariant_of_meets (C := fun _ _ => True) (fun s e h _ => hstep s e h) hs
    (meets_of_forall_mem (fun _ _ _ => trivial) s)

/-- **Monotonicity.**  A reflexive and transitive relation that the steps
meeting `C` respect relates the two ends of every run whose steps all meet
`C`. -/
theorem exec_mono {R : σ → σ → Prop} (hrefl : ∀ s, R s s)
    (htrans : ∀ s t u, R s t → R t u → R s u) (hstep : ∀ s e, C s e → R s (step s e))
    (hC : Meets step C s es) : R s (exec step s es) := by
  induction es generalizing s with
  | nil => exact hrefl s
  | cons e es ih => exact htrans _ _ _ (hstep s e hC.1) (ih hC.2)

/-- **Change happens at a step.**  If `P` holds at the start and not at the
end, some step of the run takes a `P`-state to a state without `P`. -/
theorem exists_step_of_change (hs : P s) (he : ¬ P (exec step s es)) :
    ∃ e₁ e e₂, es = e₁ ++ e :: e₂ ∧ P (exec step s e₁) ∧ ¬ P (step (exec step s e₁) e) := by
  induction es generalizing s with
  | nil => exact absurd hs he
  | cons e es ih =>
    by_cases h : P (step s e)
    · obtain ⟨e₁, f, e₂, rfl, h1, h2⟩ := ih h he
      exact ⟨e :: e₁, f, e₂, rfl, h1, h2⟩
    · exact ⟨[], e, es, rfl, hs, h⟩

end Run
