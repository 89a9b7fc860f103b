/-
Failures of connections, each to be processed once.

The handlers of one failed instance race: the exit of its IO task, recovery paths
and manual calls.  A handler claims the instance by a marker.  A marker is weakly
tied to the owner of the physical stream and goes when the owner is dropped; a
handler that finds no owner leaves a marker without one.

* `FailureInstance.step` — the owner, the marker and the handlers of one instance;
* `Turn` — what a step can do;
* `Sound` — what every step keeps, and `Fits` for the count of markers without owner;
* `Once` — what a step keeps unless a handler claims without the owner after another
  one claimed under it;
* `processed_at_most_once` — all instances together.
-/
import IcanactRemote.Roster
import IcanactRemote.Run

namespace IcanactRemote

open Option Function Bool Run

/-- Where the owner of an instance is in its life: when the last strong reference is
gone, the release of its marker is still to come. -/
inductive OwnerLife
  | unborn
  | alive
  | dropping
  | dropped
  deriving DecidableEq

/-- `FailureClaimMarker`; `ident` tells allocations apart, and the owner is the one
of the instance. -/
structure FailureClaimMarker where
  ident : ℕ
  owned : Bool
  deriving DecidableEq

inductive FailureStage
  | started
  /-- before the lock of the table is taken; whether the claim has the owner -/
  | located (owner : Bool)
  | claimed (marker : ℕ)
  /-- the claim was refused for the bound, and the handler goes on -/
  | unmarked
  | finished
  deriving DecidableEq

/-- A run of `handle_peer_connection_failure_inner`. -/
structure FailureRun where
  /-- the owner was passed, or found in the pool -/
  holdsOwner : Bool
  stage : FailureStage
  deriving DecidableEq

open FailureRun

/-- The handler has a strong reference to the owner. -/
def FailureRun.keepsOwner (run : FailureRun) : Bool :=
  match run.stage with
  | .finished => false
  | .located owner => run.holdsOwner || owner
  | _ => run.holdsOwner

def FailureRun.holdsClaim (run : FailureRun) : Bool :=
  match run.stage with
  | .claimed _ => true
  | _ => false

def maxOwnerlessFailureTombstones : ℕ := 1024

/-- What an operation does to `ownerless_count`. -/
inductive CountChange
  | same
  | up
  | down

def CountChange.apply (n : ℕ) : CountChange → ℕ
  | same => n
  | up => n + 1
  | down => n - 1

/-- All there is of one instance id: its owner, its row of `claimed`, its handlers. -/
structure FailureInstance where
  life : OwnerLife
  /-- `cleanup` of the owner is set -/
  bound : Bool
  marker : Option FailureClaimMarker
  allocated : ℕ
  runs : List FailureRun
  /-- how many claims were completed -/
  completed : ℕ

open FailureInstance

inductive FailureEvent
  | open
  /-- `found`: the instance is still in `connections_by_addr` -/
  | handleFailure (found : Bool)
  | handleFailureWithOwner
  | advance (k : ℕ)
  | complete (k : ℕ)
  /-- the handler is cancelled, or returns without completing -/
  | cancel (k : ℕ)
  | dropOwner
  | release

variable {owner : Bool}

namespace FailureInstance

def new : FailureInstance := ⟨.unborn, false, none, 0, [], 0⟩

variable (x : FailureInstance)

def setStage (k : ℕ) (run : FailureRun) (stage : FailureStage) : FailureInstance :=
  { x with runs := x.runs.set k { run with stage } }

/-- The part of `claim` behind the look at an existing marker; `full` says that the
bound on markers without owner is reached. -/
def install (k : ℕ) (run : FailureRun) (owner full : Bool) : FailureInstance × CountChange :=
  if owner = false ∧ full = true then ({ x.setStage k run .unmarked with marker := none }, .same)
  else
    ({ x.setStage k run (.claimed x.allocated) with
        marker := some ⟨x.allocated, owner⟩
        allocated := x.allocated + 1
        bound := x.bound || owner },
      if owner then .same else .up)

def claim (k : ℕ) (run : FailureRun) (owner full : Bool) : FailureInstance × CountChange :=
  match x.marker with
  | some marker =>
    if marker.owned then
      if x.life = .alive then (x.setStage k run .finished, .same) else x.install k run owner full
    else if owner then
      ({ x.setStage k run .finished with
          marker := some { marker with owned := true }
          bound := true }, .down)
    else (x.setStage k run .finished, .same)
  | none => x.install k run owner full

/-- `FailureLifecycleOwner::lookup` gives the owner as long as it is alive. -/
def advance (k : ℕ) (run : FailureRun) (full : Bool) : FailureInstance × CountChange :=
  match run.stage with
  | .started =>
    (x.setStage k run (.located (run.holdsOwner || decide (x.life = .alive))), .same)
  | .located owner => x.claim k run owner full
  | _ => (x, .same)

def complete (k : ℕ) (run : FailureRun) : FailureInstance :=
  match run.stage with
  | .claimed _ => { x.setStage k run .finished with completed := x.completed + 1 }
  | .unmarked => x.setStage k run .finished
  | _ => x

/-- The drop of an unfinished claim, with `remove_if_same`. -/
def cancel (k : ℕ) (run : FailureRun) : FailureInstance × CountChange :=
  match run.stage with
  | .started => (x.setStage k run .finished, .same)
  | .unmarked => (x.setStage k run .finished, .same)
  | .claimed ident =>
    match x.marker with
    | some marker =>
      if marker.ident = ident then
        ({ x.setStage k run .finished with marker := none }, if marker.owned then .same else .down)
      else (x.setStage k run .finished, .same)
    | none => (x.setStage k run .finished, .same)
  | _ => (x, .same)

def releaseOwner : FailureInstance :=
  match x.marker with
  | some marker => if marker.owned ∧ x.bound then { x with marker := none } else x
  | none => x

/-- Handlers start while the owner is alive, and the owner is dropped when none of
them holds it. -/
def step (full : Bool) : FailureEvent → FailureInstance × CountChange
  | .open => (if x.life = .unborn then { x with life := .alive } else x, .same)
  | .handleFailure found =>
    (if x.life = .alive then { x with runs := x.runs ++ [⟨found, .started⟩] } else x, .same)
  | .handleFailureWithOwner =>
    (if x.life = .alive then { x with runs := x.runs ++ [⟨true, .started⟩] } else x, .same)
  | .advance k =>
    match x.runs[k]? with
    | some run => x.advance k run full
    | none => (x, .same)
  | .complete k =>
    match x.runs[k]? with
    | some run => (x.complete k run, .same)
    | none => (x, .same)
  | .cancel k =>
    match x.runs[k]? with
    | some run => x.cancel k run
    | none => (x, .same)
  | .dropOwner =>
    (if x.life = .alive ∧ x.runs.all (fun run => !run.keepsOwner) then { x with life := .dropping }
      else x, .same)
  | .release => (if x.life = .dropping then { x.releaseOwner with life := .dropped } else x, .same)

/-! ### What a step can do -/

/-- Nothing keeps a claim out. -/
def Free : Prop := ∀ m, x.marker = some m → m.owned = true ∧ x.life ≠ .alive

/-- What the event `e` can make of the instance. -/
inductive Turn (full : Bool) (e : FailureEvent) : FailureInstance → CountChange → Prop
  | stay : Turn full e x .same
  | born : x.life = .unborn → Turn full e { x with life := .alive } .same
  | spawn (holdsOwner : Bool) : x.life = .alive →
      Turn full e { x with runs := x.runs ++ [⟨holdsOwner, .started⟩] } .same
  | drop : x.life = .alive → (∀ run ∈ x.runs, run.keepsOwner ≠ true) →
      Turn full e { x with life := .dropping } .same
  | release : x.life = .dropping → (∀ m, x.marker = some m → m.owned = true → x.bound = false) →
      Turn full e { x with life := .dropped } .same
  | releaseMarker {m : FailureClaimMarker} : x.life = .dropping → x.marker = some m →
      m.owned = true → x.bound = true →
      Turn full e { x with marker := none, life := .dropped } .same
  /-- a handler that holds no claim goes on without one -/
  | settle {k : ℕ} {run : FailureRun} (stage : FailureStage) : x.runs[k]? = some run →
      run.holdsClaim = false → FailureRun.holdsClaim { run with stage } = false →
      (FailureRun.keepsOwner { run with stage } = true →
        x.life = .alive ∨ run.keepsOwner = true) →
      (stage = .located false → x.life ≠ .alive) → Turn full e (x.setStage k run stage) .same
  | refuse {k : ℕ} {run : FailureRun} : e = .advance k → x.runs[k]? = some run →
      run.stage = .located false → x.Free →
      Turn full e { x.setStage k run .unmarked with marker := none } .same
  | install {k : ℕ} {run : FailureRun} {owner : Bool} : e = .advance k → x.runs[k]? = some run →
      run.stage = .located owner → (owner = false → full = false) → x.Free →
      Turn full e
        { x.setStage k run (.claimed x.allocated) with
          marker := some ⟨x.allocated, owner⟩
          allocated := x.allocated + 1
          bound := x.bound || owner }
        (if owner then .same else .up)
  | rebind {k : ℕ} {run : FailureRun} {m : FailureClaimMarker} : x.runs[k]? = some run →
      run.stage = .located true → x.marker = some m → m.owned = false →
      Turn full e
        { x.setStage k run .finished with marker := some { m with owned := true }, bound := true }
        .down
  | finish {k ident : ℕ} {run : FailureRun} : x.runs[k]? = some run →
      run.stage = .claimed ident →
      Turn full e { x.setStage k run .finished with completed := x.completed + 1 } .same
  | giveUp {k : ℕ} {run : FailureRun} {m : FailureClaimMarker} : x.runs[k]? = some run →
      run.stage = .claimed m.ident → x.marker = some m →
      Turn full e { x.setStage k run .finished with marker := none }
        (if m.owned then .same else .down)
  /-- the marker is of another claim -/
  | giveUpLate {k ident : ℕ} {run : FailureRun} : x.runs[k]? = some run →
      run.stage = .claimed ident → (∀ m, x.marker = some m → m.ident ≠ ident) →
      Turn full e (x.setStage k run .finished) .same

variable {x} {k : ℕ} {run : FailureRun} {full bound : Bool} {e : FailureEvent}

section

variable (hk : x.runs[k]? = some run)
include hk

lemma turn_install (hsg : run.stage = .located owner) (hfree : x.Free) :
    x.Turn full (.advance k) (x.install k run owner full).1 (x.install k run owner full).2 := by
  unfold install
  split
  next hfull =>
    obtain ⟨rfl, -⟩ := hfull
    exact .refuse rfl hk hsg hfree
  next hroom =>
    exact .install rfl hk hsg
      (fun hown => eq_false_iff.mpr fun hfull => hroom ⟨hown, hfull⟩) hfree

lemma turn_advance :
    x.Turn full (.advance k) (x.advance k run full).1 (x.advance k run full).2 := by
  unfold advance
  split
  next hsg =>
    refine .settle _ hk (by rw [holdsClaim, hsg]) rfl (fun hkeeps => ?_) (fun hlost halive => ?_)
    · rw [keepsOwner, hsg]
      simp only [keepsOwner, or_eq_true, decide_eq_true_eq] at hkeeps
      exact hkeeps.elim .inr fun hboth => hboth.symm
    · simp [halive] at hlost
  next hsg =>
    have hfin : x.Turn full (.advance k) (x.setStage k run .finished) .same :=
      .settle _ hk (by rw [holdsClaim, hsg]) rfl nofun nofun
    unfold claim
    -- the three answers of `claim`: no marker, one with an owner, one without
    cases hmarker : x.marker with
    | none => exact turn_install hk hsg fun m hm => nomatch hmarker.symm.trans hm
    | some =>
      simp only
      split
      next howned =>
        split
        · exact hfin
        next hdead =>
          refine turn_install hk hsg fun m' hm' => ?_
          obtain rfl := some.inj (hmarker.symm.trans hm')
          exact ⟨howned, hdead⟩
      next howned =>
        split
        next hown =>
          exact .rebind hk (hown ▸ hsg) hmarker (eq_false_iff.mpr howned)
        · exact hfin
  · exact .stay

lemma turn_complete : x.Turn full e (x.complete k run) .same := by
  unfold complete
  split
  · exact .finish hk ‹_›
  next hsg =>
    exact .settle _ hk (by rw [holdsClaim, hsg]) rfl nofun nofun
  · exact .stay

lemma turn_cancel : x.Turn full e (x.cancel k run).1 (x.cancel k run).2 := by
  unfold cancel
  split
  next hsg =>
    exact .settle _ hk (by rw [holdsClaim, hsg]) rfl nofun nofun
  next hsg =>
    exact .settle _ hk (by rw [holdsClaim, hsg]) rfl nofun nofun
  next hsg =>
    cases hmarker : x.marker with
    | none => exact .giveUpLate hk hsg fun m hm => nomatch hmarker.symm.trans hm
    | some =>
      simp only
      split
      next hmine =>
        exact .giveUp hk (hmine ▸ hsg) hmarker
      next hoth =>
        refine .giveUpLate hk hsg fun m' hm' => ?_
        obtain rfl := some.inj (hmarker.symm.trans hm')
        exact hoth
  · exact .stay

end

lemma turn_release (hlife : x.life = .dropping) :
    x.Turn full e { x.releaseOwner with life := .dropped } .same := by
  unfold releaseOwner
  cases hmarker : x.marker with
  | none => exact .release hlife fun m hm => nomatch hmarker.symm.trans hm
  | some =>
    simp only
    split
    next howned =>
      exact .releaseMarker hlife hmarker howned.1 howned.2
    next hkept =>
      refine .release hlife fun m' hm' howned => eq_false_iff.mpr fun hbd => ?_
      obtain rfl := some.inj (hmarker.symm.trans hm')
      exact hkept ⟨howned, hbd⟩

lemma turn_step (x : FailureInstance) (full : Bool) (e : FailureEvent) :
    x.Turn full e (x.step full e).1 (x.step full e).2 := by
  cases e <;> simp only [step] <;> split
  case «open».isTrue hlife => exact .born hlife
  case handleFailure.isTrue found hlife => exact .spawn found hlife
  case handleFailureWithOwner.isTrue hlife => exact .spawn true hlife
  case h_1 hk => exact turn_advance hk
  case h_1 hk => exact turn_complete hk
  case h_1 hk => exact turn_cancel hk
  case dropOwner.isTrue hunheld =>
    refine .drop hunheld.1 fun run hrun hkeeps => ?_
    have hnot := List.all_eq_true.mp hunheld.2 run hrun
    rw [hkeeps] at hnot
    cases hnot
  case release.isTrue hlife => exact turn_release hlife
  all_goals exact .stay

/-! ### The count -/

/-- The instance has a marker without an owner. -/
def ownerless (x : FailureInstance) : Bool := x.marker.any fun marker => !marker.owned

/-- The count follows whether there is a marker without an owner. -/
def Fits (before after full : Bool) : CountChange → Prop
  | .same => after = before
  | .up => before = false ∧ after = true ∧ full = false
  | .down => before = true ∧ after = false

lemma ownerless_of_marker {m : FailureClaimMarker} (hm : x.marker = some m) :
    x.ownerless = !m.owned := by
  rw [ownerless, hm, any_some]

lemma Free.ownerless (h : x.Free) : x.ownerless = false := by
  cases hmarker : x.marker with
  | none => rw [FailureInstance.ownerless, hmarker, any_none]
  | some m => rw [ownerless_of_marker hmarker, (h m hmarker).1, Bool.not_true]

variable {change : CountChange} {y : FailureInstance} {ident allocated completed : ℕ}

lemma fits_turn (h : x.Turn full e y change) : Fits x.ownerless y.ownerless full change := by
  cases h with
  | releaseMarker _ hmarker howned =>
    rw [Fits, ownerless_of_marker hmarker, howned]
    rfl
  | refuse _ _ _ hfree => exact hfree.ownerless.symm
  | @install _ _ owner _ _ _ hroom hfree =>
    cases owner with
    | true => exact hfree.ownerless.symm
    | false => exact ⟨hfree.ownerless, rfl, hroom rfl⟩
  | rebind _ _ hmarker howned =>
    rw [ownerless_of_marker hmarker, howned]
    exact ⟨rfl, rfl⟩
  | @giveUp _ _ m _ _ hmarker =>
    rw [ownerless_of_marker hmarker]
    cases m.owned with
    | true => rfl
    | false => exact ⟨rfl, rfl⟩
  | _ => rfl

/-! ### Owners, handlers and markers -/

def Gone (x : FailureInstance) : Prop := x.life = .dropping ∨ x.life = .dropped

/-- A handler holds the claim of the marker. -/
def Holds (x : FailureInstance) (ident : ℕ) : Prop :=
  ∃ (j : ℕ) (run : FailureRun), x.runs[j]? = some run ∧ run.stage = .claimed ident

/-- A handler with the owner keeps it alive, one that lost it comes too late, and a
marker stands for a claim that was completed or is held. -/
structure Sound (x : FailureInstance) : Prop where
  kept : ∀ run ∈ x.runs, run.keepsOwner = true → x.life = .alive
  lost : ∀ run ∈ x.runs, run.stage = .located false → x.Gone
  born : ∀ run ∈ x.runs, x.life ≠ .unborn
  owned : ∀ m, x.marker = some m → m.owned = true →
    x.bound = true ∧ (x.life = .alive ∨ x.life = .dropping)
  excused : ∀ m, x.marker = some m → 0 < x.completed ∨ x.Holds m.ident

lemma Sound.new : Sound new := ⟨nofun, nofun, nofun, nofun, nofun⟩

lemma Holds.setStage {stage : FailureStage} (h : x.Holds ident) (hk : x.runs[k]? = some run)
    (hne : run.stage ≠ .claimed ident) : (x.setStage k run stage).Holds ident := by
  obtain ⟨j, r, hj, hr⟩ := h
  have hjk : j ≠ k := by
    rintro rfl
    obtain rfl := some.inj (hk.symm.trans hj)
    exact hne hr
  refine ⟨j, r, ?_, hr⟩
  change (x.runs.set k _)[j]? = some r
  rw [Roster.getElem?_set hk, if_neg hjk]
  exact hj

lemma holds_setStage (hk : x.runs[k]? = some run) :
    (x.setStage k run (.claimed ident)).Holds ident := by
  refine ⟨k, { run with stage := .claimed ident }, ?_, rfl⟩
  change (x.runs.set k _)[k]? = _
  rw [Roster.getElem?_set hk, if_pos rfl]

lemma Sound.proceed (h : Sound x) (hk : x.runs[k]? = some run) (stage : FailureStage)
    (hkeeps : keepsOwner { run with stage } = true → x.life = .alive)
    (hlost : stage = .located false → x.Gone) {marker : Option FailureClaimMarker}
    (howned : ∀ m, marker = some m → m.owned = true → bound = true ∧
      (x.life = .alive ∨ x.life = .dropping))
    (hexcused : ∀ m, marker = some m → 0 < completed ∨ (x.setStage k run stage).Holds m.ident) :
    Sound { x.setStage k run stage with marker, bound, allocated, completed } := by
  refine ⟨fun r hr hr' => ?_, fun r hr hr' => ?_, fun r hr => ?_, howned, hexcused⟩
  · obtain hold | rfl := List.mem_or_eq_of_mem_set hr
    · exact h.kept r hold hr'
    · exact hkeeps hr'
  · obtain hold | rfl := List.mem_or_eq_of_mem_set hr
    · exact h.lost r hold hr'
    · exact hlost hr'
  · exact h.born run (List.mem_of_getElem? hk)

lemma claimed_of_holdsClaim (h : run.holdsClaim = false) :
    run.stage ≠ .claimed ident := fun hsg => by
  rw [holdsClaim, hsg] at h
  cases h

lemma holdsClaim_of_stage (hsg : run.stage = .claimed ident) : run.holdsClaim = true := by
  rw [holdsClaim, hsg]

lemma Sound.turn (h : Sound x) (hturn : x.Turn full e y change) : Sound y := by
  have hkept {k : ℕ} {run : FailureRun} (hk : x.runs[k]? = some run) :=
    h.kept run (List.mem_of_getElem? hk)
  cases hturn with
  | stay => exact h
  | born hlife =>
    refine ⟨fun _ _ _ => rfl, fun r hr _ => ?_, fun _ _ => nofun, fun m hm howned => ?_, h.excused⟩
    · exact absurd hlife (h.born r hr)
    · exact ⟨(h.owned m hm howned).1, .inl rfl⟩
  | spawn _ halive =>
    refine ⟨fun _ _ _ => halive, fun r hr hr' => ?_, fun r hr hunborn => ?_, h.owned,
      fun m hm => ?_⟩
    · obtain hold | hnew := List.mem_append.mp hr
      · exact h.lost r hold hr'
      · obtain rfl := List.mem_singleton.mp hnew
        cases hr'
    · cases halive.symm.trans hunborn
    · refine (h.excused m hm).imp_right fun ⟨j, r, hj, hr⟩ => ?_
      exact ⟨j, r, Roster.getElem?_concat hj _, hr⟩
  | drop _ hunheld =>
    refine ⟨fun r hr hr' => absurd hr' (hunheld r hr), fun _ _ _ => .inl rfl, fun _ _ => nofun,
      fun m hm howned => ⟨(h.owned m hm howned).1, .inr rfl⟩, h.excused⟩
  | release hlife hkeep =>
    refine ⟨fun r hr hr' => ?_, fun _ _ _ => .inr rfl, fun _ _ => nofun, fun m hm howned => ?_,
      h.excused⟩
    · cases hlife.symm.trans (h.kept r hr hr')
    · cases (hkeep m hm howned).symm.trans (h.owned m hm howned).1
  | releaseMarker hlife =>
    refine ⟨fun r hr hr' => ?_, fun _ _ _ => .inr rfl, fun _ _ => nofun, nofun, nofun⟩
    cases hlife.symm.trans (h.kept r hr hr')
  -- a run that lost the owner finds it gone
  | settle stage hk hold _ hkeeps hlost =>
    refine h.proceed hk stage (fun hown => (hkeeps hown).elim id (hkept hk)) (fun hst => ?_)
      h.owned fun m hm => (h.excused m hm).imp_right fun hh =>
        hh.setStage hk (claimed_of_holdsClaim hold)
    have hdead := hlost hst
    have hborn := h.born _ (List.mem_of_getElem? hk)
    unfold Gone
    cases hlife : x.life with
    | unborn => exact absurd hlife hborn
    | alive => exact absurd hlife hdead
    | dropping => exact .inl rfl
    | dropped => exact .inr rfl
  | @refuse _ run _ hk hsg =>
    refine h.proceed hk .unmarked (fun hown => hkept hk ?_) nofun nofun nofun
    rw [keepsOwner, hsg, show run.holdsOwner = true from hown]
    rfl
  -- the marker is owned only if the run keeps the owner alive
  | @install _ run owner _ hk hsg =>
    refine h.proceed hk (.claimed _) (fun hown => hkept hk ?_) nofun (fun m hm howned => ?_)
      fun m hm => ?_
    · rw [keepsOwner, hsg, show run.holdsOwner = true from hown]
      rfl
    · obtain rfl := some.inj hm
      obtain rfl : owner = true := howned
      refine ⟨or_true _, .inl (hkept hk ?_)⟩
      rw [keepsOwner, hsg]
      exact or_true _
    · obtain rfl := some.inj hm
      exact .inr (holds_setStage hk)
  -- a marker without an owner gets one, and keeps its excuse
  | @rebind _ run m hk hsg hmarker =>
    refine h.proceed hk .finished nofun nofun (fun m' hm' _ => ⟨rfl, .inl (hkept hk ?_)⟩)
      fun m' hm' => ?_
    · rw [keepsOwner, hsg]
      exact or_true _
    · obtain rfl := some.inj hm'
      refine (h.excused m hmarker).imp_right fun hh => hh.setStage hk ?_
      rw [hsg]
      exact nofun
  | finish hk => exact h.proceed hk .finished nofun nofun h.owned fun _ _ => .inl (Nat.succ_pos _)
  | giveUp hk => exact h.proceed hk .finished nofun nofun nofun nofun
  | giveUpLate hk hsg hoth =>
    refine h.proceed hk .finished nofun nofun h.owned fun m hm => (h.excused m hm).imp_right
      fun hh => hh.setStage hk ?_
    rw [hsg]
    exact fun heq => hoth m hm (FailureStage.claimed.inj heq).symm

/-! ### One completion -/

/-- A handler claims without the owner only if none claimed under it. -/
def Timely (x : FailureInstance) : FailureEvent → Prop
  | .advance k => ∀ run, x.runs[k]? = some run → run.stage = .located false → x.bound = false
  | _ => True

/-- The claims that were completed or are held. -/
def taken (x : FailureInstance) : ℕ := x.completed + x.runs.countP FailureRun.holdsClaim

structure Once (x : FailureInstance) : Prop where
  single : x.taken ≤ 1
  marked : 0 < x.taken → x.marker.isSome = true ∨ x.Gone ∧ x.bound = true

lemma Once.new : Once new := ⟨Nat.zero_le _, fun h => absurd h (Nat.lt_irrefl 0)⟩

lemma taken_setStage (hk : x.runs[k]? = some run) (stage : FailureStage) :
    (x.setStage k run stage).taken + (if run.holdsClaim then 1 else 0) =
      x.taken + if holdsClaim { run with stage } then 1 else 0 := by
  have hcnt := Roster.countP_set holdsClaim hk { run with stage }
  change x.completed + (x.runs.set k _).countP _ + _ = x.completed + x.runs.countP _ + _
  omega

lemma Once.untaken (h : Once x) (hs : Sound x) (htimely : Timely x (.advance k))
    (hk : x.runs[k]? = some run) (hsg : run.stage = .located owner) (hfree : x.Free) :
    x.taken = 0 := by
  have hcase : x.life = .alive ∨ x.bound = false := by
    cases owner with
    | true =>
      refine .inl (hs.kept run (List.mem_of_getElem? hk) ?_)
      rw [keepsOwner, hsg]
      exact or_true _
    | false => exact .inr (htimely run hk hsg)
  by_contra htaken
  obtain hsome | ⟨hgone, hbd⟩ := h.marked (Nat.pos_of_ne_zero htaken)
  · obtain ⟨m, hm⟩ := isSome_iff_exists.mp hsome
    obtain ⟨howned, hdead⟩ := hfree m hm
    obtain halive | hunbound := hcase
    · exact hdead halive
    · cases (hs.owned m hm howned).1.symm.trans hunbound
  · obtain halive | hunbound := hcase
    · obtain hlife | hlife := hgone <;> cases halive.symm.trans hlife
    · cases hbd.symm.trans hunbound

lemma Once.turn (h : Once x) (hs : Sound x) (htimely : Timely x e)
    (hturn : x.Turn full e y change) : Once y := by
  have keep {y : FailureInstance} (htaken : y.taken = x.taken)
      (hmarked : x.marker.isSome = true ∨ x.Gone ∧ x.bound = true →
        y.marker.isSome = true ∨ y.Gone ∧ y.bound = true) : Once y :=
    ⟨htaken ▸ h.single, fun hpos => hmarked (h.marked (htaken ▸ hpos))⟩
  have none {y : FailureInstance} (htaken : y.taken = 0) : Once y :=
    ⟨by omega, fun hpos => absurd hpos (by omega)⟩
  have hsingle := h.single
  cases hturn with
  | stay => exact h
  | born hlife =>
    refine keep rfl fun hor => hor.imp_right fun hboth => ?_
    obtain hgone | hgone := hboth.1 <;> cases hlife.symm.trans hgone
  | spawn =>
    refine keep ?_ id
    change x.completed + (x.runs ++ _).countP _ = _
    rw [Roster.countP_concat]
    rfl
  | drop => exact keep rfl fun hor => hor.imp_right fun hboth => ⟨.inl rfl, hboth.2⟩
  | release => exact keep rfl fun hor => hor.imp_right fun hboth => ⟨.inr rfl, hboth.2⟩
  | releaseMarker _ _ _ hbd => exact keep rfl fun _ => .inr ⟨.inr rfl, hbd⟩
  | settle stage hk hold hnew =>
    have hcnt := taken_setStage hk stage
    rw [hold, hnew] at hcnt
    exact keep hcnt id
  | refuse he hk hsg hfree =>
    subst he
    -- what finds no marker finds no claim either, if it is timely
    have hzero := h.untaken hs htimely hk hsg hfree
    have hcnt := taken_setStage hk .unmarked
    rw [holdsClaim, hsg] at hcnt
    exact none (hcnt.trans hzero)
  | @install k run owner he hk hsg _ hfree =>
    subst he
    have hzero := h.untaken hs htimely hk hsg hfree
    have hcnt := taken_setStage hk (.claimed x.allocated)
    rw [holdsClaim, hsg] at hcnt
    refine ⟨?_, fun _ => .inl rfl⟩
    change (x.setStage k run (.claimed x.allocated)).taken ≤ 1
    change (x.setStage k run (.claimed x.allocated)).taken + 0 = x.taken + 1 at hcnt
    omega
  | rebind hk hsg =>
    have hcnt := taken_setStage hk .finished
    rw [holdsClaim, hsg] at hcnt
    exact keep hcnt fun _ => .inl rfl
  | finish hk hsg =>
    have hcnt := taken_setStage hk .finished
    rw [holdsClaim_of_stage hsg] at hcnt
    refine keep ?_ id
    -- the completed claim is no longer held
    change x.completed + 1 + (x.runs.set _ _).countP _ = _
    change x.completed + (x.runs.set _ _).countP _ + 1 = x.taken + 0 at hcnt
    omega
  | @giveUp k run _ hk hsg =>
    have hcnt := taken_setStage hk .finished
    rw [holdsClaim_of_stage hsg] at hcnt
    change (x.setStage k run .finished).taken + 1 = x.taken + 0 at hcnt
    refine none ?_
    change (x.setStage k run .finished).taken = 0
    omega
  | @giveUpLate k _ run hk hsg =>
    have hcnt := taken_setStage hk .finished
    rw [holdsClaim_of_stage hsg] at hcnt
    change (x.setStage k run .finished).taken + 1 = x.taken + 0 at hcnt
    exact none (by omega)

end FailureInstance

/-! ### All instances -/

structure FailureSystem where
  instances : ℕ → FailureInstance
  ownerlessCount : ℕ

namespace FailureSystem

open FailureInstance (Sound Once Fits)

def start : FailureSystem := ⟨fun _ => .new, 0⟩

def full (s : FailureSystem) : Bool := maxOwnerlessFailureTombstones ≤ s.ownerlessCount

def step (s : FailureSystem) (e : ℕ × FailureEvent) : FailureSystem :=
  let r := (s.instances e.1).step s.full e.2
  { instances := Function.update s.instances e.1 r.1
    ownerlessCount := r.2.apply s.ownerlessCount }

/-- `ownerless_count` is the number of markers without an owner. -/
structure Counted (s : FailureSystem) : Prop where
  count : ∃ ids : Finset ℕ, (∀ i, i ∈ ids ↔ (s.instances i).ownerless = true) ∧
    ids.card = s.ownerlessCount
  bound : s.ownerlessCount ≤ maxOwnerlessFailureTombstones

variable {s : FailureSystem}

lemma Counted.start : Counted start :=
  ⟨⟨∅, fun _ => iff_of_false (Finset.notMem_empty _) false_ne_true, rfl⟩, Nat.zero_le _⟩

lemma Counted.step (h : Counted s) (e : ℕ × FailureEvent) : Counted (s.step e) := by
  obtain ⟨ids, hids, hcard⟩ := h.count
  have hbd := h.bound
  have hfits := fits_turn (turn_step (s.instances e.1) s.full e.2)
  have hinstances (j : ℕ) : ((s.step e).instances j).ownerless =
      if j = e.1 then ((s.instances e.1).step s.full e.2).1.ownerless
      else (s.instances j).ownerless := by
    change (update s.instances e.1 _ j).ownerless = _
    by_cases hj : j = e.1
    · rw [if_pos hj, hj, update_self]
    · rw [if_neg hj, update_of_ne hj]
  have hcnt : (s.step e).ownerlessCount =
      ((s.instances e.1).step s.full e.2).2.apply s.ownerlessCount := rfl
  -- the count moves with the one row that the step touches
  cases hchg : ((s.instances e.1).step s.full e.2).2 with
  | same =>
    rw [hchg] at hfits hcnt
    refine ⟨⟨ids, fun j => ?_, hcard.trans hcnt.symm⟩, hcnt ▸ hbd⟩
    rw [hids, hinstances]
    split
    next hj =>
      rw [hj, show _ = _ from hfits]
    · rfl
  | up =>
    rw [hchg] at hfits hcnt
    obtain ⟨hbefore, haft, hroom⟩ := hfits
    have hnew : e.1 ∉ ids := fun hmem => by
      rw [hids, hbefore] at hmem
      cases hmem
    refine ⟨⟨insert e.1 ids, fun j => ?_, ?_⟩, ?_⟩
    · rw [Finset.mem_insert, hids, hinstances]
      split
      next hj =>
        exact iff_of_true (.inl hj) haft
      next hj =>
        exact ⟨fun hor => hor.resolve_left hj, .inr⟩
    · rw [Finset.card_insert_of_notMem hnew, hcard, hcnt]
      rfl
    · have hlt := of_decide_eq_false hroom
      rw [hcnt]
      exact Nat.lt_of_not_le hlt
  | down =>
    rw [hchg] at hfits hcnt
    have hold : e.1 ∈ ids := (hids e.1).mpr hfits.1
    refine ⟨⟨ids.erase e.1, fun j => ?_, ?_⟩, ?_⟩
    · rw [Finset.mem_erase, hids, hinstances]
      split
      next hj =>
        rw [hfits.2]
        exact iff_of_false (fun hboth => hboth.1 hj) nofun
      next hj =>
        exact ⟨fun hboth => hboth.2, fun hless => ⟨hj, hless⟩⟩
    · rw [Finset.card_erase_of_mem hold, hcard, hcnt]
      rfl
    · rw [hcnt]
      exact (Nat.sub_le _ _).trans hbd

lemma forall_step {P : FailureInstance → Prop} (h : ∀ i, P (s.instances i)) (e : ℕ × FailureEvent)
    (he : P ((s.instances e.1).step s.full e.2).1) (i : ℕ) : P ((s.step e).instances i) := by
  change P (update s.instances e.1 _ i)
  by_cases hi : i = e.1
  · rw [hi, update_self]
    exact he
  · rw [update_of_ne hi]
    exact h i

lemma completed_of_free {i k : ℕ} {run : FailureRun} (hk : (s.instances i).runs[k]? = some run)
    (hsg : run.stage = .located owner) (hnone : (s.instances i).marker = none)
    (hroom : owner = true ∨ s.ownerlessCount < maxOwnerlessFailureTombstones) :
    ((exec step s [(i, .advance k), (i, .complete k)]).instances i).completed =
      (s.instances i).completed + 1 := by
  have hnot : ¬ (owner = false ∧ s.full = true) := by
    rintro ⟨rfl, hfull⟩
    obtain hown | hlt := hroom
    · cases hown
    · exact absurd hlt (Nat.not_lt_of_le (of_decide_eq_true hfull))
  have hclaim : ((s.instances i).step s.full (.advance k)).1.runs[k]? =
        some { run with stage := .claimed (s.instances i).allocated } ∧
      ((s.instances i).step s.full (.advance k)).1.completed = (s.instances i).completed := by
    simp only [FailureInstance.step, hk, FailureInstance.advance, hsg, FailureInstance.claim,
      hnone, FailureInstance.install, if_neg hnot, FailureInstance.setStage]
    exact ⟨by rw [Roster.getElem?_set hk, if_pos rfl], trivial⟩
  rw [exec_cons, exec_cons, exec_nil]
  simp only [FailureSystem.step, update_self, FailureInstance.step] at hclaim ⊢
  simp only [hclaim.1, FailureInstance.complete, hclaim.2]

/-- The condition on a step is one on its instance. -/
def Timely (s : FailureSystem) (e : ℕ × FailureEvent) : Prop := (s.instances e.1).Timely e.2

/-- **A failure is processed at most once.**  In every run the count of markers
without an owner is exact and bounded, a claim that was given up keeps no later one
out, and owners take their markers with them.  No instance is completed twice as
long as no handler claims without the owner after another one claimed under it. -/
theorem processed_at_most_once (es : List (ℕ × FailureEvent)) : let s := exec step start es
    Counted s ∧
    (∀ i k run owner, (s.instances i).runs[k]? = some run → run.stage = .located owner →
      (s.instances i).completed = 0 → (∀ ident, ¬ (s.instances i).Holds ident) →
      owner = true ∨ s.ownerlessCount < maxOwnerlessFailureTombstones →
      ((exec step s [(i, .advance k), (i, .complete k)]).instances i).completed = 1) ∧
    ((∀ i, (s.instances i).life = .unborn ∨ (s.instances i).life = .dropped) →
      ∀ i m, (s.instances i).marker = some m → m.owned = false) ∧
    (Run.Meets step Timely start es → ∀ i, (s.instances i).completed ≤ 1) := by
  intro s
  have hcnt : Counted s := exec_invariant (P := Counted) (fun _ e hs => hs.step e) .start es
  have hsound : ∀ i, Sound (s.instances i) :=
    exec_invariant (P := fun s : FailureSystem => ∀ i, Sound (s.instances i))
      (fun s e hs => forall_step hs e ((hs e.1).turn (turn_step _ s.full e.2)))
      (fun _ => .new) es
  refine ⟨hcnt, fun i k run owner hk hsg hopen hfree hroom => ?_, fun hdead i m hm => ?_,
    fun hmeets i => ?_⟩
  · have hnone : (s.instances i).marker = none := by
      cases hmarker : (s.instances i).marker with
      | none => rfl
      | some m =>
        -- a marker left behind is of a completed claim or of one that is held
        obtain hdone | hholds := (hsound i).excused m hmarker
        · omega
        · exact absurd hholds (hfree _)
    rw [completed_of_free hk hsg hnone hroom, hopen]
  · by_contra howned
    obtain ⟨-, hlife⟩ := (hsound i).owned m hm (eq_true_of_not_eq_false howned)
    obtain hdead | hdead := hdead i <;> rw [hdead] at hlife <;> exact hlife.elim nofun nofun
  · have honce : ∀ i, Sound (s.instances i) ∧ Once (s.instances i) := exec_invariant_of_meets
        (P := fun s : FailureSystem => ∀ i, Sound (s.instances i) ∧ Once (s.instances i))
        (fun s e hs he => forall_step (P := fun x => Sound x ∧ Once x) hs e
          ⟨(hs e.1).1.turn (turn_step _ s.full e.2),
            (hs e.1).2.turn (hs e.1).1 he (turn_step _ s.full e.2)⟩)
        (fun _ => ⟨.new, .new⟩) hmeets
    have hsingle := (honce i).2.single
    unfold taken at hsingle
    omega

/-- Two handlers of one failure, with the owner, and two of another one whose owner is
gone before they claim: the second one is a duplicate. -/
def twoHandlers : List (ℕ × FailureEvent) :=
  [(7, .open), (7, .handleFailure true), (7, .handleFailureWithOwner), (7, .advance 0),
    (7, .advance 0), (7, .advance 1), (7, .complete 0), (7, .advance 1), (7, .complete 1),
    (8, .open), (8, .handleFailure false), (8, .handleFailure false), (8, .dropOwner),
    (8, .release), (8, .advance 0), (8, .advance 0), (8, .advance 1), (8, .complete 0),
    (8, .advance 1), (8, .complete 1)]

theorem processed_at_most_once_twoHandlers : let s := exec step start twoHandlers
    (s.instances 7).completed = 1 ∧ (s.instances 8).completed = 1 ∧ s.ownerlessCount = 1 ∧
      ∀ i, (s.instances i).completed ≤ 1 := by
  intro s
  refine ⟨by decide +kernel, by decide +kernel, by decide +kernel,
    (processed_at_most_once twoHandlers).2.2.2 ?_⟩
  refine ⟨trivial, trivial, trivial, ?_, ?_, ?_, trivial, ?_, trivial, trivial, trivial, trivial,
    trivial, trivial, ?_, ?_, ?_, trivial, ?_, trivial, trivial⟩
  -- the claims of instance 8 are without the owner, which no claim was bound to
  all_goals
    intro run hrun hsg
    cases hrun
    cases hsg <;> rfl

/-- Two handlers start after the instance was retired from the pool.  The first one
finds the owner and completes; the owner is dropped; the second one finds neither
owner nor marker. -/
def lateHandler : List (ℕ × FailureEvent) :=
  [(7, .open), (7, .handleFailure false), (7, .handleFailure false), (7, .advance 0),
    (7, .advance 0), (7, .complete 0), (7, .dropOwner), (7, .release), (7, .advance 1),
    (7, .advance 1), (7, .complete 1)]

/-- **A failure is processed twice.** -/
theorem processed_twice : ((exec step start lateHandler).instances 7).completed = 2 ∧
    (exec step start lateHandler).ownerlessCount < maxOwnerlessFailureTombstones := by
  decide +kernel

end FailureSystem

end IcanactRemote
