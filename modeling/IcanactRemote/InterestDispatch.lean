/-
Advertised pubsub interest: subscriptions, `note_interest` and the loops it spawns.

A subscription stores its entry, then notes its interest; a release takes the entry
out, then notes that it is gone.  The first and the last note of a topic spawn a
loop that tells the registry, unless one is at work already.

* `TopicInterest.Served` — the registry was told last what is so, or a single loop is
  at work that will see any difference by the generation;
* `PubSubInterest.Counted` — the counts are those of the subscriptions noted;
* `interest_converges` — what follows at every point of a run, and at its end.
-/
import IcanactRemote.Roster
import IcanactRemote.Run

namespace IcanactRemote

open Function

/-- `SubscriptionKind`, for the subscriptions that have a topic. -/
inductive SubscriptionKind
  | owned (topicKey typeHash : ℕ)
  | borrowed (topicKey typeHash : ℕ)
deriving DecidableEq

def SubscriptionKind.topicKey : SubscriptionKind → ℕ
  | .owned topicKey _ | .borrowed topicKey _ => topicKey

/-- How far the calls for a subscription are. -/
inductive SubscriptionStage
  /-- its entry is stored, `note_interest(true)` has not run -/
  | subscribing
  /-- the caller has the handle -/
  | held
  /-- its entry is taken out, `note_interest(false)` has not run -/
  | releasing
  | released
deriving DecidableEq

structure Subscription where
  kind : SubscriptionKind
  stage : SubscriptionStage

open Subscription

/-- `note_interest(true)` has run for it, and `note_interest(false)` has not. -/
def Subscription.noted (topicKey : ℕ) (sub : Subscription) : Bool :=
  sub.kind.topicKey = topicKey && (sub.stage = .held || sub.stage = .releasing)

/-- Where a `drive_interest_dispatch` loop is. -/
inductive DispatchLoop
  | reading
  | ready (wantPresent : Bool) (generation : ℕ)
  | calling (wantPresent : Bool) (generation : ℕ)
  | returned (wantPresent : Bool) (generation : ℕ)

def DispatchLoop.isCalling : DispatchLoop → Bool
  | .calling _ _ => true
  | _ => false

/-- What `InterestState` holds for one topic, and the loops that were spawned for it. -/
structure TopicInterest where
  /-- zero stands for no entry in `local_counts` -/
  localCount : ℕ
  generation : Option ℕ
  dispatchInFlight : Bool
  loops : List DispatchLoop
  /-- the last registry call: `register_actor_with_priority`, or `unregister_actor` -/
  lastCall : Option Bool

namespace TopicInterest

def noteInterest (t : TopicInterest) (present : Bool) : TopicInterest :=
  let next := if present then t.localCount + 1 else t.localCount - 1
  if present && t.localCount = 0 || !present && t.localCount = 1 then
    -- a loop in flight reads the generation again after its call
    { t with
      localCount := next
      generation := some (t.generation.getD 0 + 1)
      dispatchInFlight := true
      loops := if t.dispatchInFlight then t.loops else t.loops ++ [.reading] }
  else { t with localCount := next }

/-- The next step of `drive_interest_dispatch` in the loop at place `k`. -/
def driveInterestDispatch (t : TopicInterest) (k : ℕ) : TopicInterest :=
  match t.loops[k]? with
  | none => t
  | some .reading =>
    { t with loops := t.loops.set k (.ready (0 < t.localCount) (t.generation.getD 0)) }
  | some (.ready wantPresent generation) =>
    { t with loops := t.loops.set k (.calling wantPresent generation), lastCall := wantPresent }
  | some (.calling wantPresent generation) =>
    { t with loops := t.loops.set k (.returned wantPresent generation) }
  | some (.returned wantPresent generation) =>
    if t.generation.getD 0 = generation then
      { t with
        loops := t.loops.eraseIdx k
        dispatchInFlight := false
        generation := if wantPresent then t.generation else none }
    else { t with loops := t.loops.set k .reading }

variable {t u : TopicInterest}

lemma localCount_noteInterest (present : Bool) : (t.noteInterest present).localCount =
    if present then t.localCount + 1 else t.localCount - 1 := by
  simp only [noteInterest]
  split <;> rfl

lemma localCount_driveInterestDispatch (k : ℕ) :
    (t.driveInterestDispatch k).localCount = t.localCount := by
  unfold driveInterestDispatch
  split
  · rfl
  · rfl
  · rfl
  · rfl
  · split <;> rfl

/-- What a loop has read is still so, or the generation has moved on. -/
def Current (t : TopicInterest) (wantPresent : Bool) (generation : ℕ) : Prop :=
  generation ≤ t.generation.getD 0 ∧
    (t.generation.getD 0 = generation → (wantPresent = true ↔ 0 < t.localCount))

def Sees (t : TopicInterest) : DispatchLoop → Prop
  | .reading => True
  | .ready wantPresent generation => t.Current wantPresent generation
  | .calling wantPresent generation | .returned wantPresent generation =>
    t.Current wantPresent generation ∧ t.lastCall = some wantPresent

/-- The registry was told last what is so, or one loop is at work. -/
inductive Served (t : TopicInterest) : Prop
  | idle (hloops : t.loops = []) (hflight : t.dispatchInFlight = false)
      (hpresent : 0 < t.localCount → t.lastCall = some true)
      (habsent : t.localCount = 0 → t.lastCall ≠ some true ∧ t.generation = none)
  | serving {loop : DispatchLoop} (hloops : t.loops = [loop]) (hflight : t.dispatchInFlight = true)
      (hsees : t.Sees loop)

lemma Sees.mono {loop : DispatchLoop} (h : t.Sees loop) (hcall : u.lastCall = t.lastCall)
    (hcurr : ∀ wantPresent generation, t.Current wantPresent generation → u.Current wantPresent
      generation) :
    u.Sees loop := by
  cases loop with
  | reading => trivial
  | ready => exact hcurr _ _ h
  | calling | returned => exact ⟨hcurr _ _ h.1, hcall.trans h.2⟩

lemma Served.noteInterest (h : t.Served) (present : Bool) : (t.noteInterest present).Served := by
  unfold TopicInterest.noteInterest
  simp only
  split
  · -- the first or the last: the generation leaves behind what a loop has read
    cases h with
    | idle hloops hflight =>
      have hspawned : (if t.dispatchInFlight then t.loops else t.loops ++ [.reading]) =
          [.reading] := by simp [hloops, hflight]
      exact .serving hspawned rfl trivial
    | serving hloops hflight hsees =>
      refine .serving (by simp only [hflight, if_true]; exact hloops) rfl (hsees.mono rfl ?_)
      rintro wantPresent generation ⟨hle, -⟩
      refine ⟨Nat.le_succ_of_le hle, fun heq => ?_⟩
      rw [Option.getD_some] at heq
      omega
  next hsame =>
    -- neither the first nor the last: whether there is interest stays as it was
    have hpos : 0 < (if present then t.localCount + 1 else t.localCount - 1) ↔
        0 < t.localCount := by
      cases present with
      | true | false => simp at hsame ⊢; omega
    cases h with
    | idle hloops hflight hpresent habsent =>
      refine .idle hloops hflight (fun hcnt => hpresent (hpos.mp hcnt)) fun hcnt => habsent ?_
      have hnot := mt hpos.mpr (Nat.not_lt.mpr (Nat.le_of_eq hcnt))
      omega
    | serving hloops hflight hsees =>
      refine .serving hloops hflight (hsees.mono rfl ?_)
      rintro wantPresent generation ⟨hle, hcurr⟩
      exact ⟨hle, fun heq => (hcurr heq).trans hpos.symm⟩

lemma Served.driveInterestDispatch (h : t.Served) (k : ℕ) : (t.driveInterestDispatch k).Served := by
  unfold TopicInterest.driveInterestDispatch
  cases h with
  | idle hloops hflight hpresent habsent =>
    rw [hloops, List.getElem?_nil]
    exact .idle hloops hflight hpresent habsent
  | serving hloops hflight hsees =>
    rename_i loop
    rw [hloops]
    cases k with
    | succ => exact .serving hloops hflight hsees
    | zero =>
      cases loop with
      | reading => exact .serving rfl hflight ⟨Nat.le_refl _, fun _ => decide_eq_true_iff⟩
      | ready => exact .serving rfl hflight ⟨hsees, rfl⟩
      | calling => exact .serving rfl hflight hsees
      | returned wantPresent =>
        obtain ⟨⟨-, hcurr⟩, hcall⟩ := hsees
        show Served (if _ then _ else _)
        split
        next heq =>
          -- nothing changed during the call
          refine .idle rfl rfl (fun hcnt => ?_) fun hcnt => ?_
          · rw [(hcurr heq).mpr hcnt] at hcall
            exact hcall
          · have hwant : wantPresent = false :=
              Bool.eq_false_iff.mpr fun hwant => Nat.ne_of_gt ((hcurr heq).mp hwant) hcnt
            subst hwant
            exact ⟨by simp [hcall], rfl⟩
        · exact .serving rfl hflight trivial

end TopicInterest

/-- The subscriptions by their ids, and the interest in each topic. -/
structure PubSubInterest where
  /-- the entries of `subscribers` and `borrowed_subscribers`, with their keys -/
  subscribers : List (SubscriptionKind × ℕ)
  subscriptions : List Subscription
  interest : ℕ → TopicInterest

inductive InterestEvent
  /-- one of the `subscribe_*` calls stores its entry -/
  | subscribe (kind : SubscriptionKind)
  | notePresent (id : ℕ)
  /-- `unsubscribe`, or the handle is dropped -/
  | release (id : ℕ)
  | noteAbsent (id : ℕ)
  | dispatch (topicKey k : ℕ)

namespace PubSubInterest

def start : PubSubInterest := ⟨[], [], fun _ => ⟨0, none, false, [], none⟩⟩

def setStage (s : PubSubInterest) (id : ℕ) (kind : SubscriptionKind) (stage : SubscriptionStage) :
    PubSubInterest :=
  { s with subscriptions := s.subscriptions.set id ⟨kind, stage⟩ }

def noteInterest (s : PubSubInterest) (topicKey : ℕ) (present : Bool) : PubSubInterest :=
  { s with interest :=
      update s.interest topicKey ((s.interest topicKey).noteInterest present) }

def step (s : PubSubInterest) : InterestEvent → PubSubInterest
  | .subscribe kind =>
    { s with
      subscribers := s.subscribers ++ [(kind, s.subscriptions.length)]
      subscriptions := s.subscriptions ++ [⟨kind, .subscribing⟩] }
  | .notePresent id =>
    match s.subscriptions[id]? with
    | some ⟨kind, .subscribing⟩ =>
      (s.noteInterest kind.topicKey true).setStage id kind .held
    | _ => s
  | .release id =>
    match s.subscriptions[id]? with
    | some ⟨kind, .held⟩ =>
      if (kind, id) ∈ s.subscribers then
        { s with subscribers := s.subscribers.erase (kind, id) }.setStage id kind .releasing
      else s.setStage id kind .released
    | _ => s
  | .noteAbsent id =>
    match s.subscriptions[id]? with
    | some ⟨kind, .releasing⟩ =>
      (s.noteInterest kind.topicKey false).setStage id kind .released
    | _ => s
  | .dispatch topicKey k =>
    { s with interest :=
        update s.interest topicKey ((s.interest topicKey).driveInterestDispatch k) }

structure Sound (s : PubSubInterest) : Prop where
  served : ∀ topicKey, (s.interest topicKey).Served
  counted : ∀ topicKey, (s.interest topicKey).localCount =
    s.subscriptions.countP (Subscription.noted topicKey)
  /-- a release finds the entry of its subscription -/
  stored : ∀ id kind stage, s.subscriptions[id]? = some ⟨kind, stage⟩ →
    stage = .subscribing ∨ stage = .held → (kind, id) ∈ s.subscribers

variable {s : PubSubInterest} {id : ℕ} {kind : SubscriptionKind} {stage stage' : SubscriptionStage}

lemma sound_start : start.Sound where
  served _ := .idle rfl rfl nofun fun _ => ⟨nofun, rfl⟩
  counted _ := rfl
  stored _ _ _ hid := by cases hid

lemma Sound.subscribe (h : s.Sound) (kind : SubscriptionKind) :
    (s.step (.subscribe kind)).Sound where
  served := h.served
  counted topicKey := by
    refine (h.counted topicKey).trans ?_
    simp [step, noted]
  stored j kind' stage hj hsg := by
    have hj : (s.subscriptions ++ [⟨kind, .subscribing⟩])[j]? = some ⟨kind', stage⟩ := hj
    rw [List.getElem?_append] at hj
    split at hj
    · exact List.mem_append_left _ (h.stored j kind' stage hj hsg)
    next hlast =>
      obtain ⟨hlt, heq⟩ := List.getElem?_eq_some_iff.mp hj
      have hzero : j - s.subscriptions.length = 0 := by simpa using hlt
      simp only [hzero, List.getElem_cons_zero] at heq
      cases heq
      rw [show j = s.subscriptions.length by omega]
      exact List.mem_append_right _ List.mem_cons_self

lemma Sound.note {present : Bool} (h : s.Sound)
    (hid : s.subscriptions[id]? = some ⟨kind, stage⟩)
    (hstages : if present then stage = .subscribing ∧ stage' = .held else stage = .releasing ∧
      stage' = .released) :
    ((s.noteInterest kind.topicKey present).setStage id kind stage').Sound where
  served := (forall_update_iff s.interest fun _ t => t.Served).mpr
    ⟨(h.served _).noteInterest present, fun j _ => h.served j⟩
  counted topicKey := by
    have hset := Roster.countP_set (noted topicKey) hid ⟨kind, stage'⟩
    have hold := h.counted topicKey
    show (update s.interest kind.topicKey _ topicKey).localCount =
      (s.subscriptions.set id ⟨kind, stage'⟩).countP (noted topicKey)
    -- the count of the topic moves with the stage
    by_cases htopic : topicKey = kind.topicKey
    · rw [htopic, update_self, TopicInterest.localCount_noteInterest, ← htopic]
      cases present with
      | true | false =>
        obtain ⟨rfl, rfl⟩ := hstages
        simp [noted, ← htopic] at hset
        simp
        omega
    · rw [update_of_ne htopic]
      simp [noted, Ne.symm htopic] at hset
      omega
  stored j kind' stage'' hj hsg := by
    have hj : (s.subscriptions.set id ⟨kind, stage'⟩)[j]? = some ⟨kind', stage''⟩ := hj
    rw [Roster.getElem?_set hid] at hj
    split at hj
    next hself =>
      cases hj
      cases present with
      | true => exact hself ▸ h.stored id kind stage hid (.inl hstages.1)
      | false =>
        obtain ⟨-, rfl⟩ := hstages
        obtain hsg | hsg := hsg <;> cases hsg
    · exact h.stored j kind' stage'' hj hsg

lemma Sound.release (h : s.Sound) (hid : s.subscriptions[id]? = some ⟨kind, .held⟩) :
    Sound ({ s with subscribers := s.subscribers.erase (kind, id) }.setStage id kind
      .releasing) where
  served := h.served
  counted topicKey := by
    have hset := Roster.countP_set (noted topicKey) hid ⟨kind, .releasing⟩
    refine (h.counted topicKey).trans ?_
    simp only [noted] at hset
    exact (Nat.add_right_cancel hset).symm
  stored j kind' stage hj hsg := by
    have hj : (s.subscriptions.set id ⟨kind, .releasing⟩)[j]? = some ⟨kind', stage⟩ := hj
    rw [Roster.getElem?_set hid] at hj
    split at hj
    · cases hj
      obtain hsg | hsg := hsg <;> cases hsg
    next hne =>
      have hoth : (kind', j) ≠ (kind, id) := fun heq => hne (congrArg Prod.snd heq)
      exact (List.mem_erase_of_ne hoth).mpr (h.stored j kind' stage hj hsg)

lemma Sound.step (s : PubSubInterest) (e : InterestEvent) (h : s.Sound) : (s.step e).Sound := by
  cases e with
  | subscribe kind => exact h.subscribe kind
  | notePresent | noteAbsent =>
    simp only [PubSubInterest.step]
    split
    next hid =>
      exact h.note hid ⟨rfl, rfl⟩
    · exact h
  | release id =>
    simp only [PubSubInterest.step]
    split
    next kind hid =>
      rw [if_pos (h.stored id kind .held hid (.inr rfl))]
      exact h.release hid
    · exact h
  | dispatch topicKey k =>
    have hcnt := TopicInterest.localCount_driveInterestDispatch (t := s.interest topicKey) k
    exact {
      served := (forall_update_iff s.interest fun _ t => t.Served).mpr
        ⟨(h.served topicKey).driveInterestDispatch k, fun j _ => h.served j⟩
      counted := (forall_update_iff s.interest fun j t =>
        t.localCount = s.subscriptions.countP (noted j)).mpr
          ⟨hcnt.trans (h.counted topicKey), fun j _ => h.counted j⟩
      stored := h.stored }

/-- No call and no loop is running. -/
def Quiet (s : PubSubInterest) : Prop :=
  (∀ sub ∈ s.subscriptions, sub.stage = .held ∨ sub.stage = .released) ∧
    ∀ topicKey, (s.interest topicKey).loops = []

/-- The topic has a live subscription. -/
def Live (s : PubSubInterest) (topicKey : ℕ) : Prop :=
  ∃ sub ∈ s.subscriptions, sub.kind.topicKey = topicKey ∧ sub.stage = .held

lemma Sound.live_iff (h : s.Sound) (hq : s.Quiet) (topicKey : ℕ) :
    s.Live topicKey ↔ 0 < (s.interest topicKey).localCount := by
  rw [h.counted, List.countP_pos_iff]
  refine exists_congr fun sub => and_congr_right fun hmem => ?_
  obtain hsg | hsg := hq.1 sub hmem <;> simp [noted, hsg]

/-- **The advertised interest converges to the live subscriptions.** -/
theorem interest_converges (es : List InterestEvent) (topicKey : ℕ) :
    let s := Run.exec step start es
    let t := s.interest topicKey
    t.loops.countP DispatchLoop.isCalling ≤ 1 ∧
      t.localCount = s.subscriptions.countP (Subscription.noted topicKey) ∧
      (s.Quiet → t.dispatchInFlight = false ∧ (s.Live topicKey → t.lastCall = some true) ∧
        (¬ s.Live topicKey → (t.lastCall = some false ∨ t.lastCall = none) ∧
          t.generation = none)) := by
  intro s t
  have h : s.Sound := Run.exec_invariant (P := Sound) Sound.step sound_start es
  refine ⟨?_, h.counted topicKey, fun hq => ?_⟩
  · cases h.served topicKey with
    | idle hloops => simp [t, hloops]
    | serving hloops => exact hloops ▸ List.countP_le_length
  · cases h.served topicKey with
    | serving hloops => cases hloops.symm.trans (hq.2 topicKey)
    | idle hloops hflight hpresent habsent =>
      rw [h.live_iff hq]
      refine ⟨hflight, hpresent, fun hnone => ?_⟩
      obtain ⟨hcall, hgen⟩ := habsent (Nat.eq_zero_of_not_pos hnone)
      refine ⟨?_, hgen⟩
      cases hlast : t.lastCall with
      | none => exact .inr rfl
      | some present =>
        cases present with
        | true => exact absurd hlast hcall
        | false => exact .inl rfl

end PubSubInterest

end IcanactRemote
