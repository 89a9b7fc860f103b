/-
What a stale operation on an aliased id does to the current request.

A completion, a `cancel` or a timeout for another id of the slot takes the slot to
`WRITING` before it sees that the slot is not its own.  A completion of the current
request that comes just then gives up, and a `cancel` that puts `READY` back wakes
nobody.

* `Undisturbed` — neither of the two happens in a step;
* `Winning` — a completion that has taken the slot of its own request;
* `Watched` — a waiter that nobody has woken has its waker in the slot, and the
  operation that made the slot `READY` is still going to wake it.
-/
import IcanactRemote.CorrelationSafety

namespace IcanactRemote

open Run

namespace Correlation

/-- The request was allocated, and nobody has completed, cancelled or taken it. -/
def Pending (x : ℕ) (s : Tracker) : Prop :=
  InFlight x s.log ∧ ∀ o : Outcome, o.id = x → ¬ Untaken o s.log

/-- No operation has the slot in `WRITING` when a completion of `x` looks at it,
and no `cancel` for another id takes it while it is `READY`. -/
def Pc.undisturbed (x : ℕ) (slot : Slot) : Pc → Bool
  | .completing id _ => decide (id = x → slot.state ≠ .writing)
  | .cancelSaw id true => decide (slot.state = .ready → slot.id = x → id = x)
  | _ => true

def Undisturbed (x : ℕ) (s : Tracker) : Event → Prop
  | .advance t => (s.calls t).undisturbed x (s.slotOf t) = true
  | _ => True

instance (x : ℕ) (s : Tracker) : ∀ e, Decidable (Undisturbed x s e)
  | .advance t => inferInstanceAs (Decidable ((s.calls t).undisturbed x (s.slotOf t) = true))
  | .spawn _ _ | .poll _ | .timeout _ => inferInstanceAs (Decidable True)

/-! ### A completion that has taken the slot -/

def Winning (x t : ℕ) (s : Tracker) : Prop :=
  s.calls t = .compLocked x true ∧ (s.slotOf t).id = x ∨ s.calls t = .compWrite x ∨
    s.calls t = .compReady x ∨ s.calls t = .compWake x ∨ s.calls t = .completed true

lemma Correct.waiting {s : Tracker} (hs : Correct s) {x t : ℕ} (hp : Pending x s)
    (hslot : (s.calls t).slot = slotIndex x) (hw : (s.slotOf t).state ≠ .writing) :
    (s.slotOf t).state = .waiting ∧ (s.slotOf t).id = x := by
  have hten := hs.flights.resting (s.calls t).slot hw
  change Tenancy _ _ (s.slotOf t).id (decide ((s.slotOf t).state = .empty)) at hten
  cases hst : (s.slotOf t).state with
  | empty =>
    rw [hst] at hten
    exact absurd hp.1 (hten x hslot.symm)
  | waiting =>
    rw [hst] at hten
    exact ⟨rfl, (hten.2.2 x hslot.symm hp.1).symm⟩
  | writing => exact absurd hst hw
  | ready =>
    rw [hst] at hten
    have hfull := hs.sound.settled (s.calls t).slot hw
    change (s.slotOf t).response.isSome = decide ((s.slotOf t).state = .ready) at hfull
    rw [hst] at hfull
    obtain ⟨o, ho⟩ := Option.isSome_iff_exists.mp hfull
    obtain ⟨hid, -, hun⟩ := hs.kept.content _ o ho
    exact absurd hun (hp.2 o (hid.trans (hten.2.2 x hslot.symm hp.1).symm))

lemma Correct.winning {s : Tracker} (hs : Correct s) {x t : ℕ} (hp : Pending x s)
    (hk : s.calls t = .completing x true) (hw : (s.slotOf t).state ≠ .writing) :
    Winning x t (s.step (.advance t)) := by
  obtain ⟨hwait, hid⟩ := hs.waiting hp (by rw [hk]; rfl) hw
  have hmove : s.move (.advance t) = { pc := .compLocked x true, act := .lock } := by
    change (s.calls t).advance _ _ = _
    rw [hk]
    exact if_pos hwait
  refine .inl ⟨?_, ?_⟩
  · rw [Tracker.step, hmove]
    exact Tracker.calls_apply_self
  · rw [Tracker.step, hmove]
    change ((s.apply t _).slotOf t).id = x
    rw [Tracker.slotOf_apply_self (by rw [hk]; rfl)]
    exact hid

lemma Tracker.move_of_completion {s : Tracker} {e : Event}
    (hne : ∀ t, e ≠ .advance t) (hk : (s.calls e.call).hold ≠ none ∨ (s.calls e.call).wrote) :
    s.move e = { pc := s.calls e.call } := by
  have hturn {k' : Pc} (h : (s.calls e.call).Turn k') : k' = s.calls e.call := by
    obtain h | ⟨hhold, hwrote, -⟩ := h
    · exact h
    · obtain hk | hk := hk
      · exact absurd hhold hk
      · rw [hwrote] at hk
        cases hk
  cases e with
  | spawn t c => exact congrArg (Move.mk · .none) (hturn (Pc.turn_spawn c _))
  | advance t => exact absurd rfl (hne t)
  | poll => exact congrArg (Move.mk · .none) (hturn (Pc.turn_poll _))
  | timeout => exact congrArg (Move.mk · .none) (hturn (Pc.turn_timeout _))

open Tracker

lemma Winning.step {s : Tracker} {x t : ℕ} (hwin : Winning x t s) (hs : Correct s) (e : Event) :
    Winning x t (s.step e) := by
  have hbusy : (s.calls t).hold ≠ none ∨ (s.calls t).wrote := by
    obtain ⟨hk, -⟩ | hk | hk | hk | hk := hwin
    · exact .inl (by rw [hk]; exact nofun)
    · exact .inl (by rw [hk]; exact nofun)
    · exact .inl (by rw [hk]; exact nofun)
    · exact .inr (by rw [hk]; rfl)
    · exact .inr (by rw [hk]; rfl)
  by_cases ht : t = e.call
  · subst ht
    by_cases hadv : ∃ u, e = .advance u
    · obtain ⟨u, rfl⟩ := hadv
      have hcall : (s.step (.advance u)).calls u = ((s.calls u).advance s.nextId (s.slotOf u)).pc :=
        calls_apply_self
      change Winning x u s at hwin
      obtain ⟨hk, hid⟩ | hk | hk | hk | hk := hwin
      · refine .inr (.inl (hcall.trans ?_))
        rw [hk]
        simp only [Pc.advance, hid, ne_eq, not_true_eq_false, if_false, if_true]
      · exact .inr (.inr (.inl (hcall.trans (by rw [hk]; rfl))))
      · exact .inr (.inr (.inr (.inl (hcall.trans (by rw [hk]; rfl)))))
      · exact .inr (.inr (.inr (.inr (hcall.trans (by rw [hk]; rfl)))))
      · exact .inr (.inr (.inr (.inr (hcall.trans (by rw [hk]; rfl)))))
    · -- no other event moves a call that holds a slot or has written
      have hmove := move_of_completion (fun u h => hadv ⟨u, h⟩) hbusy
      have hcall : (s.step e).calls e.call = s.calls e.call := by
        rw [Tracker.step, hmove]
        exact calls_apply_self
      have hslot : (s.step e).slotOf e.call = s.slotOf e.call := by
        rw [Tracker.step, hmove]
        exact slotOf_apply_self rfl
      rw [Winning, hcall, hslot]
      exact hwin
  · -- the slot is in hand, so nobody else renames it
    have hcall : (s.step e).calls t = s.calls t := calls_apply_of_ne ht
    obtain ⟨hk, hid⟩ | hrest := hwin
    · refine .inl ⟨hcall.trans hk, ?_⟩
      have hfair : (s.move e).Fair (s.slotOf e.call) (s.calls e.call) := hs.fair_move e
      rw [Tracker.step, (hs.sound.untouched hfair ht (by rw [hk]; exact nofun)).2.1]
      exact hid
    · exact .inr (by rw [hcall]; exact hrest)

/-! ### A waiter that nobody has woken -/

namespace Pc

/-- The id a wait is for, as long as it can come to register again. -/
def waitsFor : Pc → Option ℕ
  | .taking id _ _ | .waitLoad id _ _ | .waitRegister id _ | .waitPending id _ | .timeoutCas id
  | .timeoutLocked id | .timeoutForeign id => some id
  | _ => none

/-- The wait has registered its waker. -/
def registered : Pc → Option ℕ
  | .taking id _ .second | .waitLoad id _ .second | .waitPending id _ => some id
  | _ => none

/-- The wait has registered and did not find the slot `READY` after that. -/
def parked : Pc → Option ℕ
  | .waitLoad id _ .second | .waitPending id _ => some id
  | _ => none

/-- The next step of the call wakes the waker of the slot. -/
def rings : Pc → Bool
  | .compVoidWake _ | .compWake _ | .cancelWake _ | .allWake _ | .takeForeignWake _ => true
  | _ => false

/-- Nothing of the call is under way. -/
def atRest : Pc → Bool
  | .idle | .allocated _ | .completed _ | .waitPending _ _ | .finished => true
  | _ => false

/-- The call is none of those the waiter depends on. -/
def plain : Pc → Bool
  | .cancelLocked _ isReady | .cancelForeign _ isReady => !isReady
  | k => k.waitsFor.isNone

end Pc

/-- Neither registers a waker nor makes the slot `READY`. -/
def Act.still : Act → Bool
  | .register | .unlock .ready => false
  | _ => true

/-- What a step does to waiters and wakers. -/
structure Move.Wary (slot : Slot) (k : Pc) (m : Move) : Prop where
  waits : ∀ id, m.pc.waitsFor = some id → k.waitsFor = some id ∨ k = .idle
  register : m.act = .register → k.waitsFor = some slot.id
  registered : ∀ x, m.pc.registered = some x →
    m.act = .register ∧ slot.id = x ∧ k.slot = slotIndex x ∨ m.act = .none ∧ k.registered = some x
  parked : ∀ x, m.pc.parked = some x →
    m.act = .none ∧ (k.parked = some x ∨ slot.state ≠ .ready ∧ k.slot = slotIndex x)
  rings : k.rings → m.act = .wake ∨ m.pc = k
  readies : m.act = .unlock .ready →
    m.pc.rings ∧ m.pc.slot = k.slot ∨ ∃ id, k = .cancelForeign id true
  locked : ∀ id, m.pc = .cancelLocked id true →
    k = .cancelSaw id true ∧ m.act = .lock ∨ m.pc = k ∧ m.act = .none
  foreign : ∀ id, m.pc = .cancelForeign id true →
    k = .cancelLocked id true ∧ slot.id ≠ id ∧ m.act = .none ∨ m.pc = k ∧ m.act = .none

variable {act : Act}

namespace Move.Wary

variable {slot : Slot} {k k' : Pc}

lemma self : Wary slot k { pc := k } :=
  ⟨fun _ h => .inl h, nofun, fun _ h => .inr ⟨rfl, h⟩, fun _ h => ⟨rfl, .inl h⟩, fun _ => .inr rfl,
    nofun, fun _ _ => .inr ⟨rfl, rfl⟩, fun _ _ => .inr ⟨rfl, rfl⟩⟩

lemma registered_of_plain (h : k.plain) : k.registered = none ∧ k.parked = none := by
  cases k with
  | taking | waitLoad | waitPending => cases h
  | _ => exact ⟨rfl, rfl⟩

lemma waitsFor_of_plain (h : k.plain) : k.waitsFor = none := by
  cases k with
  | taking | waitLoad | waitRegister | waitPending | timeoutCas | timeoutLocked
  | timeoutForeign => cases h
  | _ => rfl

lemma of_plain (hk : k.rings = false ∨ act = .wake) (h : k'.plain) (hact : act.still) :
    Wary slot k { pc := k', act } := by
  refine ⟨fun id hid => ?_, fun hreg => ?_, fun x hx => ?_, fun x hx => ?_,
    fun hrings => ?_, fun hready => ?_, fun id hid => ?_, fun id hid => ?_⟩
  · exact absurd ((waitsFor_of_plain h).symm.trans hid) nofun
  · obtain rfl : act = _ := hreg
    cases hact
  · exact absurd ((registered_of_plain h).1.symm.trans hx) nofun
  · exact absurd ((registered_of_plain h).2.symm.trans hx) nofun
  · obtain hk | hk := hk
    · rw [hk] at hrings
      cases hrings
    · exact .inl hk
  · obtain rfl : act = _ := hready
    cases hact
  · obtain rfl : k' = _ := hid
    cases h
  · obtain rfl : k' = _ := hid
    cases h

lemma of_wait {id : ℕ} (hk : k.waitsFor = some id) (hrings : k.rings = false)
    (h : k'.waitsFor = some id) (hregistered : k'.registered = none) (hpark : k'.parked = none)
    (hact : act.still) : Wary slot k { pc := k', act } := by
  refine ⟨fun other hoth => .inl ?_, fun hreg => ?_, fun x hx => ?_, fun x hx => ?_,
    fun hk => ?_, fun hready => ?_, fun other hoth => ?_, fun other hoth => ?_⟩
  · rw [hk, ← h]
    exact hoth
  · obtain rfl : act = _ := hreg
    cases hact
  · exact absurd (hregistered.symm.trans hx) nofun
  · exact absurd (hpark.symm.trans hx) nofun
  · rw [hrings] at hk
    cases hk
  · obtain rfl : act = _ := hready
    cases hact
  · obtain rfl : k' = _ := hoth
    cases h
  · obtain rfl : k' = _ := hoth
    cases h

lemma of_ready (hk : k.rings = false) (hrings : k'.rings) (hslot : k'.slot = k.slot) :
    Wary slot k { pc := k', act := .unlock .ready } := by
  have hwaits : k'.waitsFor = none ∧ k'.registered = none ∧ k'.parked = none := by
    cases k' with
    | compVoidWake | compWake | cancelWake | allWake | takeForeignWake => exact ⟨rfl, rfl, rfl⟩
    | _ => cases hrings
  refine ⟨fun id hid => ?_, nofun, fun x hx => ?_, fun x hx => ?_, fun h => ?_,
    fun _ => .inl ⟨hrings, hslot⟩, fun id hid => ?_, fun id hid => ?_⟩
  · exact absurd (hwaits.1.symm.trans hid) nofun
  · exact absurd (hwaits.2.1.symm.trans hx) nofun
  · exact absurd (hwaits.2.2.symm.trans hx) nofun
  · rw [hk] at h
    cases h
  · obtain rfl : k' = _ := hid
    cases hrings
  · obtain rfl : k' = _ := hid
    cases hrings

end Move.Wary

lemma Pc.of_rings {k : Pc} (h : k.rings) : k.parked = none ∧ k.atRest = false := by
  cases k with
  | compVoidWake | compWake | cancelWake | allWake | takeForeignWake => exact ⟨rfl, rfl⟩
  | _ => cases h

lemma Pc.plain_nextSlot (i : ℕ) : (Pc.nextSlot i).plain := by
  unfold Pc.nextSlot
  split <;> rfl

open Move.Wary in
lemma Pc.wary_advance (nextId : ℕ) (slot : Slot) (k : Pc) :
    (k.advance nextId slot).Wary slot k := by
  cases k with
  | drawing tries =>
    cases tries with
    | zero => exact of_plain (.inl rfl) rfl rfl
    | succ =>
      simp only [advance]
      split <;> exact of_plain (.inl rfl) rfl rfl
  | compReady | takeForeign => exact of_ready rfl rfl rfl
  | compVoidWake | compWake | cancelWake | takeForeignWake =>
    exact of_plain (.inr rfl) rfl rfl
  | allWake i => exact of_plain (.inr rfl) (plain_nextSlot i) rfl
  | cancelling =>
    simp only [advance]
    cases slot.state with
    | _ => exact of_plain (.inl rfl) rfl rfl
  -- a slot that was seen `READY` is locked first; only then its id is compared
  | cancelSaw _ isReady =>
    simp only [advance]
    split
    · cases isReady with
      | false => exact of_plain (.inl rfl) rfl rfl
      | true =>
        constructor
        case locked =>
          rintro other ⟨⟩
          exact .inl ⟨rfl, rfl⟩
        all_goals (intros; contradiction)
    · exact of_plain (.inl rfl) rfl rfl
  | cancelLocked _ isReady =>
    simp only [advance]
    split
    next hid =>
      cases isReady with
      | false => exact of_plain (.inl rfl) rfl rfl
      | true =>
        constructor
        case foreign =>
          rintro other ⟨⟩
          exact .inl ⟨rfl, hid, rfl⟩
        all_goals (intros; contradiction)
    · cases isReady with
      | false | true => exact of_plain (.inl rfl) rfl rfl
  | cancelForeign id isReady =>
    cases isReady with
    | false => exact of_plain (.inl rfl) rfl rfl
    | true =>
      constructor
      case readies => exact fun _ => .inr ⟨id, rfl⟩
      all_goals (intros; contradiction)
  | allLoading i =>
    simp only [advance]
    cases slot.state with
    | empty => exact of_plain (.inl rfl) (plain_nextSlot i) rfl
    | _ => exact of_plain (.inl rfl) rfl rfl
  | allSaw i isReady =>
    simp only [advance]
    split
    · exact of_plain (.inl rfl) rfl rfl
    · cases isReady with
      | true => exact of_plain (.inl rfl) rfl rfl
      | false =>
        constructor
        all_goals (intros; contradiction)
  -- a waiter parks only after a second look, taken once its waker is registered
  | taking _ _ attempt =>
    simp only [advance]
    split
    · exact of_plain (.inl rfl) rfl rfl
    next hready =>
      cases attempt with
      | first | late => exact of_wait rfl rfl rfl rfl rfl rfl
      | second =>
        constructor
        case waits => exact fun _ h => .inl h
        case registered => exact fun _ h => .inr ⟨rfl, h⟩
        case parked =>
          rintro x ⟨⟩
          exact ⟨rfl, .inr ⟨hready, rfl⟩⟩
        all_goals (intros; contradiction)
  | waitLoad _ _ attempt =>
    simp only [advance]
    split
    · exact of_plain (.inl rfl) rfl rfl
    · cases attempt with
      | first => exact of_wait rfl rfl rfl rfl rfl rfl
      | second =>
        constructor
        case waits => exact fun _ h => .inl h
        case registered => exact fun _ h => .inr ⟨rfl, h⟩
        case parked => exact fun _ h => ⟨rfl, .inl h⟩
        all_goals (intros; contradiction)
      | late =>
        simp only
        split
        · exact of_wait rfl rfl rfl rfl rfl rfl
        · exact of_plain (.inl rfl) rfl rfl
  | waitRegister id =>
    simp only [advance]
    split
    · exact of_plain (.inl rfl) rfl rfl
    next hid =>
      have hid : slot.id = id := not_not.mp hid
      constructor
      case waits => exact fun _ h => .inl h
      case register => exact fun _ => by rw [hid]; rfl
      case registered =>
        rintro x ⟨⟩
        exact .inl ⟨rfl, hid, rfl⟩
      all_goals (intros; contradiction)
  | timeoutCas =>
    simp only [advance]
    split <;> exact of_wait rfl rfl rfl rfl rfl rfl
  | timeoutLocked =>
    simp only [advance]
    split
    · exact of_wait rfl rfl rfl rfl rfl rfl
    · exact of_plain (.inl rfl) rfl rfl
  | timeoutForeign => exact of_wait rfl rfl rfl rfl rfl rfl
  | waitPending | idle => exact self
  | _ =>
    first
    | exact of_plain (.inl rfl) rfl rfl
    | (simp only [advance]; split <;> first
        | exact of_plain (.inl rfl) rfl rfl
        | (split <;> exact of_plain (.inl rfl) rfl rfl))

lemma Tracker.wary_move (s : Tracker) (e : Event) :
    (s.move e).Wary (s.slotOf e.call) (s.calls e.call) := by
  cases e with
  | spawn t c =>
    change Move.Wary _ (s.calls t) { pc := (s.calls t).spawn c }
    cases s.calls t with
    | idle =>
      cases c with
      | wait =>
        exact ⟨fun _ _ => .inr rfl, nofun, nofun, nofun, nofun, nofun, nofun, nofun⟩
      | _ => exact .of_plain (.inl rfl) rfl rfl
    | _ => exact .self
  | advance => exact Pc.wary_advance _ _ _
  | poll t =>
    change Move.Wary _ (s.calls t) { pc := (s.calls t).poll }
    cases s.calls t with
    | waitPending => exact .of_wait rfl rfl rfl rfl rfl rfl
    | _ => exact .self
  | timeout t =>
    change Move.Wary _ (s.calls t) { pc := (s.calls t).timeout }
    cases s.calls t with
    | waitPending _ timed =>
      cases timed with
      | true => exact .of_wait rfl rfl rfl rfl rfl rfl
      | false => exact .self
    | _ => exact .self

structure Watched (x w : ℕ) (s : Tracker) : Prop where
  sole : ∀ t, (s.calls t).waitsFor = some x → t = w
  waker : (s.calls w).registered = some x → s.woken w = false →
    (s.slots (slotIndex x)).id = x ∧ (s.slots (slotIndex x)).waker = some w
  rung : (s.calls w).parked = some x → s.woken w = false →
    (s.slots (slotIndex x)).state = .ready → ∃ u, (s.calls u).rings ∧ (s.calls u).slot = slotIndex x
  locked : ∀ t id, s.calls t = .cancelLocked id true → (s.slotOf t).id = x → id = x
  foreign : ∀ t id, s.calls t = .cancelForeign id true → (s.slotOf t).id ≠ x

namespace Watched

variable {x w : ℕ} {s : Tracker} {t : ℕ} {m : Move}

lemma start : Watched x w start := ⟨nofun, nofun, nofun, nofun, nofun⟩

lemma registered_of_parked {k : Pc} (h : k.parked = some x) : k.registered = some x := by
  cases k with
  | waitLoad _ _ attempt =>
    cases attempt with
    | second => exact h
    | _ => cases h
  | waitPending => exact h
  | _ => cases h

lemma not_woken (h : (s.apply t m).woken w = false) (hact : m.act = .register → w ≠ t) :
    s.woken w = false ∧ m.act.wakes (s.slotOf t) ≠ some w := by
  have hor : (s.woken w || decide (m.act.wakes (s.slotOf t) = some w)) = false := by
    refine Eq.trans (if_neg ?_).symm h
    rintro ⟨hreg, rfl⟩
    exact hact hreg rfl
  rw [Bool.or_eq_false_iff, decide_eq_false_iff_not] at hor
  exact hor

lemma onSlot_waker {slot : Slot} (hwakes : act.wakes slot ≠ slot.waker) (hreg : act ≠ .register) :
    (act.onSlot t slot).id = slot.id ∧ (act.onSlot t slot).waker = slot.waker := by
  cases act with
  | name | wake => exact absurd rfl hwakes
  | register => exact absurd rfl hreg
  | _ => exact ⟨rfl, rfl⟩

lemma waker_apply (hs : Watched x w s) (hm : m.Wary (s.slotOf t) (s.calls t))
    (hw : ((s.apply t m).calls w).registered = some x) (hwoken : (s.apply t m).woken w = false) :
    ((s.apply t m).slots (slotIndex x)).id = x ∧
      ((s.apply t m).slots (slotIndex x)).waker = some w := by
  by_cases hwt : w = t
  · subst hwt
    rw [calls_apply_self] at hw
    obtain ⟨hact, hid, hslot⟩ | ⟨hact, hbefore⟩ := hm.registered x hw
    · rw [← hslot, slots_apply_self, hact]
      exact ⟨hid, rfl⟩
    · have hold := hs.waker hbefore (not_woken hwoken (by rw [hact]; exact nofun)).1
      by_cases hslot : slotIndex x = (s.calls w).slot
      · rw [hslot, slots_apply_self, hact]
        rw [hslot] at hold
        exact hold
      · rw [slots_apply_of_ne hslot]
        exact hold
  · rw [calls_apply_of_ne hwt] at hw
    obtain ⟨hnot, hwakes⟩ := not_woken hwoken fun _ => hwt
    have hold := hs.waker hw hnot
    by_cases hslot : slotIndex x = (s.calls t).slot
    · rw [hslot] at hold ⊢
      change (s.slotOf t).id = x ∧ (s.slotOf t).waker = some w at hold
      -- nobody else registers, since `x` has one waiter
      have hreg : m.act ≠ .register := by
        intro hact
        have hwaits := hm.register hact
        rw [hold.1] at hwaits
        exact hwt (hs.sole t hwaits).symm
      rw [slots_apply_self]
      obtain ⟨hid, hwaker⟩ := onSlot_waker (t := t) (by rw [hold.2]; exact hwakes) hreg
      rw [hid, hwaker]
      exact hold
    · rw [slots_apply_of_ne hslot]
      exact hold

lemma ready_before {i : ℕ} (h : ((s.apply t m).slots i).state = .ready) :
    (s.slots i).state = .ready ∨ i = (s.calls t).slot ∧ m.act = .unlock .ready := by
  by_cases hi : i = (s.calls t).slot
  · subst hi
    rw [slots_apply_self] at h
    obtain ⟨pc, act⟩ := m
    cases act with
    | lock | release | admitId => cases h
    | unlock state =>
      obtain rfl : state = .ready := h
      exact .inr ⟨rfl, rfl⟩
    | _ => exact .inl h
  · rw [slots_apply_of_ne hi] at h
    exact .inl h

lemma rung_apply (hs : Watched x w s) (hm : m.Wary (s.slotOf t) (s.calls t))
    (hw : ((s.apply t m).calls w).parked = some x) (hwoken : (s.apply t m).woken w = false)
    (hready : ((s.apply t m).slots (slotIndex x)).state = .ready) :
    ∃ u, ((s.apply t m).calls u).rings ∧ ((s.apply t m).calls u).slot = slotIndex x := by
  by_cases hwt : w = t
  · subst hwt
    rw [calls_apply_self] at hw
    obtain ⟨hact, hpark⟩ := hm.parked x hw
    have hnot := (not_woken hwoken (by rw [hact]; exact nofun)).1
    have hbefore : (s.slots (slotIndex x)).state = .ready := by
      obtain h | ⟨-, h⟩ := ready_before hready
      · exact h
      · exact absurd (hact.symm.trans h) nofun
    obtain hpark | ⟨hne, hslot⟩ := hpark
    · obtain ⟨u, hu, huslot⟩ := hs.rung hpark hnot hbefore
      have huw : u ≠ w := by
        rintro rfl
        exact absurd ((Pc.of_rings hu).1.symm.trans hpark) nofun
      exact ⟨u, by rw [calls_apply_of_ne huw]; exact ⟨hu, huslot⟩⟩
    · rw [slotOf, hslot] at hne
      -- it parks only after it has seen the slot not `READY`
      exact absurd hbefore hne
  · rw [calls_apply_of_ne hwt] at hw
    obtain ⟨hnot, hwakes⟩ := not_woken hwoken fun _ => hwt
    have hwaker := hs.waker (registered_of_parked hw) hnot
    obtain hbefore | ⟨hslot, hact⟩ := ready_before hready
    · obtain ⟨u, hu, huslot⟩ := hs.rung hw hnot hbefore
      by_cases hut : u = t
      · subst hut
        obtain hact | hpc := hm.rings hu
        · -- this is the wake the waiter is waiting for
          refine absurd ?_ hwakes
          rw [hact, slotOf, huslot]
          exact hwaker.2
        · exact ⟨u, by rw [calls_apply_self, hpc]; exact ⟨hu, huslot⟩⟩
      · exact ⟨u, by rw [calls_apply_of_ne hut]; exact ⟨hu, huslot⟩⟩
    · -- who makes the slot `READY` rings, or puts back what was another id's
      obtain ⟨hrings, hpc⟩ | ⟨id, hk⟩ := hm.readies hact
      · exact ⟨t, by rw [calls_apply_self]; exact ⟨hrings, hpc.trans hslot.symm⟩⟩
      · refine absurd ?_ (hs.foreign t id hk)
        rw [slotOf, ← hslot]
        exact hwaker.1

/-- **A step that is not disturbed keeps the waiter watched.** -/
theorem step (hs : Watched x w s) (hc : Correct s) (e : Event) (hu : Undisturbed x s e)
    (hwait : ∀ t timed, e = .spawn t (.wait x timed) → t = w) : Watched x w (s.step e) := by
  have hm := s.wary_move e
  have hf := hc.fair_move e
  have hid {u : ℕ} (hut : u ≠ e.call) (hhold : (s.calls u).hold ≠ none) :
      ((s.step e).slotOf u).id = (s.slotOf u).id := (hc.sound.untouched hf hut hhold).2.1
  have hnone (hact : (s.move e).act = .none) (hpc : (s.move e).pc.slot = (s.calls e.call).slot) :
      ((s.step e).slotOf e.call).id = (s.slotOf e.call).id := by
    rw [Tracker.step, Tracker.slotOf_apply_self hpc, hact]
    rfl
  refine ⟨fun t ht => ?_, hs.waker_apply hm, hs.rung_apply hm, fun t id ht hx => ?_,
    fun t id ht hx => ?_⟩
  · by_cases hte : t = e.call
    · subst hte
      rw [Tracker.step, Tracker.calls_apply_self] at ht
      -- a wait for `x` that begins is that of `w`
      obtain hold | hidle := hm.waits x ht
      · exact hs.sole _ hold
      · cases e with
        | spawn t c =>
          change ((s.calls t).spawn c).waitsFor = some x at ht
          rw [show s.calls t = .idle from hidle] at ht
          cases c with
          | wait id timed =>
            obtain rfl : id = x := Option.some.inj ht
            exact hwait t timed rfl
          | _ => cases ht
        | advance t | poll t | timeout t =>
          rw [move, show s.calls t = .idle from hidle] at ht
          cases ht
    · rw [Tracker.step, Tracker.calls_apply_of_ne hte] at ht
      exact hs.sole t ht
  · by_cases hte : t = e.call
    · subst hte
      rw [Tracker.step, Tracker.calls_apply_self] at ht
      obtain ⟨hk, hact⟩ | ⟨hk, hact⟩ := hm.locked id ht
      · -- the slot was `READY` when the cancel took it
        have hslot : ((s.step e).slotOf e.call).id = (s.slotOf e.call).id := by
          rw [Tracker.step, Tracker.slotOf_apply_self (by rw [ht, hk]; rfl), hact]
          rfl
        cases e with
        | advance t =>
          change s.calls t = _ at hk
          have hcond : (s.slotOf t).state = .ready → (s.slotOf t).id = x → id = x := by
            have hund : (s.calls t).undisturbed x (s.slotOf t) = true := hu
            rw [hk] at hund
            exact of_decide_eq_true hund
          refine hcond ?_ (hslot.symm.trans hx)
          have hmove : ((s.calls t).advance s.nextId (s.slotOf t)).act = .lock := hact
          rw [hk] at hmove
          simp only [Pc.advance] at hmove
          split at hmove
          · assumption
          · cases hmove
        | _ => cases hact
      · rw [hnone hact (by rw [hk])] at hx
        exact hs.locked _ id (hk.symm.trans ht) hx
    · rw [Tracker.step, Tracker.calls_apply_of_ne hte] at ht
      rw [hid hte (by simp [ht, Pc.hold])] at hx
      exact hs.locked t id ht hx
  · by_cases hte : t = e.call
    · subst hte
      rw [Tracker.step, Tracker.calls_apply_self] at ht
      obtain ⟨hk, hne, hact⟩ | ⟨hk, hact⟩ := hm.foreign id ht
      · rw [hnone hact (by rw [ht, hk]; rfl)] at hx
        exact hne (hx.trans (hs.locked _ id hk hx).symm)
      · rw [hnone hact (by rw [hk])] at hx
        exact hs.foreign _ id (hk.symm.trans ht) hx
    · rw [Tracker.step, Tracker.calls_apply_of_ne hte] at ht
      rw [hid hte (by simp [ht, Pc.hold])] at hx
      exact hs.foreign t id ht hx

end Watched

/-- The waiter of `x` has its reply in the slot and nothing will tell it. -/
def Stranded (x w : ℕ) (s : Tracker) : Prop :=
  (s.slots (slotIndex x)).state = .ready ∧ (∃ timed, s.calls w = .waitPending x timed) ∧
    s.woken w = false ∧ ∀ u, (s.calls u).atRest

lemma Watched.not_stranded {x w : ℕ} {s : Tracker} (hs : Watched x w s) : ¬ Stranded x w s := by
  rintro ⟨hready, ⟨timed, hw⟩, hwoken, hrest⟩
  obtain ⟨u, hrings, -⟩ := hs.rung (by rw [hw]; rfl) hwoken hready
  exact absurd ((Pc.of_rings hrings).2.symm.trans (hrest u)) nofun

/-- **Stale operations are invisible when they keep out of the way.**  In a run
whose steps are undisturbed, a completion with a response that finds `x` pending
returns `true` if it returns, and the one waiter of `x` is never left behind. -/
theorem Tracker.stale_operations_invisible (x w : ℕ) (es : List Event)
    (hwait : ∀ t timed, .spawn t (.wait x timed) ∈ es → t = w)
    (hmeets : Run.Meets Tracker.step (Undisturbed x) Tracker.start es) :
    (∀ before t after, es = before ++ .advance t :: after →
      (Run.exec Tracker.step Tracker.start before).calls t = .completing x true →
      Pending x (Run.exec Tracker.step Tracker.start before) →
      ∀ result, (Run.exec Tracker.step Tracker.start es).calls t = .completed result →
        result = true) ∧
      ¬ Stranded x w (Run.exec Tracker.step Tracker.start es) := by
  constructor
  · rintro before t after rfl hk hp result hres
    have hs := correct before
    have hund := (meets_append.mp hmeets).2.1
    have hfree : ((exec step start before).slotOf t).state ≠ .writing := by
      change ((exec step start before).calls t).undisturbed x _ = true at hund
      rw [hk] at hund
      exact of_decide_eq_true hund rfl
    -- the completion holds its own slot, and goes on to the end
    have hwin : Correct (exec step start (before ++ .advance t :: after)) ∧
        Winning x t (exec step start (before ++ .advance t :: after)) := by
      rw [exec_append, exec_cons]
      exact exec_invariant (P := fun s => Correct s ∧ Winning x t s)
        (fun s e h => ⟨h.1.step e, h.2.step h.1 e⟩) ⟨hs.step _, hs.winning hp hk hfree⟩ after
    obtain ⟨h, -⟩ | h | h | h | h := hwin.2
    · exact absurd (hres.symm.trans h) nofun
    · exact absurd (hres.symm.trans h) nofun
    · exact absurd (hres.symm.trans h) nofun
    · exact absurd (hres.symm.trans h) nofun
    · exact Pc.completed.inj (hres.symm.trans h)
  · have hspawn : Meets step
        (fun _ e => ∀ t timed, e = .spawn t (.wait x timed) → t = w) start es :=
      meets_of_forall_mem (by rintro _ e he t timed rfl; exact hwait t timed he) _
    have hall := exec_invariant_of_meets (P := fun s => Correct s ∧ Watched x w s)
      (fun s e hs he => ⟨hs.1.step e, hs.2.step hs.1 e he.1 he.2⟩)
      ⟨Correct.start, Watched.start⟩ (hmeets.and hspawn)
    exact hall.2.not_stranded

/-- `n` steps of one call. -/
def advances (t n : ℕ) : List Event := List.replicate n (.advance t)

/-- Id 1 is allocated, its waiter parks, a completion for id 8193 comes and goes, and
then the reply comes. -/
def answered : List Event :=
  .spawn 0 .allocate :: advances 0 4 ++ .spawn 1 (.wait 1 true) :: advances 1 5 ++
    .spawn 3 (.complete 8193 true) :: advances 3 4 ++ .spawn 2 (.complete 1 true) :: advances 2 6

theorem stale_operations_invisible_answered :
    (Run.exec Tracker.step Tracker.start answered).calls 3 = .completed false ∧
      (Run.exec Tracker.step Tracker.start answered).calls 2 = .completed true ∧
      ¬ Stranded 1 1 (Run.exec Tracker.step Tracker.start answered) := by
  have hwait : ∀ t timed, Event.spawn t (.wait 1 timed) ∈ answered → t = 1 := by
    intro t timed h
    simp [answered, advances] at h
    exact h.1
  have hmeets : Meets step (Undisturbed 1) start answered := by
    decide +kernel
  exact ⟨by decide +kernel, by decide +kernel,
    (stale_operations_invisible 1 1 answered hwait hmeets).2⟩

lemma calls_eq_idle {es : List Event} {u : ℕ} (h : ∀ e ∈ es, e.call ≠ u) :
    (exec step start es).calls u = .idle :=
  exec_invariant_of_meets (P := fun s : Tracker => s.calls u = .idle)
    (fun _ _ hs he => (calls_apply_of_ne (Ne.symm he)).trans hs) rfl
    (meets_of_forall_mem (C := fun _ e => e.call ≠ u) (fun _ e he => h e he) _)

/-- Id 1 is allocated; a completion for id 8193 has its slot in `WRITING`. -/
def besideStaleCompletion : List Event :=
  .spawn 0 .allocate :: advances 0 4 ++ .spawn 1 (.complete 8193 true) :: advances 1 1 ++
    [.spawn 2 (.complete 1 true)]

/-- The reply of id 1 is there; a `cancel` for id 8193 takes the slot from `READY`,
the waiter registers again, and the `cancel` puts `READY` back. -/
def besideStaleCancel : List Event :=
  answered ++ .spawn 4 (.cancel 8193) :: advances 4 2 ++ .poll 1 :: advances 1 5 ++ advances 4 2

/-- **A stale completion makes the reply of the current request fail, and a stale
`cancel` leaves its waiter behind.** -/
theorem reply_lost_beside_stale_operations :
    (Pending 1 (Run.exec Tracker.step Tracker.start besideStaleCompletion) ∧
      (Run.exec Tracker.step Tracker.start besideStaleCompletion).calls 2 = .completing 1 true ∧
      (Run.exec Tracker.step Tracker.start (besideStaleCompletion ++ [.advance 2])).calls 2 =
        .completed false) ∧
      Stranded 1 1 (Run.exec Tracker.step Tracker.start besideStaleCancel) := by
  have hlog : (exec step start besideStaleCompletion).log = [.allocated 1] := by
    decide +kernel
  refine ⟨⟨⟨?_, ?_⟩, by decide +kernel, by decide +kernel⟩, by decide +kernel,
    ⟨true, by decide +kernel⟩, by decide +kernel, fun u => ?_⟩
  · rw [hlog]
    exact .inl rfl
  · rintro o - ⟨hwrit, -⟩
    rw [hlog] at hwrit
    cases hwrit with
    | tail _ h => cases h
  · by_cases hu : u < 5
    · have hall : ∀ v < 5, ((exec step start besideStaleCancel).calls v).atRest
          = true := by decide +kernel
      exact hall u hu
    · have hnot : ∀ e ∈ besideStaleCancel, e.call ≠ u := by
        have hcalls : ∀ e ∈ besideStaleCancel, e.call < 5 := by decide
        intro e he heq
        exact hu (heq ▸ hcalls e he)
      rw [calls_eq_idle hnot]
      rfl

end Correlation

end IcanactRemote
