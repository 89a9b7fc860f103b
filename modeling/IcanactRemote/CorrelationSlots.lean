/-
The slots of a `CorrelationTracker`.

An ask draws an id and takes the slot the id falls on; a reply completes the slot,
the waiter takes the outcome out of it.  Ids of many asks fall on one slot, and
every operation moves the slot to `WRITING` before it looks whose slot it is.
Each atomic operation is a step here, and any number of operations take their
steps in any order.

* `Pc.advance` — the steps of each operation;
* `Move.Fair` — what a step may do to the slot: only who holds it changes it;
* `Pc.fair_advance` — every step of every call is fair.
-/
import IcanactRemote.Run

namespace IcanactRemote

namespace Correlation

def pendingResponsesSize : ℕ := 8192

def slotIndex (id : ℕ) : ℕ := id % pendingResponsesSize

inductive SlotState
  | empty
  | waiting
  | writing
  | ready
  deriving DecidableEq, Repr

/-- An outcome, by the completion call that brings it and the id it is for. -/
structure Outcome where
  call : ℕ
  id : ℕ
  deriving DecidableEq, Repr

structure Slot where
  state : SlotState
  id : ℕ
  response : Option Outcome
  waker : Option ℕ
  deriving DecidableEq, Repr

/-- Which of the attempts of a wait to take the outcome this is. -/
inductive Attempt
  | first
  /-- after the waker is registered -/
  | second
  /-- after the timeout -/
  | late
  deriving DecidableEq, Repr

/-- Before which atomic operation a call is.  The critical sections of
`register_lock` are one step each. -/
inductive Pc
  | idle
  -- `allocate`
  | drawing (tries : ℕ)
  | drew (id tries : ℕ)
  | allocLocked (id : ℕ)
  | allocNamed (id : ℕ)
  | allocated (id : ℕ)
  -- `complete`, `complete_attributed`, `complete_nack`
  | completing (id : ℕ) (present : Bool)
  | compLocked (id : ℕ) (present : Bool)
  | compForeign (id : ℕ)
  | compVoid (id : ℕ)
  | compVoidWake (id : ℕ)
  | compWrite (id : ℕ)
  | compReady (id : ℕ)
  | compWake (id : ℕ)
  | completed (result : Bool)
  -- `cancel`, `SlotGuard::drop`
  | cancelling (id : ℕ)
  | cancelSaw (id : ℕ) (isReady : Bool)
  | cancelLocked (id : ℕ) (isReady : Bool)
  | cancelForeign (id : ℕ) (isReady : Bool)
  | cancelDrop (id : ℕ)
  | cancelEmpty (id : ℕ)
  | cancelWake (id : ℕ)
  -- `cancel_all`, at one slot after the other
  | allLoading (i : ℕ)
  | allSaw (i : ℕ) (isReady : Bool)
  | allDrop (i : ℕ)
  | allEmpty (i : ℕ)
  | allWake (i : ℕ)
  -- `wait_for_response` and its variants; `timed` while a timeout can still come
  | taking (id : ℕ) (timed : Bool) (attempt : Attempt)
  | takeLocked (id : ℕ)
  | takeForeign (id : ℕ)
  | takeForeignWake (id : ℕ)
  | takeRead (id : ℕ)
  | takeEmpty (id : ℕ)
  | waitLoad (id : ℕ) (timed : Bool) (attempt : Attempt)
  | waitRegister (id : ℕ) (timed : Bool)
  | waitPending (id : ℕ) (timed : Bool)
  | timeoutCas (id : ℕ)
  | timeoutLocked (id : ℕ)
  | timeoutForeign (id : ℕ)
  | timeoutEmpty (id : ℕ)
  | finished
  deriving DecidableEq, Repr

/-- What a step does to the slot. -/
inductive Act
  | none
  /-- `fetch_add` on the counter -/
  | draw
  /-- a compare-exchange to `WRITING` that succeeds -/
  | lock
  /-- a store of the state -/
  | unlock (state : SlotState)
  /-- the compare-exchange of `cancel_all` from `WAITING` to `EMPTY` -/
  | release
  /-- `allocate` wakes the waker and stores the id -/
  | name (id : ℕ)
  /-- `allocate` stores `WAITING` -/
  | admitId (id : ℕ)
  | put (id : ℕ)
  | take (id : ℕ)
  | discard (onBehalf : Option ℕ)
  | register
  | wake
  deriving DecidableEq, Repr

structure Move where
  pc : Pc
  act : Act := .none

/-- The state a compare-exchange of `cancel` expects. -/
def sawState (isReady : Bool) : SlotState := if isReady then .ready else .waiting

namespace Pc

def slot : Pc → ℕ
  | .idle | .drawing _ | .finished | .completed _ => 0
  | .drew id _ | .allocLocked id | .allocNamed id | .allocated id | .completing id _
  | .compLocked id _ | .compForeign id | .compVoid id | .compVoidWake id | .compWrite id
  | .compReady id | .compWake id | .cancelling id | .cancelSaw id _ | .cancelLocked id _
  | .cancelForeign id _ | .cancelDrop id | .cancelEmpty id | .cancelWake id | .taking id _ _
  | .takeLocked id | .takeForeign id | .takeForeignWake id | .takeRead id | .takeEmpty id
  | .waitLoad id _ _ | .waitRegister id _ | .waitPending id _ | .timeoutCas id | .timeoutLocked id
  | .timeoutForeign id | .timeoutEmpty id => slotIndex id
  | .allLoading i | .allSaw i _ | .allDrop i | .allEmpty i | .allWake i => i

/-- `cancel_all` goes on to the next slot. -/
def nextSlot (i : ℕ) : Pc :=
  if i + 1 < pendingResponsesSize then .allLoading (i + 1) else .finished

/-- The next atomic operation of the call. -/
def advance (nextId : ℕ) (slot : Slot) : Pc → Move
  | .drawing 0 => { pc := .finished }
  | .drawing (tries + 1) =>
    let id := nextId % 2 ^ 32
    { pc := if id = 0 then .drawing tries else .drew id tries, act := .draw }
  | .drew id tries =>
    if slot.state = .empty then { pc := .allocLocked id, act := .lock }
    else { pc := .drawing tries }
  | .allocLocked id => { pc := .allocNamed id, act := .name id }
  | .allocNamed id => { pc := .allocated id, act := .admitId id }
  | .completing id present =>
    if slot.state = .waiting then { pc := .compLocked id present, act := .lock }
    else { pc := .completed false }
  | .compLocked id present =>
    if slot.id ≠ id then { pc := .compForeign id }
    else if present then { pc := .compWrite id }
    else { pc := .compVoid id }
  | .compForeign _ => { pc := .completed false, act := .unlock .waiting }
  | .compVoid id => { pc := .compVoidWake id, act := .unlock .empty }
  | .compVoidWake _ => { pc := .completed false, act := .wake }
  | .compWrite id => { pc := .compReady id, act := .put id }
  | .compReady id => { pc := .compWake id, act := .unlock .ready }
  | .compWake _ => { pc := .completed true, act := .wake }
  | .cancelling id =>
    match slot.state with
    | .waiting => { pc := .cancelSaw id false }
    | .ready => { pc := .cancelSaw id true }
    | .writing => { pc := .cancelling id }
    | .empty => { pc := .finished }
  | .cancelSaw id isReady =>
    if slot.state = sawState isReady then { pc := .cancelLocked id isReady, act := .lock }
    else { pc := .cancelling id }
  | .cancelLocked id isReady =>
    if slot.id ≠ id then { pc := .cancelForeign id isReady }
    else if isReady then { pc := .cancelDrop id }
    else { pc := .cancelEmpty id }
  | .cancelForeign _ isReady => { pc := .finished, act := .unlock (sawState isReady) }
  | .cancelDrop id => { pc := .cancelEmpty id, act := .discard (some id) }
  | .cancelEmpty id => { pc := .cancelWake id, act := .unlock .empty }
  | .cancelWake _ => { pc := .finished, act := .wake }
  | .allLoading i =>
    match slot.state with
    | .waiting => { pc := .allSaw i false }
    | .ready => { pc := .allSaw i true }
    | .writing => { pc := .allLoading i }
    | .empty => { pc := nextSlot i }
  | .allSaw i isReady =>
    if slot.state ≠ sawState isReady then { pc := .allLoading i }
    else if isReady then { pc := .allDrop i, act := .lock }
    else { pc := .allWake i, act := .release }
  | .allDrop i => { pc := .allEmpty i, act := .discard none }
  | .allEmpty i => { pc := .allWake i, act := .unlock .empty }
  | .allWake i => { pc := nextSlot i, act := .wake }
  | .taking id timed attempt =>
    if slot.state = .ready then { pc := .takeLocked id, act := .lock }
    else { pc := .waitLoad id timed attempt }
  | .takeLocked id => if slot.id ≠ id then { pc := .takeForeign id } else { pc := .takeRead id }
  | .takeForeign id => { pc := .takeForeignWake id, act := .unlock .ready }
  | .takeForeignWake _ => { pc := .finished, act := .wake }
  | .takeRead id => { pc := .takeEmpty id, act := .take id }
  | .takeEmpty _ => { pc := .finished, act := .unlock .empty }
  | .waitLoad id timed attempt =>
    if slot.state = .empty then { pc := .finished }
    else
      match attempt with
      | .first => { pc := .waitRegister id timed }
      | .second => { pc := .waitPending id timed }
      -- another operation is at work: `wait_for_response_no_timeout`
      | .late => { pc := if slot.state = .writing then .taking id false .first else .finished }
  | .waitRegister id timed =>
    if slot.id ≠ id then { pc := .finished }
    else { pc := .taking id timed .second, act := .register }
  | .timeoutCas id =>
    if slot.state = .waiting then { pc := .timeoutLocked id, act := .lock }
    else { pc := .taking id true .late }
  | .timeoutLocked id =>
    if slot.id ≠ id then { pc := .timeoutForeign id } else { pc := .timeoutEmpty id }
  | .timeoutForeign id => { pc := .taking id true .late, act := .unlock .waiting }
  | .timeoutEmpty _ => { pc := .finished, act := .unlock .empty }
  | pc => { pc }

/-- The call has its slot in `WRITING`; whether there is an outcome in it then. -/
def hold : Pc → Option Bool
  | .allocLocked _ | .allocNamed _ | .compLocked _ _ | .compForeign _ | .compVoid _
  | .compWrite _ | .cancelEmpty _ | .allEmpty _ | .takeEmpty _ | .timeoutLocked _
  | .timeoutForeign _ | .timeoutEmpty _ => some false
  | .compReady _ | .cancelDrop _ | .allDrop _ | .takeLocked _ | .takeForeign _
  | .takeRead _ => some true
  | .cancelLocked _ isReady | .cancelForeign _ isReady => some isReady
  | _ => none

/-- The holder took an empty slot and has not opened it yet. -/
def fresh : Pc → Bool
  | .allocLocked _ | .allocNamed _ => true
  | _ => false

/-- The holder has seen that the slot is of this id. -/
def knows : Pc → Option ℕ
  | .allocNamed id | .compVoid id | .compWrite id | .compReady id | .cancelDrop id
  | .cancelEmpty id | .takeRead id | .takeEmpty id | .timeoutEmpty id => some id
  | _ => none

end Pc

/-! ### What a step may do -/

/-- The step is allowed to the call: it changes the slot only while it holds it. -/
def Move.Fair (slot : Slot) (k : Pc) (m : Move) : Prop :=
  match m.act with
  | .none | .draw | .register | .wake =>
    m.pc.hold = k.hold ∧ m.pc.fresh = k.fresh ∧ (m.pc.hold ≠ none → m.pc.slot = k.slot) ∧
      ∀ id, m.pc.knows = some id → slot.id = id ∧ m.pc.slot = slotIndex id ∧ m.pc.hold ≠ none
  | .lock =>
    k.hold = none ∧ slot.state ≠ .writing ∧ m.pc.hold = some (decide (slot.state = .ready)) ∧
      m.pc.fresh = decide (slot.state = .empty) ∧ m.pc.slot = k.slot ∧ m.pc.knows = none
  | .unlock state =>
    k.hold = some (decide (state = .ready)) ∧ k.fresh = false ∧ state ≠ .writing ∧
      m.pc.hold = none ∧ m.pc.knows = none
  | .release =>
    k.hold = none ∧ slot.state = .waiting ∧ m.pc.hold = none ∧ m.pc.knows = none
  | .name id =>
    k = .allocLocked id ∧ m.pc = .allocNamed id
  | .admitId id =>
    k = .allocNamed id ∧ m.pc = .allocated id
  | .put id =>
    k = .compWrite id ∧ m.pc = .compReady id
  | .take id =>
    k = .takeRead id ∧ m.pc = .takeEmpty id
  | .discard onBehalf =>
    k.hold = some true ∧ k.fresh = false ∧ m.pc.hold = some false ∧ m.pc.fresh = false ∧
      m.pc.slot = k.slot ∧ k.knows = onBehalf ∧ m.pc.knows = onBehalf

lemma fresh_of_free {k : Pc} (h : k.hold = none) : k.fresh = false := by
  cases k with
  | allocLocked | allocNamed => cases h
  | _ => rfl

variable {slot : Slot} {k k' : Pc}

lemma Move.fair_of_free {k : Pc} {m : Move}
    (hact : m.act = .none ∨ m.act = .draw ∨ m.act = .register ∨ m.act = .wake)
    (hk : k.hold = none) (hm : m.pc.hold = none) (hknows : m.pc.knows = none) : m.Fair slot k := by
  have hfree : m.pc.hold = k.hold ∧ m.pc.fresh = k.fresh ∧ (m.pc.hold ≠ none → m.pc.slot = k.slot) ∧
      ∀ id, m.pc.knows = some id → slot.id = id ∧ m.pc.slot = slotIndex id ∧ m.pc.hold ≠ none := by
    refine ⟨hm.trans hk.symm, (fresh_of_free hm).trans (fresh_of_free hk).symm,
      fun h => absurd hm h, fun id h => ?_⟩
    rw [hknows] at h
    cases h
  unfold Move.Fair
  obtain hact | hact | hact | hact := hact
  · rw [hact]
    exact hfree
  · rw [hact]
    exact hfree
  · rw [hact]
    exact hfree
  · rw [hact]
    exact hfree

lemma hold_nextSlot {i : ℕ} : (Pc.nextSlot i).hold = none ∧ (Pc.nextSlot i).knows = none := by
  unfold Pc.nextSlot
  split <;> exact ⟨rfl, rfl⟩

section

variable (hhold : k'.hold = k.hold) (hfresh : k'.fresh = k.fresh) (hslot : k'.slot = k.slot)
include hhold hfresh hslot

lemma Move.fair_of_look
    (hknows : ∀ id, k'.knows = some id → slot.id = id ∧ k'.slot = slotIndex id ∧ k'.hold ≠ none) :
    Move.Fair slot k { pc := k' } := ⟨hhold, hfresh, fun _ => hslot, hknows⟩

lemma Move.fair_of_seen {id : ℕ} (hidx : k'.slot = slotIndex id) (hknows : k'.knows = some id)
    (hheld : k'.hold ≠ none) (hid : slot.id = id) : Move.Fair slot k { pc := k' } := by
  refine fair_of_look hhold hfresh hslot fun other hoth => ?_
  obtain rfl : id = other := Option.some.inj (hknows.symm.trans hoth)
  exact ⟨hid, hidx, hheld⟩

end

lemma Move.fair_of_lock {state : SlotState} (hsaw : slot.state = state) (hst : state ≠ .writing)
    (hk : k.hold = none) (hhold : k'.hold = some (decide (state = .ready)))
    (hfresh : k'.fresh = decide (state = .empty)) (hslot : k'.slot = k.slot)
    (hknows : k'.knows = none) : Move.Fair slot k { pc := k', act := .lock } := by
  subst hsaw
  exact ⟨hk, hst, hhold, hfresh, hslot, hknows⟩

open Move in
/-- **Every step of a call is fair.** -/
theorem Pc.fair_advance (nextId : ℕ) (slot : Slot) (k : Pc) :
    (k.advance nextId slot).Fair slot k := by
  cases k with
  | idle | allocated | completed | waitPending | finished =>
    exact fair_of_free (.inl rfl) rfl rfl rfl
  | drawing tries =>
    cases tries with
    | zero => exact fair_of_free (.inl rfl) rfl rfl rfl
    | succ =>
      simp only [Pc.advance]
      split <;> exact fair_of_free (.inr (.inl rfl)) rfl rfl rfl
  | drew =>
    simp only [Pc.advance]
    split
    next hemp =>
      exact fair_of_lock hemp (by decide) rfl rfl rfl rfl rfl
    · exact fair_of_free (.inl rfl) rfl rfl rfl
  | allocLocked | allocNamed | compWrite | takeRead => exact ⟨rfl, rfl⟩
  | completing | timeoutCas =>
    simp only [Pc.advance]
    split
    next hwait =>
      exact fair_of_lock hwait (by decide) rfl rfl rfl rfl rfl
    · exact fair_of_free (.inl rfl) rfl rfl rfl
  | compLocked _ present =>
    simp only [Pc.advance]
    split
    · exact fair_of_look rfl rfl rfl nofun
    next hid =>
      cases present with
      | true | false => exact fair_of_seen rfl rfl rfl rfl rfl nofun (not_not.mp hid)
  | compForeign | compVoid | compReady | cancelEmpty | allEmpty | takeForeign | takeEmpty
  | timeoutForeign | timeoutEmpty => exact ⟨rfl, rfl, by decide, rfl, rfl⟩
  | compVoidWake | compWake | cancelWake | takeForeignWake =>
    exact fair_of_free (.inr (.inr (.inr rfl))) rfl rfl rfl
  | cancelling =>
    simp only [Pc.advance]
    cases slot.state with
    | waiting | ready | writing | empty => exact fair_of_free (.inl rfl) rfl rfl rfl
  | cancelSaw _ isReady =>
    simp only [Pc.advance]
    split
    next hsaw =>
      cases isReady with
      | true | false => exact fair_of_lock hsaw (by decide) rfl rfl rfl rfl rfl
    · exact fair_of_free (.inl rfl) rfl rfl rfl
  | cancelLocked _ isReady =>
    simp only [Pc.advance]
    split
    · exact fair_of_look rfl rfl rfl nofun
    next hid =>
      -- the id is the own one: the slot goes on in hand
      cases isReady with
      | true | false => exact fair_of_seen rfl rfl rfl rfl rfl nofun (not_not.mp hid)
  | cancelForeign _ isReady =>
    cases isReady with
    | true | false => exact ⟨rfl, rfl, by decide, rfl, rfl⟩
  | cancelDrop | allDrop => exact ⟨rfl, rfl, rfl, rfl, rfl, rfl, rfl⟩
  | allLoading i =>
    simp only [Pc.advance]
    cases slot.state with
    | waiting | ready | writing => exact fair_of_free (.inl rfl) rfl rfl rfl
    | empty => exact fair_of_free (.inl rfl) rfl hold_nextSlot.1 hold_nextSlot.2
  | allSaw i isReady =>
    simp only [Pc.advance]
    split
    · exact fair_of_free (.inl rfl) rfl rfl rfl
    next hsaw =>
      have hst : slot.state = sawState isReady := not_not.mp hsaw
      cases isReady with
      | true => exact fair_of_lock hst (by decide) rfl rfl rfl rfl rfl
      | false => exact ⟨rfl, hst, rfl, rfl⟩
  | allWake i =>
    exact fair_of_free (.inr (.inr (.inr rfl))) rfl hold_nextSlot.1 hold_nextSlot.2
  | taking =>
    simp only [Pc.advance]
    split
    next hready =>
      exact fair_of_lock hready (by decide) rfl rfl rfl rfl rfl
    · exact fair_of_free (.inl rfl) rfl rfl rfl
  | takeLocked | timeoutLocked =>
    simp only [Pc.advance]
    split
    · exact fair_of_look rfl rfl rfl nofun
    next hid =>
      exact fair_of_seen rfl rfl rfl rfl rfl nofun (not_not.mp hid)
  | waitLoad _ _ attempt =>
    simp only [Pc.advance]
    split
    · exact fair_of_free (.inl rfl) rfl rfl rfl
    · cases attempt with
      | first | second => exact fair_of_free (.inl rfl) rfl rfl rfl
      | late =>
        simp only
        split <;> exact fair_of_free (.inl rfl) rfl rfl rfl
  | waitRegister =>
    simp only [Pc.advance]
    split
    · exact fair_of_free (.inl rfl) rfl rfl rfl
    · exact fair_of_free (.inr (.inr (.inl rfl))) rfl rfl rfl

end Correlation

end IcanactRemote
