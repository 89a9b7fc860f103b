/-
A reply is delivered only to its own request.

The tracker keeps a history of what its slots went through, the newest entry
first: which ids were given out, which slots were given back, and which outcomes
were written, read and dropped on whose behalf.  The claims about replies are
about that history.

* `Valid` — what the entries of a history may be, each after the earlier ones;
* `Sound` — a slot in `WRITING` has one holder, which knows what is in it;
* `Flights` — the request in flight on a slot is the one the slot names;
* `Kept` — an outcome is in its slot until it is read or dropped, once;
* `Drawn` — ids are not given out twice before the counter wraps;
* `Tracker.own_reply_only` — all of it at every point of every run.
-/
import IcanactRemote.CorrelationSlots

namespace IcanactRemote

open List Option Function

namespace Correlation

/-! ### The history -/

inductive Entry
  /-- `allocate` has opened its slot -/
  | allocated (id : ℕ)
  /-- the slot of the request is `EMPTY` again -/
  | freed (id : ℕ)
  /-- an outcome is written over what was there -/
  | written (o : Outcome) (old : Option Outcome)
  /-- a wait for the id reads -/
  | returned (id : ℕ) (read : Option Outcome)
  /-- `assume_init_drop` by an operation for an id, or by `cancel_all` -/
  | dropped (onBehalf : Option ℕ) (read : Option Outcome)
  deriving DecidableEq, Repr

def Entry.taken : Entry → Option Outcome
  | .returned _ read | .dropped _ read => read
  | _ => none

def Entry.allocatedId : Entry → Option ℕ
  | .allocated id => some id
  | _ => none

/-- The request was allocated and its slot not given back since. -/
def InFlight (id : ℕ) : List Entry → Prop
  | [] => False
  | .allocated x :: earlier => x = id ∨ InFlight id earlier
  | .freed x :: earlier => x ≠ id ∧ InFlight id earlier
  | _ :: earlier => InFlight id earlier

/-- The outcome was written and nobody has read or dropped it. -/
def Untaken (o : Outcome) (log : List Entry) : Prop :=
  .written o none ∈ log ∧ ∀ e ∈ log, e.taken ≠ some o

/-- What an entry may be after the earlier ones. -/
def Entry.Valid (earlier : List Entry) : Entry → Prop
  | .allocated id => id ≠ 0 ∧ ¬ InFlight id earlier
  | .freed id => InFlight id earlier
  | .written o old => old = none ∧ InFlight o.id earlier
  | .returned id read => ∃ o, read = some o ∧ o.id = id ∧ Untaken o earlier
  | .dropped onBehalf read =>
    ∃ o, read = some o ∧ (∀ id, onBehalf = some id → o.id = id) ∧ Untaken o earlier

def Valid : List Entry → Prop
  | [] => True
  | e :: earlier => e.Valid earlier ∧ Valid earlier

/-! ### The tracker -/

namespace Act

def onSlot (t : ℕ) (slot : Slot) : Act → Slot
  | .lock => { slot with state := .writing }
  | .unlock state => { slot with state }
  | .release => { slot with state := .empty }
  | .name id => { slot with id, waker := Option.none }
  | .admitId _ => { slot with state := .waiting }
  | .put id => { slot with response := some ⟨t, id⟩ }
  | .take _ | .discard _ => { slot with response := Option.none }
  | .register => { slot with waker := some t }
  | .wake => { slot with waker := Option.none }
  | .none | .draw => slot

def entries (t : ℕ) (slot : Slot) : Act → List Entry
  | .admitId id => [.allocated id]
  | .unlock .empty | .release => [.freed slot.id]
  | .put id => [.written ⟨t, id⟩ slot.response]
  | .take id => [.returned id slot.response]
  | .discard onBehalf => [.dropped onBehalf slot.response]
  | _ => []

/-- Whom the step wakes. -/
def wakes (slot : Slot) : Act → Option ℕ
  | .name _ | .wake => slot.waker
  | _ => Option.none

/-- The step leaves the state, the id and the outcome of the slot. -/
def quiet : Act → Bool
  | .none | .draw | .register | .wake => true
  | _ => false

/-- The step leaves the state and the id of the slot. -/
def calm : Act → Bool
  | .put _ | .take _ | .discard _ => true
  | act => act.quiet

end Act

structure Tracker where
  nextId : ℕ
  slots : ℕ → Slot
  calls : ℕ → Pc
  /-- the waiter was woken since it last registered -/
  woken : ℕ → Bool
  log : List Entry

open Tracker

/-- The calls a user of the tracker makes; `SlotGuard::drop` and a wait with a
zero timeout are `cancel`. -/
inductive Call
  | allocate
  | complete (id : ℕ) (present : Bool)
  | cancel (id : ℕ)
  | cancelAll
  | wait (id : ℕ) (timed : Bool)
  deriving DecidableEq, Repr

def Call.start : Call → Pc
  | .allocate => .drawing pendingResponsesSize
  | .complete id present => .completing id present
  | .cancel id => .cancelling id
  | .cancelAll => .allLoading 0
  | .wait id timed => .taking id timed .first

inductive Event
  | spawn (t : ℕ) (c : Call)
  | advance (t : ℕ)
  /-- a wait that has returned `Pending` is polled again -/
  | poll (t : ℕ)
  | timeout (t : ℕ)
  deriving DecidableEq, Repr

def Event.call : Event → ℕ
  | .spawn t _ | .advance t | .poll t | .timeout t => t

namespace Pc

def spawn (c : Call) : Pc → Pc
  | .idle => c.start
  | k => k

def poll : Pc → Pc
  | .waitPending id timed => .taking id timed .first
  | k => k

def timeout : Pc → Pc
  | .waitPending id true => .timeoutCas id
  | k => k

end Pc

variable {u : ℕ} {slot : Slot} {id : ℕ} (nextId : ℕ) {act : Act} {k : Pc}

namespace Tracker

def start : Tracker :=
  { nextId := 1
    slots := fun _ => ⟨.empty, 0, none, none⟩
    calls := fun _ => .idle
    woken := fun _ => false
    log := [] }

/-- The slot the call works on. -/
def slotOf (s : Tracker) (t : ℕ) : Slot := s.slots (s.calls t).slot

def apply (s : Tracker) (t : ℕ) (m : Move) : Tracker where
  nextId := if m.act = .draw then s.nextId + 1 else s.nextId
  slots := update s.slots (s.calls t).slot (m.act.onSlot t (s.slotOf t))
  calls := update s.calls t m.pc
  woken u :=
    if m.act = .register ∧ u = t then false
    else s.woken u || decide (m.act.wakes (s.slotOf t) = some u)
  log := m.act.entries t (s.slotOf t) ++ s.log

def move (s : Tracker) : Event → Move
  | .spawn t c => { pc := (s.calls t).spawn c }
  | .advance t => (s.calls t).advance s.nextId (s.slotOf t)
  | .poll t => { pc := (s.calls t).poll }
  | .timeout t => { pc := (s.calls t).timeout }

def step (s : Tracker) (e : Event) : Tracker := s.apply e.call (s.move e)

section Apply

variable {s : Tracker} {t : ℕ} {m : Move}

@[simp] lemma calls_apply_self : (s.apply t m).calls t = m.pc := update_self ..

lemma calls_apply_of_ne (h : u ≠ t) : (s.apply t m).calls u = s.calls u :=
  update_of_ne h ..

@[simp] lemma slots_apply_self :
    (s.apply t m).slots (s.calls t).slot = m.act.onSlot t (s.slotOf t) := update_self ..

lemma slots_apply_of_ne {i : ℕ} (h : i ≠ (s.calls t).slot) :
    (s.apply t m).slots i = s.slots i := update_of_ne h ..

lemma slotOf_apply_of_ne (h : u ≠ t) :
    (s.apply t m).slotOf u = (s.apply t m).slots (s.calls u).slot := by
  rw [slotOf, calls_apply_of_ne h]

lemma slotOf_apply_self (h : m.pc.slot = (s.calls t).slot) :
    (s.apply t m).slotOf t = m.act.onSlot t (s.slotOf t) := by
  rw [slotOf, calls_apply_self, h, slots_apply_self]

lemma calm_slots (h : m.act.calm) (i : ℕ) : ((s.apply t m).slots i).state = (s.slots i).state ∧
    ((s.apply t m).slots i).id = (s.slots i).id := by
  by_cases hi : i = (s.calls t).slot
  · subst hi
    rw [slots_apply_self]
    obtain ⟨pc, act⟩ := m
    cases act with
    | none | draw | register | wake | put | take | discard => exact ⟨rfl, rfl⟩
    | _ => cases h
  · rw [slots_apply_of_ne hi]
    exact ⟨rfl, rfl⟩

lemma quiet_response (h : m.act.quiet) (i : ℕ) :
    ((s.apply t m).slots i).response = (s.slots i).response := by
  by_cases hi : i = (s.calls t).slot
  · subst hi
    rw [slots_apply_self]
    obtain ⟨pc, act⟩ := m
    cases act with
    | none | draw | register | wake => rfl
    | _ => cases h
  · rw [slots_apply_of_ne hi]

end Apply

end Tracker

lemma Act.calm_of_quiet (h : act.quiet) : act.calm := by
  cases act with
  | _ => first | rfl | exact h

lemma Move.Fair.of_quiet {m : Move} (h : m.Fair slot k) (hq : m.act.quiet) :
    m.pc.hold = k.hold ∧ m.pc.fresh = k.fresh ∧
      (m.pc.hold ≠ none → m.pc.slot = k.slot) ∧
      ∀ id, m.pc.knows = some id → slot.id = id ∧ m.pc.slot = slotIndex id ∧ m.pc.hold ≠ none := by
  obtain ⟨pc, act⟩ := m
  cases act with
  | none | draw | register | wake => exact h
  | _ => cases hq

lemma Move.Fair.of_calm {m : Move} (h : m.Fair slot k) (hc : m.act.calm) :
    (m.pc.hold ≠ none → k.hold ≠ none) ∧ m.pc.fresh = k.fresh ∧
      (m.pc.hold ≠ none → m.pc.slot = k.slot) := by
  by_cases hq : m.act.quiet
  · obtain ⟨hhold, hfresh, hslot, -⟩ := h.of_quiet hq
    exact ⟨fun h => hhold ▸ h, hfresh, hslot⟩
  · obtain ⟨pc, act⟩ := m
    cases act with
    | put | take =>
      obtain ⟨rfl, rfl⟩ := h
      exact ⟨nofun, rfl, fun _ => rfl⟩
    | discard =>
      obtain ⟨hk, hkf, -, hmf, hslot, -, -⟩ := h
      exact ⟨fun _ => by rw [hk]; exact nofun, hmf.trans hkf.symm, fun _ => hslot⟩
    | _ => exact absurd hc hq

/-! ### Who holds a slot -/

structure Sound (s : Tracker) : Prop where
  held : ∀ t full, (s.calls t).hold = some full →
    (s.slotOf t).state = .writing ∧ (s.slotOf t).response.isSome = full
  knows : ∀ t id, (s.calls t).knows = some id →
    (s.slotOf t).id = id ∧ (s.calls t).slot = slotIndex id ∧ (s.calls t).hold ≠ none
  alone : ∀ t u, (s.calls t).hold ≠ none → (s.calls u).hold ≠ none →
    (s.calls t).slot = (s.calls u).slot → t = u
  settled : ∀ i, (s.slots i).state ≠ .writing →
    (s.slots i).response.isSome = decide ((s.slots i).state = .ready)

namespace Sound

variable {s : Tracker} {t : ℕ} {m : Move}

lemma start : Sound start := ⟨nofun, nofun, fun _ _ h => absurd rfl h, fun _ _ => rfl⟩

lemma state_of_hold (hs : Sound s) (hu : (s.calls u).hold ≠ none) :
    (s.slotOf u).state = .writing := by
  obtain ⟨full, hfull⟩ := ne_none_iff_exists'.mp hu
  exact (hs.held u full hfull).1

lemma hold_self (hf : m.Fair (s.slotOf t) (s.calls t)) (h : m.pc.hold ≠ none) :
    m.pc.slot = (s.calls t).slot ∧
      ((s.calls t).hold ≠ none ∨ (s.slotOf t).state ≠ .writing) := by
  by_cases hc : m.act.calm
  · obtain ⟨hhold, -, hslot⟩ := hf.of_calm hc
    exact ⟨hslot h, .inl (hhold h)⟩
  · obtain ⟨pc, act⟩ := m
    cases act with
    | lock => exact ⟨hf.2.2.2.2.1, .inr hf.2.1⟩
    | unlock => exact absurd hf.2.2.2.1 h
    | release => exact absurd hf.2.2.1 h
    | name =>
      obtain ⟨hk, rfl⟩ := hf
      exact ⟨by rw [hk]; rfl, .inl (by rw [hk]; exact nofun)⟩
    | admitId =>
      obtain ⟨-, rfl⟩ := hf
      exact absurd rfl h
    | _ => exact absurd rfl hc

section

variable (hs : Sound s) (hf : m.Fair (s.slotOf t) (s.calls t))
include hs hf

lemma apart (hq : m.act.quiet = false) (hut : u ≠ t) (hu : (s.calls u).hold ≠ none) :
    (s.calls u).slot ≠ (s.calls t).slot := by
  intro hslot
  have hholder (ht : (s.calls t).hold ≠ none) : False := hut (hs.alone u t hu ht hslot)
  have hopen (ht : (s.slotOf t).state ≠ .writing) : False := by
    refine ht ?_
    rw [slotOf, ← hslot]
    exact hs.state_of_hold hu
  obtain ⟨pc, act⟩ := m
  cases act with
  | lock => exact hopen hf.2.1
  | unlock | name | admitId | put | take | discard => exact hholder (by rw [hf.1]; exact nofun)
  | release => exact hopen (by rw [hf.2.1]; exact nofun)
  | _ => cases hq

lemma untouched (hut : u ≠ t) (hu : (s.calls u).hold ≠ none) :
    ((s.apply t m).slotOf u).state = (s.slotOf u).state ∧
      ((s.apply t m).slotOf u).id = (s.slotOf u).id ∧
      ((s.apply t m).slotOf u).response = (s.slotOf u).response := by
  rw [slotOf_apply_of_ne hut]
  by_cases hq : m.act.quiet
  · have hcore := calm_slots (s := s) (t := t) (Act.calm_of_quiet hq) (s.calls u).slot
    exact ⟨hcore.1, hcore.2, quiet_response hq _⟩
  · rw [slots_apply_of_ne (hs.apart hf (Bool.eq_false_iff.mpr hq) hut hu)]
    exact ⟨rfl, rfl, rfl⟩

lemma held_self {full : Bool} (h : m.pc.hold = some full) :
    ((s.apply t m).slotOf t).state = .writing ∧
      ((s.apply t m).slotOf t).response.isSome = full := by
  -- a quiet step keeps the slot; the others are looked at one by one
  by_cases hq : m.act.quiet
  · obtain ⟨hhold, -, hslot, -⟩ := hf.of_quiet hq
    have hcore := calm_slots (s := s) (t := t) (Act.calm_of_quiet hq) (s.calls t).slot
    rw [slotOf, calls_apply_self, hslot (by rw [h]; exact nofun), hcore.1, quiet_response hq]
    exact hs.held t full (hhold ▸ h)
  · obtain ⟨pc, act⟩ := m
    cases act with
    | lock =>
      obtain ⟨-, hst, hhold, -, hslot, -⟩ := hf
      rw [slotOf_apply_self hslot]
      obtain rfl : _ = full := some.inj (hhold.symm.trans h)
      exact ⟨rfl, hs.settled _ hst⟩
    | unlock => exact absurd (hf.2.2.2.1.symm.trans h) nofun
    | release => exact absurd (hf.2.2.1.symm.trans h) nofun
    | name =>
      obtain ⟨hk, rfl⟩ := hf
      rw [slotOf_apply_self (by rw [hk]; rfl)]
      exact hs.held t full (by rw [hk]; exact h)
    | admitId =>
      obtain ⟨-, rfl⟩ := hf
      cases h
    | put | take =>
      obtain ⟨hk, rfl⟩ := hf
      rw [slotOf_apply_self (by rw [hk]; rfl)]
      cases h
      exact ⟨hs.state_of_hold (by rw [hk]; exact nofun), rfl⟩
    | discard =>
      obtain ⟨hk, -, hhold, -, hslot, -, -⟩ := hf
      rw [slotOf_apply_self hslot]
      obtain rfl : _ = full := some.inj (hhold.symm.trans h)
      exact ⟨hs.state_of_hold (by rw [hk]; exact nofun), rfl⟩
    | _ => exact absurd rfl hq

lemma knows_self (h : m.pc.knows = some id) :
    ((s.apply t m).slotOf t).id = id ∧ m.pc.slot = slotIndex id ∧ m.pc.hold ≠ none := by
  -- only the holder of a slot changes its id or its outcome
  by_cases hq : m.act.quiet
  · obtain ⟨-, -, hslot, hknows⟩ := hf.of_quiet hq
    obtain ⟨hid, hidx, hhold⟩ := hknows id h
    have hcore := calm_slots (s := s) (t := t) (Act.calm_of_quiet hq) (s.calls t).slot
    rw [slotOf, calls_apply_self, hslot hhold, hcore.2]
    exact ⟨hid, hslot hhold ▸ hidx, hhold⟩
  · obtain ⟨pc, act⟩ := m
    cases act with
    | lock => exact absurd (hf.2.2.2.2.2.symm.trans h) nofun
    | unlock => exact absurd (hf.2.2.2.2.symm.trans h) nofun
    | release => exact absurd (hf.2.2.2.symm.trans h) nofun
    | name =>
      obtain ⟨hk, rfl⟩ := hf
      rw [slotOf_apply_self (by rw [hk]; rfl)]
      cases h
      exact ⟨rfl, rfl, nofun⟩
    | admitId =>
      obtain ⟨-, rfl⟩ := hf
      cases h
    | put | take =>
      obtain ⟨hk, rfl⟩ := hf
      rw [slotOf_apply_self (by rw [hk]; rfl)]
      cases h
      exact ⟨(hs.knows t id (by rw [hk]; rfl)).1, rfl, nofun⟩
    | discard =>
      obtain ⟨-, -, hhold, -, hslot, hk, hknows⟩ := hf
      obtain ⟨hid, hidx, -⟩ := hs.knows t id (hk.trans (hknows.symm.trans h))
      rw [slotOf_apply_self hslot]
      exact ⟨hid, hslot.trans hidx, by rw [hhold]; exact nofun⟩
    | _ => exact absurd rfl hq

lemma settled_self (h : (m.act.onSlot t (s.slotOf t)).state ≠ .writing) :
    (m.act.onSlot t (s.slotOf t)).response.isSome =
      decide ((m.act.onSlot t (s.slotOf t)).state = .ready) := by
  obtain ⟨pc, act⟩ := m
  have hholder (ht : (s.calls t).hold ≠ none) (hst : (s.slotOf t).state ≠ .writing) :
      False := hst (hs.state_of_hold ht)
  cases act with
  | none | draw | register | wake => exact hs.settled _ h
  | lock => exact absurd rfl h
  | unlock => exact (hs.held t _ hf.1).2
  | release =>
    have hwait : (s.slotOf t).state = .waiting := hf.2.1
    have hsett := hs.settled (s.calls t).slot
      (show (s.slotOf t).state ≠ .writing by rw [hwait]; exact nofun)
    refine hsett.trans ?_
    change decide ((s.slotOf t).state = .ready) = _
    rw [hwait]
    rfl
  | name | put | take | discard => exact (hholder (by rw [hf.1]; exact nofun) h).elim
  | admitId => exact (hs.held t false (by rw [hf.1]; rfl)).2

/-- **A fair step keeps the slots sound.** -/
theorem apply : Sound (s.apply t m) where
  held u full hu := by
    by_cases hut : u = t
    · subst hut
      rw [calls_apply_self] at hu
      exact hs.held_self hf hu
    · rw [calls_apply_of_ne hut] at hu
      obtain ⟨hst, -, hresp⟩ := hs.untouched hf hut (by rw [hu]; exact nofun)
      rw [hst, hresp]
      exact hs.held u full hu
  knows u id hu := by
    by_cases hut : u = t
    · subst hut
      rw [calls_apply_self] at hu ⊢
      exact hs.knows_self hf hu
    · rw [calls_apply_of_ne hut] at hu ⊢
      obtain ⟨hid, hidx, hhold⟩ := hs.knows u id hu
      rw [(hs.untouched hf hut hhold).2.1]
      exact ⟨hid, hidx, hhold⟩
  alone u v hu hv huv := by
    -- a slot that is taken now was free, and the others hold what they held
    have hnew {w : ℕ} (hwt : w ≠ t) (hw : (s.calls w).hold ≠ none) (hm : m.pc.hold ≠ none)
        (hslot : (s.calls w).slot = m.pc.slot) : False := by
      obtain ⟨hself, hbefore | hopen⟩ := hold_self hf hm
      · exact hwt (hs.alone w t hw hbefore (hslot.trans hself))
      · refine hopen ?_
        rw [slotOf, ← hself, ← hslot]
        exact hs.state_of_hold hw
    by_cases hut : u = t
    · subst hut
      by_cases hvt : v = u
      · exact hvt.symm
      · rw [calls_apply_of_ne hvt] at hv huv
        rw [calls_apply_self] at hu huv
        exact (hnew hvt hv hu huv.symm).elim
    · rw [calls_apply_of_ne hut] at hu huv
      by_cases hvt : v = t
      · subst hvt
        rw [calls_apply_self] at hv huv
        exact (hnew hut hu hv huv).elim
      · rw [calls_apply_of_ne hvt] at hv huv
        exact hs.alone u v hu hv huv
  settled i hi := by
    by_cases hslot : i = (s.calls t).slot
    · subst hslot
      rw [slots_apply_self] at hi ⊢
      exact hs.settled_self hf hi
    · rw [slots_apply_of_ne hslot] at hi ⊢
      exact hs.settled i hi

end

end Sound

/-! ### Which request is in flight on a slot -/

def Vacant (log : List Entry) (i : ℕ) : Prop := ∀ id, slotIndex id = i → ¬ InFlight id log

def Occupied (log : List Entry) (i x : ℕ) : Prop :=
  slotIndex x = i ∧ InFlight x log ∧ ∀ id, slotIndex id = i → InFlight id log → id = x

/-- No request is in flight on the slot, or the one the slot names. -/
def Tenancy (log : List Entry) (i x : ℕ) (vacant : Bool) : Prop :=
  if vacant then Vacant log i else Occupied log i x

section Tenancy

variable {log log' : List Entry} {i x : ℕ}

lemma tenancy_congr (h : ∀ id, slotIndex id = i → (InFlight id log' ↔ InFlight id log))
    {vacant : Bool} (ht : Tenancy log i x vacant) : Tenancy log' i x vacant := by
  cases vacant with
  | true => exact fun id hid hflight => ht id hid ((h id hid).mp hflight)
  | false =>
    obtain ⟨hx, hin, hone⟩ := ht
    exact ⟨hx, (h x hx).mpr hin, fun id hid hflight => hone id hid ((h id hid).mp hflight)⟩

lemma Occupied.freed (h : Occupied log i x) : Vacant (.freed x :: log) i :=
  fun id hid hflight => hflight.1 (h.2.2 id hid hflight.2).symm

lemma Vacant.allocated (h : Vacant log i) (hx : slotIndex x = i) :
    Occupied (.allocated x :: log) i x := by
  refine ⟨hx, .inl rfl, fun id hid hflight => ?_⟩
  obtain rfl | hflight := hflight
  · rfl
  · exact absurd hflight (h id hid)

end Tenancy

structure Flights (s : Tracker) : Prop where
  resting : ∀ i, (s.slots i).state ≠ .writing →
    Tenancy s.log i (s.slots i).id (decide ((s.slots i).state = .empty))
  held : ∀ t, (s.calls t).hold ≠ none →
    Tenancy s.log (s.calls t).slot (s.slotOf t).id (s.calls t).fresh

lemma Act.calm_inFlight (h : act.calm) (t : ℕ) (slot : Slot) (log : List Entry) (id : ℕ) :
    InFlight id (act.entries t slot ++ log) ↔ InFlight id log := by
  cases act with
  | none | draw | register | wake | put | take | discard => exact .rfl
  | _ => cases h

namespace Flights

variable {s : Tracker} {t : ℕ} {m : Move}

lemma start : Flights start where
  resting _ _ := fun _ _ h => h
  held _ h := absurd rfl h

variable (hl : Flights s)
include hl

lemma occupied (hold : (s.calls t).hold ≠ none) (hfresh : (s.calls t).fresh = false) :
    Occupied s.log (s.calls t).slot (s.slotOf t).id := by
  have ht := hl.held t hold
  rw [hfresh] at ht
  exact ht

lemma vacant (hold : (s.calls t).hold ≠ none) (hfresh : (s.calls t).fresh = true) :
    Vacant s.log (s.calls t).slot := by
  have ht := hl.held t hold
  rw [hfresh] at ht
  exact ht

lemma occupied_of_waiting (h : (s.slotOf t).state = .waiting) :
    Occupied s.log (s.calls t).slot (s.slotOf t).id := by
  have ht := hl.resting (s.calls t).slot (show (s.slotOf t).state ≠ .writing by rw [h]; exact nofun)
  change Tenancy _ _ _ (decide ((s.slotOf t).state = .empty)) at ht
  rw [h] at ht
  exact ht

variable (hf : m.Fair (s.slotOf t) (s.calls t))
include hf

lemma far (hid : slotIndex id ≠ (s.calls t).slot) :
    InFlight id (m.act.entries t (s.slotOf t) ++ s.log) ↔ InFlight id s.log := by
  have hfreed (h : Occupied s.log (s.calls t).slot (s.slotOf t).id) :
      InFlight id (.freed (s.slotOf t).id :: s.log) ↔ InFlight id s.log := by
    refine ⟨fun hflight => hflight.2, fun hflight => ⟨fun heq => hid ?_, hflight⟩⟩
    rw [← heq]
    exact h.1
  -- what is freed or admitted lies on the slot of the call
  by_cases hc : m.act.calm
  · exact Act.calm_inFlight hc ..
  · obtain ⟨pc, act⟩ := m
    cases act with
    | lock | name => exact .rfl
    | unlock state =>
      have hocc := hl.occupied (by rw [hf.1]; exact nofun) hf.2.1
      cases state with
      | empty => exact hfreed hocc
      | waiting | writing | ready => exact .rfl
    | release => exact hfreed (hl.occupied_of_waiting hf.2.1)
    | admitId =>
      refine ⟨fun hflight => ?_, .inr⟩
      obtain rfl | hflight := hflight
      · exact absurd (by rw [hf.1]; rfl) hid
      · exact hflight
    | _ => exact absurd rfl hc

lemma resting_self (hs : Sound s) (hc : ¬ m.act.calm)
    (h : (m.act.onSlot t (s.slotOf t)).state ≠ .writing) :
    Tenancy (m.act.entries t (s.slotOf t) ++ s.log) (s.calls t).slot
      (m.act.onSlot t (s.slotOf t)).id
      (decide ((m.act.onSlot t (s.slotOf t)).state = .empty)) := by
  obtain ⟨pc, act⟩ := m
  cases act with
  | lock => exact absurd rfl h
  | unlock state =>
    have hocc := hl.occupied (by rw [hf.1]; exact nofun) hf.2.1
    cases state with
    | empty => exact hocc.freed
    | waiting | ready => exact hocc
    | writing => exact absurd rfl h
  | release => exact (hl.occupied_of_waiting hf.2.1).freed
  | name => exact absurd (hs.state_of_hold (by rw [hf.1]; exact nofun)) h
  | admitId id =>
    obtain ⟨hk, -⟩ := hf
    obtain ⟨hid, hslot, hhold⟩ := hs.knows t id (by rw [hk]; rfl)
    change Occupied (.allocated id :: s.log) (s.calls t).slot (s.slotOf t).id
    rw [hid]
    exact (hl.vacant hhold (by rw [hk]; rfl)).allocated hslot.symm
  | _ => exact absurd rfl hc

lemma held_self (hc : ¬ m.act.calm)
    (h : m.pc.hold ≠ none) : Tenancy (m.act.entries t (s.slotOf t) ++ s.log) (s.calls t).slot
      (m.act.onSlot t (s.slotOf t)).id m.pc.fresh := by
  obtain ⟨pc, act⟩ := m
  cases act with
  | lock =>
    obtain ⟨-, hst, -, hfresh, -, -⟩ := hf
    rw [hfresh]
    exact hl.resting _ hst
  | unlock => exact absurd hf.2.2.2.1 h
  | release => exact absurd hf.2.2.1 h
  | name =>
    obtain ⟨hk, rfl⟩ := hf
    exact hl.vacant (by rw [hk]; exact nofun) (by rw [hk]; rfl)
  | admitId =>
    obtain ⟨-, rfl⟩ := hf
    exact absurd rfl h
  | _ => exact absurd rfl hc

/-- **A fair step keeps track of the requests in flight.** -/
theorem apply (hs : Sound s) : Flights (s.apply t m) := by
  -- a calm step changes no slot, and any other only the slot of its call
  by_cases hc : m.act.calm
  · have hlog (id : ℕ) := Act.calm_inFlight hc t (s.slotOf t) s.log id
    have hcore := calm_slots (s := s) (t := t) hc
    refine ⟨fun i hi => ?_, fun u hu => ?_⟩
    · rw [(hcore i).1] at hi ⊢
      rw [(hcore i).2]
      exact tenancy_congr (fun id _ => hlog id) (hl.resting i hi)
    · by_cases hut : u = t
      · subst hut
        rw [calls_apply_self] at hu
        obtain ⟨hhold, hfresh, hslot⟩ := hf.of_calm hc
        rw [slotOf, calls_apply_self, hslot hu, hfresh, (hcore _).2]
        exact tenancy_congr (fun id _ => hlog id) (hl.held u (hhold hu))
      · rw [slotOf_apply_of_ne hut, (hcore _).2]
        rw [calls_apply_of_ne hut] at hu ⊢
        exact tenancy_congr (fun id _ => hlog id) (hl.held u hu)
  · have hfar {i : ℕ} (hi : i ≠ (s.calls t).slot) (id : ℕ) (hid : slotIndex id = i) :=
      hl.far hf (show slotIndex id ≠ (s.calls t).slot from hid ▸ hi)
    have hq : m.act.quiet = false := by
      rw [Bool.eq_false_iff]
      exact fun hq => hc (Act.calm_of_quiet hq)
    refine ⟨fun i hi => ?_, fun u hu => ?_⟩
    · by_cases hslot : i = (s.calls t).slot
      · subst hslot
        rw [slots_apply_self] at hi ⊢
        exact hl.resting_self hf hs hc hi
      · rw [slots_apply_of_ne hslot] at hi ⊢
        exact tenancy_congr (hfar hslot) (hl.resting i hi)
    · by_cases hut : u = t
      · subst hut
        rw [calls_apply_self] at hu
        have hslot := (Sound.hold_self hf hu).1
        rw [slotOf_apply_self hslot, calls_apply_self, hslot]
        exact hl.held_self hf hc hu
      · rw [slotOf_apply_of_ne hut]
        rw [calls_apply_of_ne hut] at hu ⊢
        -- another call holds its slot, so this step is at a different one
        have hslot := hs.apart hf hq hut hu
        rw [slots_apply_of_ne hslot]
        exact tenancy_congr (hfar hslot) (hl.held u hu)

end Flights

/-! ### Where an outcome is -/

/-- The completion has written its outcome. -/
def Pc.wrote : Pc → Bool
  | .compReady _ | .compWake _ => true
  | .completed result => result
  | _ => false

def Act.isPut : Act → Bool
  | .put _ => true
  | _ => false

structure Kept (s : Tracker) : Prop where
  content : ∀ i o, (s.slots i).response = some o →
    o.id = (s.slots i).id ∧ slotIndex o.id = i ∧ Untaken o s.log
  wrote : ∀ o old, .written o old ∈ s.log → (s.calls o.call).wrote
  accepted : ∀ t, (s.calls t).wrote → ∃ id, .written ⟨t, id⟩ none ∈ s.log
  ofTaken : ∀ e ∈ s.log, ∀ o, e.taken = some o → .written o none ∈ s.log
  kept : ∀ o old, .written o old ∈ s.log →
    (∃ e ∈ s.log, e.taken = some o) ∨ (s.slots (slotIndex o.id)).response = some o

namespace Kept

variable {s s' : Tracker}

lemma start : Kept start := ⟨nofun, nofun, nofun, nofun, nofun⟩

lemma still (hk : Kept s) {l : List Entry} (hlog : s'.log = l ++ s.log)
    (hl : ∀ e ∈ l, e.taken = none ∧ ∀ o old, e ≠ .written o old)
    (hresp : ∀ i, (s'.slots i).response = (s.slots i).response)
    (hid : ∀ i, (s.slots i).response ≠ none → (s'.slots i).id = (s.slots i).id)
    (hcalls : ∀ u, (s'.calls u).wrote = (s.calls u).wrote) : Kept s' := by
  have hmem {e : Entry} (he : e ∈ s.log) : e ∈ s'.log := by
    rw [hlog]
    exact mem_append_right l he
  have hwrit {o : Outcome} {old : Option Outcome} (he : .written o old ∈ s'.log) :
      .written o old ∈ s.log := by
    rw [hlog, mem_append] at he
    exact he.resolve_left fun he => (hl _ he).2 o old rfl
  -- the new entries take no outcome
  have htaken {e : Entry} {o : Outcome} (he : e ∈ s'.log) (ho : e.taken = some o) : e ∈ s.log := by
    rw [hlog, mem_append] at he
    refine he.resolve_left fun he => ?_
    rw [(hl e he).1] at ho
    cases ho
  refine ⟨fun i o ho => ?_, fun o old he => ?_, fun t ht => ?_, fun e he o ho => ?_,
    fun o old he => ?_⟩
  · rw [hresp] at ho
    obtain ⟨hoid, hidx, hin, hun⟩ := hk.content i o ho
    rw [hid i (by rw [ho]; exact nofun)]
    exact ⟨hoid, hidx, hmem hin, fun e he heo => hun e (htaken he heo) heo⟩
  · rw [hcalls]
    exact hk.wrote o old (hwrit he)
  · rw [hcalls] at ht
    obtain ⟨id, hin⟩ := hk.accepted t ht
    exact ⟨id, hmem hin⟩
  · exact hmem (hk.ofTaken e (htaken he ho) o ho)
  · obtain ⟨e, hin, heo⟩ | hslot := hk.kept o old (hwrit he)
    · exact .inl ⟨e, hmem hin, heo⟩
    · exact .inr ((hresp _).trans hslot)

lemma remove (hk : Kept s) {i : ℕ} {e : Entry} (hlog : s'.log = e :: s.log)
    (he : e.taken = (s.slots i).response) (hwrit : ∀ o old, e ≠ .written o old)
    (hi : (s'.slots i).response = none) (hne : ∀ j, j ≠ i → s'.slots j = s.slots j)
    (hcalls : ∀ u, (s'.calls u).wrote = (s.calls u).wrote) : Kept s' := by
  have hold {o : Outcome} {old : Option Outcome} (ho : .written o old ∈ s'.log) :
      .written o old ∈ s.log := by
    rw [hlog, mem_cons] at ho
    exact ho.resolve_left fun ho => hwrit o old ho.symm
  refine ⟨fun j o ho => ?_, fun o old ho => ?_, fun t ht => ?_, fun f hf o ho => ?_,
    fun o old ho => ?_⟩
  · have hji : j ≠ i := by
      rintro rfl
      rw [hi] at ho
      cases ho
    rw [hne j hji] at ho ⊢
    obtain ⟨hoid, hidx, hin, hun⟩ := hk.content j o ho
    refine ⟨hoid, hidx, hlog ▸ mem_cons_of_mem e hin, fun f hf hfo => ?_⟩
    rw [hlog, mem_cons] at hf
    obtain rfl | hf := hf
    · -- what is taken here lies on slot `i`
      exact hji (hidx.symm.trans (hk.content i o (he.symm.trans hfo)).2.1)
    · exact hun f hf hfo
  · rw [hcalls]
    exact hk.wrote o old (hold ho)
  · rw [hcalls] at ht
    obtain ⟨id, hin⟩ := hk.accepted t ht
    exact ⟨id, hlog ▸ mem_cons_of_mem e hin⟩
  · rw [hlog] at hf ⊢
    obtain rfl | hf := mem_cons.mp hf
    · exact mem_cons_of_mem _ (hk.content i o (he.symm.trans ho)).2.2.1
    · exact mem_cons_of_mem _ (hk.ofTaken f hf o ho)
  · obtain ⟨f, hin, hfo⟩ | hslot := hk.kept o old (hold ho)
    · exact .inl ⟨f, hlog ▸ mem_cons_of_mem e hin, hfo⟩
    · -- an outcome on this slot is the one that is taken
      by_cases hidx : slotIndex o.id = i
      · rw [hidx] at hslot
        exact .inl ⟨e, hlog ▸ mem_cons_self, he.trans hslot⟩
      · exact .inr (hne _ hidx ▸ hslot)

lemma put (hk : Kept s) {i : ℕ} (t id : ℕ) (hlog : s'.log = .written ⟨t, id⟩ none :: s.log)
    (hfree : (s.slots i).response = none) (hi : (s'.slots i).response = some ⟨t, id⟩)
    (hid : (s'.slots i).id = id) (hidx : slotIndex id = i)
    (hne : ∀ j, j ≠ i → s'.slots j = s.slots j) (hbefore : (s.calls t).wrote = false)
    (haft : (s'.calls t).wrote = true)
    (hcalls : ∀ u, u ≠ t → (s'.calls u).wrote = (s.calls u).wrote) : Kept s' := by
  have hmem {e : Entry} (he : e ∈ s.log) : e ∈ s'.log := hlog ▸ mem_cons_of_mem _ he
  have htaken {e : Entry} {o : Outcome} (he : e ∈ s'.log) (ho : e.taken = some o) : e ∈ s.log := by
    rw [hlog, mem_cons] at he
    refine he.resolve_left fun he => ?_
    rw [he] at ho
    cases ho
  -- a call writes once, so its outcome is new
  have hnew {old : Option Outcome} : .written ⟨t, id⟩ old ∉ s.log := fun hin => by
    have hwrote : (s.calls t).wrote = true := hk.wrote ⟨t, id⟩ old hin
    rw [hbefore] at hwrote
    cases hwrote
  refine ⟨fun j o ho => ?_, fun o old ho => ?_, fun u hu => ?_, fun e he o ho => ?_,
    fun o old ho => ?_⟩
  · by_cases hji : j = i
    · subst hji
      obtain rfl : _ = o := some.inj (hi.symm.trans ho)
      refine ⟨hid.symm, hidx, hlog ▸ mem_cons_self, fun e he heo => ?_⟩
      exact hnew (hk.ofTaken e (htaken he heo) _ heo)
    · rw [hne j hji] at ho ⊢
      obtain ⟨hoid, hoindex, hin, hun⟩ := hk.content j o ho
      exact ⟨hoid, hoindex, hmem hin, fun e he heo => hun e (htaken he heo) heo⟩
  · rw [hlog, mem_cons] at ho
    by_cases hcall : o.call = t
    · rw [hcall]
      exact haft
    · obtain ho | ho := ho
      · cases ho
        exact absurd rfl hcall
      · rw [hcalls _ hcall]
        exact hk.wrote o old ho
  · by_cases hut : u = t
    · subst hut
      exact ⟨id, hlog ▸ mem_cons_self⟩
    · rw [hcalls u hut] at hu
      obtain ⟨other, hin⟩ := hk.accepted u hu
      exact ⟨other, hmem hin⟩
  · exact hmem (hk.ofTaken e (htaken he ho) o ho)
  · rw [hlog, mem_cons] at ho
    obtain ho | ho := ho
    · cases ho
      exact .inr (by rw [hidx]; exact hi)
    · obtain ⟨e, hin, heo⟩ | hslot := hk.kept o old ho
      · exact .inl ⟨e, hmem hin, heo⟩
      · -- an older outcome still kept cannot lie on the free slot
        have hoth : slotIndex o.id ≠ i := by
          intro heq
          rw [heq, hfree] at hslot
          cases hslot
        exact .inr (hne _ hoth ▸ hslot)

variable {t : ℕ} {m : Move}

/-- **A fair step keeps every outcome.** -/
theorem apply (hk : Kept s) (hs : Sound s) (hf : m.Fair (s.slotOf t) (s.calls t))
    (hw : m.pc.wrote = ((s.calls t).wrote || m.act.isPut)) : Kept (s.apply t m) := by
  have hothers {u : ℕ} (hut : u ≠ t) : ((s.apply t m).calls u).wrote = (s.calls u).wrote := by
    rw [calls_apply_of_ne hut]
  have hcalls (hput : m.act.isPut = false) (u : ℕ) :
      ((s.apply t m).calls u).wrote = (s.calls u).wrote := by
    by_cases hut : u = t
    · subst hut
      rw [calls_apply_self, hw, hput, Bool.or_false]
    · exact hothers hut
  by_cases hq : m.act.quiet
  · have hcore := calm_slots (s := s) (t := t) (Act.calm_of_quiet hq)
    obtain ⟨pc, act⟩ := m
    refine hk.still (l := act.entries t (s.slotOf t)) rfl ?_ (quiet_response hq)
      (fun i _ => (hcore i).2) (hcalls ?_)
    · cases act with
      | none | draw | register | wake => exact nofun
      | _ => cases hq
    · cases act with
      | put => cases hq
      | _ => rfl
  · obtain ⟨pc, act⟩ := m
    have hslots (i : ℕ) (hi : i ≠ (s.calls t).slot) := slots_apply_of_ne (m := ⟨pc, act⟩) hi
    -- a store of the state alone
    have hst (state : SlotState) (hact : act.onSlot t (s.slotOf t) = { s.slotOf t with state })
        (hl : ∀ e ∈ act.entries t (s.slotOf t), e.taken = none ∧ ∀ o old, e ≠ .written o old)
        (hput : act.isPut = false) : Kept (s.apply t ⟨pc, act⟩) := by
      have hself (i : ℕ) : ((s.apply t ⟨pc, act⟩).slots i).response = (s.slots i).response ∧
          ((s.apply t ⟨pc, act⟩).slots i).id = (s.slots i).id := by
        by_cases hi : i = (s.calls t).slot
        · subst hi
          rw [slots_apply_self, hact]
          exact ⟨rfl, rfl⟩
        · rw [hslots i hi]
          exact ⟨rfl, rfl⟩
      exact hk.still rfl hl (fun i => (hself i).1) (fun i _ => (hself i).2) (hcalls hput)
    cases act with
    | lock => exact hst .writing rfl nofun rfl
    | unlock state =>
      refine hst state rfl ?_ rfl
      cases state with
      | empty =>
        intro e he
        obtain rfl := mem_singleton.mp he
        exact ⟨rfl, nofun⟩
      | waiting | writing | ready => exact nofun
    | release =>
      refine hst .empty rfl ?_ rfl
      intro e he
      obtain rfl := mem_singleton.mp he
      exact ⟨rfl, nofun⟩
    | admitId =>
      refine hst .waiting rfl ?_ rfl
      intro e he
      obtain rfl := mem_singleton.mp he
      exact ⟨rfl, nofun⟩
    | name =>
      -- the slot that is named is held and empty
      have hemp := (hs.held t false (by rw [hf.1]; rfl)).2
      refine hk.still (l := []) rfl nofun (fun i => ?_) (fun i hi => ?_) (hcalls rfl)
      · by_cases hslot : i = (s.calls t).slot
        · subst hslot
          rw [slots_apply_self]
          rfl
        · rw [hslots i hslot]
      · have hslot : i ≠ (s.calls t).slot := by
          rintro rfl
          exact hi (isNone_iff_eq_none.mp (by
            rw [← not_isSome, show (s.slots _).response.isSome = false from hemp]
            rfl))
        rw [hslots i hslot]
    | put id =>
      obtain ⟨hpc, rfl⟩ := hf
      obtain ⟨hid, hidx, -⟩ := hs.knows t id (by rw [hpc]; rfl)
      have hemp : (s.slotOf t).response = none := by
        have hsome := (hs.held t false (by rw [hpc]; rfl)).2
        exact not_isSome_iff_eq_none.mp (Bool.eq_false_iff.mp hsome)
      refine hk.put (i := (s.calls t).slot) t id ?_ hemp ?_ ?_ hidx.symm hslots
        (by rw [hpc]; rfl) (by rw [calls_apply_self]; rfl) fun u hut => hothers hut
      · change [Entry.written ⟨t, id⟩ (s.slotOf t).response] ++ s.log = _
        rw [hemp]
        rfl
      · rw [slots_apply_self]
        rfl
      · rw [slots_apply_self]
        exact hid
    | take id =>
      refine hk.remove (i := (s.calls t).slot) (e := .returned id (s.slotOf t).response) rfl rfl
        nofun ?_ hslots (hcalls rfl)
      rw [slots_apply_self]
      rfl
    | discard onBehalf =>
      refine hk.remove (i := (s.calls t).slot) (e := .dropped onBehalf (s.slotOf t).response) rfl
        rfl nofun ?_ hslots (hcalls rfl)
      rw [slots_apply_self]
      rfl
    | _ => exact absurd rfl hq

end Kept

/-! ### Which ids are given out -/

/-- The id an allocation has drawn. -/
def Pc.drawn : Pc → Option ℕ
  | .drew id _ | .allocLocked id | .allocNamed id | .allocated id => some id
  | _ => none

def allocatedIds (log : List Entry) : List ℕ := log.filterMap Entry.allocatedId

/-- Where the id of a call comes from. -/
def Move.Draws (nextId : ℕ) (k : Pc) (m : Move) : Prop :=
  ∀ id, m.pc.drawn = some id →
    k.drawn = some id ∨ m.act = .draw ∧ id = nextId % 2 ^ 32 ∧ id ≠ 0

structure Drawn (s : Tracker) : Prop where
  nonzero : ∀ t id, (s.calls t).drawn = some id → id ≠ 0
  bound : s.nextId ≤ 2 ^ 32 → ∀ t id, (s.calls t).drawn = some id → id < s.nextId
  distinct : s.nextId ≤ 2 ^ 32 → ∀ t u id, (s.calls t).drawn = some id →
    (s.calls u).drawn = some id → t = u
  opened : ∀ id ∈ allocatedIds s.log, ∃ t, s.calls t = .allocated id
  nodup : s.nextId ≤ 2 ^ 32 → (allocatedIds s.log).Nodup

namespace Drawn

variable {s : Tracker} {t : ℕ} {m : Move}

lemma start : Drawn start := ⟨nofun, fun _ => nofun, fun _ => nofun, nofun, fun _ => nodup_nil⟩

lemma nextId_le (s : Tracker) (t : ℕ) (m : Move) : s.nextId ≤ (s.apply t m).nextId := by
  change s.nextId ≤ if m.act = .draw then s.nextId + 1 else s.nextId
  split
  · omega
  · exact le_rfl

lemma drawn_new (hm : m.Draws s.nextId (s.calls t)) (hwrap : (s.apply t m).nextId ≤ 2 ^ 32)
    (h : m.pc.drawn = some id) :
    (s.calls t).drawn = some id ∨ id = s.nextId ∧ (s.apply t m).nextId = s.nextId + 1 := by
  obtain hold | ⟨hdraw, hid, -⟩ := hm id h
  · exact .inl hold
  · have hnext : (s.apply t m).nextId = s.nextId + 1 := if_pos hdraw
    exact .inr ⟨by rw [hid, Nat.mod_eq_of_lt (by omega)], hnext⟩

lemma allocatedIds_apply (hf : m.Fair (s.slotOf t) (s.calls t)) :
    allocatedIds (s.apply t m).log = allocatedIds s.log ∨
      ∃ id, s.calls t = .allocNamed id ∧ m.pc = .allocated id ∧
        allocatedIds (s.apply t m).log = id :: allocatedIds s.log := by
  obtain ⟨pc, act⟩ := m
  cases act with
  | admitId id => exact .inr ⟨id, hf.1, hf.2, rfl⟩
  | unlock state =>
    cases state with
    | _ => exact .inl rfl
  | _ => exact .inl rfl

/-- **No id is given out twice before the counter wraps.** -/
theorem apply (hd : Drawn s) (hf : m.Fair (s.slotOf t) (s.calls t))
    (hm : m.Draws s.nextId (s.calls t))
    (hstays : ∀ id, s.calls t = .allocated id → m.pc = .allocated id) : Drawn (s.apply t m) := by
  have hle := nextId_le s t m
  -- the calls that have returned their id go on having it
  have hopened {id : ℕ} (hid : id ∈ allocatedIds s.log) :
      ∃ u, (s.apply t m).calls u = .allocated id := by
    obtain ⟨u, hu⟩ := hd.opened id hid
    refine ⟨u, ?_⟩
    by_cases hut : u = t
    · subst hut
      rw [calls_apply_self]
      exact hstays id hu
    · rw [calls_apply_of_ne hut]
      exact hu
  -- another call's id is not the one `t` has now
  have hoth (hwrap : (s.apply t m).nextId ≤ 2 ^ 32) {u id : ℕ} (hut : u ≠ t)
      (hu : (s.calls u).drawn = some id) (ht : m.pc.drawn = some id) : False := by
    obtain hold | ⟨hid, -⟩ := drawn_new hm hwrap ht
    · exact hut (hd.distinct (hle.trans hwrap) u t id hu hold)
    · have hlt := hd.bound (hle.trans hwrap) u id hu
      omega
  refine ⟨fun u id hu => ?_, fun hwrap u id hu => ?_, fun hwrap u v id hu hv => ?_,
    fun id hid => ?_, fun hwrap => ?_⟩
  · by_cases hut : u = t
    · subst hut
      rw [calls_apply_self] at hu
      obtain hold | ⟨-, -, hne⟩ := hm id hu
      · exact hd.nonzero u id hold
      · exact hne
    · rw [calls_apply_of_ne hut] at hu
      exact hd.nonzero u id hu
  · by_cases hut : u = t
    · subst hut
      rw [calls_apply_self] at hu
      obtain hold | ⟨hid, hnext⟩ := drawn_new hm hwrap hu
      · exact (hd.bound (hle.trans hwrap) u id hold).trans_le hle
      · omega
    · rw [calls_apply_of_ne hut] at hu
      exact (hd.bound (hle.trans hwrap) u id hu).trans_le hle
  · by_cases hut : u = t
    · subst hut
      by_cases hvt : v = u
      · exact hvt.symm
      · rw [calls_apply_self] at hu
        rw [calls_apply_of_ne hvt] at hv
        exact (hoth hwrap hvt hv hu).elim
    · rw [calls_apply_of_ne hut] at hu
      by_cases hvt : v = t
      · subst hvt
        rw [calls_apply_self] at hv
        exact (hoth hwrap hut hu hv).elim
      · rw [calls_apply_of_ne hvt] at hv
        exact hd.distinct (hle.trans hwrap) u v id hu hv
  · obtain hsame | ⟨new, -, hpc, hnew⟩ := allocatedIds_apply hf
    · rw [hsame] at hid
      exact hopened hid
    · rw [hnew, mem_cons] at hid
      obtain rfl | hid := hid
      · exact ⟨t, by rw [calls_apply_self, hpc]⟩
      · exact hopened hid
  · obtain hsame | ⟨new, hk, -, hnew⟩ := allocatedIds_apply hf
    · rw [hsame]
      exact hd.nodup (hle.trans hwrap)
    · rw [hnew, nodup_cons]
      refine ⟨fun hin => ?_, hd.nodup (hle.trans hwrap)⟩
      obtain ⟨u, hu⟩ := hd.opened new hin
      obtain rfl := hd.distinct (hle.trans hwrap) u t new (by rw [hu]; rfl) (by rw [hk]; rfl)
      exact absurd (hu.symm.trans hk) nofun

end Drawn

/-! ### Every step, every run -/

lemma Pc.wrote_nextSlot {i : ℕ} : (Pc.nextSlot i).wrote = false ∧ (Pc.nextSlot i).drawn = none := by
  unfold Pc.nextSlot
  split <;> exact ⟨rfl, rfl⟩

lemma Pc.wrote_advance :
    (k.advance nextId slot).pc.wrote = (k.wrote || (k.advance nextId slot).act.isPut) := by
  cases k with
  | drawing tries =>
    cases tries with
    | zero => rfl
    | succ =>
      simp only [advance]
      split <;> rfl
  | allLoading i =>
    simp only [advance]
    cases slot.state with
    | empty => exact wrote_nextSlot.1
    | _ => rfl
  | allWake i => exact wrote_nextSlot.1
  | waitLoad _ _ attempt =>
    simp only [advance]
    split
    · rfl
    · cases attempt with
      | late =>
        simp only
        split <;> rfl
      | _ => rfl
  | cancelling =>
    simp only [advance]
    cases slot.state with
    | _ => rfl
  | completed => exact (Bool.or_false _).symm
  | _ =>
    first
    | rfl
    | (simp only [advance]; split <;> first | rfl | (split <;> rfl))

lemma Pc.draws_advance : (k.advance nextId slot).Draws nextId k := by
  intro id h
  cases k with
  | drawing tries =>
    cases tries with
    | zero => cases h
    | succ =>
      simp only [advance] at h
      split at h
      · cases h
      next hne =>
        -- the id comes from the counter, and is not zero
        obtain rfl := some.inj h
        exact .inr ⟨rfl, rfl, hne⟩
  | drew =>
    simp only [advance] at h
    split at h
    · exact .inl h
    · cases h
  | allocLocked | allocNamed | allocated => exact .inl h
  | allLoading i =>
    simp only [advance] at h
    cases hst : slot.state with
    | empty =>
      rw [hst] at h
      cases wrote_nextSlot.2.symm.trans h
    | _ =>
      rw [hst] at h
      cases h
  | allWake i => cases wrote_nextSlot.2.symm.trans h
  | waitLoad _ _ attempt =>
    simp only [advance] at h
    split at h
    · cases h
    · cases attempt with
      | late =>
        simp only at h
        split at h <;> cases h
      | _ => cases h
  | cancelling =>
    simp only [advance] at h
    cases hst : slot.state with
    | _ =>
      rw [hst] at h
      cases h
  | _ =>
    first
    | cases h
    | (simp only [advance] at h; split at h <;> first | cases h | (split at h <;> cases h))

/-- The call goes on elsewhere without having touched anything yet. -/
def Pc.Turn (k k' : Pc) : Prop :=
  k' = k ∨ k.hold = none ∧ k.wrote = false ∧ k.drawn = none ∧
    k'.hold = none ∧ k'.knows = none ∧ k'.wrote = false ∧ k'.drawn = none

lemma Pc.turn_spawn (c : Call) (k : Pc) : k.Turn (k.spawn c) := by
  cases k with
  | idle =>
    refine .inr ⟨rfl, rfl, rfl, ?_⟩
    cases c with
    | _ => exact ⟨rfl, rfl, rfl, rfl⟩
  | _ => exact .inl rfl

lemma Pc.turn_poll (k : Pc) : k.Turn k.poll := by
  cases k with
  | waitPending => exact .inr ⟨rfl, rfl, rfl, rfl, rfl, rfl, rfl⟩
  | _ => exact .inl rfl

lemma Pc.turn_timeout (k : Pc) : k.Turn k.timeout := by
  cases k with
  | waitPending _ timed =>
    cases timed with
    | true => exact .inr ⟨rfl, rfl, rfl, rfl, rfl, rfl, rfl⟩
    | false => exact .inl rfl
  | _ => exact .inl rfl

/-- What every step keeps. -/
structure Correct (s : Tracker) : Prop where
  sound : Sound s
  flights : Flights s
  kept : Kept s
  drawn : Drawn s
  valid : Valid s.log

namespace Correct

variable {s : Tracker} {t : ℕ} {m : Move}

lemma start : Correct start := ⟨Sound.start, Flights.start, Kept.start, Drawn.start, trivial⟩

variable (hs : Correct s)
include hs

lemma full (h : (s.calls t).hold = some true) :
    ∃ o, (s.slotOf t).response = some o ∧ o.id = (s.slotOf t).id ∧ Untaken o s.log := by
  obtain ⟨o, ho⟩ := isSome_iff_exists.mp (hs.sound.held t true h).2
  obtain ⟨hid, -, hun⟩ := hs.kept.content _ o ho
  exact ⟨o, ho, hid, hun⟩

lemma valid_apply (hf : m.Fair (s.slotOf t) (s.calls t)) : Valid (s.apply t m).log := by
  have hnone := hs.valid
  obtain ⟨pc, act⟩ := m
  cases act with
  | admitId id =>
    obtain ⟨hk, -⟩ := hf
    have hvac := hs.flights.vacant (t := t) (by rw [hk]; exact nofun) (by rw [hk]; rfl)
    exact ⟨⟨hs.drawn.nonzero t id (by rw [hk]; rfl), hvac id (by rw [hk]; rfl)⟩, hnone⟩
  | unlock state =>
    cases state with
    | empty => exact ⟨(hs.flights.occupied (by rw [hf.1]; exact nofun) hf.2.1).2.1, hnone⟩
    | _ => exact hnone
  | release => exact ⟨(hs.flights.occupied_of_waiting hf.2.1).2.1, hnone⟩
  | put id =>
    obtain ⟨hk, -⟩ := hf
    have hemp := (hs.sound.held t false (by rw [hk]; rfl)).2
    have hocc := hs.flights.occupied (t := t) (by rw [hk]; exact nofun) (by rw [hk]; rfl)
    rw [(hs.sound.knows t id (by rw [hk]; rfl)).1] at hocc
    exact ⟨⟨not_isSome_iff_eq_none.mp (Bool.eq_false_iff.mp hemp), hocc.2.1⟩, hnone⟩
  | take id =>
    obtain ⟨hk, -⟩ := hf
    obtain ⟨o, ho, hid, hun⟩ := hs.full (t := t) (by rw [hk]; rfl)
    exact ⟨⟨o, ho, hid.trans (hs.sound.knows t id (by rw [hk]; rfl)).1, hun⟩, hnone⟩
  | discard =>
    obtain ⟨hhold, -, -, -, -, hk, -⟩ := hf
    obtain ⟨o, ho, hid, hun⟩ := hs.full hhold
    refine ⟨⟨o, ho, fun id hbehalf => ?_, hun⟩, hnone⟩
    exact hid.trans (hs.sound.knows t id (hk.trans hbehalf)).1
  | _ => exact hnone

lemma apply (hf : m.Fair (s.slotOf t) (s.calls t))
    (hw : m.pc.wrote = ((s.calls t).wrote || m.act.isPut)) (hm : m.Draws s.nextId (s.calls t))
    (hstays : ∀ id, s.calls t = .allocated id → m.pc = .allocated id) : Correct (s.apply t m) :=
  ⟨hs.sound.apply hf, hs.flights.apply hf hs.sound, hs.kept.apply hs.sound hf hw,
    hs.drawn.apply hf hm hstays, hs.valid_apply hf⟩

lemma fair_move (e : Event) : (s.move e).Fair (s.slotOf e.call) (s.calls e.call) := by
  have hturn {k : Pc} (h : (s.calls e.call).Turn k) :
      Move.Fair (s.slotOf e.call) (s.calls e.call) { pc := k } := by
    obtain rfl | ⟨hhold, -, -, hhold', hknows', -⟩ := h
    · exact ⟨rfl, rfl, fun _ => rfl, hs.sound.knows _⟩
    · exact Move.fair_of_free (.inl rfl) hhold hhold' hknows'
  cases e with
  | spawn t c => exact hturn (Pc.turn_spawn c _)
  | advance => exact Pc.fair_advance _ _ _
  | poll => exact hturn (Pc.turn_poll _)
  | timeout => exact hturn (Pc.turn_timeout _)

lemma step (e : Event) : Correct (s.step e) := by
  have hfair := hs.fair_move e
  -- a call is begun, polled or timed out: no slot is touched
  have hturn {t : ℕ} {k : Pc} (hf : Move.Fair (s.slotOf t) (s.calls t) { pc := k })
      (h : (s.calls t).Turn k) : Correct (s.apply t { pc := k }) := by
    obtain rfl | ⟨-, hwrote, hdrawn, -, -, hwrote', hdrawn'⟩ := h
    · exact hs.apply hf (Bool.or_false _).symm (fun _ h => .inl h) (fun _ h => h)
    · refine hs.apply hf ?_ (fun id h => ?_) (fun id h => ?_)
      · exact hwrote'.trans (by rw [hwrote]; rfl)
      · exact absurd (hdrawn'.symm.trans h) nofun
      · rw [h] at hdrawn
        cases hdrawn
  cases e with
  | spawn t c => exact hturn hfair (Pc.turn_spawn c _)
  | advance t =>
    refine hs.apply hfair (Pc.wrote_advance _) (Pc.draws_advance _) fun id h => ?_
    change ((s.calls t).advance _ _).pc = _
    rw [show s.calls t = .allocated id from h]
    rfl
  | poll => exact hturn hfair (Pc.turn_poll _)
  | timeout => exact hturn hfair (Pc.turn_timeout _)

end Correct

lemma Tracker.correct (es : List Event) : Correct (Run.exec step start es) :=
  Run.exec_invariant (P := Correct) (fun _ e hs => hs.step e) Correct.start es

/-- **A reply is delivered only to its own request.**  In every run the history is
valid: an id is given out only while no request with it is in flight, and never
`0`; an outcome is written only for a request in flight and over nothing; what a
wait for an id reads is an outcome for that id that was written and that nobody
has read or dropped; and only `cancel_all` drops the outcome of another id.  An
outcome that was not read or dropped is still in its slot, a completion that
returned `true` has written one, and no id is given out twice at all while the
counter was drawn from fewer than `2 ^ 32` times. -/
theorem Tracker.own_reply_only (es : List Event) : let s := Run.exec Tracker.step Tracker.start es
    Valid s.log ∧ (s.nextId ≤ 2 ^ 32 → (allocatedIds s.log).Nodup) ∧
      (∀ t, s.calls t = .completed true → ∃ id, .written ⟨t, id⟩ none ∈ s.log) ∧
      ∀ o old, .written o old ∈ s.log →
        (∃ e ∈ s.log, e.taken = some o) ∨ (s.slots (slotIndex o.id)).response = some o := by
  intro s
  have hs : Correct s := correct es
  exact ⟨hs.valid, hs.drawn.nodup, fun t ht => hs.kept.accepted t (by rw [ht]; rfl), hs.kept.kept⟩

/-- **Response cells are free of races**, however often the ids wrap: one call at most is
between its move to `WRITING` and the next, and in any other state the cell is full just
when the slot is `READY`. -/
theorem Tracker.cells_race_free (es : List Event) : let s := Run.exec Tracker.step Tracker.start es
    (∀ t u, (s.calls t).hold ≠ none → (s.calls u).hold ≠ none →
      (s.calls t).slot = (s.calls u).slot → t = u) ∧
    (∀ t, (s.calls t).hold ≠ none → (s.slotOf t).state = .writing) ∧
    ∀ i, (s.slots i).state ≠ .writing →
      (s.slots i).response.isSome = decide ((s.slots i).state = .ready) :=
  have hs := (correct es).sound
  ⟨hs.alone, fun _ => hs.state_of_hold, hs.settled⟩

end Correlation

end IcanactRemote
