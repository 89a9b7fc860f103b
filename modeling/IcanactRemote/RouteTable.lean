/-
Connection-scoped route slots.

A `RouteTable` gives `(actor_id, type_hash)` keys short slot numbers.  The
sender allocates slots with `slotFor`, the receiver learns them with `bind`.

* `RouteTable.Wf` — the two maps are inverse to each other, hold at most
  `maxRoutes` entries, and never use slot zero;
* `slotFor_cases`, `removeUnbound_eq` — everything one call can do.
-/
import IcanactRemote.Table

namespace IcanactRemote

open Table

structure RouteKey where
  actorId : UInt64
  typeHash : UInt32
  deriving DecidableEq, Repr

def maxRoutesPerConnection : ℕ := 65536

structure RouteTable where
  nextSlot : UInt32
  maxRoutes : ℕ
  byKey : Table RouteKey UInt32
  bySlot : Table UInt32 RouteKey

namespace RouteTable

def withLimit (maxRoutes : ℕ) : RouteTable := ⟨1, maxRoutes, .empty, .empty⟩

def new : RouteTable := withLimit maxRoutesPerConnection

/-- `allocate_slot`: the next slot number, until the last one is reached. -/
def allocateSlot (t : RouteTable) : Option (UInt32 × RouteTable) :=
  if t.nextSlot = 0 ∨ t.nextSlot = 0xFFFFFFFF then none
  else some (t.nextSlot, { t with nextSlot := t.nextSlot + 1 })

/-- Enter the pair into both maps. -/
def enter (t : RouteTable) (slot : UInt32) (key : RouteKey) : RouteTable :=
  { t with bySlot := t.bySlot.insert slot key, byKey := t.byKey.insert key slot }

/-- `slot_for`: the slot of the key and whether it is a new one. -/
def slotFor (t : RouteTable) (key : RouteKey) : Option (UInt32 × Bool) × RouteTable :=
  match t.byKey.get key with
  | some slot => (some (slot, false), t)
  | none =>
    if t.byKey.len ≥ t.maxRoutes then (none, t)
    else
      match t.allocateSlot with
      | none => (none, t)
      | some (slot, t) => (some (slot, true), t.enter slot key)

/-- `bind`: the receiver's side, `false` if the binding is refused. -/
def bind (t : RouteTable) (slot : UInt32) (key : RouteKey) : Bool × RouteTable :=
  if slot = 0 then (false, t)
  else
    match t.bySlot.get slot with
    | some existing => if existing ≠ key then (false, t) else (true, t)
    | none =>
      if t.byKey.len ≥ t.maxRoutes then (false, t)
      else
        match t.byKey.get key with
        | some existing =>
          if existing ≠ slot then (false, t) else (true, t.enter slot key)
        | none => (true, t.enter slot key)

def resolve (t : RouteTable) (slot : UInt32) : Option RouteKey := t.bySlot.get slot

/-- `remove_unbound`: drop exactly this pair. -/
def removeUnbound (t : RouteTable) (slot : UInt32) (key : RouteKey) : RouteTable :=
  if t.bySlot.get slot = some key ∧ t.byKey.get key = some slot then
    { t with bySlot := t.bySlot.remove slot, byKey := t.byKey.remove key }
  else t

/-- What every table of a connection satisfies. -/
structure Wf (t : RouteTable) : Prop where
  inverse : ∀ key slot, t.byKey.get key = some slot ↔ t.bySlot.get slot = some key
  bounded : t.byKey.len ≤ t.maxRoutes
  sameLen : t.bySlot.len = t.byKey.len
  noZero : t.bySlot.get 0 = none

variable {t : RouteTable} {slot : UInt32} {key : RouteKey}

lemma wf_withLimit (maxRoutes : ℕ) : (withLimit maxRoutes).Wf where
  inverse key slot := by simp [withLimit]
  bounded := Nat.zero_le _
  sameLen := rfl
  noZero := rfl

lemma Wf.enter (h : t.Wf) (hslot : t.bySlot.get slot = none) (hkey : t.byKey.get key = none)
    (hzero : slot ≠ 0) (hroom : t.byKey.len < t.maxRoutes) : (t.enter slot key).Wf where
  inverse k s := by
    show (t.byKey.insert key slot).get k = some s ↔ (t.bySlot.insert slot key).get s = some k
    rw [get_insert, get_insert]
    by_cases hk : k = key
    · subst hk
      by_cases hs : s = slot
      · subst hs
        simp
      · rw [if_pos rfl, if_neg hs, ← h.inverse k s, hkey]
        constructor
        · intro heq
          exact absurd (Option.some.inj heq).symm hs
        · intro hnone
          cases hnone
    · -- an old pair has neither the new slot nor the new key
      by_cases hs : s = slot
      · subst hs
        rw [if_neg hk, if_pos rfl, h.inverse k s, hslot]
        constructor
        · intro hnone
          cases hnone
        · intro heq
          exact absurd (Option.some.inj heq).symm hk
      · rw [if_neg hk, if_neg hs]
        exact h.inverse k s
  bounded := by
    show (t.byKey.insert key slot).len ≤ t.maxRoutes
    rw [len_insert hkey]
    omega
  sameLen := by
    show (t.bySlot.insert slot key).len = (t.byKey.insert key slot).len
    rw [len_insert hkey, len_insert hslot, h.sameLen]
  noZero := by
    show (t.bySlot.insert slot key).get 0 = none
    rw [get_insert, if_neg (Ne.symm hzero)]
    exact h.noZero

lemma slotFor_cases :
    (∃ slot, t.byKey.get key = some slot ∧ t.slotFor key = (some (slot, false), t)) ∨
      (t.slotFor key = (none, t)) ∨
      (t.byKey.get key = none ∧ t.byKey.len < t.maxRoutes ∧ t.nextSlot ≠ 0 ∧
        t.nextSlot ≠ 0xFFFFFFFF ∧
        t.slotFor key = (some (t.nextSlot, true),
          { t with nextSlot := t.nextSlot + 1 }.enter t.nextSlot key)) := by
  cases hget : t.byKey.get key with
  | some slot => exact .inl ⟨slot, rfl, by simp only [slotFor, hget]⟩
  | none =>
    refine .inr ?_
    by_cases hfull : t.byKey.len ≥ t.maxRoutes
    · exact .inl (by simp only [slotFor, hget, if_pos hfull])
    · by_cases hlast : t.nextSlot = 0 ∨ t.nextSlot = 0xFFFFFFFF
      · exact .inl (by simp only [slotFor, hget, if_neg hfull, allocateSlot, if_pos hlast])
      · refine .inr ⟨rfl, by omega, fun h0 => hlast (.inl h0), fun h1 => hlast (.inr h1), ?_⟩
        simp only [slotFor, hget, if_neg hfull, allocateSlot, if_neg hlast]

lemma removeUnbound_eq (h : t.Wf) (hslot : t.bySlot.get slot = some key) :
    t.removeUnbound slot key =
      { t with bySlot := t.bySlot.remove slot, byKey := t.byKey.remove key } :=
  if_pos ⟨hslot, (h.inverse key slot).mpr hslot⟩

lemma Wf.removeUnbound (h : t.Wf) (slot : UInt32) (key : RouteKey) :
    (t.removeUnbound slot key).Wf := by
  by_cases hboth : t.bySlot.get slot = some key ∧ t.byKey.get key = some slot
  · obtain ⟨hslot, hkey⟩ := hboth
    have hlenSlot := len_remove hslot
    have hlenKey := len_remove hkey
    have hbounded := h.bounded
    have hsame := h.sameLen
    rw [removeUnbound_eq h hslot]
    refine ⟨fun k s => ?_, ?_, ?_, ?_⟩
    · show (t.byKey.remove key).get k = some s ↔ (t.bySlot.remove slot).get s = some k
      rw [get_remove, get_remove]
      -- both maps lose exactly this pair
      by_cases hk : k = key
      · subst hk
        by_cases hs : s = slot
        · simp [hs]
        · rw [if_pos rfl, if_neg hs, ← h.inverse k s, hkey]
          constructor
          · intro hnone
            cases hnone
          · intro heq
            exact absurd (Option.some.inj heq).symm hs
      · by_cases hs : s = slot
        · subst hs
          rw [if_neg hk, if_pos rfl, h.inverse k s, hslot]
          constructor
          · intro heq
            exact absurd (Option.some.inj heq).symm hk
          · intro hnone
            cases hnone
        · rw [if_neg hk, if_neg hs]
          exact h.inverse k s
    · show (t.byKey.remove key).len ≤ t.maxRoutes
      omega
    · show (t.bySlot.remove slot).len = (t.byKey.remove key).len
      omega
    · show (t.bySlot.remove slot).get 0 = none
      rw [get_remove, h.noZero, ite_self]
  · rw [RouteTable.removeUnbound, if_neg hboth]
    exact h

end RouteTable

end IcanactRemote
