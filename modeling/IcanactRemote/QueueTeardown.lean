/-
The teardown of a writer queue.

`close_and_reclaim` sets the closed bit, drains the queue until it has seen no
sender in flight, and drains it once more.

* `Closing` — the word `try_push_state` counts the senders that hold a guard, and
  past the count there are none;
* `Closing.step` — every atomic step keeps it.
-/
import IcanactRemote.WriterWakeups

namespace IcanactRemote

open Function

namespace WriterQueue

variable {kind : QueueKind} {capacity cap : ℕ} {s : WriterQueue} {id command : ℕ}

/-! ### The teardown -/

/-- The sender is counted in `try_push_state`. -/
def holdsGuard (kind : QueueKind) (sender : Sender) : Prop :=
  match sender.pc with
  | .guarded _ => True
  | .loading _ => True
  | .checking => True
  | .releasing _ => True
  | .announcing => ¬(kind = .write ∧ sender.call = .tryPush)
  | .notifying => ¬(kind = .write ∧ sender.call = .tryPush)
  | _ => False

/-- The count of senders in flight, and what the teardown knows of it. -/
structure Closing (kind : QueueKind) (s : WriterQueue) : Prop where
  bit : s.closedBit = true ↔ s.closer ≠ .before
  flag : s.closed = true ↔ s.closer ∉ [.before, .marked]
  guards : ∃ guards : Finset ℕ, guards.card = s.pushers ∧
    ∀ id, id ∈ guards ↔ holdsGuard kind (s.senders id)
  counted : s.closer ∈ [.lastDrain, .returned] → s.pushers = 0
  empty : s.closer = .returned → s.queue = []
  late : ∀ id, (s.senders id).late = true → s.closer = .returned ∧
    ((s.senders id).pc = .starting false ∨ (s.senders id).pc = .returned .closed)

lemma holdsGuard_wake (waiter : Waiter) (sender : Sender) :
    holdsGuard kind { sender with pc := sender.pc.wake waiter } ↔ holdsGuard kind sender := by
  unfold holdsGuard SenderPc.wake
  cases sender.pc with
  | enabled w | awaiting w => cases w <;> rfl
  | _ => rfl

lemma holdsGuard_afterNotify {sender : Sender} :
    holdsGuard kind { sender with pc := afterNotify kind sender.call } ↔
      ¬(kind = .write ∧ sender.call = .tryPush) := by
  cases hcall : sender.call with
  | push => exact ⟨fun _ hwrite => (nomatch hwrite.2), fun _ => trivial⟩
  | tryPush =>
    cases kind with
    | write => exact ⟨fun hfalse => hfalse.elim, fun hnot => hnot ⟨rfl, rfl⟩⟩
    | streaming => exact ⟨fun _ hwrite => (nomatch hwrite.1), fun _ => trivial⟩

variable {pc pc' : SenderPc} {t : WriterQueue}

section

variable (h : Closing kind s)
include h

lemma Closing.goto
    (hguard : holdsGuard kind { s.senders id with pc } ↔ holdsGuard kind (s.senders id))
    (hlate : (s.senders id).late = true → pc = .starting false ∨ pc = .returned .closed) :
    Closing kind (s.goto id pc) where
  bit := h.bit
  flag := h.flag
  guards := by
    obtain ⟨guards, hcard, hmem⟩ := h.guards
    refine ⟨guards, hcard, ?_⟩
    intro j
    by_cases hid : j = id
    · rw [hid, senders_goto_self, hguard]
      exact hmem id
    · rw [senders_goto_of_ne s hid]
      exact hmem j
  counted := h.counted
  empty := h.empty
  late := by
    intro j
    by_cases hid : j = id
    · rw [hid, senders_goto_self]
      intro hj
      exact ⟨(h.late id hj).1, hlate hj⟩
    · rw [senders_goto_of_ne s hid]
      exact h.late j

lemma Closing.not_late (hpc : s.pcOf id = pc) (hsta : pc ≠ .starting false)
    (hret : pc ≠ .returned .closed) : ¬ (s.senders id).late = true := by
  intro hlate
  obtain ⟨-, hlast | hlast⟩ := h.late id hlate
  · exact hsta (hpc.symm.trans hlast)
  · exact hret (hpc.symm.trans hlast)

lemma Closing.skip (hpc : s.pcOf id = pc) (hsta : pc ≠ .starting false)
    (hret : pc ≠ .returned .closed)
    (hguard : holdsGuard kind { s.senders id with pc := pc' } ↔ holdsGuard kind
      { s.senders id with pc }) :
    Closing kind (s.goto id pc') := by
  refine h.goto ?_ fun hlate => absurd hlate (h.not_late hpc hsta hret)
  rw [hguard, ← hpc]
  rfl

lemma Closing.open_of_guard (hguard : holdsGuard kind (s.senders id)) :
    0 < s.pushers ∧ s.closer ∉ [.lastDrain, .returned] := by
  obtain ⟨guards, hcard, hmem⟩ := h.guards
  have hpos : 0 < s.pushers := by
    rw [← hcard]
    exact Finset.card_pos.mpr ⟨id, (hmem id).mpr hguard⟩
  refine ⟨hpos, fun hcls => ?_⟩
  have hzero := h.counted hcls
  omega

lemma Closing.admitted {retry : Bool} (hpc : s.pcOf id = .starting retry)
    (hbit : ¬ s.closedBit = true) :
    Closing kind ({ s with pushers := s.pushers + 1 }.goto id (.guarded retry)) := by
  -- the bit is the first thing the teardown sets
  have hbefore : s.closer = .before := by
    by_contra hcloser
    exact hbit (h.bit.mpr hcloser)
  refine ⟨h.bit, h.flag, ?_, ?_, h.empty, ?_⟩
  · obtain ⟨guards, hcard, hmem⟩ := h.guards
    have hnot : id ∉ guards := by
      rw [hmem, holdsGuard, show (s.senders id).pc = _ from hpc]
      exact fun hfalse => hfalse
    refine ⟨insert id guards, ?_, ?_⟩
    · rw [Finset.card_insert_of_notMem hnot, hcard]
      rfl
    · intro j
      rw [Finset.mem_insert]
      by_cases hid : j = id
      · rw [hid, senders_goto_self]
        exact ⟨fun _ => trivial, fun _ => .inl rfl⟩
      · rw [senders_goto_of_ne _ hid]
        exact ⟨fun hj => (hmem j).mp (hj.resolve_left hid), fun hj => .inr ((hmem j).mpr hj)⟩
  · intro hcls
    have hcls : s.closer ∈ [CloserPc.lastDrain, .returned] := hcls
    rw [hbefore] at hcls
    simp at hcls
  · intro j hj
    by_cases hid : j = id
    · rw [hid, senders_goto_self] at hj
      have hret := (h.late id hj).1
      rw [hbefore] at hret
      cases hret
    · rw [senders_goto_of_ne _ hid] at hj ⊢
      exact h.late j hj

lemma Closing.released {result : EnqueueResult} (hpc : s.pcOf id = .releasing result) :
    Closing kind ({ s with pushers := s.pushers - 1 }.goto id
      (afterRelease kind (s.senders id).call result)) := by
  have hguard : holdsGuard kind (s.senders id) := by
    rw [holdsGuard, show (s.senders id).pc = _ from hpc]
    trivial
  -- what follows a release holds no guard
  have hfree : ¬ holdsGuard kind
      { s.senders id with pc := afterRelease kind (s.senders id).call result } := by
    unfold afterRelease
    split
    · exact fun hfalse => hfalse
    · split
      next hwrite =>
        exact fun hnot => hnot ⟨hwrite.1, hwrite.2.1⟩
      · exact fun hfalse => hfalse
  have hlate := h.not_late hpc nofun nofun
  refine ⟨h.bit, h.flag, ?_, ?_, h.empty, ?_⟩
  · obtain ⟨guards, hcard, hmem⟩ := h.guards
    refine ⟨guards.erase id, ?_, ?_⟩
    · rw [Finset.card_erase_of_mem ((hmem id).mpr hguard), hcard]
      rfl
    · intro j
      rw [Finset.mem_erase]
      by_cases hid : j = id
      · rw [hid, senders_goto_self]
        exact ⟨fun hj => absurd rfl hj.1, fun hj => absurd hj hfree⟩
      · rw [senders_goto_of_ne _ hid]
        exact ⟨fun hj => (hmem j).mp hj.2, fun hj => ⟨hid, (hmem j).mpr hj⟩⟩
  · intro hcls
    exact absurd hcls (h.open_of_guard hguard).2
  · intro j hj
    by_cases hid : j = id
    · rw [hid, senders_goto_self] at hj
      exact absurd hj hlate
    · rw [senders_goto_of_ne _ hid] at hj ⊢
      exact h.late j hj

lemma Closing.congr (hbit : t.closedBit = s.closedBit) (hcloser : t.closer = s.closer)
    (hflag : t.closed = s.closed) (hpush : t.pushers = s.pushers)
    (hq : s.closer = .returned → s.queue = [] → t.queue = [])
    (hsenders : ∀ id, (holdsGuard kind (t.senders id) ↔ holdsGuard kind (s.senders id)) ∧
      ((t.senders id).late = true → (s.senders id).late = true ∧
      ((s.senders id).pc = .starting false ∨ (s.senders id).pc = .returned .closed →
      (t.senders id).pc = (s.senders id).pc))) :
    Closing kind t := by
  refine ⟨?_, ?_, ?_, ?_, ?_, ?_⟩
  · rw [hbit, hcloser]
    exact h.bit
  · rw [hflag, hcloser]
    exact h.flag
  · obtain ⟨guards, hcard, hmem⟩ := h.guards
    refine ⟨guards, by rw [hpush, hcard], fun id => ?_⟩
    rw [(hsenders id).1]
    exact hmem id
  · rw [hcloser, hpush]
    exact h.counted
  · rw [hcloser]
    intro hret
    exact hq hret (h.empty hret)
  · intro id hlate
    obtain ⟨hlate', hsame⟩ := (hsenders id).2 hlate
    obtain ⟨hret, hpc⟩ := h.late id hlate'
    rw [hcloser, hsame hpc]
    exact ⟨hret, hpc⟩

end

lemma wake_of_late {waiter : Waiter} (h : pc = .starting false ∨ pc = .returned .closed) :
    pc.wake waiter = pc := by
  obtain rfl | rfl := h <;> rfl

section

variable (h : Closing kind s)
include h

lemma Closing.notifyOne : Closing kind s.notifyOne := by
  unfold WriterQueue.notifyOne
  split
  · exact h.congr rfl rfl rfl rfl (fun _ h => h) fun id => ⟨Iff.rfl, fun hlate => ⟨hlate,
      fun _ => rfl⟩⟩
  next first rest _ =>
    have hrest : Closing kind { s with waiters := rest } :=
      h.congr rfl rfl rfl rfl (fun _ h => h) fun id => ⟨Iff.rfl, fun hlate => ⟨hlate, fun _ => rfl⟩⟩
    refine hrest.goto (holdsGuard_wake _ _) fun hlate => ?_
    obtain ⟨-, hpc⟩ := h.late first hlate
    rw [show s.pcOf first = (s.senders first).pc from rfl, wake_of_late hpc]
    exact hpc

lemma Closing.dropNotified (id : ℕ) (waiter : Waiter) :
    Closing kind (s.dropNotified id waiter) := by
  cases waiter with
  | notifiedOne => exact h.notifyOne
  | waiting =>
    exact h.congr rfl rfl rfl rfl (fun _ h => h) fun id => ⟨Iff.rfl, fun hlate => ⟨hlate,
      fun _ => rfl⟩⟩
  | notifiedAll | taken => exact h

lemma Closing.same (hbit : t.closedBit = s.closedBit) (hcloser : t.closer = s.closer)
    (hflag : t.closed = s.closed) (hpush : t.pushers = s.pushers)
    (hq : s.closer = .returned → s.queue = [] → t.queue = [])
    (hsenders : t.senders = s.senders) : Closing kind t := by
  refine h.congr hbit hcloser hflag hpush hq fun id => ?_
  rw [hsenders]
  exact ⟨Iff.rfl, fun hlate => ⟨hlate, fun _ => rfl⟩⟩

lemma Closing.send (id : ℕ) : Closing kind (s.send kind cap id) := by
  unfold WriterQueue.send WriterQueue.pcOf
  cases hpc : (s.senders id).pc with
  | starting =>
    simp only
    split
    · refine h.goto ?_ fun _ => .inr rfl
      show False ↔ holdsGuard kind (s.senders id)
      rw [holdsGuard, hpc]
    next hbit =>
      exact h.admitted hpc hbit
  | guarded =>
    have hguard : holdsGuard kind (s.senders id) := by
      rw [holdsGuard, hpc]
      trivial
    simp only
    split
    · -- the queue grows, and the teardown is not past its count
      have hpushed : Closing kind { s with
          queue := s.queue ++ [(s.senders id).command]
          accepted := s.accepted ++ [(s.senders id).command] } := by
        refine h.same rfl rfl rfl rfl (fun hret _ => ?_) rfl
        exact absurd (by rw [hret]; simp) (h.open_of_guard hguard).2
      refine hpushed.skip hpc nofun nofun ?_
      unfold afterPush
      split
      · exact Iff.rfl
      next hkind =>
        exact ⟨fun _ => trivial, fun _ => hkind⟩
    · refine h.skip hpc nofun nofun ?_
      split <;> exact Iff.rfl
  | loading | checking | failed => exact h.skip hpc nofun nofun Iff.rfl
  | announcing =>
    have hflagged : Closing kind { s with dataPending := true } :=
      h.same rfl rfl rfl rfl (fun _ h => h) rfl
    refine hflagged.skip hpc nofun nofun ?_
    show holdsGuard kind { s.senders id with pc := if s.dataPending then _ else _ } ↔
      ¬(kind = .write ∧ (s.senders id).call = .tryPush)
    split
    · exact holdsGuard_afterNotify
    · exact Iff.rfl
  | notifying =>
    have hnote : Closing kind { s with dataPermit := true } :=
      h.same rfl rfl rfl rfl (fun _ h => h) rfl
    exact hnote.skip hpc nofun nofun holdsGuard_afterNotify
  | releasing => exact h.released hpc
  | created =>
    simp only
    split
    · have htaken : Closing kind { s with spacePermit := false } :=
        h.same rfl rfl rfl rfl (fun _ h => h) rfl
      exact htaken.skip hpc nofun nofun Iff.rfl
    · split
      · have hregistered : Closing kind { s with waiters := s.waiters ++ [id] } :=
          h.same rfl rfl rfl rfl (fun _ h => h) rfl
        exact hregistered.skip hpc nofun nofun Iff.rfl
      · exact h.skip hpc nofun nofun Iff.rfl
  | enabled waiter =>
    simp only
    split
    · -- dropping the future may pass its notification on
      have hsame := (pcOf_dropNotified (.inl hpc)).trans hpc
      exact (h.dropNotified id waiter).skip hsame (by simp) (by simp) Iff.rfl
    · exact h.skip hpc nofun nofun Iff.rfl
  | awaiting waiter =>
    cases waiter with
    | waiting => exact h
    | _ => exact h.skip hpc nofun nofun Iff.rfl
  | woken =>
    refine h.skip hpc nofun nofun ?_
    split <;> exact Iff.rfl
  | returned => exact h

lemma Closing.begin {call : EnqueueCall} : Closing kind (s.begin id call command) := by
  unfold WriterQueue.begin
  split
  next result hpc =>
    refine ⟨h.bit, h.flag, ?_, h.counted, h.empty, ?_⟩
    · obtain ⟨guards, hcard, hmem⟩ := h.guards
      refine ⟨guards, hcard, fun j => ?_⟩
      show _ ↔ holdsGuard kind (update s.senders id _ j)
      by_cases hid : j = id
      · rw [hid, update_self, hmem, holdsGuard, show (s.senders id).pc = _ from hpc]
        exact Iff.rfl
      · rw [update_of_ne hid]
        exact hmem j
    · intro j
      show (update s.senders id _ j).late = true → _ ∧
        ((update s.senders id _ j).pc = _ ∨ (update s.senders id _ j).pc = _)
      by_cases hid : j = id
      · rw [hid, update_self]
        intro hlate
        exact ⟨of_decide_eq_true hlate, .inl rfl⟩
      · rw [update_of_ne hid]
        exact h.late j
  · exact h

lemma Closing.take : Closing kind s.take := by
  unfold WriterQueue.take pop
  split
  · exact h
  next hq =>
    refine h.same rfl rfl rfl rfl (fun _ hnil => ?_) rfl
    rw [hq] at hnil
    cases hnil

lemma Closing.write (op : WriterOp) : Closing kind (s.write op) := by
  cases op with
  | pop =>
    simp only [WriterQueue.write]
    split
    · exact h.take
    · exact h
  | notifySpace =>
    simp only [WriterQueue.write]
    split
    · have howed : Closing kind { s with owed := s.owed - 1 } :=
        h.same rfl rfl rfl rfl (fun _ h => h) rfl
      exact howed.notifyOne
    · exact h
  | preparePark =>
    simp only [WriterQueue.write]
    split
    · exact h.same rfl rfl rfl rfl (fun _ h => h) rfl
    · exact h.take.same rfl rfl rfl rfl (fun _ h => h) rfl
    · exact h.same rfl rfl rfl rfl (fun _ h => h) rfl
    · exact h
  | park =>
    simp only [WriterQueue.write]
    split
    · exact h.same rfl rfl rfl rfl (fun _ h => h) rfl
    · split
      · exact h.same rfl rfl rfl rfl (fun _ h => h) rfl
      · exact h
    · exact h
  | resume =>
    simp only [WriterQueue.write]
    split
    · exact h.same rfl rfl rfl rfl (fun _ h => h) rfl
    · exact h.same rfl rfl rfl rfl (fun _ h => h) rfl
    · exact h

end

lemma closer_pop : s.pop.closer = s.closer := by
  unfold pop
  split <;> rfl

variable (h : Closing kind s)
include h

lemma Closing.pop : Closing kind s.pop := by
  unfold WriterQueue.pop
  split
  · exact h
  next hq =>
    refine h.same rfl rfl rfl rfl (fun _ hnil => ?_) rfl
    rw [hq] at hnil
    cases hnil

lemma Closing.moved {closer : CloserPc} (hfrom : s.closer ∉ [.before, .marked, .returned])
    (hto : closer ∉ [CloserPc.before, .marked])
    (hcnt : closer ∈ [.lastDrain, .returned] → s.pushers = 0)
    (hemp : closer = .returned → s.queue = []) : Closing kind { s with closer } where
  bit := by
    refine iff_of_true (h.bit.mpr ?_) ?_
    · rintro hbefore
      exact hfrom (by rw [hbefore]; simp)
    · rintro hbefore
      exact hto (by rw [show closer = _ from hbefore]; simp)
  flag := by
    refine iff_of_true (h.flag.mpr ?_) hto
    intro hopen
    exact hfrom (by simp only [List.mem_cons] at hopen ⊢; tauto)
  guards := h.guards
  counted := hcnt
  empty := hemp
  late id hlate := absurd (h.late id hlate).1 fun hret => hfrom (by rw [hret]; simp)

lemma Closing.close : Closing kind s.close := by
  -- a late call begins after the teardown only
  have hnoLate : s.closer ≠ .returned → ∀ id, ¬ (s.senders id).late = true :=
    fun hopen id hlate => hopen (h.late id hlate).1
  unfold WriterQueue.close
  cases hcloser : s.closer with
  | before =>
    refine ⟨by simp, ?_, h.guards, nofun, nofun, ?_⟩
    · have hflag := h.flag
      rw [hcloser] at hflag
      simpa using hflag
    · intro id hlate
      exact absurd hlate (hnoLate (by rw [hcloser]; exact nofun) id)
  | marked =>
    refine ⟨?_, by simp, h.guards, nofun, nofun, ?_⟩
    · have hbit := h.bit
      rw [hcloser] at hbit
      simpa using hbit
    · intro id hlate
      exact absurd hlate (hnoLate (by rw [hcloser]; exact nofun) id)
  | stored =>
    have hnote : Closing kind s.notifyWaiters := by
      refine h.congr rfl rfl rfl rfl (fun _ h => h) fun id => ?_
      show (holdsGuard kind (if id ∈ s.waiters then _ else _) ↔ _) ∧
        ((if id ∈ s.waiters then _ else s.senders id).late = true → _)
      split
      · refine ⟨holdsGuard_wake _ _, fun hlate => ?_⟩
        exact absurd hlate (hnoLate (by rw [hcloser]; exact nofun) id)
      · exact ⟨Iff.rfl, fun hlate => absurd hlate (hnoLate (by rw [hcloser]; exact nofun) id)⟩
    have hfrom : s.notifyWaiters.closer ∉ [.before, .marked, .returned] := by
      show s.closer ∉ _
      rw [hcloser]
      simp
    exact hnote.moved hfrom (by simp) (by simp) nofun
  | draining =>
    refine h.pop.moved ?_ ?_ ?_ ?_
    · rw [closer_pop, hcloser]
      simp
    all_goals split <;> simp
  | counting =>
    refine h.moved (by rw [hcloser]; simp) ?_ ?_ ?_
    · split <;> simp
    · split
      next hzero =>
        exact fun _ => hzero
      · simp
    · split <;> simp
  | lastDrain =>
    have hzero : s.pushers = 0 := h.counted (by rw [hcloser]; simp)
    by_cases hnil : s.queue = []
    · simp only [if_pos hnil, pop_of_nil hnil]
      exact h.moved (by rw [hcloser]; simp) (by simp) (fun _ => hzero) fun _ => hnil
    · simp only [if_neg hnil]
      have hpush : s.pop.pushers = s.pushers := by
        unfold WriterQueue.pop
        split <;> rfl
      exact h.pop.moved (by rw [closer_pop, hcloser]; simp) (by simp)
        (fun _ => hpush.trans hzero) nofun
  | returned => exact h

lemma Closing.step (e : Event) : Closing kind (s.step kind capacity e) := by
  cases e with
  | begin => exact h.begin
  | send id => exact h.send id
  | cancel id =>
    simp only [WriterQueue.step, WriterQueue.cancel]
    split
    · exact h
    next waiter _ hpc =>
      have hsame := (pcOf_dropNotified (.inr hpc)).trans hpc
      exact (h.dropNotified id waiter).skip hsame (by simp) (by simp) Iff.rfl
    · exact h
  | write op => exact h.write op
  | wakeConsumer => exact h.same rfl rfl rfl rfl (fun _ h => h) rfl
  | close => exact h.close

end WriterQueue

end IcanactRemote
