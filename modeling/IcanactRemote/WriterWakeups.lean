/-
The writer of a connection does not sleep through a command.

The writer parks after `prepare_park` has cleared the flag and found the queue
empty.  From then on whoever fills the queue sets the flag, and whoever sets it
first stores a permit.

* `Announced` — the two halves of that argument, as an invariant;
* `Announced.step` — every atomic step keeps it.
-/
import IcanactRemote.WriterQueue

namespace IcanactRemote

namespace WriterQueue

variable {kind : QueueKind} {capacity cap : ℕ} {s t : WriterQueue} {id : ℕ}

/-! ### The wakeups of the writer -/

/-- The sender has pushed its command and not yet set the flag of `notify_data`. -/
def preSwap (kind : QueueKind) (sender : Sender) : Prop :=
  sender.pc = .announcing ∨ (kind = .write ∧ sender.call = .tryPush ∧
    (sender.pc = .loading .ok ∨ sender.pc = .releasing .ok))

/-- The flag is set, and `notify_one` is to come. -/
def preNotify (sender : Sender) : Prop := sender.pc = .notifying

/-- A flag that is set while the writer is about to sleep wakes it; and while the
flag is not set, whoever filled the queue is about to set it. -/
def Announced (kind : QueueKind) (s : WriterQueue) : Prop :=
  (s.writer ∈ [.cleared, .drained, .parked] → s.dataPending = true →
    s.dataPermit = true ∨ Someone preNotify s) ∧
  (s.writer ∈ [.drained, .parked] →
    s.queue = [] ∨ s.dataPending = true ∨ s.closedBit = true ∨ Someone (preSwap kind) s)

variable (waiter : Waiter) (sender : Sender) {pc pc' : SenderPc}

lemma preSwap_wake (h : preSwap kind sender) :
    preSwap kind { sender with pc := sender.pc.wake waiter } := by
  obtain hpc | ⟨hkind, hcall, hpc | hpc⟩ := h
  · exact .inl (by rw [hpc]; rfl)
  · exact .inr ⟨hkind, hcall, .inl (by rw [hpc]; rfl)⟩
  · exact .inr ⟨hkind, hcall, .inr (by rw [hpc]; rfl)⟩

lemma preNotify_wake (h : preNotify sender) :
    preNotify { sender with pc := sender.pc.wake waiter } := by
  rw [h]
  rfl

lemma not_preSwap (hpc : s.pcOf id = pc) (hannounce : pc ≠ .announcing)
    (hload : pc ≠ .loading .ok) (hrel : pc ≠ .releasing .ok) : ¬ preSwap kind (s.senders id) := by
  rintro (h | ⟨-, -, h | h⟩)
  · exact hannounce (hpc.symm.trans h)
  · exact hload (hpc.symm.trans h)
  · exact hrel (hpc.symm.trans h)

lemma pcOf_dropNotified {waiter : Waiter}
    (hpc : s.pcOf id = .enabled waiter ∨ s.pcOf id = .awaiting waiter) :
    (s.dropNotified id waiter).pcOf id = s.pcOf id := by
  cases waiter with
  | notifiedOne =>
    show s.notifyOne.pcOf id = _
    unfold notifyOne
    split
    · rfl
    next first rest _ =>
      by_cases hid : id = first
      · rw [← hid]
        refine (congrArg Sender.pc senders_goto_self).trans ?_
        obtain hpc | hpc := hpc
        · rw [hpc]
          rfl
        · rw [hpc]
          rfl
      · exact congrArg Sender.pc (senders_goto_of_ne _ hid _)
  | _ => rfl

lemma announced_of_awake (h : s.writer ∉ [.cleared, .drained, .parked]) : Announced kind s :=
  ⟨fun hsleep => absurd hsleep h, fun hsleep => absurd (List.mem_cons_of_mem _ hsleep) h⟩

lemma writer_take : s.take.writer = s.writer := by
  unfold take pop
  split <;> rfl

lemma take_of_nil (h : s.queue = []) : s.take = s := by
  unfold take
  rw [h]

lemma pop_of_nil (h : s.queue = []) : s.pop = s := by
  unfold pop
  rw [h]

variable (h : Announced kind s)
include h

lemma Announced.mono (hwr : t.writer = s.writer)
    (hpend : t.dataPending = s.dataPending) (hper : t.dataPermit = s.dataPermit)
    (hq : s.queue = [] → t.queue = []) (hbit : s.closedBit = true → t.closedBit = true)
    (hntf : Someone preNotify s → Someone preNotify t)
    (hswap : Someone (preSwap kind) s → t.closedBit = true ∨ Someone (preSwap kind) t) :
    Announced kind t := by
  constructor
  · rw [hwr, hpend, hper]
    intro hsleep hset
    exact (h.1 hsleep hset).imp_right hntf
  · rw [hwr, hpend]
    intro hsleep
    obtain hnil | hset | hcls | hsome := h.2 hsleep
    · exact .inl (hq hnil)
    · exact .inr (.inl hset)
    · exact .inr (.inr (.inl (hbit hcls)))
    · exact .inr (.inr (hswap hsome))

lemma Announced.goto (hntf : s.pcOf id ≠ .notifying)
    (hswap : preSwap kind (s.senders id) → s.closedBit = true ∨
      preSwap kind { s.senders id with pc }) :
    Announced kind (s.goto id pc) := by
  refine h.mono rfl rfl rfl (fun hnil => hnil) (fun hbit => hbit)
    (fun hsome => hsome.goto fun hpre => absurd hpre hntf) ?_
  intro hsome
  by_cases hbit : s.closedBit = true
  · exact .inl hbit
  · exact .inr (hsome.goto fun hpre => (hswap hpre).resolve_left hbit)

lemma Announced.notifyOne : Announced kind s.notifyOne := by
  refine h.mono ?_ ?_ ?_ ?_ ?_ (fun hsome => hsome.notifyOne (preNotify_wake _))
    fun hsome => .inr (hsome.notifyOne (preSwap_wake _))
  all_goals
    unfold WriterQueue.notifyOne
    split
  all_goals first | rfl | exact id

lemma Announced.dropNotified (id : ℕ) (waiter : Waiter) :
    Announced kind (s.dropNotified id waiter) := by
  cases waiter with
  | notifiedOne => exact h.notifyOne
  | _ => exact h

lemma Announced.skip (hpc : s.pcOf id = pc) (hntf : pc ≠ .notifying)
    (hannounce : pc ≠ .announcing) (hload : pc ≠ .loading .ok) (hrel : pc ≠ .releasing .ok) :
    Announced kind (s.goto id pc') :=
  h.goto (hpc ▸ hntf) fun hpre => absurd hpre (not_preSwap hpc hannounce hload hrel)

lemma Announced.send (id : ℕ) : Announced kind (s.send kind cap id) := by
  unfold WriterQueue.send
  cases hpc : s.pcOf id with
  | starting =>
    simp only
    split
    · exact h.skip hpc nofun nofun nofun nofun
    · exact Announced.skip (s := { s with pushers := s.pushers + 1 }) h hpc nofun nofun nofun nofun
  | guarded =>
    simp only
    split
    · constructor
      · intro hsleep hset
        refine (h.1 hsleep hset).imp_right fun hsome => Someone.goto
          (s := { s with queue := _, accepted := _ }) hsome fun hpre => ?_
        have hpre : s.pcOf id = .notifying := hpre
        rw [hpc] at hpre
        cases hpre
      · -- the pusher itself goes on to announce
        intro _
        refine .inr (.inr (.inr (someone_goto_self ?_)))
        unfold afterPush
        split
        next hwrite =>
          exact .inr ⟨hwrite.1, hwrite.2, .inl rfl⟩
        · exact .inl rfl
    · exact h.skip hpc nofun nofun nofun nofun
  | loading =>
    refine h.goto (hpc ▸ nofun) fun hpre => ?_
    obtain hpre | ⟨hkind, hcall, hpre | hpre⟩ := hpre
    · cases hpc.symm.trans hpre
    · cases hpc.symm.trans hpre
      by_cases hbit : s.closedBit = true
      · exact .inl hbit
      · exact .inr (.inr ⟨hkind, hcall, .inr (by rw [if_neg hbit])⟩)
    · cases hpc.symm.trans hpre
  | announcing =>
    constructor
    · intro hsleep _
      -- whoever found the flag clear notifies
      by_cases hset : s.dataPending = true
      · refine (h.1 hsleep hset).imp_right fun hsome => Someone.goto
          (s := { s with dataPending := true }) hsome fun hpre => ?_
        cases hpc.symm.trans hpre
      · refine .inr (someone_goto_self ?_)
        rw [if_neg hset]
        rfl
    · intro _
      exact .inr (.inl rfl)
  | notifying =>
    constructor
    · intro _ _
      exact .inl rfl
    · intro hsleep
      refine (h.2 hsleep).imp_right (Or.imp_right (Or.imp_right fun hsome => Someone.goto
        (s := { s with dataPermit := true }) hsome fun hpre => ?_))
      exact absurd hpre (not_preSwap hpc nofun nofun nofun)
  | checking | failed | woken => exact h.skip hpc nofun nofun nofun nofun
  | releasing =>
    refine Announced.goto (s := { s with pushers := s.pushers - 1 }) h (hpc ▸ nofun) fun hpre => ?_
    obtain hpre | ⟨hkind, hcall, hpre | hpre⟩ := hpre
    · cases hpc.symm.trans hpre
    · cases hpc.symm.trans hpre
    · cases hpc.symm.trans hpre
      refine .inr (.inl ?_)
      rw [afterRelease, if_neg (fun hfull => nomatch hfull.2), if_pos ⟨hkind, hcall, rfl⟩]
  | created =>
    simp only
    split
    · exact Announced.skip (s := { s with spacePermit := false }) h hpc nofun nofun nofun nofun
    · split
      · exact Announced.skip (s := { s with waiters := s.waiters ++ [id] }) h hpc nofun nofun nofun
          nofun
      · exact h.skip hpc nofun nofun nofun nofun
  | enabled waiter =>
    simp only
    split
    · have hsame := (pcOf_dropNotified (.inl hpc)).trans hpc
      exact (h.dropNotified id waiter).skip hsame (by simp) (by simp) (by simp) (by simp)
    · exact h.skip hpc nofun nofun nofun nofun
  | awaiting waiter =>
    cases waiter with
    | waiting => exact h
    | _ => exact h.skip hpc nofun nofun nofun nofun
  | returned => exact h

lemma Announced.write (op : WriterOp) : Announced kind (s.write op) := by
  cases op with
  | pop =>
    simp only [WriterQueue.write]
    split
    next hrun =>
      refine announced_of_awake ?_
      rw [writer_take, hrun]
      simp
    · exact h
  | notifySpace =>
    simp only [WriterQueue.write]
    split
    · exact Announced.notifyOne (s := { s with owed := s.owed - 1 }) h
    · exact h
  | preparePark =>
    simp only [WriterQueue.write]
    cases hwr : s.writer with
    | running => exact ⟨fun _ hset => (Bool.false_ne_true hset).elim, fun hsleep => by simp at hsleep⟩
    | cleared =>
      -- the flag is clear, so the queue is looked at once more
      by_cases hnil : s.queue = []
      · simp only [if_pos hnil, take_of_nil hnil]
        exact ⟨fun _ => h.1 (by rw [hwr]; simp), fun _ => .inl hnil⟩
      · simp only [if_neg hnil]
        exact announced_of_awake (by simp)
    | rearming => exact announced_of_awake (by simp)
    | drained | parked => exact h
  | park =>
    simp only [WriterQueue.write]
    cases hwr : s.writer with
    | drained => exact ⟨fun _ => h.1 (by rw [hwr]; simp), fun _ => h.2 (by rw [hwr]; simp)⟩
    | parked =>
      simp only
      split
      · exact announced_of_awake (by simp)
      · exact h
    | _ => exact h
  | resume =>
    simp only [WriterQueue.write]
    cases hwr : s.writer with
    | drained | parked => exact announced_of_awake (by simp)
    | _ => exact h

lemma Announced.reclaim {closer : CloserPc} :
    Announced kind { s.pop with closer } := by
  unfold pop
  split
  · exact h
  next hq =>
    refine h.mono rfl rfl rfl (fun hnil => ?_) id id .inr
    rw [hq] at hnil
    cases hnil

lemma Announced.step (e : Event) :
    Announced kind (s.step kind capacity e) := by
  cases e with
  | begin id call command =>
    have hntf : Someone preNotify s → Someone preNotify (s.begin id call command) :=
      fun hsome => hsome.begin fun _ hpre => by cases hpre
    have hswap : Someone (preSwap kind) s → Someone (preSwap kind) (s.begin id call command) :=
      fun hsome => hsome.begin fun _ hpre => by simp [preSwap] at hpre
    refine h.mono ?_ ?_ ?_ ?_ ?_ hntf fun hsome => .inr (hswap hsome)
    all_goals
      simp only [WriterQueue.step, WriterQueue.begin]
      split
    all_goals first | rfl | exact fun hsame => hsame
  | send id => exact h.send id
  | cancel id =>
    simp only [WriterQueue.step, WriterQueue.cancel]
    split
    · exact h
    next waiter _ hpc =>
      have hsame := (pcOf_dropNotified (.inr hpc)).trans hpc
      exact (h.dropNotified id waiter).skip hsame (by simp) (by simp) (by simp) (by simp)
    · exact h
  | write op => exact h.write op
  | wakeConsumer => exact ⟨fun _ _ => .inl rfl, h.2⟩
  | close =>
    simp only [WriterQueue.step, close]
    cases hcloser : s.closer with
    | before => exact ⟨h.1, fun _ => .inr (.inr (.inl rfl))⟩
    | marked | counting | returned => exact h
    | stored =>
      exact h.mono rfl rfl rfl id id
        (fun hsome => hsome.notifyWaiters (preNotify_wake _))
        fun hsome => .inr (hsome.notifyWaiters (preSwap_wake _))
    | draining | lastDrain => exact h.reclaim

end WriterQueue

end IcanactRemote
