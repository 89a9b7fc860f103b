/-
No sender waits for space that nobody tells it of.

A `push` that found the queue full waits on `space_notify`.  The notifier keeps at
most one permit, so of several senders that come late only one is told; it is the
command of this one, once popped, that wakes the next.

* `Listed` — the waiters of the notifier;
* `Roomy` — there is something to pop, somebody to tell, or somebody who was told;
* `Sound` — the invariant of the queue, with those of the other modules;
* `no_lost_frames` — what it says of every interleaving;
* `idle_between_operations` — where a sleeper depends on somebody who is between
  two operations.
-/
import IcanactRemote.QueueTeardown

namespace IcanactRemote

open Function List

namespace WriterQueue

variable {kind : QueueKind} {capacity cap : ℕ} {s t : WriterQueue} {id command : ℕ}

/-! ### The wakeups of the senders -/

/-- The sender is on the list of `space_notify`. -/
def waits (sender : Sender) : Prop := sender.pc = .enabled .waiting ∨ sender.pc = .awaiting .waiting

/-- The sender found no room, and nobody has told it of any yet. -/
def needsSpace (sender : Sender) : Prop :=
  waits sender ∨ sender.pc = .failed ∨ (∃ called, sender.pc = .created called) ∨
    (sender.call = .push ∧ sender.pc = .releasing .full)

/-- The sender was told of room and has not tried again yet. -/
def handed (sender : Sender) : Prop :=
  sender.pc ∈ [.enabled .notifiedOne, .enabled .taken, .awaiting .notifiedOne, .awaiting .taken,
    .woken true, .starting true, .guarded true]

/-- The list of waiters. -/
structure Listed (s : WriterQueue) : Prop where
  permit : s.waiters ≠ [] → s.spacePermit = false
  nodup : s.waiters.Nodup
  waiting : ∀ id, id ∈ s.waiters ↔ waits (s.senders id)
  told : ∀ id, s.pcOf id = .awaiting .waiting → s.closer ∈ [.before, .marked, .stored]
  tries : ∀ id result, s.pcOf id = .loading result → (s.senders id).call = .tryPush

/-- There is something to pop, somebody to tell, or somebody who was told. -/
def Roomy (s : WriterQueue) : Prop :=
  s.queue ≠ [] ∨ 0 < s.owed ∨ s.spacePermit = true ∨ s.closedBit = true ∨ Someone handed s

/-- Whoever needs space is not forgotten. -/
structure Spaced (s : WriterQueue) : Prop where
  listed : Listed s
  room : Someone needsSpace s → Roomy s

variable {pc pc' : SenderPc} {call : EnqueueCall} {called : Bool}

lemma Listed.told_goto (h : Listed s)
    (hpc : pc = .awaiting .waiting → s.closer ∈ [.before, .marked, .stored]) (j : ℕ) :
    (s.goto id pc).pcOf j = .awaiting .waiting → s.closer ∈ [.before, .marked, .stored] := by
  unfold pcOf
  by_cases hid : j = id
  · rw [hid, senders_goto_self]
    exact hpc
  · rw [senders_goto_of_ne s hid]
    exact h.told j

lemma Listed.tries_goto (h : Listed s)
    (hpc : ∀ result, pc = .loading result → (s.senders id).call = .tryPush) (j : ℕ) :
    ∀ result, (s.goto id pc).pcOf j = .loading result →
      ((s.goto id pc).senders j).call = .tryPush := by
  unfold pcOf
  by_cases hid : j = id
  · rw [hid, senders_goto_self]
    exact hpc
  · rw [senders_goto_of_ne s hid]
    exact h.tries j

lemma Listed.goto (h : Listed s) (hwaits : waits { s.senders id with pc } ↔ waits (s.senders id))
    (htold : pc = .awaiting .waiting → s.closer ∈ [.before, .marked, .stored])
    (htries : ∀ result, pc = .loading result → (s.senders id).call = .tryPush) :
    Listed (s.goto id pc) where
  permit := h.permit
  nodup := h.nodup
  waiting j := by
    by_cases hid : j = id
    · rw [hid, senders_goto_self, hwaits]
      exact h.waiting id
    · rw [senders_goto_of_ne s hid]
      exact h.waiting j
  told := h.told_goto htold
  tries := h.tries_goto htries

lemma Spaced.goto (h : Spaced s)
    (hwaits : waits { s.senders id with pc } ↔ waits (s.senders id))
    (htold : pc = .awaiting .waiting → s.closer ∈ [.before, .marked, .stored])
    (htries : ∀ result, pc = .loading result → (s.senders id).call = .tryPush)
    (hneeds : needsSpace { s.senders id with pc } → needsSpace (s.senders id) ∨
      Roomy (s.goto id pc))
    (hhanded : handed (s.senders id) → handed { s.senders id with pc } ∨ Roomy (s.goto id pc)) :
    Spaced (s.goto id pc) where
  listed := h.listed.goto hwaits htold htries
  room hsome := by
    by_contra hnot
    have hold : Someone needsSpace s := by
      obtain hself | hold := someone_of_goto hsome
      · exact ⟨id, (hneeds hself).resolve_right hnot⟩
      · exact hold
    obtain hq | howed | hper | hbit | htold := h.room hold
    · exact hnot (.inl hq)
    · exact hnot (.inr (.inl howed))
    · exact hnot (.inr (.inr (.inl hper)))
    · exact hnot (.inr (.inr (.inr (.inl hbit))))
    · exact hnot (.inr (.inr (.inr (.inr (htold.goto fun hself =>
        (hhanded hself).resolve_right hnot)))))

/-- `notify_one` tells the first waiter, or leaves a permit for the next one. -/
lemma Listed.notifyOne (h : Listed s) : Listed s.notifyOne ∧
    (s.notifyOne.spacePermit = true ∨ ∃ first ∈ s.waiters, handed (s.notifyOne.senders first)) := by
  unfold WriterQueue.notifyOne
  split
  next hnil =>
    exact ⟨⟨fun hne => absurd hnil hne, h.nodup, h.waiting, h.told, h.tries⟩, .inl rfl⟩
  next first _ hwait =>
    have hnd := h.nodup
    rw [hwait, nodup_cons] at hnd
    have hfst : waits (s.senders first) :=
      (h.waiting first).mp (by rw [hwait]; exact mem_cons_self)
    -- the first waiter is told, wherever it waits
    have hwoken : (s.pcOf first).wake .notifiedOne = .enabled .notifiedOne ∨
        (s.pcOf first).wake .notifiedOne = .awaiting .notifiedOne := by
      obtain hpc | hpc := hfst
      · rw [show s.pcOf first = _ from hpc]
        exact .inl rfl
      · rw [show s.pcOf first = _ from hpc]
        exact .inr rfl
    generalize (s.pcOf first).wake .notifiedOne = pc at hwoken ⊢
    refine ⟨⟨?_, hnd.2, ?_, ?_, ?_⟩, ?_⟩
    · intro _
      exact h.permit (by rw [hwait]; exact cons_ne_nil _ _)
    · intro j
      by_cases hid : j = first
      · rw [hid, senders_goto_self]
        refine iff_of_false hnd.1 ?_
        rintro (hpc | hpc)
        · obtain rfl | rfl := hwoken <;> cases hpc
        · obtain rfl | rfl := hwoken <;> cases hpc
      · rw [senders_goto_of_ne _ hid, ← h.waiting j, hwait, mem_cons]
        exact ⟨.inr, fun hj => hj.resolve_left hid⟩
    · refine h.told_goto fun hpc => ?_
      obtain rfl | rfl := hwoken <;> cases hpc
    · refine h.tries_goto fun result hpc => ?_
      obtain rfl | rfl := hwoken <;> cases hpc
    · refine .inr ⟨first, by rw [hwait]; exact mem_cons_self, ?_⟩
      rw [senders_goto_self]
      obtain rfl | rfl := hwoken <;> simp [handed]

lemma Listed.spaced_notifyOne (h : Listed s) : Spaced s.notifyOne where
  listed := h.notifyOne.1
  room _ := by
    obtain hper | ⟨first, -, hhanded⟩ := h.notifyOne.2
    · exact .inr (.inr (.inl hper))
    · exact .inr (.inr (.inr (.inr ⟨first, hhanded⟩)))

lemma roomy_of_closedBit (h : s.closedBit = true) : Roomy s := .inr (.inr (.inr (.inl h)))

lemma Spaced.dropped {waiter : Waiter} {result : EnqueueResult} (h : Spaced s)
    (hpc : s.pcOf id = .enabled waiter ∨ s.pcOf id = .awaiting waiter)
    (hkeep : waiter = .taken → s.closedBit = true) :
    Spaced ((s.dropNotified id waiter).goto id (.returned result)) := by
  have hnoWait : ¬ waits { s.senders id with pc := .returned result } := by
    rintro (hwait | hwait)
    · cases hwait
    · cases hwait
  have hnoNeed : ∀ sender : Sender, ¬ needsSpace { sender with pc := .returned result } := by
    rintro sender ((hwait | hwait) | hfail | ⟨_, hcreated⟩ | ⟨-, hfull⟩)
    · cases hwait
    · cases hwait
    · cases hfail
    · cases hcreated
    · cases hfull
  have hwaitsIff : waits (s.senders id) ↔ waiter = .waiting := by
    unfold waits
    obtain hpc | hpc := hpc
    · rw [show (s.senders id).pc = _ from hpc]
      simp
    · rw [show (s.senders id).pc = _ from hpc]
      simp
  have hhandedIff : handed (s.senders id) ↔ waiter = .notifiedOne ∨ waiter = .taken := by
    unfold handed
    obtain hpc | hpc := hpc
    · rw [show (s.senders id).pc = _ from hpc]
      simp
    · rw [show (s.senders id).pc = _ from hpc]
      simp
  cases waiter with
  | waiting =>
    -- it leaves the list of waiters, and was not told anything
    refine ⟨⟨?_, h.listed.nodup.erase id, ?_, ?_, ?_⟩, ?_⟩
    · intro hne
      refine h.listed.permit fun hnil => hne ?_
      show s.waiters.erase id = []
      rw [hnil]
      rfl
    · intro j
      show j ∈ s.waiters.erase id ↔ _
      rw [h.listed.nodup.mem_erase_iff]
      by_cases hid : j = id
      · rw [hid, senders_goto_self]
        exact iff_of_false (fun hmem => hmem.1 rfl) hnoWait
      · rw [senders_goto_of_ne _ hid]
        exact ⟨fun hmem => (h.listed.waiting j).mp hmem.2,
          fun hwait => ⟨hid, (h.listed.waiting j).mpr hwait⟩⟩
    · exact h.listed.told_goto nofun
    · exact h.listed.tries_goto nofun
    · intro hsome
      have hold : Someone needsSpace s := by
        obtain hself | hold := someone_of_goto hsome
        · exact absurd hself (hnoNeed _)
        · exact hold
      obtain hq | howed | hper | hbit | htold := h.room hold
      · exact .inl hq
      · exact .inr (.inl howed)
      · exact .inr (.inr (.inl hper))
      · exact .inr (.inr (.inr (.inl hbit)))
      · refine .inr (.inr (.inr (.inr (Someone.goto
          (s := { s with waiters := s.waiters.erase id }) htold fun hself => ?_))))
        exact absurd (hhandedIff.mp hself) (by simp)
  | notifiedOne =>
    -- what it was told goes on to somebody else
    have hnot : id ∉ s.waiters := by
      rw [h.listed.waiting, hwaitsIff]
      exact nofun
    obtain ⟨hlisted, hroom⟩ := h.listed.notifyOne
    refine ⟨hlisted.goto ?_ nofun nofun, fun _ => ?_⟩
    · refine iff_of_false ?_ ?_
      · rintro (hwait | hwait)
        · cases hwait
        · cases hwait
      · have hsame : s.notifyOne.pcOf id = s.pcOf id := pcOf_dropNotified hpc
        intro hwait
        have hold : waits (s.senders id) := hwait.imp hsame.symm.trans hsame.symm.trans
        cases hwaitsIff.mp hold
    · obtain hper | ⟨first, hmem, hhanded⟩ := hroom
      · exact .inr (.inr (.inl hper))
      · have hid : first ≠ id := by
          rintro rfl
          exact hnot hmem
        refine .inr (.inr (.inr (.inr ⟨first, ?_⟩)))
        rw [senders_goto_of_ne _ hid]
        exact hhanded
  | notifiedAll =>
    refine h.goto (iff_of_false hnoWait ?_) nofun nofun (fun hself => absurd hself (hnoNeed _)) ?_
    · rw [hwaitsIff]
      exact nofun
    · rw [hhandedIff]
      simp
  | taken =>
    refine h.goto (iff_of_false hnoWait ?_) nofun nofun (fun hself => absurd hself (hnoNeed _))
      fun _ => .inr (roomy_of_closedBit (hkeep rfl))
    rw [hwaitsIff]
    exact nofun

lemma not_needsSpace_afterNotify {sender : Sender} :
    ¬ needsSpace { sender with pc := afterNotify kind sender.call } := by
  cases hcall : sender.call with
  | push => simp [needsSpace, waits, afterNotify]
  | tryPush => cases kind <;> simp [needsSpace, waits, afterNotify]

lemma call_of_afterNotify (result : EnqueueResult) (h : afterNotify kind call = .loading result) :
    call = .tryPush := by
  cases call with
  | push => cases h
  | tryPush => rfl

lemma Spaced.skip (h : Spaced s) (hwaits : ¬ waits (s.senders id))
    (hhanded : ¬ handed (s.senders id)) (hneeds : ¬ needsSpace { s.senders id with pc := pc' })
    (htries : ∀ result, pc' = .loading result → (s.senders id).call = .tryPush) :
    Spaced (s.goto id pc') := by
  have hnoWait : ¬ waits { s.senders id with pc := pc' } := fun hwait => hneeds (.inl hwait)
  refine h.goto (iff_of_false hnoWait hwaits) ?_ htries (fun hself => absurd hself hneeds)
    fun hself => absurd hself hhanded
  rintro rfl
  exact absurd (.inr rfl) hnoWait

lemma Spaced.same (h : Spaced s) (hwait : t.waiters = s.waiters)
    (hper : t.spacePermit = s.spacePermit) (hsenders : t.senders = s.senders)
    (hcloser : s.closer ∈ [.before, .marked, .stored] → t.closer ∈ [.before, .marked, .stored])
    (hroom : s.queue ≠ [] ∨ 0 < s.owed ∨ s.closedBit = true → t.queue ≠ [] ∨ 0 < t.owed ∨
      t.closedBit = true) :
    Spaced t where
  listed := by
    refine ⟨?_, ?_, ?_, ?_, ?_⟩
    · rw [hwait, hper]
      exact h.listed.permit
    · rw [hwait]
      exact h.listed.nodup
    · rw [hwait, hsenders]
      exact h.listed.waiting
    · unfold pcOf
      rw [hsenders]
      exact fun id hpc => hcloser (h.listed.told id hpc)
    · unfold pcOf
      rw [hsenders]
      exact h.listed.tries
  room hsome := by
    have hold : Someone needsSpace s := by
      unfold Someone at hsome
      rw [hsenders] at hsome
      exact hsome
    have hback : t.queue ≠ [] ∨ 0 < t.owed ∨ t.closedBit = true → Roomy t := by
      rintro (hq | howed | hbit)
      · exact .inl hq
      · exact .inr (.inl howed)
      · exact roomy_of_closedBit hbit
    obtain hq | howed | hset | hbit | htold := h.room hold
    · exact hback (hroom (.inl hq))
    · exact hback (hroom (.inr (.inl howed)))
    · exact .inr (.inr (.inl (hper.trans hset)))
    · exact hback (hroom (.inr (.inr hbit)))
    · refine .inr (.inr (.inr (.inr ?_)))
      unfold Someone
      rw [hsenders]
      exact htold

section

variable (h : Spaced s)
include h

lemma Spaced.tookPermit (hpc : s.pcOf id = .created called) :
    Spaced ({ s with spacePermit := false }.goto id (.enabled .taken)) where
  listed := by
    have hlisted : Listed { s with spacePermit := false } :=
      ⟨fun _ => rfl, h.listed.nodup, h.listed.waiting, h.listed.told, h.listed.tries⟩
    refine hlisted.goto ?_ nofun nofun
    simp [waits, show (s.senders id).pc = _ from hpc]
  room _ := .inr (.inr (.inr (.inr (someone_goto_self (by simp [handed])))))

lemma Spaced.registered (hpc : s.pcOf id = .created called) (hper : ¬ s.spacePermit = true) :
    Spaced ({ s with waiters := s.waiters ++ [id] }.goto id (.enabled .waiting)) := by
  have hnot : id ∉ s.waiters := by
    rw [h.listed.waiting]
    simp [waits, show (s.senders id).pc = _ from hpc]
  refine ⟨⟨fun _ => Bool.eq_false_iff.mpr hper, ?_, ?_, ?_, ?_⟩, fun _ => ?_⟩
  · show (s.waiters ++ [id]).Nodup
    rw [← concat_eq_append]
    exact h.listed.nodup.concat hnot
  · intro j
    show j ∈ s.waiters ++ [id] ↔ _
    rw [mem_append, mem_singleton]
    by_cases hid : j = id
    · rw [hid, senders_goto_self]
      exact iff_of_true (.inr rfl) (.inl rfl)
    · rw [senders_goto_of_ne _ hid]
      exact ⟨fun hj => (h.listed.waiting j).mp (hj.resolve_right hid),
        fun hj => .inl ((h.listed.waiting j).mpr hj)⟩
  · exact h.listed.told_goto nofun
  · exact h.listed.tries_goto nofun
  · have hneed : Someone needsSpace s := ⟨id, .inr (.inr (.inl ⟨called, hpc⟩))⟩
    -- it found no room, and no permit to take
    obtain hq | howed | hset | hbit | htold := h.room hneed
    · exact .inl hq
    · exact .inr (.inl howed)
    · exact absurd hset hper
    · exact roomy_of_closedBit hbit
    · refine .inr (.inr (.inr (.inr (Someone.goto
        (s := { s with waiters := s.waiters ++ [id] }) htold ?_))))
      simp [handed, show (s.senders id).pc = _ from hpc]

lemma Spaced.send (hclosing : Closing kind s) (hcap : 0 < cap) (id : ℕ) :
    Spaced (s.send kind cap id) := by
  have hbit : s.closed = true → s.closedBit = true := by
    intro hcls
    refine hclosing.bit.mpr fun hbefore => hclosing.flag.mp hcls ?_
    rw [hbefore]
    simp
  unfold WriterQueue.send WriterQueue.pcOf
  cases hpc : (s.senders id).pc with
  | starting =>
    simp only
    split
    next hcls =>
      refine h.goto ?_ nofun nofun ?_ fun _ => .inr (roomy_of_closedBit hcls)
      · simp [waits, hpc]
      · simp [needsSpace, waits]
    · have hcnt : Spaced { s with pushers := s.pushers + 1 } :=
        h.same rfl rfl rfl (fun h => h) fun h => h
      refine hcnt.goto ?_ nofun nofun ?_ ?_
      · simp [waits, hpc]
      · simp [needsSpace, waits]
      · simp +contextual [handed, hpc]
  | guarded =>
    simp only
    split
    · -- its command is in the queue
      have hne : s.queue ++ [(s.senders id).command] ≠ [] := by simp
      have hpushed : Spaced { s with
          queue := s.queue ++ [(s.senders id).command]
          accepted := s.accepted ++ [(s.senders id).command] } :=
        h.same rfl rfl rfl (fun h => h) fun _ => .inl hne
      refine hpushed.goto ?_ ?_ ?_ (fun _ => .inr (.inl hne)) fun _ => .inr (.inl hne)
      · unfold afterPush
        split <;> simp [waits, hpc]
      · unfold afterPush
        split <;> exact nofun
      · unfold afterPush
        split
        next hwrite =>
          exact fun _ _ => hwrite.2
        · exact nofun
    · -- no room: the queue is full, so there is something to pop
      rename_i hfull
      have hne : s.queue ≠ [] := by
        intro hnil
        rw [hnil] at hfull
        exact hfull hcap
      refine h.goto ?_ ?_ ?_ (fun _ => .inr (.inl hne)) fun _ => .inr (.inl hne)
      · split <;> simp [waits, hpc]
      · split <;> exact nofun
      · split
        · exact nofun
        next hcall =>
          intro _ _
          cases hkind : (s.senders id).call with
          | push => exact absurd hkind hcall
          | tryPush => rfl
  | loading result =>
    have hcall := h.listed.tries id result hpc
    refine h.skip (by simp [waits, hpc]) (by simp [handed, hpc]) ?_ nofun
    simp [needsSpace, waits, hcall]
  | announcing =>
    have hflagged : Spaced { s with dataPending := true } :=
      h.same rfl rfl rfl (fun h => h) fun h => h
    refine hflagged.skip (by simp [waits, hpc]) (by simp [handed, hpc]) ?_ ?_
    · split
      · exact not_needsSpace_afterNotify
      · simp [needsSpace, waits]
    · split
      · exact call_of_afterNotify
      · exact nofun
  | notifying =>
    have hnote : Spaced { s with dataPermit := true } :=
      h.same rfl rfl rfl (fun h => h) fun h => h
    exact hnote.skip (by simp [waits, hpc]) (by simp [handed, hpc]) not_needsSpace_afterNotify
      call_of_afterNotify
  | checking =>
    refine h.skip (by simp [waits, hpc]) (by simp [handed, hpc]) ?_ nofun
    split <;> simp [needsSpace, waits]
  | releasing result =>
    have hcnt : Spaced { s with pushers := s.pushers - 1 } :=
      h.same rfl rfl rfl (fun h => h) fun h => h
    -- a push that found no room goes on to wait, anything else is over
    have hrel : afterRelease kind (s.senders id).call result = .failed ∧
          (s.senders id).call = .push ∧ result = .full ∨
        afterRelease kind (s.senders id).call result = .announcing ∨
        ∃ result', afterRelease kind (s.senders id).call result = .returned result' := by
      unfold afterRelease
      split
      next hfull =>
        exact .inl ⟨rfl, hfull⟩
      · split
        · exact .inr (.inl rfl)
        · exact .inr (.inr ⟨_, rfl⟩)
    show Spaced ({ s with pushers := _ }.goto id (afterRelease kind (s.senders id).call result))
    generalize afterRelease kind (s.senders id).call result = pc at hrel ⊢
    refine hcnt.goto ?_ ?_ ?_ ?_ ?_
    · obtain ⟨rfl, -⟩ | rfl | ⟨_, rfl⟩ := hrel <;>
        simp [waits, hpc]
    · obtain ⟨rfl, -⟩ | rfl | ⟨_, rfl⟩ := hrel <;> exact nofun
    · obtain ⟨rfl, -⟩ | rfl | ⟨_, rfl⟩ := hrel <;> exact nofun
    · obtain ⟨rfl, hcall, rfl⟩ | rfl | ⟨_, rfl⟩ := hrel
      · exact fun _ => .inl (.inr (.inr (.inr ⟨hcall, hpc⟩)))
      · simp [needsSpace, waits]
      · simp [needsSpace, waits]
    · simp [handed, hpc]
  | failed =>
    refine h.goto ?_ nofun nofun (fun _ => .inl (.inr (.inl hpc))) ?_
    · simp [waits, hpc]
    · simp [handed, hpc]
  -- the future takes a permit at once, or joins the waiters
  | created =>
    simp only
    split
    · exact h.tookPermit hpc
    next hper =>
      split
      · exact h.registered hpc hper
      · refine h.skip (by simp [waits, hpc]) (by simp [handed, hpc]) ?_ nofun
        simp [needsSpace, waits]
  | enabled waiter =>
    simp only
    split
    next hcls =>
      exact h.dropped (.inl hpc) fun _ => hbit hcls
    -- the flag was still clear, so the closer has yet to tell the waiters
    next hopen =>
      refine h.goto ?_ ?_ nofun ?_ ?_
      · simp [waits, hpc]
      · intro _
        by_contra hcloser
        refine hopen (hclosing.flag.mpr fun hearly => hcloser ?_)
        simp only [mem_cons] at hearly ⊢
        tauto
      · intro hneed
        refine .inl (.inl ?_)
        obtain (hwait | hwait) | hfail | ⟨_, hcreated⟩ | ⟨-, hfull⟩ := hneed
        · cases hwait
        · cases hwait
          exact .inl hpc
        · cases hfail
        · cases hcreated
        · cases hfull
      · unfold handed
        rw [hpc]
        cases waiter <;> simp
  | awaiting waiter =>
    cases waiter with
    | waiting => exact h
    | _ =>
      refine h.goto ?_ nofun nofun ?_ ?_
      · simp [waits, hpc]
      · simp [needsSpace, waits]
      · simp [handed, hpc]
  | woken =>
    simp only
    split
    next hcls =>
      refine h.goto ?_ nofun nofun ?_ fun _ => .inr (roomy_of_closedBit (hbit hcls))
      · simp [waits, hpc]
      · simp [needsSpace, waits]
    · refine h.goto ?_ nofun nofun ?_ ?_
      · simp [waits, hpc]
      · simp [needsSpace, waits]
      · simp +contextual [handed, hpc]
  | returned => exact h

lemma Spaced.begin : Spaced (s.begin id call command) := by
  have hhanded : Someone handed s → Someone handed (s.begin id call command) :=
    fun hsome => hsome.begin (by simp [handed])
  unfold WriterQueue.begin at hhanded ⊢
  split at hhanded
  next result hpc =>
    refine ⟨⟨h.listed.permit, h.listed.nodup, ?_, ?_, ?_⟩, ?_⟩
    · intro j
      show _ ↔ waits (update s.senders id _ j)
      by_cases hid : j = id
      · rw [hid, update_self, h.listed.waiting]
        simp [waits, show (s.senders id).pc = _ from hpc]
      · rw [update_of_ne hid]
        exact h.listed.waiting j
    · intro j
      show (update s.senders id _ j).pc = _ → _
      by_cases hid : j = id
      · rw [hid, update_self]
        exact nofun
      · rw [update_of_ne hid]
        exact h.listed.told j
    · intro j
      show ∀ result, (update s.senders id _ j).pc = _ → (update s.senders id _ j).call = _
      by_cases hid : j = id
      · rw [hid, update_self]
        exact nofun
      · rw [update_of_ne hid]
        exact h.listed.tries j
    · rintro ⟨j, hj⟩
      have hj : needsSpace (update s.senders id _ j) := hj
      -- a new call does not need space yet
      have hold : Someone needsSpace s := by
        by_cases hid : j = id
        · rw [hid, update_self] at hj
          simp [needsSpace, waits] at hj
        · rw [update_of_ne hid] at hj
          exact ⟨j, hj⟩
      obtain hq | howed | hset | hbit | htold := h.room hold
      · exact .inl hq
      · exact .inr (.inl howed)
      · exact .inr (.inr (.inl hset))
      · exact roomy_of_closedBit hbit
      · exact .inr (.inr (.inr (.inr (hhanded htold))))
  · exact h

lemma Spaced.take : Spaced s.take := by
  unfold WriterQueue.take pop
  split
  · exact h
  · exact h.same rfl rfl rfl id fun _ => .inr (.inl (Nat.succ_pos _))

lemma Spaced.write (op : WriterOp) : Spaced (s.write op) := by
  cases op with
  | pop =>
    simp only [WriterQueue.write]
    split
    · exact h.take
    · exact h
  | notifySpace =>
    simp only [WriterQueue.write]
    split
    · have hlisted : Listed { s with owed := s.owed - 1 } :=
        ⟨h.listed.permit, h.listed.nodup, h.listed.waiting, h.listed.told, h.listed.tries⟩
      exact hlisted.spaced_notifyOne
    · exact h
  | preparePark =>
    simp only [WriterQueue.write]
    split
    · exact h.same rfl rfl rfl id id
    · exact h.take.same rfl rfl rfl id id
    · exact h.same rfl rfl rfl id id
    · exact h
  | park =>
    simp only [WriterQueue.write]
    split
    · exact h.same rfl rfl rfl id id
    · split
      · exact h.same rfl rfl rfl id id
      · exact h
    · exact h
  | resume =>
    simp only [WriterQueue.write]
    split
    · exact h.same rfl rfl rfl id id
    · exact h.same rfl rfl rfl id id
    · exact h

lemma Spaced.notifyWaiters {closer : CloserPc} (hbit : s.closedBit = true) :
    Spaced { s.notifyWaiters with closer } := by
  have hpcs : ∀ id, ¬ waits (s.notifyWaiters.senders id) ∧
      ((s.notifyWaiters.senders id).call = (s.senders id).call) ∧
      ∀ result, (s.notifyWaiters.senders id).pc = .loading result →
        (s.senders id).pc = .loading result := by
    intro id
    show ¬ waits (if id ∈ s.waiters then _ else _) ∧
      ((if id ∈ s.waiters then _ else s.senders id).call = _) ∧
      ∀ result, (if id ∈ s.waiters then _ else s.senders id).pc = _ → _
    split
    next hmem =>
      obtain hpc | hpc := (h.listed.waiting id).mp hmem <;> simp [waits, pcOf, hpc, SenderPc.wake]
    next hmem =>
      exact ⟨fun hwait => hmem ((h.listed.waiting id).mpr hwait), rfl, fun _ hpc => hpc⟩
  refine ⟨⟨fun hne => absurd rfl hne, nodup_nil, ?_, ?_, ?_⟩, fun _ =>
    roomy_of_closedBit hbit⟩
  · intro id
    exact iff_of_false not_mem_nil (hpcs id).1
  · intro id hpc
    exact absurd (.inr hpc) (hpcs id).1
  · intro id result hpc
    refine (hpcs id).2.1.trans (h.listed.tries id result ((hpcs id).2.2 result hpc))

lemma Spaced.close (hclosing : Closing kind s) : Spaced s.close := by
  have hbit : s.closer ≠ .before → s.closedBit = true := hclosing.bit.mpr
  -- past `notify_waiters` no call waits any more
  have hmoved : ∀ {closer}, s.closer ∉ [.before, .marked, .stored] → Spaced { s.pop with closer } :=
    by
    intro closer hpast
    have hne : s.closer ≠ .before := fun hbefore => hpast (by rw [hbefore]; simp)
    unfold pop
    split
    · exact h.same rfl rfl rfl (fun hopen => absurd hopen hpast) fun _ => .inr (.inr (hbit hne))
    · exact h.same rfl rfl rfl (fun hopen => absurd hopen hpast) fun _ => .inr (.inr (hbit hne))
  unfold WriterQueue.close
  cases hcloser : s.closer with
  | before => exact h.same rfl rfl rfl (fun _ => by simp) fun _ => .inr (.inr rfl)
  | marked => exact h.same rfl rfl rfl (fun _ => by simp) id
  | stored => exact h.notifyWaiters (hbit (by rw [hcloser]; exact nofun))
  | draining | lastDrain => exact hmoved (by rw [hcloser]; simp)
  | counting =>
    refine h.same rfl rfl rfl (fun hopen => ?_) id
    rw [hcloser] at hopen
    simp at hopen
  | returned => exact h

lemma Spaced.step (hclosing : Closing kind s) (e : Event) : Spaced (s.step kind capacity e) := by
  cases e with
  | begin => exact h.begin
  | send id => exact h.send hclosing (kind.capacity_pos capacity) id
  | cancel =>
    simp only [WriterQueue.step, WriterQueue.cancel]
    split
    · exact h
    next hne hpc =>
      exact h.dropped (.inr hpc) fun htaken => absurd htaken hne
    · exact h
  | write op => exact h.write op
  | wakeConsumer => exact h.same rfl rfl rfl id id
  | close => exact h.close hclosing

end

/-! ### Runs -/

/-- Everything a reachable queue satisfies. -/
structure Sound (kind : QueueKind) (s : WriterQueue) : Prop where
  logged : Logged s
  announced : Announced kind s
  closing : Closing kind s
  spaced : Spaced s

lemma Sound.step (h : Sound kind s) (e : Event) : Sound kind (s.step kind capacity e) where
  logged := h.logged.step e
  announced := h.announced.step e
  closing := h.closing.step e
  spaced := h.spaced.step h.closing e

lemma sound_new : Sound kind new where
  logged := ⟨rfl, Sublist.refl _, fun _ => rfl⟩
  announced := announced_of_awake (by simp [new])
  closing := by
    refine ⟨by simp [new], by simp [new], ⟨∅, rfl, fun id => ?_⟩, fun _ => rfl, fun _ => rfl, nofun⟩
    exact iff_of_false (Finset.notMem_empty id) fun hfalse => hfalse
  spaced := by
    refine ⟨⟨fun _ => rfl, nodup_nil, fun id => ?_, fun _ hpc => (nomatch hpc),
      fun _ _ hpc => (nomatch hpc)⟩, ?_⟩
    · exact iff_of_false not_mem_nil (by simp [waits, new])
    · rintro ⟨id, hneed⟩
      simp [needsSpace, waits, new] at hneed

variable (s)

lemma closer_notifyOne : s.notifyOne.closer = s.closer := by
  unfold notifyOne
  split <;> rfl

lemma closer_dropNotified (id : ℕ) (waiter : Waiter) :
    (s.dropNotified id waiter).closer = s.closer := by
  cases waiter with
  | notifiedOne => exact s.closer_notifyOne
  | _ => rfl

lemma closer_send (id : ℕ) : (s.send kind cap id).closer = s.closer := by
  unfold send
  cases s.pcOf id with
  | starting | guarded =>
    simp only
    split <;> rfl
  | created =>
    simp only
    split
    · rfl
    · split <;> rfl
  | enabled waiter =>
    simp only
    split
    · exact s.closer_dropNotified id waiter
    · rfl
  | awaiting waiter => cases waiter <;> rfl
  | _ => rfl

lemma closer_take : s.take.closer = s.closer := by
  unfold take pop
  split <;> rfl

lemma closer_write (op : WriterOp) : (s.write op).closer = s.closer := by
  unfold write
  cases op with
  | pop =>
    simp only
    split
    · exact s.closer_take
    · rfl
  | notifySpace =>
    simp only
    split
    · exact closer_notifyOne _
    · rfl
  | preparePark =>
    simp only
    split
    · rfl
    · exact s.closer_take
    · rfl
    · rfl
  | park =>
    simp only
    split
    · rfl
    · split <;> rfl
    · rfl
  | resume =>
    simp only
    split <;> rfl

variable {s}

/-- `close_and_reclaim` returns once. -/
lemma closer_step (h : s.closer = .returned) (e : Event) :
    (s.step kind capacity e).closer = .returned := by
  cases e with
  | begin =>
    simp only [step, begin]
    split <;> exact h
  | send id => exact (s.closer_send id).trans h
  | cancel id =>
    simp only [step, cancel]
    split
    · exact h
    · exact (s.closer_dropNotified id _).trans h
    · exact h
  | write op => exact (s.closer_write op).trans h
  | wakeConsumer => exact h
  | close =>
    simp only [step, close, h]

/-- The queue after any atomic steps of anybody. -/
def after (kind : QueueKind) (capacity : ℕ) (es : List Event) : WriterQueue :=
  Run.exec (step kind capacity) new es

lemma sound_after (kind : QueueKind) (capacity : ℕ) (es : List Event) :
    Sound kind (after kind capacity es) :=
  Run.exec_invariant (fun _ e h => h.step e) sound_new es

/-- The sender is between its successful push and the end of `notify_data`. -/
def announces (kind : QueueKind) (sender : Sender) : Prop := preSwap kind sender ∨ preNotify sender

lemma Sound.parked (h : Sound kind s) (hpark : s.writer = .parked) (hne : s.queue ≠ [])
    (hopen : s.closer = .before) : s.dataPermit = true ∨ Someone (announces kind) s := by
  have hsleep : s.writer ∈ [.drained, .parked] := by
    rw [hpark]
    simp
  -- whoever filled the queue is about to wake the writer, or has
  obtain hnil | hset | hbit | ⟨id, hswap⟩ := h.announced.2 hsleep
  · exact absurd hnil hne
  · obtain hper | ⟨id, hntf⟩ := h.announced.1 (mem_cons_of_mem _ hsleep) hset
    · exact .inl hper
    · exact .inr ⟨id, .inr hntf⟩
  · exact absurd hopen (h.closing.bit.mp hbit)
  · exact .inr ⟨id, .inl hswap⟩

lemma Sound.waiting (h : Sound kind s) (hpc : s.pcOf id = .awaiting .waiting) :
    s.queue ≠ [] ∨ 0 < s.owed ∨ Someone handed s ∨ s.closer ∈ [.marked, .stored] := by
  have hmem : id ∈ s.waiters := (h.spaced.listed.waiting id).mpr (.inr hpc)
  have htold := h.spaced.listed.told id hpc
  -- there is room to come, and no permit is left lying while somebody waits
  obtain hq | howed | hset | hbit | hhanded := h.spaced.room ⟨id, .inl (.inr hpc)⟩
  · exact .inl hq
  · exact .inr (.inl howed)
  · have hclear := h.spaced.listed.permit (ne_nil_of_mem hmem)
    rw [hset] at hclear
    cases hclear
  · have hbefore := h.closing.bit.mp hbit
    refine .inr (.inr (.inr ?_))
    simp only [mem_cons] at htold ⊢
    tauto
  · exact .inr (.inr (.inl hhanded))

/-- **Writer queues lose neither frames nor wakeups.**  In every interleaving:
commands leave the queue in the order in which it took them; a parked writer has
a permit, or a sender about to give it one, whenever there is something in the
queue and no teardown under way; a `push` that waits for space has something to
pop, a `notify_space` to come, another sender that was told and is to try again,
or a teardown that is about to wake it; and after the teardown the queue is empty
for good and every new call is refused. -/
theorem no_lost_frames (kind : QueueKind) (capacity : ℕ) (es : List Event) :
    ((after kind capacity es).accepted =
        (after kind capacity es).popped ++ (after kind capacity es).queue ∧
      (after kind capacity es).consumed.Sublist (after kind capacity es).popped ∧
      ((after kind capacity es).closer = .before →
        (after kind capacity es).consumed = (after kind capacity es).popped)) ∧
    ((after kind capacity es).writer = .parked → (after kind capacity es).queue ≠ [] →
      (after kind capacity es).dataPermit = true ∨
        Someone (announces kind) (after kind capacity es) ∨
        (after kind capacity es).closer ∉ [.before, .returned]) ∧
    (∀ id, (after kind capacity es).pcOf id = .awaiting .waiting →
      (after kind capacity es).queue ≠ [] ∨ 0 < (after kind capacity es).owed ∨
        Someone handed (after kind capacity es) ∨
        (after kind capacity es).closer ∈ [.marked, .stored]) ∧
    ((after kind capacity es).closer = .returned →
      ∀ es', (after kind capacity (es ++ es')).queue = []) ∧
    ∀ id, ((after kind capacity es).senders id).late = true →
      (after kind capacity es).pcOf id = .starting false ∨
        (after kind capacity es).pcOf id = .returned .closed := by
  have h := sound_after kind capacity es
  refine ⟨⟨h.logged.1, h.logged.2.1, ?_⟩, ?_, fun id hpc => h.waiting hpc, ?_, ?_⟩
  · intro hbefore
    exact h.logged.2.2 (by rw [hbefore]; simp)
  · intro hpark hne
    by_cases hbefore : (after kind capacity es).closer = .before
    · exact (h.parked hpark hne hbefore).imp_right .inl
    · refine .inr (.inr fun hmem => ?_)
      simp only [mem_cons, not_mem_nil, or_false] at hmem
      exact hne (h.closing.empty (hmem.resolve_left hbefore))
  · intro hret es'
    -- the teardown has returned for good
    have hstill : (after kind capacity (es ++ es')).closer = .returned := by
      unfold after
      rw [Run.exec_append]
      exact Run.exec_invariant (P := fun s : WriterQueue => s.closer = .returned)
        (fun _ e hcls => closer_step hcls e) hret es'
    exact (sound_after kind capacity (es ++ es')).closing.empty hstill
  · intro id hlate
    exact (h.closing.late id hlate).2

/-! ### Between two operations -/

/-- A call of `try_push` and its `notify_data`, to the end. -/
def pushedBy (id command : ℕ) : List Event :=
  .begin id .tryPush command :: List.replicate 6 (.send id)

/-- A writer that parks, and a sender that is overtaken by the teardown. -/
def overtaken : List Event :=
  [.write .preparePark, .write .preparePark, .write .park, .begin 0 .tryPush 7, .send 0, .close,
    .send 0, .send 0, .send 0]

/-- Two senders find the queue full; the writer empties it; the first of them takes
the one permit that is left, the second one waits. -/
def oneHanded : List Event :=
  (List.range 64).flatMap (pushedBy 0) ++
    [.begin 1 .push 1, .send 1, .send 1, .send 1, .begin 2 .push 2, .send 2, .send 2, .send 2] ++
    List.replicate 64 (.write .pop) ++ List.replicate 64 (.write .notifySpace) ++
    [.send 1, .send 1, .send 2, .send 2, .send 2]

set_option maxRecDepth 20000 in
/-- A parked writer with a command in its queue and nobody about to wake it; and a
`push` that waits with nothing to pop and no notification to come. -/
theorem idle_between_operations :
    ((after .write 0 overtaken).writer = .parked ∧ (after .write 0 overtaken).queue = [7] ∧
      (after .write 0 overtaken).dataPermit = false ∧
      (after .write 0 overtaken).pcOf 0 = .returned .closedDropped) ∧
    (after .streaming 0 oneHanded).pcOf 2 = .awaiting .waiting ∧
      (after .streaming 0 oneHanded).queue = [] ∧ (after .streaming 0 oneHanded).owed = 0 ∧
      (after .streaming 0 oneHanded).closer = .before := by
  decide +kernel

end WriterQueue

end IcanactRemote
