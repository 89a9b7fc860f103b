/-
Requests, replies and guards seen from one party of the reap system.

What one event can do outside the guards is said once (`step_cases`, and for
the requests alone `exchange_cases`).  From it: the owner's state is the one its
recorded history leads to (`owner_eq_ownerRun`); a request waits in the mailbox
until it is handled and answered, and its reply stays (`awaits_step`,
`replies_step`); a live guard stays as it is while its holder does nothing with
it (`guards_step`).
-/
import IcanactRemote.ReapSystem

namespace IcanactRemote

open List Function

namespace ReapSystem

variable {s s' : ReapSystem}

/-! ### Requests and their replies -/

/-- The owner has not heard of what happened, and no request or reply is
concerned. -/
structure GuardsOnly (s s' : ReapSystem) : Prop where
  owner : s'.owner = s.owner
  history : s'.history = s.history
  mailbox : s'.mailbox = s.mailbox
  requests : s'.requests = s.requests
  replies : s'.replies = s.replies
  cancelled : s'.cancelled = s.cancelled

variable (s)

lemma GuardsOnly.refl : GuardsOnly s s := ⟨rfl, rfl, rfl, rfl, rfl, rfl⟩

lemma guardsOnly_setPhase (c : CellId) (phase : GuardPhase) : GuardsOnly s (s.setPhase c phase) :=
  ⟨rfl, rfl, rfl, rfl, rfl, rfl⟩

lemma guardsOnly_enqueueReapRelease (c : CellId) (phase : GuardPhase) :
    GuardsOnly s (s.enqueueReapRelease c phase) := by
  rw [enqueueReapRelease]
  rcases s.guards[c]? with _ | g
  · exact .refl s
  · by_cases hl : g.live = true
    · simp only [if_pos hl]
      exact ⟨rfl, rfl, rfl, rfl, rfl, rfl⟩
    · simp only [if_neg hl]
      exact .refl s

lemma guardsOnly_dropReply (r : ℕ) (reply : OwnerReply) : GuardsOnly s (s.dropReply r reply) := by
  rw [dropReply]
  rcases s.inReply r reply with _ | c
  · exact .refl s
  · exact s.guardsOnly_enqueueReapRelease c .dropped

lemma guardsOnly_receive (r : ℕ) (reply : OwnerReply) : GuardsOnly s (s.receive r reply) := by
  rw [receive]
  rcases s.inReply r reply with _ | c
  · exact .refl s
  · exact s.guardsOnly_setPhase c .held

lemma guardsOnly_drop (c : CellId) : GuardsOnly s (s.drop c) := by
  rw [drop]
  rcases s.phaseOf c with _ | (_ | _ | _ | _)
  · exact .refl s
  · exact .refl s
  · exact s.guardsOnly_enqueueReapRelease c .dropped
  · exact s.guardsOnly_setPhase c .dropped
  · exact .refl s

lemma serve_frame (req : OwnerRequest) : (s.serve req).owner = (s.owner.handle req.cmd).1 ∧
    (s.serve req).history = s.history ++ [.command req.cmd] ∧
    (s.serve req).mailbox = s.mailbox ∧ (s.serve req).requests = s.requests ∧
    (s.serve req).replies = s.replies ∧ (s.serve req).cancelled = s.cancelled := by
  rw [serve.eq_def]
  split <;> exact ⟨rfl, rfl, rfl, rfl, rfl, rfl⟩

lemma handleRequest_frame (req : OwnerRequest) :
    (s.handleRequest req).owner = (s.owner.handle req.cmd).1 ∧
      (s.handleRequest req).history = s.history ++ [.command req.cmd] ∧
      (s.handleRequest req).mailbox = s.mailbox ∧
      (s.handleRequest req).requests = s.requests ∧
      (s.handleRequest req).cancelled = s.cancelled ∧
      (s.handleRequest req).replies = if s.cancelled req.id then s.replies
        else update s.replies req.id (some (s.owner.handle req.cmd).2) := by
  obtain ⟨hown, hhist, hmail, hreq, hrep, hcan⟩ := s.serve_frame req
  by_cases hc : s.cancelled req.id = true
  · have hdrop := (s.serve req).guardsOnly_dropReply req.id (s.owner.handle req.cmd).2
    simp only [handleRequest, if_pos hc]
    exact ⟨hdrop.owner.trans hown, hdrop.history.trans hhist, hdrop.mailbox.trans hmail,
      hdrop.requests.trans hreq, hdrop.cancelled.trans hcan, hdrop.replies.trans hrep⟩
  · simp only [handleRequest, if_neg hc]
    exact ⟨hown, hhist, hmail, hreq, hcan, trivial⟩

theorem step_cases (e : ReapEvent) : GuardsOnly s (s.step e) ∨
    (∃ cmd ordinary, e = .submit cmd ordinary ∧ s.step e = { s with
      mailbox := s.mailbox ++ [⟨s.requests, cmd, ordinary⟩], requests := s.requests + 1 }) ∨
    (∃ r, e = .cancel r ∧ r < s.requests ∧
      GuardsOnly { s with cancelled := update s.cancelled r true } (s.step e)) ∨
    (∃ c, e = .tryConsume c ∧ s.phaseOf c = some .held ∧
      s.step e = s.advance (.tryConsume c)) ∨
    (∃ c addr rest, e = .poll ∧ s.releases = (c, addr) :: rest ∧ s.step e =
      (s.popRelease rest).advance (.command (.releaseReapReservation addr))) ∨
    ∃ req rest, e = .poll ∧ s.mailbox = req :: rest ∧
      s.step e = (s.popMailbox rest).handleRequest req := by
  cases e with
  | submit cmd ordinary =>
    rw [step]
    split_ifs
    · exact Or.inr (Or.inl ⟨cmd, ordinary, rfl, rfl⟩)
    · exact Or.inl (.refl s)
  | cancel r =>
    rw [step]
    split_ifs with hlt
    · refine Or.inr (Or.inr (Or.inl ⟨r, rfl, hlt, ?_⟩))
      simp only [cancel]
      rcases s.replies r with _ | reply
      · exact .refl _
      · exact guardsOnly_dropReply _ r reply
    · exact Or.inl (.refl s)
  | receive r =>
    left
    simp only [step]
    rcases s.replies r with _ | reply
    · exact .refl s
    · exact s.guardsOnly_receive r reply
  | release c =>
    left
    rw [step]
    split_ifs
    · exact s.guardsOnly_enqueueReapRelease c .released
    · exact .refl s
  | drop c => exact Or.inl (s.guardsOnly_drop c)
  | tryConsume c =>
    rw [step]
    split_ifs with hheld
    · exact Or.inr (Or.inr (Or.inr (Or.inl ⟨c, rfl, hheld, rfl⟩)))
    · exact Or.inl (.refl s)
  | poll =>
    rcases s.poll_cases with ⟨turn, heq⟩ | ⟨c, addr, rest, hrel, heq⟩ | ⟨req, rest, hmail, heq⟩
    · left
      rw [step, heq]
      exact ⟨rfl, rfl, rfl, rfl, rfl, rfl⟩
    · exact Or.inr (Or.inr (Or.inr (Or.inr (Or.inl ⟨c, addr, rest, rfl, hrel, heq⟩))))
    · exact Or.inr (Or.inr (Or.inr (Or.inr (Or.inr ⟨req, rest, rfl, hmail, heq⟩))))

/-- What an event does to the owner's state: nothing, or one step that is
recorded.  Only the holder of a guard consumes it, and only a queued release
is processed. -/
lemma owner_step_cases (e : ReapEvent) :
    ((s.step e).owner = s.owner ∧ (s.step e).history = s.history) ∨
      ∃ ev, (s.step e).owner = s.owner.step ev ∧ (s.step e).history = s.history ++ [ev] ∧
        (∀ c, ev = .tryConsume c → e = .tryConsume c ∧ s.phaseOf c = some .held) ∧
        ∀ a, ev = .command (.releaseReapReservation a) → ∃ c, (c, a) ∈ s.releases := by
  rcases s.step_cases e with hg | ⟨cmd, hord, -, heq⟩ | ⟨r, -, -, hg⟩ | ⟨c, he, hheld, heq⟩ |
    ⟨c, addr, rest, -, hrel, heq⟩ | ⟨req, rest, -, -, heq⟩
  · exact Or.inl ⟨hg.owner, hg.history⟩
  · rw [heq]
    exact Or.inl ⟨rfl, rfl⟩
  · exact Or.inl ⟨hg.owner, hg.history⟩
  · rw [heq]
    refine Or.inr ⟨_, rfl, rfl, fun c' hc => ?_, fun a ha => absurd ha (by simp)⟩
    obtain rfl : c = c' := by injection hc
    exact ⟨he, hheld⟩
  · rw [heq]
    refine Or.inr ⟨_, rfl, rfl, fun c' hc => absurd hc (by simp), fun a ha => ⟨c, ?_⟩⟩
    obtain rfl : addr = a := by
      injection ha with ha
      injection ha
    rw [hrel]
    exact mem_cons_self
  · obtain ⟨hown, hhist, -⟩ := (s.popMailbox rest).handleRequest_frame req
    rw [heq]
    refine Or.inr ⟨.command req.cmd, hown, hhist, fun c' hc => absurd hc (by simp),
      fun a ha => ?_⟩
    exact absurd (OwnerEvent.command.inj ha) (req.ordinary a)

variable {s}

variable (hasher : SocketAddr → UInt64) {e : ReapEvent} {g : ReapReservation} {req : OwnerRequest}
  {cmd : OwnerCommand} {phase : GuardPhase} {c c' : CellId} {r : ℕ}
  (routing : Option (List RoutingCall))

lemma owner_eq_ownerRun (h : s.owner = ownerRun hasher routing s.history) (e : ReapEvent) :
    (s.step e).owner = ownerRun hasher routing (s.step e).history := by
  rcases s.owner_step_cases e with ⟨hown, hhist⟩ | ⟨ev, hown, hhist, -⟩
  · rw [hown, hhist]
    exact h
  · rw [hown, hhist, ownerRun, Run.exec_concat, h]
    rfl

/-- No request or reply is concerned. -/
structure SameExchange (s s' : ReapSystem) : Prop where
  mailbox : s'.mailbox = s.mailbox
  requests : s'.requests = s.requests
  replies : s'.replies = s.replies
  cancelled : s'.cancelled = s.cancelled

lemma GuardsOnly.sameExchange (h : GuardsOnly s s') : SameExchange s s' :=
  ⟨h.mailbox, h.requests, h.replies, h.cancelled⟩

lemma exchange_cases (s : ReapSystem) (e : ReapEvent) : SameExchange s (s.step e) ∨
    (∃ cmd ordinary, s.step e = { s with
      mailbox := s.mailbox ++ [⟨s.requests, cmd, ordinary⟩], requests := s.requests + 1 }) ∨
    (∃ r, e = .cancel r ∧ r < s.requests ∧
      SameExchange { s with cancelled := update s.cancelled r true } (s.step e)) ∨
    ∃ req rest, s.mailbox = req :: rest ∧
      s.step e = (s.popMailbox rest).handleRequest req := by
  rcases s.step_cases e with hg | ⟨cmd, hord, -, heq⟩ | ⟨r, he, hlt, hg⟩ | ⟨c, -, -, heq⟩ |
    ⟨c, addr, rest, -, -, heq⟩ | ⟨req, rest, -, hmail, heq⟩
  · exact Or.inl hg.sameExchange
  · exact Or.inr (Or.inl ⟨cmd, hord, heq⟩)
  · exact Or.inr (Or.inr (Or.inl ⟨r, he, hlt, hg.sameExchange⟩))
  · rw [heq]
    exact Or.inl ⟨rfl, rfl, rfl, rfl⟩
  · rw [heq]
    exact Or.inl ⟨rfl, rfl, rfl, rfl⟩
  · exact Or.inr (Or.inr (Or.inr ⟨req, rest, hmail, heq⟩))

/-- Requests are numbered apart, and a waiting one has no reply yet. -/
structure Numbered (s : ReapSystem) : Prop where
  nodup : (s.mailbox.map OwnerRequest.id).Nodup
  lt : ∀ q ∈ s.mailbox, q.id < s.requests
  unanswered : ∀ q ∈ s.mailbox, s.replies q.id = none
  answered : ∀ r, s.replies r ≠ none → r < s.requests
  uncancelled : ∀ r, s.cancelled r = true → r < s.requests

lemma numbered_start : Numbered (start hasher routing) := by
  refine ⟨nodup_nil, ?_, ?_, ?_, ?_⟩ <;> simp [start]

section

variable (h : Numbered s)
include h

lemma Numbered.of_sameExchange (hs : SameExchange s s') : Numbered s' := by
  obtain ⟨hmail, hreq, hrep, hcan⟩ := hs
  exact ⟨hmail ▸ h.nodup, hmail ▸ hreq ▸ h.lt, hmail ▸ hrep ▸ h.unanswered,
    hreq ▸ hrep ▸ h.answered, hreq ▸ hcan ▸ h.uncancelled⟩

lemma Numbered.submit (cmd : OwnerCommand)
    (ordinary : ∀ addr, cmd ≠ .releaseReapReservation addr) : Numbered { s with
      mailbox := s.mailbox ++ [⟨s.requests, cmd, ordinary⟩], requests := s.requests + 1 } := by
  refine ⟨?_, fun q hq => ?_, fun q hq => ?_, fun r hr => Nat.lt_succ_of_lt (h.answered r hr),
    fun r hr => Nat.lt_succ_of_lt (h.uncancelled r hr)⟩
  · rw [map_append, nodup_append]
    refine ⟨h.nodup, nodup_singleton _, fun i hi j hj hij => ?_⟩
    obtain ⟨q, hq, rfl⟩ := mem_map.mp hi
    have hlt := h.lt q hq
    rw [hij, mem_singleton.mp hj] at hlt
    exact absurd hlt (Nat.lt_irrefl _)
  · rcases mem_append.mp hq with hq | hq
    · exact Nat.lt_succ_of_lt (h.lt q hq)
    · rw [mem_singleton.mp hq]
      exact Nat.lt_succ_self _
  · rcases mem_append.mp hq with hq | hq
    · exact h.unanswered q hq
    · rw [mem_singleton.mp hq]
      by_contra hne
      exact absurd (h.answered _ hne) (Nat.lt_irrefl _)

lemma Numbered.handleRequest {rest : List OwnerRequest} (hmail : s.mailbox = req :: rest) :
    Numbered ((s.popMailbox rest).handleRequest req) := by
  obtain ⟨-, -, hm, hreq, hcan, hrep⟩ := (s.popMailbox rest).handleRequest_frame req
  replace hm : ((s.popMailbox rest).handleRequest req).mailbox = rest := hm
  have hmem : ∀ q ∈ rest, q ∈ s.mailbox := fun q hq => by
    rw [hmail]
    exact mem_cons_of_mem _ hq
  have hnd := h.nodup
  rw [hmail, map_cons, nodup_cons] at hnd
  refine ⟨by rw [hm]; exact hnd.2, fun q hq => ?_, fun q hq => ?_, fun r hr => ?_,
    fun r hr => ?_⟩
  · rw [hreq]
    exact h.lt q (hmem q (hm ▸ hq))
  · have hq' : q ∈ rest := hm ▸ hq
    -- a request that still waits is not the one answered
    have hne : q.id ≠ req.id := fun he => hnd.1 (he ▸ mem_map_of_mem hq')
    rw [hrep]
    split_ifs
    · exact h.unanswered q (hmem q hq')
    · rw [update_of_ne hne]
      exact h.unanswered q (hmem q hq')
  · rw [hreq]
    by_cases he : r = req.id
    · rw [he]
      exact h.lt req (by rw [hmail]; exact mem_cons_self)
    · refine h.answered r fun hnone => hr ?_
      rw [hrep]
      split_ifs
      · exact hnone
      · rw [update_of_ne he]
        exact hnone
  · rw [hreq]
    rw [hcan] at hr
    exact h.uncancelled r hr

lemma Numbered.step (e : ReapEvent) : Numbered (s.step e) := by
  rcases s.exchange_cases e with hsame | ⟨cmd, hord, heq⟩ | ⟨r, -, hlt, hsame⟩ |
    ⟨req, rest, hmail, heq⟩
  · exact h.of_sameExchange hsame
  · rw [heq]
    exact h.submit cmd hord
  · have h' : Numbered { s with cancelled := update s.cancelled r true } := by
      refine ⟨h.nodup, h.lt, h.unanswered, h.answered, fun r' hr' => ?_⟩
      by_cases hr : r' = r
      · exact hr ▸ hlt
      · exact h.uncancelled r' ((update_of_ne hr _ _).symm.trans hr')
    exact h'.of_sameExchange hsame
  · rw [heq]
    exact h.handleRequest hmail

lemma replies_step {reply : OwnerReply} (hr : s.replies r = some reply) (e : ReapEvent) :
    (s.step e).replies r = some reply := by
  rcases s.exchange_cases e with hsame | ⟨cmd, hord, heq⟩ | ⟨r', -, -, hsame⟩ |
    ⟨req, rest, hmail, heq⟩
  · rw [hsame.replies]
    exact hr
  · rw [heq]
    exact hr
  · rw [hsame.replies]
    exact hr
  · obtain ⟨-, -, -, -, -, hrep⟩ := (s.popMailbox rest).handleRequest_frame req
    have hne : r ≠ req.id := by
      rintro rfl
      have hnone := h.unanswered req (by rw [hmail]; exact mem_cons_self)
      cases hr.symm.trans hnone
    rw [heq, hrep]
    split_ifs
    · exact hr
    · rw [update_of_ne hne]
      exact hr

end

lemma cancelled_step (h : s.cancelled r = false) (he : e ≠ .cancel r) :
    (s.step e).cancelled r = false := by
  rcases s.exchange_cases e with hsame | ⟨cmd, hord, heq⟩ | ⟨r', rfl, -, hsame⟩ |
    ⟨req, rest, -, heq⟩
  · rw [hsame.cancelled]
    exact h
  · rw [heq]
    exact h
  · have hne : r ≠ r' := fun hr => he (hr ▸ rfl)
    rw [hsame.cancelled]
    exact (update_of_ne hne _ _).trans h
  · obtain ⟨-, -, -, -, hcan, -⟩ := (s.popMailbox rest).handleRequest_frame req
    rw [heq, hcan]
    exact h

/-- Request `r` waits in the mailbox with command `cmd`. -/
def Awaits (s : ReapSystem) (r : ℕ) (cmd : OwnerCommand) : Prop :=
  s.cancelled r = false ∧ ∃ q ∈ s.mailbox, q.id = r ∧ q.cmd = cmd

lemma Awaits.unanswered (hw : Awaits s r cmd) (h : Numbered s) : s.replies r = none := by
  obtain ⟨q, hq, hid, -⟩ := hw.2
  exact hid ▸ h.unanswered q hq

lemma awaits_step (hw : Awaits s r cmd) (he : e ≠ .cancel r) : Awaits (s.step e) r cmd ∨
    ∃ req rest, req.id = r ∧ req.cmd = cmd ∧ s.mailbox = req :: rest ∧
      s.step e = (s.popMailbox rest).handleRequest req := by
  have hcan := cancelled_step hw.1 he
  obtain ⟨q, hq, hid, hcmd⟩ := hw.2
  rcases s.exchange_cases e with hsame | ⟨cmd', hord, heq⟩ | ⟨r', -, -, hsame⟩ |
    ⟨req, rest, hmail, heq⟩
  · exact Or.inl ⟨hcan, q, hsame.mailbox ▸ hq, hid, hcmd⟩
  · refine Or.inl ⟨hcan, q, ?_, hid, hcmd⟩
    rw [heq]
    exact mem_append_left _ hq
  · exact Or.inl ⟨hcan, q, hsame.mailbox ▸ hq, hid, hcmd⟩
  · rcases mem_cons.mp (hmail ▸ hq) with rfl | hq'
    · exact Or.inr ⟨q, rest, hid, hcmd, hmail, heq⟩
    · obtain ⟨-, -, hm, -⟩ := (s.popMailbox rest).handleRequest_frame req
      refine Or.inl ⟨hcan, q, ?_, hid, hcmd⟩
      rw [heq, hm]
      exact hq'

lemma handled_frame (rest : List OwnerRequest) (h : s.cancelled req.id = false) :
    ((s.popMailbox rest).handleRequest req).history = s.history ++ [.command req.cmd] ∧
      ((s.popMailbox rest).handleRequest req).replies req.id
        = some (s.owner.handle req.cmd).2 := by
  obtain ⟨-, hhist, -, -, -, hrep⟩ := (s.popMailbox rest).handleRequest_frame req
  have hcan : ¬ (s.popMailbox rest).cancelled req.id = true := by
    show ¬ s.cancelled req.id = true
    rw [h]
    simp
  refine ⟨hhist, ?_⟩
  rw [hrep, if_neg hcan, update_self]
  rfl

/-! ### The guard of one party -/

lemma guards_setPhase_of_ne (h : c' ≠ c) : (s.setPhase c' phase).guards[c]? = s.guards[c]? := by
  simp [setPhase, h]

lemma guards_enqueueReapRelease_of_ne (h : c' ≠ c) :
    (s.enqueueReapRelease c' phase).guards[c]? = s.guards[c]? := by
  rw [enqueueReapRelease]
  rcases s.guards[c']? with _ | g
  · rfl
  · by_cases hl : g.live = true
    · simp only [if_pos hl]
      exact guards_setPhase_of_ne h
    · simp [if_neg hl]

lemma guards_serve_of_lt (h : c < s.guards.length) : (s.serve req).guards[c]? = s.guards[c]? := by
  rw [serve.eq_def]
  split
  · exact getElem?_append_left h
  · rfl

lemma guards_handleRequest (hs : Guarded s) (hg : s.guards[c]? = some g) :
    (s.handleRequest req).guards[c]? = some g := by
  have hlt : c < s.guards.length := (List.getElem?_eq_some_iff.mp hg).1
  have hadm : (s.serve req).guards[c]? = some g := (guards_serve_of_lt hlt).trans hg
  simp only [handleRequest]
  split_ifs
  · rw [dropReply]
    rcases hr : (s.serve req).inReply req.id (s.owner.handle req.cmd).2 with _ | c'
    · exact hadm
    · -- a reply that is lost carries a new guard
      have hreply : (s.owner.handle req.cmd).2 = .reserveForReap (some c') := by
        rw [inReply.eq_def] at hr
        split at hr
        · next heq =>
          split_ifs at hr
          rw [heq, Option.some.inj hr]
        · simp at hr
      obtain ⟨-, -, -, hc', -⟩ := serve_of_granted hreply
      have hne : c' ≠ c := by
        rw [hc', ← hs.aligned]
        exact Nat.ne_of_gt hlt
      exact (guards_enqueueReapRelease_of_ne hne).trans hadm
  · exact hadm

/-- A live guard stays as it is while nobody uses it and nobody answers for
the request it travels to. -/
lemma guards_step (hs : Guarded s) (hg : s.guards[c]? = some g) (hlive : g.live = true)
    (hheld : g.phase = .held → e ≠ .release c ∧ e ≠ .drop c)
    (hreply : ∀ r, g.phase = .inReply r → e ≠ .cancel r ∧ e ≠ .receive r) :
    (s.step e).guards[c]? = some g := by
  have hph : s.phaseOf c = some g.phase := by rw [phaseOf, hg, Option.map_some]
  -- a guard in another reply is another guard
  have hoth : ∀ r reply c', s.inReply r reply = some c' → g.phase ≠ .inReply r → c' ≠ c := by
    rintro r reply c' hr hno rfl
    exact hno (Option.some.inj (hph.symm.trans (phaseOf_inReply hr)))
  cases e with
  | submit | tryConsume =>
    rw [step]
    split_ifs <;> exact hg
  | cancel r =>
    rw [step]
    split_ifs
    · simp only [cancel]
      rcases s.replies r with _ | reply
      · exact hg
      · simp only [dropReply]
        rcases hr : inReply { s with cancelled := update s.cancelled r true } r reply with _ | c'
        · exact hg
        · have hne : c' ≠ c := hoth r reply c' hr fun hp => (hreply r hp).1 rfl
          exact (guards_enqueueReapRelease_of_ne hne).trans hg
    · exact hg
  | receive r =>
    simp only [step]
    rcases s.replies r with _ | reply
    · exact hg
    · simp only [receive]
      rcases hr : s.inReply r reply with _ | c'
      · exact hg
      · have hne : c' ≠ c := hoth r reply c' hr fun hp => (hreply r hp).2 rfl
        exact (guards_setPhase_of_ne hne).trans hg
  | release c' =>
    rw [step]
    split_ifs with hh
    · have hne : c' ≠ c := by
        rintro rfl
        exact (hheld (Option.some.inj (hph.symm.trans hh))).1 rfl
      exact (guards_enqueueReapRelease_of_ne hne).trans hg
    · exact hg
  | drop c' =>
    rw [step, drop]
    rcases hp : s.phaseOf c' with _ | (_ | _ | _ | _)
    · exact hg
    · exact hg
    · have hne : c' ≠ c := by
        rintro rfl
        exact (hheld (Option.some.inj (hph.symm.trans hp))).2 rfl
      exact (guards_enqueueReapRelease_of_ne hne).trans hg
    · have hne : c' ≠ c := by
        rintro rfl
        have hrel : g.phase = .released := Option.some.inj (hph.symm.trans hp)
        rw [ReapReservation.live, hrel] at hlive
        simp at hlive
      exact (guards_setPhase_of_ne hne).trans hg
    · exact hg
  | poll =>
    rcases s.poll_cases with ⟨turn, heq⟩ | ⟨c', addr, rest, -, heq⟩ | ⟨req, rest, -, heq⟩
    · rw [step, heq]
      exact hg
    · rw [step, heq]
      exact hg
    · have hs' : Guarded (s.popMailbox rest) := ⟨hs.aligned, hs.sound, hs.kept⟩
      rw [step, heq]
      exact guards_handleRequest hs' hg

end ReapSystem

end IcanactRemote
