/-
Compact routed asks reach the actor they were meant for.

The argument rests on the gate: between its lookup and the end of its ask a
call is alone with the outbound table, so a new slot is either on its way to
the queue or bound there, and a rollback removes only slots the queue has not
seen, unless the queue is closing and takes nothing more.

* `RouteConnection.Inv` ties the two tables to the frames on the queue;
* `Inv.step` — every step keeps it;
* `routed_asks_reach_their_actor` — along every run the receiver refuses no
  bind, knows every slot, and resolves it to the key its sender passed.
-/
import IcanactRemote.Roster
import IcanactRemote.RoutedAsks
import IcanactRemote.Run

namespace IcanactRemote

open Roster List Prod Option Function

open RouteTable

/-- Stages that a call reaches only with the gate in its hands. -/
def AskStage.routed : AskStage → Bool
  | .locked | .sending (.bind _) _ | .sending (.ask _) _ => true
  | _ => false

def PushStage.isAppended : PushStage → Bool
  | .appended _ => true
  | _ => false

/-- Between the admission guard and the end of the enqueue. -/
def PushStage.inside : PushStage → Bool
  | .admitted _ | .appended _ => true
  | _ => false

def RouteFrame.slot? : RouteFrame → Option UInt32
  | .routeBind slot _ | .routedActorAsk _ slot => some slot
  | .actorAsk .. => none

namespace RouteConnection

/-! ### The invariant -/

/-- The frames put on the queue so far, in order. -/
def sent (s : RouteConnection) : List SentFrame := s.received.map Prod.fst ++ s.queue

/-- The pair a frame binds. -/
def bindOf (f : SentFrame) : Option (UInt32 × RouteKey) :=
  match f.frame with
  | .routeBind slot key => some (slot, key)
  | _ => none

/-- The pairs these frames bind, in order. -/
def bindsOf (fs : List SentFrame) : List (UInt32 × RouteKey) := fs.filterMap bindOf

def binds (s : RouteConnection) : List (UInt32 × RouteKey) := bindsOf s.sent

/-- The call's binding is on the queue if it is sending one. -/
abbrev BindSent (s : RouteConnection) (id : ℕ) : Prop :=
  ∀ c₀ slot push, s.calls id = some c₀ → c₀.stage = .sending (.bind slot) push →
    (slot, c₀.key) ∈ s.binds

/-- What the frames on the queue say about a call. -/
def Custody (s : RouteConnection) (c : AskCall) : Prop :=
  match c.stage with
  | .sending (.bind slot) push =>
    s.outbound.bySlot.get slot = some c.key ∧
      if push.isAppended then (slot, c.key) ∈ s.binds else slot ∉ s.binds.map Prod.fst
  | .sending (.ask slot) _ => (slot, c.key) ∈ s.binds
  | _ => True

/-- A call is inside an enqueue that it started with the gate in its hands. -/
def Inside (s : RouteConnection) : Prop :=
  ∃ id c what push, s.calls id = some c ∧ c.stage = .sending what push ∧
    c.stage.routed = true ∧ push.inside = true

/-- What holds between the two tables, the calls and the queue. -/
structure Inv (s : RouteConnection) (limit : ℕ) : Prop where
  outbound : s.outbound.Wf
  inbound : s.inbound.Wf
  limits : s.outbound.maxRoutes = limit ∧ s.inbound.maxRoutes = limit
  closing : s.closed = true → s.closing = true
  started : 1 ≤ s.outbound.nextSlot.toNat
  fresh : ∀ e ∈ s.issued, e.1.toNat < s.outbound.nextSlot.toNat
  issuedOnce : (s.issued.map Prod.fst).Nodup
  tableIssued : ∀ slot key, s.outbound.bySlot.get slot = some key → (slot, key) ∈ s.issued
  issuedNonzero : ∀ e ∈ s.issued, e.1 ≠ 0
  bindsIssued : ∀ e ∈ s.binds, e ∈ s.issued
  holder : ∀ id c, s.calls id = some c → c.stage.routed = true → s.gate = some id
  custody : ∀ id c, s.calls id = some c → s.Custody c
  bound : ∀ slot key, s.outbound.bySlot.get slot = some key → (slot, key) ∈ s.binds ∨
    ∃ id c push, s.calls id = some c ∧ c.stage = .sending (.bind slot) push ∧ c.key = key
  kept : s.closing = false ∨ s.Inside → ∀ e ∈ s.binds, s.outbound.bySlot.get e.1 = some e.2
  slotsOnce : (s.binds.map Prod.fst).Nodup
  keysOnce : (s.binds.map Prod.snd).Nodup
  room : s.binds.length ≤ limit
  bindsFirst : ∀ pre f post correlationId slot, s.sent = pre ++ f :: post →
    f.frame = .routedActorAsk correlationId slot → (slot, f.key) ∈ bindsOf pre
  learned : ∀ slot key, s.inbound.bySlot.get slot = some key ↔
    (slot, key) ∈ bindsOf (s.received.map Prod.fst)
  learnedLen : s.inbound.byKey.len = (bindsOf (s.received.map Prod.fst)).length
  outcomes : ∀ r ∈ s.received, r.2 = (if (bindOf r.1).isSome then .bound else .resolved r.1.key)
  uncompactKey : ∀ f ∈ s.sent, ∀ correlationId key requestId,
    f.frame = .actorAsk correlationId key requestId → key = f.key

variable {what : Sending} (maxMessageSize maxRoutes : ℕ) {st : AskStage} {slot : UInt32}
  {waited closing closed : Bool} {push push' : PushStage}

lemma inv_start : (start maxMessageSize maxRoutes).Inv maxRoutes where
  outbound := wf_withLimit _
  inbound := wf_withLimit _
  limits := ⟨rfl, rfl⟩
  closing := nofun
  started := by
    show 1 ≤ (1 : UInt32).toNat
    decide
  fresh := nofun
  issuedOnce := nodup_nil
  tableIssued := nofun
  issuedNonzero := nofun
  bindsIssued := nofun
  holder := nofun
  custody := nofun
  bound := nofun
  kept := nofun
  slotsOnce := nodup_nil
  keysOnce := nodup_nil
  room := Nat.zero_le _
  bindsFirst pre f post correlationId slot h := by
    have hnil : ([] : List SentFrame) = pre ++ f :: post := h
    simp at hnil
  learned slot key := ⟨nofun, nofun⟩
  learnedLen := rfl
  outcomes := nofun
  uncompactKey := nofun

variable {s : RouteConnection} {limit id j : ℕ} {c c' : AskCall}

lemma bindsOf_append (fs gs : List SentFrame) :
    bindsOf (fs ++ gs) = bindsOf fs ++ bindsOf gs := filterMap_append

lemma custody_of_not_routed (hst : c.stage.routed = false) : s.Custody c := by
  unfold Custody
  split
  next heq =>
    rw [heq] at hst
    cases hst
  next heq =>
    rw [heq] at hst
    cases hst
  · trivial

/-! ### Steps of one call -/

lemma Inv.unrouted_of_gate (h : s.Inv limit) (hgate : s.gate = some id) (hne : j ≠ id)
    (hj : s.calls j = some c') : c'.stage.routed = false := by
  by_contra hrouted
  have hheld := h.holder j c' hj (by simpa using hrouted)
  rw [hgate] at hheld
  exact hne (some.inj hheld).symm

lemma Inv.binder (h : s.Inv limit) (hgate : s.gate = some id) (hc : s.calls id = some c)
    (hj : s.calls j = some c') (hsg : c'.stage = .sending (.bind slot) push) : c' = c := by
  have hheld := h.holder j c' hj (by rw [hsg]; rfl)
  rw [hgate] at hheld
  cases hheld
  exact some.inj (hj.symm.trans hc)

lemma Inv.restage {gate : Option ℕ} (h : s.Inv limit) (hcust : s.Custody c)
    (hbd : ∀ c₀ slot push, s.calls id = some c₀ → c₀.stage = .sending (.bind slot) push →
      (slot, c₀.key) ∈ s.binds ∨ ∃ push', c.stage = .sending (.bind slot) push' ∧ c.key = c₀.key)
    (hheld : c.stage.routed = true → gate = some id)
    (hothers : ∀ j ≠ id, s.gate = some j → gate = some j)
    (hinside : ∀ what push, c.stage = .sending what push → c.stage.routed = true →
      push.inside = true → s.closing = false ∨ s.Inside) :
    Inv { s with calls := update s.calls id (some c), gate } limit := by
  refine { h with holder := ?_, custody := ?_, bound := ?_, kept := ?_ }
  · intro j c' hj hrouted
    obtain ⟨rfl, ⟨⟩⟩ | ⟨hne, hj⟩ := of_update hj
    · exact hheld hrouted
    · exact hothers j hne (h.holder j c' hj hrouted)
  · intro j c' hj
    obtain ⟨rfl, ⟨⟩⟩ | ⟨-, hj⟩ := of_update hj
    · exact hcust
    · exact h.custody j c' hj
  · intro slot key hslot
    obtain hmem | ⟨j, c', push, hj, hsg, hkey⟩ := h.bound slot key hslot
    · exact .inl hmem
    · by_cases hid : j = id
      · subst hid
        -- the entry was the call's own: it is sent now, or still being sent
        obtain hmem | ⟨push', hsg', hkey'⟩ := hbd c' slot push hj hsg
        · exact .inl (hkey ▸ hmem)
        · exact .inr ⟨j, c, push', update_self .., hsg', hkey'.trans hkey⟩
      · refine .inr ⟨j, c', push, ?_, hsg, hkey⟩
        exact (update_of_ne hid ..).trans hj
  · intro hopen
    apply h.kept
    obtain hopen | ⟨j, c', what, push, hj, hsg, hrouted, hin⟩ := hopen
    · exact .inl hopen
    · obtain ⟨rfl, ⟨⟩⟩ | ⟨-, hj⟩ := of_update hj
      · exact hinside what push hsg hrouted hin
      · exact .inr ⟨j, c', what, push, hj, hsg, hrouted, hin⟩

section

variable (h : s.Inv limit) (hst : st.routed = false) (hbd : s.BindSent id)
include h hst hbd

lemma Inv.unroute {gate : Option ℕ} (hothers : ∀ j ≠ id, s.gate = some j → gate = some j) :
    Inv { s.setStage id c st with gate } limit := by
  have hnot : ¬ st.routed = true := by simp [hst]
  apply h.restage
  · exact custody_of_not_routed hst
  · intro c₀ slot push hc hsg
    exact .inl (hbd c₀ slot push hc hsg)
  · exact fun hrouted => absurd hrouted hnot
  · exact hothers
  · exact fun _ _ _ hrouted => absurd hrouted hnot

lemma Inv.setStage_unrouted : (s.setStage id c st).Inv limit :=
  h.unroute hst hbd fun _ _ hj => hj

lemma Inv.finish : (s.finish id c st).Inv limit := by
  refine h.unroute hst hbd fun j hj hgate => ?_
  rw [hgate, if_neg (fun heq => hj (some.inj heq))]

end

lemma no_bind_of_stage (hc : s.calls id = some c)
    (hst : ∀ slot push, c.stage ≠ .sending (.bind slot) push) : s.BindSent id := by
  intro c₀ slot push hc₀ hsg
  rw [hc] at hc₀
  cases hc₀
  exact absurd hsg (hst slot push)

section

variable (h : s.Inv limit)
include h

lemma Inv.sendUncompact (hbd : s.BindSent id) : (s.sendUncompact id c).Inv limit := by
  unfold RouteConnection.sendUncompact
  split
  · exact h.finish rfl hbd
  · split
    · exact h.setStage_unrouted rfl hbd
    · exact h.finish rfl hbd

lemma Inv.sendAsk (hgate : s.gate = some id) (hmem : (slot, c.key) ∈ s.binds)
    (hbd : s.BindSent id) : (s.sendAsk id c slot).Inv limit := by
  unfold RouteConnection.sendAsk
  split
  · apply h.restage
    · exact hmem
    · intro c₀ slot' push hc hsg
      exact .inl (hbd c₀ slot' push hc hsg)
    · intro _
      exact hgate
    · intro j _ hj
      exact hj
    · intro what push hsg _ hin
      cases hsg
      cases hin
  · exact h.finish rfl hbd

lemma Inv.nextSlot_free : s.outbound.nextSlot ∉ s.issued.map fst ∧
    (∀ key, s.outbound.bySlot.get s.outbound.nextSlot ≠ some key) ∧
    s.outbound.nextSlot ∉ s.binds.map fst := by
  have hissued : s.outbound.nextSlot ∉ s.issued.map fst := by
    intro hmem
    obtain ⟨e, he, heq⟩ := mem_map.mp hmem
    have hlt := h.fresh e he
    rw [heq] at hlt
    omega
  refine ⟨hissued, ?_, ?_⟩
  · intro key hget
    exact hissued (mem_map_of_mem (h.tableIssued _ _ hget))
  · intro hmem
    obtain ⟨e, he, heq⟩ := mem_map.mp hmem
    exact hissued (heq ▸ mem_map_of_mem (h.bindsIssued e he))

variable (hc : s.calls id = some c)
include hc

lemma Inv.pushTo (hst : c.stage = .sending what push) (happ : push'.isAppended = push.isAppended)
    (hin : push'.inside = true → s.closing = false ∨ push.inside = true) :
    (s.setStage id c (.sending what push')).Inv limit := by
  have hrouted : (AskStage.sending what push').routed = c.stage.routed := by
    rw [hst]
    cases what <;> rfl
  apply h.restage
  · have hcust := h.custody id c hc
    unfold Custody at hcust ⊢
    rw [hst] at hcust
    cases what with
    | bind =>
      show _ ∧ if push'.isAppended = true then _ else _
      rw [happ]
      exact hcust
    | ask => exact hcust
    | uncompact => trivial
  · intro c₀ slot push₀ hc₀ hsg
    rw [hc] at hc₀
    cases hc₀
    rw [hst] at hsg
    cases hsg
    exact .inr ⟨push', rfl, rfl⟩
  · intro hr
    exact h.holder id c hc (hrouted ▸ hr)
  · intro j _ hj
    exact hj
  · intro what' push₀ hsg hr hinside
    cases hsg
    obtain hopen | hinside := hin hinside
    · exact .inl hopen
    · exact .inr ⟨id, c, what, push, hc, hst, hrouted ▸ hr, hinside⟩

lemma Inv.rollback_bind (hst : c.stage = .sending (.bind slot) push)
    (happ : push.isAppended = true → s.closing = true) (hend : st.routed = false) :
    ((s.rollback c (.bind slot)).finish id c st).Inv limit := by
  have hgate : s.gate = some id := h.holder id c hc (by rw [hst]; rfl)
  have hcust := h.custody id c hc
  unfold Custody at hcust
  rw [hst] at hcust
  obtain ⟨hslot, hqueued⟩ := hcust
  have hoth : ∀ j c', update s.calls id (some { c with stage := st }) j = some c' →
      c'.stage.routed = false := by
    intro j c' hj
    obtain ⟨rfl, ⟨⟩⟩ | ⟨hne, hj⟩ := of_update hj
    · exact hend
    · exact h.unrouted_of_gate hgate hne hj
  have hget : ∀ slot', (s.outbound.removeUnbound slot c.key).bySlot.get slot' =
      if slot' = slot then none else s.outbound.bySlot.get slot' := by
    intro slot'
    rw [removeUnbound_eq h.outbound hslot]
    exact Table.get_remove ..
  have hnext : (s.outbound.removeUnbound slot c.key).nextSlot = s.outbound.nextSlot := by
    rw [removeUnbound_eq h.outbound hslot]
  have hmax : (s.outbound.removeUnbound slot c.key).maxRoutes = s.outbound.maxRoutes := by
    rw [removeUnbound_eq h.outbound hslot]
  refine { h with
    outbound := h.outbound.removeUnbound slot c.key, limits := ⟨hmax.trans h.limits.1, h.limits.2⟩,
    started := ?_, fresh := ?_, tableIssued := ?_, holder := ?_, custody := ?_, bound := ?_,
    kept := ?_ }
  · show 1 ≤ (s.outbound.removeUnbound slot c.key).nextSlot.toNat
    rw [hnext]
    exact h.started
  · intro e he
    show e.1.toNat < (s.outbound.removeUnbound slot c.key).nextSlot.toNat
    rw [hnext]
    exact h.fresh e he
  · intro slot' key hslot'
    have hslot' := (hget slot').symm.trans hslot'
    split at hslot'
    · cases hslot'
    · exact h.tableIssued slot' key hslot'
  · intro j c' hj hrouted
    rw [hoth j c' hj] at hrouted
    cases hrouted
  · intro j c' hj
    exact custody_of_not_routed (hoth j c' hj)
  · intro slot' key hslot'
    have hslot' := (hget slot').symm.trans hslot'
    split at hslot'
    · cases hslot'
    next hne =>
      obtain hmem | ⟨j, c', push', hj, hsg, hkey⟩ := h.bound slot' key hslot'
      · exact .inl hmem
      · -- the holder of the gate was binding `slot`
        rw [h.binder hgate hc hj hsg, hst] at hsg
        cases hsg
        exact absurd rfl hne
  · intro hopen e he
    obtain hopen | ⟨j, c', what, push', hj, -, hrouted, -⟩ := hopen
    · have hopen : s.closing = false := hopen
      -- the bind is on the queue only if the connection is closing, and then nobody looks
      -- at the table again
      rw [if_neg (fun hpush => by rw [happ hpush] at hopen; cases hopen)] at hqueued
      refine (hget e.1).trans ?_
      rw [if_neg (fun heq : e.1 = slot => hqueued (heq ▸ mem_map_of_mem he))]
      exact h.kept (.inl hopen) e he
    · rw [hoth j c' hj] at hrouted
      cases hrouted

lemma Inv.rollback (hst : c.stage = .sending what push)
    (happ : push.isAppended = true → s.closing = true) (hend : st.routed = false) :
    ((s.rollback c what).finish id c st).Inv limit := by
  cases what with
  | bind => exact h.rollback_bind hc hst happ hend
  | ask | uncompact =>
    exact h.finish hend (no_bind_of_stage hc (hst ▸ nofun))

lemma Inv.allot (hst : c.stage = .locked) (hkey : s.outbound.byKey.get c.key = none)
    (hroom : s.outbound.byKey.len < s.outbound.maxRoutes) (hzero : s.outbound.nextSlot ≠ 0)
    (hlast : s.outbound.nextSlot ≠ 0xFFFFFFFF) : ({ s with
        outbound := { s.outbound with nextSlot := s.outbound.nextSlot + 1 }.enter
          s.outbound.nextSlot c.key
        issued := s.issued ++ [(s.outbound.nextSlot, c.key)] }.setStage id c
      (.sending (.bind s.outbound.nextSlot) .start)).Inv limit := by
  obtain ⟨hissued, hfree, hqueued⟩ := h.nextSlot_free
  have hgate : s.gate = some id := h.holder id c hc (by rw [hst]; rfl)
  have hsucc : (s.outbound.nextSlot + 1).toNat = s.outbound.nextSlot.toNat + 1 := by
    have hne : s.outbound.nextSlot.toNat ≠ 4294967295 := by
      intro heq
      exact hlast (UInt32.toNat_inj.mp heq)
    have hlt := s.outbound.nextSlot.toNat_lt
    rw [UInt32.toNat_add]
    show (s.outbound.nextSlot.toNat + 1) % 4294967296 = _
    omega
  have hget : ∀ slot, (s.outbound.bySlot.insert s.outbound.nextSlot c.key).get slot =
      if slot = s.outbound.nextSlot then some c.key else s.outbound.bySlot.get slot :=
    fun slot => Table.get_insert ..
  have hwf : Wf { s.outbound with nextSlot := s.outbound.nextSlot + 1 } :=
    ⟨h.outbound.inverse, h.outbound.bounded, h.outbound.sameLen, h.outbound.noZero⟩
  -- the new slot is the only entry that changes, and no bind on the queue names it yet
  refine { h with
    outbound := hwf.enter (eq_none_iff_forall_ne_some.mpr hfree) hkey hzero hroom,
    started := ?_, fresh := ?_, issuedOnce := ?_, tableIssued := ?_, issuedNonzero := ?_,
    bindsIssued := ?_, holder := ?_, custody := ?_, bound := ?_, kept := ?_ }
  · show 1 ≤ (s.outbound.nextSlot + 1).toNat
    omega
  · intro e he
    show e.1.toNat < (s.outbound.nextSlot + 1).toNat
    obtain he | he := mem_append.mp he
    · have := h.fresh e he
      omega
    · rw [mem_singleton.mp he]
      show s.outbound.nextSlot.toNat < _
      omega
  · show ((s.issued ++ [(s.outbound.nextSlot, c.key)]).map fst).Nodup
    rw [map_append]
    refine h.issuedOnce.append (nodup_singleton _) ?_
    intro slot hmem hnew
    rw [mem_singleton.mp hnew] at hmem
    exact hissued hmem
  · intro slot key hslot
    have hslot := (hget slot).symm.trans hslot
    split at hslot
    next heq =>
      rw [heq, ← some.inj hslot]
      exact mem_append_right _ mem_cons_self
    · exact mem_append_left _ (h.tableIssued slot key hslot)
  · intro e he
    obtain he | he := mem_append.mp he
    · exact h.issuedNonzero e he
    · rw [mem_singleton.mp he]
      exact hzero
  · intro e he
    exact mem_append_left _ (h.bindsIssued e he)
  · intro j c' hj hrouted
    obtain ⟨rfl, ⟨⟩⟩ | ⟨hne, hj⟩ := of_update hj
    · exact hgate
    · exact h.holder j c' hj hrouted
  · intro j c' hj
    obtain ⟨rfl, ⟨⟩⟩ | ⟨hne, hj⟩ := of_update hj
    · exact ⟨(hget _).trans (if_pos rfl), hqueued⟩
    · exact custody_of_not_routed (h.unrouted_of_gate hgate hne hj)
  · intro slot key hslot
    have hentry := (hget slot).symm.trans hslot
    split at hentry
    next heq =>
      rw [heq]
      exact .inr ⟨id, _, .start, update_self .., rfl, some.inj hentry⟩
    · obtain hmem | ⟨j, c', push, hj, hsg, -⟩ := h.bound slot key hentry
      · exact .inl hmem
      · rw [h.binder hgate hc hj hsg, hst] at hsg
        cases hsg
  · -- the binds on the queue are of older slots
    intro hopen e he
    have hne : e.1 ≠ s.outbound.nextSlot := by
      intro heq
      exact hqueued (heq ▸ mem_map_of_mem he)
    refine (hget e.1).trans ?_
    rw [if_neg hne]
    refine h.kept ?_ e he
    obtain hopen | ⟨j, c', what, push, hj, hsg, hrouted, hin⟩ := hopen
    · exact .inl hopen
    · obtain ⟨rfl, ⟨⟩⟩ | ⟨hne, hj⟩ := of_update hj
      · cases hsg
        cases hin
      · exact .inr ⟨j, c', what, push, hj, hsg, hrouted, hin⟩

lemma Inv.lookup (hst : c.stage = .locked) : (s.lookup id c).Inv limit := by
  have hgate : s.gate = some id := h.holder id c hc (by rw [hst]; rfl)
  have hnoBind := no_bind_of_stage hc (hst ▸ nofun)
  unfold RouteConnection.lookup
  obtain ⟨slot, hget, heq⟩ | heq | ⟨hkey, hroom, hzero, hlast, heq⟩ :=
    slotFor_cases
  · rw [heq]
    refine h.sendAsk hgate ?_ hnoBind
    -- the entry's bind is on the queue: no other call can be in the middle of sending it
    obtain hmem | ⟨j, c', push, hj, hsg, -⟩ :=
      h.bound slot c.key ((h.outbound.inverse _ _).mp hget)
    · exact hmem
    · rw [h.binder hgate hc hj hsg, hst] at hsg
      cases hsg
  · rw [heq]
    exact h.sendUncompact hnoBind
  · rw [heq]
    exact h.allot hc hst hkey hroom hzero hlast

end

/-! ### The queue -/

lemma sent_enqueue (s : RouteConnection) (f : SentFrame) :
    sent { s with queue := s.queue ++ [f] } = s.sent ++ [f] := (append_assoc ..).symm

lemma split_concat {α : Type} {l pre post : List α} {a b : α} (h : l ++ [a] = pre ++ b :: post) :
    (pre = l ∧ b = a) ∨ ∃ post', l = pre ++ b :: post' := by
  obtain rfl | ⟨post', last, rfl⟩ := eq_nil_or_concat post
  · have hspl := append_inj_left' h rfl
    have hlast := append_inj_right' h rfl
    exact .inl ⟨hspl.symm, (cons.inj hlast).1.symm⟩
  · rw [concat_eq_append, ← cons_append, ← append_assoc] at h
    exact .inr ⟨post', append_inj_left' h rfl⟩

variable {f : SentFrame}

section

variable (h : s.Inv limit)
include h

lemma Inv.bindsFirst_enqueue
    (hask : ∀ correlationId slot, f.frame = .routedActorAsk correlationId slot →
      (slot, f.key) ∈ s.binds)
    (pre : List SentFrame) (g : SentFrame) (post : List SentFrame) (correlationId slot : UInt32)
    (hsent : s.sent ++ [f] = pre ++ g :: post) (hg : g.frame = .routedActorAsk correlationId slot) :
    (slot, g.key) ∈ bindsOf pre := by
  obtain ⟨rfl, rfl⟩ | ⟨post', hspl⟩ := split_concat hsent
  · exact hask correlationId slot hg
  · exact h.bindsFirst pre g post' correlationId slot hspl hg

lemma Inv.enqueue (hbind : bindOf f = none)
    (hask : ∀ correlationId slot, f.frame = .routedActorAsk correlationId slot →
      (slot, f.key) ∈ s.binds)
    (hkey : ∀ correlationId key requestId, f.frame = .actorAsk correlationId key requestId →
      key = f.key) :
    binds { s with queue := s.queue ++ [f] } = s.binds ∧
      Inv { s with queue := s.queue ++ [f] } limit := by
  have hbinds : binds { s with queue := s.queue ++ [f] } = s.binds := by
    show bindsOf (sent { s with queue := s.queue ++ [f] }) = _
    rw [sent_enqueue, bindsOf_append]
    show s.binds ++ [f].filterMap bindOf = s.binds
    rw [filterMap_cons_none hbind, filterMap_nil, append_nil]
  refine ⟨hbinds, { h with
    bindsIssued := hbinds ▸ h.bindsIssued, bound := hbinds ▸ h.bound, kept := hbinds ▸ h.kept
    slotsOnce := hbinds ▸ h.slotsOnce, keysOnce := hbinds ▸ h.keysOnce, room := hbinds ▸ h.room
    custody := ?_, bindsFirst := ?_, uncompactKey := ?_ }⟩
  · intro j c' hj
    have hcust := h.custody j c' hj
    unfold Custody at hcust ⊢
    rw [hbinds]
    exact hcust
  · intro pre g post correlationId slot hsent
    rw [sent_enqueue] at hsent
    exact h.bindsFirst_enqueue hask pre g post correlationId slot hsent
  · intro g hg
    rw [sent_enqueue] at hg
    obtain hg | hg := mem_append.mp hg
    · exact h.uncompactKey g hg
    · rw [mem_singleton.mp hg]
      exact hkey

lemma Inv.append_bind (hc : s.calls id = some c)
    (hst : c.stage = .sending (.bind slot) (.admitted waited)) :
    ({ s with queue := s.queue ++ [(⟨c.frame (.bind slot), c.key⟩ : SentFrame)] }.setStage id c
      (.sending (.bind slot) (.appended waited))).Inv limit := by
  have hgate : s.gate = some id := h.holder id c hc (by rw [hst]; rfl)
  have hcust := h.custody id c hc
  unfold Custody at hcust
  rw [hst] at hcust
  obtain ⟨hslot, hnew⟩ : s.outbound.bySlot.get slot = some c.key ∧ slot ∉ s.binds.map fst :=
    hcust
  have hkept := h.kept (.inr ⟨id, c, _, _, hc, hst, by rw [hst]; rfl, rfl⟩)
  -- the table still has every bind on the queue, so the key is new as well
  have hnewKey : c.key ∉ s.binds.map snd := by
    intro hmem
    obtain ⟨e, he, hekey⟩ := mem_map.mp hmem
    have hoth := (h.outbound.inverse _ _).mpr (hkept e he)
    rw [hekey, (h.outbound.inverse _ _).mpr hslot] at hoth
    exact hnew (some.inj hoth ▸ mem_map_of_mem he)
  let s' := { s with queue := s.queue ++ [(⟨c.frame (.bind slot), c.key⟩ : SentFrame)] }.setStage
    id c (.sending (.bind slot) (.appended waited))
  have hsent : s'.sent = s.sent ++ [(⟨c.frame (.bind slot), c.key⟩ : SentFrame)] := sent_enqueue s _
  have hbinds : s'.binds = s.binds ++ [(slot, c.key)] := by
    show bindsOf s'.sent = _
    rw [hsent, bindsOf_append]
    rfl
  have hall : ∀ e ∈ s'.binds, s.outbound.bySlot.get e.1 = some e.2 := by
    intro e he
    rw [hbinds] at he
    obtain he | he := mem_append.mp he
    · exact hkept e he
    · rw [mem_singleton.mp he]
      exact hslot
  have hslotsOnce : (s'.binds.map fst).Nodup := by
    rw [hbinds, map_append]
    refine h.slotsOnce.append (nodup_singleton _) ?_
    intro slot' hmem hlast
    rw [mem_singleton.mp hlast] at hmem
    exact hnew hmem
  refine { h with
    bindsIssued := ?_, holder := ?_, custody := ?_, bound := ?_, kept := fun _ => hall,
    slotsOnce := hslotsOnce, keysOnce := ?_, room := ?_, bindsFirst := ?_, uncompactKey := ?_ }
  · intro e he
    exact h.tableIssued _ _ (hall e he)
  · intro j c' hj hrouted
    obtain ⟨rfl, ⟨⟩⟩ | ⟨-, hj⟩ := of_update hj
    · exact hgate
    · exact h.holder j c' hj hrouted
  · intro j c' hj
    obtain ⟨rfl, ⟨⟩⟩ | ⟨hne, hj⟩ := of_update hj
    · refine ⟨hslot, ?_⟩
      rw [hbinds]
      exact mem_append_right _ mem_cons_self
    · exact custody_of_not_routed (h.unrouted_of_gate hgate hne hj)
  · intro slot' key hget
    rw [show binds _ = _ from hbinds]
    obtain hmem | ⟨j, c', push, hj, hsg, hkey⟩ := h.bound slot' key hget
    · exact .inl (mem_append_left _ hmem)
    · obtain rfl := h.binder hgate hc hj hsg
      rw [hst] at hsg
      cases hsg
      rw [← hkey]
      exact .inl (mem_append_right _ mem_cons_self)
  · show (s'.binds.map snd).Nodup
    rw [hbinds, map_append]
    refine h.keysOnce.append (nodup_singleton _) ?_
    intro key hmem hlast
    rw [mem_singleton.mp hlast] at hmem
    exact hnewKey hmem
  · show s'.binds.length ≤ limit
    have hlen : (s'.binds.map fst).length ≤ s.outbound.bySlot.len := by
      refine Table.length_le_len hslotsOnce ?_
      intro k hk
      obtain ⟨e, he, rfl⟩ := mem_map.mp hk
      exact ⟨_, hall e he⟩
    have hsame := h.outbound.sameLen
    have hbounded := h.outbound.bounded
    have hlim := h.limits.1
    rw [length_map] at hlen
    omega
  · intro pre g post correlationId slot' hspl
    rw [show sent _ = _ from hsent] at hspl
    refine h.bindsFirst_enqueue ?_ pre g post correlationId slot' hspl
    intro _ _ hfr
    cases hfr
  · intro g hg
    rw [show sent _ = _ from hsent] at hg
    obtain hg | hg := mem_append.mp hg
    · exact h.uncompactKey g hg
    · rw [mem_singleton.mp hg]
      intro _ _ _ hfr
      cases hfr

lemma Inv.append_ask (hc : s.calls id = some c)
    (hst : c.stage = .sending what (.admitted waited)) (hnot : ∀ slot, what ≠ .bind slot) :
    ({ s with queue := s.queue ++ [(⟨c.frame what, c.key⟩ : SentFrame)] }.setStage id c
      (.sending what (.appended waited))).Inv limit := by
  have hcust := h.custody id c hc
  unfold Custody at hcust
  rw [hst] at hcust
  obtain ⟨hbinds, henqueue⟩ := h.enqueue (f := ⟨c.frame what, c.key⟩) (by
      cases what with
      | bind slot => exact absurd rfl (hnot slot)
      | ask => rfl
      | uncompact => rfl)
    (by
      intro correlationId slot hfr
      cases what with
      | bind => cases hfr
      | ask =>
        cases hfr
        exact hcust
      | uncompact => cases hfr)
    (by
      intro correlationId key requestId hfr
      cases what with
      | bind | ask => cases hfr
      | uncompact =>
        cases hfr
        rfl)
  have hrouted : (AskStage.sending what (.appended waited)).routed = c.stage.routed := by
    rw [hst]
    cases what <;> rfl
  -- the frame is on the queue; the call keeps what it owed
  apply henqueue.restage
  · unfold Custody
    rw [hbinds]
    cases what with
    | bind slot => exact absurd rfl (hnot slot)
    | ask => exact hcust
    | uncompact => trivial
  · intro c₀ slot push hc₀ hsg
    rw [hc] at hc₀
    cases hc₀
    rw [hst] at hsg
    cases hsg
    exact absurd rfl (hnot slot)
  · intro hr
    exact h.holder id c hc (hrouted ▸ hr)
  · intro j _ hj
    exact hj
  · intro what' push hsg hr hin
    exact .inr ⟨id, c, what, .admitted waited, hc, hst, hrouted ▸ hr, rfl⟩

end

/-! ### The receiver -/

variable {rest : List SentFrame}

lemma sent_deliver (hq : s.queue = f :: rest) (inbound : RouteTable) (outcome : ReceiveOutcome) :
    sent { s with queue := rest, inbound, received := s.received ++ [(f, outcome)] } = s.sent := by
  show (s.received ++ [(f, outcome)]).map fst ++ rest = s.received.map fst ++ s.queue
  rw [hq, map_append, append_assoc]
  rfl

lemma Inv.deliver_of {inbound : RouteTable}
    {outcome : ReceiveOutcome} (h : s.Inv limit) (hq : s.queue = f :: rest) (hwf : inbound.Wf)
    (hlim : inbound.maxRoutes = s.inbound.maxRoutes)
    (hlearn : ∀ slot key, inbound.bySlot.get slot = some key ↔
      s.inbound.bySlot.get slot = some key ∨ bindOf f = some (slot, key))
    (hlen : inbound.byKey.len = s.inbound.byKey.len + (bindsOf [f]).length)
    (houtcome : outcome = (if (bindOf f).isSome then .bound else .resolved f.key)) :
    Inv { s with queue := rest, inbound, received := s.received ++ [(f, outcome)] } limit := by
  -- delivery moves a frame from one list to the other
  have hsent := sent_deliver hq inbound outcome
  have hbinds : binds { s with
      queue := rest, inbound, received := s.received ++ [(f, outcome)] } = s.binds :=
    congrArg bindsOf hsent
  have hrecv : bindsOf ((s.received ++ [(f, outcome)]).map fst) =
      bindsOf (s.received.map fst) ++ bindsOf [f] := by
    rw [map_append, bindsOf_append]
    rfl
  refine { h with
    inbound := hwf, limits := ⟨h.limits.1, hlim.trans h.limits.2⟩
    bindsIssued := hbinds ▸ h.bindsIssued, bound := hbinds ▸ h.bound, kept := hbinds ▸ h.kept
    slotsOnce := hbinds ▸ h.slotsOnce, keysOnce := hbinds ▸ h.keysOnce, room := hbinds ▸ h.room
    custody := ?_, bindsFirst := ?_, learned := ?_, learnedLen := ?_, outcomes := ?_
    uncompactKey := ?_ }
  · intro j c' hj
    have hcust := h.custody j c' hj
    unfold Custody at hcust ⊢
    rw [hbinds]
    exact hcust
  · rw [hsent]
    exact h.bindsFirst
  · intro slot key
    rw [hrecv, hlearn, h.learned, mem_append]
    unfold bindsOf
    simp
  · show inbound.byKey.len = (bindsOf _).length
    rw [hrecv, length_append, hlen, h.learnedLen]
  · intro r hr
    obtain hr | hr := mem_append.mp hr
    · exact h.outcomes r hr
    · rw [mem_singleton.mp hr]
      exact houtcome
  · rw [hsent]
    exact h.uncompactKey

lemma Inv.deliver_bind {key : RouteKey} (h : s.Inv limit) (hq : s.queue = f :: rest)
    (hfr : f.frame = .routeBind slot key) :
    s.inbound.bind slot key = (true, s.inbound.enter slot key) ∧ slot ≠ 0 ∧
      s.inbound.bySlot.get slot = none ∧ s.inbound.byKey.get key = none ∧
      s.inbound.byKey.len < s.inbound.maxRoutes := by
  have hbind : bindOf f = some (slot, key) := by rw [bindOf, hfr]
  have hbinds : s.binds = bindsOf (s.received.map fst) ++ (slot, key) :: bindsOf rest := by
    show bindsOf (s.received.map fst ++ s.queue) = _
    rw [hq, bindsOf_append]
    exact congrArg _ (filterMap_cons_some hbind)
  have hmem : (slot, key) ∈ s.binds := by
    rw [hbinds]
    exact mem_append_right _ mem_cons_self
  have hzero : slot ≠ 0 := h.issuedNonzero _ (h.bindsIssued _ hmem)
  -- slot and key occur only once among the binds, and the earlier ones are what was learned
  have hslots := h.slotsOnce
  have hkeys := h.keysOnce
  rw [hbinds, map_append, map_cons] at hslots hkeys
  have hslot : s.inbound.bySlot.get slot = none := by
    cases hget : s.inbound.bySlot.get slot with
    | none => rfl
    | some key' =>
      have hearlier := mem_map_of_mem (f := fst) ((h.learned slot key').mp hget)
      exact absurd mem_cons_self (disjoint_of_nodup_append hslots hearlier)
  have hkey : s.inbound.byKey.get key = none := by
    cases hget : s.inbound.byKey.get key with
    | none => rfl
    | some slot' =>
      have hearlier := mem_map_of_mem (f := snd)
        ((h.learned slot' key).mp ((h.inbound.inverse key slot').mp hget))
      exact absurd mem_cons_self (disjoint_of_nodup_append hkeys hearlier)
  have hroom : s.inbound.byKey.len < s.inbound.maxRoutes := by
    have hbounded := h.room
    rw [hbinds, length_append, length_cons] at hbounded
    rw [h.learnedLen, h.limits.2]
    omega
  refine ⟨?_, hzero, hslot, hkey, hroom⟩
  simp [RouteTable.bind, hzero, hslot, hkey, Nat.not_le.mpr hroom]

section

variable (h : s.Inv limit)
include h

lemma Inv.deliver (hq : s.queue = f :: rest) : Inv { s with
    queue := rest
    inbound := (receive s.inbound f.frame).2
    received := s.received ++ [(f, (receive s.inbound f.frame).1)] } limit := by
  have hsent : s.sent = s.received.map fst ++ f :: rest := by rw [sent, hq]
  cases hfr : f.frame with
  | routeBind slot key =>
    obtain ⟨hbind, hzero, hslot, hkey, hroom⟩ := h.deliver_bind hq hfr
    have hbindOf : bindOf f = some (slot, key) := by rw [bindOf, hfr]
    simp only [receive, hbind]
    apply h.deliver_of hq (h.inbound.enter hslot hkey hzero hroom) rfl
    · intro slot' key'
      show (s.inbound.bySlot.insert slot key).get slot' = some key' ↔ _
      rw [Table.get_insert, hbindOf]
      by_cases heq : slot' = slot
      · subst heq
        simp [hslot]
      · simp [heq, Ne.symm heq]
    · show (s.inbound.byKey.insert key slot).len = _
      rw [Table.len_insert hkey, bindsOf, filterMap_cons_some hbindOf]
      rfl
    · rw [hbindOf]
      rfl
  | routedActorAsk correlationId slot =>
    have hlearn := h.bindsFirst _ f rest correlationId slot hsent hfr
    -- the bind went out before the ask and was learned
    have hresolve : s.inbound.resolve slot = some f.key := (h.learned slot f.key).mpr hlearn
    have hbindOf : bindOf f = none := by rw [bindOf, hfr]
    simp only [receive, hresolve]
    apply h.deliver_of hq h.inbound rfl
    · simp [hbindOf]
    · rw [bindsOf, filterMap_cons_none hbindOf]
      rfl
    · rw [hbindOf]
      rfl
  | actorAsk correlationId key requestId =>
    have hkey : key = f.key := by
      refine h.uncompactKey f ?_ correlationId key requestId hfr
      rw [hsent]
      exact mem_append_right _ mem_cons_self
    have hbindOf : bindOf f = none := by rw [bindOf, hfr]
    apply h.deliver_of hq h.inbound rfl
    · simp [hbindOf]
    · rw [bindsOf, filterMap_cons_none hbindOf]
      rfl
    · rw [hbindOf, hkey]
      rfl

/-! ### Whole runs -/

lemma Inv.setClosing (hclosing : s.closing = true → closing = true)
    (hcls : closed = true → closing = true) : Inv { s with closing, closed } limit := by
  refine { h with closing := hcls, kept := ?_ }
  intro hopen
  apply h.kept
  obtain hopen | hinside := hopen
  · left
    cases hs : s.closing with
    | false => rfl
    | true =>
      rw [hclosing hs] at hopen
      cases hopen
  · exact .inr hinside

lemma Inv.succeed (hc : s.calls id = some c) (hst : c.stage = .sending what (.appended waited)) :
    (s.succeed id c what).Inv limit := by
  have hcust := h.custody id c hc
  unfold Custody at hcust
  rw [hst] at hcust
  cases what with
  | bind slot =>
    have hmem : (slot, c.key) ∈ s.binds := hcust.2
    refine h.sendAsk (h.holder id c hc (by rw [hst]; rfl)) hmem ?_
    intro c₀ slot' push hc₀ hsg
    rw [hc] at hc₀
    cases hc₀
    rw [hst] at hsg
    cases hsg
    exact hmem
  | ask | uncompact =>
    exact h.finish rfl (no_bind_of_stage hc (hst ▸ nofun))

lemma Inv.lock (hc : s.calls id = some c) (hst : c.stage = .waiting) (hfree : s.gate = none) :
    ({ s with gate := some id }.setStage id c .locked).Inv limit := by
  apply h.restage
  · exact trivial
  · intro c₀ slot push hc₀ hsg
    exact .inl (no_bind_of_stage hc (hst ▸ nofun) c₀ slot push hc₀ hsg)
  · intro _
    rfl
  · intro j _ hj
    rw [hfree] at hj
    cases hj
  · intro what push hsg
    cases hsg

lemma Inv.step (e : RouteEvent) : (s.step e).Inv limit := by
  cases e with
  | begin id =>
    simp only [RouteConnection.step]
    split
    · exact h
    next hc =>
      have hnone : s.BindSent id := by
        intro c₀ slot push hc₀
        rw [hc] at hc₀
        cases hc₀
      split <;> exact h.setStage_unrouted rfl hnone
  | identifyFailed =>
    simp only [RouteConnection.step]
    split
    next hc =>
      split
      next hst =>
        exact h.finish rfl (no_bind_of_stage hc (hst ▸ nofun))
      · exact h
    · exact h
  | proceed =>
    simp only [RouteConnection.step]
    split
    next hc =>
      split
      next hst =>
        have hnoBind := no_bind_of_stage hc (hst ▸ nofun)
        split
        · exact h.sendUncompact hnoBind
        · split
          next hfree =>
            exact h.lock hc hst hfree
          · exact h
      · exact h
    · exact h
  | lookup =>
    simp only [RouteConnection.step]
    split
    next hc =>
      split
      next hst =>
        exact h.lookup hc hst
      · exact h
    · exact h
  | flagged =>
    simp only [RouteConnection.step]
    split
    next hc =>
      split
      next hst =>
        exact h.rollback hc hst nofun rfl
      · exact h
    · exact h
  | enqueue =>
    simp only [RouteConnection.step]
    split
    next hc =>
      split
      next hst =>
        split
        · exact h.rollback hc hst nofun rfl
        next hopen =>
          exact h.pushTo hc hst rfl (fun _ => .inl (by simpa using hopen))
      next hst =>
        split
        · exact h.rollback hc hst nofun rfl
        next hopen =>
          exact h.pushTo hc hst rfl (fun _ => .inl (by simpa using hopen))
      · exact h
    · exact h
  | push =>
    simp only [RouteConnection.step]
    split
    next hc =>
      split
      next what _ hst =>
        split
        · split
          · exact h.rollback hc hst nofun rfl
          · exact h.pushTo hc hst rfl nofun
        · cases what with
          | bind => exact h.append_bind hc hst
          | ask | uncompact => exact h.append_ask hc hst nofun
      · exact h
    · exact h
  | confirm =>
    simp only [RouteConnection.step]
    split
    next hc =>
      split
      next waited hst =>
        -- the bytes are on the queue, and the connection is found closing afterwards
        by_cases hfail : (if waited = true then s.closed else s.closing) = true
        · rw [if_pos hfail]
          refine h.rollback hc hst ?_ rfl
          intro _
          cases waited with
          | false => exact hfail
          | true => exact h.closing hfail
        · rw [if_neg hfail]
          exact h.succeed hc hst
      · exact h
    · exact h
  | wokenClosed =>
    simp only [RouteConnection.step]
    split
    next hc =>
      split
      next hst =>
        split
        · exact h.rollback hc hst nofun rfl
        · exact h
      · exact h
    · exact h
  | cancel =>
    simp only [RouteConnection.step]
    split
    next hc =>
      split
      next hst =>
        exact h.finish rfl (no_bind_of_stage hc (hst ▸ nofun))
      next hst =>
        exact h.rollback hc hst nofun rfl
      · exact h
    · exact h
  | close => exact h.setClosing (fun _ => rfl) (fun _ => rfl)
  | markClosed =>
    simp only [RouteConnection.step]
    split
    next hclosing =>
      exact Inv.setClosing h (fun hold : s.closing = true => hold) (fun _ => hclosing)
    · exact h
  | deliver =>
    simp only [RouteConnection.step]
    cases hq : s.queue with
    | nil => exact h
    | cons => exact h.deliver hq

end

lemma inv_exec (es : List RouteEvent) :
    (Run.exec step (start maxMessageSize maxRoutes) es).Inv maxRoutes :=
  Run.exec_invariant (P := fun s : RouteConnection => s.Inv maxRoutes) (fun _ e h => h.step e)
    (inv_start maxMessageSize maxRoutes) es

lemma Inv.slot_ne_zero (h : s.Inv limit) (hf : f ∈ s.sent) : f.frame.slot? ≠ some 0 := by
  intro hzero
  obtain ⟨pre, post, hspl⟩ := append_of_mem hf
  have hpre : ∀ e ∈ bindsOf pre, e ∈ s.binds := by
    intro e he
    rw [binds, hspl, bindsOf_append]
    exact mem_append_left _ he
  cases hfr : f.frame with
  | routeBind slot key =>
    rw [hfr] at hzero
    refine h.issuedNonzero (slot, key) (h.bindsIssued _ ?_) (some.inj hzero)
    refine mem_filterMap.mpr ⟨f, hf, ?_⟩
    rw [bindOf, hfr]
  | routedActorAsk correlationId slot =>
    rw [hfr] at hzero
    have hbind := hpre _ (h.bindsFirst pre f post correlationId slot hspl hfr)
    exact h.issuedNonzero _ (h.bindsIssued _ hbind) (some.inj hzero)
  | actorAsk =>
    rw [hfr] at hzero
    cases hzero

/-- **Routed asks reach their actor.**  Whatever the calls, their cancellations
and the closing of the queue do, the receiver refuses no bind and knows every
slot, and each compact ask it takes resolves to the key its sender passed.  Both
tables stay inverse and within the limit, slot zero is in no table and no frame,
and no slot is handed out twice. -/
theorem routed_asks_reach_their_actor (maxMessageSize maxRoutes : ℕ) (es : List RouteEvent) :
    let s := Run.exec step (start maxMessageSize maxRoutes) es
    (∀ r ∈ s.received, r.2 ≠ .bindRefused ∧ r.2 ≠ .unknownSlot) ∧
      (∀ f correlationId slot outcome, (f, outcome) ∈ s.received →
        f.frame = .routedActorAsk correlationId slot → outcome = .resolved f.key) ∧
      (∀ t ∈ [s.outbound, s.inbound],
        (∀ key slot, t.byKey.get key = some slot ↔ t.bySlot.get slot = some key) ∧
          t.byKey.len ≤ maxRoutes ∧ t.bySlot.len ≤ maxRoutes ∧ t.bySlot.get 0 = none) ∧
      (∀ f ∈ s.sent, f.frame.slot? ≠ some 0) ∧ (∀ e ∈ s.issued, e.1 ≠ 0) ∧
      (s.issued.map Prod.fst).Nodup := by
  intro s
  have h : s.Inv maxRoutes := inv_exec maxMessageSize maxRoutes es
  refine ⟨?_, ?_, ?_, fun f hf => h.slot_ne_zero hf, h.issuedNonzero, h.issuedOnce⟩
  · intro r hr
    rw [h.outcomes r hr]
    split <;> exact ⟨nofun, nofun⟩
  · intro f correlationId slot outcome hr hfr
    have houtcome := h.outcomes (f, outcome) hr
    rw [bindOf, hfr] at houtcome
    exact houtcome
  · have hwf : ∀ t : RouteTable, t.Wf → t.maxRoutes = maxRoutes →
        (∀ key slot, t.byKey.get key = some slot ↔ t.bySlot.get slot = some key) ∧
          t.byKey.len ≤ maxRoutes ∧ t.bySlot.len ≤ maxRoutes ∧ t.bySlot.get 0 = none := by
      intro t ht hmax
      have hbounded := ht.bounded
      have hsame := ht.sameLen
      exact ⟨ht.inverse, by omega, by omega, ht.noZero⟩
    intro t ht
    simp only [mem_cons, not_mem_nil, or_false] at ht
    obtain rfl | rfl := ht
    · exact hwf _ h.outbound h.limits.1
    · exact hwf _ h.inbound h.limits.2

end RouteConnection

end IcanactRemote
