/-
Reap reservations: the owner with its two queues, and the guards.

The owner drains a bounded mailbox of ordinary commands and an unbounded queue
of releases, releases first.  A granted reservation is represented by a guard
that travels through the reply to the requester; the guard ends it by an
explicit `release`, by being dropped, or by being lost with a reply nobody
received, and each of these enqueues one `ReleaseReapReservation`, which names
the address only.

`Sound` relates the table, the guards and the queued releases: an address is
reserved exactly while its guard is live or its release is queued.  It is kept
by every event (`Guarded.step`), whatever the interleaving.

Main result: `reservations_exclusive_and_hold`.
-/
import IcanactRemote.Lease
import IcanactRemote.OwnerStep

namespace IcanactRemote

open List Option Function

/-! ### While an address is reserved -/

/-- The command would make `a` somebody's, or move what is at `a` away. -/
def OwnerCommand.TakesOver (a : SocketAddr) : OwnerCommand → Prop
  | .claim addr .. | .claimConnectionScoped addr .. | .configurePeer addr .. => addr = a
  | .migrate source target .. => source = a ∨ target = a
  | _ => False

variable {reply : OwnerReply} {cmd : OwnerCommand} {a : SocketAddr}
  {addr source target b : SocketAddr}

lemma OwnerCommand.Unchanged.refused (h : cmd.Unchanged reply) (hat : cmd.TakesOver a) :
    reply.Refused := by
  cases cmd with
  | claim | claimConnectionScoped | migrate => cases reply <;> first | exact h | exact h.elim
  | configurePeer => cases reply <;> exact h.elim
  | _ => exact hat.elim

namespace Tables

variable {t t' t'' : Tables}

/-- The ownership of `a` is as it was or vacated, and its pin is as it was. -/
structure HeldAt (t t' : Tables) (a : SocketAddr) : Prop where
  token : t'.token a = t.token a ∨ t'.owner a = none
  vacant : t.owner a = none → t'.owner a = none
  pin : t'.pin a = t.pin a

lemma HeldAt.of_eq (hown : t'.owner a = t.owner a) (hgen : t'.generation a = t.generation a)
    (hpin : t'.pin a = t.pin a) : HeldAt t t' a := by
  refine ⟨Or.inl ?_, fun h => hown.trans h, hpin⟩
  rw [Tables.token, Tables.token, hown, hgen]

lemma HeldAt.trans (h : HeldAt t t' a) (h' : HeldAt t' t'' a) : HeldAt t t'' a := by
  refine ⟨?_, fun hv => h'.vacant (h.vacant hv), h'.pin.trans h.pin⟩
  rcases h'.token with htok | hvac
  · rcases h.token with htok₀ | hvac₀
    · exact Or.inl (htok.trans htok₀)
    · exact Or.inr (h'.vacant hvac₀)
  · exact Or.inr hvac

variable (t)

lemma heldAt_dropReceipts (p : ReceiptKey → Prop) [DecidablePred p]
    (a : SocketAddr) : HeldAt t (t.dropReceipts p) a :=
  .of_eq rfl rfl rfl

lemma heldAt_retract (addr a : SocketAddr) : HeldAt t (t.retract addr) a := by
  by_cases ha : a = addr
  · have hnone : (t.retract addr).owner a = none := by rw [owner_retract, if_pos ha]
    exact ⟨Or.inr hnone, fun _ => hnone, rfl⟩
  · exact .of_eq (by rw [owner_retract, if_neg ha]) (by rw [generation_retract, if_neg ha]) rfl

lemma heldAt_retractAll (addrs : List SocketAddr) (a : SocketAddr) :
    HeldAt t (t.retractAll addrs) a := by
  induction addrs generalizing t with
  | nil => exact .of_eq rfl rfl rfl
  | cons addr _ ih => exact (t.heldAt_retract addr a).trans (ih (t.retract addr))

lemma heldAt_releaseEvicted (peer : PeerId) (ev a : SocketAddr) :
    HeldAt t (t.releaseEvicted peer ev) a := by
  rw [releaseEvicted]
  split_ifs
  · exact (t.heldAt_dropReceipts _ a).trans (heldAt_retract _ ev a)
  · exact t.heldAt_dropReceipts _ a

variable {t}

variable {c : CellId} {o : Owner}

lemma heldAt_accept {t : Tables} (ha : a ≠ addr) : HeldAt t (t.accept addr o) a :=
  .of_eq (by rw [owner_accept, if_neg ha]) (by rw [generation_accept, if_neg ha]) rfl

lemma heldAt_configure {peer : PeerId} (ha : a ≠ addr) (hev : t.evicted addr peer ≠ some a) :
    HeldAt t (t.configure addr peer) a := by
  rw [configure]
  set u := t.accept addr (t.claimedOwner addr ⟨peer, .verified⟩) with hu
  have hpin : HeldAt t (u.installPin addr peer) a := by
    refine (heldAt_accept ha).trans (.of_eq rfl rfl ?_)
    show (if a = addr then _ else if u.evicted addr peer = some a then none else u.pin a) = _
    rw [if_neg ha, if_neg (show u.evicted addr peer ≠ some a from hev)]
  rcases u.evicted addr peer with _ | ev
  · exact hpin
  · exact hpin.trans (heldAt_releaseEvicted _ peer ev a)

lemma heldAt_move (hs : a ≠ source) (ht : a ≠ target) : HeldAt t (t.move source target o) a := by
  refine .of_eq ?_ ?_ ?_
  · rw [owner_move, if_neg ht, if_neg hs]
  · rw [generation_move, if_neg ht, if_neg hs]
  · rcases hp : t.pin source with _ | p
    · simp [move, hp]
    · simp only [move, hp]
      rw [update_of_ne ht, update_of_ne hs]

lemma ne_of_reserved (ha : t.reserved a = some c) (hb : t.reserved b = none) : a ≠ b := by
  rintro rfl
  rw [ha] at hb
  simp at hb

section

variable (h : Step t cmd reply t') (hres : t.reserved a = some c)
include h hres

/-- **A reservation holds.**  A step other than its release leaves a reserved
address with its token and its pin, or vacated. -/
theorem Step.heldAt : HeldAt t t' a := by
  cases h with
  | claim hacc => exact heldAt_accept (ne_of_reserved hres hacc.1)
  | claimScoped hacc =>
    exact (heldAt_accept (ne_of_reserved hres hacc.1)).trans (.of_eq rfl rfl rfl)
  | release => exact t.heldAt_retract _ a
  | releaseSession =>
    exact (t.heldAt_dropReceipts _ a).trans (heldAt_retractAll _ _ a)
  | releaseDead =>
    exact (t.heldAt_dropReceipts _ a).trans (heldAt_retract _ _ a)
  | @configureRefused _ _ expected =>
    cases expected <;> exact .of_eq rfl rfl rfl
  | @configured addr peer expected hblock hnew hyes =>
    have ha : a ≠ addr := ne_of_reserved hres hyes.1
    have hev : t.evicted addr peer ≠ some a := by
      intro he
      rw [evicted, filter_eq_some_iff] at he
      exact hblock ⟨a, he.1, ha, by rw [hres]; simp⟩
    have hset : HeldAt t (t.settle peer expected) a := by
      cases expected <;> exact .of_eq rfl rfl rfl
    refine hset.trans (heldAt_configure ha ?_)
    cases expected <;> exact hev
  | migrate hsrc htgt =>
    exact heldAt_move (ne_of_reserved hres hsrc) (ne_of_reserved hres htgt)
  | _ => exact .of_eq rfl rfl rfl

/-- No claim on a reserved address is accepted and no migration from it or
onto it succeeds. -/
lemma Step.refused (hat : cmd.TakesOver a) : reply.Refused := by
  cases h with
  | unchanged hun => exact hun.refused hat
  | claim hacc | claimScoped hacc => exact absurd hat (ne_of_reserved hres hacc.1).symm
  | configured _ _ hyes => exact absurd hat (ne_of_reserved hres hyes.1).symm
  | migrate hsrc htgt =>
    rcases hat with hat | hat
    · exact absurd hat (ne_of_reserved hres hsrc).symm
    · exact absurd hat (ne_of_reserved hres htgt).symm
  | configureBlocked | configureSuperseded | configureRefused => rfl
  | _ => exact hat.elim

end

variable (t)

lemma reserved_reserve :
    (t.reserve addr).reserved a = if a = addr then some t.cells.length else t.reserved a :=
  update_apply ..

lemma reserved_unreserve :
    (t.unreserve addr).reserved a = if a = addr then none else t.reserved a :=
  update_apply ..

lemma reserves_retractAll (addrs : List SocketAddr) :
    (t.retractAll addrs).reserved = t.reserved ∧ (t.retractAll addrs).cells = t.cells := by
  induction addrs generalizing t with
  | nil => exact ⟨rfl, rfl⟩
  | cons addr _ ih => exact ih (t.retract addr)

lemma reserves_releaseEvicted (peer : PeerId) (ev : SocketAddr) :
    (t.releaseEvicted peer ev).reserved = t.reserved ∧
      (t.releaseEvicted peer ev).cells = t.cells := by
  rw [releaseEvicted]
  split_ifs <;> exact ⟨rfl, rfl⟩

lemma reserves_configure (addr : SocketAddr) (peer : PeerId) :
    (t.configure addr peer).reserved = t.reserved ∧ (t.configure addr peer).cells = t.cells := by
  rw [configure]
  rcases (t.accept addr (t.claimedOwner addr ⟨peer, .verified⟩)).evicted addr peer with _ | ev
  · exact ⟨rfl, rfl⟩
  · exact reserves_releaseEvicted _ peer ev

variable {t}

lemma Step.reserved_eq (h : Step t cmd reply t')
    (hord : ∀ addr, cmd ≠ .releaseReapReservation addr)
    (hno : ∀ c, reply ≠ .reserveForReap (some c)) :
    t'.reserved = t.reserved ∧ t'.cells.length = t.cells.length := by
  cases h with
  | releaseSession =>
    exact ⟨(reserves_retractAll _ _).1, congrArg length (reserves_retractAll _ _).2⟩
  | reserve => exact absurd rfl (hno _)
  | unreserve => exact absurd rfl (hord _)
  | @configureRefused _ _ expected => cases expected <;> exact ⟨rfl, rfl⟩
  | @configured addr peer expected =>
    obtain ⟨hr, hc⟩ := reserves_configure (t.settle peer expected) addr peer
    rw [hr, hc]
    cases expected <;> exact ⟨rfl, rfl⟩
  | @note addr =>
    refine ⟨rfl, ?_⟩
    simp only [noteSeen]
    rcases t.reserved addr with _ | cell
    · rfl
    · dsimp only
      split_ifs
      · exact length_set
      · rfl
  | _ => exact ⟨rfl, rfl⟩

lemma Step.granted (h : Step t cmd (.reserveForReap (some c)) t') :
    ∃ addr before token pin nodeId, cmd = .reserveForReap addr before token pin nodeId ∧
      c = t.cells.length ∧ t.token addr = token ∧ t.pin addr = pin ∧ t.reserved addr = none ∧
      t' = t.reserve addr := by
  cases h with
  | unchanged hun => cases cmd <;> simp [OwnerCommand.Unchanged] at hun
  | reserve _ htoken hpin hfree =>
    exact ⟨_, _, _, _, _, rfl, rfl, htoken, hpin, hfree, rfl⟩

lemma Step.ended (h : Step t (.releaseReapReservation addr) reply t') : t' = t.unreserve addr := by
  cases h with
  | unchanged hun => cases reply <;> exact hun.elim
  | unreserve => rfl

end Tables

/-! ### The guards and the queues -/

/-- Where a guard is: in the reply to a request, held by the requester,
disarmed by its own `release`, or gone. -/
inductive GuardPhase
  | inReply (request : ℕ)
  | held
  | released
  | dropped
  deriving DecidableEq

/-- A guard, with the ownership and the pin its grant was validated against. -/
structure ReapReservation where
  addr : SocketAddr
  expectedOwnership : Option OwnershipToken
  expectedPin : Option PeerId
  phase : GuardPhase

open ReapReservation

/-- The guard has not been released yet. -/
def ReapReservation.live (g : ReapReservation) : Bool :=
  match g.phase with
  | .inReply _ | .held => true
  | .released | .dropped => false

/-- A command waiting in the mailbox, and the request its reply goes to.
Releases have a queue of their own. -/
structure OwnerRequest where
  id : ℕ
  cmd : OwnerCommand
  ordinary : ∀ addr, cmd ≠ .releaseReapReservation addr

/-- Which queue the loop looks at next.  The two looks are separate, so a
release may arrive between them. -/
inductive LoopPhase
  | releases
  | mailbox
  deriving DecidableEq

def ownerMailboxCapacity : ℕ := 512

/-- The owner task with its queues, the guards it has granted (the guard of
cell `c` is the `c`-th) and the replies it has sent.  `sent` lists the guards
whose release was ever enqueued, `history` what happened to the owner's
state. -/
structure ReapSystem where
  owner : PeerRegistryOwner
  turn : LoopPhase
  mailbox : List OwnerRequest
  releases : List (CellId × SocketAddr)
  guards : List ReapReservation
  requests : ℕ
  cancelled : ℕ → Bool
  replies : ℕ → Option OwnerReply
  sent : List CellId
  history : List OwnerEvent

/-- What can happen: a command is sent, its requester goes away or takes the
guard out of the reply, a guard is released, dropped or consumed by its
holder, or the owner's loop takes a turn. -/
inductive ReapEvent
  | submit (cmd : OwnerCommand) (ordinary : ∀ addr, cmd ≠ .releaseReapReservation addr)
  | cancel (request : ℕ)
  | receive (request : ℕ)
  | release (cell : CellId)
  | drop (cell : CellId)
  | tryConsume (cell : CellId)
  | poll

namespace ReapSystem

def start (hasher : SocketAddr → UInt64) (routing : Option (List RoutingCall)) : ReapSystem where
  owner := .start hasher routing
  turn := .releases
  mailbox := []
  releases := []
  guards := []
  requests := 0
  cancelled _ := false
  replies _ := none
  sent := []
  history := []

variable (s : ReapSystem)

/-- The owner's state takes a step. -/
def advance (e : OwnerEvent) : ReapSystem :=
  { s with owner := s.owner.step e, history := s.history ++ [e] }

def phaseOf (cell : CellId) : Option GuardPhase := (s.guards[cell]?).map ReapReservation.phase

def setPhase (cell : CellId) (phase : GuardPhase) : ReapSystem :=
  { s with guards := s.guards.modify cell fun g => { g with phase := phase } }

def addGuard (g : ReapReservation) : ReapSystem := { s with guards := s.guards ++ [g] }

/-- `enqueue_reap_release_via`, by a guard that is not disarmed. -/
def enqueueReapRelease (cell : CellId) (phase : GuardPhase) : ReapSystem :=
  match s.guards[cell]? with
  | some g =>
    if g.live then
      { s.setPhase cell phase with
        releases := s.releases ++ [(cell, g.addr)]
        sent := s.sent ++ [cell] }
    else s
  | none => s

/-- The guard a reply to `request` carries, while it has not been taken out. -/
def inReply (request : ℕ) : OwnerReply → Option CellId
  | .reserveForReap (some cell) =>
    if s.phaseOf cell = some (.inReply request) then some cell else none
  | _ => none

/-- A reply to `request` is lost, and with it the guard it carries. -/
def dropReply (request : ℕ) (reply : OwnerReply) : ReapSystem :=
  match s.inReply request reply with
  | some cell => s.enqueueReapRelease cell .dropped
  | none => s

/-- The requester of `request` goes away. -/
def cancel (request : ℕ) : ReapSystem :=
  let s := { s with cancelled := update s.cancelled request true }
  match s.replies request with
  | some reply => s.dropReply request reply
  | none => s

/-- The requester takes the guard out of a reply. -/
def receive (request : ℕ) (reply : OwnerReply) : ReapSystem :=
  match s.inReply request reply with
  | some cell => s.setPhase cell .held
  | none => s

/-- The owner handles a command.  A granted reservation is guarded before the
reply is sent. -/
def serve (req : OwnerRequest) : ReapSystem :=
  match req.cmd, (s.owner.handle req.cmd).2 with
  | .reserveForReap addr _ expectedOwnership expectedPin _, .reserveForReap (some _) =>
    (s.advance (.command req.cmd)).addGuard
      ⟨addr, expectedOwnership, expectedPin, .inReply req.id⟩
  | _, _ => s.advance (.command req.cmd)

/-- The owner handles a command of the mailbox and sends the reply. -/
def handleRequest (req : OwnerRequest) : ReapSystem :=
  let reply := (s.owner.handle req.cmd).2
  if s.cancelled req.id then (s.serve req).dropReply req.id reply
  else { s.serve req with replies := update s.replies req.id (some reply) }

def popRelease (rest : List (CellId × SocketAddr)) : ReapSystem := { s with releases := rest }

def popMailbox (rest : List OwnerRequest) : ReapSystem :=
  { s with mailbox := rest, turn := .releases }

/-- One look of the owner's loop at a queue. -/
def poll : ReapSystem :=
  match s.turn with
  | .releases =>
    match s.releases with
    | (_, addr) :: rest =>
      (s.popRelease rest).advance (.command (.releaseReapReservation addr))
    | [] => { s with turn := .mailbox }
  | .mailbox =>
    match s.mailbox with
    | req :: rest => (s.popMailbox rest).handleRequest req
    | [] => { s with turn := .releases }

/-- `Drop`: a guard that was released is disarmed. -/
def drop (cell : CellId) : ReapSystem :=
  match s.phaseOf cell with
  | some .held => s.enqueueReapRelease cell .dropped
  | some .released => s.setPhase cell .dropped
  | _ => s

def step : ReapEvent → ReapSystem
  | .submit cmd ordinary =>
    if s.mailbox.length < ownerMailboxCapacity then
      { s with mailbox := s.mailbox ++ [⟨s.requests, cmd, ordinary⟩], requests := s.requests + 1 }
    else s
  | .cancel request => if request < s.requests then s.cancel request else s
  | .receive request =>
    match s.replies request with
    | some reply => s.receive request reply
    | none => s
  | .release cell =>
    if s.phaseOf cell = some .held then s.enqueueReapRelease cell .released
    else s
  | .drop cell => s.drop cell
  | .tryConsume cell =>
    if s.phaseOf cell = some .held then s.advance (.tryConsume cell) else s
  | .poll => s.poll

def run (hasher : SocketAddr → UInt64) (routing : Option (List RoutingCall))
    (events : List ReapEvent) : ReapSystem :=
  Run.exec step (start hasher routing) events

end ReapSystem

/-! ### The guards are leases -/

def ReapReservation.ticket (g : ReapReservation) : Lease.Ticket SocketAddr := ⟨g.addr, g.live⟩

namespace ReapSystem

/-- The system as a manager of leases on addresses. -/
def leases (s : ReapSystem) : Lease.State SocketAddr where
  holder := s.owner.tables.reserved
  tickets := s.guards.map ReapReservation.ticket
  returns := s.releases
  sent := s.sent

/-- The ownership and the pin of a reserved address are what its guard was
granted against, or the address is vacant. -/
def Kept (t : Tables) (guards : List ReapReservation) : Prop :=
  ∀ (c : ℕ) g, guards[c]? = some g → t.reserved g.addr = some c →
    (t.token g.addr = g.expectedOwnership ∨ t.owner g.addr = none) ∧
      t.pin g.addr = g.expectedPin

/-- **The invariant of the system.** -/
structure Guarded (s : ReapSystem) : Prop where
  aligned : s.guards.length = s.owner.tables.cells.length
  sound : Lease.Sound s.leases
  kept : Kept s.owner.tables s.guards

variable {s : ReapSystem}

lemma getElem?_tickets (c : CellId) : s.leases.tickets[c]? = (s.guards[c]?).map ticket :=
  getElem?_map ..

variable {g g' g₀ : ReapReservation} {guards : List ReapReservation} (hasher : SocketAddr → UInt64)
  {req : OwnerRequest} {t : Tables} (routing : Option (List RoutingCall))

lemma guarded_start : Guarded (start hasher routing) := by
  refine ⟨rfl, Lease.sound_empty, fun c g hg => ?_⟩
  simp [start] at hg

variable {phase : GuardPhase}

lemma getElem?_setPhase {c c' : CellId} (h : (s.setPhase c phase).guards[c']? = some g') :
    ∃ g, s.guards[c']? = some g ∧ g'.addr = g.addr ∧
      g'.expectedOwnership = g.expectedOwnership ∧ g'.expectedPin = g.expectedPin := by
  rw [setPhase, getElem?_modify, Option.map_eq_map, Option.map_eq_some_iff] at h
  obtain ⟨g, hg, rfl⟩ := h
  refine ⟨g, hg, ?_⟩
  split_ifs <;> exact ⟨rfl, rfl, rfl⟩

lemma kept_setPhase (h : Kept t s.guards) (c : CellId) : Kept t (s.setPhase c phase).guards := by
  intro c' g' hg' hres
  obtain ⟨g, hg, haddr, htok, hpin⟩ := getElem?_setPhase hg'
  rw [haddr] at hres ⊢
  rw [htok, hpin]
  exact h c' g hg hres

variable {c : CellId}

lemma leases_setPhase
    (h : ∀ g, s.guards[c]? = some g → ({ g with phase := phase } : ReapReservation).live = g.live) :
    (s.setPhase c phase).leases = s.leases := by
  have htickets : (s.setPhase c phase).leases.tickets = s.leases.tickets := by
    refine ext_getElem? fun c' => ?_
    rw [getElem?_tickets, getElem?_tickets, setPhase, getElem?_modify]
    rcases hg : s.guards[c']? with _ | g
    · rfl
    · by_cases hc : c = c'
      · subst hc
        simp [ticket, h g hg]
      · simp [hc]
  exact congrArg (fun ts => { s.leases with tickets := ts }) htickets

lemma Guarded.setPhase (hs : Guarded s)
    (h : ∀ g, s.guards[c]? = some g → ({ g with phase := phase } : ReapReservation).live = g.live) :
    Guarded (s.setPhase c phase) := by
  refine ⟨?_, ?_, kept_setPhase hs.kept c⟩
  · exact (length_modify ..).trans hs.aligned
  · rw [leases_setPhase h]
    exact hs.sound

lemma Guarded.enqueueReapRelease (hs : Guarded s) (c : CellId)
    (hph : phase = .released ∨ phase = .dropped) : Guarded (s.enqueueReapRelease c phase) := by
  rw [ReapSystem.enqueueReapRelease]
  rcases hg : s.guards[c]? with _ | g
  · exact hs
  · by_cases hl : g.live = true
    · have hdead : ({ g with phase := phase } : ReapReservation).live = false := by
        rcases hph with rfl | rfl <;> rfl
      have hlive : s.leases.tickets[c]? = some ⟨g.addr, true⟩ := by
        rw [getElem?_tickets, hg, map_some, ticket, hl]
      -- in terms of leases: the ticket is given back
      have htickets : (s.guards.modify c fun g => { g with phase := phase }).map ticket
            = (s.guards.map ticket).set c ⟨g.addr, false⟩ := by
        refine ext_getElem? fun c' => ?_
        rw [getElem?_map, getElem?_modify, getElem?_set, getElem?_map]
        by_cases hc : c = c'
        · subst hc
          have hlt : c < (s.guards.map ticket).length := by
            rw [length_map]
            exact (List.getElem?_eq_some_iff.mp hg).1
          rw [if_pos rfl, if_pos hlt, hg]
          simp [ticket, hdead]
        · simp [hc]
      simp only [if_pos hl]
      refine ⟨(length_modify ..).trans hs.aligned, ?_, kept_setPhase hs.kept c⟩
      have hback := hs.sound.giveBack hlive
      simp only [Lease.State.giveBack, leases, ← htickets] at hback
      exact hback
    · simp only [if_neg hl]
      exact hs

lemma phaseOf_inReply {r : ℕ} (h : s.inReply r reply = some c) :
    s.phaseOf c = some (.inReply r) := by
  rw [inReply.eq_def] at h
  split at h
  · split_ifs at h with hph
    obtain rfl := some.inj h
    exact hph
  · simp at h

lemma Guarded.dropReply (hs : Guarded s) (r : ℕ) (reply : OwnerReply) :
    Guarded (s.dropReply r reply) := by
  rw [ReapSystem.dropReply]
  rcases s.inReply r reply with _ | c
  · exact hs
  · exact hs.enqueueReapRelease c (Or.inr rfl)

lemma Guarded.cancel (hs : Guarded s) (r : ℕ) : Guarded (s.cancel r) := by
  have hs' : Guarded { s with cancelled := update s.cancelled r true } :=
    ⟨hs.aligned, hs.sound, hs.kept⟩
  simp only [ReapSystem.cancel]
  rcases s.replies r with _ | reply
  · exact hs'
  · exact hs'.dropReply r reply

lemma live_of_phase (h : g.phase = phase) :
    g.live = ({ g with phase := phase } : ReapReservation).live := by
  rw [live, live, h]

lemma Guarded.receive (hs : Guarded s) (r : ℕ) (reply : OwnerReply) :
    Guarded (s.receive r reply) := by
  rw [ReapSystem.receive]
  rcases hr : s.inReply r reply with _ | c
  · exact hs
  · refine hs.setPhase fun g hg => ?_
    have hph := phaseOf_inReply hr
    rw [phaseOf, hg, map_some, some_inj] at hph
    exact (live_of_phase hph).symm

lemma Kept.grant (h : Kept t guards) (hlen : guards.length = t.cells.length)
    (htok : t.token g₀.addr = g₀.expectedOwnership) (hpin : t.pin g₀.addr = g₀.expectedPin) :
    Kept (t.reserve g₀.addr) (guards ++ [g₀]) := by
  intro c g hg hres
  rw [Tables.reserved_reserve] at hres
  rcases Nat.lt_or_ge c guards.length with hlt | hge
  · rw [getElem?_append_left hlt] at hg
    by_cases ha : g.addr = g₀.addr
    · rw [if_pos ha, some_inj, ← hlen] at hres
      exact absurd hres (Nat.ne_of_gt hlt)
    · rw [if_neg ha] at hres
      exact h c g hg hres
  · have hlast : c = guards.length := by
      have hlt := (List.getElem?_eq_some_iff.mp hg).1
      rw [length_append, length_singleton] at hlt
      omega
    rw [hlast, getElem?_concat_length, some_inj] at hg
    subst hg
    exact ⟨Or.inl htok, hpin⟩

lemma Kept.step {t t' : Tables} (h : Kept t guards) (hstep : Tables.Step t cmd reply t')
    (hres : ∀ a c, t'.reserved a = some c → t.reserved a = some c) : Kept t' guards := by
  intro c g hg hr
  obtain ⟨htok, hpin⟩ := h c g hg (hres _ _ hr)
  have hheld := hstep.heldAt (hres _ _ hr)
  refine ⟨?_, hheld.pin.trans hpin⟩
  rcases htok with htok | hvac
  · rcases hheld.token with hsame | hgone
    · exact Or.inl (hsame.trans htok)
    · exact Or.inr hgone
  · exact Or.inr (hheld.vacant hvac)

lemma serve_of_not_granted (hno : ∀ c, (s.owner.handle req.cmd).2 ≠ .reserveForReap (some c)) :
    s.serve req = s.advance (.command req.cmd) := by
  rw [serve.eq_def]
  split
  · next heq => exact absurd heq (hno _)
  · rfl

lemma serve_of_granted (h : (s.owner.handle req.cmd).2 = .reserveForReap (some c)) :
    ∃ g : ReapReservation, g.phase = .inReply req.id ∧
      (∃ before nodeId, req.cmd =
        .reserveForReap g.addr before g.expectedOwnership g.expectedPin nodeId) ∧
      c = s.owner.tables.cells.length ∧ s.owner.tables.token g.addr = g.expectedOwnership ∧
      s.owner.tables.pin g.addr = g.expectedPin ∧ s.owner.tables.reserved g.addr = none ∧
      (s.owner.handle req.cmd).1.tables = s.owner.tables.reserve g.addr ∧
      s.serve req = (s.advance (.command req.cmd)).addGuard g := by
  have hstep := s.owner.handle_step req.cmd
  rw [h] at hstep
  obtain ⟨addr, before, token, pin, nodeId, hcmd, hc, htok, hpin, hfree, ht⟩ := hstep.granted
  refine ⟨⟨addr, token, pin, .inReply req.id⟩, rfl, ⟨before, nodeId, hcmd⟩, hc, htok, hpin, hfree,
    ht, ?_⟩
  rw [serve.eq_def, h, hcmd]

lemma Guarded.serve (hs : Guarded s) (req : OwnerRequest) : Guarded (s.serve req) := by
  by_cases hgrant : ∃ c, (s.owner.handle req.cmd).2 = .reserveForReap (some c)
  · obtain ⟨c, hc⟩ := hgrant
    -- a grant is one more cell, one more guard and one more lease
    obtain ⟨g, hph, -, -, htok, hpin, hfree, ht, heq⟩ := serve_of_granted hc
    have htab : (s.serve req).owner.tables = s.owner.tables.reserve g.addr := by
      rw [heq]
      exact ht
    have hguards : (s.serve req).guards = s.guards ++ [g] := by
      rw [heq]
      rfl
    have hleases : (s.serve req).leases = s.leases.grant g.addr := by
      have hlen : s.leases.tickets.length = s.owner.tables.cells.length :=
        (length_map _).trans hs.aligned
      have hticket : g.ticket = ⟨g.addr, true⟩ := by
        rw [ticket, live, hph]
      rw [Lease.State.grant, hlen, leases, htab, hguards, map_append, map_singleton,
        hticket, heq]
      rfl
    refine ⟨?_, ?_, ?_⟩
    · rw [hguards, htab, Tables.reserve, length_append, length_append, hs.aligned]
      rfl
    · rw [hleases]
      exact hs.sound.grant hfree
    · rw [hguards, htab]
      exact hs.kept.grant hs.aligned htok hpin
  · have hno : ∀ c, (s.owner.handle req.cmd).2 ≠ .reserveForReap (some c) := by
      intro c hc
      exact hgrant ⟨c, hc⟩
    have hstep := s.owner.handle_step req.cmd
    obtain ⟨hres, hlen⟩ := hstep.reserved_eq req.ordinary hno
    rw [serve_of_not_granted hno]
    refine ⟨hs.aligned.trans hlen.symm, ?_, ?_⟩
    · have hleases : (s.advance (.command req.cmd)).leases = s.leases :=
        congrArg (fun f => { s.leases with holder := f }) hres
      rw [hleases]
      exact hs.sound
    · refine hs.kept.step hstep fun a c hr => ?_
      rw [← hres]
      exact hr

lemma Guarded.processRelease (hs : Guarded s) {rest : List (CellId × SocketAddr)}
    (hhead : s.releases = (c, addr) :: rest) :
    Guarded ((s.popRelease rest).advance (.command (.releaseReapReservation addr))) := by
  have hstep := s.owner.handle_step (.releaseReapReservation addr)
  have ht : (s.owner.handle (.releaseReapReservation addr)).1.tables
      = s.owner.tables.unreserve addr := hstep.ended
  refine ⟨?_, ?_, ?_⟩
  · show s.guards.length = (s.owner.handle (.releaseReapReservation addr)).1.tables.cells.length
    rw [ht]
    exact hs.aligned
  · have hleases : ((s.popRelease rest).advance
        (.command (.releaseReapReservation addr))).leases = s.leases.settle addr rest :=
      congrArg (fun f => { s.leases with holder := f, returns := rest })
        (congrArg Tables.reserved ht)
    rw [hleases]
    exact hs.sound.settle hhead
  · refine hs.kept.step hstep fun a c hr => ?_
    replace hr : (s.owner.handle (.releaseReapReservation addr)).1.tables.reserved a = some c := hr
    rw [ht, Tables.reserved_unreserve] at hr
    by_cases ha : a = addr
    · rw [if_pos ha] at hr
      simp at hr
    · rwa [if_neg ha] at hr

lemma Guarded.tryConsume (hs : Guarded s) (c : CellId) : Guarded (s.advance (.tryConsume c)) := by
  have ht : (s.owner.step (.tryConsume c)).tables = s.owner.tables.consume c :=
    s.owner.tables_step_tryConsume c
  -- the swap touches the flag only
  have hcons : (s.owner.tables.consume c).reserved = s.owner.tables.reserved ∧
      (s.owner.tables.consume c).cells.length = s.owner.tables.cells.length ∧
      (s.owner.tables.consume c).token = s.owner.tables.token ∧
      (s.owner.tables.consume c).owner = s.owner.tables.owner ∧
      (s.owner.tables.consume c).pin = s.owner.tables.pin := by
    rw [Tables.consume]
    split_ifs
    · exact ⟨rfl, length_set, rfl, rfl, rfl⟩
    · exact ⟨rfl, rfl, rfl, rfl, rfl⟩
  obtain ⟨hres, hlen, htok, hown, hpin⟩ := hcons
  refine ⟨?_, ?_, ?_⟩
  · show s.guards.length = (s.owner.step (.tryConsume c)).tables.cells.length
    rw [ht, hlen]
    exact hs.aligned
  · have hleases : (s.advance (.tryConsume c)).leases = s.leases :=
      congrArg (fun f => { s.leases with holder := f }) ((congrArg Tables.reserved ht).trans hres)
    rw [hleases]
    exact hs.sound
  · show Kept (s.owner.step (.tryConsume c)).tables s.guards
    rw [ht, Kept, hres, htok, hown, hpin]
    exact hs.kept

lemma poll_cases (s : ReapSystem) : (∃ turn, s.poll = { s with turn := turn }) ∨
      (∃ c addr rest, s.releases = (c, addr) :: rest ∧ s.poll =
        (s.popRelease rest).advance (.command (.releaseReapReservation addr))) ∨
      ∃ req rest, s.mailbox = req :: rest ∧
        s.poll = (s.popMailbox rest).handleRequest req := by
  rcases hturn : s.turn with _ | _
  · rcases hrel : s.releases with _ | ⟨⟨c, addr⟩, rest⟩
    · exact Or.inl ⟨.mailbox, by simp only [poll, hturn, hrel]⟩
    · exact Or.inr (Or.inl ⟨c, addr, rest, rfl, by simp only [poll, hturn, hrel]⟩)
  · rcases hmail : s.mailbox with _ | ⟨req, rest⟩
    · exact Or.inl ⟨.releases, by simp only [poll, hturn, hmail]⟩
    · exact Or.inr (Or.inr ⟨req, rest, rfl, by simp only [poll, hturn, hmail]⟩)

lemma Guarded.handleRequest (hs : Guarded s) (req : OwnerRequest) :
    Guarded (s.handleRequest req) := by
  have hadm := hs.serve req
  simp only [ReapSystem.handleRequest]
  split_ifs
  · exact hadm.dropReply req.id _
  · exact ⟨hadm.aligned, hadm.sound, hadm.kept⟩

lemma Guarded.poll (hs : Guarded s) : Guarded s.poll := by
  rcases s.poll_cases with ⟨turn, heq⟩ | ⟨c, addr, rest, hrel, heq⟩ | ⟨req, rest, hmail, heq⟩
  · rw [heq]
    exact ⟨hs.aligned, hs.sound, hs.kept⟩
  · rw [heq]
    exact hs.processRelease hrel
  · have hs' : Guarded (s.popMailbox rest) := ⟨hs.aligned, hs.sound, hs.kept⟩
    rw [heq]
    exact hs'.handleRequest req

lemma Guarded.step (hs : Guarded s) (e : ReapEvent) : Guarded (s.step e) := by
  cases e with
  | submit =>
    rw [ReapSystem.step]
    split_ifs
    · exact ⟨hs.aligned, hs.sound, hs.kept⟩
    · exact hs
  | cancel r =>
    rw [ReapSystem.step]
    split_ifs
    · exact hs.cancel r
    · exact hs
  | receive r =>
    simp only [ReapSystem.step]
    rcases s.replies r with _ | reply
    · exact hs
    · exact hs.receive r reply
  | release c =>
    rw [ReapSystem.step]
    split_ifs
    · exact hs.enqueueReapRelease c (Or.inl rfl)
    · exact hs
  | drop c =>
    rw [ReapSystem.step, ReapSystem.drop]
    rcases hp : s.phaseOf c with _ | (_ | _ | _ | _)
    · exact hs
    · exact hs
    · exact hs.enqueueReapRelease c (Or.inr rfl)
    · refine hs.setPhase fun g hg => ?_
      rw [phaseOf, hg, map_some, some_inj] at hp
      exact (live_of_phase hp).symm
    · exact hs
  | tryConsume c =>
    rw [ReapSystem.step]
    split_ifs
    · exact hs.tryConsume c
    · exact hs
  | poll => exact hs.poll

lemma guarded_run (events : List ReapEvent) : Guarded (run hasher routing events) :=
  Run.exec_invariant (P := Guarded) (fun _ e hs => hs.step e) (guarded_start hasher routing) events

lemma outstanding_iff (hg : s.guards[c]? = some g) :
    Lease.Outstanding s.leases c g.addr ↔ g.live = true ∨ (c, g.addr) ∈ s.releases := by
  rw [Lease.Outstanding, getElem?_tickets, hg]
  simp [ticket, leases]

lemma Guarded.reserved_iff (hs : Guarded s) (hg : s.guards[c]? = some g) :
    s.owner.tables.reserved g.addr = some c ↔ g.live = true ∨ (c, g.addr) ∈ s.releases :=
  (hs.sound.holder_iff g.addr c).trans (outstanding_iff hg)

end ReapSystem

/-- **Reservations are exclusive and hold.**  At every point of every run:

* an address has at most one guard that is not released;
* every grant has its guard, and the guard has enqueued its release once, or
  not yet if it is live;
* a queued release is the release of the reservation in force;
* a reservation is in force from its grant until its release is processed;
* while it is, the address has the ownership and the pin the grant was
  validated against, unless it was vacated, and every command that would take
  the address over is refused. -/
theorem reservations_exclusive_and_hold (hasher : SocketAddr → UInt64)
    (routing : Option (List RoutingCall)) (events : List ReapEvent) :
    let s := ReapSystem.run hasher routing events
    (∀ (c c' : CellId) (g g' : ReapReservation), s.guards[c]? = some g →
      s.guards[c']? = some g' → g.live = true → g'.live = true → g.addr = g'.addr → c = c') ∧
    (s.guards.length = s.owner.cells.length ∧
      ∀ (c : CellId) (g : ReapReservation), s.guards[c]? = some g →
        s.sent.count c = if g.live then 0 else 1) ∧
    (∀ c addr, (c, addr) ∈ s.releases → s.owner.reapReserved.get addr = some c) ∧
    (∀ (c : CellId) (g : ReapReservation), s.guards[c]? = some g →
      (s.owner.reapReserved.get g.addr = some c ↔ g.live = true ∨ (c, g.addr) ∈ s.releases)) ∧
    (∀ (c : CellId) (g : ReapReservation), s.guards[c]? = some g →
      s.owner.reapReserved.get g.addr = some c →
        (s.owner.currentOwnershipToken g.addr = g.expectedOwnership ∨
          s.owner.addrOwnership.get g.addr = none) ∧
        s.owner.operatorPinned.get g.addr = g.expectedPin ∧
        ∀ cmd : OwnerCommand, cmd.TakesOver g.addr → (s.owner.handle cmd).2.Refused) := by
  intro s
  have hs : s.Guarded := ReapSystem.guarded_run hasher routing events
  refine ⟨?_, ⟨hs.aligned, ?_⟩, ?_, ?_, ?_⟩
  · intro c c' g g' hg hg' hl hl' haddr
    have hc := (ReapSystem.outstanding_iff hg).mpr (Or.inl hl)
    have hc' := (ReapSystem.outstanding_iff hg').mpr (Or.inl hl')
    rw [haddr] at hc
    exact hs.sound.exclusive hc hc'
  · intro c g hg
    refine hs.sound.sent_eq c g.ticket ?_
    rw [ReapSystem.getElem?_tickets, hg]
    rfl
  · intro c addr hq
    exact hs.sound.holder_of_queued hq
  · intro c g hg
    exact hs.reserved_iff hg
  · intro c g hg hres
    obtain ⟨htok, hpin⟩ := hs.kept c g hg hres
    refine ⟨htok, hpin, fun cmd hat => ?_⟩
    exact (s.owner.handle_step cmd).refused hres hat

end IcanactRemote
