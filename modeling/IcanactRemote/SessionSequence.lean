/-
The sequence gate of a peer entry (`registry.rs`).

`last_sequence` is the highest sequence received from a peer and only rises,
except after a restart of the peer: a new authenticated session arms an
exemption for its own connection, and the first full sync it delivers may set a
lower sequence.  Messages of other connections are turned away while the armed
connection is the current one of the pool.

Main result: `restart_exemption_one_shot`.
-/
import IcanactRemote.ActorRecords
import IcanactRemote.Run

namespace IcanactRemote

open Run

/-! ### Peer entries -/

/-- A connection of the pool: its instance and the source address it came
from. -/
structure PoolConnection where
  instanceId : ℕ
  sessionSource : SocketAddr
  deriving DecidableEq

/-- A peer entry.  `currentSessionConnection` is the instance of the connection
that armed the session. -/
structure PeerInfo where
  nodeId : Option GossipNodeId
  failures : ℕ
  lastFailureTime : Option ℕ
  lastSequence : ℕ
  lastSentSequence : ℕ
  consecutiveDeltas : ℕ
  acceptLowerSequenceFrom : Option SocketAddr
  currentSessionSource : Option SocketAddr
  currentSessionConnection : Option ℕ
  currentSessionEpoch : ℕ
  sessionRestartConfirmed : Bool
  deriving DecidableEq

open PeerInfo

namespace PeerInfo

/-- The entry made for a peer that is heard of for the first time. -/
def new : PeerInfo := ⟨none, 0, none, 0, 0, 0, none, none, none, 0, false⟩

/-- No session has an exemption open or a restart confirmed, as when the entry is
made. -/
def Unarmed (p : PeerInfo) : Prop :=
  p.acceptLowerSequenceFrom = none ∧ p.sessionRestartConfirmed = false

/-- The session ends, and with it what it has earned. -/
def endSession (epoch : ℕ) (p : PeerInfo) : PeerInfo :=
  { p with
    currentSessionSource := none
    acceptLowerSequenceFrom := none
    currentSessionConnection := none
    currentSessionEpoch := epoch
    sessionRestartConfirmed := false }

/-- `arm_sequence_reset_for_new_session`.  `current` is the pool's connection of
the peer, `epoch` a new epoch. -/
def armSequenceReset (current : Option PoolConnection) (epoch : ℕ) (nodeId : GossipNodeId)
    (sessionSource : SocketAddr) (connection : ℕ) (p : PeerInfo) : PeerInfo :=
  if p.nodeId = some nodeId ∧ ∀ c ∈ current, c.instanceId = connection then
    { p with
      acceptLowerSequenceFrom := some sessionSource
      currentSessionSource := some sessionSource
      currentSessionConnection := some connection
      currentSessionEpoch := epoch
      sessionRestartConfirmed := false }
  else p

/-- Whether the pool shows another connection than the one that armed the
session. -/
def poolShowsDifferentConnection (current : Option PoolConnection) (p : PeerInfo) : Bool :=
  match current with
  | some c => p.currentSessionConnection ≠ some c.instanceId
  | none => false

/-- `peer_info_is_from_current_session`, with the entry after it. -/
def isFromCurrentSession (current : Option PoolConnection) (epoch : ℕ)
    (sessionSource : Option SocketAddr) (p : PeerInfo) : PeerInfo × Bool :=
  match p.currentSessionSource with
  | none => (p, true)
  | some armedSource =>
    if !p.poolShowsDifferentConnection current then (p, sessionSource = some armedSource)
    else if sessionSource = some armedSource then (p, false)
    else if current.map (·.sessionSource) = sessionSource then (p.endSession epoch, true)
    else (p, false)

/-- The sequence gate of `merge_full_sync_from_guarded`: the entry after it, and
whether the snapshot is merged. -/
def admitSequence (sessionSource : Option SocketAddr) (sequence : ℕ) (p : PeerInfo) :
    PeerInfo × Bool :=
  if sequence < p.lastSequence then
    if p.acceptLowerSequenceFrom.isSome && p.acceptLowerSequenceFrom = sessionSource then
      ({ p with
        acceptLowerSequenceFrom := none
        lastSequence := sequence
        sessionRestartConfirmed := true }, true)
    else (p, false)
  else
    ({ p with
      acceptLowerSequenceFrom := none
      lastSequence := max p.lastSequence sequence }, true)

/-- The entry after a full sync, and whether its snapshot is merged. -/
def receiveFullSync (current : Option PoolConnection) (epoch : ℕ)
    (sessionSource : Option SocketAddr) (sequence : ℕ) (p : PeerInfo) : PeerInfo × Bool :=
  let (p', fromCurrentSession) := p.isFromCurrentSession current epoch sessionSource
  if fromCurrentSession then p'.admitSequence sessionSource sequence else (p', false)

/-- The entry after a delta, and whether its changes are applied. -/
def receiveDelta (current : Option PoolConnection) (epoch : ℕ) (sessionSource : SocketAddr)
    (currentSequence : ℕ) (p : PeerInfo) : PeerInfo × Bool :=
  let (p', fromCurrentSession) := p.isFromCurrentSession current epoch (some sessionSource)
  if fromCurrentSession then
    ({ p' with
      failures := 0
      lastFailureTime := if p'.failures > 0 then none else p'.lastFailureTime
      lastSequence := max p'.lastSequence currentSequence
      consecutiveDeltas := p'.consecutiveDeltas + 1 }, true)
  else (p', false)

/-- `invalidate_session_state_on_teardown`. -/
def invalidateSessionState (epoch expectedEpoch : ℕ) (p : PeerInfo) : PeerInfo :=
  if p.currentSessionEpoch = expectedEpoch then p.endSession epoch else p

/-! ### The gates -/

variable {current : Option PoolConnection} {epoch : ℕ} {source : Option SocketAddr}
  {sequence expected : ℕ} {p p₁ : PeerInfo}

/-- The session gate leaves the entry alone, or ends a session that another
connection has replaced. -/
lemma isFromCurrentSession_cases (p : PeerInfo) (current : Option PoolConnection) (epoch : ℕ)
    (source : Option SocketAddr) : p.isFromCurrentSession current epoch source = (p, false) ∨
      p.isFromCurrentSession current epoch source = (p, true) ∨
      p.isFromCurrentSession current epoch source = (p.endSession epoch, true) := by
  unfold isFromCurrentSession
  split
  · exact .inr (.inl rfl)
  · split_ifs with h1 h2 h3
    · cases decide (source = some _)
      · exact .inl rfl
      · exact .inr (.inl rfl)
    · exact .inl rfl
    · exact .inr (.inr rfl)
    · exact .inl rfl

/-- While the armed connection is the current one, other sources are turned
away. -/
lemma isFromCurrentSession_of_other {armedSource : SocketAddr}
    (harmed : p.currentSessionSource = some armedSource) (hsrc : source ≠ some armedSource)
    (hcurr : p.poolShowsDifferentConnection current = false) :
    p.isFromCurrentSession current epoch source = (p, false) := by
  simp [isFromCurrentSession, harmed, hcurr, hsrc]

/-- What the sequence gate does: turn the snapshot away, use up the exemption for
a lower sequence, or take a sequence that is not lower. -/
lemma admitSequence_cases (p : PeerInfo) (source : Option SocketAddr) (sequence : ℕ) :
    p.admitSequence source sequence = (p, false) ∨
    (sequence < p.lastSequence ∧ (∃ a, p.acceptLowerSequenceFrom = some a ∧ source = some a) ∧
      p.admitSequence source sequence =
        ({ p with
          acceptLowerSequenceFrom := none
          lastSequence := sequence
          sessionRestartConfirmed := true }, true)) ∨
    p.admitSequence source sequence =
      ({ p with
        acceptLowerSequenceFrom := none
        lastSequence := max p.lastSequence sequence }, true) := by
  unfold admitSequence
  split_ifs with hlow hexempt
  · rw [Bool.and_eq_true, decide_eq_true_eq] at hexempt
    obtain ⟨a, ha⟩ := Option.isSome_iff_exists.mp hexempt.1
    exact .inr (.inl ⟨hlow, ⟨a, ha, hexempt.2 ▸ ha⟩, rfl⟩)
  · exact .inl rfl
  · exact .inr (.inr rfl)

/-- The entry keeps its session, or has none. -/
def SameSession (p p' : PeerInfo) : Prop :=
  p'.currentSessionSource = p.currentSessionSource ∧
    p'.currentSessionConnection = p.currentSessionConnection

/-- What a message does to the part of the entry that the exemption is about:
`p'` is the entry after it and `accepted` says that a full sync was merged. -/
structure Follows (p p' : PeerInfo) (source : Option SocketAddr) (accepted : Bool) : Prop where
  exemption : ∀ a, p'.acceptLowerSequenceFrom = some a →
    p.acceptLowerSequenceFrom = some a ∧ SameSession p p'
  cleared : accepted = true → p'.acceptLowerSequenceFrom = none
  lowered : p'.lastSequence < p.lastSequence →
    accepted = true ∧ ∃ a, p.acceptLowerSequenceFrom = some a ∧ source = some a
  confirmed : p'.sessionRestartConfirmed = true →
    (p.sessionRestartConfirmed = true ∨ p'.lastSequence < p.lastSequence) ∧ SameSession p p'
  session : SameSession p p' ∨
    p'.currentSessionSource = none ∧ p'.currentSessionConnection = none

lemma follows_refl : Follows p p source false where
  exemption _ h := ⟨h, rfl, rfl⟩
  cleared h := absurd h (by simp)
  lowered h := absurd h (lt_irrefl _)
  confirmed h := ⟨.inl h, rfl, rfl⟩
  session := .inl ⟨rfl, rfl⟩

lemma follows_endSession : Follows p (p.endSession epoch) source false where
  exemption _ h := absurd h (by simp [endSession])
  cleared h := absurd h (by simp)
  lowered h := absurd h (lt_irrefl _)
  confirmed h := absurd h (by simp [endSession])
  session := .inr ⟨rfl, rfl⟩

lemma follows_admitSequence (h : Follows p p₁ source false)
    (hlast : p₁.lastSequence = p.lastSequence) :
    Follows p (p₁.admitSequence source sequence).1 source (p₁.admitSequence source sequence).2 := by
  rcases p₁.admitSequence_cases source sequence with
    heq | ⟨hlow, ⟨a, ha, hsrc⟩, heq⟩ | heq
  · rw [heq]
    exact h
  · rw [heq]
    exact
      { exemption := fun _ h' => absurd h' (by simp)
        cleared := fun _ => rfl
        lowered := fun _ => ⟨rfl, a, (h.exemption a ha).1, hsrc⟩
        confirmed := fun _ => ⟨.inr (hlast ▸ hlow), (h.exemption a ha).2⟩
        session := h.session }
  · rw [heq]
    exact
      { exemption := fun _ h' => absurd h' (by simp)
        cleared := fun _ => rfl
        lowered := fun hlt => absurd hlt (not_lt.mpr (hlast ▸ le_max_left _ _))
        confirmed := fun h' =>
          ⟨.inl ((h.confirmed h').1.resolve_right (hlast ▸ lt_irrefl _)), (h.confirmed h').2⟩
        session := h.session }

lemma follows_receiveFullSync : Follows p (p.receiveFullSync current epoch source sequence).1 source
    (p.receiveFullSync current epoch source sequence).2 := by
  rcases isFromCurrentSession_cases p current epoch source with h | h | h
  · simp only [receiveFullSync, h]
    exact follows_refl
  · simp only [receiveFullSync, h]
    exact follows_admitSequence follows_refl rfl
  · simp only [receiveFullSync, h]
    exact follows_admitSequence follows_endSession rfl

lemma follows_receiveDelta {source : SocketAddr} :
    Follows p (p.receiveDelta current epoch source sequence).1 (some source) false := by
  -- a delta only raises the sequence
  have hraise : ∀ p₁ : PeerInfo, Follows p p₁ (some source) false →
      p₁.lastSequence = p.lastSequence →
      Follows p
        { p₁ with
          failures := 0
          lastFailureTime := if p₁.failures > 0 then none else p₁.lastFailureTime
          lastSequence := max p₁.lastSequence sequence
          consecutiveDeltas := p₁.consecutiveDeltas + 1 } (some source) false := by
    intro p₁ h hlast
    exact
      { exemption := h.exemption
        cleared := h.cleared
        lowered := fun hlt => absurd hlt (not_lt.mpr (hlast ▸ le_max_left _ _))
        confirmed := fun h' =>
          ⟨.inl ((h.confirmed h').1.resolve_right (hlast ▸ lt_irrefl _)), (h.confirmed h').2⟩
        session := h.session }
  rcases isFromCurrentSession_cases p current epoch (some source) with h | h | h
  · simp only [receiveDelta, h]
    exact follows_refl
  · simp only [receiveDelta, h]
    exact hraise p follows_refl rfl
  · simp only [receiveDelta, h]
    exact hraise _ follows_endSession rfl

lemma follows_invalidate : Follows p (p.invalidateSessionState epoch expected) source false := by
  unfold invalidateSessionState
  split_ifs
  · exact follows_endSession
  · exact follows_refl

end PeerInfo

/-! ### Runs -/

/-- An entry, the pool's current connection of each peer, and the next epoch.
The epochs come from a counter that all entries draw from. -/
structure SessionSystem where
  peer : PeerInfo
  pool : PeerId → Option PoolConnection
  nextEpoch : ℕ

inductive SessionEvent
  | arm (nodeId : GossipNodeId) (sessionSource : SocketAddr) (peerId : PeerId) (connection : ℕ)
  | fullSync (sender : PeerId) (sessionSource verifiedSenderAddr : Option SocketAddr)
      (sequence : ℕ)
  | delta (sender : PeerId) (sessionSource : SocketAddr) (currentSequence : ℕ)
  | teardown (expectedEpoch : ℕ)
  | publish (peerId : PeerId) (connection : Option PoolConnection)

namespace SessionEvent

/-- The source address a message is judged by. -/
def source : SessionEvent → Option SocketAddr
  | fullSync _ sessionSource verifiedSenderAddr _ => sessionSource.or verifiedSenderAddr
  | delta _ sessionSource _ => some sessionSource
  | arm .. | teardown .. | publish .. => none

def sender : SessionEvent → Option PeerId
  | fullSync sender .. | delta sender .. => some sender
  | arm .. | teardown .. | publish .. => none

def isFullSync : SessionEvent → Bool
  | fullSync .. => true
  | arm .. | delta .. | teardown .. | publish .. => false

end SessionEvent

namespace SessionSystem

/-- The entry after an event, and whether a full sync was merged. -/
def receive (σ : SessionSystem) : SessionEvent → PeerInfo × Bool
  | .arm nodeId sessionSource peerId connection =>
    (σ.peer.armSequenceReset (σ.pool peerId) σ.nextEpoch nodeId sessionSource connection, false)
  | .fullSync sender sessionSource verifiedSenderAddr sequence =>
    σ.peer.receiveFullSync (σ.pool sender) σ.nextEpoch (sessionSource.or verifiedSenderAddr)
      sequence
  | .delta sender sessionSource currentSequence =>
    ((σ.peer.receiveDelta (σ.pool sender) σ.nextEpoch sessionSource currentSequence).1, false)
  | .teardown expectedEpoch => (σ.peer.invalidateSessionState σ.nextEpoch expectedEpoch, false)
  | .publish .. => (σ.peer, false)

def step (σ : SessionSystem) (e : SessionEvent) : SessionSystem where
  peer := (σ.receive e).1
  pool :=
    match e with
    | .publish peerId connection => Function.update σ.pool peerId connection
    | _ => σ.pool
  nextEpoch := σ.nextEpoch + 1

/-- The source and the connection of the session that an event arms. -/
def arms (σ : SessionSystem) : SessionEvent → Option (SocketAddr × ℕ)
  | .arm nodeId sessionSource peerId connection =>
    if σ.peer.nodeId = some nodeId ∧ ∀ c ∈ σ.pool peerId, c.instanceId = connection then
      some (sessionSource, connection)
    else none
  | .fullSync .. | .delta .. | .teardown .. | .publish .. => none

def Accepts (σ : SessionSystem) (e : SessionEvent) : Prop := (σ.receive e).2 = true

def Decreases (σ : SessionSystem) (e : SessionEvent) : Prop :=
  (σ.step e).peer.lastSequence < σ.peer.lastSequence

/-- No step of the run from `σ` along `es` arms a session. -/
def NoArm (σ : SessionSystem) (es : List SessionEvent) : Prop :=
  Meets step (fun σ e => ¬ (σ.arms e).isSome) σ es

variable {σ : SessionSystem} {e : SessionEvent} {es : List SessionEvent} {source : SocketAddr}
  {connection : ℕ}

/-- **Every event that arms no session.** -/
theorem follows_step (h : ¬ (σ.arms e).isSome) :
    Follows σ.peer (σ.step e).peer e.source (σ.receive e).2 := by
  cases e with
  | arm nodeId sessionSource peerId connection =>
    have href : ¬ (σ.peer.nodeId = some nodeId ∧
        ∀ c ∈ σ.pool peerId, c.instanceId = connection) := by
      intro harm
      exact h (by simp only [arms, if_pos harm, Option.isSome_some])
    have hstep : (σ.step (.arm nodeId sessionSource peerId connection)).peer = σ.peer :=
      if_neg href
    rw [hstep]
    exact follows_refl
  | fullSync => exact follows_receiveFullSync
  | delta => exact follows_receiveDelta
  | teardown => exact follows_invalidate
  | publish => exact follows_refl

lemma peer_step_of_arms (h : σ.arms e = some (source, connection)) :
    (σ.step e).peer.acceptLowerSequenceFrom = some source ∧
      (σ.step e).peer.currentSessionSource = some source ∧
      (σ.step e).peer.currentSessionConnection = some connection ∧
      (σ.step e).peer.sessionRestartConfirmed = false := by
  cases e with
  | arm nodeId _ peerId =>
    simp only [arms] at h
    split_ifs at h with harm
    cases h
    have hstep : (σ.step (.arm nodeId source peerId connection)).peer = { σ.peer with
          acceptLowerSequenceFrom := some source
          currentSessionSource := some source
          currentSessionConnection := some connection
          currentSessionEpoch := σ.nextEpoch
          sessionRestartConfirmed := false } := if_pos harm
    rw [hstep]
    exact ⟨rfl, rfl, rfl, rfl⟩
  | fullSync | delta | teardown | publish => simp [arms] at h

lemma not_decreases_of_arms (h : (σ.arms e).isSome) : ¬ σ.Decreases e := by
  cases e with
  | arm nodeId sessionSource peerId connection =>
    have hkeeps : ((σ.step (.arm nodeId sessionSource peerId connection)).peer).lastSequence =
        σ.peer.lastSequence := by
      show (armSequenceReset _ _ _ _ _ _).lastSequence = _
      unfold armSequenceReset
      split_ifs <;> rfl
    unfold Decreases
    omega
  | fullSync | delta | teardown | publish => simp [arms] at h

lemma isFullSync_of_accepts (h : σ.Accepts e) : e.isFullSync = true := by
  cases e with
  | fullSync => rfl
  | arm | delta | teardown | publish => simp [Accepts, receive] at h

lemma accepts_of_decreases (h : ¬ (σ.arms e).isSome) (hlow : σ.Decreases e) : σ.Accepts e :=
  ((follows_step h).lowered hlow).1

/-! ### One session -/

section

variable (h : NoArm σ es)
include h

lemma exempt_run (hexempt : (exec step σ es).peer.acceptLowerSequenceFrom = some source) :
    σ.peer.acceptLowerSequenceFrom = some source ∧
      Meets step (fun σ e => ¬ σ.Accepts e) σ es := by
  induction es generalizing σ with
  | nil => exact ⟨hexempt, trivial⟩
  | cons _ _ ih =>
    obtain ⟨hnext, hrest⟩ := ih h.2 hexempt
    have hfol := follows_step h.1
    refine ⟨(hfol.exemption source hnext).1, ?_, hrest⟩
    intro hacc
    have hnone := hfol.cleared hacc
    rw [hnone] at hnext
    simp at hnext

lemma rises_of_not_exempt (hexempt : σ.peer.acceptLowerSequenceFrom = none) :
    (exec step σ es).peer.acceptLowerSequenceFrom = none ∧
      Meets step (fun σ e => ¬ σ.Decreases e) σ es := by
  induction es generalizing σ with
  | nil => exact ⟨hexempt, trivial⟩
  | cons e _ ih =>
    have hfol := follows_step h.1
    have hnext : (σ.step e).peer.acceptLowerSequenceFrom = none := by
      by_contra hsome
      obtain ⟨a, ha⟩ := Option.ne_none_iff_exists'.mp hsome
      have hback := (hfol.exemption a ha).1
      rw [hexempt] at hback
      simp at hback
    have hlow : ¬ σ.Decreases e := by
      intro hlow
      obtain ⟨-, a, ha, -⟩ := hfol.lowered hlow
      rw [hexempt] at ha
      simp at ha
    exact ⟨(ih h.2 hnext).1, hlow, (ih h.2 hnext).2⟩

/-- The session of an entry after an arm: still the armed one, or ended. -/
lemma session_run (hsrc : σ.peer.currentSessionSource = some source)
    (hconn : σ.peer.currentSessionConnection = some connection) :
    ((exec step σ es).peer.currentSessionSource = some source ∧
        (exec step σ es).peer.currentSessionConnection = some connection) ∨
      ((exec step σ es).peer.currentSessionSource = none ∧
        (exec step σ es).peer.currentSessionConnection = none) := by
  refine exec_invariant_of_meets (P := fun σ : SessionSystem =>
      (σ.peer.currentSessionSource = some source ∧
        σ.peer.currentSessionConnection = some connection) ∨
      (σ.peer.currentSessionSource = none ∧ σ.peer.currentSessionConnection = none))
    ?_ (.inl ⟨hsrc, hconn⟩) h
  intro σ e hσ hnot
  rcases (follows_step hnot).session with hsame | hended
  · rw [hsame.1, hsame.2]
    exact hσ
  · exact .inr hended

/-- What a session has earned ends with it: an open exemption and a confirmed
restart belong to the armed session. -/
lemma earned_run (hsrc : σ.peer.currentSessionSource = some source)
    (hearned : (exec step σ es).peer.sessionRestartConfirmed = true ∨
      (exec step σ es).peer.acceptLowerSequenceFrom.isSome) :
    (exec step σ es).peer.currentSessionSource = some source := by
  refine exec_invariant_of_meets (P := fun σ : SessionSystem =>
      (σ.peer.sessionRestartConfirmed = true ∨ σ.peer.acceptLowerSequenceFrom.isSome) →
        σ.peer.currentSessionSource = some source)
    ?_ (fun _ => hsrc) h hearned
  intro σ e hσ hnot hearned
  have hfol := follows_step hnot
  rcases hearned with hconf | hexempt
  · obtain ⟨hbefore, hsame⟩ := hfol.confirmed hconf
    rw [hsame.1]
    apply hσ
    rcases hbefore with hconf | hlow
    · exact .inl hconf
    · obtain ⟨-, a, ha, -⟩ := hfol.lowered hlow
      exact .inr (by rw [ha]; rfl)
  · obtain ⟨a, ha⟩ := Option.isSome_iff_exists.mp hexempt
    obtain ⟨hbefore, hsame⟩ := hfol.exemption a ha
    rw [hsame.1]
    exact hσ (.inr (by rw [hbefore]; rfl))

/-- A restart that is confirmed in the end and was not at the start was seen as
a lower sequence. -/
lemma confirmed_run (hsta : σ.peer.sessionRestartConfirmed = false)
    (hend : (exec step σ es).peer.sessionRestartConfirmed = true) :
    ∃ p e q, es = p ++ e :: q ∧ (exec step σ p).Decreases e := by
  obtain ⟨p, e, q, rfl, hp, he⟩ := exists_step_of_change
    (P := fun σ : SessionSystem => σ.peer.sessionRestartConfirmed = false) hsta
    (by rw [hend]; simp)
  have hnot := (meets_append.mp h).2.1
  have hconf := (follows_step hnot).confirmed (by simpa using he)
  refine ⟨p, e, q, rfl, hconf.1.resolve_left ?_⟩
  rw [hp]
  simp

end

/-- A message of another source, while the pool shows no other connection than
the armed one. -/
lemma peer_step_of_other {sender : PeerId} (hsnd : e.sender = some sender)
    (hsrc : σ.peer.currentSessionSource = some source)
    (hconn : σ.peer.currentSessionConnection = some connection)
    (hcurr : ∀ c ∈ σ.pool sender, c.instanceId = connection)
    (hoth : e.source ≠ some source) : (σ.step e).peer = σ.peer := by
  have hpool : σ.peer.poolShowsDifferentConnection (σ.pool sender) = false := by
    unfold poolShowsDifferentConnection
    split
    next c hc =>
      simp [hconn, hcurr c hc]
    · rfl
  have hgate : ∀ s, s ≠ some source →
      σ.peer.isFromCurrentSession (σ.pool sender) σ.nextEpoch s = (σ.peer, false) := by
    intro s hs
    exact isFromCurrentSession_of_other hsrc hs hpool
  cases e with
  | fullSync _ sessionSource verified =>
    cases hsnd
    have hturned := hgate (sessionSource.or verified) hoth
    simp [step, receive, receiveFullSync, hturned]
  | delta _ sessionSource =>
    cases hsnd
    have hturned := hgate (some sessionSource) hoth
    simp [step, receive, receiveDelta, hturned]
  | arm | teardown | publish => simp [SessionEvent.sender] at hsnd

/-! ### Whole runs -/

/-- The run splits at `a`, which arms a session for `source` on `connection`, and
`q` is a part of that session. -/
def Session (σ₀ : SessionSystem) (p : List SessionEvent) (a : SessionEvent)
    (q : List SessionEvent) (source : SocketAddr) (connection : ℕ) : Prop :=
  (exec step σ₀ p).arms a = some (source, connection) ∧ NoArm (exec step σ₀ (p ++ [a])) q

variable {σ₀ : SessionSystem} {p q q₁ q₂ : List SessionEvent} {a : SessionEvent}

lemma noArm_or_session (σ₀ : SessionSystem) (es : List SessionEvent) : NoArm σ₀ es ∨
    ∃ p a q source connection, es = p ++ a :: q ∧ Session σ₀ p a q source connection := by
  have hlast : NoArm σ₀ es ∨ ∃ p a q, es = p ++ a :: q ∧ ((exec step σ₀ p).arms a).isSome ∧
      NoArm (exec step σ₀ (p ++ [a])) q := meets_not_or_last _ σ₀ es
  rcases hlast with hnone | ⟨p, a, q, hes, ha, hq⟩
  · exact .inl hnone
  · obtain ⟨⟨source, connection⟩, harms⟩ := Option.isSome_iff_exists.mp ha
    exact .inr ⟨p, a, q, source, connection, hes, harms, hq⟩

lemma peer_of_session (h : Session σ₀ p a q source connection) :
    (exec step σ₀ (p ++ [a])).peer.acceptLowerSequenceFrom = some source ∧
      (exec step σ₀ (p ++ [a])).peer.currentSessionSource = some source ∧
      (exec step σ₀ (p ++ [a])).peer.currentSessionConnection = some connection ∧
      (exec step σ₀ (p ++ [a])).peer.sessionRestartConfirmed = false := by
  rw [exec_concat]
  exact peer_step_of_arms h.1

lemma exec_session : exec step σ₀ (p ++ a :: q) = exec step (exec step σ₀ (p ++ [a])) q := by
  rw [← exec_append, List.append_assoc, List.singleton_append]

/-- A lower sequence within a session: a full sync on the armed source, the first
that the session accepts, and no other lower sequence after it. -/
lemma decreases_in_session (h : Session σ₀ p a (q₁ ++ e :: q₂) source connection)
    (hlow : (exec step σ₀ (p ++ a :: q₁)).Decreases e) :
    e.isFullSync = true ∧ e.source = some source ∧ (exec step σ₀ (p ++ a :: q₁)).Accepts e ∧
      Meets step (fun σ e => ¬ σ.Accepts e) (exec step σ₀ (p ++ [a])) q₁ ∧
      Meets step (fun σ e => ¬ σ.Decreases e) (exec step σ₀ (p ++ a :: (q₁ ++ [e]))) q₂ := by
  obtain ⟨hq₁, hnot, hq₂⟩ := meets_append.mp h.2
  rw [exec_session] at hlow ⊢
  have hfol := follows_step hnot
  have hacc := accepts_of_decreases hnot hlow
  obtain ⟨-, armed, harmed, hsrc⟩ := hfol.lowered hlow
  -- the exemption used up here is the one the session was armed with
  obtain ⟨hsta, hfst⟩ := exempt_run hq₁ harmed
  rw [(peer_of_session h).1] at hsta
  cases hsta
  refine ⟨isFullSync_of_accepts hacc, hsrc, hacc, hfst, ?_⟩
  rw [exec_session, exec_concat]
  exact (rises_of_not_exempt hq₂ (hfol.cleared hacc)).2

/-- **The restart exemption is used at most once.**  Along every run from an
unarmed entry:

* a recorded sequence that is lowered is lowered in a session, by a full sync on
  exactly the source that armed it, which is the first full sync that the session
  accepts, and it is not lowered again before the next session is armed;
* a restart is confirmed only in a session that lasts and that has seen such a
  decrease;
* while the pool shows no other connection of its sender than the armed one, a
  message of another source leaves the entry as it is. -/
theorem restart_exemption_one_shot (σ₀ : SessionSystem) (hσ₀ : σ₀.peer.Unarmed)
    (es : List SessionEvent) : (∀ r e t, es = r ++ e :: t → (exec step σ₀ r).Decreases e →
      ∃ p a q source connection, r = p ++ a :: q ∧ Session σ₀ p a (q ++ [e]) source connection ∧
        e.isFullSync = true ∧ e.source = some source ∧ (exec step σ₀ r).Accepts e ∧
        Meets step (fun σ e => ¬ σ.Accepts e) (exec step σ₀ (p ++ [a])) q) ∧
    (∀ p a q₁ e q₂ source connection, es = p ++ a :: (q₁ ++ e :: q₂) →
      Session σ₀ p a (q₁ ++ e :: q₂) source connection →
      (exec step σ₀ (p ++ a :: q₁)).Decreases e →
      Meets step (fun σ e => ¬ σ.Decreases e) (exec step σ₀ (p ++ a :: (q₁ ++ [e]))) q₂) ∧
    ((exec step σ₀ es).peer.sessionRestartConfirmed = true →
      ∃ p a q source connection, es = p ++ a :: q ∧ Session σ₀ p a q source connection ∧
        (exec step σ₀ es).peer.currentSessionSource = some source ∧
        ∃ q₁ e q₂, q = q₁ ++ e :: q₂ ∧ (exec step σ₀ (p ++ a :: q₁)).Decreases e) ∧
    (∀ p a q e t source connection sender, es = p ++ a :: (q ++ e :: t) →
      Session σ₀ p a q source connection →
      (exec step σ₀ (p ++ a :: q)).peer.currentSessionConnection = some connection →
      e.sender = some sender →
      (∀ c ∈ (exec step σ₀ (p ++ a :: q)).pool sender, c.instanceId = connection) →
      e.source ≠ some source →
      (exec step σ₀ (p ++ a :: (q ++ [e]))).peer = (exec step σ₀ (p ++ a :: q)).peer) := by
  refine ⟨?_, ?_, ?_, ?_⟩
  · -- a decrease is accepted in a session, with its exemption
    intro r e t _ hlow
    have hnot : ¬ ((exec step σ₀ r).arms e).isSome := fun harm => not_decreases_of_arms harm hlow
    rcases noArm_or_session σ₀ r with hnone | ⟨p, a, q, source, connection, rfl, h⟩
    · -- before the first session there is no exemption to use
      have hnone' : NoArm σ₀ (r ++ [e]) := meets_append.mpr ⟨hnone, hnot, trivial⟩
      exact absurd hlow (meets_append.mp (rises_of_not_exempt hnone' hσ₀.1).2).2.1
    · rw [exec_session] at hnot
      have hsess : Session σ₀ p a (q ++ [e]) source connection :=
        ⟨h.1, meets_append.mpr ⟨h.2, hnot, trivial⟩⟩
      obtain ⟨hfull, hsrc, hacc, hfst, -⟩ := decreases_in_session hsess hlow
      exact ⟨p, a, q, source, connection, rfl, hsess, hfull, hsrc, hacc, hfst⟩
  · -- the exemption is used up
    intro p a q₁ e q₂ source connection _ h hlow
    exact (decreases_in_session h hlow).2.2.2.2
  · -- a confirmed restart was a decrease of the session that lasts
    intro hend
    rcases noArm_or_session σ₀ es with hnone | ⟨p, a, q, source, connection, rfl, h⟩
    · obtain ⟨p, e, q, rfl, hlow⟩ := confirmed_run hnone hσ₀.2 hend
      exact absurd hlow (meets_append.mp (rises_of_not_exempt hnone hσ₀.1).2).2.1
    · obtain ⟨-, hsrc, -, hsta⟩ := peer_of_session h
      have hlasts := earned_run h.2 hsrc (.inl (by rw [← exec_session]; exact hend))
      rw [exec_session] at hend ⊢
      obtain ⟨q₁, e, q₂, rfl, hlow⟩ := confirmed_run h.2 hsta hend
      exact ⟨p, a, _, source, connection, rfl, h, hlasts, q₁, e, q₂, rfl,
        by rw [exec_session]; exact hlow⟩
  · -- other sources do not touch the session
    intro p a q e t source connection sender _ h harmed hsnd hcurr hoth
    obtain ⟨-, hsrc, hconn, -⟩ := peer_of_session h
    rw [← List.cons_append, ← List.append_assoc, exec_concat]
    refine peer_step_of_other hsnd ?_ harmed hcurr hoth
    rw [exec_session] at harmed ⊢
    rcases session_run h.2 hsrc hconn with hlasts | hended
    · exact hlasts.1
    · rw [hended.2] at harmed
      simp at harmed

/-- A peer that was at sequence 9 restarts: the new session's first full sync has
sequence 2, and a straggler of the old connection follows it. -/
def restartedPeer : SessionSystem :=
  ⟨{ PeerInfo.new with nodeId := some ⟨⟨7⟩⟩, lastSequence := 9 },
    fun _ => some ⟨1, .v4 1 5000⟩, 1⟩

def restartedRun : List SessionEvent :=
  [.arm ⟨⟨7⟩⟩ (.v4 1 5000) ⟨7⟩ 1, .fullSync ⟨7⟩ (some (.v4 1 5000)) none 2,
    .fullSync ⟨7⟩ (some (.v4 1 4000)) none 10]

theorem restart_exemption_one_shot_confirmed : restartedPeer.peer.Unarmed ∧
    (exec step restartedPeer restartedRun).peer.sessionRestartConfirmed = true ∧
    ∃ p a q source connection, restartedRun = p ++ a :: q ∧
      Session restartedPeer p a q source connection ∧
      (exec step restartedPeer restartedRun).peer.currentSessionSource = some source ∧
      ∃ q₁ e q₂, q = q₁ ++ e :: q₂ ∧ (exec step restartedPeer (p ++ a :: q₁)).Decreases e := by
  have hunarmed : restartedPeer.peer.Unarmed := ⟨rfl, rfl⟩
  have hconf :
      (exec step restartedPeer restartedRun).peer.sessionRestartConfirmed = true := by decide
  exact ⟨hunarmed, hconf,
    (restart_exemption_one_shot restartedPeer hunarmed restartedRun).2.2.1 hconf⟩

/-- The entry of the peer 7 when the peer 8 has a connection of its own. -/
def besideAnotherPeer : SessionSystem :=
  { restartedPeer with
    pool := fun p => if p = ⟨8⟩ then some ⟨2, .v4 2 6000⟩ else some ⟨1, .v4 1 5000⟩ }

/-- **A full sync of another peer under the address of the entry** arrives on that peer's own
connection, ends the session and moves the sequence, although the armed connection is
the current one of the peer that armed it. -/
theorem exemption_ended_by_another_peer :
    let σ := besideAnotherPeer.step (.arm ⟨⟨7⟩⟩ (.v4 1 5000) ⟨7⟩ 1)
    let e := SessionEvent.fullSync ⟨8⟩ (some (.v4 2 6000)) none 50
    besideAnotherPeer.peer.acceptLowerSequenceFrom = none ∧
      besideAnotherPeer.peer.sessionRestartConfirmed = false ∧
      σ.pool ⟨7⟩ = some ⟨1, .v4 1 5000⟩ ∧ σ.peer.currentSessionConnection = some 1 ∧
      σ.peer.currentSessionSource = some (.v4 1 5000) ∧ e.source ≠ some (.v4 1 5000) ∧
      σ.peer.lastSequence = 9 ∧ σ.peer.acceptLowerSequenceFrom = some (.v4 1 5000) ∧
      (σ.step e).pool ⟨7⟩ = some ⟨1, .v4 1 5000⟩ ∧ (σ.step e).peer.lastSequence = 50 ∧
      (σ.step e).peer.acceptLowerSequenceFrom = none := by
  decide

end SessionSystem

end IcanactRemote
