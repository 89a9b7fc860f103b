/-
Disconnect callbacks against session publications.

A notification reads the current connection of its peer under `gossip_state`, arms
the shared generation word, and enters the callback if the word is still the one it
armed.  A publication moves the word before it touches the pool and once more when it
is done.  Publications do not take `gossip_state`.

* `DeliverySystem.step` — one pool access, one operation on the word, or one lock;
* `Move` — what a step of a notification can do;
* `Turns` — the word says who is publishing and who is armed;
* `Guarded` — what the check of a notification found still holds;
* `entered_for_current_session` — no callback is entered for a replaced session
  unless a publication commits between the check and the arming.
-/
import IcanactRemote.Roster
import IcanactRemote.Run

namespace IcanactRemote

open List Function

/-- A `LockFreeConnection` in the pool, with the instance id of its stream handle. -/
structure SlotConnection where
  ptr : ℕ
  instanceId : Option ℕ
  deriving DecidableEq

inductive NoticeStage
  | waiting
  /-- `gossip_state` is held from here to the attempt to arm -/
  | locked
  /-- the session slot was empty, and the other indexes are still to be read -/
  | missing
  | checked
  | armed (claim : ℕ)
  /-- `enter` lost, and the claim is still to be dropped -/
  | refused (claim : ℕ)
  | entered
  | returned
  deriving DecidableEq

/-- The claim a notification owns. -/
def NoticeStage.claim : NoticeStage → Option ℕ
  | armed claim => some claim
  | refused claim => some claim
  | _ => none

/-- A run of `notify_disconnect_if_current`. -/
structure DisconnectNotice where
  failedPeerAddr : ℕ
  peerId : Option ℕ
  failedInstanceId : Option ℕ
  deliveryEpoch : ℕ
  stage : NoticeStage
  deriving DecidableEq

/-- The connection found is of another instance. -/
def DisconnectNotice.superseded (n : DisconnectNotice) (found : Option SlotConnection) : Bool :=
  (found.bind (·.instanceId)).any fun current => some current ≠ n.failedInstanceId

/-- What is published: a session unconditionally, a session against the expected
value of the slot, or an address row. -/
inductive PublicationTarget
  | session (peerId : ℕ)
  | sessionIf (peerId : ℕ) (expected : Option SlotConnection)
  | address (addr : ℕ)
  deriving DecidableEq

inductive PublicationStage
  | pending
  | begun
  | committed
  | finished
  deriving DecidableEq

structure Publication where
  target : PublicationTarget
  connection : SlotConnection
  stage : PublicationStage
  deriving DecidableEq

/-- Between `begin` and `finish`. -/
def Publication.active (p : Publication) : Bool := p.stage = .begun ∨ p.stage = .committed

/-- `generation` counts on; the 64-bit word is its remainder. -/
structure DeliverySystem where
  generation : ℕ
  currentConnection : ℕ → Option SlotConnection
  connectionsByAddr : ℕ → Option SlotConnection
  /-- `current_session_epoch` of the entries of `gossip_state.peers` -/
  sessionEpoch : ℕ → Option ℕ
  gossipLocked : Bool
  /-- the instances with a live stream -/
  usable : ℕ → Bool
  notices : List DisconnectNotice
  publications : List Publication

/-- One step of a notification. -/
inductive NoticeOp
  | lock
  | read
  /-- what `connections_by_peer`, the configured address and the aliases give -/
  | look (found : Option SlotConnection)
  | arm
  | enter
  | drop

inductive PublicationOp
  | begin
  | commit
  | finish

inductive DeliveryEvent
  | notify (failedPeerAddr : ℕ) (peerId failedInstanceId : Option ℕ) (deliveryEpoch : ℕ)
  | notice (k : ℕ) (op : NoticeOp)
  | publish (target : PublicationTarget) (connection : SlotConnection)
  | publication (j : ℕ) (op : PublicationOp)
  /-- retirements and the rest of the pool -/
  | clear (peerId : ℕ)
  | clearAddr (addr : ℕ)
  | setUsable (instanceId : ℕ) (live : Bool)
  /-- another critical section of `gossip_state` -/
  | setEpoch (addr : ℕ) (epoch : Option ℕ)

namespace DeliverySystem

def start : DeliverySystem :=
  ⟨0, fun _ => none, fun _ => none, fun _ => none, false, fun _ => false, [], []⟩

variable (s : DeliverySystem)

/-- Idle. -/
def canArm : Bool := s.generation % 4 = 0

/-- Idle or armed. -/
def canBegin : Bool := s.generation % 4 < 2

/-- The compare-exchange against the word of a claim. -/
def holds (claim : ℕ) : Bool := s.generation % 2 ^ 64 = claim % 2 ^ 64

def turn (k : ℕ) (n : DisconnectNotice) (stage : NoticeStage) (generation : ℕ)
    (gossipLocked : Bool) : DeliverySystem :=
  { s with notices := s.notices.set k { n with stage }, generation, gossipLocked }

/-- The decision of `disconnect_notification_is_current_locked`. -/
def judge (k : ℕ) (n : DisconnectNotice) (found : Option SlotConnection) : DeliverySystem :=
  if n.superseded found ∨ (s.sessionEpoch n.failedPeerAddr).any (· ≠ n.deliveryEpoch) then
    s.turn k n .returned s.generation false
  else s.turn k n .checked s.generation s.gossipLocked

def readSlot (k : ℕ) (n : DisconnectNotice) : DeliverySystem :=
  match n.peerId with
  | some peerId =>
    match s.currentConnection peerId with
    | some connection => s.judge k n (some connection)
    | none => s.turn k n .missing s.generation s.gossipLocked
  | none =>
    s.judge k n (if n.failedInstanceId.isSome then s.connectionsByAddr n.failedPeerAddr else none)

/-- `try_arm`, and the release of `gossip_state`. -/
def tryArm (k : ℕ) (n : DisconnectNotice) : DeliverySystem :=
  if s.canArm then s.turn k n (.armed (s.generation + 1)) (s.generation + 1) false
  else s.turn k n .waiting s.generation false

def enter (k : ℕ) (n : DisconnectNotice) (claim : ℕ) : DeliverySystem :=
  if s.holds claim then s.turn k n .entered (s.generation + 3) s.gossipLocked
  else s.turn k n (.refused claim) s.generation s.gossipLocked

/-- The drop of a claim that was not entered; the notification starts over. -/
def dropClaim (k : ℕ) (n : DisconnectNotice) (claim : ℕ) : DeliverySystem :=
  s.turn k n .waiting (if s.holds claim then s.generation + 3 else s.generation) s.gossipLocked

def notice (k : ℕ) (n : DisconnectNotice) (op : NoticeOp) : DeliverySystem :=
  match op, n.stage with
  | .lock, .waiting => if s.gossipLocked then s else s.turn k n .locked s.generation true
  | .read, .locked => s.readSlot k n
  | .look found, .missing => s.judge k n found
  | .arm, .checked => s.tryArm k n
  | .enter, .armed claim => s.enter k n claim
  | .drop, .refused claim => s.dropClaim k n claim
  | _, _ => s

def setPublication (j : ℕ) (p : Publication) (stage : PublicationStage) : DeliverySystem :=
  { s with publications := s.publications.set j { p with stage } }

/-- `begin` on a word that is not idle or armed tries again. -/
def beginPublication (j : ℕ) (p : Publication) : DeliverySystem :=
  if s.canBegin then
    { s.setPublication j p .begun with
      generation := if s.canArm then s.generation + 3 else s.generation + 2 }
  else s

def setCurrent (peerId : ℕ) (c : Option SlotConnection) : ℕ → Option SlotConnection :=
  update s.currentConnection peerId c

def commitPublication (j : ℕ) (p : Publication) : DeliverySystem :=
  let t := s.setPublication j p .committed
  match p.target with
  | .session peerId => { t with currentConnection := s.setCurrent peerId (some p.connection) }
  | .sessionIf peerId expected =>
    if s.currentConnection peerId = expected then
      { t with currentConnection := s.setCurrent peerId (some p.connection) }
    else t
  | .address addr =>
    { t with connectionsByAddr := update s.connectionsByAddr addr (some p.connection) }

def publication (j : ℕ) (p : Publication) (op : PublicationOp) : DeliverySystem :=
  match op, p.stage with
  | .begin, .pending => s.beginPublication j p
  | .commit, .begun => s.commitPublication j p
  | .finish, .committed =>
    { s.setPublication j p .finished with generation := s.generation + 1 }
  | _, _ => s

def step : DeliveryEvent → DeliverySystem
  | .notify addr peerId failed epoch =>
    { s with notices := s.notices ++ [⟨addr, peerId, failed, epoch, .waiting⟩] }
  | .notice k op =>
    match s.notices[k]? with
    | some n => s.notice k n op
    | none => s
  | .publish target connection =>
    { s with publications := s.publications ++ [⟨target, connection, .pending⟩] }
  | .publication j op =>
    match s.publications[j]? with
    | some p => s.publication j p op
    | none => s
  | .clear peerId => { s with currentConnection := s.setCurrent peerId none }
  | .clearAddr addr =>
    { s with connectionsByAddr := update s.connectionsByAddr addr none }
  | .setUsable instanceId live => { s with usable := update s.usable instanceId live }
  | .setEpoch addr epoch =>
    { s with sessionEpoch := if s.gossipLocked then s.sessionEpoch else
        update s.sessionEpoch addr epoch }

variable {s} {k j generation peerId : ℕ} {n : DisconnectNotice} {p : Publication}

/-! ### Moves of a notification -/

/-- From the look at the slot until the word moves on. -/
def Guards (generation : ℕ) : NoticeStage → Prop
  | .missing => True
  | .checked => True
  | .armed claim => claim = generation
  | _ => False

/-- The slot of its peer does not hold a connection of another instance. -/
def Current (s : DeliverySystem) (n : DisconnectNotice) : Prop :=
  ∀ peerId, n.peerId = some peerId → n.superseded (s.currentConnection peerId) = false

/-- The next stage of a notification, and the word it leaves. -/
inductive Move (s : DeliverySystem) (n : DisconnectNotice) : NoticeStage → ℕ → Prop
  | plain : n.stage.claim = none → stage.claim = none →
      (Guards s.generation stage → Guards s.generation n.stage ∨ s.Current n) →
      Move s n stage s.generation
  | arm : n.stage = .checked → s.canArm = true →
      Move s n (.armed (s.generation + 1)) (s.generation + 1)
  | refuse : n.stage = .armed claim → s.holds claim = false →
      Move s n (.refused claim) s.generation
  | release : n.stage.claim = some claim →
      s.holds claim = true → stage = .entered ∨ stage = .waiting →
      Move s n stage (s.generation + 3)
  | back : n.stage = .refused claim → Move s n .waiting s.generation

def Moves (s : DeliverySystem) (k : ℕ) (n : DisconnectNotice) (t : DeliverySystem) : Prop :=
  ∃ stage generation gossipLocked, t = s.turn k n stage generation gossipLocked ∧
    s.Move n stage generation

variable {found c : Option SlotConnection}

lemma moves_judge (hclaim : n.stage.claim = none)
    (hfound : n.superseded found = false → Guards s.generation n.stage ∨ s.Current n) :
    s.Moves k n (s.judge k n found) := by
  unfold judge
  split
  · exact ⟨_, _, _, rfl, .plain hclaim rfl nofun⟩
  next hcurr =>
    refine ⟨_, _, _, rfl, .plain hclaim rfl fun _ => hfound ?_⟩
    exact Bool.eq_false_iff.mpr fun hlate => hcurr (.inl hlate)

lemma moves_readSlot (hclaim : n.stage.claim = none) : s.Moves k n (s.readSlot k n) := by
  unfold readSlot
  split
  next peerId hpeer =>
    have hcurr (h : n.superseded (s.currentConnection peerId) = false) : s.Current n := by
      intro peerId' hpeer'
      obtain rfl := Option.some.inj (hpeer.symm.trans hpeer')
      exact h
    split
    next hslot =>
      refine moves_judge hclaim fun h => .inr (hcurr ?_)
      rw [hslot]
      exact h
    next hslot =>
      refine ⟨_, _, _, rfl, .plain hclaim rfl fun _ => .inr (hcurr ?_)⟩
      rw [hslot]
      rfl
  next hpeer =>
    refine moves_judge hclaim fun _ => .inr fun peerId hpeer' => ?_
    rw [hpeer] at hpeer'
    cases hpeer'

lemma moves_notice (s : DeliverySystem) (op : NoticeOp) :
    s.notice k n op = s ∨ s.Moves k n (s.notice k n op) := by
  unfold notice
  split
  next hsg =>
    split
    · exact .inl rfl
    · exact .inr ⟨_, _, _, rfl, .plain (by rw [hsg]; rfl) rfl nofun⟩
  next hsg =>
    exact .inr (moves_readSlot (by rw [hsg]; rfl))
  next hsg =>
    exact .inr (moves_judge (by rw [hsg]; rfl) fun _ => .inl (by rw [hsg]; trivial))
  next hsg =>
    -- the claim is armed on an idle word only
    unfold tryArm
    split
    next hidle =>
      exact .inr ⟨_, _, _, rfl, .arm hsg hidle⟩
    · exact .inr ⟨_, _, _, rfl, .plain (by rw [hsg]; rfl) rfl nofun⟩
  next hsg =>
    unfold enter
    split
    next hholds =>
      exact .inr ⟨_, _, _, rfl, .release (by rw [hsg]; rfl) hholds (.inl rfl)⟩
    next hlost =>
      exact .inr ⟨_, _, _, rfl, .refuse hsg (Bool.eq_false_iff.mpr hlost)⟩
  next hsg =>
    unfold dropClaim
    split
    next hholds =>
      exact .inr ⟨_, _, _, rfl, .release (by rw [hsg]; rfl) hholds (.inr rfl)⟩
    · exact .inr ⟨_, _, _, rfl, .back hsg⟩
  · exact .inl rfl

/-! ### The word -/

/-- The word says whether a publication is going on, and who is armed. -/
structure Turns (s : DeliverySystem) : Prop where
  phase : s.generation % 4 ≠ 2
  publishing : s.publications.countP Publication.active = if s.generation % 4 = 3 then 1 else 0
  armed : s.generation % 4 = 1 → ∃ n ∈ s.notices, n.stage = .armed s.generation
  issued : ∀ n ∈ s.notices, ∀ claim, n.stage.claim = some claim →
    claim ≤ s.generation ∧ claim % 4 = 1

lemma Turns.turn (h : Turns s) (hk : s.notices[k]? = some n) (stage : NoticeStage)
    (generation : ℕ) (gossipLocked : Bool) (hle : s.generation ≤ generation)
    (hph : generation % 4 ≠ 2) (hpublishing : generation % 4 = 3 ↔ s.generation % 4 = 3)
    (harmed : generation % 4 = 1 → stage = .armed generation ∨
      generation = s.generation ∧ n.stage ≠ .armed generation)
    (hissued : ∀ claim, stage.claim = some claim → claim ≤ generation ∧ claim % 4 = 1) :
    Turns (s.turn k n stage generation gossipLocked) := by
  refine ⟨hph, ?_, fun hone => ?_, fun m hm claim hclaim => ?_⟩
  · change s.publications.countP _ = if generation % 4 = 3 then 1 else 0
    rw [h.publishing]
    exact if_congr hpublishing.symm rfl rfl
  · change ∃ m ∈ s.notices.set k _, m.stage = .armed generation
    obtain hnew | ⟨rfl, hoth⟩ := harmed hone
    · exact ⟨_, mem_of_getElem? (by rw [Roster.getElem?_set hk, if_pos rfl]), hnew⟩
    · obtain ⟨m, hm, hsg⟩ := h.armed hone
      obtain ⟨i, hi⟩ := mem_iff_getElem?.mp hm
      have hik : i ≠ k := by
        rintro rfl
        obtain rfl := Option.some.inj (hk.symm.trans hi)
        exact hoth hsg
      refine ⟨m, mem_of_getElem? (i := i) ?_, hsg⟩
      rw [Roster.getElem?_set hk, if_neg hik]
      exact hi
  · obtain hold | rfl := mem_or_eq_of_mem_set hm
    · obtain ⟨hbd, hodd⟩ := h.issued m hold claim hclaim
      exact ⟨Nat.le_trans hbd hle, hodd⟩
    · exact hissued claim hclaim

variable {t : DeliverySystem}

lemma Turns.move (h : Turns s) (hk : s.notices[k]? = some n) (hmoves : s.Moves k n t) :
    Turns t := by
  obtain ⟨stage, generation, gossipLocked, rfl, hmove⟩ := hmoves
  have hissued := h.issued n (mem_of_getElem? hk)
  have stay (hoth : n.stage ≠ .armed s.generation)
      (hclaim : ∀ claim, stage.claim = some claim → n.stage.claim = some claim) :
      Turns (s.turn k n stage s.generation gossipLocked) :=
    h.turn hk stage s.generation gossipLocked (Nat.le_refl _) h.phase Iff.rfl
      (fun _ => .inr ⟨rfl, hoth⟩) fun claim hnew => hissued claim (hclaim claim hnew)
  cases hmove with
  | plain hold hnew =>
    refine stay (fun harmed => ?_) (fun claim hclaim => ?_)
    · rw [harmed] at hold
      cases hold
    · rw [hnew] at hclaim
      cases hclaim
  | arm _ hidle =>
    -- from idle to armed: the word moves by one
    have hzero : s.generation % 4 = 0 := of_decide_eq_true hidle
    refine h.turn hk _ _ _ (by omega) (by omega) (by omega) (fun _ => .inl rfl) ?_
    rintro _ ⟨⟩
    omega
  | refuse hsg hlost =>
    refine stay (fun harmed => ?_) (fun _ hclaim => by rw [hsg]; exact hclaim)
    rw [hsg] at harmed
    cases harmed
    exact of_decide_eq_false hlost rfl
  | release hclaim hholds hnew =>
    -- the claim was armed with an odd word, and the word is still that one
    have hodd := (hissued _ hclaim).2
    have hword := of_decide_eq_true hholds
    refine h.turn hk _ _ _ (by omega) (by omega) (by omega) (by omega) ?_
    obtain rfl | rfl := hnew <;> exact nofun
  | back hsg => exact stay (by rw [hsg]; exact nofun) nofun

lemma active_set (hj : s.publications[j]? = some p) (stage : PublicationStage) :
    (s.setPublication j p stage).publications.countP Publication.active +
      (if p.active then 1 else 0) =
    s.publications.countP Publication.active +
      if Publication.active { p with stage } then 1 else 0 :=
  Roster.countP_set Publication.active hj { p with stage }

lemma Turns.publish (h : Turns s) (hnote : t.notices = s.notices)
    (hle : s.generation ≤ t.generation) (heven : t.generation % 4 ≠ 1 ∧ t.generation % 4 ≠ 2)
    (hcnt : t.publications.countP Publication.active = if t.generation % 4 = 3 then 1 else 0) :
    Turns t := by
  refine ⟨heven.2, hcnt, fun hone => absurd hone heven.1, fun m hm claim hclaim => ?_⟩
  obtain ⟨hbd, hodd⟩ := h.issued m (hnote ▸ hm) claim hclaim
  exact ⟨Nat.le_trans hbd hle, hodd⟩

lemma Turns.owned (h : Turns s) (hj : s.publications[j]? = some p) (hact : p.active = true) :
    s.generation % 4 = 3 := by
  have hpos : 0 < s.publications.countP Publication.active := Roster.countP_pos hj hact
  rw [h.publishing] at hpos
  by_contra hne
  rw [if_neg hne] at hpos
  exact Nat.lt_irrefl 0 hpos

lemma beginPublication_generation (hcan : s.canBegin = true) :
    (if s.canArm then s.generation + 3 else s.generation + 2) % 4 = 3 := by
  have hlow : s.generation % 4 < 2 := of_decide_eq_true hcan
  split
  next hidle =>
    have hzero : s.generation % 4 = 0 := of_decide_eq_true hidle
    omega
  next hidle =>
    have hone : s.generation % 4 ≠ 0 := fun hzero => hidle (decide_eq_true hzero)
    omega

lemma le_beginPublication (s : DeliverySystem) :
    s.generation ≤ if s.canArm then s.generation + 3 else s.generation + 2 := by
  split <;> omega

lemma Turns.publication (h : Turns s) (hj : s.publications[j]? = some p) (op : PublicationOp) :
    Turns (s.publication j p op) := by
  have hcnt := h.publishing
  have hset := active_set hj
  unfold DeliverySystem.publication
  split
  next hsg =>
    unfold beginPublication
    split
    next hcan =>
      have hlow : s.generation % 4 < 2 := of_decide_eq_true hcan
      have hnone : ¬ s.generation % 4 = 3 := by omega
      have hthree := beginPublication_generation hcan
      have hbegun := hset .begun
      simp only [Publication.active, hsg] at hbegun hcnt
      rw [hcnt, if_neg hnone] at hbegun
      refine h.publish rfl (le_beginPublication s) (by rw [hthree]; decide) ?_
      rw [if_pos hthree]
      exact hbegun
    · exact h
  next hsg =>
    have hact : p.active = true := decide_eq_true (.inl hsg)
    have hthree := h.owned hj hact
    have hkept := hset .committed
    rw [if_pos hact, hcnt] at hkept
    -- a commit moves the pool and not the word
    have key {t : DeliverySystem} (hnote : t.notices = s.notices)
        (hgen : t.generation = s.generation)
        (hpublications : t.publications = (s.setPublication j p .committed).publications) :
        Turns t := by
      refine h.publish hnote (Nat.le_of_eq hgen.symm) (by omega) ?_
      rw [hpublications, hgen]
      exact Nat.succ.inj hkept
    unfold commitPublication
    split
    · exact key rfl rfl rfl
    · split <;> exact key rfl rfl rfl
    · exact key rfl rfl rfl
  next hsg =>
    have hact : p.active = true := decide_eq_true (.inr hsg)
    have hthree := h.owned hj hact
    have hended := hset .finished
    rw [if_pos hact, hcnt, if_pos hthree] at hended
    refine h.publish rfl (Nat.le_succ _) (by dsimp only; omega) ?_
    rw [if_neg (by dsimp only; omega)]
    exact Nat.succ.inj hended
  · exact h

lemma Turns.step (h : Turns s) (e : DeliveryEvent) : Turns (s.step e) := by
  cases e with
  | notify =>
    refine ⟨h.phase, h.publishing, fun hone => ?_, fun m hm claim hclaim => ?_⟩
    · obtain ⟨m, hm, hsg⟩ := h.armed hone
      exact ⟨m, mem_append_left _ hm, hsg⟩
    · obtain hold | hnew := mem_append.mp hm
      · exact h.issued m hold claim hclaim
      · obtain rfl := mem_singleton.mp hnew
        cases hclaim
  | notice k op =>
    simp only [DeliverySystem.step]
    split
    next n hk =>
      obtain hsame | hmoves := moves_notice s op
      · rw [hsame]
        exact h
      · exact h.move hk hmoves
    · exact h
  | publish =>
    refine ⟨h.phase, ?_, h.armed, h.issued⟩
    -- it counts from its `begin` on
    change (s.publications ++ [_]).countP _ = _
    rw [Roster.countP_concat, h.publishing]
    rfl
  | publication j op =>
    simp only [DeliverySystem.step]
    split
    next hj =>
      exact h.publication hj op
    · exact h
  | _ => exact ⟨h.phase, h.publishing, h.armed, h.issued⟩

/-! ### The check -/

/-- A notification past its check is not superseded. -/
def Guarded (s : DeliverySystem) : Prop :=
  ∀ n ∈ s.notices, Guards s.generation n.stage → s.Current n

lemma Turns.guards (h : Turns s) (hn : n ∈ s.notices) (hle : s.generation ≤ generation)
    (hguards : Guards generation n.stage) : Guards s.generation n.stage := by
  cases hsg : n.stage with
  | armed claim =>
    rw [hsg] at hguards
    obtain rfl : claim = generation := hguards
    exact Nat.le_antisymm (h.issued n hn claim (by rw [hsg]; rfl)).1 hle
  | _ =>
    rw [hsg] at hguards
    exact hguards

lemma Guarded.move (h : Guarded s) (ht : Turns s) (hk : s.notices[k]? = some n)
    (hmoves : s.Moves k n t) : Guarded t := by
  obtain ⟨stage, generation, gossipLocked, rfl, hmove⟩ := hmoves
  have hn := h n (mem_of_getElem? hk)
  have key (hle : s.generation ≤ generation) (hnew : Guards generation stage → s.Current n) :
      Guarded (s.turn k n stage generation gossipLocked) := by
    intro m hm hguards
    obtain hold | rfl := mem_or_eq_of_mem_set hm
    · exact h m hold (ht.guards hold hle hguards)
    · exact hnew hguards
  cases hmove with
  | plain _ _ hnew => exact key (Nat.le_refl _) fun hguards => (hnew hguards).elim hn id
  | arm hsg => exact key (Nat.le_succ _) fun _ => hn (by rw [hsg]; trivial)
  | refuse | back => exact key (Nat.le_refl _) nofun
  | release _ _ hnew =>
    refine key (Nat.le_add_right _ _) fun hguards => ?_
    obtain rfl | rfl := hnew <;> exact hguards.elim

/-- A publication for a peer commits another instance only while no notification of
that peer is between its check and its arming. -/
def Undisturbed (s : DeliverySystem) : DeliveryEvent → Prop
  | .publication j .commit => ∀ p peerId, s.publications[j]? = some p →
      (p.target = .session peerId ∨ ∃ expected, p.target = .sessionIf peerId expected) →
      ∀ n ∈ s.notices, n.peerId = some peerId → n.stage = .missing ∨ n.stage = .checked →
        n.superseded (some p.connection) = false
  | _ => True

lemma Guarded.write (h : Guarded s) (hnote : t.notices = s.notices)
    (hgen : t.generation = s.generation)
    (hslot : t.currentConnection = s.setCurrent peerId c)
    (hcurr : ∀ n ∈ s.notices, Guards s.generation n.stage → n.peerId = some peerId → n.superseded
      c = false) :
    Guarded t := by
  intro n hn hguards peerId' hpeer
  rw [hnote] at hn
  rw [hgen] at hguards
  rw [hslot, setCurrent]
  by_cases heq : peerId' = peerId
  · rw [heq, update_self]
    exact hcurr n hn hguards (heq ▸ hpeer)
  · rw [update_of_ne heq]
    exact h n hn hguards peerId' hpeer

lemma Guarded.commit (h : Guarded s) (ht : Turns s) (hj : s.publications[j]? = some p)
    (hsg : p.stage = .begun) (hcom : Undisturbed s (.publication j .commit)) :
    Guarded (s.commitPublication j p) := by
  have hthree := ht.owned hj (decide_eq_true (.inl hsg))
  -- nobody is armed, so the condition speaks of all that guard
  have hcurr (peerId : ℕ) (htgt : p.target = .session peerId ∨
      ∃ expected, p.target = .sessionIf peerId expected) :
      ∀ n ∈ s.notices, Guards s.generation n.stage → n.peerId = some peerId →
        n.superseded (some p.connection) = false := by
    intro n hn hguards hpeer
    refine hcom p peerId hj htgt n hn hpeer ?_
    cases hsg : n.stage with
    | missing => exact .inl rfl
    | checked => exact .inr rfl
    | armed claim =>
      rw [hsg] at hguards
      obtain rfl : claim = s.generation := hguards
      have hodd := (ht.issued n hn _ (by rw [hsg]; rfl)).2
      omega
    | _ =>
      rw [hsg] at hguards
      exact hguards.elim
  unfold commitPublication
  split
  next peerId htgt =>
    exact h.write rfl rfl rfl (hcurr peerId (.inl htgt))
  next peerId expected htgt =>
    split
    · exact h.write rfl rfl rfl (hcurr peerId (.inr ⟨expected, htgt⟩))
    · exact h
  · exact h

lemma Guarded.step (h : Guarded s) (ht : Turns s) (e : DeliveryEvent) (he : Undisturbed s e) :
    Guarded (s.step e) := by
  cases e with
  | notify =>
    intro n hn hguards
    obtain hold | hnew := mem_append.mp hn
    · exact h n hold hguards
    · obtain rfl := mem_singleton.mp hnew
      exact hguards.elim
  | notice k op =>
    simp only [DeliverySystem.step]
    split
    next n hk =>
      obtain hsame | hmoves := moves_notice s op
      · rw [hsame]
        exact h
      · exact h.move ht hk hmoves
    · exact h
  | publication =>
    simp only [DeliverySystem.step]
    split
    next hj =>
      unfold publication
      split
      · unfold beginPublication
        split
        · -- a word that has moved guards nobody
          exact fun n hn hguards => h n hn (ht.guards hn (le_beginPublication s) hguards)
        · exact h
      next hsg =>
        exact h.commit ht hj hsg he
      · exact fun n hn hguards => h n hn (ht.guards hn (Nat.le_succ _) hguards)
      · exact h
    · exact h
  | clear => exact h.write rfl rfl rfl fun _ _ _ _ => rfl
  | _ => exact h

/-- The slot of the peer holds a usable connection of another instance than the failed
one, and its publication is complete. -/
def Replaced (s : DeliverySystem) (n : DisconnectNotice) (peerId : ℕ) : Prop :=
  ∃ c i, s.currentConnection peerId = some c ∧ c.instanceId = some i ∧ s.usable i = true ∧
    some i ≠ n.failedInstanceId ∧ ∃ p ∈ s.publications, p.connection = c ∧ p.stage = .finished

/-- **Callbacks are entered for the current session.**  In every run at most one
publication is between `begin` and `finish`, and the word is free again when claims and
publications have ended.  If no publication commits between the check and the arming
of a notification, no notification wins `enter` for a session that was replaced. -/
theorem entered_for_current_session (es : List DeliveryEvent) : let s := Run.exec step start es
    s.publications.countP Publication.active ≤ 1 ∧
    (s.publications.countP Publication.active = 0 → s.canBegin = true ∧
      ((∀ n ∈ s.notices, ∀ claim, n.stage ≠ .armed claim) → s.canArm = true)) ∧
    (Run.Meets step Undisturbed start es → ∀ n ∈ s.notices, ∀ claim peerId,
      n.stage = .armed claim → n.peerId = some peerId → s.generation < claim + 2 ^ 64 →
      s.holds claim = true → ¬ s.Replaced n peerId) := by
  intro s
  have hsta : Turns start := ⟨nofun, rfl, nofun, nofun⟩
  have hturns : Turns s := Run.exec_invariant (P := Turns) (fun _ e hs => hs.step e) hsta es
  have hph := hturns.phase
  have hcnt := hturns.publishing
  refine ⟨?_, fun hnone => ⟨?_, fun hfree => ?_⟩, fun hmeets n hn claim peerId hsg hpeer hlap
    hholds hrepl => ?_⟩
  · rw [hcnt]
    split <;> omega
  · rw [hcnt] at hnone
    split at hnone
    · cases hnone
    · exact decide_eq_true (by omega)
  · rw [hcnt] at hnone
    split at hnone
    · cases hnone
    · refine decide_eq_true ?_
      by_contra hne
      obtain ⟨n, hn, hsg⟩ := hturns.armed (by omega)
      exact hfree n hn _ hsg
  · have hguarded : Turns s ∧ Guarded s :=
      Run.exec_invariant_of_meets (P := fun s => Turns s ∧ Guarded s)
        (fun _ e hs he => ⟨hs.1.step e, hs.2.step hs.1 e he⟩) ⟨hsta, nofun⟩ hmeets
    obtain ⟨hle, -⟩ := hturns.issued n hn claim (by rw [hsg]; rfl)
    have hword : s.generation % 2 ^ 64 = claim % 2 ^ 64 := of_decide_eq_true hholds
    -- the word has not gone round, so it is the one that was armed
    have hsame : claim = s.generation := by omega
    obtain ⟨c, i, hslot, hi, -, hoth, -⟩ := hrepl
    have hcurr := hguarded.2 n hn (by rw [hsg]; exact hsame) peerId hpeer
    rw [hslot, DisconnectNotice.superseded, Option.bind_some, hi, Option.any_some] at hcurr
    exact of_decide_eq_false hcurr hoth

/-- Instance 1 of peer 7 failed and is still in the slot when it is looked at.  Before
the arming, instance 2 is published for a peer. -/
def lateArming (peerId : ℕ) : List DeliveryEvent :=
  [.publish (.session 7) ⟨1, some 1⟩, .publication 0 .begin, .publication 0 .commit,
    .publication 0 .finish, .notify 5 (some 7) (some 1) 0, .notice 0 .lock, .notice 0 .read,
    .setUsable 2 true, .publish (.session peerId) ⟨2, some 2⟩, .publication 1 .begin,
    .publication 1 .commit, .publication 1 .finish, .notice 0 .arm]

theorem entered_for_current_session_quiet : (Run.exec step start (lateArming 8)).holds 9 = true ∧
    ¬ (Run.exec step start (lateArming 8)).Replaced ⟨5, some 7, some 1, 0, .armed 9⟩ 7 := by
  have hmeets : Run.Meets step Undisturbed start (lateArming 8) := by
    refine ⟨trivial, trivial, fun _ _ _ _ n hn => absurd hn not_mem_nil, trivial, trivial, trivial,
      trivial, trivial, trivial, trivial, ?_, trivial, trivial, trivial⟩
    -- the other peer has no notification
    intro p peerId hp htarget n hn hpeer
    cases hp
    cases mem_singleton.mp hn
    cases hpeer
    obtain h | ⟨_, h⟩ := htarget <;> cases h
  exact ⟨by decide +kernel, (entered_for_current_session (lateArming 8)).2.2 hmeets
    _ (mem_singleton_self _) 9 7 rfl rfl (by decide +kernel) (by decide +kernel)⟩

/-- **A callback is entered for a replaced session.** -/
theorem entered_for_replaced_session : let s := Run.exec step start (lateArming 7)
    (s.step (.notice 0 .enter)).notices = [⟨5, some 7, some 1, 0, .entered⟩] ∧
      s.Replaced ⟨5, some 7, some 1, 0, .armed 9⟩ 7 := by
  refine ⟨by decide +kernel, ⟨2, some 2⟩, 2, by decide +kernel, rfl, by decide +kernel,
    by decide, ⟨.session 7, ⟨2, some 2⟩, .finished⟩, by decide +kernel, rfl, rfl⟩

end DeliverySystem

end IcanactRemote
