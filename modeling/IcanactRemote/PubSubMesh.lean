/-
Routed pubsub frames in a mesh of nodes.

A publish splits its destinations among next hops, and every node on the way does
the same with those that remain.  A node takes only one frame of each message.

* `PubSubMesh.step` — a publish, or a node that handles one of the frames under way;
* `Leads` — following next hops leads to a destination within a number of hops;
* `Balanced` — deliveries and destinations under way add up to those published;
* `delivered_exactly_once` — what holds if no node gets a second frame of a message and
  every frame has room for its destinations.
-/
import IcanactRemote.Run
import IcanactRemote.WireFormat

namespace IcanactRemote

open List Function Run

variable {Node : Type}

/-- What `handle_fast_pubsub_frame` reads of a frame apart from what it passes on. -/
structure PubSubFrame (Node : Type) where
  topicKey : UInt64
  payloadLen : ℕ
  originPeerId : Node
  msgId : ℕ
  /-- the node that sent the frame -/
  sourcePeerId : Node
  hopsRemaining : ℕ
  destinations : List Node

/-- `SeenMessageKey`. -/
def PubSubFrame.key (f : PubSubFrame Node) : Node × ℕ := (f.originPeerId, f.msgId)

/-- All nodes, and the frames under way with the nodes they are sent to. -/
structure PubSubMesh (Node : Type) where
  nextMsgId : Node → ℕ
  inFlight : List (Node × PubSubFrame Node)
  seenMessages : Node → List (Node × ℕ)
  /-- how often a node called `deliver_local_borrowed` for a message -/
  delivered : Node × Node × ℕ → ℕ
  /-- the destinations each message was published for -/
  published : Node × ℕ → List Node

inductive PubSubEvent (Node : Type)
  | publish (origin : Node) (topicKey : UInt64) (payloadLen : ℕ) (destinations : List Node)
    (hopsLimit : ℕ)
  | handle (k : ℕ)

namespace PubSubMesh

def start : PubSubMesh Node := ⟨fun _ => 0, [], fun _ => [], fun _ => 0, fun _ => []⟩

def fastFrameLen (destinations : List Node) (payloadLen : ℕ) : ℕ :=
  120 + destinations.length * 32 + payloadLen

/-- `write_fast_frame`: the count of the destinations is a `u16`. -/
def writeFastFrame (f : PubSubFrame Node) (destinations : List Node) : PubSubFrame Node :=
  { f with destinations := destinations.take 65535 }

/-- `try_send_pubsub_payload_pooled` takes the frame. -/
def Accepted (maxMessageSize payloadLen : ℕ) (destinations : List Node) : Prop :=
  pubsubHeaderLen + fastFrameLen destinations payloadLen ≤ min maxMessageSize controlBodyLenMask

instance (maxMessageSize payloadLen : ℕ) (destinations : List Node) :
    Decidable (Accepted maxMessageSize payloadLen destinations) :=
  inferInstanceAs (Decidable (_ ≤ _))

/-- A frame for each next hop, like `f` but for the destinations. -/
def send (maxMessageSize : ℕ) (f : PubSubFrame Node) (groups : List (Node × List Node)) :
    List (Node × PubSubFrame Node) :=
  (groups.filter fun g => Accepted maxMessageSize f.payloadLen g.2).map fun g =>
    (g.1, writeFastFrame f g.2)

/-- Every next hop gets a frame with all of its destinations. -/
def Roomy (maxMessageSize payloadLen : ℕ) (groups : List (Node × List Node)) : Prop :=
  ∀ g ∈ groups, g.2.length ≤ 65535 ∧ Accepted maxMessageSize payloadLen g.2

instance (maxMessageSize payloadLen : ℕ) (groups : List (Node × List Node)) :
    Decidable (Roomy maxMessageSize payloadLen groups) :=
  inferInstanceAs (Decidable (∀ g ∈ groups, _))

/-! ### Routes -/

-- `group_destinations` at each node
variable (group : Node → UInt64 → List Node → List (Node × List Node))

/-- Following next hops leads to the destination within the number of hops. -/
def Leads (topicKey : UInt64) : ℕ → Node → Node → Prop
  | 0, n, d => n = d
  | k + 1, n, d => n = d ∨ ∀ ds, ∀ g ∈ group n topicKey ds, d ∈ g.2 → Leads topicKey k g.1 d

/-- `group_destinations` partitions the destinations among the next hops. -/
def Partitions : Prop :=
  ∀ n topicKey ds, n ∉ ds → ((group n topicKey ds).flatMap Prod.snd).Perm ds

/-- A frame has hops enough, and its node is nearer to its destinations than those
it came from. -/
def Bound (n : Node) (f : PubSubFrame Node) : Prop :=
  ∀ d ∈ f.destinations, ∃ k < f.hopsRemaining, Leads group f.topicKey k n d ∧
    ¬ Leads group f.topicKey k f.originPeerId d ∧ ¬ Leads group f.topicKey k f.sourcePeerId d

variable {group}

variable {f : PubSubFrame Node} {n d origin : Node} {ds : List Node} {topicKey : UInt64}
  {k j hopsLimit payloadLen maxMessageSize : ℕ} {limit : Node → ℕ}

lemma Leads.succ (h : Leads group topicKey k n d) : Leads group topicKey (k + 1) n d := by
  induction k generalizing n with
  | zero => exact .inl h
  | succ k ih =>
    obtain h | h := h
    · exact .inl h
    · exact .inr fun ds g hg hd => ih (h ds g hg hd)

lemma Leads.mono (h : Leads group topicKey j n d) (hle : j ≤ k) : Leads group topicKey k n d := by
  induction hle with
  | refl => exact h
  | step _ ih => exact ih.succ

lemma Leads.nearer (h : Leads group topicKey k n d) (hne : n ≠ d) :
    ∃ m < k, ¬ Leads group topicKey m n d ∧
      ∀ ds, ∀ g ∈ group n topicKey ds, d ∈ g.2 → Leads group topicKey m g.1 d := by
  induction k with
  | zero => exact absurd h hne
  | succ k ih =>
    by_cases hk : Leads group topicKey k n d
    · obtain ⟨m, hm, hrest⟩ := ih hk
      exact ⟨m, Nat.lt_succ_of_lt hm, hrest⟩
    · exact ⟨k, Nat.lt_succ_self k, hk, h.resolve_left hne⟩

lemma bound_send (hgroup : Partitions group) (hn : f.sourcePeerId ∉ ds)
    (hleads : ∀ d ∈ ds, ∃ k ≤ f.hopsRemaining, Leads group f.topicKey k f.sourcePeerId d ∧
      (f.originPeerId = f.sourcePeerId ∨ ¬ Leads group f.topicKey k f.originPeerId d)) :
    ∀ x ∈ send maxMessageSize f (group f.sourcePeerId f.topicKey ds), Bound group x.1 x.2 := by
  intro x hx d hd
  obtain ⟨g, hg, rfl⟩ := mem_map.mp hx
  replace hg := mem_of_mem_filter hg
  replace hd := mem_of_mem_take hd
  have hmem : d ∈ ds := (hgroup _ _ ds hn).mem_iff.mp (mem_flatMap.mpr ⟨g, hg, hd⟩)
  obtain ⟨k, hk, hlead, horig⟩ := hleads d hmem
  obtain ⟨m, hm, hfar, hnear⟩ := hlead.nearer fun heq => hn (heq ▸ hmem)
  refine ⟨m, Nat.lt_of_lt_of_le hm hk, hnear ds g hg hd, ?_, hfar⟩
  obtain horig | horig := horig
  · exact fun hback => hfar (horig ▸ hback)
  · exact fun hback => horig (hback.mono (Nat.le_of_lt hm))

lemma Bound.drop (h : Bound group n f)
    (hdrop : f.hopsRemaining = 0 ∨ f.originPeerId = n ∨ f.sourcePeerId = n) :
    f.destinations = [] := by
  refine eq_nil_iff_forall_not_mem.mpr fun d hd => ?_
  obtain ⟨k, hk, hlead, horig, hsrc⟩ := h d hd
  obtain hzero | rfl | rfl := hdrop
  · omega
  · exact horig hlead
  · exact hsrc hlead

variable [DecidableEq Node] (group) (limit : Node → ℕ) (s : PubSubMesh Node)

/-- `publish_remote_bytes_inner_with_metadata` to selected peers. -/
def publish (origin : Node) (topicKey : UInt64) (payloadLen : ℕ) (destinations : List Node)
    (hopsLimit : ℕ) : PubSubMesh Node :=
  if hopsLimit = 0 then s
  else
    let msgId := s.nextMsgId origin
    let frame := ⟨topicKey, payloadLen, origin, msgId, origin, hopsLimit, []⟩
    { s with
      nextMsgId := Function.update s.nextMsgId origin (msgId + 1)
      inFlight := s.inFlight ++ send (limit origin) frame (group origin topicKey destinations)
      published := Function.update s.published (origin, msgId) destinations }

/-- The frames for the destinations behind a node. -/
def forward (n : Node) (f : PubSubFrame Node) : List (Node × PubSubFrame Node) :=
  let remaining := f.destinations.filter (· ≠ n)
  if f.hopsRemaining ≤ 1 ∨ remaining = [] then []
  else send (limit n) { f with sourcePeerId := n, hopsRemaining := f.hopsRemaining - 1 }
    (group n f.topicKey remaining)

def handleFastPubsubFrame (n : Node) (f : PubSubFrame Node) : PubSubMesh Node :=
  if f.hopsRemaining = 0 then s
  else if f.originPeerId = n ∨ f.sourcePeerId = n then s
  else if f.key ∈ s.seenMessages n then s
  else
    { s with
      seenMessages := Function.update s.seenMessages n (f.key :: s.seenMessages n)
      delivered :=
        if n ∈ f.destinations then
          Function.update s.delivered (n, f.key) (s.delivered (n, f.key) + 1)
        else s.delivered
      inFlight := s.inFlight ++ forward group limit n f }

def step : PubSubEvent Node → PubSubMesh Node
  | .publish origin topicKey payloadLen destinations hopsLimit =>
    s.publish group limit origin topicKey payloadLen destinations hopsLimit
  | .handle k =>
    match s.inFlight[k]? with
    | some (n, f) =>
      { s with inFlight := s.inFlight.eraseIdx k }.handleFastPubsubFrame group limit n f
    | none => s

/-! ### Destinations under way -/

variable {group limit s}

/-- How often the node is a destination of a frame of the message. -/
def pending (l : List (Node × PubSubFrame Node)) (key : Node × ℕ) (m : Node) : ℕ :=
  (l.map fun x => if x.2.key = key then x.2.destinations.count m else 0).sum

lemma pending_append (l l' : List (Node × PubSubFrame Node)) (key : Node × ℕ) (m : Node) :
    pending (l ++ l') key m = pending l key m + pending l' key m := by
  rw [pending, map_append, sum_append]
  rfl

lemma pending_send {groups : List (Node × List Node)}
    (hroom : Roomy maxMessageSize f.payloadLen groups) (key : Node × ℕ) (m : Node) :
    pending (send maxMessageSize f groups) key m =
      if f.key = key then (groups.flatMap Prod.snd).count m else 0 := by
  have hall : groups.filter (fun g => Accepted maxMessageSize f.payloadLen g.2) = groups :=
    filter_eq_self.mpr fun g hg => decide_eq_true (hroom g hg).2
  have hsame : send maxMessageSize f groups =
      groups.map fun g => (g.1, { f with destinations := g.2 }) := by
    rw [send, hall]
    refine map_congr_left fun g hg => ?_
    rw [writeFastFrame, take_of_length_le (hroom g hg).1]
  rw [pending, hsame, map_map, count_flatMap]
  simp only [PubSubFrame.key]
  by_cases hkey : (f.originPeerId, f.msgId) = key <;> simp [comp_def, hkey]

lemma pending_eraseIdx {l : List (Node × PubSubFrame Node)} {x : Node × PubSubFrame Node}
    (hk : l[k]? = some x) (key : Node × ℕ) (m : Node) : pending l key m =
      (if x.2.key = key then x.2.destinations.count m else 0) + pending (l.eraseIdx k) key m := by
  obtain ⟨hlt, rfl⟩ := List.getElem?_eq_some_iff.mp hk
  exact ((getElem_cons_eraseIdx_perm hlt).map _).sum_nat.symm

/-! ### Deliveries -/

structure Balanced (group : Node → UInt64 → List Node → List (Node × List Node))
    (s : PubSubMesh Node) : Prop where
  fresh : ∀ key, s.nextMsgId key.1 ≤ key.2 → s.published key = []
  once : ∀ key, (s.published key).Nodup
  balance : ∀ key m, s.delivered (m, key) + pending s.inFlight key m =
    (s.published key).count m
  bound : ∀ x ∈ s.inFlight, Bound group x.1 x.2

/-- What is published can be reached. -/
def Routed (group : Node → UInt64 → List Node → List (Node × List Node)) :
    PubSubEvent Node → Prop
  | .publish origin topicKey _ destinations hopsLimit =>
    destinations.Nodup ∧ ∀ d ∈ destinations, Leads group topicKey hopsLimit origin d
  | .handle _ => True

/-- No frame comes to a node that has seen its message, every frame has room for its
destinations, and nothing is published to its own origin. -/
def Unhindered (group : Node → UInt64 → List Node → List (Node × List Node)) (limit : Node → ℕ)
    (s : PubSubMesh Node) : PubSubEvent Node → Prop
  | .publish origin topicKey payloadLen destinations _ =>
    origin ∉ destinations ∧ Roomy (limit origin) payloadLen (group origin topicKey destinations)
  | .handle k => ∀ x, s.inFlight[k]? = some x → x.2.key ∉ s.seenMessages x.1 ∧
    Roomy (limit x.1) x.2.payloadLen
      (group x.1 x.2.topicKey (x.2.destinations.filter (· ≠ x.1)))

lemma Balanced.publish (h : Balanced group s) (hgroup : Partitions group)
    (hrouted : Routed group (.publish origin topicKey payloadLen ds hopsLimit))
    (hfree : Unhindered group limit s (.publish origin topicKey payloadLen ds hopsLimit)) :
    Balanced group (s.publish group limit origin topicKey payloadLen ds hopsLimit) := by
  obtain ⟨hnd, hleads⟩ := hrouted
  obtain ⟨horig, hroom⟩ := hfree
  unfold PubSubMesh.publish
  split
  · exact h
  have hold : s.published (origin, s.nextMsgId origin) = [] := h.fresh _ (Nat.le_refl _)
  refine ⟨fun key hle => ?_, fun key => ?_, fun key m => ?_, fun x hx => ?_⟩
  · simp only [update_apply] at hle ⊢
    split at hle
    next hkey =>
      -- later numbers are still unused
      rw [if_neg (by rintro rfl; omega)]
      exact h.fresh key (by rw [hkey]; omega)
    next hkey =>
      rw [if_neg (by rintro rfl; exact hkey rfl)]
      exact h.fresh key hle
  · simp only [update_apply]
    split
    · exact hnd
    · exact h.once key
  · -- every destination of the new message is in one group
    have hbal := h.balance key m
    simp only [update_apply, pending_append]
    rw [pending_send (by exact hroom)]
    simp only [PubSubFrame.key, eq_comm (b := key)]
    split
    next hkey =>
      rw [hkey, hold, count_nil] at hbal
      rw [hkey, (hgroup origin topicKey ds horig).count_eq]
      omega
    · exact hbal
  · obtain hx | hx := mem_append.mp hx
    · exact h.bound x hx
    · refine bound_send hgroup ?_ (fun d hd => ?_) x hx
      · exact horig
      · exact ⟨hopsLimit, Nat.le_refl _, hleads d hd, .inl rfl⟩

lemma not_mem_remaining : n ∉ ds.filter (· ≠ n) :=
  fun hmem => by simp at hmem

lemma pending_forward (hgroup : Partitions group) (h : Bound group n f)
    (hroom : Roomy (limit n) f.payloadLen (group n f.topicKey (f.destinations.filter (· ≠ n))))
    (key : Node × ℕ) (m : Node) : pending (forward group limit n f) key m =
      if f.key = key then (f.destinations.filter (· ≠ n)).count m else 0 := by
  simp only [forward]
  split
  next hlast =>
    have hnone : f.destinations.filter (· ≠ n) = [] := by
      refine hlast.elim (fun hlast => eq_nil_iff_forall_not_mem.mpr fun d hd => ?_) id
      obtain ⟨k, hk, hlead, -⟩ := h d (mem_of_mem_filter hd)
      obtain rfl : k = 0 := by omega
      obtain rfl : n = d := hlead
      exact not_mem_remaining hd
    rw [hnone, count_nil, ite_self]
    rfl
  · rw [pending_send (by exact hroom), (hgroup n _ _ not_mem_remaining).count_eq]
    rfl

lemma bound_forward (hgroup : Partitions group) (h : Bound group n f) :
    ∀ x ∈ forward group limit n f, Bound group x.1 x.2 := by
  simp only [forward]
  split
  · exact nofun
  · refine bound_send hgroup not_mem_remaining fun d hd => ?_
    obtain ⟨k, hk, hlead, horig, -⟩ := h d (mem_of_mem_filter hd)
    exact ⟨k, Nat.le_sub_one_of_lt hk, hlead, .inr horig⟩

lemma Balanced.handle (h : Balanced group s) (hgroup : Partitions group)
    (hk : s.inFlight[k]? = some (n, f)) (hfree : Unhindered group limit s (.handle k)) :
    Balanced group
      ({ s with inFlight := s.inFlight.eraseIdx k }.handleFastPubsubFrame group limit n f) := by
  obtain ⟨hunseen, hroom⟩ := hfree _ hk
  have hbd : Bound group n f := h.bound _ (mem_of_getElem? hk)
  have hrest : ∀ x ∈ s.inFlight.eraseIdx k, Bound group x.1 x.2 :=
    fun x hx => h.bound x (mem_of_mem_eraseIdx hx)
  have hbal (key : Node × ℕ) (m : Node) :
      s.delivered (m, key) + ((if f.key = key then f.destinations.count m else 0) +
        pending (s.inFlight.eraseIdx k) key m) = (s.published key).count m :=
    pending_eraseIdx hk key m ▸ h.balance key m
  -- a frame that is dropped had no destination left
  have dropped (hdrop : f.hopsRemaining = 0 ∨ f.originPeerId = n ∨ f.sourcePeerId = n) :
      Balanced group { s with inFlight := s.inFlight.eraseIdx k } := by
    refine ⟨h.fresh, h.once, fun key m => ?_, hrest⟩
    have hsame := hbal key m
    rw [hbd.drop hdrop, count_nil, ite_self, Nat.zero_add] at hsame
    exact hsame
  unfold handleFastPubsubFrame
  split
  next hzero =>
    exact dropped (.inl hzero)
  split
  next hback =>
    exact dropped (.inr hback)
  refine ⟨h.fresh, h.once, fun key m => ?_, fun x hx => ?_⟩
  · have hsame := hbal key m
    dsimp only
    -- the destinations of the frame are delivered here or forwarded
    rw [pending_append, pending_forward hgroup hbd hroom]
    by_cases hkey : f.key = key
    · subst hkey
      rw [if_pos rfl] at hsame ⊢
      by_cases hm : m = n
      · -- the message was published to the node at most once
        subst hm
        have hone := nodup_iff_count_le_one.mp (h.once f.key) m
        rw [count_eq_zero.mpr not_mem_remaining]
        split
        next hmem =>
          have hpos := count_pos_iff.mpr hmem
          rw [update_self]
          omega
        next hmem =>
          have hzero := count_eq_zero.mpr hmem
          omega
      · have hcnt : (f.destinations.filter (· ≠ n)).count m = f.destinations.count m :=
          count_filter (decide_eq_true hm)
        have hoth : (m, f.key) ≠ (n, f.key) := fun heq => hm (Prod.mk.inj heq).1
        rw [hcnt, ite_apply, update_of_ne hoth, ite_self]
        omega
    · have hoth : (m, key) ≠ (n, f.key) := fun heq => hkey (Prod.mk.inj heq).2.symm
      rw [ite_apply, update_of_ne hoth, ite_self]
      rw [if_neg hkey] at hsame ⊢
      omega
  · obtain hx | hx := mem_append.mp hx
    · exact hrest x hx
    · exact bound_forward hgroup hbd x hx

lemma Balanced.step (h : Balanced group s) (hgroup : Partitions group) (e : PubSubEvent Node)
    (hrouted : Routed group e) (hfree : Unhindered group limit s e) :
    Balanced group (s.step group limit e) := by
  cases e with
  | publish => exact h.publish hgroup hrouted hfree
  | handle =>
    simp only [PubSubMesh.step]
    split
    next n f hk =>
      exact h.handle hgroup hk hfree
    · exact h

/-- **Every destination is reached exactly once** and no other node, if no node gets a
second frame of a message and every frame has room for its destinations. -/
theorem delivered_exactly_once (group : Node → UInt64 → List Node → List (Node × List Node))
    (limit : Node → ℕ) (hgroup : Partitions group) (es : List (PubSubEvent Node))
    (hrouted : ∀ e ∈ es, Routed group e)
    (hfree : Run.Meets (step group limit) (Unhindered group limit) start es)
    (hdone : (exec (step group limit) start es).inFlight = []) (key : Node × ℕ) (m : Node) :
    (exec (step group limit) start es).delivered (m, key) =
      if m ∈ (exec (step group limit) start es).published key then 1 else 0 := by
  have hsta : Balanced group (start : PubSubMesh Node) :=
    ⟨fun _ _ => rfl, fun _ => nodup_nil, fun _ _ => rfl, nofun⟩
  have hbalanced : Balanced group (exec (step group limit) start es) :=
    exec_invariant_of_meets (P := Balanced group)
      (fun s e hs he => hs.step hgroup e he.1 he.2) hsta
      ((meets_of_forall_mem (fun _ e he => hrouted e he) _).and hfree)
  have hcnt := hbalanced.balance key m
  rw [hdone] at hcnt
  exact hcnt.trans (hbalanced.once key).count

/-! ### A diamond -/

/-- From 0 to 4 by 1 and to 5 by 2, and on from both by 3. -/
def diamondHop : ℕ → ℕ → ℕ
  | 0, d => if d = 4 then 1 else 2
  | 1, _ => 3
  | 2, _ => 3
  | _, d => d

def diamond (n : ℕ) (_topicKey : UInt64) (ds : List ℕ) : List (ℕ × List ℕ) :=
  ds.map fun d => (diamondHop n d, [d])

lemma partitions_diamond : Partitions diamond := by
  intro n topicKey ds _
  have hsame : (diamond n topicKey ds).flatMap Prod.snd = ds := by
    rw [diamond, flatMap_map]
    exact flatMap_singleton' ds
  rw [hsame]

lemma leads_diamond {n d : ℕ} (h : Leads diamond topicKey k (diamondHop n d) d) :
    Leads diamond topicKey (k + 1) n d := by
  refine .inr fun ds g hg hd => ?_
  obtain ⟨d', -, rfl⟩ := mem_map.mp hg
  obtain rfl := mem_singleton.mp hd
  exact h

lemma routed_diamond {ds : List ℕ} (hnd : ds.Nodup) (hds : ∀ d ∈ ds, d = 4 ∨ d = 5) :
    Routed diamond (.publish 0 topicKey payloadLen ds 3) := by
  refine ⟨hnd, fun d hd => ?_⟩
  obtain rfl | rfl := hds d hd <;> exact leads_diamond (leads_diamond (leads_diamond rfl))

/-- A message of eight bytes. -/
def oneDestination : List (PubSubEvent ℕ) :=
  [.publish 0 7 8 [4] 3, .handle 0, .handle 0, .handle 0]

/-- Every connection takes messages of a mebibyte. -/
def mebibyte (_ : ℕ) : ℕ := 1048576

theorem delivered_exactly_once_oneDestination :
    (exec (step diamond mebibyte) start oneDestination).delivered (4, 0, 0) = 1 ∧
      (exec (step diamond mebibyte) start oneDestination).delivered (4, 0, 0) =
        if 4 ∈ (exec (step diamond mebibyte) start oneDestination).published (0, 0) then 1
        else 0 := by
  refine ⟨by decide +kernel, delivered_exactly_once diamond mebibyte partitions_diamond
    oneDestination (fun e he => ?_) ⟨⟨by decide, by decide +kernel⟩, ?_, ?_, ?_, trivial⟩
    (by decide +kernel) (0, 0) 4⟩
  · simp only [oneDestination, mem_cons, not_mem_nil, or_false] at he
    obtain rfl | rfl | rfl | rfl := he
    · exact routed_diamond (by decide) (by decide)
    all_goals trivial
  all_goals
    rintro _ ⟨⟩
    decide +kernel

/-- The frames for 4 and 5 meet at 3. -/
def twoDestinations : List (PubSubEvent ℕ) :=
  [.publish 0 7 8 [4, 5] 3, .handle 0, .handle 0, .handle 0, .handle 0, .handle 0]

/-- **A destination is not reached**, and no frame is under way any more. -/
theorem destination_not_reached : Partitions diamond ∧ (∀ e ∈ twoDestinations, Routed diamond e) ∧
    (exec (step diamond mebibyte) start twoDestinations).inFlight.length = 0 ∧
    (exec (step diamond mebibyte) start twoDestinations).published (0, 0) = [4, 5] ∧
    (exec (step diamond mebibyte) start twoDestinations).delivered (5, 0, 0) = 0 := by
  refine ⟨partitions_diamond, fun e he => ?_, by decide +kernel, by decide +kernel,
    by decide +kernel⟩
  obtain rfl | he := mem_cons.mp he
  · exact routed_diamond (by decide) (by decide)
  · simp only [mem_cons, not_mem_nil, or_false, or_self] at he
    subst he
    trivial

end PubSubMesh

end IcanactRemote
