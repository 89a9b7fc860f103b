/-
The hot route of a publisher.

A refresh of the control plane stores the routes of every topic and, if there is only
one, that topic's again with the connections of the moment.  A publish to it goes over
these; any other looks its connections up.

* `Publisher.step` — refreshes, publishes, and what becomes of connections meanwhile;
* `Coherent` — the hot route is the topic's route, over connections cached or closed;
* `hot_path_publishes_alike` — it attempts the same, and enqueues the same to every
  next hop whose stored connection is open.
-/
import IcanactRemote.AddrOwnership
import IcanactRemote.Run
import IcanactRemote.Table

namespace IcanactRemote

open List Run

/-- A next hop and its destinations. -/
abbrev Group := PeerId × List PeerId

abbrev RouteGroups := Table PeerId (List PeerId)

structure HotRouteEntry where
  group : Group
  conn : ℕ

structure HotRouteGroups where
  topicKey : UInt64
  entries : List HotRouteEntry

/-- The routed pubsub of a node without a route provider; connections are numbered. -/
structure Publisher where
  localPeerId : PeerId
  routeGroups : Table UInt64 RouteGroups
  conns : Table PeerId ℕ
  hotRouteGroups : Option HotRouteGroups
  /-- the connection the pool has for a peer -/
  pool : PeerId → Option ℕ
  closed : ℕ → Bool

namespace Publisher

def new (localPeerId : PeerId) : Publisher :=
  ⟨localPeerId, .empty, .empty, none, fun _ => none, fun _ => false⟩

variable (s : Publisher)

/-! ### Refresh -/

def visit (acc : Table PeerId ℕ × RouteGroups) (hop : PeerId) : Table PeerId ℕ × RouteGroups :=
  if (acc.1.get hop).any fun conn => !s.closed conn then (acc.1, acc.2.insert hop [hop])
  else
    match s.pool hop with
    | some conn => (acc.1.insert hop conn, acc.2.insert hop [hop])
    | none => (acc.1.remove hop, acc.2)

/-- One topic and the peers interested in it. -/
def visitTopic (acc : Table PeerId ℕ × Table UInt64 RouteGroups)
    (interest : UInt64 × List PeerId) : Table PeerId ℕ × Table UInt64 RouteGroups :=
  let (conns, routable) :=
    (interest.2.filter (· ≠ s.localPeerId)).foldl s.visit (acc.1, .empty)
  (conns, if routable.len = 0 then acc.2 else acc.2.insert interest.1 routable)

def refreshHotRouteGroups (routes : Table UInt64 RouteGroups) (conns : Table PeerId ℕ) :
    Option HotRouteGroups :=
  match routes.toList with
  | [(topicKey, groups)] =>
    (groups.toList.mapM fun g => (conns.get g.1).map (HotRouteEntry.mk g)).map
      (HotRouteGroups.mk topicKey)
  | _ => none

/-- `revised`: some revision has moved since the last refresh. -/
def refreshControlPlane (revised : Bool) (interests : List (UInt64 × List PeerId)) :
    Publisher :=
  if !revised && s.conns.toList.all fun x => !s.closed x.2 then s
  else
    let (conns, routes) := interests.foldl s.visitTopic (s.conns, .empty)
    let conns := conns.retain fun hop _ => routes.toList.any fun x => x.2.containsKey hop
    { s with
      hotRouteGroups := refreshHotRouteGroups routes conns
      routeGroups := routes
      conns }

/-! ### Publish -/

def lookupNextHopConn (hop : PeerId) : Publisher × Option ℕ :=
  match (s.conns.get hop).filter fun conn => !s.closed conn with
  | some conn => (s, some conn)
  | none =>
    match (s.pool hop).filter fun conn => !s.closed conn with
    | some conn => ({ s with conns := s.conns.insert hop conn }, some conn)
    | none => (s, none)

-- whether a frame for the destinations can be built and the write queue has room for it
variable (accepts : ℕ → List PeerId → Bool)

/-- Whether the frame is enqueued; a closed connection takes none. -/
def publishFrameToConn (conn : ℕ) (destinations : List PeerId) : Bool :=
  !s.closed conn && accepts conn destinations

def publishFrameToNextHop (g : Group) : Publisher × Bool :=
  let (t, conn) := s.lookupNextHopConn g.1
  (t, conn.any fun conn => s.publishFrameToConn accepts conn g.2)

/-- Every group in turn, and whether a frame was enqueued to it. -/
def publishGroups (s : Publisher) : List Group → Publisher × List (Group × Bool)
  | [] => (s, [])
  | g :: groups =>
    let (t, enqueued) := s.publishFrameToNextHop accepts g
    let (u, attempts) := publishGroups t groups
    (u, (g, enqueued) :: attempts)

/-- A publish with the scope `AutoExternal` or `ClusterWide`. -/
def publish (topicKey : UInt64) : Publisher × List (Group × Bool) :=
  match s.hotRouteGroups.filter (·.topicKey = topicKey) with
  | some hot =>
    (s, hot.entries.map fun e => (e.group, s.publishFrameToConn accepts e.conn e.group.2))
  | none => s.publishGroups accepts ((s.routeGroups.get topicKey).elim [] Table.toList)

inductive Event
  | refresh (revised : Bool) (interests : List (UInt64 × List PeerId))
  | publish (accepts : ℕ → List PeerId → Bool) (topicKey : UInt64)
  | publishSelected (accepts : ℕ → List PeerId → Bool) (peers : List PeerId)
  | close (conn : ℕ)
  | replace (peer : PeerId) (conn : Option ℕ)

def step (s : Publisher) : Event → Publisher
  | .refresh revised interests => s.refreshControlPlane revised interests
  | .publish accepts topicKey => (s.publish accepts topicKey).1
  | .publishSelected accepts peers =>
    (s.publishGroups accepts ((peers.filter (· ≠ s.localPeerId)).dedup.map fun p => (p, [p]))).1
  | .close conn => { s with closed := Function.update s.closed conn true }
  | .replace peer conn => { s with pool := Function.update s.pool peer conn }

/-! ### The hot route and the routes -/

def Coherent : Prop := ∀ hot ∈ s.hotRouteGroups,
  (s.routeGroups.get hot.topicKey).map Table.toList = some (hot.entries.map (·.group)) ∧
    ∀ e ∈ hot.entries, s.conns.get e.group.1 = some e.conn ∨ s.closed e.conn

variable {s} {accepts}

lemma of_mapM {conns : Table PeerId ℕ} {groups : List Group} {entries : List HotRouteEntry}
    (h : groups.mapM (fun g => (conns.get g.1).map (HotRouteEntry.mk g)) = some entries) :
    entries.map (·.group) = groups ∧ ∀ e ∈ entries, conns.get e.group.1 = some e.conn := by
  induction groups generalizing entries with
  | nil => simp_all
  | cons g groups ih =>
    simp only [mapM_cons, Option.bind_eq_bind, Option.bind_eq_some_iff, Option.map_eq_some_iff,
      Option.pure_def, Option.some.injEq] at h
    obtain ⟨_, ⟨conn, hconn, rfl⟩, rest, hrest, rfl⟩ := h
    simpa [hconn] using ih hrest

lemma Coherent.refresh (h : s.Coherent) (revised : Bool) (interests : List (UInt64 × List PeerId)) :
    (s.refreshControlPlane revised interests).Coherent := by
  unfold refreshControlPlane
  split
  · exact h
  intro hot hhot
  simp only [refreshHotRouteGroups, Option.mem_def] at hhot
  split at hhot
  · next topicKey groups hroutes =>
    obtain ⟨entries, hentries, rfl⟩ := Option.map_eq_some_iff.1 hhot
    obtain ⟨hmap, hconns⟩ := of_mapM hentries
    have hget := Table.mem_toList.1 (hroutes ▸ mem_singleton_self (topicKey, groups))
    exact ⟨by simp [hget, hmap], fun e he => .inl (hconns e he)⟩
  · cases hhot

-- a lookup writes only over a connection that is closed
lemma Coherent.lookup (h : s.Coherent) (hop : PeerId) : (s.lookupNextHopConn hop).1.Coherent := by
  unfold lookupNextHopConn
  split
  · exact h
  next hnone =>
  split
  · refine fun hot hhot => ⟨(h hot hhot).1, fun e he => ?_⟩
    rw [Table.get_insert]
    split_ifs with heq
    · refine .inr (((h hot hhot).2 e he).elim (fun hconn => ?_) id)
      simpa [← heq, hconn] using hnone
    · exact (h hot hhot).2 e he
  · exact h

lemma Coherent.publishGroups (h : s.Coherent) (groups : List Group) :
    (s.publishGroups accepts groups).1.Coherent := by
  induction groups generalizing s with
  | nil => exact h
  | cons g groups ih => exact ih (h.lookup g.1)

lemma Coherent.step (h : s.Coherent) (e : Event) : (s.step e).Coherent := by
  cases e with
  | refresh => exact h.refresh _ _
  | publish accepts topicKey =>
    simp only [Publisher.step, publish]
    split
    · exact h
    · exact h.publishGroups _
  | publishSelected => exact h.publishGroups _
  | close conn =>
    refine fun hot hhot => ⟨(h hot hhot).1, fun e he => ?_⟩
    refine ((h hot hhot).2 e he).imp id fun hclosed => ?_
    simp [Publisher.step, Function.update_apply, hclosed]
  | replace => exact h

/-- **The hot route publishes like the general path.**  It attempts exactly the groups of
its topic, and it enqueues to each what a lookup would if the stored connection is open. -/
theorem hot_path_publishes_alike (localPeerId : PeerId) (es : List Event)
    (accepts : ℕ → List PeerId → Bool) (hot : HotRouteGroups)
    (hhot : (exec step (new localPeerId) es).hotRouteGroups = some hot) :
    let s := exec step (new localPeerId) es
    let attempts := (s.publish accepts hot.topicKey).2
    (s.routeGroups.get hot.topicKey).map Table.toList = some (attempts.map Prod.fst) ∧
      attempts.map Prod.snd = hot.entries.map fun e =>
        !s.closed e.conn && (s.publishFrameToNextHop accepts e.group).2 := by
  intro s attempts
  obtain ⟨hroute, hconns⟩ :=
    exec_invariant (P := Coherent) (fun _ e h => h.step e) (by simp [Coherent, new]) es hot hhot
  have hpub : attempts = hot.entries.map fun e =>
      (e.group, s.publishFrameToConn accepts e.conn e.group.2) := by
    simp [attempts, publish, s, hhot, Option.filter]
  refine ⟨by simpa [hpub, Function.comp_def] using hroute, ?_⟩
  rw [hpub, map_map]
  refine map_congr_left fun e he => ?_
  cases hclosed : s.closed e.conn with
  | true => simp [publishFrameToConn, hclosed]
  | false =>
    have hconn : s.conns.get e.group.1 = _ := (hconns e he).resolve_right (by simp [s, hclosed])
    simp [publishFrameToNextHop, lookupNextHopConn, hconn, hclosed, Option.filter]

/-- A topic with one peer, first reached over connection 0. -/
def routed : List Event := [.replace ⟨1⟩ (some 0), .refresh true [(5, [⟨1⟩])]]

theorem hot_path_publishes_alike_routed :
    ((exec step (new ⟨0⟩) routed).publish (fun _ _ => true) 5).2.map Prod.snd = [true] :=
  (hot_path_publishes_alike ⟨0⟩ routed (fun _ _ => true) ⟨5, [⟨(⟨1⟩, [⟨1⟩]), 0⟩]⟩ rfl).2

/-- Connection 0 is closed and connection 1 has taken its place: the hot route enqueues
nothing where a lookup would. -/
theorem replacement_missed :
    let s := exec step (new ⟨0⟩) (routed ++ [.close 0, .replace ⟨1⟩ (some 1)])
    (s.publish (fun _ _ => true) 5).2 = [((⟨1⟩, [⟨1⟩]), false)] ∧
      (s.publishFrameToNextHop (fun _ _ => true) (⟨1⟩, [⟨1⟩])).2 = true :=
  ⟨rfl, rfl⟩

end Publisher
end IcanactRemote
