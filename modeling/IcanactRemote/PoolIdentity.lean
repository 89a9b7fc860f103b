/-
Connections and the identities they are looked up by.

The pool keeps the current connection of each peer, a mirror of it, and an index
of connections by address: the address granted to a peer and the raw source of its
connection, which may be any address.  Some lookups go through the address of a
peer, and replies are matched through the address of their connection.

* `ConnectionPool.step` — the operations on the indexes, and the frames that come;
* `Owned` — what is filed for a peer is a connection of that peer;
* `Told` — what is filed under the address of a connection is of the same peer;
* `own_connections_only`, `own_replies_only` — what holds as long as no address is
  shared by two identities.
-/
import IcanactRemote.AddrOwnership
import IcanactRemote.Roster
import IcanactRemote.Run

namespace IcanactRemote

open Function Option Run

/-- `LockFreeConnection`, with the `peer_addr` of its `ReadContext`. -/
structure LockFreeConnection where
  instanceId : ℕ
  embeddedPeerId : Option PeerId
  peerAddr : SocketAddr
  outbound : Bool
  deriving DecidableEq

/-- `PeerSession`; of its correlation tracker the ids in flight. -/
structure PeerSession where
  routeAddr : Option SocketAddr
  requiredAddr : Option SocketAddr
  requiredPeer : Bool
  currentConnection : Option LockFreeConnection
  correlation : List ℕ

def PeerSession.new : PeerSession := ⟨none, none, false, none, []⟩

def PeerSession.configuredAddr (session : PeerSession) : Option SocketAddr :=
  session.routeAddr.or session.requiredAddr

/-- A peer without a session reads like one with a new session. -/
structure ConnectionPool where
  peerSessions : PeerId → PeerSession
  connectionsByPeer : PeerId → Option LockFreeConnection
  connectionsByAddr : SocketAddr → Option LockFreeConnection
  addrToPeerId : SocketAddr → Option PeerId
  peerIdToAddr : PeerId → Option SocketAddr
  /-- `has_live_stream`, by instance -/
  live : ℕ → Bool
  /-- the connections whose frames are read -/
  readers : List LockFreeConnection
  /-- on whose connection an answer came, whose tracker it completed, and the id -/
  completed : List (PeerId × PeerId × ℕ)

namespace ConnectionPool

variable (pool : ConnectionPool)

def start : ConnectionPool :=
  { peerSessions := fun _ => .new
    connectionsByPeer := fun _ => none
    connectionsByAddr := fun _ => none
    addrToPeerId := fun _ => none
    peerIdToAddr := fun _ => none
    live := fun _ => false
    readers := []
    completed := [] }

/-! ### Routes -/

def setSession (peerId : PeerId) (session : PeerSession) : ConnectionPool :=
  { pool with peerSessions := update pool.peerSessions peerId session }

def getConfiguredPeerAddr (peerId : PeerId) : Option SocketAddr :=
  (pool.peerSessions peerId).configuredAddr.or (pool.peerIdToAddr peerId)

def setConfiguredPeerAddr (peerId : PeerId) (addr : SocketAddr) : ConnectionPool :=
  let session := pool.peerSessions peerId
  { pool.setSession peerId
      { session with requiredAddr := some addr, routeAddr := some addr, requiredPeer := true } with
    peerIdToAddr := update pool.peerIdToAddr peerId (some addr) }

def setDiscoveredPeerAddr (peerId : PeerId) (addr : SocketAddr) : ConnectionPool :=
  let session := pool.peerSessions peerId
  let peerIdToAddr := update pool.peerIdToAddr peerId (some addr)
  if session.requiredPeer then { pool with peerIdToAddr }
  else { pool.setSession peerId { session with routeAddr := some addr } with peerIdToAddr }

/-! ### The index of addresses -/

def publishAddressIndex (addr : SocketAddr) (connection : LockFreeConnection) : ConnectionPool :=
  { pool with
    connectionsByAddr := update pool.connectionsByAddr addr (some connection)
    addrToPeerId :=
      match connection.embeddedPeerId with
      | some peerId => update pool.addrToPeerId addr (some peerId)
      | none => pool.addrToPeerId }

/-- Takes the connection from every address it is indexed under, with the route of
the address: what is removed has no successor there. -/
def dropAliases (connection : LockFreeConnection) : ConnectionPool :=
  { pool with
    connectionsByAddr := fun addr =>
      if pool.connectionsByAddr addr = some connection then none else pool.connectionsByAddr addr
    addrToPeerId := fun addr =>
      if pool.connectionsByAddr addr = some connection then none else pool.addrToPeerId addr }

/-- The part of `unpublish_rejected_outbound_candidate` that removes. -/
def unpublishAddr (addr : SocketAddr) (connection : LockFreeConnection) : ConnectionPool :=
  if pool.connectionsByAddr addr = some connection then
    { pool with
      connectionsByAddr := update pool.connectionsByAddr addr none
      addrToPeerId := update pool.addrToPeerId addr none }
  else pool

def abortTasks (connection : LockFreeConnection) : ConnectionPool :=
  { pool with live := update pool.live connection.instanceId false }

/-! ### The current connection of a peer -/

def setCurrent (peerId : PeerId) (connection : Option LockFreeConnection) : ConnectionPool :=
  pool.setSession peerId { pool.peerSessions peerId with currentConnection := connection }

def setMirror (peerId : PeerId) (connection : Option LockFreeConnection) : ConnectionPool :=
  { pool with connectionsByPeer := update pool.connectionsByPeer peerId connection }

/-- `retire_displaced_expected`. -/
def retireDisplaced : Option LockFreeConnection → ConnectionPool
  | some expected => (pool.dropAliases expected).abortTasks expected
  | none => pool

def compareAndPublishPeerConnection (peerId : PeerId) (expected : Option LockFreeConnection)
    (connection : LockFreeConnection) : ConnectionPool × Except (Option LockFreeConnection) Unit :=
  let current := (pool.peerSessions peerId).currentConnection
  if current = expected then
    (((pool.setCurrent peerId (some connection)).setMirror peerId (some connection)).retireDisplaced
      expected, .ok ())
  else if current = some connection then (pool.setMirror peerId (some connection), .ok ())
  else (pool, .error current)

def compareAndClearCurrentPeerConnection (peerId : PeerId) (candidate : LockFreeConnection) :
    ConnectionPool :=
  if (pool.peerSessions peerId).currentConnection = some candidate then
    let pool' := pool.setCurrent peerId none
    if pool.connectionsByPeer peerId = some candidate then pool'.setMirror peerId none else pool'
  else pool

def disconnectConnectionInstance (peerId : PeerId) (target : LockFreeConnection) : ConnectionPool :=
  match (pool.peerSessions peerId).currentConnection with
  | some current =>
    if current = target then retire (pool.setCurrent peerId none) else pool
  | none => retire pool
where
  retire (pool : ConnectionPool) : ConnectionPool :=
    let pool :=
      if pool.connectionsByPeer peerId = some target then pool.setMirror peerId none else pool
    (pool.dropAliases target).abortTasks target

/-! ### Lookups -/

def isUsableConnection (connection : LockFreeConnection) : Bool := pool.live connection.instanceId

/-- `aliased_connection_by_peer_id`, with the routes in the order of the iteration;
`keep` is `should_keep_connection` for an outbound and an inbound one. -/
def aliasedConnectionByPeerId (peerId : PeerId) (keep : Bool → Bool) :
    List SocketAddr → Option LockFreeConnection → Option LockFreeConnection
  | [], fallback => fallback
  | addr :: order, fallback =>
    if pool.addrToPeerId addr = some peerId then
      match pool.connectionsByAddr addr with
      | none => aliasedConnectionByPeerId peerId keep order fallback
      | some connection =>
        if pool.isUsableConnection connection ∧ connection.embeddedPeerId = some peerId then
          if keep connection.outbound then some connection
          else aliasedConnectionByPeerId peerId keep order (fallback.or (some connection))
        else aliasedConnectionByPeerId peerId keep order fallback
    else aliasedConnectionByPeerId peerId keep order fallback

/-- The connection under the configured address of the peer. -/
def configuredConnection (peerId : PeerId) : Option LockFreeConnection :=
  (pool.getConfiguredPeerAddr peerId).bind pool.connectionsByAddr

def peerCurrentConnectionSnapshot (peerId : PeerId) (keep : Bool → Bool)
    (order : List SocketAddr) : Option LockFreeConnection :=
  (((pool.peerSessions peerId).currentConnection.or (pool.connectionsByPeer peerId)).or
    (pool.configuredConnection peerId)).or (pool.aliasedConnectionByPeerId peerId keep order none)

/-- `adopt_fallback_connection`, with the attempts it has left. -/
def adoptFallbackConnection (peerId : PeerId) (connection : LockFreeConnection) :
    ℕ → ConnectionPool → ConnectionPool × Option LockFreeConnection
  | 0, pool => (pool, none)
  | attempts + 1, pool =>
    match pool.compareAndPublishPeerConnection peerId none connection with
    | (pool, .ok ()) => (pool, some connection)
    | (pool, .error (some current)) =>
      if pool.isUsableConnection current then (pool, some current)
      else
        adoptFallbackConnection peerId connection attempts
          (pool.compareAndClearCurrentPeerConnection peerId current)
    | (pool, .error none) => adoptFallbackConnection peerId connection attempts pool

/-- A usable fallback is adopted. -/
def adopt (peerId : PeerId) (fallback : Option LockFreeConnection) :
    ConnectionPool × Option LockFreeConnection :=
  match fallback with
  | some connection =>
    if pool.isUsableConnection connection then adoptFallbackConnection peerId connection 3 pool
    else (pool, none)
  | none => (pool, none)

/-- The fallbacks of `get_connection_by_peer_id`. -/
def fallbackConnection (peerId : PeerId) (keep : Bool → Bool) (order : List SocketAddr) :
    ConnectionPool × Option LockFreeConnection :=
  match pool.adopt peerId (pool.configuredConnection peerId) with
  | (pool, some connection) => (pool, some connection)
  | (pool, none) => pool.adopt peerId (pool.aliasedConnectionByPeerId peerId keep order none)

def getConnectionByPeerId (peerId : PeerId) (keep : Bool → Bool) (order : List SocketAddr) :
    ConnectionPool × Option LockFreeConnection :=
  match (pool.peerSessions peerId).currentConnection with
  | some connection =>
    if pool.isUsableConnection connection then (pool, some connection)
    else
      (pool.compareAndClearCurrentPeerConnection peerId connection).fallbackConnection peerId keep
        order
  | none => pool.fallbackConnection peerId keep order

/-! ### Answers -/

/-- A completion on the session tracker of `peerId`, for a frame of `sender`. -/
def complete (sender peerId : PeerId) (id : ℕ) : Option ConnectionPool :=
  let session := pool.peerSessions peerId
  if id ∈ session.correlation then
    some { pool.setSession peerId { session with correlation := session.correlation.erase id } with
      completed := (sender, peerId, id) :: pool.completed }
  else none

/-- `get_connection_by_addr` and the tracker embedded in the connection. -/
def completeByConnection (sender : PeerId) (addr : SocketAddr) (id : ℕ) : Option ConnectionPool :=
  match pool.connectionsByAddr addr with
  | some connection =>
    if pool.isUsableConnection connection then
      connection.embeddedPeerId.bind fun peerId => pool.complete sender peerId id
    else none
  | none => none

/-- `handle_response_message`, `handle_response_nack_message`: the tracker of the
connection, that of the connection indexed under `peer_addr`, that of the peer
`peer_addr` is routed to. -/
def handleResponse (sender : PeerId) (addr : SocketAddr) (id : ℕ) : ConnectionPool :=
  (((pool.complete sender sender id).or (pool.completeByConnection sender addr id)).or
    ((pool.addrToPeerId addr).bind fun peerId => pool.complete sender peerId id)).getD pool

end ConnectionPool

/-! ### Runs -/

/-- The operations an accept, an outbound finalize, a disconnect, a lookup and a
reader are made of. -/
inductive PoolEvent
  /-- a connection comes up and its reader starts -/
  | connect (connection : LockFreeConnection)
  | die (instanceId : ℕ)
  | publishAddressIndex (addr : SocketAddr) (connection : LockFreeConnection)
  | unpublishAddr (addr : SocketAddr) (connection : LockFreeConnection)
  /-- a connection is published for the peer it is authenticated as -/
  | compareAndPublish (peerId : PeerId) (expected : Option LockFreeConnection)
    (connection : LockFreeConnection)
  | compareAndClear (peerId : PeerId) (connection : LockFreeConnection)
  | disconnect (peerId : PeerId) (connection : LockFreeConnection)
  | setConfiguredPeerAddr (peerId : PeerId) (addr : SocketAddr)
  | setDiscoveredPeerAddr (peerId : PeerId) (addr : SocketAddr)
  | lookup (peerId : PeerId) (keepOutbound keepInbound : Bool) (order : List SocketAddr)
  | ask (peerId : PeerId) (id : ℕ)
  /-- an ask is cancelled or times out -/
  | giveUp (peerId : PeerId) (id : ℕ)
  | response (connection : LockFreeConnection) (id : ℕ)

namespace ConnectionPool

def keepOf (keepOutbound keepInbound : Bool) (outbound : Bool) : Bool :=
  if outbound then keepOutbound else keepInbound

def setCorrelation (pool : ConnectionPool) (peerId : PeerId) (ids : List ℕ) : ConnectionPool :=
  pool.setSession peerId { pool.peerSessions peerId with correlation := ids }

def step (pool : ConnectionPool) : PoolEvent → ConnectionPool
  | .connect connection =>
    if ∃ reader ∈ pool.readers, reader.instanceId = connection.instanceId then pool
    else
      { pool with
        live := update pool.live connection.instanceId true
        readers := connection :: pool.readers }
  | .die instanceId => { pool with live := update pool.live instanceId false }
  | .publishAddressIndex addr connection => pool.publishAddressIndex addr connection
  | .unpublishAddr addr connection => pool.unpublishAddr addr connection
  | .compareAndPublish peerId expected connection =>
    if connection.embeddedPeerId = some peerId then
      (pool.compareAndPublishPeerConnection peerId expected connection).1
    else pool
  | .compareAndClear peerId connection =>
    pool.compareAndClearCurrentPeerConnection peerId connection
  | .disconnect peerId connection => pool.disconnectConnectionInstance peerId connection
  | .setConfiguredPeerAddr peerId addr => pool.setConfiguredPeerAddr peerId addr
  | .setDiscoveredPeerAddr peerId addr => pool.setDiscoveredPeerAddr peerId addr
  | .lookup peerId keepOutbound keepInbound order =>
    (pool.getConnectionByPeerId peerId (keepOf keepOutbound keepInbound) order).1
  | .ask peerId id =>
    pool.setCorrelation peerId (id :: (pool.peerSessions peerId).correlation)
  | .giveUp peerId id =>
    pool.setCorrelation peerId ((pool.peerSessions peerId).correlation.erase id)
  | .response connection id =>
    match connection.embeddedPeerId with
    | some sender =>
      if connection ∈ pool.readers ∧ pool.live connection.instanceId then
        pool.handleResponse sender connection.peerAddr id
      else pool
    | none => pool

/-! ### What an operation leaves of the indexes -/

variable {pool pool' pool'' : ConnectionPool}
  {peerId sender : PeerId} {connection : LockFreeConnection}

/-- Nothing is filed under a new address, and no route of a peer changes. -/
structure Shrinks (pool pool' : ConnectionPool) : Prop where
  readers : pool'.readers = pool.readers
  completed : pool'.completed = pool.completed
  live : ∀ i, pool'.live i = true → pool.live i = true
  byAddr : ∀ a c, pool'.connectionsByAddr a = some c → pool.connectionsByAddr a = some c
  routes : ∀ a p, pool'.addrToPeerId a = some p → pool.addrToPeerId a = some p
  configured : ∀ p, pool'.getConfiguredPeerAddr p = pool.getConfiguredPeerAddr p

lemma Shrinks.refl : Shrinks pool pool :=
  ⟨rfl, rfl, fun _ h => h, fun _ _ h => h, fun _ _ h => h, fun _ => rfl⟩

lemma Shrinks.trans (h : Shrinks pool pool') (h' : Shrinks pool' pool'') : Shrinks pool pool'' :=
  ⟨h'.readers.trans h.readers, h'.completed.trans h.completed, fun i hi => h.live i (h'.live i hi),
    fun a c hc => h.byAddr a c (h'.byAddr a c hc), fun a p hp => h.routes a p (h'.routes a p hp),
    fun p => (h'.configured p).trans (h.configured p)⟩

variable {session : PeerSession}

lemma getConfiguredPeerAddr_setSession
    (h : session.configuredAddr = (pool.peerSessions peerId).configuredAddr) (p : PeerId) :
    (pool.setSession peerId session).getConfiguredPeerAddr p = pool.getConfiguredPeerAddr p := by
  simp only [getConfiguredPeerAddr, setSession]
  by_cases hp : p = peerId
  · subst hp
    rw [update_self, h]
  · rw [update_of_ne hp]

lemma shrinks_setCurrent (current : Option LockFreeConnection) :
    Shrinks pool (pool.setCurrent peerId current) :=
  ⟨rfl, rfl, fun _ h => h, fun _ _ h => h, fun _ _ h => h, getConfiguredPeerAddr_setSession rfl⟩

lemma shrinks_setMirror (current : Option LockFreeConnection) :
    Shrinks pool (pool.setMirror peerId current) :=
  ⟨rfl, rfl, fun _ h => h, fun _ _ h => h, fun _ _ h => h, fun _ => rfl⟩

lemma shrinks_dropAliases : Shrinks pool (pool.dropAliases connection) := by
  refine ⟨rfl, rfl, fun _ h => h, fun a c h => ?_, fun a p h => ?_, fun _ => rfl⟩
  · simp only [dropAliases] at h
    split at h
    · cases h
    · exact h
  · simp only [dropAliases] at h
    split at h
    · cases h
    · exact h

lemma shrinks_kill (i : ℕ) : Shrinks pool { pool with live := update pool.live i false } := by
  refine ⟨rfl, rfl, fun j h => ?_, fun _ _ h => h, fun _ _ h => h, fun _ => rfl⟩
  by_cases hj : j = i
  · subst hj
    simp only [update_self] at h
    cases h
  · simp only [update_of_ne hj] at h
    exact h

lemma shrinks_retire : Shrinks pool ((pool.dropAliases connection).abortTasks connection) :=
  shrinks_dropAliases.trans (shrinks_kill _)

variable {addr : SocketAddr}

lemma shrinks_unpublishAddr : Shrinks pool (pool.unpublishAddr addr connection) := by
  unfold unpublishAddr
  split
  · refine ⟨rfl, rfl, fun _ h => h, fun a c h => ?_, fun a p h => ?_, fun _ => rfl⟩
    · obtain ⟨-, hnone⟩ | ⟨-, hold⟩ := Roster.of_update h
      · cases hnone
      · exact hold
    · obtain ⟨-, hnone⟩ | ⟨-, hold⟩ := Roster.of_update h
      · cases hnone
      · exact hold
  · exact .refl

/-! ### What is filed for a peer -/

/-- The current connection of a peer, and its mirror, are connections of the peer. -/
structure Filed (pool : ConnectionPool) : Prop where
  current : ∀ p c, (pool.peerSessions p).currentConnection = some c → c.embeddedPeerId = some p
  mirror : ∀ p c, pool.connectionsByPeer p = some c → c.embeddedPeerId = some p

lemma Filed.setSession (h : Filed pool)
    (hc : ∀ c, session.currentConnection = some c → c.embeddedPeerId = some peerId) :
    Filed (pool.setSession peerId session) := by
  refine ⟨fun p c hp => ?_, h.mirror⟩
  simp only [ConnectionPool.setSession] at hp
  by_cases hpp : p = peerId
  · subst hpp
    rw [update_self] at hp
    exact hc c hp
  · rw [update_of_ne hpp] at hp
    exact h.current p c hp

variable {current fallback : Option LockFreeConnection}

lemma Filed.setMirror (h : Filed pool)
    (hc : ∀ c, current = some c → c.embeddedPeerId = some peerId) :
    Filed (pool.setMirror peerId current) := by
  refine ⟨h.current, fun p c hp => ?_⟩
  obtain ⟨rfl, hnew⟩ | ⟨-, hold⟩ := Roster.of_update hp
  · exact hc c hnew
  · exact h.mirror p c hold

lemma Filed.retire (h : Filed pool) :
    Filed ((pool.dropAliases connection).abortTasks connection) := ⟨h.current, h.mirror⟩

/-- An operation that files nothing foreign and indexes nothing new. -/
def Keeps (pool pool' : ConnectionPool) : Prop := Shrinks pool pool' ∧ (Filed pool → Filed pool')

lemma Keeps.refl : Keeps pool pool := ⟨.refl, id⟩

lemma Keeps.trans (h : Keeps pool pool') (h' : Keeps pool' pool'') : Keeps pool pool'' :=
  ⟨h.1.trans h'.1, fun hf => h'.2 (h.2 hf)⟩

lemma keeps_setCurrent_none : Keeps pool (pool.setCurrent peerId none) :=
  ⟨shrinks_setCurrent none, fun hf => hf.setSession nofun⟩

lemma keeps_setMirror_none : Keeps pool (pool.setMirror peerId none) :=
  ⟨shrinks_setMirror none, fun hf => hf.setMirror nofun⟩

lemma keeps_retireDisplaced (expected : Option LockFreeConnection) :
    Keeps pool (pool.retireDisplaced expected) := by
  cases expected with
  | none => exact .refl
  | some => exact ⟨shrinks_retire, Filed.retire⟩

lemma compareAndPublish_cases (pool : ConnectionPool) (peerId : PeerId)
    (expected : Option LockFreeConnection) (connection : LockFreeConnection) :
    (∃ pool', pool.compareAndPublishPeerConnection peerId expected connection = (pool', .ok ()) ∧
      Shrinks pool pool' ∧ (connection.embeddedPeerId = some peerId → Filed pool → Filed pool')) ∨
      pool.compareAndPublishPeerConnection peerId expected connection =
        (pool, .error (pool.peerSessions peerId).currentConnection) := by
  have hsome (hc : connection.embeddedPeerId = some peerId) :
      ∀ c, some connection = some c → c.embeddedPeerId = some peerId := by
    rintro c ⟨⟩
    exact hc
  simp only [compareAndPublishPeerConnection]
  split
  · have hset : Shrinks pool ((pool.setCurrent peerId (some connection)).setMirror peerId
        (some connection)) :=
      (shrinks_setCurrent (some connection)).trans (shrinks_setMirror (some connection))
    have hretire : Keeps ((pool.setCurrent peerId (some connection)).setMirror peerId
        (some connection)) _ := keeps_retireDisplaced expected
    refine .inl ⟨_, rfl, hset.trans hretire.1, fun hc hf => hretire.2 ?_⟩
    exact (hf.setSession (hsome hc)).setMirror (hsome hc)
  · split
    · exact .inl ⟨_, rfl, shrinks_setMirror _, fun hc hf => hf.setMirror (hsome hc)⟩
    · exact .inr rfl

lemma keeps_compareAndClear :
    Keeps pool (pool.compareAndClearCurrentPeerConnection peerId connection) := by
  simp only [compareAndClearCurrentPeerConnection]
  split
  · split
    · exact keeps_setCurrent_none.trans keeps_setMirror_none
    · exact keeps_setCurrent_none
  · exact .refl

lemma keeps_disconnect : Keeps pool (pool.disconnectConnectionInstance peerId connection) := by
  have hretire (pool : ConnectionPool) :
      Keeps pool (disconnectConnectionInstance.retire peerId connection pool) := by
    simp only [disconnectConnectionInstance.retire]
    split
    · exact keeps_setMirror_none.trans ⟨shrinks_retire, Filed.retire⟩
    · exact ⟨shrinks_retire, Filed.retire⟩
  simp only [disconnectConnectionInstance]
  split
  · split
    · exact keeps_setCurrent_none.trans (hretire _)
    · exact .refl
  · exact hretire _

/-! ### Lookups -/

variable {order : List SocketAddr}

lemma embedded_of_aliased {keep : Bool → Bool}
    (h : pool.aliasedConnectionByPeerId peerId keep order fallback = some connection)
    (hf : ∀ c, fallback = some c → c.embeddedPeerId = some peerId) :
    connection.embeddedPeerId = some peerId := by
  induction order generalizing fallback with
  | nil => exact hf connection h
  | cons _ _ ih =>
    simp only [aliasedConnectionByPeerId] at h
    split at h
    · split at h
      · exact ih h hf
      · split at h
        next c _ hmatch =>
          split at h
          · obtain rfl := some.inj h
            exact hmatch.2
          · refine ih h fun d hd => ?_
            cases fallback with
            | some => exact hf d hd
            | none =>
              obtain rfl : c = d := some.inj hd
              exact hmatch.2
        · exact ih h hf
    · exact ih h hf

/-- A lookup indexes nothing; given what it rests on, it leaves the pool in order and
returns a connection of the peer. -/
def Finds (H : Prop) (peerId : PeerId) (pool : ConnectionPool)
    (r : ConnectionPool × Option LockFreeConnection) : Prop :=
  Shrinks pool r.1 ∧
    (H → Filed pool → Filed r.1 ∧ ∀ c, r.2 = some c → c.embeddedPeerId = some peerId)

variable {H H' : Prop}

lemma finds_none : Finds H peerId pool (pool, none) := ⟨.refl, fun _ hf => ⟨hf, nofun⟩⟩

lemma finds_current (hcurr : (pool.peerSessions peerId).currentConnection = some connection) :
    Finds H peerId pool (pool, some connection) := by
  refine ⟨.refl, fun _ hf => ⟨hf, fun c h => ?_⟩⟩
  obtain rfl := some.inj h
  exact hf.current peerId _ hcurr

lemma Finds.then {r : ConnectionPool × Option LockFreeConnection} (h : Shrinks pool pool')
    (hfiled : H → Filed pool → Filed pool') (hH : H → H') (hr : Finds H' peerId pool' r) :
    Finds H peerId pool r :=
  ⟨h.trans hr.1, fun hyp hf => hr.2 (hH hyp) (hfiled hyp hf)⟩

lemma finds_adoptFallback (peerId : PeerId) (connection : LockFreeConnection) (attempts : ℕ)
    (pool : ConnectionPool) : Finds (connection.embeddedPeerId = some peerId) peerId pool
      (adoptFallbackConnection peerId connection attempts pool) := by
  induction attempts generalizing pool with
  | zero => exact finds_none
  | succ _ ih =>
    simp only [adoptFallbackConnection]
    obtain ⟨pool', heq, hshr, hfiled⟩ | heq :=
      pool.compareAndPublish_cases peerId none connection
    · rw [heq]
      refine ⟨hshr, fun hc hf => ⟨hfiled hc hf, fun c h => ?_⟩⟩
      obtain rfl := some.inj h
      exact hc
    · rw [heq]
      cases hcurr : (pool.peerSessions peerId).currentConnection with
      | none => exact ih pool
      | some current =>
        simp only
        split
        · exact finds_current hcurr
        · obtain ⟨hshr, hfiled⟩ : Keeps pool
              (pool.compareAndClearCurrentPeerConnection peerId current) := keeps_compareAndClear
          exact .then hshr (fun _ => hfiled) id (ih _)

lemma finds_adopt : Finds (∀ c, fallback = some c → c.embeddedPeerId = some peerId) peerId pool
    (pool.adopt peerId fallback) := by
  cases fallback with
  | none => exact finds_none
  | some c =>
    simp only [adopt]
    split
    · exact .then .refl (fun _ => id) (fun hc => hc c rfl) (finds_adoptFallback peerId c 3 pool)
    · exact finds_none

/-- A connection under the address of a peer is of this peer. -/
def Routed (pool : ConnectionPool) : Prop :=
  ∀ p a c, pool.getConfiguredPeerAddr p = some a → pool.connectionsByAddr a = some c →
    c.embeddedPeerId = some p

lemma Routed.shrink (h : Routed pool) (hs : Shrinks pool pool') : Routed pool' :=
  fun p a c hp hc => h p a c ((hs.configured p).symm.trans hp) (hs.byAddr a c hc)

lemma Routed.configured (h : Routed pool)
    (hc : pool.configuredConnection peerId = some connection) :
    connection.embeddedPeerId = some peerId := by
  obtain ⟨a, ha, hconn⟩ := bind_eq_some_iff.mp hc
  exact h peerId a connection ha hconn

lemma finds_fallback {keep : Bool → Bool} :
    Finds (Routed pool) peerId pool (pool.fallbackConnection peerId keep order) := by
  have hadopt : Finds (Routed pool) peerId pool
      (pool.adopt peerId (pool.configuredConnection peerId)) :=
    .then .refl (fun _ => id) (fun h c hc => h.configured hc) finds_adopt
  simp only [fallbackConnection]
  cases hr : pool.adopt peerId (pool.configuredConnection peerId) with
  | mk pool' found =>
    rw [hr] at hadopt
    cases found with
    | some => exact hadopt
    | none =>
      have halias (c : LockFreeConnection) (hc : pool'.aliasedConnectionByPeerId peerId keep order
          none = some c) : c.embeddedPeerId = some peerId := embedded_of_aliased hc nofun
      exact .then hadopt.1 (fun h hf => (hadopt.2 h hf).1) (fun _ => halias) finds_adopt

lemma finds_getConnectionByPeerId {keep : Bool → Bool} :
    Finds (Routed pool) peerId pool (pool.getConnectionByPeerId peerId keep order) := by
  simp only [getConnectionByPeerId]
  cases hcurr : (pool.peerSessions peerId).currentConnection with
  | none => exact finds_fallback
  | some current =>
    simp only
    split
    · exact finds_current hcurr
    · obtain ⟨hshr, hfiled⟩ : Keeps pool
          (pool.compareAndClearCurrentPeerConnection peerId current) := keeps_compareAndClear
      exact .then hshr (fun _ => hfiled) (fun h => h.shrink hshr)
        finds_fallback

lemma embedded_of_snapshot (hf : Filed pool) (h : Routed pool) {keep : Bool → Bool}
    (hc : pool.peerCurrentConnectionSnapshot peerId keep order = some connection) :
    connection.embeddedPeerId = some peerId := by
  unfold peerCurrentConnectionSnapshot at hc
  rw [or_eq_some_iff, or_eq_some_iff, or_eq_some_iff] at hc
  obtain ((hc | ⟨-, hc⟩) | ⟨-, hc⟩) | ⟨-, hc⟩ := hc
  · exact hf.current _ _ hc
  · exact hf.mirror _ _ hc
  · exact h.configured hc
  · exact embedded_of_aliased hc nofun

/-! ### Addresses that two identities do not share -/

/-- No connection is indexed under the configured address of another peer, and no
peer gets an address under which another one's connection is indexed. -/
def Unshared (pool : ConnectionPool) : PoolEvent → Prop
  | .publishAddressIndex addr connection =>
    ∀ p, pool.getConfiguredPeerAddr p = some addr → connection.embeddedPeerId = some p
  | .setConfiguredPeerAddr p addr =>
    ∀ c, pool.connectionsByAddr addr = some c → c.embeddedPeerId = some p
  | .setDiscoveredPeerAddr p addr =>
    ((pool.peerSessions p).requiredPeer = true ∧ (pool.peerSessions p).configuredAddr ≠ none) ∨
      ∀ c, pool.connectionsByAddr addr = some c → c.embeddedPeerId = some p
  | _ => True

structure Owned (pool : ConnectionPool) : Prop where
  filed : Filed pool
  routed : Routed pool

lemma Owned.start : Owned start := ⟨⟨nofun, nofun⟩, nofun⟩

lemma Owned.keep (h : Owned pool) (hk : Keeps pool pool') : Owned pool' :=
  ⟨hk.2 h.filed, h.routed.shrink hk.1⟩

lemma Owned.reroute (h : Owned pool) (session : PeerSession)
    (hcurr : session.currentConnection = (pool.peerSessions peerId).currentConnection)
    (hrt : session.configuredAddr.or (some addr) = some addr)
    (hfree : ∀ c, pool.connectionsByAddr addr = some c → c.embeddedPeerId = some peerId) :
    Owned { pool.setSession peerId session with
      peerIdToAddr := update pool.peerIdToAddr peerId (some addr) } := by
  have hfiled : Filed (pool.setSession peerId session) :=
    h.filed.setSession fun c hc => h.filed.current peerId c (hcurr ▸ hc)
  refine ⟨⟨hfiled.current, hfiled.mirror⟩, fun p a c hp hc => ?_⟩
  by_cases hpeer : p = peerId
  · subst hpeer
    simp only [getConfiguredPeerAddr, setSession, update_self, hrt] at hp
    obtain rfl := some.inj hp
    exact hfree c hc
  · simp only [getConfiguredPeerAddr, setSession, update_of_ne hpeer] at hp
    exact h.routed p a c hp hc

lemma Owned.setDiscovered (h : Owned pool)
    (hu : Unshared pool (.setDiscoveredPeerAddr peerId addr)) :
    Owned (pool.setDiscoveredPeerAddr peerId addr) := by
  simp only [setDiscoveredPeerAddr]
  by_cases hreq : (pool.peerSessions peerId).requiredPeer = true
  · simp only [hreq, if_true]
    cases hrt : (pool.peerSessions peerId).configuredAddr with
    | none =>
      have hfree := hu.resolve_left fun hboth => hboth.2 hrt
      have hset : pool.setSession peerId (pool.peerSessions peerId) = pool := by
        simp [setSession]
      have hnew := h.reroute (pool.peerSessions peerId) rfl (by rw [hrt]; rfl) hfree
      rw [hset] at hnew
      exact hnew
    | some a =>
      -- the route of a required peer is its own
      refine ⟨⟨h.filed.current, h.filed.mirror⟩, fun p b c hp hc => h.routed p b c ?_ hc⟩
      rw [← hp]
      simp only [getConfiguredPeerAddr]
      by_cases hpeer : p = peerId
      · rw [hpeer, hrt]
        rfl
      · rw [update_of_ne hpeer]
  · simp only [hreq, Bool.false_eq_true, if_false]
    have hfree := hu.resolve_left fun hboth => hreq hboth.1
    exact h.reroute { pool.peerSessions peerId with routeAddr := some addr, requiredPeer := false }
      rfl rfl hfree

lemma keeps_setCorrelation (ids : List ℕ) : Keeps pool (pool.setCorrelation peerId ids) :=
  ⟨⟨rfl, rfl, fun _ h => h, fun _ _ h => h, fun _ _ h => h, getConfiguredPeerAddr_setSession rfl⟩,
    fun hf => hf.setSession (hf.current peerId)⟩

lemma Owned.complete (h : Owned pool) {id : ℕ}
    (hc : pool.complete sender peerId id = some pool') : Owned pool' := by
  simp only [ConnectionPool.complete] at hc
  split at hc
  · obtain rfl := some.inj hc
    have hset : Owned
        (pool.setCorrelation peerId ((pool.peerSessions peerId).correlation.erase id)) :=
      h.keep (keeps_setCorrelation _)
    exact ⟨⟨hset.filed.current, hset.filed.mirror⟩, hset.routed⟩
  · cases hc

lemma handleResponse_cases (pool : ConnectionPool) (sender : PeerId) (addr : SocketAddr)
    (id : ℕ) : pool.handleResponse sender addr id = pool ∨
      ∃ p, pool.complete sender p id = some (pool.handleResponse sender addr id) ∧
        (p = sender ∨ (∃ c, pool.connectionsByAddr addr = some c ∧ c.embeddedPeerId = some p) ∨
          pool.addrToPeerId addr = some p) := by
  unfold handleResponse
  cases hdone : ((pool.complete sender sender id).or (pool.completeByConnection sender addr id)).or
      ((pool.addrToPeerId addr).bind fun peerId => pool.complete sender peerId id) with
  | none => exact .inl rfl
  | some =>
    refine .inr ?_
    rw [or_eq_some_iff, or_eq_some_iff] at hdone
    obtain (hown | ⟨-, hconn⟩) | ⟨-, hrt⟩ := hdone
    · exact ⟨sender, hown, .inl rfl⟩
    · simp only [completeByConnection] at hconn
      split at hconn
      next c hindexed =>
        split at hconn
        · obtain ⟨p, hp, hdone⟩ := bind_eq_some_iff.mp hconn
          exact ⟨p, hdone, .inr (.inl ⟨c, hindexed, hp⟩)⟩
        · cases hconn
      · cases hconn
    · obtain ⟨p, hp, hdone⟩ := bind_eq_some_iff.mp hrt
      exact ⟨p, hdone, .inr (.inr hp)⟩

/-- **An operation on unshared addresses keeps connections with their peers.** -/
theorem Owned.step (h : Owned pool) (e : PoolEvent) (hu : Unshared pool e) :
    Owned (pool.step e) := by
  cases e with
  | connect =>
    simp only [ConnectionPool.step]
    split
    · exact h
    · exact ⟨⟨h.filed.current, h.filed.mirror⟩, h.routed⟩
  | die i => exact h.keep ⟨shrinks_kill i, fun hf => ⟨hf.current, hf.mirror⟩⟩
  | publishAddressIndex =>
    refine ⟨⟨h.filed.current, h.filed.mirror⟩, fun p a d hp hd => ?_⟩
    -- the address that is indexed is not that of another peer
    obtain ⟨rfl, hnew⟩ | ⟨-, hold⟩ := Roster.of_update hd
    · obtain rfl := some.inj hnew
      exact hu p hp
    · exact h.routed p a d hp hold
  | unpublishAddr =>
    refine h.keep ⟨shrinks_unpublishAddr, fun hf => ?_⟩
    simp only [ConnectionPool.step, ConnectionPool.unpublishAddr]
    split
    · exact ⟨hf.current, hf.mirror⟩
    · exact hf
  | compareAndPublish p expected c =>
    simp only [ConnectionPool.step]
    split
    next hc =>
      obtain ⟨pool', heq, hshr, hfiled⟩ | heq := pool.compareAndPublish_cases p expected c
      · rw [heq]
        exact h.keep ⟨hshr, hfiled hc⟩
      · rw [heq]
        exact h
    · exact h
  | compareAndClear => exact h.keep keeps_compareAndClear
  | disconnect => exact h.keep keeps_disconnect
  | setConfiguredPeerAddr => exact h.reroute _ rfl rfl hu
  | setDiscoveredPeerAddr => exact h.setDiscovered hu
  | lookup p keepOutbound keepInbound order =>
    obtain ⟨hshr, hfound⟩ : Finds (Routed pool) p pool _ :=
      finds_getConnectionByPeerId
    exact h.keep ⟨hshr, fun hf => (hfound h.routed hf).1⟩
  | ask | giveUp => exact h.keep (keeps_setCorrelation _)
  | response c id =>
    simp only [ConnectionPool.step]
    split
    · split
      next sender _ _ =>
        obtain heq | ⟨p, hdone, -⟩ := pool.handleResponse_cases sender c.peerAddr id
        · rw [heq]
          exact h
        · exact h.complete hdone
      · exact h
    · exact h

/-- **Traffic for a peer stays on connections of the peer** in every run in which
no address is shared by two identities. -/
theorem own_connections_only (es : List PoolEvent)
    (hmeets : Run.Meets ConnectionPool.step Unshared ConnectionPool.start es) :
    let s := exec ConnectionPool.step ConnectionPool.start es
    ∀ p c, ((s.peerSessions p).currentConnection = some c ∨
        (∃ keep order, (s.getConnectionByPeerId p keep order).2 = some c) ∨
        ∃ keep order, s.peerCurrentConnectionSnapshot p keep order = some c) →
      c.embeddedPeerId = some p := by
  intro s p c h
  have hs : Owned s := exec_invariant_of_meets (P := Owned)
    (fun pool e hpool he => hpool.step e he) Owned.start hmeets
  obtain hcurr | ⟨keep, order, hfound⟩ | ⟨keep, order, hfound⟩ := h
  · exact hs.filed.current p c hcurr
  · exact (finds_getConnectionByPeerId.2 hs.routed hs.filed).2 c hfound
  · exact embedded_of_snapshot hs.filed hs.routed hfound

/-! ### Replies -/

/-- The address a live connection is read from leads to no other peer, and no
answer completed the ask of another peer than the one it came from. -/
structure Told (pool : ConnectionPool) : Prop where
  indexed : ∀ c ∈ pool.readers, pool.live c.instanceId = true →
    ∀ d, pool.connectionsByAddr c.peerAddr = some d → d.embeddedPeerId = c.embeddedPeerId
  routed : ∀ c ∈ pool.readers, pool.live c.instanceId = true →
    ∀ p, pool.addrToPeerId c.peerAddr = some p → c.embeddedPeerId = some p
  answered : ∀ x ∈ pool.completed, x.1 = x.2.1

lemma Told.start : Told start := ⟨nofun, nofun, nofun⟩

lemma Told.shrink (h : Told pool) (hs : Shrinks pool pool') : Told pool' := by
  refine ⟨fun c hc hlive d hd => ?_, fun c hc hlive p hp => ?_, fun x hx => ?_⟩
  · rw [hs.readers] at hc
    exact h.indexed c hc (hs.live _ hlive) d (hs.byAddr _ _ hd)
  · rw [hs.readers] at hc
    exact h.routed c hc (hs.live _ hlive) p (hs.routes _ _ hp)
  · rw [hs.completed] at hx
    exact h.answered x hx

lemma Told.leave (h : Told pool) (hreaders : pool'.readers = pool.readers)
    (hlive : pool'.live = pool.live) (haddr : pool'.connectionsByAddr = pool.connectionsByAddr)
    (hroutes : pool'.addrToPeerId = pool.addrToPeerId)
    (hdone : ∀ x ∈ pool'.completed, x ∈ pool.completed ∨ x.1 = x.2.1) : Told pool' := by
  refine ⟨?_, ?_, fun x hx => ?_⟩
  · rw [hreaders, hlive, haddr]
    exact h.indexed
  · rw [hreaders, hlive, hroutes]
    exact h.routed
  · obtain hold | hsame := hdone x hx
    · exact h.answered x hold
    · exact hsame

/-- No connection comes from an address that leads to another peer, and none is
indexed under the address a live connection of another peer is read from. -/
def Distinct (pool : ConnectionPool) : PoolEvent → Prop
  | .connect connection =>
    (∀ d, pool.connectionsByAddr connection.peerAddr = some d →
      d.embeddedPeerId = connection.embeddedPeerId) ∧
    ∀ p, pool.addrToPeerId connection.peerAddr = some p → connection.embeddedPeerId = some p
  | .publishAddressIndex addr connection =>
    ∀ c ∈ pool.readers, pool.live c.instanceId = true → c.peerAddr = addr →
      connection.embeddedPeerId = c.embeddedPeerId
  | _ => True

section

variable (h : Told pool)
include h

lemma Told.connect (hd : Distinct pool (.connect connection)) :
    Told (pool.step (.connect connection)) := by
  simp only [step]
  split
  · exact h
  rename_i hnew
  -- the instance is new, so the older readers are as live as before
  have hold (c : LockFreeConnection) (hc : c ∈ pool.readers)
      (hlive : update pool.live connection.instanceId true c.instanceId = true) :
      pool.live c.instanceId = true := by
    have hne : c.instanceId ≠ connection.instanceId := fun heq => hnew ⟨c, hc, heq⟩
    rw [update_of_ne hne] at hlive
    exact hlive
  refine ⟨fun c hc hlive => ?_, fun c hc hlive => ?_, h.answered⟩
  · obtain rfl | hc := List.mem_cons.mp hc
    · exact hd.1
    · exact h.indexed c hc (hold c hc hlive)
  · obtain rfl | hc := List.mem_cons.mp hc
    · exact hd.2
    · exact h.routed c hc (hold c hc hlive)

lemma Told.publishAddressIndex (hd : Distinct pool (.publishAddressIndex addr connection)) :
    Told (pool.publishAddressIndex addr connection) := by
  refine ⟨fun c hc hlive d hindexed => ?_, fun c hc hlive p hrt => ?_, h.answered⟩
  · obtain ⟨ha, hnew⟩ | ⟨-, hold⟩ := Roster.of_update hindexed
    · obtain rfl := some.inj hnew
      exact hd c hc hlive ha
    · exact h.indexed c hc hlive d hold
  · simp only [ConnectionPool.publishAddressIndex] at hrt
    cases hid : connection.embeddedPeerId with
    | none =>
      rw [hid] at hrt
      exact h.routed c hc hlive p hrt
    | some =>
      rw [hid] at hrt
      obtain ⟨ha, hnew⟩ | ⟨-, hold⟩ := Roster.of_update hrt
      · rw [← hd c hc hlive ha, hid]
        exact hnew
      · exact h.routed c hc hlive p hold

lemma Told.complete {id : ℕ} (hc : pool.complete sender peerId id = some pool')
    (hsame : sender = peerId) : Told pool' := by
  simp only [ConnectionPool.complete] at hc
  split at hc
  · obtain rfl := some.inj hc
    refine h.leave rfl rfl rfl rfl fun x hx => ?_
    obtain rfl | hx := List.mem_cons.mp hx
    · exact .inr hsame
    · exact .inl hx
  · cases hc

lemma Told.response (id : ℕ) (hsnd : connection.embeddedPeerId = some sender)
    (hrdr : connection ∈ pool.readers) (hlive : pool.live connection.instanceId = true) :
    Told (pool.handleResponse sender connection.peerAddr id) := by
  obtain heq | ⟨p, hdone, hp⟩ := pool.handleResponse_cases sender connection.peerAddr id
  · rw [heq]
    exact h
  refine h.complete hdone ?_
  obtain rfl | ⟨d, hd, hpeer⟩ | hrt := hp
  · rfl
  · have hsame := h.indexed connection hrdr hlive d hd
    rw [hpeer, hsnd] at hsame
    exact (some.inj hsame).symm
  · have hsame := h.routed connection hrdr hlive p hrt
    rw [hsnd] at hsame
    exact some.inj hsame

/-- **An operation on distinct addresses leaves replies with the peer that was asked.** -/
theorem Told.step (e : PoolEvent) (hd : Distinct pool e) : Told (pool.step e) := by
  cases e with
  | connect => exact h.connect hd
  | die i => exact h.shrink (shrinks_kill i)
  | publishAddressIndex => exact h.publishAddressIndex hd
  | unpublishAddr => exact h.shrink shrinks_unpublishAddr
  | compareAndPublish p expected c =>
    simp only [ConnectionPool.step]
    split
    · obtain ⟨pool', heq, hshr, -⟩ | heq := pool.compareAndPublish_cases p expected c
      · rw [heq]
        exact h.shrink hshr
      · rw [heq]
        exact h
    · exact h
  | compareAndClear => exact h.shrink keeps_compareAndClear.1
  | disconnect => exact h.shrink keeps_disconnect.1
  | setConfiguredPeerAddr => exact h.leave rfl rfl rfl rfl fun x hx => .inl hx
  | setDiscoveredPeerAddr =>
    simp only [ConnectionPool.step, setDiscoveredPeerAddr]
    split <;> exact h.leave rfl rfl rfl rfl fun x hx => .inl hx
  | lookup _ _ _ order =>
    exact h.shrink finds_getConnectionByPeerId.1
  | ask | giveUp => exact h.shrink (keeps_setCorrelation _).1
  | response c id =>
    simp only [ConnectionPool.step]
    split
    next hsnd =>
      split
      next hread =>
        -- somebody still reads the connection, and it is live
        exact h.response id hsnd hread.1 hread.2
      · exact h
    · exact h

end

/-- **A reply completes an ask of the peer it comes from** in every run in which
no address a connection is read from leads to another identity. -/
theorem own_replies_only (es : List PoolEvent)
    (hmeets : Run.Meets ConnectionPool.step Distinct ConnectionPool.start es) :
    ∀ x ∈ (exec ConnectionPool.step ConnectionPool.start es).completed, x.1 = x.2.1 :=
  (exec_invariant_of_meets (P := Told)
    (fun _ e hpool he => hpool.step e he) Told.start hmeets).answered

/-! ### Two peers at one address -/

def firstPeer : PeerId := ⟨1⟩
def secondPeer : PeerId := ⟨2⟩
def firstSource : SocketAddr := .v4 0x0A000001 40000
def firstGranted : SocketAddr := .v4 0x0A000001 9000
def secondSource : SocketAddr := .v4 0x0A000002 40000
def secondGranted : SocketAddr := .v4 0x0A000002 9000

/-- The accepted connections of the two peers. -/
def firstConnection : LockFreeConnection := ⟨0, some firstPeer, firstSource, false⟩
def secondConnection : LockFreeConnection := ⟨1, some secondPeer, secondSource, false⟩

/-- `publish_inbound_or_reresolve` and `finish_indexing_accepted_connection`. -/
def acceptInbound (peerId : PeerId) (connection : LockFreeConnection) (granted : SocketAddr) :
    List PoolEvent :=
  [.connect connection, .compareAndPublish peerId none connection,
    .setDiscoveredPeerAddr peerId granted, .publishAddressIndex granted connection,
    .publishAddressIndex connection.peerAddr connection]

def secondAccepted : List PoolEvent := acceptInbound secondPeer secondConnection secondGranted

/-- The second peer is accepted, its slot is cleared and it is configured; the lookup finds
the connection under the configured address again. -/
def secondFoundAgain : List PoolEvent :=
  secondAccepted ++ [.compareAndClear secondPeer secondConnection,
    .setConfiguredPeerAddr secondPeer secondGranted, .lookup secondPeer true true []]

lemma configured_secondAccepted {p : PeerId} {a : SocketAddr}
    (h : (exec step start (secondAccepted.take 3)).getConfiguredPeerAddr p = some a) :
    p = secondPeer := by
  by_contra hp
  have hsession : (exec step start (secondAccepted.take 3)).peerSessions p = .new :=
    (update_of_ne hp _ _).trans (update_of_ne hp _ _)
  have haddr : (exec step start (secondAccepted.take 3)).peerIdToAddr p = none :=
    update_of_ne hp _ _
  rw [getConfiguredPeerAddr, hsession, haddr] at h
  cases h

theorem own_connections_only_accepted : (secondConnection.embeddedPeerId = some secondPeer) ∧
    ((exec step start secondFoundAgain).peerSessions
      secondPeer).currentConnection = some secondConnection := by
  have hfound : ((exec step start secondFoundAgain).peerSessions
      secondPeer).currentConnection = some secondConnection := by
    decide +kernel
  refine ⟨own_connections_only secondFoundAgain ?_ secondPeer secondConnection (.inl hfound),
    hfound⟩
  refine ⟨trivial, trivial, .inr nofun, fun p hp => ?_, fun p hp => ?_, trivial, fun c hc => ?_,
    trivial, trivial⟩
  · rw [configured_secondAccepted hp]
    rfl
  · rw [configured_secondAccepted hp]
    rfl
  · rw [← Option.some.inj hc]
    rfl

/-- The first peer is configured at the source address of the second one's connection. -/
def configuredAtSource : List PoolEvent :=
  secondAccepted ++ [.setConfiguredPeerAddr firstPeer secondSource]

/-- **A lookup of one peer returns, and files, the connection of another.** -/
theorem foreign_connection_adopted :
    let s := exec ConnectionPool.step ConnectionPool.start configuredAtSource
    (s.getConnectionByPeerId firstPeer (fun _ => true) []).2 = some secondConnection ∧
      ((s.getConnectionByPeerId firstPeer (fun _ => true) []).1.peerSessions
        firstPeer).currentConnection = some secondConnection ∧
      secondConnection.embeddedPeerId ≠ some firstPeer := by
  decide +kernel

def secondAnswers : List PoolEvent :=
  secondAccepted ++ [.ask secondPeer 5, .response secondConnection 5]

theorem own_replies_only_answered :
    (exec ConnectionPool.step start secondAnswers).completed = [(secondPeer, secondPeer, 5)] ∧
      ∀ x ∈ (exec ConnectionPool.step start secondAnswers).completed, x.1 = x.2.1 := by
  refine ⟨by decide +kernel, own_replies_only secondAnswers ?_⟩
  refine ⟨⟨nofun, nofun⟩, trivial, trivial, ?_, ?_, trivial, trivial, trivial⟩
  · change ∀ c ∈ [secondConnection], _
    intro c hc _ _
    rw [List.mem_singleton.mp hc]
  · change ∀ c ∈ [secondConnection], _
    intro c hc _ _
    rw [List.mem_singleton.mp hc]

/-- The first peer is connected, the second one is granted the source address of
that connection and asked, and the first one answers with the id of the ask. -/
def answeredByFirst : List PoolEvent :=
  acceptInbound firstPeer firstConnection firstGranted ++
    acceptInbound secondPeer secondConnection firstSource ++
    [.ask secondPeer 5, .response firstConnection 5]

/-- **A frame of one peer completes the ask sent to another.** -/
theorem foreign_reply_accepted : (exec ConnectionPool.step start answeredByFirst).completed =
    [(firstPeer, secondPeer, 5)] := by
  decide +kernel

end ConnectionPool

end IcanactRemote
