/-
The sessions of a client-only peer and its dial state (`client_only.rs`, `registry.rs`,
`handle.rs`, `transport_stream.rs`).

A peer that declares itself client-only is not dialed.  Every declaration draws a token,
and the latest one is remembered.  An inbound session keeps its token as a receipt: when it
has ended it releases the entries of the peer, if its token is still the latest and the
peer has no connection.  An outbound session drops the receipt and releases nothing.

* `Tokened.step` — entries are written by sessions that have declared themselves;
* `Owed.step` — while the session that declared last is inbound and is released last, an
  entry that is not pinned is owed a release;
* `dial_state_dropped` — then no such entry is left in the end, and no release removes an
  entry of a later session; `dial_state_kept` is a run in which one is left.
-/
import IcanactRemote.AddrOwnership
import IcanactRemote.Run
import IcanactRemote.Table

namespace IcanactRemote

open Run Function

inductive SessionStage
  | unborn
  | running (inbound : Bool)
  /-- An inbound session that has ended and not yet released its peer. -/
  | exited
  | released
  deriving DecidableEq

/-- An entry with the `node_id` of the peer: in `known_peers` or in `peers`. -/
abbrev EntryKey := Bool × SocketAddr

/-- The sessions of one peer, each under its token. -/
structure ClientOnlySessions where
  nextToken : ℕ
  /-- The record of the peer in `ClientOnlyPeers::sessions`. -/
  latest : Option ℕ
  stage : ℕ → SessionStage
  /-- The sessions whose connections the pool has. -/
  live : List ℕ
  /-- The entries of the peer, each with the session that wrote it. -/
  entries : Table EntryKey ℕ

inductive RoleEvent
  /-- A Hello that declares the peer client-only, and `note_remote_role`. -/
  | declare (inbound : Bool)
  | write (token : ℕ) (key : EntryKey)
  | publish (token : ℕ)
  /-- The connection is no longer usable, or was displaced. -/
  | unpublish (token : ℕ)
  /-- The session is over, after it was published or rejected. -/
  | exit (token : ℕ)
  /-- `release_client_only_session`. -/
  | release (token : ℕ)

namespace ClientOnlySessions

def start : ClientOnlySessions := ⟨0, none, fun _ => .unborn, [], .empty⟩

def isRunning (s : ClientOnlySessions) (token : ℕ) : Bool :=
  s.stage token = .running true || s.stage token = .running false

def hasConnection (s : ClientOnlySessions) : Bool := !s.live.isEmpty

/-- What a release does under the lock of `gossip_state`.  A token that is not the latest
does not become it again, so the check before the lock decides nothing else. -/
def releaseClientOnlySession (s : ClientOnlySessions) (pinned : SocketAddr → Bool) (token : ℕ) :
    ClientOnlySessions :=
  { s with
    entries :=
      if s.latest ≠ some token || s.hasConnection then s.entries
      else s.entries.retain fun key _ => pinned key.2 }

def step (pinned : SocketAddr → Bool) (s : ClientOnlySessions) :
    RoleEvent → ClientOnlySessions
  | .declare inbound =>
    { s with
      nextToken := s.nextToken + 1
      latest := some s.nextToken
      stage := update s.stage s.nextToken (.running inbound) }
  | .write token key =>
    if s.isRunning token then { s with entries := s.entries.insert key token } else s
  | .publish token => if s.isRunning token then { s with live := token :: s.live } else s
  | .unpublish token => { s with live := s.live.filter (· ≠ token) }
  | .exit token =>
    if s.isRunning token then
      { s with
        live := s.live.filter (· ≠ token)
        stage := update s.stage token
          (if s.stage token = .running true then .exited else .released) }
    else s
  | .release token =>
    if s.stage token = .exited then
      { s with stage := update s.stage token .released }.releaseClientOnlySession pinned token
    else s

/-- All sessions have ended, and every release has run. -/
def Settled (s : ClientOnlySessions) : Prop := ∀ token < s.nextToken, s.stage token = .released

/-- Tokens are drawn in order, and entries are written by sessions that have drawn one. -/
structure Tokened (s : ClientOnlySessions) : Prop where
  latest : ∀ token, s.latest = some token ↔ s.nextToken = token + 1
  born : ∀ token, s.stage token ≠ .unborn → token < s.nextToken
  wrote : ∀ key token, s.entries.get key = some token → token < s.nextToken

/-- The session that declared last is inbound, and is released last. -/
def LatestLast (s : ClientOnlySessions) : RoleEvent → Prop
  | .declare inbound => inbound = true
  | .write _ _ => ∀ token, s.latest = some token → s.stage token ≠ .released
  | .release token => s.latest = some token → s.live = []
  | _ => True

/-- All sessions are inbound, and while an entry is not pinned, the session that declared last
is not released yet. -/
structure Owed (pinned : SocketAddr → Bool) (s : ClientOnlySessions) : Prop where
  inbound : ∀ token, s.stage token ≠ .running false
  pending : ∀ key token, s.entries.get key = some token → pinned key.2 = false →
    ∀ newest, s.latest = some newest → s.stage newest ≠ .released

variable {pinned : SocketAddr → Bool} {s : ClientOnlySessions} {token w : ℕ} {key : EntryKey}

lemma get_of_release (h : (s.releaseClientOnlySession pinned token).entries.get key = some w) :
    s.entries.get key = some w := by
  simp only [releaseClientOnlySession] at h
  split at h
  · exact h
  · rw [Table.get_retain, Option.filter_eq_some_iff] at h
    exact h.1

lemma Tokened.step (h : Tokened s) (e : RoleEvent) : Tokened (s.step pinned e) := by
  -- a session that only changes its stage had a token before
  have hmoved {token : ℕ} {stage : SessionStage} (hborn : s.stage token ≠ .unborn) (u : ℕ)
      (hu : update s.stage token stage u ≠ .unborn) : u < s.nextToken := by
    by_cases hut : u = token
    · exact hut ▸ h.born token hborn
    · exact h.born u (update_of_ne hut stage s.stage ▸ hu)
  have hrunning {token : ℕ} (hrun : s.isRunning token) : s.stage token ≠ .unborn := by
    intro hunborn
    simp [isRunning, hunborn] at hrun
  cases e with
  | declare =>
    refine ⟨fun token => ?_, fun u hu => ?_,
      fun key u hu => (h.wrote key u hu).trans (Nat.lt_succ_self _)⟩
    · simp [ClientOnlySessions.step]
    · by_cases hut : u = s.nextToken
      · exact hut ▸ Nat.lt_succ_self _
      · exact (h.born u (update_of_ne hut _ s.stage ▸ hu)).trans (Nat.lt_succ_self _)
  | write token key =>
    simp only [ClientOnlySessions.step]
    split
    · next hrun =>
      refine { h with wrote := fun k u hu => ?_ }
      rw [Table.get_insert] at hu
      split at hu
      · cases hu
        exact h.born token (hrunning hrun)
      · exact h.wrote k u hu
    · exact h
  | publish =>
    simp only [ClientOnlySessions.step]
    split <;> exact { h with }
  | unpublish => exact { h with }
  | exit token =>
    simp only [ClientOnlySessions.step]
    split
    · next hrun => exact { h with born := hmoved (hrunning hrun) }
    · exact h
  | release token =>
    simp only [ClientOnlySessions.step]
    split
    · next hexited =>
      refine ⟨h.latest, hmoved (hexited ▸ by simp), fun key u hu => ?_⟩
      have hget := get_of_release hu
      exact h.wrote key u hget
    · exact h

lemma Owed.step (h : Owed pinned s) {e : RoleEvent} (he : s.LatestLast e) :
    Owed pinned (s.step pinned e) := by
  have hmoved {token : ℕ} {stage : SessionStage} (hsg : stage ≠ .running false) (u : ℕ) :
      update s.stage token stage u ≠ .running false := by
    by_cases hut : u = token
    · rw [hut, update_self]
      exact hsg
    · rw [update_of_ne hut]
      exact h.inbound u
  cases e with
  | declare inbound =>
    obtain rfl : inbound = true := he
    refine ⟨hmoved nofun, fun _ _ _ _ newest hnewest => ?_⟩
    -- the new session is the latest one, and it is running
    obtain rfl := Option.some.inj hnewest
    simp [ClientOnlySessions.step]
  | write token key =>
    simp only [ClientOnlySessions.step]
    split
    · exact ⟨h.inbound, fun _ _ _ _ => he⟩
    · exact h
  | publish =>
    simp only [ClientOnlySessions.step]
    split <;> exact { h with }
  | unpublish => exact { h with }
  | exit token =>
    simp only [ClientOnlySessions.step]
    split
    · next hrun =>
      have hin : s.stage token = .running true := by
        simpa [isRunning, h.inbound token] using hrun
      rw [if_pos hin]
      refine ⟨hmoved nofun, fun key w hget hpin newest hnewest => ?_⟩
      by_cases hut : newest = token
      · simp [hut]
      · simpa [hut] using h.pending key w hget hpin newest hnewest
    · exact h
  | release token =>
    simp only [ClientOnlySessions.step]
    split
    · refine ⟨hmoved nofun, fun key w hget hpin newest hnewest => ?_⟩
      by_cases hut : newest = token
      · -- the release goes through, and leaves pinned entries only
        subst hut
        have hlive := he hnewest
        have hlatest : s.latest = some newest := hnewest
        simp only [releaseClientOnlySession] at hget
        rw [if_neg (by simp [hlatest, hasConnection, hlive]), Table.get_retain,
          Option.filter_eq_some_iff, hpin] at hget
        cases hget.2
      · have hget := get_of_release hget
        simpa [releaseClientOnlySession, hut] using h.pending key w hget hpin newest hnewest
    · exact h

lemma latest_of_release (hget : s.entries.get key = some w)
    (h : (s.step pinned (.release token)).entries.get key ≠ some w) : s.latest = some token := by
  by_contra hne
  refine h ?_
  simp only [step]
  split
  · simp only [releaseClientOnlySession]
    rw [if_pos (by simp [hne])]
    exact hget
  · exact hget

/-- **The dial state of a client-only peer is dropped with its last session**, if the session
that declared last is inbound and released last; and no release removes an entry of a
session that declared later. -/
theorem dial_state_dropped (pinned : SocketAddr → Bool) (es : List RoleEvent) :
    let s := exec (step pinned) start es
    (∀ token key w, s.entries.get key = some w →
      (s.step pinned (.release token)).entries.get key ≠ some w → w ≤ token) ∧
    (Meets (step pinned) LatestLast start es → s.Settled →
      ∀ key w, s.entries.get key = some w → pinned key.2 = true) := by
  intro s
  have hs : Tokened s := exec_invariant (fun _ e hs => hs.step e) ⟨by simp [start], nofun, nofun⟩ es
  refine ⟨fun token key w hget hgone => ?_, fun hmeets hsett key w hget => ?_⟩
  · have hnext := (hs.latest token).mp (latest_of_release hget hgone)
    have hw := hs.wrote key w hget
    omega
  · have howed : Owed pinned s :=
      exec_invariant_of_meets (fun _ _ hs he => hs.step he) ⟨nofun, nofun⟩ hmeets
    obtain ⟨n, hn⟩ := Nat.exists_eq_add_one_of_ne_zero (Nat.ne_zero_of_lt (hs.wrote key w hget))
    by_contra hpin
    refine howed.pending key w hget (Bool.eq_false_iff.mpr hpin) n ((hs.latest n).mpr hn) ?_
    exact hsett n (hn ▸ Nat.lt_succ_self n)

/-- Two sessions that overlap, each with an entry; the one that declared later is
released last. -/
def overlapping : List RoleEvent :=
  [.declare true, .write 0 (false, .v4 1 7000), .publish 0, .declare true,
    .write 1 (true, .v4 1 7000), .exit 0, .release 0, .exit 1, .release 1]

theorem dial_state_dropped_overlapping : let s := exec (step fun _ => false) start overlapping
    s.Settled ∧ ∀ key w, s.entries.get key ≠ some w := by
  intro s
  have hmeets : Meets (step fun _ => false) LatestLast start overlapping := by
    refine ⟨rfl, ?_, trivial, rfl, ?_, trivial, nofun, trivial, fun _ => rfl, trivial⟩
    all_goals
      intro token hlatest
      cases hlatest
      decide
  have hsett : s.Settled := by
    unfold Settled
    decide
  refine ⟨hsett, fun key w hget => ?_⟩
  cases (dial_state_dropped _ overlapping).2 hmeets hsett key w hget

/-- Two sessions overlap: the second is rejected and released while the first has its connection,
and the release of the first is not current any more. -/
theorem dial_state_kept : let addr : SocketAddr := .v4 1 7000
    let s := exec (step fun _ => false) start
      [.declare true, .write 0 (false, addr), .publish 0, .declare true, .exit 1, .release 1,
        .exit 0, .release 0]
    s.entries.get (false, addr) = some 0 ∧ s.live = [] ∧
      ∀ token < s.nextToken, s.stage token = .released := by
  decide

end ClientOnlySessions

end IcanactRemote
