/-
Streaks of ask timeouts.

A peer's session counts its consecutive streak timeouts in eight bits.  The count
that is compared with the threshold saturates, the counter itself wraps.

* `streak_trips` — a timeout attempts the eviction exactly when the threshold is
  reached, unless the counter has wrapped and stands too low;
* `streak_wraps` — after 256 refused evictions the next timeout attempts none.
-/
import IcanactRemote.AddrOwnership
import IcanactRemote.Run

namespace IcanactRemote

open Run Function

/-- What an eviction finds in the pool: the indexed connection of the peer with the
instance of its stream handle, and whether the disconnect clears anything. -/
structure PoolAnswer where
  connection : Option (Option ℕ)
  cleared : Bool
  deriving DecidableEq

def evictPeerSessionIfInstance (pool : PoolAnswer) : Option ℕ → Bool
  | some expected =>
    match pool.connection with
    | none => false
    | some current => if current ≠ some expected then false else pool.cleared
  | none => pool.cleared

/-- The answer of `record_ask_timeout`, which also counts one up. -/
def recordAskTimeout (consecutive : UInt8) : UInt8 :=
  if consecutive = 255 then 255 else consecutive + 1

lemma toNat_recordAskTimeout (consecutive : UInt8) :
    (recordAskTimeout consecutive).toNat = min 255 (consecutive.toNat + 1) := by
  rw [recordAskTimeout]
  split_ifs with hfull
  · rw [hfull]
    rfl
  · have hne : consecutive.toNat ≠ 255 := fun heq => hfull (UInt8.toNat_inj.mp heq)
    have hlt := consecutive.toNat_lt
    rw [UInt8.toNat_add]
    show (consecutive.toNat + 1) % 256 = _
    omega

structure AskStreaks where
  /-- `consecutive_ask_timeouts`, zero for a peer without a session -/
  consecutive : PeerId → UInt8
  /-- the timeouts since the last success, hard fault or eviction; only counted here -/
  recorded : PeerId → ℕ

inductive AskNote
  | success (peer : PeerId)
  | streakTimeout (peer : PeerId) (threshold : UInt8) (expected : Option ℕ) (pool : PoolAnswer)
  | hardFault (peer : PeerId) (expected : Option ℕ) (pool : PoolAnswer)
  deriving DecidableEq

namespace AskStreaks

variable {s : AskStreaks}

def start : AskStreaks := ⟨fun _ => 0, fun _ => 0⟩

/-- `reset_ask_timeout_streak`. -/
def reset (s : AskStreaks) (peer : PeerId) : AskStreaks :=
  ⟨update s.consecutive peer 0, update s.recorded peer 0⟩

/-- The `fetch_add` of `record_ask_timeout`. -/
def count (s : AskStreaks) (peer : PeerId) : AskStreaks :=
  ⟨update s.consecutive peer (s.consecutive peer + 1),
    update s.recorded peer (s.recorded peer + 1)⟩

/-- Whether a streak timeout comes to the eviction. -/
def attempts (s : AskStreaks) (peer : PeerId) (threshold : UInt8) : Bool :=
  threshold ≠ 0 && !decide (recordAskTimeout (s.consecutive peer) < threshold)

def step (s : AskStreaks) : AskNote → AskStreaks
  | .success peer | .hardFault peer _ _ => s.reset peer
  | .streakTimeout peer threshold expected pool =>
    if threshold = 0 then s
    else if s.attempts peer threshold && evictPeerSessionIfInstance pool expected then
      (s.count peer).reset peer
    else s.count peer

def Counted (s : AskStreaks) : Prop := ∀ peer, (s.consecutive peer).toNat = s.recorded peer % 256

lemma Counted.reset (h : s.Counted) (peer : PeerId) : (s.reset peer).Counted := by
  intro p
  by_cases hp : p = peer
  · subst hp
    simp [AskStreaks.reset]
  · simpa [AskStreaks.reset, hp] using h p

lemma Counted.count (h : s.Counted) (peer : PeerId) : (s.count peer).Counted := by
  intro p
  by_cases hp : p = peer
  · subst hp
    have hold := h p
    simp only [AskStreaks.count, update_self, UInt8.toNat_add, hold]
    show (s.recorded p % 256 + 1) % 256 = (s.recorded p + 1) % 256
    omega
  · simpa [AskStreaks.count, hp] using h p

lemma counted_exec (es : List AskNote) : (exec step start es).Counted := by
  refine exec_invariant (fun s e h => ?_) (fun _ => rfl) es
  cases e with
  | success peer | hardFault peer => exact h.reset peer
  | streakTimeout peer =>
    simp only [step]
    split_ifs
    · exact h
    · exact (h.count peer).reset peer
    · exact h.count peer

theorem streak_trips (es : List AskNote) (peer : PeerId) {threshold : UInt8}
    (hpos : 0 < threshold) :
    ((exec step start es).attempts peer threshold = true ↔
        threshold.toNat ≤ (exec step start es).recorded peer + 1) ↔
      (exec step start es).recorded peer < 256 ∨
        threshold.toNat ≤ (exec step start es).recorded peer % 256 + 1 := by
  have hcnt := counted_exec es peer
  have hlt := threshold.toNat_lt
  have hne : threshold ≠ 0 := by
    rintro rfl
    exact absurd hpos (by decide)
  have hattempts : (exec step start es).attempts peer threshold = true ↔
      threshold.toNat ≤ (recordAskTimeout ((exec step start es).consecutive peer)).toNat := by
    simp [attempts, hne, UInt8.le_iff_toNat_le]
  rw [hattempts, toNat_recordAskTimeout, hcnt]
  omega

theorem streak_trips_third :
    let refused : AskNote := .streakTimeout ⟨1⟩ 3 (some 7) ⟨some (some 8), false⟩
    (exec step start [refused, refused]).attempts ⟨1⟩ 3 = true :=
  ((streak_trips _ _ (by decide)).mpr (by decide)).mpr (by decide)

/-- The session was replaced, so its evictions are refused; after 256 of them the
counter is back at zero. -/
theorem streak_wraps : let refused : AskNote := .streakTimeout ⟨1⟩ 2 (some 7) ⟨some (some 8), false⟩
    let s := exec step start (List.replicate 256 refused)
    s.recorded ⟨1⟩ = 256 ∧ s.attempts ⟨1⟩ 2 = false := by
  decide +kernel

end AskStreaks

end IcanactRemote
