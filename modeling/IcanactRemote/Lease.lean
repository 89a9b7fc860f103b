/-
Exclusive leases that are given back through a queue.

A manager grants a lease on a key to at most one ticket at a time.  A holder
gives its ticket back by queueing a return; when the manager settles a return
it frees the *key*, without looking at which ticket the return came from.  So
exclusivity is a matter of what can be in the queue, not of a check.

`Sound` says what can: a key is leased exactly while its ticket is live or its
return is queued.  Granting, giving back and settling keep it (`Sound.grant`,
`Sound.giveBack`, `Sound.settle`).

* `Sound.exclusive` — two live tickets are never for one key;
* `Sound.holder_of_queued` — a queued return frees its own lease.
-/
import Mathlib

namespace Lease

open Function

variable {K : Type*}

/-- A granted lease: its key, and whether it has not been given back yet. -/
structure Ticket (K : Type*) where
  key : K
  live : Bool

/-- The leases in force, every ticket granted so far, and the queued returns.
`sent` is the history of the queue. -/
structure State (K : Type*) where
  holder : K → Option ℕ
  tickets : List (Ticket K)
  returns : List (ℕ × K)
  sent : List ℕ

def State.empty : State K := ⟨fun _ => none, [], [], []⟩

/-- Ticket `c` for `k` is live, or its return is queued. -/
def Outstanding (s : State K) (c : ℕ) (k : K) : Prop :=
  s.tickets[c]? = some ⟨k, true⟩ ∨ (c, k) ∈ s.returns

/-- A key is leased exactly while its ticket is outstanding, and every ticket
is returned once. -/
structure Sound (s : State K) : Prop where
  holder_iff : ∀ k c, s.holder k = some c ↔ Outstanding s c k
  queued : ∀ c k, (c, k) ∈ s.returns → s.tickets[c]? = some ⟨k, false⟩
  nodup : s.returns.Nodup
  sent_eq : ∀ c t, s.tickets[c]? = some t → s.sent.count c = if t.live then 0 else 1
  sent_lt : ∀ c ∈ s.sent, c < s.tickets.length

lemma sound_empty : Sound (State.empty : State K) where
  holder_iff := by simp [State.empty, Outstanding]
  queued := by simp [State.empty]
  nodup := List.nodup_nil
  sent_eq := by simp [State.empty]
  sent_lt := by simp [State.empty]

variable {k : K} {c c' : ℕ}

namespace Sound

variable {s : State K}

lemma holder_of_queued (h : Sound s) (hq : (c, k) ∈ s.returns) : s.holder k = some c :=
  (h.holder_iff k c).mpr (Or.inr hq)

/-- **Exclusivity.**  A key has at most one outstanding ticket. -/
theorem exclusive (h : Sound s) (hc : Outstanding s c k) (hc' : Outstanding s c' k) : c = c' := by
  have heq : some c = some c' :=
    ((h.holder_iff k c).mpr hc).symm.trans ((h.holder_iff k c').mpr hc')
  exact Option.some.inj heq

end Sound

/-! ### The steps -/

variable [DecidableEq K]

namespace State

variable (s : State K)

def grant (k : K) : State K :=
  { s with
    holder := update s.holder k (some s.tickets.length)
    tickets := s.tickets ++ [⟨k, true⟩] }

/-- Give ticket `c` for `k` back: it is no longer live, and its return is
queued. -/
def giveBack (c : ℕ) (k : K) : State K :=
  { s with
    tickets := s.tickets.set c ⟨k, false⟩
    returns := s.returns ++ [(c, k)]
    sent := s.sent ++ [c] }

def settle (k : K) (rest : List (ℕ × K)) : State K :=
  { s with holder := update s.holder k none, returns := rest }

end State

namespace Sound

variable {s : State K}

lemma grant (h : Sound s) (hfree : s.holder k = none) : Sound (s.grant k) := by
  -- the tickets granted before are where they were
  have hold : ∀ {c : ℕ} {t}, s.tickets[c]? = some t → (s.grant k).tickets[c]? = some t := by
    intro c t hc
    have hlt : c < s.tickets.length := (List.getElem?_eq_some_iff.mp hc).1
    exact (List.getElem?_append_left hlt).trans hc
  have hcases : ∀ {c : ℕ} {t}, (s.grant k).tickets[c]? = some t →
      s.tickets[c]? = some t ∨ c = s.tickets.length ∧ t = ⟨k, true⟩ := by
    intro c t hc
    rcases Nat.lt_trichotomy c s.tickets.length with hlt | rfl | hgt
    · exact Or.inl ((List.getElem?_append_left hlt).symm.trans hc)
    · refine Or.inr ⟨rfl, ?_⟩
      simpa [State.grant] using hc.symm
    · have hlen : c < s.tickets.length + 1 := by
        simpa [State.grant] using (List.getElem?_eq_some_iff.mp hc).1
      omega
  refine ⟨fun k' c => ?_, fun c k' hq => hold (h.queued c k' hq), h.nodup, ?_, ?_⟩
  · show update s.holder k (some s.tickets.length) k' = some c ↔ _
    by_cases hk : k' = k
    · subst hk
      rw [update_self, Option.some_inj]
      constructor
      · rintro rfl
        exact Or.inl (by simp [State.grant])
      · rintro (hl | hq)
        · rcases hcases hl with hl' | ⟨rfl, -⟩
          · exact absurd ((h.holder_iff k' c).mpr (Or.inl hl')) (by simp [hfree])
          · rfl
        · exact absurd (h.holder_of_queued hq) (by simp [hfree])
    · rw [update_of_ne hk, h.holder_iff]
      constructor
      · rintro (hl | hq)
        · exact Or.inl (hold hl)
        · exact Or.inr hq
      · rintro (hl | hq)
        · rcases hcases hl with hl' | ⟨-, ht⟩
          · exact Or.inl hl'
          · exact absurd (congrArg Ticket.key ht) hk
        · exact Or.inr hq
  · intro c t hc
    rcases hcases hc with hc' | ⟨rfl, rfl⟩
    · exact h.sent_eq c t hc'
    · -- a ticket that did not exist has not been returned
      refine List.count_eq_zero.mpr fun hmem => ?_
      exact absurd (h.sent_lt _ hmem) (Nat.lt_irrefl _)
  · intro c hc
    have hlt := h.sent_lt c hc
    simp only [State.grant, List.length_append, List.length_singleton]
    omega

omit [DecidableEq K] in
lemma giveBack (h : Sound s) (hlive : s.tickets[c]? = some ⟨k, true⟩) : Sound (s.giveBack c k) := by
  have hlt : c < s.tickets.length := (List.getElem?_eq_some_iff.mp hlive).1
  have hself : (s.giveBack c k).tickets[c]? = some ⟨k, false⟩ := List.getElem?_set_self hlt
  have hne : ∀ {c' : ℕ}, c' ≠ c → (s.giveBack c k).tickets[c']? = s.tickets[c']? := by
    intro c' hc
    exact List.getElem?_set_ne (Ne.symm hc)
  have hmem : ∀ {c' k'}, (c', k') ∈ (s.giveBack c k).returns ↔
      (c', k') ∈ s.returns ∨ c' = c ∧ k' = k := by
    intro c' k'
    simp [State.giveBack]
  -- a live ticket has no return in the queue
  have hnot : ∀ k', (c, k') ∉ s.returns := by
    intro k' hq
    have hdead := (h.queued c k' hq).symm.trans hlive
    exact absurd (congrArg (Option.map Ticket.live) hdead) (by simp)
  refine ⟨fun k' c' => ?_, fun c' k' hq => ?_, ?_, fun c' t hc => ?_, fun c' hc => ?_⟩
  · show s.holder k' = some c' ↔ _
    rw [h.holder_iff, Outstanding, Outstanding, hmem]
    by_cases hc : c' = c
    · subst hc
      rw [hself, hlive]
      have := hnot k'
      simp [this, eq_comm]
    · rw [hne hc]
      simp [hc]
  · rcases hmem.mp hq with hq | ⟨rfl, rfl⟩
    · have hc : c' ≠ c := fun hc => hnot k' (hc ▸ hq)
      rw [hne hc]
      exact h.queued c' k' hq
    · exact hself
  · exact List.nodup_append.mpr ⟨h.nodup, List.nodup_singleton _, fun p hp q hq hpq =>
      hnot k (List.mem_singleton.mp hq ▸ hpq ▸ hp)⟩
  · rw [State.giveBack, List.count_append]
    by_cases hcc : c' = c
    · subst hcc
      rw [hself] at hc
      obtain rfl := Option.some.inj hc
      rw [h.sent_eq c' _ hlive]
      simp
    · rw [hne hcc] at hc
      rw [h.sent_eq c' t hc, List.count_eq_zero.mpr (fun hm => hcc (List.mem_singleton.mp hm)),
        Nat.add_zero]
  · rw [State.giveBack, List.length_set]
    rcases List.mem_append.mp hc with hc | hc
    · exact h.sent_lt c' hc
    · exact List.mem_singleton.mp hc ▸ hlt

lemma settle (h : Sound s) {rest : List (ℕ × K)} (hhead : s.returns = (c, k) :: rest) :
    Sound (s.settle k rest) := by
  obtain ⟨hfst, hrest⟩ := List.nodup_cons.mp (hhead ▸ h.nodup)
  have hmem : ∀ {p}, p ∈ rest → p ∈ s.returns := by
    intro p hp
    rw [hhead]
    exact List.mem_cons_of_mem _ hp
  have hhold : s.holder k = some c := h.holder_of_queued (by rw [hhead]; exact List.mem_cons_self)
  refine ⟨fun k' c' => ?_, fun c' k' hq => h.queued c' k' (hmem hq), hrest, h.sent_eq, h.sent_lt⟩
  show update s.holder k none k' = some c' ↔ _
  by_cases hk : k' = k
  · subst hk
    rw [update_self]
    refine ⟨fun hc => absurd hc (by simp), ?_⟩
    -- the key's only outstanding ticket was the one settled
    rintro (hl | hq)
    · have hc : c = c' := Option.some.inj (hhold.symm.trans ((h.holder_iff k' c').mpr (Or.inl hl)))
      subst hc
      have hdead := h.queued c k' (by rw [hhead]; exact List.mem_cons_self)
      cases hdead.symm.trans hl
    · have hc : c = c' := Option.some.inj (hhold.symm.trans (h.holder_of_queued (hmem hq)))
      exact absurd (hc ▸ hq) hfst
  · rw [update_of_ne hk, h.holder_iff, Outstanding, Outstanding, hhead, List.mem_cons]
    simp [hk, State.settle]

end Sound

end Lease
