/-
Which addresses gossip is sent to: one for each peer.

`selectBestAliasPerIdentity` visits the entries of a hash map, in whatever order
it has them, and keeps the best alias seen so far of each identity.

* `foldl_visit` — what is kept of an identity is one of the best of its aliases;
* `selection_best` — so one address is chosen for each identity that has an alias
  to choose, and which one depends on the order exactly when several of the best
  ones tie (`selection_first_visited`).
-/
import IcanactRemote.ActorRecords
import IcanactRemote.Champion
import IcanactRemote.Table

namespace IcanactRemote

open Champion List

/-- What selection reads of a peer entry. -/
structure AliasEntry where
  nodeId : Option GossipNodeId
  identityVerified : Bool
  transportSourceKeyed : Bool
  failures : ℕ
  deriving DecidableEq

/-- An entry of the map of peers, under its address. -/
abbrev KeyedEntry := SocketAddr × AliasEntry

inductive PeerDispatchKey
  | node (id : GossipNodeId)
  | addr (addr : SocketAddr)
  deriving DecidableEq

/-- Only a verified identity merges aliases. -/
def PeerDispatchKey.forEntry (addr : SocketAddr) (peer : AliasEntry) : PeerDispatchKey :=
  match peer.nodeId, peer.identityVerified with
  | some nodeId, true => .node nodeId
  | _, _ => .addr addr

/-- An alias with what it is ranked by. -/
structure RankedAlias where
  addr : SocketAddr
  live : Bool
  dialable : Bool
  failures : ℕ

def RankedAlias.better (new best : RankedAlias) : Bool :=
  match new.live, best.live with
  | true, false => true
  | false, true => false
  | _, _ =>
    match new.dialable, best.dialable with
    | true, false => true
    | false, true => false
    | _, _ => new.failures < best.failures

lemma RankedAlias.better_irrefl (a : RankedAlias) : a.better a = false := by
  rcases a with ⟨_, _ | _, _ | _, _⟩ <;> simp [better]

lemma RankedAlias.better_trans {a b c : RankedAlias} (hab : a.better b = true)
    (hbc : b.better c = true) : a.better c = true := by
  rcases a with ⟨_, _ | _, _ | _, _⟩ <;> rcases b with ⟨_, _ | _, _ | _, _⟩ <;>
    rcases c with ⟨_, _ | _, _ | _, _⟩ <;> simp [better] at hab hbc ⊢ <;> omega

/-- What a selection depends on besides the entries. -/
structure AliasSelection where
  clientOnlyPeers : PeerId → Bool
  pinOwner : SocketAddr → Option PeerId
  isLive : SocketAddr → AliasEntry → Bool
  eligible : SocketAddr → AliasEntry → Bool

namespace AliasSelection

variable (sel : AliasSelection)

def peerIsClientOnly (peer : AliasEntry) : Bool :=
  peer.nodeId.any fun nodeId => sel.clientOnlyPeers ⟨nodeId.bytes⟩

def isEffectivelyDialable (addr : SocketAddr) (peer : AliasEntry) : Bool :=
  if sel.peerIsClientOnly peer then false
  else if !peer.transportSourceKeyed then true
  else
    match peer.nodeId with
    | none => false
    | some nodeId => sel.pinOwner addr = some ⟨nodeId.bytes⟩

def ranked (e : KeyedEntry) : RankedAlias :=
  ⟨e.1, sel.isLive e.1 e.2, sel.isEffectivelyDialable e.1 e.2, e.2.failures⟩

/-- Whether the loop looks at the entry at all. -/
def admits (e : KeyedEntry) : Bool :=
  sel.eligible e.1 e.2 && (sel.isEffectivelyDialable e.1 e.2 || sel.isLive e.1 e.2)

/-- One turn of the loop over the entries. -/
def visit (best : Table PeerDispatchKey RankedAlias) (e : KeyedEntry) :
    Table PeerDispatchKey RankedAlias :=
  if sel.admits e then
    best.insert (.forEntry e.1 e.2) (match best.get (.forEntry e.1 e.2) with
      | none => sel.ranked e
      | some old => challenge RankedAlias.better old (sel.ranked e))
  else best

/-- The addresses chosen when the entries are visited in this order. -/
def selectBestAliasPerIdentity (order : List KeyedEntry) : List SocketAddr :=
  (order.foldl sel.visit .empty).toList.map fun e => e.2.addr

/-- The aliases of an identity that may be chosen. -/
def candidates (key : PeerDispatchKey) (entries : List KeyedEntry) : List RankedAlias :=
  (entries.filter fun e => .forEntry e.1 e.2 = key ∧ sel.admits e).map sel.ranked

/-- An alias that is as good a choice for the identity as any other. -/
def Best (key : PeerDispatchKey) (entries : List KeyedEntry) : RankedAlias → Prop :=
  Unbeaten RankedAlias.better (sel.candidates key entries)

/-- No identity has two best aliases. -/
def Untied (entries : List KeyedEntry) : Prop :=
  ∀ key b c, sel.Best key entries b → sel.Best key entries c → b.addr = c.addr

variable {sel} {entries order other : List KeyedEntry} {key : PeerDispatchKey} {a : SocketAddr}

lemma mem_candidates {b : RankedAlias} : b ∈ sel.candidates key entries ↔
    ∃ e ∈ entries, .forEntry e.1 e.2 = key ∧ sel.admits e = true ∧ sel.ranked e = b := by
  simp [candidates, and_assoc]

lemma candidates_concat (seen : List KeyedEntry) (e : KeyedEntry) :
    sel.candidates key (seen ++ [e]) = sel.candidates key seen ++
      if .forEntry e.1 e.2 = key ∧ sel.admits e then [sel.ranked e] else [] := by
  rw [candidates, filter_append, map_append, ← candidates]
  split <;> simp_all

lemma get_visit (best : Table PeerDispatchKey RankedAlias) (e : KeyedEntry) :
    (sel.visit best e).get key =
      if .forEntry e.1 e.2 = key ∧ sel.admits e then
        some (match best.get key with
          | none => sel.ranked e
          | some old => challenge RankedAlias.better old (sel.ranked e))
      else best.get key := by
  unfold visit
  by_cases hadmits : sel.admits e = true
  · rw [if_pos hadmits, Table.get_insert]
    by_cases hkey : .forEntry e.1 e.2 = key
    · subst hkey
      rw [if_pos rfl, if_pos ⟨rfl, hadmits⟩]
    · rw [if_neg (Ne.symm hkey), if_neg fun h => hkey h.1]
  · rw [if_neg hadmits, if_neg fun h => hadmits h.2]

/-- **What the loop keeps** of an identity is one of the best of its aliases. -/
theorem foldl_visit (sel : AliasSelection) :
    ((order.foldl sel.visit .empty).get key = none ∧ sel.candidates key order = []) ∨
      ∃ b, (order.foldl sel.visit .empty).get key = some b ∧ sel.Best key order b := by
  induction order using reverseRecOn with
  | nil => exact .inl ⟨rfl, rfl⟩
  | append_singleton seen e ih =>
    rw [foldl_append, foldl_cons, foldl_nil, get_visit, Best, candidates_concat]
    by_cases he : .forEntry e.1 e.2 = key ∧ sel.admits e = true
    · rw [if_pos he, if_pos he]
      right
      rcases ih with ⟨hget, hnil⟩ | ⟨b, hget, hbest⟩
      · rw [hget, hnil]
        refine ⟨_, rfl, mem_singleton_self _, fun u hu => ?_⟩
        rw [mem_singleton.mp hu]
        exact RankedAlias.better_irrefl _
      · rw [hget]
        exact ⟨_, rfl, hbest.challenge RankedAlias.better_irrefl fun _ _ _ =>
          RankedAlias.better_trans⟩
    · rw [if_neg he, if_neg he, append_nil]
      exact ih

lemma mem_select : a ∈ sel.selectBestAliasPerIdentity order ↔
    ∃ key b, (order.foldl sel.visit .empty).get key = some b ∧ b.addr = a := by
  simp [selectBestAliasPerIdentity, Prod.exists, Table.mem_toList]

lemma kept_of_perm (h : order.Perm entries) :
    ((order.foldl sel.visit .empty).get key = none ∧ sel.candidates key entries = []) ∨
      ∃ b, (order.foldl sel.visit .empty).get key = some b ∧ sel.Best key entries b := by
  have hperm : (sel.candidates key order).Perm (sel.candidates key entries) := (h.filter _).map _
  rcases foldl_visit sel with ⟨hget, hnil⟩ | ⟨b, hget, hmem, hbest⟩
  · exact .inl ⟨hget, (hnil ▸ hperm).symm.eq_nil⟩
  · exact .inr ⟨b, hget, hperm.mem_iff.mp hmem, fun u hu => hbest u (hperm.mem_iff.mpr hu)⟩

lemma exists_kept (h : order.Perm entries) (hne : sel.candidates key entries ≠ []) :
    ∃ b, (order.foldl sel.visit .empty).get key = some b ∧ sel.Best key entries b :=
  (kept_of_perm h).resolve_left fun hnone => hne hnone.2

lemma best_of_mem_select (h : order.Perm entries) (ha : a ∈ sel.selectBestAliasPerIdentity order) :
    ∃ key b, (order.foldl sel.visit .empty).get key = some b ∧ b.addr = a ∧
      sel.Best key entries b := by
  obtain ⟨key, b, hget, haddr⟩ := mem_select.mp ha
  rcases kept_of_perm h with ⟨hnone, -⟩ | ⟨c, hget', hbest⟩
  · cases hnone.symm.trans hget
  · cases hget.symm.trans hget'
    exact ⟨key, b, hget, haddr, hbest⟩

lemma Untied.mem_select_of_mem (h : sel.Untied entries) (hoth : other.Perm entries)
    (horder : order.Perm entries) (ha : a ∈ sel.selectBestAliasPerIdentity other) :
    a ∈ sel.selectBestAliasPerIdentity order := by
  obtain ⟨key, b, hget, rfl, hbest⟩ := best_of_mem_select hoth ha
  obtain ⟨c, hget', hbest'⟩ := exists_kept horder (ne_nil_of_mem hbest.1)
  exact mem_select.mpr ⟨key, c, hget', h key c b hbest' hbest⟩

lemma get_foldl_visit (best : Table PeerDispatchKey RankedAlias) {b : RankedAlias}
    (hget : best.get key = some b) (hb : ∀ u ∈ sel.candidates key order, u.better b = false) :
    (order.foldl sel.visit best).get key = some b := by
  induction order generalizing best with
  | nil => exact hget
  | cons e _ ih =>
    refine ih _ ?_ fun u hu => hb u ?_
    · rw [get_visit, hget]
      split_ifs with he
      · have hnot := hb _ (mem_candidates.mpr ⟨e, mem_cons_self, he.1, he.2, rfl⟩)
        exact congrArg some (challenge_of_not_beats (by simp [hnot]))
      · rfl
    · obtain ⟨d, hd, hcand⟩ := mem_candidates.mp hu
      exact mem_candidates.mpr ⟨d, mem_cons_of_mem _ hd, hcand⟩

lemma Best.kept_first {b : RankedAlias} (h : sel.Best key entries b) :
    ∃ order : List KeyedEntry, order.Perm entries ∧
      (order.foldl sel.visit .empty).get key = some b := by
  obtain ⟨e, he, hkey, hadmits, rfl⟩ := mem_candidates.mp h.1
  refine ⟨e :: entries.erase e, (perm_cons_erase he).symm,
    get_foldl_visit (sel.visit .empty e) ?_ fun u hu => ?_⟩
  · rw [get_visit, if_pos ⟨hkey, hadmits⟩]
    rfl
  · obtain ⟨d, hd, hcand⟩ := mem_candidates.mp hu
    exact h.2 u (mem_candidates.mpr ⟨d, mem_of_mem_erase hd, hcand⟩)

/-- **Gossip targets.**  In every order of visiting, exactly one address is chosen for an
identity with an eligible alias that is live or dialable, none for another, and no alias of
the identity is better.  The addresses are the same in every order exactly when no identity
has two best aliases. -/
theorem selection_best (sel : AliasSelection) (peers : Table SocketAddr AliasEntry)
    (order : List KeyedEntry) (horder : order.Perm peers.toList) :
    (∀ key, sel.candidates key peers.toList ≠ [] →
      ∃! a, a ∈ sel.selectBestAliasPerIdentity order ∧
        ∃ peer, peers.get a = some peer ∧ .forEntry a peer = key) ∧
    (∀ a ∈ sel.selectBestAliasPerIdentity order,
      ∃ key b, b.addr = a ∧ sel.Best key peers.toList b) ∧
    (sel.Untied peers.toList ↔ ∀ other, other.Perm peers.toList → ∀ a,
      a ∈ sel.selectBestAliasPerIdentity other ↔ a ∈ sel.selectBestAliasPerIdentity order) := by
  have hentry : ∀ {key b}, sel.Best key peers.toList b →
      ∃ peer, peers.get b.addr = some peer ∧ .forEntry b.addr peer = key := by
    rintro key b ⟨hmem, -⟩
    obtain ⟨e, he, hkey, -, rfl⟩ := mem_candidates.mp hmem
    exact ⟨e.2, Table.mem_toList.mp he, hkey⟩
  -- an address has one entry, so it is chosen for one identity only
  have hkeys : ∀ {key b key'}, sel.Best key peers.toList b →
      (∃ peer, peers.get b.addr = some peer ∧ .forEntry b.addr peer = key') → key = key' := by
    rintro key b key' hb ⟨peer', hpeer', hkey'⟩
    obtain ⟨peer, hpeer, hkey⟩ := hentry hb
    obtain rfl : peer = peer' := Option.some.inj (hpeer.symm.trans hpeer')
    exact hkey.symm.trans hkey'
  refine ⟨fun key hne => ?_, fun a ha => ?_, fun huntied other hoth a => ?_, fun hsame => ?_⟩
  · obtain ⟨b, hget, hbest⟩ := exists_kept horder hne
    refine ⟨b.addr, ⟨mem_select.mpr ⟨key, b, hget, rfl⟩, hentry hbest⟩, ?_⟩
    rintro a ⟨ha, hpeer⟩
    obtain ⟨key', c, hget', rfl, hbest'⟩ := best_of_mem_select horder ha
    obtain rfl := hkeys hbest' hpeer
    exact congrArg RankedAlias.addr (Option.some.inj (hget'.symm.trans hget))
  · obtain ⟨key, b, -, haddr, hbest⟩ := best_of_mem_select horder ha
    exact ⟨key, b, haddr, hbest⟩
  · exact ⟨huntied.mem_select_of_mem hoth horder, huntied.mem_select_of_mem horder hoth⟩
  · -- of two best aliases each is chosen in some order, so both are chosen in both
    intro key b c hb hc
    obtain ⟨orderB, hpermB, hgetB⟩ := hb.kept_first
    obtain ⟨orderC, hpermC, hgetC⟩ := hc.kept_first
    have hmem := (hsame orderC hpermC _).mpr
      ((hsame orderB hpermB _).mp (mem_select.mpr ⟨key, b, hgetB, rfl⟩))
    obtain ⟨key', d, hgetD, haddr, hbest⟩ := best_of_mem_select hpermC hmem
    obtain rfl := hkeys hbest (haddr ▸ hentry hb)
    obtain rfl : d = c := Option.some.inj (hgetD.symm.trans hgetC)
    exact haddr.symm

/-- A node that has no connection and no pins. -/
def idle : AliasSelection := ⟨fun _ => false, fun _ => none, fun _ _ => false, fun _ _ => true⟩

/-- A verified peer with two dialable addresses. -/
def twoAliases (failures : ℕ) : List KeyedEntry :=
  [(.v4 1 1, ⟨some ⟨7⟩, true, false, 0⟩), (.v4 2 2, ⟨some ⟨7⟩, true, false, failures⟩)]

/-- One of them has failed before, so the other is chosen in both orders. -/
theorem selection_best_unfailed : idle.selectBestAliasPerIdentity (twoAliases 1) = [.v4 1 1] ∧
    .v4 1 1 ∈ idle.selectBestAliasPerIdentity (twoAliases 1).reverse := by
  have hperm : (twoAliases 1).Perm (Table.ofPairs (twoAliases 1)).toList := by decide +kernel
  have hsame := (selection_best idle (.ofPairs (twoAliases 1)) (twoAliases 1) hperm).2.2
  refine ⟨by decide +kernel,
    (hsame.mp ?_ _ ((reverse_perm _).trans hperm) _).mpr (by decide +kernel)⟩
  intro key b c hb hc
  have hbc := hb.2 c hc.1
  have hcb := hc.2 b hb.1
  obtain ⟨d, hd, -, -, rfl⟩ := mem_candidates.mp hb.1
  obtain ⟨e, he, -, -, rfl⟩ := mem_candidates.mp hc.1
  rw [← hperm.mem_iff, twoAliases, mem_pair] at hd he
  rcases hd with rfl | rfl <;> rcases he with rfl | rfl
  · rfl
  · exact absurd hcb (by decide)
  · exact absurd hbc (by decide)
  · rfl

/-- Of two aliases that tie, the one visited first is chosen. -/
theorem selection_first_visited : (twoAliases 0).Perm (Table.ofPairs (twoAliases 0)).toList ∧
    (twoAliases 0).reverse.Perm (Table.ofPairs (twoAliases 0)).toList ∧
    idle.selectBestAliasPerIdentity (twoAliases 0) = [.v4 1 1] ∧
    idle.selectBestAliasPerIdentity (twoAliases 0).reverse = [.v4 2 2] := by
  decide +kernel

end AliasSelection

end IcanactRemote
