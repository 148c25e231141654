import ElectronicMail.Matters.Members

/-!
# Messages that a user locks together

A confirmation, a merge or a move locks its messages into a matter, and no worker moves a
locked member. A rebuild starts with a copy of the locked members of the generation that
is active when it is created; what the user decides after that is written in the active
generation only, and `promote_generation` does not look for it.

`locked_stay_together` says for exactly which runs the messages that a user has locked
together stay so in the active generation: those in which a rebuild that is promoted has
together what was decided since it was created, and a decision about another generation
locks together nothing that is not so in the active one.
-/

namespace ElectronicMail.Matters

open Foundations
open Foundations.Table

/-! ## What the user has locked together -/

def Member.IsLockedOf (generationId messageId : Nat) (r : Member) : Prop :=
  r.generationId = generationId ∧ r.messageId = messageId ∧ r.membershipLocked = true

instance (g x : Nat) (r : Member) : Decidable (r.IsLockedOf g x) :=
  inferInstanceAs (Decidable (_ ∧ _ ∧ _))

def Tables.LockedTogether (s : Tables) (generationId x y : Nat) : Prop :=
  ∃ r ∈ s.members, r.IsLockedOf generationId x ∧
    ∃ r' ∈ s.members, r'.IsLockedOf generationId y ∧ r'.matterId = r.matterId

instance (s : Tables) (g x y : Nat) : Decidable (s.LockedTogether g x y) :=
  inferInstanceAs (Decidable (∃ r ∈ s.members, r.IsLockedOf g x ∧
    ∃ r' ∈ s.members, r'.IsLockedOf g y ∧ r'.matterId = r.matterId))

/-- Two messages that a decision has locked together, with the id of the decision. -/
structure LockedPair where
  first : Nat
  second : Nat
  decisionId : Nat

/-- The messages that the decision locks into its destination, with those that are locked
there already. -/
def Decision.joins (d : Decision) (s : Tables) : List Nat :=
  match d.destination with
  | none => []
  | some t => (s.members.filter fun r =>
    d.selects r || (r.isIn d.generationId t && r.membershipLocked)).map Member.messageId

def Decision.takes (d : Decision) (s : Tables) (messageId : Nat) : Bool :=
  d.decision != .confirm && s.members.any fun r => d.selects r && r.messageId == messageId

def Decision.newPairs (d : Decision) (s : Tables) : List LockedPair :=
  (((d.joins s).product (d.joins s)).filter fun p => p.1 != p.2).map fun p => ⟨p.1, p.2, d.id⟩

/-- The pairs after a decision: those with a message that it separates or moves are taken
out. -/
def pairsAfter (d : Decision) (s : Tables) (pairs : List LockedPair) : List LockedPair :=
  (pairs.filter fun p => !(d.takes s p.first || d.takes s p.second)) ++ d.newPairs s

/-- The tables, with the pairs of messages that the user has locked together and not
separated or moved since. -/
structure Grouping where
  tables : Tables
  pairs : List LockedPair

/-- What can happen next. The lock of an assignment is what its transaction has read
before it locked the matter. -/
inductive GroupingLabel where
  | decide (u : UserDecision)
  | assign (a : Assignment) (locked : Option Nat)
  | mergeReconciled (generationId sourceMatterId targetMatterId : Nat) (status : MatterStatus)
  | request (r : Request)
  | deleteMessage (messageId : Nat)

def Grouping.step (aiInboxEnabled : Bool) (w : Grouping) : GroupingLabel → Grouping
  | .decide u =>
    { tables := applyUserDecision u w.tables
      pairs := match u.acceptedRecord w.tables with
        | none => w.pairs
        | some d => pairsAfter d w.tables w.pairs }
  | .assign a locked => { w with tables := (writeAssignment a locked w.tables).getD w.tables }
  | .mergeReconciled g source target status =>
    { w with tables := mergeReconciledMatters g source target status w.tables }
  | .request r =>
    { tables := r.run aiInboxEnabled w.tables
      pairs := if r = .deleteAiData then [] else w.pairs }
  | .deleteMessage x =>
    { tables := deleteMessage x w.tables
      pairs := w.pairs.filter fun p => p.first != x && p.second != x }

def Grouping.Held (w : Grouping) : Prop :=
  ∀ p ∈ w.pairs, ∃ g ∈ w.tables.generations, g.status = .active ∧
    w.tables.LockedTogether g.id p.first p.second

instance (w : Grouping) : Decidable w.Held :=
  inferInstanceAs (Decidable (∀ p ∈ w.pairs, ∃ g ∈ w.tables.generations, g.status = .active ∧
    w.tables.LockedTogether g.id p.first p.second))

/-- A decision about another generation than the active one locks together only what is
locked together in the active one. -/
def DecidesHere (w : Grouping) (u : UserDecision) : Prop :=
  ∀ d ∈ u.acceptedRecord w.tables, w.tables.currentGeneration ≠ some d.generationId →
    ∀ p ∈ d.newPairs w.tables, ∃ g ∈ w.tables.currentGeneration,
      w.tables.LockedTogether g p.first p.second

/-- A promoted rebuild has together what was decided since it was created. -/
def PromotesAll (w : Grouping) (r : Request) : Prop :=
  ∀ g ∈ r.promotes w.tables, ∀ p ∈ w.pairs, g ≤ p.decisionId →
    w.tables.LockedTogether g p.first p.second

def Retaining (w : Grouping) : GroupingLabel → Prop
  | .decide u => DecidesHere w u
  | .request r => PromotesAll w r
  | .assign _ _ => True
  | .mergeReconciled _ _ _ _ => True
  | .deleteMessage _ => True

/-! ## What the transactions do to a locked member -/

def Tables.LockedInto (s : Tables) (g t x : Nat) : Prop :=
  ∃ r ∈ s.members, r.IsLockedOf g x ∧ r.matterId = t

variable {s : Tables} {g x y : Nat}

theorem Tables.lockedTogether_iff :
    s.LockedTogether g x y ↔ ∃ t, s.LockedInto g t x ∧ s.LockedInto g t y := by
  constructor
  · rintro ⟨r, hr, hx, r', hr', hy, ht⟩
    exact ⟨r.matterId, ⟨r, hr, hx, rfl⟩, ⟨r', hr', hy, ht⟩⟩
  · rintro ⟨t, ⟨r, hr, hx, ht⟩, ⟨r', hr', hy, ht'⟩⟩
    exact ⟨r, hr, hx, r', hr', hy, ht'.trans ht.symm⟩

variable {s' : Tables}

theorem Tables.LockedTogether.imp {g' : Nat} (h : s.LockedTogether g x y)
    (hmove : ∀ t, s.LockedInto g t x → s.LockedInto g t y →
      ∃ t', s'.LockedInto g' t' x ∧ s'.LockedInto g' t' y) : s'.LockedTogether g' x y := by
  obtain ⟨t, hx, hy⟩ := Tables.lockedTogether_iff.1 h
  exact Tables.lockedTogether_iff.2 (hmove t hx hy)

variable {t : Nat}

theorem lockedInto_of_subset
    (h : ∀ r ∈ s.members, r.IsLockedOf g x → r ∈ s'.members) (hx : s.LockedInto g t x) :
    s'.LockedInto g t x := by
  obtain ⟨r, hr, hof, ht⟩ := hx
  exact ⟨r, h r hr hof, hof, ht⟩

theorem lockedTogether_of_subset
    (h : ∀ r ∈ s.members, r.membershipLocked = true → r.messageId = x ∨ r.messageId = y →
      r ∈ s'.members) (hxy : s.LockedTogether g x y) : s'.LockedTogether g x y := by
  apply hxy.imp
  intro t hx hy
  refine ⟨t, lockedInto_of_subset ?_ hx, lockedInto_of_subset ?_ hy⟩
  · intro r hr hof
    exact h r hr hof.2.2 (Or.inl hof.2.1)
  · intro r hr hof
    exact h r hr hof.2.2 (Or.inr hof.2.1)

theorem lockedTogether_written {a : Assignment} {locked : Option Nat}
    (hw : Written a locked s s') (h : s.LockedTogether g x y) : s'.LockedTogether g x y := by
  refine lockedTogether_of_subset ?_ h
  intro r hr hlocked _
  rw [hw.members]
  exact upsertMember_keeps hr (Or.inr hlocked)

theorem lockedTogether_merged {source target : Nat} {g' : Nat}
    (hm : Merged g source target s s') (h : s.LockedTogether g' x y) : s'.LockedTogether g' x y := by
  refine lockedTogether_of_subset ?_ h
  intro r hr hlocked _
  rw [hm.members]
  exact mem_updateWhere.2 ⟨r, hr, by simp [hlocked]⟩

theorem lockedTogether_deleteMessage {z : Nat} (hx : x ≠ z) (hy : y ≠ z)
    (h : s.LockedTogether g x y) : (deleteMessage z s).LockedTogether g x y := by
  refine lockedTogether_of_subset ?_ h
  rintro r hr _ (rfl | rfl)
  · exact List.mem_filter.2 ⟨hr, by simpa using hx⟩
  · exact List.mem_filter.2 ⟨hr, by simpa using hy⟩

variable {d : Decision}

theorem lockedInto_decided (hd : Decided d s s')
    (hfree : d.takes s x = false) (h : s.LockedInto g t x) : s'.LockedInto g t x := by
  obtain ⟨r, hr, ⟨hg, hx, hlocked⟩, ht⟩ := h
  by_cases hsel : d.selects r = true
  · have hconfirm : d.decision = .confirm := by
      by_contra hne
      have htakes : d.takes s x = true := by
        simp only [Decision.takes, Bool.and_eq_true, bne_iff_ne, ne_eq, List.any_eq_true,
          beq_iff_eq]
        exact ⟨hne, r, hr, hsel, hx⟩
      rw [hfree] at htakes
      cases htakes
    have hdest : d.destination = some d.matterId := by simp [Decision.destination, hconfirm]
    obtain ⟨r', hr', hg', hx', ht', hlocked'⟩ := carryOut_locks hr hsel hdest
    refine ⟨r', hd.members ▸ hr', ⟨hg'.trans hg, hx'.trans hx, hlocked'⟩, ?_⟩
    rw [ht', ← (Member.isSelected_iff.1 hsel).2.1, ht]
  · rw [Bool.not_eq_true] at hsel
    have hkept := carryOut_keeps hr hsel
    exact ⟨r, hd.members ▸ hkept, ⟨hg, hx, hlocked⟩, ht⟩

theorem lockedInto_joins (hd : Decided d s s')
    (ht : d.destination = some t) (hx : x ∈ d.joins s) : s'.LockedInto d.generationId t x := by
  simp only [Decision.joins, ht, List.mem_map, List.mem_filter, Bool.or_eq_true,
    Bool.and_eq_true, Member.isIn_iff] at hx
  obtain ⟨r, ⟨hr, hcase⟩, rfl⟩ := hx
  by_cases hsel : d.selects r = true
  · obtain ⟨r', hr', hg', hx', ht', hlocked'⟩ := carryOut_locks hr hsel ht
    have hg := (Member.isSelected_iff.1 hsel).1
    exact ⟨r', hd.members ▸ hr', ⟨hg'.trans hg, hx', hlocked'⟩, ht'⟩
  · rcases hcase with hcase | ⟨⟨hg, hin⟩, hlocked⟩
    · exact absurd hcase hsel
    · rw [Bool.not_eq_true] at hsel
      have hkept := carryOut_keeps hr hsel
      exact ⟨r, hd.members ▸ hkept, ⟨hg, rfl, hlocked⟩, hin⟩

variable {p : LockedPair}

theorem mem_newPairs :
    p ∈ d.newPairs s ↔ p.first ∈ d.joins s ∧ p.second ∈ d.joins s ∧ p.first ≠ p.second ∧
      p.decisionId = d.id := by
  simp only [Decision.newPairs, List.mem_map, List.mem_filter, bne_iff_ne, ne_eq, Prod.exists]
  constructor
  · rintro ⟨x, y, ⟨hxy, hne⟩, rfl⟩
    obtain ⟨hx, hy⟩ := List.pair_mem_product.1 hxy
    exact ⟨hx, hy, hne, rfl⟩
  · rintro ⟨hx, hy, hne, hid⟩
    refine ⟨p.first, p.second, ⟨List.pair_mem_product.2 ⟨hx, hy⟩, hne⟩, ?_⟩
    rw [← hid]

theorem lockedTogether_newPairs (hd : Decided d s s') (hp : p ∈ d.newPairs s) :
    s'.LockedTogether d.generationId p.first p.second := by
  obtain ⟨hx, hy, _, _⟩ := mem_newPairs.1 hp
  cases ht : d.destination with
  | none => simp [Decision.joins, ht] at hx
  | some t =>
    exact Tables.lockedTogether_iff.2 ⟨t, lockedInto_joins hd ht hx, lockedInto_joins hd ht hy⟩

theorem lockedTogether_elsewhere (hd : Decided d s s') (hg : g ≠ d.generationId) :
    s'.LockedTogether g x y ↔ s.LockedTogether g x y := by
  have hmem : ∀ r : Member, r.generationId = g → (r ∈ s'.members ↔ r ∈ s.members) := by
    intro r hrg
    rw [hd.members]
    constructor
    · intro hr
      rcases mem_carryOut hr with ⟨hold, _⟩ | ⟨r₀, _, hsel, hg₀, _⟩
      · exact hold
      · exact absurd (hrg.symm.trans (hg₀.trans (Member.isSelected_iff.1 hsel).1)) hg
    · intro hr
      apply carryOut_keeps hr
      rw [← Bool.not_eq_true]
      intro hsel
      exact hg (hrg.symm.trans (Member.isSelected_iff.1 hsel).1)
  constructor
  · rintro ⟨r, hr, hx, r', hr', hy, ht⟩
    exact ⟨r, (hmem r hx.1).1 hr, hx, r', (hmem r' hy.1).1 hr', hy, ht⟩
  · rintro ⟨r, hr, hx, r', hr', hy, ht⟩
    exact ⟨r, (hmem r hx.1).2 hr, hx, r', (hmem r' hy.1).2 hr', hy, ht⟩

variable {style : GroupingStyle}

variable {status : GenerationStatus}

/-- **A rebuild starts with what is locked together** in its source. -/
theorem lockedTogether_copied (hs : Sound s) (h : s.LockedTogether g x y) :
    (createGeneration style status (some g) s).LockedTogether s.nextId x y := by
  apply h.imp
  rintro t ⟨r, hr, ⟨hg, hx, hlocked⟩, ht⟩ hy
  -- The matter of the two is there, so that it has a copy.
  obtain ⟨m, hm, hmid, hmg⟩ := mem_matterKeys.1 (hs.housed r hr)
  have hprotected : m ∈ s.protectedMatters g := by
    simp only [Tables.protectedMatters, List.mem_filter, Bool.and_eq_true, beq_iff_eq,
      Bool.not_eq_true', List.isEmpty_eq_false_iff]
    refine ⟨hm, hmg.trans hg, List.ne_nil_of_mem (a := r) ?_⟩
    exact mem_lockedMembersOf.2 ⟨hr, hg, hmid.symm, hlocked⟩
  obtain ⟨i, hi⟩ : ∃ i, (m, i) ∈ s.copies g (s.nextId + 1) := exists_copy hprotected
  have hcopy : ∀ z, s.LockedInto g t z →
      (createGeneration style status (some g) s).LockedInto s.nextId i z := by
    rintro z ⟨r', hr', ⟨hg', hz, hlocked'⟩, ht'⟩
    have hmem : r' ∈ s.lockedMembersOf g m.id :=
      mem_lockedMembersOf.2 ⟨hr', hg', ht'.trans (ht.symm.trans hmid.symm), hlocked'⟩
    refine ⟨r'.copy s.nextId i, ?_, ⟨rfl, hz, rfl⟩, rfl⟩
    exact mem_createGeneration.2 (Or.inr ⟨g, rfl, (m, i), hi, r', hmem, rfl⟩)
  exact ⟨i, hcopy x ⟨r, hr, ⟨hg, hx, hlocked⟩, ht⟩, hcopy y hy⟩

/-! ## Rows after a request -/

theorem SameRows.lockedTogether (h : SameRows s s') :
    s'.LockedTogether g x y ↔ s.LockedTogether g x y := by
  unfold Tables.LockedTogether
  rw [h.members]

def RebuildsFrom (s s' : Tables) : Prop :=
  ∀ g ∈ s'.generations, g.isRebuild = true → ∃ g₀ ∈ s.generations, g₀.id = g.id ∧ g₀.isRebuild = true

theorem rebuildsFrom_updateWhere {p : Generation → Bool}
    {f : Generation → Generation} (hgens : s'.generations = updateWhere p f s.generations)
    (hf : ∀ g, p g = true → (f g).id = g.id ∧ ((f g).isRebuild = true → g.isRebuild = true)) :
    RebuildsFrom s s' := by
  intro g hg hr
  rw [hgens] at hg
  obtain ⟨g₀, h₀, rfl⟩ := mem_updateWhere.1 hg
  by_cases hp : p g₀ = true
  · rw [if_pos hp] at hr ⊢
    exact ⟨g₀, h₀, (hf g₀ hp).1.symm, (hf g₀ hp).2 hr⟩
  · rw [if_neg hp] at hr ⊢
    exact ⟨g₀, h₀, rfl, hr⟩

/-! ## The invariant -/

/-- What every run without a lost decision keeps. `copied` looks ahead: what was decided
before a rebuild was created is together in the rebuild. -/
structure Retained (w : Grouping) : Prop where
  lifecycle : Lifecycle w.tables
  sound : Sound w.tables
  decided : ∀ p ∈ w.pairs, p.decisionId < w.tables.nextId
  held : ∀ p ∈ w.pairs, ∃ g ∈ w.tables.currentGeneration, w.tables.LockedTogether g p.first p.second
  copied : ∀ g ∈ w.tables.generations, g.isRebuild = true → ∀ p ∈ w.pairs, p.decisionId < g.id →
    w.tables.LockedTogether g.id p.first p.second

variable {w : Grouping}

theorem held_iff (h : Lifecycle w.tables) :
    w.Held ↔ ∀ p ∈ w.pairs, ∃ g ∈ w.tables.currentGeneration,
      w.tables.LockedTogether g p.first p.second := by
  constructor
  · intro hheld p hp
    obtain ⟨g, hg, hactive, hxy⟩ := hheld p hp
    exact ⟨g.id, h.active_iff.1 ⟨g, hg, hactive, rfl⟩, hxy⟩
  · intro hheld p hp
    obtain ⟨i, hi, hxy⟩ := hheld p hp
    obtain ⟨g, hg, hactive, rfl⟩ := h.active_iff.2 hi
    exact ⟨g, hg, hactive, hxy⟩

/-- A transaction that keeps locked messages together, and changes neither the generations
nor the pairs other than by taking some out. -/
theorem Retained.of_frame {w' : Grouping} (h : Retained w) (hsound : Sound w'.tables)
    (hgens : w'.tables.generations = w.tables.generations)
    (hpointer : w'.tables.currentGeneration = w.tables.currentGeneration)
    (hprofiled : w'.tables.profile.isSome = w.tables.profile.isSome)
    (hnext : w.tables.nextId ≤ w'.tables.nextId) (hpairs : ∀ p ∈ w'.pairs, p ∈ w.pairs)
    (hkept : ∀ p ∈ w'.pairs, ∀ g, w.tables.LockedTogether g p.first p.second →
      w'.tables.LockedTogether g p.first p.second) : Retained w' where
  lifecycle := h.lifecycle.of_frame hgens hpointer hprofiled hnext
  sound := hsound
  decided := fun p hp => lt_of_lt_of_le (h.decided p (hpairs p hp)) hnext
  held := by
    intro p hp
    rw [hpointer]
    obtain ⟨g, hg, hxy⟩ := h.held p (hpairs p hp)
    exact ⟨g, hg, hkept p hp g hxy⟩
  copied := by
    intro g hg hr p hp hlt
    rw [hgens] at hg
    exact hkept p hp g.id (h.copied g hg hr p (hpairs p hp) hlt)

theorem mem_pairsAfter {pairs : List LockedPair} (hp : p ∈ pairsAfter d s pairs) :
    (p ∈ pairs ∧ d.takes s p.first = false ∧ d.takes s p.second = false) ∨ p ∈ d.newPairs s := by
  rcases List.mem_append.1 hp with hold | hnew
  · left
    simpa using List.mem_filter.1 hold
  · exact Or.inr hnew

theorem retained_decide {u : UserDecision}
    (h : Retained w) (hgood : DecidesHere w u) (hrecord : u.acceptedRecord w.tables = some d)
    (hd : Decided d w.tables s') : Retained ⟨s', pairsAfter d w.tables w.pairs⟩ := by
  have ha := accepted_of_record hrecord
  have hnext : w.tables.nextId ≤ s'.nextId := by
    rw [hd.nextId]
    exact Nat.le_succ _
  have hkept : ∀ p : LockedPair, d.takes w.tables p.first = false →
      d.takes w.tables p.second = false → ∀ g, w.tables.LockedTogether g p.first p.second →
        s'.LockedTogether g p.first p.second := by
    intro p hx hy g hxy
    apply hxy.imp
    intro t hlx hly
    exact ⟨t, lockedInto_decided hd hx hlx, lockedInto_decided hd hy hly⟩
  refine ⟨h.lifecycle.of_frame hd.generations hd.pointer hd.profiled hnext,
    sound_decided h.sound ha hd, ?_, ?_, ?_⟩
  · intro p hp
    show p.decisionId < s'.nextId
    rcases mem_pairsAfter hp with ⟨hold, _⟩ | hnew
    · exact lt_of_lt_of_le (h.decided p hold) hnext
    · rw [(mem_newPairs.1 hnew).2.2.2, ha.id, hd.nextId]
      exact Nat.lt_succ_self _
  · intro p hp
    show ∃ g ∈ s'.currentGeneration, s'.LockedTogether g p.first p.second
    rw [hd.pointer]
    rcases mem_pairsAfter hp with ⟨hold, hx, hy⟩ | hnew
    · obtain ⟨g, hg, hxy⟩ := h.held p hold
      exact ⟨g, hg, hkept p hx hy g hxy⟩
    by_cases hcurrent : w.tables.currentGeneration = some d.generationId
    · exact ⟨d.generationId, hcurrent, lockedTogether_newPairs hd hnew⟩
    · obtain ⟨g, hg, hxy⟩ := hgood d hrecord hcurrent p hnew
      have hne : g ≠ d.generationId := by
        rintro rfl
        exact hcurrent hg
      exact ⟨g, hg, (lockedTogether_elsewhere hd hne).2 hxy⟩
  · intro g hg hr p hp hlt
    have hg : g ∈ s'.generations := hg
    rw [hd.generations] at hg
    rcases mem_pairsAfter hp with ⟨hold, hx, hy⟩ | hnew
    · exact hkept p hx hy g.id (h.copied g hg hr p hold hlt)
    · -- The decision is younger than every generation.
      rw [(mem_newPairs.1 hnew).2.2.2, ha.id] at hlt
      exact absurd (h.lifecycle.idsBelow g hg) (Nat.not_lt.2 (Nat.le_of_lt hlt))

theorem Retained.of_sameRows (h : Retained w) (hrows : SameRows w.tables s')
    (hlifecycle : Lifecycle s') (hrebuilds : RebuildsFrom w.tables s')
    (hheld : ∀ p ∈ w.pairs, ∃ g ∈ s'.currentGeneration,
      w.tables.LockedTogether g p.first p.second) : Retained ⟨s', w.pairs⟩ where
  lifecycle := hlifecycle
  sound := hrows.sound h.sound
  decided := by
    intro p hp
    show p.decisionId < s'.nextId
    rw [hrows.nextId]
    exact h.decided p hp
  held := by
    intro p hp
    obtain ⟨g, hg, hxy⟩ := hheld p hp
    exact ⟨g, hg, hrows.lockedTogether.2 hxy⟩
  copied := by
    intro g hg hr p hp hlt
    obtain ⟨g₀, h₀, hid, hr₀⟩ := hrebuilds g hg hr
    apply hrows.lockedTogether.2
    show w.tables.LockedTogether g.id p.first p.second
    rw [← hid] at hlt ⊢
    exact h.copied g₀ h₀ hr₀ p hp hlt

theorem Retained.of_created (h : Retained w)
    (hrows : SameRows (createGeneration style status w.tables.currentGeneration w.tables) s')
    (hlifecycle : Lifecycle s')
    (hrebuilds : ∀ g ∈ s'.generations, g.isRebuild = true → g.id = w.tables.nextId ∨
      ∃ g₀ ∈ w.tables.generations, g₀.id = g.id ∧ g₀.isRebuild = true)
    (hpointer : ∀ g, w.tables.currentGeneration = some g → s'.currentGeneration = some g) :
    Retained ⟨s', w.pairs⟩ := by
  have hkept : ∀ g x y, w.tables.LockedTogether g x y → s'.LockedTogether g x y := by
    intro g x y hxy
    apply hrows.lockedTogether.2
    refine lockedTogether_of_subset ?_ hxy
    intro r hr _ _
    exact mem_createGeneration.2 (Or.inl hr)
  refine ⟨hlifecycle, hrows.sound (sound_createGeneration h.sound), ?_, ?_, ?_⟩
  · intro p hp
    show p.decisionId < s'.nextId
    have hnext := createGeneration_nextId style status w.tables.currentGeneration w.tables
    rw [hrows.nextId]
    exact Nat.lt_of_lt_of_le (h.decided p hp) (Nat.le_of_succ_le hnext)
  · intro p hp
    obtain ⟨g, hg, hxy⟩ := h.held p hp
    exact ⟨g, hpointer g hg, hkept g _ _ hxy⟩
  · intro g hg hr p hp hlt
    rcases hrebuilds g hg hr with hid | ⟨g₀, h₀, hid, hr₀⟩
    · obtain ⟨source, hsource, hxy⟩ := h.held p hp
      apply hrows.lockedTogether.2
      have hsource : w.tables.currentGeneration = some source := hsource
      show Tables.LockedTogether _ g.id p.first p.second
      rw [hid, hsource]
      exact lockedTogether_copied h.sound hxy
    · show s'.LockedTogether g.id p.first p.second
      rw [← hid] at hlt ⊢
      exact hkept _ _ _ (h.copied g₀ h₀ hr₀ p hp hlt)

/-! ## Requests -/

theorem SameRows.promote (i : Nat) (s : Tables) : SameRows s (promoteGeneration i s) := by
  obtain ⟨hmembers, hmatters, _, hnext, _⟩ := promoteGeneration_frame i s
  exact ⟨hmembers, hmatters, hnext⟩

theorem currentGeneration_promote {i : Nat} (hs : Lifecycle s)
    (h : s.promotable i = true) : (promoteGeneration i s).currentGeneration = some i := by
  have hpointed := (lifecycle_promote (i := i) hs).pointed
  rw [activeIds_promote hs h] at hpointed
  exact Option.mem_toList.1 (hpointed ▸ List.mem_singleton_self i)

theorem rebuildsFrom_promote (i : Nat) (s : Tables) : RebuildsFrom s (promoteGeneration i s) := by
  by_cases h : s.promotable i = true
  · intro g hg hr
    rw [(promoteGeneration_eq h).1] at hg
    obtain ⟨g₁, h₁, rfl⟩ := mem_updateWhere.1 hg
    by_cases hi : (g₁.id == i) = true
    · rw [if_pos hi] at hr
      simp [Generation.isRebuild, GenerationStatus.isRebuild] at hr
    rw [if_neg hi] at hr ⊢
    obtain ⟨g₀, h₀, rfl⟩ := mem_updateWhere.1 h₁
    by_cases ha : g₀.isActive = true
    · rw [if_pos ha] at hr
      simp [Generation.isRebuild, GenerationStatus.isRebuild] at hr
    · rw [if_neg ha] at hr ⊢
      exact ⟨g₀, h₀, rfl, hr⟩
  · rw [promoteGeneration_of_not (by simpa using h)]
    exact fun g hg hr => ⟨g, hg, rfl, hr⟩

/-- **A promotion keeps what is locked together when the rebuild has all of it.** -/
theorem retained_promote {i : Nat} (h : Retained w)
    (hgood : w.tables.promotable i = true → ∀ p ∈ w.pairs, i ≤ p.decisionId →
      w.tables.LockedTogether i p.first p.second) :
    Retained ⟨promoteGeneration i w.tables, w.pairs⟩ := by
  by_cases hi : w.tables.promotable i = true
  · refine h.of_sameRows (.promote i w.tables) (lifecycle_promote h.lifecycle)
      (rebuildsFrom_promote i w.tables) ?_
    intro p hp
    refine ⟨i, currentGeneration_promote h.lifecycle hi, ?_⟩
    rcases Nat.lt_or_ge p.decisionId i with hlt | hge
    · obtain ⟨g, hg, rfl, hr⟩ := promotable_iff.1 hi
      exact h.copied g hg hr p hp hlt
    · exact hgood hi p hp hge
  · rw [promoteGeneration_of_not (by simpa using hi)]
    exact h

variable {on : Bool}

theorem retained_updateProfile {u : ProfileUpdate}
    {built : Option Nat} (h : Retained w) (hu : updateProfile on u w.tables = some (s', built)) :
    Retained ⟨s', w.pairs⟩ := by
  have hlifecycle := lifecycle_updateProfile h.lifecycle hu
  have hnew : ∀ (style : GroupingStyle) (status : GenerationStatus) (consented enabled : Bool)
      (current : Option Nat), ∀ g ∈ (upsertProfile consented enabled style current
        (createGeneration style status w.tables.currentGeneration w.tables)).generations,
          g.isRebuild = true → g.id = w.tables.nextId ∨
            ∃ g₀ ∈ w.tables.generations, g₀.id = g.id ∧ g₀.isRebuild = true := by
    intro style status consented enabled current g hg hr
    rw [upsertProfile_generations, createGeneration_generations, List.mem_append,
      List.mem_singleton] at hg
    rcases hg with hg | rfl
    · exact Or.inr ⟨g, hg, rfl, hr⟩
    · exact Or.inl rfl
  rcases updateProfile_cases hu with ⟨hcurrent, _, _, rfl⟩ | ⟨_, rfl⟩ | ⟨g, hg, _, rfl⟩ | ⟨_, rfl⟩
  · -- The first generation has no source, like a profile without a current generation.
    rw [← hcurrent] at hlifecycle ⊢
    refine h.of_created ⟨rfl, rfl, rfl⟩ hlifecycle (hnew _ _ _ _ _) ?_
    intro g hg
    rw [hcurrent] at hg
    cases hg
  · refine h.of_created ⟨rfl, rfl, rfl⟩ hlifecycle (hnew _ _ _ _ _) ?_
    intro g hg
    rw [upsertProfile_currentGeneration]
    simp [Tables.currentGeneration] at hg ⊢
    simp [hg]
  · refine h.of_sameRows ⟨rfl, rfl, rfl⟩ hlifecycle ?_ ?_
    · exact rebuildsFrom_updateWhere rfl fun _ _ => ⟨rfl, id⟩
    · rw [upsertProfile_currentGeneration]
      show ∀ p ∈ w.pairs, ∃ i ∈ w.tables.currentGeneration.or (some g), _
      rw [hg]
      have hheld := h.held
      rw [hg] at hheld
      exact hheld
  · refine h.of_sameRows ⟨rfl, rfl, rfl⟩ hlifecycle (fun g hg hr => ⟨g, hg, rfl, hr⟩) ?_
    rw [upsertProfile_currentGeneration, Option.or_self]
    exact h.held

theorem startShadowGeneration_rows (h : startShadowGeneration style s = some s') :
    SameRows (createGeneration style .shadow s.currentGeneration s) s' := by
  unfold startShadowGeneration at h
  cases hp : s.profile with
  | none => simp [hp] at h
  | some p =>
    have hcurrent : s.currentGeneration = p.activeGenerationId := by
      simp [Tables.currentGeneration, hp]
    by_cases hc : p.consented = true
    · simp only [hp, if_pos hc, Option.some.injEq] at h
      subst h
      rw [hcurrent]
      cases p.activeGenerationId <;> exact ⟨rfl, rfl, rfl⟩
    · simp [hp, hc] at h

theorem retained_startShadow (h : Retained w)
    (hs : startShadowGeneration style w.tables = some s') : Retained ⟨s', w.pairs⟩ := by
  have hlifecycle := lifecycle_startShadow h.lifecycle hs
  obtain ⟨p, hp, _, hgens, _, hprofile⟩ := startShadowGeneration_cases hs
  refine h.of_created (startShadowGeneration_rows hs) hlifecycle ?_ ?_
  · intro g hg hr
    rw [hgens, List.mem_append, List.mem_singleton] at hg
    rcases hg with hg | rfl
    · obtain ⟨g₀, h₀, rfl⟩ := mem_updateWhere.1 hg
      by_cases hshadow : (g₀.status == .shadow) = true
      · rw [if_pos hshadow] at hr
        simp [Generation.isRebuild, GenerationStatus.isRebuild] at hr
      · rw [if_neg hshadow] at hr ⊢
        exact Or.inr ⟨g₀, h₀, rfl, hr⟩
    · exact Or.inl rfl
  · intro g hg
    simpa [Tables.currentGeneration, hp, hprofile] using hg

theorem retained_request {r : Request} (h : Retained w)
    (hgood : PromotesAll w r) : Retained (w.step on (.request r)) := by
  have hpromote : ∀ i, (r.promotes w.tables = if w.tables.promotable i then some i else none) →
      Retained ⟨promoteGeneration i w.tables, w.pairs⟩ := by
    intro i hr
    refine retained_promote h ?_
    intro hi
    rw [if_pos hi] at hr
    exact hgood i hr
  cases r with
  | updateProfile u =>
    cases hu : updateProfile on u w.tables with
    | none => simpa [Grouping.step, Request.run, hu] using h
    | some result =>
      obtain ⟨s', built⟩ := result
      simpa [Grouping.step, Request.run, hu] using retained_updateProfile h hu
  | startShadowGeneration style =>
    cases hs : startShadowGeneration style w.tables with
    | none => simpa [Grouping.step, Request.run, hs] using h
    | some s' => simpa [Grouping.step, Request.run, hs] using retained_startShadow h hs
  | finalizeGeneration status i =>
    cases status with
    | shadow =>
      refine h.of_sameRows ⟨rfl, rfl, rfl⟩ (lifecycle_complete h.lifecycle) ?_ h.held
      exact rebuildsFrom_updateWhere rfl fun _ _ => ⟨rfl, id⟩
    | building => exact hpromote i rfl
    | active | superseded | failed => exact h
  | promoteGeneration i => exact hpromote i rfl
  | deleteAiData =>
    refine ⟨lifecycle_delete, ?_, ?_, ?_, ?_⟩
    · constructor <;> simp [Grouping.step, Request.run, deleteAiData, Tables.matterKeys]
    · simp [Grouping.step]
    · simp [Grouping.step]
    · simp [Grouping.step]

/-! ## Runs -/

theorem retained_step {l : GroupingLabel} (h : Retained w)
    (hgood : Retaining w l) : Retained (w.step on l) := by
  cases l with
  | decide u =>
    rcases applyUserDecision_cases u w.tables with ⟨hnone, hsame⟩ | ⟨d, hrecord, hd⟩
    · simp only [Grouping.step, hnone, hsame]
      exact h
    · simp only [Grouping.step, hrecord]
      exact retained_decide h hgood hrecord hd
  | assign a locked =>
    cases hwrite : writeAssignment a locked w.tables with
    | none => simpa [Grouping.step, hwrite] using h
    | some s' =>
      have hw := writeAssignment_written hwrite
      simp only [Grouping.step, hwrite, Option.getD_some]
      refine h.of_frame (sound_writeAssignment h.sound h.lifecycle.idsBelow hwrite)
        hw.generations ?_ ?_ (Nat.le_of_lt hw.nextId) (fun _ hp => hp)
        (fun _ _ _ hxy => lockedTogether_written hw hxy)
      · simp [Tables.currentGeneration, hw.profile]
      · simp [hw.profile]
  | mergeReconciled g source target status =>
    rcases mergeReconciledMatters_cases g source target status w.tables with hsame | hm
    · simp only [Grouping.step, hsame]
      exact h
    · exact h.of_frame (sound_merged h.sound hm) hm.generations hm.pointer hm.profiled hm.nextId
        (fun _ hp => hp) (fun _ _ _ hxy => lockedTogether_merged hm hxy)
  | request r => exact retained_request h hgood
  | deleteMessage x =>
    refine h.of_frame ?_ rfl rfl rfl (Nat.le_refl _) ?_ ?_
    · apply h.sound.rewrite
      · intro r hr r' hr'
        exact h.sound.unique r (List.mem_filter.1 hr).1 r' (List.mem_filter.1 hr').1
      · exact fun r hr => h.sound.below r (List.mem_filter.1 hr).1
      · rfl
      · exact Nat.le_refl _
      · exact fun r hr => h.sound.housed r (List.mem_filter.1 hr).1
    · exact fun p hp => (List.mem_filter.1 hp).1
    · intro p hp g hxy
      have hfree := (List.mem_filter.1 hp).2
      simp only [Bool.and_eq_true, bne_iff_ne, ne_eq] at hfree
      exact lockedTogether_deleteMessage hfree.1 hfree.2 hxy

theorem retaining_of_held {l : GroupingLabel} (h : Retained w)
    (hheld : (w.step on l).Held) : Retaining w l := by
  cases l with
  | decide u =>
    intro d hrecord hcurrent p hp
    rcases applyUserDecision_cases u w.tables with ⟨hnone, _⟩ | ⟨d', hrecord', hd⟩
    · rw [hnone] at hrecord
      cases hrecord
    obtain rfl := Option.some.inj (hrecord.symm.trans hrecord')
    have hnext : w.tables.nextId ≤ (applyUserDecision u w.tables).nextId := by
      rw [hd.nextId]
      exact Nat.le_succ _
    have hlifecycle : Lifecycle (w.step on (.decide u)).tables :=
      h.lifecycle.of_frame hd.generations hd.pointer hd.profiled hnext
    obtain ⟨g, hg, hxy⟩ := (held_iff hlifecycle).1 hheld p (by
      simp only [Grouping.step, hrecord']
      exact List.mem_append_right _ hp)
    have hg : (applyUserDecision u w.tables).currentGeneration = some g := hg
    rw [hd.pointer] at hg
    have hne : g ≠ d.generationId := by
      rintro rfl
      exact hcurrent hg
    exact ⟨g, hg, (lockedTogether_elsewhere hd hne).1 hxy⟩
  | request r =>
    intro i hr p hp _
    have hrun : r.run on w.tables = promoteGeneration i w.tables ∧
        w.tables.promotable i = true ∧ r ≠ .deleteAiData := by
      unfold Request.promotes at hr
      split at hr
      · rename_i g
        by_cases hg : w.tables.promotable g = true
        · rw [if_pos hg] at hr
          obtain rfl := Option.some.inj hr
          exact ⟨rfl, hg, by simp⟩
        · simp [hg] at hr
      · rename_i g
        by_cases hg : w.tables.promotable g = true
        · rw [if_pos hg] at hr
          obtain rfl := Option.some.inj hr
          exact ⟨rfl, hg, by simp⟩
        · simp [hg] at hr
      · cases hr
    obtain ⟨hrun, hi, hne⟩ := hrun
    have hlifecycle : Lifecycle (w.step on (.request r)).tables := lifecycle_run on r h.lifecycle
    obtain ⟨g, hg, hxy⟩ := (held_iff hlifecycle).1 hheld p (by
      simpa [Grouping.step, hne] using hp)
    have hg : (r.run on w.tables).currentGeneration = some g := hg
    have hxy : (r.run on w.tables).LockedTogether g p.first p.second := hxy
    rw [hrun] at hg hxy
    rw [currentGeneration_promote h.lifecycle hi] at hg
    obtain rfl := Option.some.inj hg
    exact (SameRows.promote i w.tables).lockedTogether.1 hxy
  | assign | mergeReconciled | deleteMessage x => trivial

def Grouping.start (messages : List Message) : Grouping := ⟨Tables.fresh messages, []⟩

/-- Every transaction keeps the generations and the places of the messages, whatever it is. -/
theorem placed_step (l : GroupingLabel) (h : Lifecycle w.tables ∧ Sound w.tables) :
    Lifecycle (w.step on l).tables ∧ Sound (w.step on l).tables := by
  have hempty : Retained ⟨w.tables, []⟩ := by
    refine ⟨h.1, h.2, ?_, ?_, ?_⟩
    · simp
    · simp
    · simp
  cases l with
  | decide u =>
    rcases applyUserDecision_cases u w.tables with ⟨_, hsame⟩ | ⟨d, hrecord, hd⟩
    · simp only [Grouping.step, hsame]
      exact h
    · have hnext : w.tables.nextId ≤ (applyUserDecision u w.tables).nextId := by
        rw [hd.nextId]
        exact Nat.le_succ _
      exact ⟨h.1.of_frame hd.generations hd.pointer hd.profiled hnext,
        sound_decided h.2 (accepted_of_record hrecord) hd⟩
  | request r =>
    have hpromotes : PromotesAll ⟨w.tables, []⟩ r := by
      intro g hg p hp
      cases hp
    have hafter : Retained (Grouping.step on ⟨w.tables, []⟩ (.request r)) :=
      retained_request hempty hpromotes
    exact ⟨hafter.lifecycle, hafter.sound⟩
  | assign a locked =>
    have hafter : Retained (Grouping.step on ⟨w.tables, []⟩ (.assign a locked)) :=
      retained_step hempty trivial
    exact ⟨hafter.lifecycle, hafter.sound⟩
  | mergeReconciled g source target status =>
    have hafter : Retained (Grouping.step on ⟨w.tables, []⟩ (.mergeReconciled g source target status)) :=
      retained_step hempty trivial
    exact ⟨hafter.lifecycle, hafter.sound⟩
  | deleteMessage x =>
    have hafter : Retained (Grouping.step on ⟨w.tables, []⟩ (.deleteMessage x)) :=
      retained_step hempty trivial
    exact ⟨hafter.lifecycle, hafter.sound⟩

theorem placed_run (on : Bool) (messages : List Message) (ls : List GroupingLabel) :
    Throughout (Grouping.step on) (fun w => Lifecycle w.tables ∧ Sound w.tables)
      (Grouping.start messages) ls :=
  throughout_of_step (fun _ l h _ => placed_step l h)
    ⟨lifecycle_fresh messages, sound_fresh messages⟩ (along_of_forall (fun _ _ => trivial) _ ls)

/-- **One active generation.** At most one generation is active, the profile points to it and to
no other, and there are none without a profile. -/
theorem one_active_generation (on : Bool) (messages : List Message) (ls : List GroupingLabel) :
    Throughout (Grouping.step on) (fun w =>
      (∀ a ∈ w.tables.generations, ∀ b ∈ w.tables.generations,
        a.status = .active → b.status = .active → a = b) ∧
        (∀ i, (∃ g ∈ w.tables.generations, g.status = .active ∧ g.id = i) ↔
          w.tables.currentGeneration = some i) ∧
        (w.tables.profile = none → w.tables.generations = []))
      (Grouping.start messages) ls :=
  (placed_run on messages ls).mono fun _ h =>
    ⟨fun _ ha _ hb => h.1.one ha hb, fun _ => h.1.active_iff, h.1.profiled⟩

/-- **One place for a message.** A message has one row in a generation, whose matter is there and of
that generation, and an id names one matter. -/
theorem one_place (on : Bool) (messages : List Message) (ls : List GroupingLabel) :
    Throughout (Grouping.step on) (fun w =>
      (∀ r ∈ w.tables.members, ∀ r' ∈ w.tables.members, r.generationId = r'.generationId →
        r.messageId = r'.messageId → r = r') ∧
        (∀ r ∈ w.tables.members, ∃ m ∈ w.tables.matters,
          m.id = r.matterId ∧ m.generationId = r.generationId) ∧
        ∀ m ∈ w.tables.matters, ∀ m' ∈ w.tables.matters, m.id = m'.id → m = m')
      (Grouping.start messages) ls := by
  refine (placed_run on messages ls).mono fun w h => ⟨h.2.unique, fun r hr => ?_, ?_⟩
  · exact mem_matterKeys.1 (h.2.housed r hr)
  · exact fun m hm m' hm' => h.2.matter_unique hm hm'

/-- **What a user has locked together stays together in the active generation** in exactly
those runs in which no step loses a decision. -/
theorem locked_stay_together (on : Bool) (messages : List Message) (ls : List GroupingLabel) :
    Throughout (Grouping.step on) Grouping.Held (Grouping.start messages) ls ↔
      Along (Grouping.step on) Retaining (Grouping.start messages) ls := by
  have hstart : Retained (Grouping.start messages) := by
    refine ⟨lifecycle_fresh messages, sound_fresh messages, ?_, ?_, ?_⟩
    · simp [Grouping.start]
    · simp [Grouping.start]
    · simp [Grouping.start]
  refine throughout_iff_along ?_ ?_ ?_ hstart
  · exact fun w hw => (held_iff hw.lifecycle).2 hw.held
  · exact fun w l hw hl => retained_step hw hl
  · exact fun w l hw hheld => retaining_of_held hw hheld

/-- Two messages come into matter 1 of the first generation. A rebuild in another style is
begun, the user confirms the matter, and the rebuild is promoted. -/
def confirmedDuringRebuild : List GroupingLabel :=
  [.request (.updateProfile ⟨some true, some true, none, false⟩),
   .assign ⟨0, 1, none, .needsYou, [], false, .model⟩ none,
   .assign ⟨0, 2, some 1, .needsYou, [], false, .model⟩ none,
   .request (.updateProfile ⟨none, none, some .broader, true⟩),
   .decide ⟨"confirm", .confirm, 1, none, [1, 2], 2⟩,
   .request (.finalizeGeneration .building 3)]

/-- The rebuild was created before the confirmation, and becomes active without it. -/
theorem confirmation_lost :
    ¬ Throughout (Grouping.step true) Grouping.Held (Grouping.start [⟨1, 10⟩, ⟨2, 20⟩])
      confirmedDuringRebuild := by
  intro h
  have hheld := h.last
  revert hheld
  decide +kernel

end ElectronicMail.Matters
