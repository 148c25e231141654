import ElectronicMail.Matters.Members

/-!
# Separated messages stay apart

A user who separates messages says that they are never to be put together again. The
separation is a row of `matter_decisions` that names the selected messages and the others
that were members of the matter. Three queries look at these rows: the worker reads
`separated_matter_ids_for_message` before it asks the models, a merge of reconciled
matters looks at the decisions of its own generation, and the decision itself removes the
selected messages in its own generation.

Each of the three misses something: the worker writes what was right when it read, the
merge does not see the decisions of another generation, and another generation may have
the messages together already. `Respectful` excludes the steps in which this matters, and
`separated_stay_apart` is the law for all other runs.
-/

namespace ElectronicMail.Matters

open Foundations

/-! ## Workers between their reads and their writes -/

/-- What a worker that organizes a message has read: the matters it must not select, and
then, in the transaction of the assignment, the matter that the message is locked into. -/
structure OrganizeRead where
  generationId : Nat
  messageId : Nat
  forbidden : List Nat
  locked : Option (Option Nat)

structure Answer where
  selectedMatterId : Option Nat
  status : MatterStatus
  subgoals : List SubgoalUpdate
  provisional : Bool
  membershipSource : MembershipSource

def OrganizeRead.assignment (r : OrganizeRead) (answer : Answer) : Assignment :=
  ⟨r.generationId, r.messageId, answer.selectedMatterId, answer.status, answer.subgoals,
    answer.provisional, answer.membershipSource⟩

/-- The tables with the reads of the workers. `apart` lists the pairs that a user has
separated and not put together since. -/
structure Workshop where
  tables : Tables
  reads : Nat → Option OrganizeRead
  apart : List (Nat × Nat)

inductive WorkshopLabel where
  | readSeparated (k generationId messageId : Nat)
  | readLocked (k : Nat)
  | write (k : Nat) (answer : Answer)
  | mergeReconciled (generationId sourceMatterId targetMatterId : Nat) (status : MatterStatus)
  | decide (u : UserDecision)
  | createGeneration (groupingStyle : GroupingStyle) (status : GenerationStatus)
      (sourceGenerationId : Option Nat)
  | promoteGeneration (generationId : Nat)

def Tables.areTogether (s : Tables) (generationId matterId x y : Nat) : Bool :=
  (s.messageIdsOf generationId matterId).contains x &&
    (s.messageIdsOf generationId matterId).contains y

/-- The separated pairs after a decision: those it separates are added, and those it has
put together are taken out. `s` are the tables after the decision. -/
def apartAfter (d : Decision) (s : Tables) (apart : List (Nat × Nat)) : List (Nat × Nat) :=
  match d.decision with
  | .confirm => apart
  | .separate => apart ++ d.messageIds.product d.otherMessageIds
  | .merge | .move =>
    apart.filter fun p =>
      !s.areTogether d.generationId (d.targetMatterId.getD d.matterId) p.1 p.2

def Workshop.step (w : Workshop) : WorkshopLabel → Workshop
  | .readSeparated k g x =>
    { w with
      reads := Function.update w.reads k
        (some ⟨g, x, w.tables.separatedMatterIdsForMessage g x, none⟩) }
  | .readLocked k =>
    match w.reads k with
    | none => w
    | some r =>
      { w with
        reads := Function.update w.reads k
          (some { r with locked := some (w.tables.lockedMatterId r.generationId r.messageId) }) }
  | .write k answer =>
    match w.reads k with
    | none => w
    | some r =>
      match r.locked with
      | none => w
      | some locked =>
        -- The candidates given to the models are those that are not forbidden.
        if answer.selectedMatterId.any r.forbidden.contains then w
        else
          { w with
            tables := (writeAssignment (r.assignment answer) locked w.tables).getD w.tables
            reads := Function.update w.reads k none }
  | .mergeReconciled g source target status =>
    { w with tables := mergeReconciledMatters g source target status w.tables }
  | .decide u =>
    { w with
      tables := applyUserDecision u w.tables
      apart := match u.acceptedRecord w.tables with
        | none => w.apart
        | some d => apartAfter d (applyUserDecision u w.tables) w.apart }
  | .createGeneration style status source =>
    { w with tables := createGeneration style status source w.tables }
  | .promoteGeneration g => { w with tables := promoteGeneration g w.tables }

def Workshop.KeptApart (w : Workshop) : Prop :=
  ∀ r ∈ w.tables.members, ∀ r' ∈ w.tables.members, r.generationId = r'.generationId →
    r.matterId = r'.matterId → (r.messageId, r'.messageId) ∉ w.apart

/-- A worker that writes an unlocked message finds none that is separated from it in the
matter it writes. -/
def WriteRespects (w : Workshop) (k : Nat) (answer : Answer) : Prop :=
  ∀ r ∈ w.reads k, ∀ locked ∈ r.locked,
    w.tables.lockedMatterId r.generationId r.messageId = none →
      ∀ y ∈ w.tables.messageIdsOf r.generationId
          ((r.assignment answer).matterId locked w.tables),
        (r.messageId, y) ∉ w.apart ∧ (y, r.messageId) ∉ w.apart

/-- A merge of reconciled matters finds no members on both sides that a decision of
another generation keeps apart. -/
def MergeRespects (w : Workshop) (g source target : Nat) : Prop :=
  ∀ d ∈ w.tables.decisions, d.generationId ≠ g →
    ∀ x ∈ w.tables.messageIdsOf g source, ∀ y ∈ w.tables.messageIdsOf g target,
      d.separates x y = true → (x, y) ∉ w.apart ∧ (y, x) ∉ w.apart

/-- A separation finds its messages apart in all the other generations. -/
def SeparationRespects (w : Workshop) (u : UserDecision) : Prop :=
  ∀ d ∈ u.acceptedRecord w.tables, d.decision = .separate →
    ∀ r ∈ w.tables.members, ∀ r' ∈ w.tables.members, r.generationId = r'.generationId →
      r.matterId = r'.matterId → r.generationId ≠ d.generationId →
        ¬ (r.messageId ∈ d.messageIds ∧ r'.messageId ∈ d.otherMessageIds)

def Respectful (w : Workshop) : WorkshopLabel → Prop
  | .write k answer => WriteRespects w k answer
  | .mergeReconciled g source target _ => MergeRespects w g source target
  | .decide u => SeparationRespects w u
  | .readSeparated _ _ _ => True
  | .readLocked _ => True
  | .createGeneration _ _ _ => True
  | .promoteGeneration _ => True

instance (w : Workshop) : (l : WorkshopLabel) → Decidable (Respectful w l)
  | .write k answer => inferInstanceAs (Decidable (∀ r ∈ w.reads k, ∀ locked ∈ r.locked,
      w.tables.lockedMatterId r.generationId r.messageId = none →
        ∀ y ∈ w.tables.messageIdsOf r.generationId
            ((r.assignment answer).matterId locked w.tables),
          (r.messageId, y) ∉ w.apart ∧ (y, r.messageId) ∉ w.apart))
  | .mergeReconciled g source target _ => inferInstanceAs (Decidable
      (∀ d ∈ w.tables.decisions, d.generationId ≠ g →
        ∀ x ∈ w.tables.messageIdsOf g source, ∀ y ∈ w.tables.messageIdsOf g target,
          d.separates x y = true → (x, y) ∉ w.apart ∧ (y, x) ∉ w.apart))
  | .decide u => inferInstanceAs (Decidable (∀ d ∈ u.acceptedRecord w.tables,
      d.decision = .separate →
        ∀ r ∈ w.tables.members, ∀ r' ∈ w.tables.members, r.generationId = r'.generationId →
          r.matterId = r'.matterId → r.generationId ≠ d.generationId →
            ¬ (r.messageId ∈ d.messageIds ∧ r'.messageId ∈ d.otherMessageIds)))
  | .readSeparated _ _ _ | .readLocked _ | .createGeneration _ _ _ | .promoteGeneration _ =>
    inferInstanceAs (Decidable True)

/-! ## The invariant -/

structure ApartKept (w : Workshop) : Prop where
  sound : Sound w.tables
  generations : ∀ g ∈ w.tables.generations, g.id < w.tables.nextId
  recorded : ∀ x y, (x, y) ∈ w.apart → x ≠ y ∧ ∃ d ∈ w.tables.decisions, d.separates x y = true
  apart : w.KeptApart

theorem separates_comm (d : Decision) (x y : Nat) : d.separates x y = d.separates y x := by
  simp [Decision.separates, Bool.or_comm]

variable {w : Workshop}

/-- The members that moved together before the step are no concern of it: it is enough to
look at the pairs that the step has put together. -/
theorem keptApart_of {w' : Workshop} (h : w.KeptApart)
    (hapart : ∀ x y, (x, y) ∈ w'.apart → (x, y) ∈ w.apart)
    (hmembers : ∀ r ∈ w'.tables.members, ∀ r' ∈ w'.tables.members,
      r.generationId = r'.generationId → r.matterId = r'.matterId →
        (∃ r₀ ∈ w.tables.members, ∃ r₀' ∈ w.tables.members,
          r₀.generationId = r₀'.generationId ∧ r₀.matterId = r₀'.matterId ∧
            r₀.messageId = r.messageId ∧ r₀'.messageId = r'.messageId) ∨
        (r.messageId, r'.messageId) ∉ w'.apart) :
    w'.KeptApart := by
  intro r hr r' hr' hg ht hin
  rcases hmembers r hr r' hr' hg ht with ⟨r₀, h₀, r₀', h₀', hg₀, ht₀, hx, hx'⟩ | hout
  · apply h r₀ h₀ r₀' h₀' hg₀ ht₀
    rw [hx, hx']
    exact hapart _ _ hin
  · exact hout hin

variable {s : Tables} {g x : Nat}

theorem lockedMatterId_eq_none :
    s.lockedMatterId g x = none ↔
      ∀ r ∈ s.members, r.isOf g x = true → r.membershipLocked = false := by
  unfold Tables.lockedMatterId
  rw [Option.map_eq_none_iff, List.find?_eq_none]
  constructor
  · intro h r hr hof
    have := h r hr
    simpa [hof] using this
  · intro h r hr
    by_cases hof : r.isOf g x = true
    · simp [h r hr hof]
    · simp [hof]

variable {s' : Tables}

theorem apartKept_write {k : Nat} {answer : Answer} {r : OrganizeRead}
    {locked : Option Nat} (h : ApartKept w) (hr : w.reads k = some r)
    (hlocked : r.locked = some locked) (hgood : WriteRespects w k answer)
    (hwrite : writeAssignment (r.assignment answer) locked w.tables = some s') :
    ApartKept { w with tables := s', reads := Function.update w.reads k none } := by
  have hw := writeAssignment_written hwrite
  refine ⟨sound_writeAssignment h.sound h.generations hwrite, ?_, ?_, ?_⟩
  · intro g hg
    have hg : g ∈ s'.generations := hg
    rw [hw.generations] at hg
    exact Nat.lt_trans (h.generations g hg) hw.nextId
  · intro x y hxy
    show x ≠ y ∧ ∃ d ∈ s'.decisions, d.separates x y = true
    rw [hw.decisions]
    exact h.recorded x y hxy
  · have hkey : ∀ r₁ ∈ w.tables.members, ∀ r₂ ∈ w.tables.members,
        r₁.isOf r.generationId r.messageId = true → r₂.isOf r.generationId r.messageId = true →
          r₁ = r₂ := by
      intro r₁ h₁ r₂ h₂ hof₁ hof₂
      obtain ⟨hg₁, hx₁⟩ := Member.isOf_iff.1 hof₁
      obtain ⟨hg₂, hx₂⟩ := Member.isOf_iff.1 hof₂
      exact h.sound.unique r₁ h₁ r₂ h₂ (hg₁.trans hg₂.symm) (hx₁.trans hx₂.symm)
    -- A message that is written is not locked, and respects its new matter.
    have hnew : (∀ r₀ ∈ w.tables.members, r₀.isOf r.generationId r.messageId = true →
        r₀.membershipLocked = false) → ∀ r' ∈ w.tables.members,
          r'.generationId = r.generationId →
            r'.matterId = (r.assignment answer).matterId locked w.tables →
              (r.messageId, r'.messageId) ∉ w.apart ∧ (r'.messageId, r.messageId) ∉ w.apart := by
      intro hfree r' hr' hg ht
      apply hgood r hr locked hlocked (lockedMatterId_eq_none.2 hfree)
      exact Tables.mem_messageIdsOf.2 ⟨r', hr', hg, ht, rfl⟩
    refine keptApart_of h.apart (fun _ _ hxy => hxy) ?_
    intro m hm m' hm' hg ht
    have hm : m ∈ s'.members := hm
    have hm' : m' ∈ s'.members := hm'
    rw [hw.members] at hm hm'
    rcases mem_upsertMember rfl hkey hm with ⟨hold, _⟩ | ⟨hmg, hmx, hmt, _, hfree⟩
    · rcases mem_upsertMember rfl hkey hm' with ⟨hold', _⟩ | ⟨hmg', hmx', hmt', _, hfree'⟩
      · exact Or.inl ⟨m, hold, m', hold', hg, ht, rfl, rfl⟩
      · right
        rw [hmx']
        exact (hnew hfree' m hold (hg.trans hmg') (ht.trans hmt')).2
    · rcases mem_upsertMember rfl hkey hm' with ⟨hold', _⟩ | ⟨hmg', hmx', hmt', _, hfree'⟩
      · right
        rw [hmx]
        exact (hnew hfree m' hold' (hg.symm.trans hmg) (ht.symm.trans hmt)).1
      · right
        intro hin
        exact (h.recorded _ _ hin).1 (hmx.trans hmx'.symm)

theorem apartKept_merge {source target : Nat} (h : ApartKept w)
    (hgood : MergeRespects w g source target) (hm : Merged g source target w.tables s') :
    ApartKept { w with tables := s' } := by
  refine ⟨sound_merged h.sound hm, ?_, ?_, ?_⟩
  · intro x hx
    have hx : x ∈ s'.generations := hx
    rw [hm.generations] at hx
    exact lt_of_lt_of_le (h.generations x hx) hm.nextId
  · intro x y hxy
    show x ≠ y ∧ ∃ d ∈ s'.decisions, d.separates x y = true
    rw [hm.decisions]
    exact h.recorded x y hxy
  · -- No decision separates a member of the source from one of the target.
    have hcross : ∀ r₀ ∈ w.tables.members, ∀ r₀' ∈ w.tables.members, r₀.generationId = g →
        r₀.matterId = source → r₀'.generationId = g → r₀'.matterId = target →
          (r₀.messageId, r₀'.messageId) ∉ w.apart ∧ (r₀'.messageId, r₀.messageId) ∉ w.apart := by
      intro r₀ h₀ r₀' h₀' hg hs hg' ht'
      have hx : r₀.messageId ∈ w.tables.messageIdsOf g source :=
        Tables.mem_messageIdsOf.2 ⟨r₀, h₀, hg, hs, rfl⟩
      have hy : r₀'.messageId ∈ w.tables.messageIdsOf g target :=
        Tables.mem_messageIdsOf.2 ⟨r₀', h₀', hg', ht', rfl⟩
      obtain ⟨_, _, _, _, hallowed⟩ := mergeable_facts hm.mergeable
      have hnone : ∀ d ∈ w.tables.decisions,
          d.separates r₀.messageId r₀'.messageId = true →
            (r₀.messageId, r₀'.messageId) ∉ w.apart ∧ (r₀'.messageId, r₀.messageId) ∉ w.apart := by
        intro d hd hsep
        by_cases hdg : d.generationId = g
        · have hprohibited : w.tables.prohibited g source target = true := by
            simp only [Tables.prohibited, List.any_eq_true, Bool.and_eq_true, beq_iff_eq]
            exact ⟨d, hd, hdg, _, hx, _, hy, hsep⟩
          rw [hallowed] at hprohibited
          cases hprohibited
        · exact hgood d hd hdg _ hx _ hy hsep
      constructor
      · intro hin
        obtain ⟨d, hd, hsep⟩ := (h.recorded _ _ hin).2
        exact (hnone d hd hsep).1 hin
      · intro hin
        obtain ⟨d, hd, hsep⟩ := (h.recorded _ _ hin).2
        rw [separates_comm] at hsep
        exact (hnone d hd hsep).2 hin
    refine keptApart_of h.apart (fun _ _ hxy => hxy) ?_
    intro r hr r' hr' hg ht
    obtain ⟨r₀, h₀, hrg, hrx, _, hcase⟩ := mem_merged hm hr
    obtain ⟨r₀', h₀', hrg', hrx', _, hcase'⟩ := mem_merged hm hr'
    have hg₀ : r₀.generationId = r₀'.generationId := hrg.symm.trans (hg.trans hrg')
    rcases hcase with ⟨hrt, _⟩ | ⟨hin, hsrc, htgt, _⟩
    · rcases hcase' with ⟨hrt', _⟩ | ⟨hin', hsrc', htgt', _⟩
      · exact Or.inl ⟨r₀, h₀, r₀', h₀', hg₀, hrt.symm.trans (ht.trans hrt'), hrx.symm, hrx'.symm⟩
      · right
        rw [hrx, hrx']
        have htarget : r₀.matterId = target := hrt.symm.trans (ht.trans htgt')
        exact (hcross r₀' h₀' r₀ h₀ hin' hsrc' (hg₀.trans hin') htarget).2
    · rcases hcase' with ⟨hrt', _⟩ | ⟨hin', hsrc', htgt', _⟩
      · right
        rw [hrx, hrx']
        have htarget : r₀'.matterId = target := hrt'.symm.trans (ht.symm.trans htgt)
        exact (hcross r₀ h₀ r₀' h₀' hin hsrc (hg₀.symm.trans hin) htarget).1
      · exact Or.inl ⟨r₀, h₀, r₀', h₀', hg₀, hsrc.trans hsrc'.symm, hrx.symm, hrx'.symm⟩

variable {d : Decision} {y : Nat}

theorem mem_separated {u : UserDecision} (ha : Accepted u d s) (hd : d.decision = .separate)
    (hxy : (x, y) ∈ d.messageIds.product d.otherMessageIds) :
    x ∈ d.messageIds ∧ y ∈ d.otherMessageIds ∧ x ≠ y ∧ d.separates x y = true := by
  obtain ⟨hx, hy⟩ := List.pair_mem_product.1 hxy
  refine ⟨hx, hy, ?_, ?_⟩
  · rintro rfl
    exact ((ha.others hd x).1 hy).2 hx
  · simp [Decision.separates, hd, hx, hy]

theorem mem_areTogether {t : Nat} {r r' : Member} (hr : r ∈ s.members)
    (hr' : r' ∈ s.members) (hg : r.generationId = g) (hg' : r'.generationId = g)
    (ht : r.matterId = t) (ht' : r'.matterId = t) :
    s.areTogether g t r.messageId r'.messageId = true := by
  simp only [Tables.areTogether, Bool.and_eq_true, List.contains_iff_mem, Tables.mem_messageIdsOf]
  exact ⟨⟨r, hr, hg, ht, rfl⟩, ⟨r', hr', hg', ht', rfl⟩⟩

variable {apart : List (Nat × Nat)}

theorem apartAfter_cases (h : (x, y) ∈ apartAfter d s apart) :
    (x, y) ∈ apart ∨ (d.decision = .separate ∧ (x, y) ∈ d.messageIds.product d.otherMessageIds) := by
  unfold apartAfter at h
  cases hd : d.decision with
  | confirm =>
    rw [hd] at h
    exact Or.inl h
  | separate =>
    rw [hd] at h
    rcases List.mem_append.1 h with h | h
    · exact Or.inl h
    · exact Or.inr ⟨rfl, h⟩
  | merge | move =>
    rw [hd] at h
    exact Or.inl (List.mem_filter.1 h).1

theorem not_apartAfter (hd : d.decision = .merge ∨ d.decision = .move)
    (h : s.areTogether d.generationId (d.targetMatterId.getD d.matterId) x y = true) :
    (x, y) ∉ apartAfter d s apart := by
  intro hin
  rcases hd with hd | hd
  · simp [apartAfter, hd, h] at hin
  · simp [apartAfter, hd, h] at hin

theorem apartKept_decide {u : UserDecision}
    (h : ApartKept w) (hgood : SeparationRespects w u) (hrecord : u.acceptedRecord w.tables = some d)
    (hd : Decided d w.tables s') :
    ApartKept { w with tables := s', apart := apartAfter d s' w.apart } := by
  have ha := accepted_of_record hrecord
  refine ⟨sound_decided h.sound ha hd, ?_, ?_, ?_⟩
  · intro x hx
    have hx : x ∈ s'.generations := hx
    rw [hd.generations] at hx
    have hnext : s'.nextId = w.tables.nextId + 1 := hd.nextId
    show x.id < s'.nextId
    rw [hnext]
    exact Nat.lt_succ_of_lt (h.generations x hx)
  · intro x y hxy
    show x ≠ y ∧ ∃ e ∈ s'.decisions, e.separates x y = true
    rw [hd.decisions]
    rcases apartAfter_cases hxy with hold | ⟨hkind, hnew⟩
    · obtain ⟨hne, e, he, hsep⟩ := h.recorded x y hold
      exact ⟨hne, e, List.mem_append_left _ he, hsep⟩
    · obtain ⟨_, _, hne, hsep⟩ := mem_separated ha hkind hnew
      exact ⟨hne, d, by simp, hsep⟩
  · intro r hr r' hr' hg ht hin
    have hr : r ∈ s'.members := hr
    have hr' : r' ∈ s'.members := hr'
    have hmr : r ∈ (d.carryOut w.tables).members := hd.members ▸ hr
    have hmr' : r' ∈ (d.carryOut w.tables).members := hd.members ▸ hr'
    -- A pair in the destination of a merge or a move has been put together by it.
    have hdestination : d.destination = some r.matterId → r.generationId = d.generationId →
        d.decision = .confirm := by
      intro hdest hrg
      unfold Decision.destination at hdest
      cases hk : d.decision with
      | confirm => rfl
      | separate =>
        rw [hk] at hdest
        cases hdest
      | merge =>
        rw [hk] at hdest
        have ht₁ := (Option.some.inj hdest).symm
        exact absurd hin (not_apartAfter (Or.inl hk)
          (mem_areTogether hr hr' hrg (hg.symm.trans hrg) ht₁ (ht.symm.trans ht₁)))
      | move =>
        rw [hk] at hdest
        have ht₁ := (Option.some.inj hdest).symm
        exact absurd hin (not_apartAfter (Or.inr hk)
          (mem_areTogether hr hr' hrg (hg.symm.trans hrg) ht₁ (ht.symm.trans ht₁)))
    -- Where the two were before the decision.
    have hbefore : ∀ m : Member, m ∈ (d.carryOut w.tables).members →
        m.generationId = r.generationId → m.matterId = r.matterId →
          ∃ m₀ ∈ w.tables.members, m₀.generationId = m.generationId ∧
            m₀.messageId = m.messageId ∧ m₀.matterId = m.matterId ∧
            (d.decision = .separate → d.selects m₀ = false) := by
      intro m hm hmg hmt
      rcases mem_carryOut hm with ⟨hold, hsel⟩ | ⟨m₀, h₀, hsel, hg₀, hx₀, _, hdest⟩
      · exact ⟨m, hold, rfl, rfl, rfl, fun _ => hsel⟩
      obtain ⟨hsg, hst, _⟩ := Member.isSelected_iff.1 hsel
      have hconfirm : d.decision = .confirm := by
        apply hdestination
        · rw [← hmt]
          exact hdest
        · rw [← hmg, hg₀]
          exact hsg
      refine ⟨m₀, h₀, hg₀.symm, hx₀.symm, ?_, ?_⟩
      · have : some d.matterId = some m.matterId := by
          rw [← hdest, Decision.destination, hconfirm]
        exact hst.trans (Option.some.inj this)
      · intro hk
        rw [hk] at hconfirm
        cases hconfirm
    obtain ⟨m, hm, hmg, hmx, hmt, hfree⟩ := hbefore r hmr rfl rfl
    obtain ⟨m', hm', hmg', hmx', hmt', _⟩ := hbefore r' hmr' hg.symm ht.symm
    have hgg : m.generationId = m'.generationId := hmg.trans (hg.trans hmg'.symm)
    have htt : m.matterId = m'.matterId := hmt.trans (ht.trans hmt'.symm)
    rcases apartAfter_cases hin with hold | ⟨hkind, hnew⟩
    · apply h.apart m hm m' hm' hgg htt
      rw [hmx, hmx']
      exact hold
    · obtain ⟨hx, hy, _, _⟩ := mem_separated ha hkind hnew
      rw [← hmx] at hx
      rw [← hmx'] at hy
      by_cases hsame : m.generationId = d.generationId
      · -- In its own generation the decision has removed the selected message.
        obtain ⟨⟨m₁, h₁, hg₁, ht₁, hx₁⟩, _⟩ := (ha.others hkind m'.messageId).1 hy |>.imp_left
          Tables.mem_messageIdsOf.1
        have : m₁ = m' := h.sound.unique m₁ h₁ m' hm' (hg₁.trans (hsame.symm.trans hgg)) hx₁
        rw [this] at ht₁
        have hsel : d.selects m = true :=
          Member.isSelected_iff.2 ⟨hsame, htt.trans ht₁, hx⟩
        rw [hfree hkind] at hsel
        cases hsel
      · exact hgood d hrecord hkind m hm m' hm' hgg htt hsame ⟨hx, hy⟩

theorem apartKept_create (style : GroupingStyle) (status : GenerationStatus)
    (source : Option Nat) (h : ApartKept w) :
    ApartKept { w with tables := createGeneration style status source w.tables } := by
  have hnext : w.tables.nextId < (createGeneration style status source w.tables).nextId :=
    createGeneration_nextId style status source w.tables
  refine ⟨sound_createGeneration h.sound, ?_, ?_, ?_⟩
  · intro g hg
    have hg : g ∈ (createGeneration style status source w.tables).generations := hg
    rw [createGeneration_generations, List.mem_append, List.mem_singleton] at hg
    rcases hg with hg | rfl
    · exact Nat.lt_trans (h.generations g hg) hnext
    · exact hnext
  · intro x y hxy
    obtain ⟨hne, d, hd, hsep⟩ := h.recorded x y hxy
    refine ⟨hne, d, ?_, hsep⟩
    cases source <;> exact hd
  · refine keptApart_of h.apart (fun _ _ hxy => hxy) ?_
    intro r hr r' hr' hg ht
    rcases mem_createGeneration.1 hr with hold | ⟨g, rfl, c, hc, r₀, h₀, rfl⟩
    · rcases mem_createGeneration.1 hr' with hold' | ⟨g, rfl, c, hc, r₀, h₀, rfl⟩
      · exact Or.inl ⟨r, hold, r', hold', hg, ht, rfl, rfl⟩
      · have := h.sound.below r hold
        rw [hg] at this
        exact absurd this (Nat.lt_irrefl _)
    · rcases mem_createGeneration.1 hr' with hold' | ⟨g', hg', c', hc', r₀', h₀', rfl⟩
      · have := h.sound.below r' hold'
        rw [← hg] at this
        exact absurd this (Nat.lt_irrefl _)
      · obtain rfl := Option.some.inj hg'
        -- Copies in one new matter come from one matter of the source.
        have hcc : c = c' := copies_injective hc hc' ht
        obtain ⟨hm₀, hg₀, ht₀, _⟩ := mem_lockedMembersOf.1 h₀
        obtain ⟨hm₀', hg₀', ht₀', _⟩ := mem_lockedMembersOf.1 h₀'
        refine Or.inl ⟨r₀, hm₀, r₀', hm₀', hg₀.trans hg₀'.symm, ?_, rfl, rfl⟩
        rw [ht₀, ht₀', hcc]

theorem apartKept_promote (i : Nat) (h : ApartKept w) :
    ApartKept { w with tables := promoteGeneration i w.tables } := by
  obtain ⟨hmembers, hmatters, hdecisions, hnext, hids⟩ := promoteGeneration_frame i w.tables
  have hkeys : (promoteGeneration i w.tables).matterKeys = w.tables.matterKeys := by
    rw [Tables.matterKeys, hmatters, Tables.matterKeys]
  refine ⟨?_, ?_, ?_, ?_⟩
  · apply h.sound.rewrite
    · rw [hmembers]
      exact h.sound.unique
    · rw [hmembers]
      exact h.sound.below
    · exact hkeys
    · exact le_of_eq hnext.symm
    · rw [hmembers]
      exact h.sound.housed
  · intro g hg
    have hmem : g.id ∈ (promoteGeneration i w.tables).generations.map (·.id) :=
      List.mem_map.2 ⟨g, hg, rfl⟩
    rw [hids] at hmem
    obtain ⟨g₀, hg₀, hid⟩ := List.mem_map.1 hmem
    show g.id < (promoteGeneration i w.tables).nextId
    rw [hnext, ← hid]
    exact h.generations g₀ hg₀
  · intro x y hxy
    show x ≠ y ∧ ∃ d ∈ (promoteGeneration i w.tables).decisions, d.separates x y = true
    rw [hdecisions]
    exact h.recorded x y hxy
  · intro r hr r' hr'
    have hr : r ∈ (promoteGeneration i w.tables).members := hr
    have hr' : r' ∈ (promoteGeneration i w.tables).members := hr'
    rw [hmembers] at hr hr'
    exact h.apart r hr r' hr'

/-- **A respectful step keeps separated messages apart.** -/
theorem apartKept_step {l : WorkshopLabel} (h : ApartKept w)
    (hgood : Respectful w l) : ApartKept (w.step l) := by
  have hreads : ∀ reads, ApartKept { w with reads := reads } :=
    fun _ => ⟨h.sound, h.generations, h.recorded, h.apart⟩
  cases l with
  | readSeparated => exact hreads _
  | readLocked k =>
    cases hr : w.reads k with
    | none => simpa [Workshop.step, hr] using h
    | some r => simpa [Workshop.step, hr] using hreads _
  | write k answer =>
    cases hr : w.reads k with
    | none => simpa [Workshop.step, hr] using h
    | some r =>
      cases hlocked : r.locked with
      | none => simpa [Workshop.step, hr, hlocked] using h
      | some locked =>
        by_cases hforbidden : answer.selectedMatterId.any r.forbidden.contains = true
        · simp only [Workshop.step, hr, hlocked, if_pos hforbidden]
          exact h
        · simp only [Workshop.step, hr, hlocked, if_neg hforbidden]
          cases hwrite : writeAssignment (r.assignment answer) locked w.tables with
          | none => exact hreads _
          | some s' => exact apartKept_write h hr hlocked hgood hwrite
  | mergeReconciled g source target status =>
    rcases mergeReconciledMatters_cases g source target status w.tables with hsame | hm
    · simp only [Workshop.step, hsame]
      exact h
    · exact apartKept_merge h hgood hm
  | decide u =>
    rcases applyUserDecision_cases u w.tables with ⟨hnone, hsame⟩ | ⟨d, hrecord, hd⟩
    · simp only [Workshop.step, hnone, hsame]
      exact h
    · simp only [Workshop.step, hrecord]
      exact apartKept_decide h hgood hrecord hd
  | createGeneration style status source => exact apartKept_create style status source h
  | promoteGeneration i => exact apartKept_promote i h

def Workshop.start (s : Tables) : Workshop :=
  ⟨{ s with matters := [], members := [], subgoals := [], decisions := [] }, fun _ => none, []⟩

/-- **Separated messages stay apart** in every respectful run, from any profile,
generations and messages. -/
theorem separated_stay_apart (s : Tables) (hs : ∀ g ∈ s.generations, g.id < s.nextId)
    (ls : List WorkshopLabel) (h : Along Workshop.step Respectful (Workshop.start s) ls) :
    Throughout Workshop.step Workshop.KeptApart (Workshop.start s) ls := by
  have hstart : ApartKept (Workshop.start s) := by
    refine ⟨⟨?_, ?_, ?_, ?_, ?_⟩, hs, ?_, ?_⟩
    · simp [Workshop.start]
    · simp [Workshop.start]
    · simp [Workshop.start, Tables.matterKeys]
    · simp [Workshop.start, Tables.matterKeys]
    · simp [Workshop.start]
    · simp [Workshop.start]
    · simp [Workshop.KeptApart, Workshop.start]
  have hkept : Throughout Workshop.step ApartKept (Workshop.start s) ls :=
    throughout_of_step (fun _ _ hw hl => apartKept_step hw hl) hstart h
  exact hkept.mono fun _ hw => hw.apart

def twoMessages : Tables :=
  { Tables.fresh [⟨1, 10⟩, ⟨2, 20⟩] with
    profile := some ⟨true, true, .focused, .live, some 0, 1⟩
    generations := [⟨0, .active, .focused, none, false⟩]
    nextId := 1 }

def organizeAlone (k messageId : Nat) (selected : Option Nat) : List WorkshopLabel :=
  [.readSeparated k 0 messageId, .readLocked k, .write k ⟨selected, .needsYou, [], false, .model⟩]

/-- Both messages come into matter 1. A worker starts to organize the second one again,
and the user separates it from the first one. -/
def separationRun : List WorkshopLabel :=
  organizeAlone 0 1 none ++ organizeAlone 1 2 (some 1) ++
    [.readSeparated 2 0 2, .decide ⟨"separate", .separate, 1, none, [2], 2⟩, .readLocked 2]

/-- The worker finds no matter for the separated message and opens a new one. -/
theorem separated_stay_apart_separationRun :
    Throughout Workshop.step Workshop.KeptApart (Workshop.start twoMessages)
      (separationRun ++ [.write 2 ⟨none, .needsYou, [], false, .model⟩]) :=
  separated_stay_apart twoMessages (by decide) _ (by decide +kernel)

/-- The worker has read no separation, and puts the message back into matter 1. -/
theorem separated_recombined :
    ¬ Throughout Workshop.step Workshop.KeptApart (Workshop.start twoMessages)
      (separationRun ++ [.write 2 ⟨some 1, .needsYou, [], false, .model⟩]) := by
  intro h
  have hapart := h.last ⟨0, 1, 2, .model, false, false, false⟩ (by decide +kernel)
    ⟨0, 1, 1, .model, false, false, false⟩ (by decide +kernel) rfl rfl
  exact hapart (by decide +kernel)

end ElectronicMail.Matters
