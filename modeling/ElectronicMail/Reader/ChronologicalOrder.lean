import ElectronicMail.Foundations.Distinct
import Mathlib.Data.List.Nodup
import Mathlib.Data.Prod.Lex
import Mathlib.Data.String.Basic

/-!
# The order of the messages of a thread

The client sorts the messages of a thread, and the children of a row, by date where both dates can
be read and by the text of the dates otherwise. `chronological_iff` says when this is an order of
the messages at all: a date that cannot be read must not stand, as a text, between two dates whose
texts are ordered against them.
-/

namespace ElectronicMail.Reader.Chronological

open Foundations

variable {τ δ : Type} [LinearOrder τ] [LinearOrder δ]

/-! ## Sorting -/

-- `date` is `ISO8601DateFormatter.shared.date(from:)`.
variable (date : τ → Option δ)

def chronologicalOrder (lhsReceivedAt lhsID rhsReceivedAt rhsID : τ) : Bool :=
  let byText : Bool :=
    if lhsReceivedAt ≠ rhsReceivedAt then lhsReceivedAt < rhsReceivedAt else lhsID < rhsID
  match date lhsReceivedAt, date rhsReceivedAt with
  | some lhsDate, some rhsDate => if lhsDate ≠ rhsDate then lhsDate < rhsDate else byText
  | _, _ => byText

structure ThreadMessage (τ : Type) where
  id : τ
  receivedAt : τ
  deriving DecidableEq

structure GmailThreadChildRow (τ : Type) where
  messageID : τ
  receivedAt : τ
  deriving DecidableEq

section Rows

variable {α : Type} (id receivedAt : α → τ)

def precedes (lhs rhs : α) : Bool :=
  chronologicalOrder date (receivedAt lhs) (id lhs) (receivedAt rhs) (id rhs)

def orderedUnique (rows : List α) : List α :=
  (firstsBy id [] rows).mergeSort fun lhs rhs => !precedes date id receivedAt rhs lhs

/-! ## What is expected of the order -/

/-- A strict total order of the rows, by which `sorted` puts every permutation of them alike. -/
structure Settled (sorted : List α → List α) (rows : List α) : Prop where
  irreflexive : ∀ a ∈ rows, precedes date id receivedAt a a = false
  transitive : ∀ a ∈ rows, ∀ b ∈ rows, ∀ c ∈ rows, precedes date id receivedAt a b = true →
    precedes date id receivedAt b c = true → precedes date id receivedAt a c = true
  total : ∀ a ∈ rows, ∀ b ∈ rows, a ≠ b →
    precedes date id receivedAt a b = true ∨ precedes date id receivedAt b a = true
  permuted : ∀ other, rows.Perm other → sorted other = sorted rows

/-- A date that cannot be read stands, as a text, between two dates whose texts are ordered against
them. -/
def Inverted (rows : List α) : Prop :=
  ∃ a ∈ rows, ∃ b ∈ rows, ∃ c ∈ rows, ∃ dateA ∈ date (receivedAt a), ∃ dateC ∈ date (receivedAt c),
    dateA < dateC ∧ date (receivedAt b) = none ∧ receivedAt c < receivedAt b ∧
      receivedAt b < receivedAt a

end Rows

def orderedUniqueMessages (messages : List (ThreadMessage τ)) : List (ThreadMessage τ) :=
  orderedUnique date ThreadMessage.id ThreadMessage.receivedAt messages

def orderedUniqueChildren (children : List (GmailThreadChildRow τ)) :
    List (GmailThreadChildRow τ) :=
  orderedUnique date GmailThreadChildRow.messageID GmailThreadChildRow.receivedAt children

/-! ## The comparison -/

section Comparison

variable {date} {α : Type} {id receivedAt : α → τ} {a b c : α}

def textKey (id receivedAt : α → τ) (a : α) : τ ×ₗ τ := toLex (receivedAt a, id a)

theorem textKey_lt_iff : textKey id receivedAt a < textKey id receivedAt b ↔
    receivedAt a < receivedAt b ∨ receivedAt a = receivedAt b ∧ id a < id b :=
  Prod.Lex.toLex_lt_toLex

omit [LinearOrder τ] [LinearOrder δ] in
theorem receivedAt_ne {dateA : δ} (ha : date (receivedAt a) = some dateA)
    (hb : date (receivedAt b) = none) : receivedAt a ≠ receivedAt b := by
  intro heq
  rw [← heq, ha] at hb
  cases hb

theorem receivedAt_lt (h : textKey id receivedAt a < textKey id receivedAt b)
    (hne : receivedAt a ≠ receivedAt b) : receivedAt a < receivedAt b :=
  (textKey_lt_iff.1 h).resolve_right fun heq => hne heq.1

theorem precedes_of_none (h : date (receivedAt a) = none ∨ date (receivedAt b) = none) :
    precedes date id receivedAt a b = true ↔
      textKey id receivedAt a < textKey id receivedAt b := by
  rw [textKey_lt_iff]
  unfold precedes chronologicalOrder
  rcases h with h | h
  all_goals
    rw [h]
    by_cases heq : receivedAt a = receivedAt b
    · simp [heq]
    · simp [heq]

theorem precedes_of_some {dateA dateB : δ} (ha : date (receivedAt a) = some dateA)
    (hb : date (receivedAt b) = some dateB) :
    precedes date id receivedAt a b = true ↔
      dateA < dateB ∨ dateA = dateB ∧ textKey id receivedAt a < textKey id receivedAt b := by
  rw [textKey_lt_iff]
  unfold precedes chronologicalOrder
  rw [ha, hb]
  by_cases hdates : dateA = dateB
  · by_cases heq : receivedAt a = receivedAt b
    · simp [hdates, heq]
    · simp [hdates, heq]
  · simp [hdates]

theorem precedes_irrefl : precedes date id receivedAt a a = false := by
  rw [← Bool.not_eq_true]
  intro h
  cases ha : date (receivedAt a) with
  | none => exact lt_irrefl _ ((precedes_of_none (Or.inl ha)).1 h)
  | some dateA =>
    rcases (precedes_of_some ha ha).1 h with hlt | ⟨-, hlt⟩
    · exact lt_irrefl _ hlt
    · exact lt_irrefl _ hlt

theorem precedes_total (h : id a ≠ id b) :
    precedes date id receivedAt a b = true ∨ precedes date id receivedAt b a = true := by
  have hkeys : textKey id receivedAt a ≠ textKey id receivedAt b :=
    fun heq => h (congrArg Prod.snd (toLex.injective heq))
  have htexts := lt_or_gt_of_ne hkeys
  cases ha : date (receivedAt a) with
  | none => rwa [precedes_of_none (Or.inl ha), precedes_of_none (Or.inr ha)]
  | some dateA =>
    cases hb : date (receivedAt b) with
    | none => rwa [precedes_of_none (Or.inr hb), precedes_of_none (Or.inl hb)]
    | some dateB =>
      rw [precedes_of_some ha hb, precedes_of_some hb ha]
      rcases lt_trichotomy dateA dateB with hlt | heq | hgt
      · exact Or.inl (Or.inl hlt)
      · exact htexts.imp (fun hk => Or.inr ⟨heq, hk⟩) fun hk => Or.inr ⟨heq.symm, hk⟩
      · exact Or.inr (Or.inl hgt)

theorem precedes_of_between {rows : List α} (hrows : ¬ Inverted date receivedAt rows)
    (ha : a ∈ rows) (hb : b ∈ rows) (hc : c ∈ rows) {dateA dateC : δ}
    (hdateA : date (receivedAt a) = some dateA) (hdateB : date (receivedAt b) = none)
    (hdateC : date (receivedAt c) = some dateC)
    (hab : textKey id receivedAt a < textKey id receivedAt b)
    (hbc : textKey id receivedAt b < textKey id receivedAt c) : dateA ≤ dateC := by
  by_contra hlt
  refine hrows ⟨c, hc, b, hb, a, ha, dateC, hdateC, dateA, hdateA, not_le.1 hlt, hdateB, ?_, ?_⟩
  · exact receivedAt_lt hab (receivedAt_ne hdateA hdateB)
  · exact receivedAt_lt hbc (receivedAt_ne hdateC hdateB).symm

theorem precedes_trans {rows : List α} (hrows : ¬ Inverted date receivedAt rows)
    (ha : a ∈ rows) (hb : b ∈ rows) (hc : c ∈ rows) (hab : precedes date id receivedAt a b = true)
    (hbc : precedes date id receivedAt b c = true) : precedes date id receivedAt a c = true := by
  have htexts (hne : receivedAt c ≠ receivedAt a) : textKey id receivedAt a < textKey id receivedAt c ∨
      textKey id receivedAt c < textKey id receivedAt a :=
    lt_or_gt_of_ne fun heq => hne (congrArg Prod.fst (toLex.injective heq)).symm
  cases hdateB : date (receivedAt b) with
  | none =>
    rw [precedes_of_none (Or.inr hdateB)] at hab
    rw [precedes_of_none (Or.inl hdateB)] at hbc
    have hac := hab.trans hbc
    cases hdateA : date (receivedAt a) with
    | none => exact (precedes_of_none (Or.inl hdateA)).2 hac
    | some dateA =>
      cases hdateC : date (receivedAt c) with
      | none => exact (precedes_of_none (Or.inr hdateC)).2 hac
      | some dateC =>
        have hle := precedes_of_between hrows ha hb hc hdateA hdateB hdateC hab hbc
        exact (precedes_of_some hdateA hdateC).2 (hle.lt_or_eq.imp_right fun heq => ⟨heq, hac⟩)
  | some dateB =>
    cases hdateA : date (receivedAt a) with
    | none =>
      rw [precedes_of_none (Or.inl hdateA)] at hab ⊢
      cases hdateC : date (receivedAt c) with
      | none =>
        rw [precedes_of_none (Or.inr hdateC)] at hbc
        exact hab.trans hbc
      | some dateC =>
        rcases (precedes_of_some hdateB hdateC).1 hbc with hlt | ⟨-, hbc⟩
        · refine (htexts (receivedAt_ne hdateC hdateA)).resolve_right fun hca => ?_
          exact absurd (precedes_of_between hrows hc ha hb hdateC hdateA hdateB hca hab)
            (not_le.2 hlt)
        · exact hab.trans hbc
    | some dateA =>
      have hab := (precedes_of_some hdateA hdateB).1 hab
      cases hdateC : date (receivedAt c) with
      | none =>
        rw [precedes_of_none (Or.inr hdateC)] at hbc ⊢
        rcases hab with hlt | ⟨-, hab⟩
        · refine (htexts (receivedAt_ne hdateA hdateC).symm).resolve_right fun hca => ?_
          exact absurd (precedes_of_between hrows hb hc ha hdateB hdateC hdateA hbc hca)
            (not_le.2 hlt)
        · exact hab.trans hbc
      | some dateC =>
        rw [precedes_of_some hdateA hdateC]
        rcases (precedes_of_some hdateB hdateC).1 hbc with hlt | ⟨rfl, hbc⟩
        · exact Or.inl (hab.elim (fun hab => hab.trans hlt) fun hab => hab.1 ▸ hlt)
        · exact hab.imp_right fun hab => ⟨hab.1, hab.2.trans hbc⟩

end Comparison

/-! ## The order of the rows -/

section Order

variable {date} {α : Type} {id receivedAt : α → τ} {rows : List α}

theorem settled_iff (hids : (rows.map id).Nodup) :
    Settled date id receivedAt (orderedUnique date id receivedAt) rows ↔
      ¬ Inverted date receivedAt rows := by
  have hne {a b : α} (ha : a ∈ rows) (hb : b ∈ rows) (hab : a ≠ b) : id a ≠ id b :=
    fun heq => hab (List.inj_on_of_nodup_map hids ha hb heq)
  constructor
  · rintro h ⟨a, ha, b, hb, c, hc, dateA, hdateA, dateC, hdateC, hlt, hdateB, hcb, hba⟩
    have hca := h.transitive c hc b hb a ha
      ((precedes_of_none (Or.inr hdateB)).2 (textKey_lt_iff.2 (Or.inl hcb)))
      ((precedes_of_none (Or.inl hdateB)).2 (textKey_lt_iff.2 (Or.inl hba)))
    rcases (precedes_of_some hdateC hdateA).1 hca with hlt' | ⟨rfl, -⟩
    · exact lt_asymm hlt hlt'
    · exact lt_irrefl _ hlt
  · intro hrows
    have htotal {a b : α} (ha : a ∈ rows) (hb : b ∈ rows) (hab : a ≠ b) :
        precedes date id receivedAt a b = true ∨ precedes date id receivedAt b a = true :=
      precedes_total (hne ha hb hab)
    -- Of two rows one does not precede the other, and rows that do not are ordered, too.
    have hasymm {a b : α} (ha : a ∈ rows) (hb : b ∈ rows)
        (hab : precedes date id receivedAt a b = true) : precedes date id receivedAt b a = false := by
      rw [← Bool.not_eq_true]
      intro hba
      have := precedes_trans hrows ha hb ha hab hba
      rw [precedes_irrefl] at this
      cases this
    have hle {a b : α} (ha : a ∈ rows) (hb : b ∈ rows) :
        (!precedes date id receivedAt b a) = true ↔ a = b ∨ precedes date id receivedAt a b = true := by
      rw [Bool.not_eq_true']
      refine ⟨fun h => ?_, ?_⟩
      · by_contra hnot
        obtain ⟨hab, hnot⟩ := not_or.1 hnot
        rw [(htotal ha hb hab).resolve_left hnot] at h
        cases h
      · rintro (rfl | h)
        · exact precedes_irrefl
        · exact hasymm ha hb h
    have hsorted {other : List α} (hperm : rows.Perm other) :
        (orderedUnique date id receivedAt other).Perm other ∧
          (orderedUnique date id receivedAt other).Pairwise fun a b =>
            (!precedes date id receivedAt b a) = true := by
      have hself : firstsBy id [] other = other :=
        firstsBy_eq_self ((hperm.map id).nodup_iff.1 hids) fun _ _ => List.not_mem_nil
      rw [orderedUnique, hself]
      refine ⟨List.mergeSort_perm .., pairwise_mergeSort_of_mem ?_ ?_ fun y hy => hperm.mem_iff.2 hy⟩
      · intro a ha b hb c hc hab hbc
        rw [hle ha hb] at hab
        rw [hle hb hc] at hbc
        rw [hle ha hc]
        rcases hab with rfl | hab
        · exact hbc
        rcases hbc with rfl | hbc
        · exact Or.inr hab
        · exact Or.inr (precedes_trans hrows ha hb hc hab hbc)
      · intro a ha b hb
        rw [hle ha hb, hle hb ha]
        by_cases hab : a = b
        · exact Or.inl (Or.inl hab)
        · exact (htotal ha hb hab).imp Or.inr Or.inr
    refine ⟨fun a _ => precedes_irrefl, fun a ha b hb c hc => precedes_trans hrows ha hb hc,
      fun a ha b hb => htotal ha hb, fun other hperm => ?_⟩
    obtain ⟨hother, hotherSorted⟩ := hsorted hperm
    obtain ⟨hrowsPerm, hrowsSorted⟩ := hsorted (List.Perm.refl rows)
    refine List.Perm.eq_of_pairwise (fun a b ha hb hab hba => ?_) hotherSorted hrowsSorted
      (hother.trans (hperm.symm.trans hrowsPerm.symm))
    have ha := hperm.mem_iff.2 (hother.mem_iff.1 ha)
    have hb := hrowsPerm.mem_iff.1 hb
    rw [hle ha hb] at hab
    rcases hab with heq | hab
    · exact heq
    · rw [hab] at hba
      cases hba

end Order

/-- **The chronological order.** Messages with different ids, and children, have a strict total
order, by which every permutation of them is sorted alike, exactly when there is no inversion. -/
theorem chronological_iff (messages : List (ThreadMessage τ))
    (children : List (GmailThreadChildRow τ)) :
    ((messages.map ThreadMessage.id).Nodup →
      (Settled date ThreadMessage.id ThreadMessage.receivedAt (orderedUniqueMessages date) messages ↔
        ¬ Inverted date ThreadMessage.receivedAt messages)) ∧
    ((children.map GmailThreadChildRow.messageID).Nodup →
      (Settled date GmailThreadChildRow.messageID GmailThreadChildRow.receivedAt
          (orderedUniqueChildren date) children ↔
        ¬ Inverted date GmailThreadChildRow.receivedAt children)) :=
  ⟨settled_iff, settled_iff⟩

/-- A date of the evening, written in two time zones, and one with a fraction of a second, which
the formatter does not read. -/
def mixedDates : List (ThreadMessage String) :=
  [⟨"a", "2024-01-02T00:00:00+05:00"⟩, ⟨"b", "2024-01-01T23:45:00.5+00:00"⟩,
    ⟨"c", "2024-01-01T23:30:00+00:00"⟩]

def mixedDate (receivedAt : String) : Option Nat :=
  if receivedAt = "2024-01-02T00:00:00+05:00" then some 68400
  else if receivedAt = "2024-01-01T23:30:00+00:00" then some 84600 else none

theorem cyclic_dates : (mixedDates.map ThreadMessage.id).Nodup ∧
    ¬ Settled mixedDate ThreadMessage.id ThreadMessage.receivedAt
      (orderedUniqueMessages mixedDate) mixedDates := by
  refine ⟨by decide, fun h => ?_⟩
  have hcycle := h.transitive ⟨"c", "2024-01-01T23:30:00+00:00"⟩ (by decide)
    ⟨"b", "2024-01-01T23:45:00.5+00:00"⟩ (by decide) ⟨"a", "2024-01-02T00:00:00+05:00"⟩ (by decide)
    (by decide +kernel) (by decide +kernel)
  exact absurd hcycle (by decide +kernel)

end ElectronicMail.Reader.Chronological
