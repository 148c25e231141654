import Mathlib.Data.List.InsertIdx

/-!
# Labels of an optimistic action and their rollback

`labelsAfterAction` is the optimistic change of the labels of a message and
`labelsAfterFailedAction` undoes it on whatever labels the message has by then.
`mem_labelsAfterFailedAction` is the meaning of the rollback: a label whose
membership the action changed gets its previous membership back, and every other
label keeps its current one.

Labels are compared by their upper-case form; the upper-casing function is a
parameter of the section.
-/

namespace ElectronicMail.Actions

inductive ThreadAction where
  | archive
  | unarchive
  | markRead
  | markUnread
  | moveTrash
  | restoreTrash
  | markSpam
  | notSpam
  | star
  | unstar
  | deleteForever
  deriving DecidableEq

variable {labels : List String} {u : String}

section Upper

variable (upper : String → String)

/-- `{label.upper() for label in labels}`, as the list of its members. -/
def membership (labels : List String) : List String := labels.map upper

/-- `[label for label in labels if label.upper() not in dropped]`. -/
def dropLabels (dropped labels : List String) : List String :=
  labels.filter fun label => !dropped.contains (upper label)

/-- `if name not in {…}: labels.append(name)`. -/
def appendLabel (name : String) (labels : List String) : List String :=
  if (membership upper labels).contains name then labels else labels ++ [name]

def labelsAfterAction (labels : List String) (action : ThreadAction) : List String :=
  let nextLabels := labels.eraseDups
  match action with
  | .archive => dropLabels upper ["INBOX"] nextLabels
  | .unarchive => appendLabel upper "INBOX" nextLabels
  | .markRead => dropLabels upper ["UNREAD"] nextLabels
  | .markUnread => appendLabel upper "UNREAD" nextLabels
  | .moveTrash => appendLabel upper "TRASH" (dropLabels upper ["INBOX", "SPAM"] nextLabels)
  | .restoreTrash => appendLabel upper "INBOX" (dropLabels upper ["TRASH"] nextLabels)
  | .markSpam => appendLabel upper "SPAM" (dropLabels upper ["INBOX", "TRASH"] nextLabels)
  | .notSpam => appendLabel upper "INBOX" (dropLabels upper ["SPAM"] nextLabels)
  | .star => appendLabel upper "STARRED" nextLabels
  | .unstar => dropLabels upper ["STARRED"] nextLabels
  | .deleteForever => nextLabels

/-- `left.symmetric_difference(right)`. -/
def symmetricDifference (left right : List String) : List String :=
  left.filter (fun u => !right.contains u) ++ right.filter (fun u => !left.contains u)

/-- The loop `for index, label in enumerate(previous_labels)` of
`_labels_after_failed_action`, with the label list and the membership set it
builds up. -/
def restoreLoop (affected : List String) :
    Nat → List String → List String × List String → List String × List String
  | _, [], acc => acc
  | index, label :: previous, (restored, present) =>
    if affected.contains (upper label) && !present.contains (upper label) then
      restoreLoop affected (index + 1) previous
        (restored.insertIdx (min index restored.length) label, upper label :: present)
    else restoreLoop affected (index + 1) previous (restored, present)

def affectedLabels (previousLabels : List String) (action : ThreadAction) : List String :=
  symmetricDifference (membership upper previousLabels)
    (membership upper (labelsAfterAction upper previousLabels action))

def labelsAfterFailedAction (currentLabels previousLabels : List String)
    (action : ThreadAction) : List String :=
  let affected := affectedLabels upper previousLabels action
  let restored := dropLabels upper affected currentLabels.eraseDups
  (restoreLoop upper affected 0 previousLabels (restored, membership upper restored)).1

/-! ## Membership -/

theorem mem_membership : u ∈ membership upper labels ↔ ∃ label ∈ labels, upper label = u :=
  List.mem_map

theorem mem_symmetricDifference {left right : List String} :
    u ∈ symmetricDifference left right ↔ (u ∈ left ∧ u ∉ right) ∨ (u ∈ right ∧ u ∉ left) := by
  unfold symmetricDifference
  rw [List.mem_append, List.mem_filter, List.mem_filter]
  simp

theorem mem_membership_dropLabels {dropped : List String} :
    u ∈ membership upper (dropLabels upper dropped labels) ↔
      u ∈ membership upper labels ∧ u ∉ dropped := by
  rw [mem_membership, mem_membership]
  constructor
  · rintro ⟨label, hlabel, rfl⟩
    obtain ⟨hmem, hdrop⟩ := List.mem_filter.1 hlabel
    exact ⟨⟨label, hmem, rfl⟩, by simpa using hdrop⟩
  · rintro ⟨⟨label, hmem, rfl⟩, hdrop⟩
    exact ⟨label, List.mem_filter.2 ⟨hmem, by simpa using hdrop⟩, rfl⟩

theorem mem_membership_eraseDups :
    u ∈ membership upper labels.eraseDups ↔ u ∈ membership upper labels := by
  rw [mem_membership, mem_membership]
  simp only [List.mem_eraseDups]

/-- The loop adds the affected labels of `previous` that are not present, and
keeps the set `present` equal to the membership of the list it builds. -/
theorem mem_restoreLoop (affected : List String) (previous : List String) :
    ∀ (index : Nat) (restored present : List String),
      (∀ u, u ∈ present ↔ u ∈ membership upper restored) → ∀ u,
        u ∈ membership upper (restoreLoop upper affected index previous (restored, present)).1 ↔
          u ∈ membership upper restored ∨ (u ∈ affected ∧ u ∈ membership upper previous) := by
  induction previous with
  | nil =>
    intro index restored present _ u
    show u ∈ membership upper restored ↔ _
    constructor
    · exact Or.inl
    · rintro (h | ⟨-, h⟩)
      · exact h
      · exact absurd h List.not_mem_nil
  | cons label previous ih =>
    intro index restored present hpresent u
    have hcons : u ∈ membership upper (label :: previous) ↔
        u = upper label ∨ u ∈ membership upper previous := List.mem_cons
    by_cases hins : (affected.contains (upper label) && !present.contains (upper label)) = true
    · have hstep : restoreLoop upper affected index (label :: previous) (restored, present) =
          restoreLoop upper affected (index + 1) previous
            (restored.insertIdx (min index restored.length) label,
              upper label :: present) := if_pos hins
      have haff : upper label ∈ affected := by
        rw [Bool.and_eq_true] at hins
        exact List.contains_iff_mem.1 hins.1
      have hmem : ∀ v, v ∈ membership upper
          (restored.insertIdx (min index restored.length) label) ↔
            v = upper label ∨ v ∈ membership upper restored := by
        intro v
        rw [mem_membership, mem_membership]
        simp only [List.mem_insertIdx (Nat.min_le_right index restored.length)]
        constructor
        · rintro ⟨l, rfl | hl, rfl⟩
          · exact Or.inl rfl
          · exact Or.inr ⟨l, hl, rfl⟩
        · rintro (rfl | ⟨l, hl, rfl⟩)
          · exact ⟨label, Or.inl rfl, rfl⟩
          · exact ⟨l, Or.inr hl, rfl⟩
      have hpresent' : ∀ v, v ∈ upper label :: present ↔
          v ∈ membership upper (restored.insertIdx (min index restored.length) label) := by
        intro v
        rw [List.mem_cons, hpresent v, hmem v]
      rw [hstep, ih (index + 1) _ _ hpresent' u, hmem u, hcons]
      constructor
      · rintro ((rfl | h) | ⟨ha, h⟩)
        · exact Or.inr ⟨haff, Or.inl rfl⟩
        · exact Or.inl h
        · exact Or.inr ⟨ha, Or.inr h⟩
      · rintro (h | ⟨ha, rfl | h⟩)
        · exact Or.inl (Or.inr h)
        · exact Or.inl (Or.inl rfl)
        · exact Or.inr ⟨ha, h⟩
    · have hstep : restoreLoop upper affected index (label :: previous) (restored, present) =
          restoreLoop upper affected (index + 1) previous (restored, present) := if_neg hins
      rw [hstep, ih (index + 1) restored present hpresent u, hcons]
      constructor
      · rintro (h | ⟨ha, h⟩)
        · exact Or.inl h
        · exact Or.inr ⟨ha, Or.inr h⟩
      · rintro (h | ⟨ha, rfl | h⟩)
        · exact Or.inl h
        · -- An affected label that is not inserted is present already.
          left
          rw [← hpresent]
          by_contra hnot
          apply hins
          rw [Bool.and_eq_true]
          exact ⟨List.contains_iff_mem.2 ha, by simpa using hnot⟩
        · exact Or.inr ⟨ha, h⟩

/-- **What the rollback does.** A label whose membership the action changed gets
its previous membership back; every other label keeps its current one. -/
theorem mem_labelsAfterFailedAction (currentLabels previousLabels : List String)
    (action : ThreadAction) (u : String) :
    u ∈ membership upper (labelsAfterFailedAction upper currentLabels previousLabels action) ↔
      if u ∈ affectedLabels upper previousLabels action then u ∈ membership upper previousLabels
      else u ∈ membership upper currentLabels := by
  unfold labelsAfterFailedAction
  rw [mem_restoreLoop upper _ previousLabels 0 _ _ (fun _ => Iff.rfl) u,
    mem_membership_dropLabels, mem_membership_eraseDups]
  by_cases haff : u ∈ affectedLabels upper previousLabels action
  · rw [if_pos haff]
    constructor
    · rintro (⟨-, hn⟩ | ⟨-, h⟩)
      · exact absurd haff hn
      · exact h
    · intro h
      exact Or.inr ⟨haff, h⟩
  · rw [if_neg haff]
    constructor
    · rintro (⟨h, -⟩ | ⟨ha, -⟩)
      · exact h
      · exact absurd ha haff
    · intro h
      exact Or.inl ⟨h, haff⟩

end Upper

end ElectronicMail.Actions
