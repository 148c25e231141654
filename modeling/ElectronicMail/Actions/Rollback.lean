import ElectronicMail.Foundations.LastSet
import ElectronicMail.Actions.Projection

/-!
# A rollback among later actions

A failed action is undone on whatever labels the later actions have left
(`labelsAfterFailedAction`). The rollback should undo this action only, so that the message has the
labels that the later actions alone give it. It does not when a later action sets a label that the
failed one changed, and sets it the same way: archiving and then moving to the trash both take a
message out of the inbox, and when the archive fails the rollback puts it back
(`rollback_puts_back`). `rollback_iff` says that this is the only case.
-/

namespace ElectronicMail.Actions

open Foundations

/-! ## What an action sets -/

/-- The label that `_labels_after_action` adds. -/
def addedLabels : ThreadAction → List String
  | .unarchive | .restoreTrash | .notSpam => ["INBOX"]
  | .markUnread => ["UNREAD"]
  | .moveTrash => ["TRASH"]
  | .markSpam => ["SPAM"]
  | .star => ["STARRED"]
  | .archive | .markRead | .unstar | .deleteForever => []

/-- Whether an action puts a label on a message or takes it off, if it does either. -/
def setsLabel (action : ThreadAction) (label : String) : Option Bool :=
  if (addedLabels action).contains label then some true
  else if (droppedLabels action).contains label then some false
  else none

variable {labels : List String} {u : String} {action : ThreadAction}

section Upper

variable (upper : String → String)

def KeepsActionLabels : Prop :=
  ∀ name ∈ ["INBOX", "UNREAD", "TRASH", "SPAM", "STARRED"], upper name = name

def SameMembership (labels labels' : List String) : Prop :=
  ∀ u, u ∈ membership upper labels ↔ u ∈ membership upper labels'

/-- `_labels_after_action` for one action after another. -/
def labelsAfterActions (labels : List String) (actions : List ThreadAction) : List String :=
  after (labelsAfterAction upper) labels actions

/-- Of the labels that the action changes on the message, none is set the same way by the last of
the later actions that sets it. -/
def NoneSetAgain (labels : List String) (action : ThreadAction) (later : List ThreadAction) :
    Prop :=
  ∀ u ∈ addedLabels action ++ droppedLabels action,
    (setsLabel action u = some true ↔ u ∉ membership upper labels) →
      lastSet setsLabel u later ≠ setsLabel action u

instance (labels : List String) (action : ThreadAction) (later : List ThreadAction) :
    Decidable (NoneSetAgain upper labels action later) :=
  inferInstanceAs (Decidable (∀ u ∈ addedLabels action ++ droppedLabels action, _ → _))

variable {upper}

theorem KeepsActionLabels.added (h : KeepsActionLabels upper) (action : ThreadAction) :
    ∀ name ∈ addedLabels action, upper name = name := by
  intro name hname
  apply h
  cases action <;> simp_all [addedLabels]

theorem mem_membership_appendLabel {name : String} (hname : upper name = name) :
    u ∈ membership upper (appendLabel upper name labels) ↔
      u = name ∨ u ∈ membership upper labels := by
  unfold appendLabel
  by_cases h : (membership upper labels).contains name = true
  · rw [if_pos h]
    constructor
    · exact Or.inr
    · rintro (rfl | hu)
      · exact List.contains_iff_mem.1 h
      · exact hu
  · rw [if_neg h]
    simp [membership, hname, or_comm]

theorem mem_membership_labelsAfterAction (h : KeepsActionLabels upper) :
    u ∈ membership upper (labelsAfterAction upper labels action) ↔
      u ∈ addedLabels action ∨ (u ∈ membership upper labels ∧ u ∉ droppedLabels action) := by
  have hadded := h.added action
  cases action with
  | archive | markRead | unstar =>
    simp [labelsAfterAction, addedLabels, droppedLabels, mem_membership_dropLabels,
      mem_membership_eraseDups]
  | deleteForever =>
    simp [labelsAfterAction, addedLabels, droppedLabels, mem_membership_eraseDups]
  | unarchive | markUnread | star =>
    have hname := hadded _ (List.mem_singleton_self _)
    simp [labelsAfterAction, addedLabels, droppedLabels, mem_membership_eraseDups,
      mem_membership_appendLabel hname]
  | moveTrash | restoreTrash | markSpam | notSpam =>
    have hname := hadded _ (List.mem_singleton_self _)
    simp [labelsAfterAction, addedLabels, droppedLabels, mem_membership_eraseDups,
      mem_membership_dropLabels, mem_membership_appendLabel hname]

theorem sets_labelsAfterAction (h : KeepsActionLabels upper) :
    Sets (labelsAfterAction upper) (fun labels u => u ∈ membership upper labels) setsLabel := by
  intro labels action u
  show u ∈ membership upper (labelsAfterAction upper labels action) ↔ _
  rw [mem_membership_labelsAfterAction h]
  unfold setsLabel
  by_cases hadd : u ∈ addedLabels action
  · simp [hadd]
  · by_cases hdrop : u ∈ droppedLabels action
    · simp [hadd, hdrop]
    · simp [hadd, hdrop]

theorem mem_affectedLabels (h : KeepsActionLabels upper) :
    u ∈ affectedLabels upper labels action ↔
      Changes (fun labels u => u ∈ membership upper labels) setsLabel labels action u := by
  have hstep : u ∈ membership upper (labelsAfterAction upper labels action) ↔
      (setsLabel action u).elim (u ∈ membership upper labels) (· = true) :=
    sets_labelsAfterAction h labels action u
  unfold affectedLabels Changes
  rw [mem_symmetricDifference, hstep]
  cases setsLabel action u with
  | none => simp
  | some v => cases v <;> simp

theorem noneSetAgain_iff {later : List ThreadAction} :
    NoneSetAgain upper labels action later ↔
      ∀ u, Changes (fun labels u => u ∈ membership upper labels) setsLabel labels action u →
        lastSet setsLabel u later ≠ setsLabel action u := by
  have hset (u : String) : u ∈ addedLabels action ++ droppedLabels action ↔
      setsLabel action u ≠ none := by
    unfold setsLabel
    by_cases hadd : u ∈ addedLabels action
    · simp [hadd]
    · by_cases hdrop : u ∈ droppedLabels action
      · simp [hadd, hdrop]
      · simp [hadd, hdrop]
  constructor
  · rintro h u ⟨v, hv, hchange⟩
    apply h u ((hset u).2 (by simp [hv]))
    rw [hv]
    cases v <;> simp_all
  · intro h u hu hchange
    obtain ⟨v, hv⟩ := Option.ne_none_iff_exists'.1 ((hset u).1 hu)
    apply h u
    refine ⟨v, hv, ?_⟩
    rw [hv] at hchange
    cases v <;> simp_all

variable (upper) in
/-- **The rollback of one action.** Undone after any later actions, an action leaves the labels of
the later actions alone exactly when they do not set a label that it changed the same way. -/
theorem rollback_iff (h : KeepsActionLabels upper) (labels : List String) (action : ThreadAction)
    (later : List ThreadAction) :
    SameMembership upper
        (labelsAfterFailedAction upper
          (labelsAfterActions upper (labelsAfterAction upper labels action) later) labels action)
        (labelsAfterActions upper labels later) ↔
      NoneSetAgain upper labels action later := by
  rw [noneSetAgain_iff]
  refine forall_congr' fun u => ?_
  apply (sets_labelsAfterAction h).undone_iff
  · intro hchange
    rw [mem_labelsAfterFailedAction, if_pos ((mem_affectedLabels h).2 hchange)]
  · intro hsame
    rw [mem_labelsAfterFailedAction, if_neg (mt (mem_affectedLabels h).1 hsame)]
    rfl

end Upper

/-- An archive that fails after the message was starred and read. -/
theorem rollback_keeps_later_star :
    SameMembership String.toUpper
      (labelsAfterFailedAction String.toUpper
        (labelsAfterActions String.toUpper
          (labelsAfterAction String.toUpper ["INBOX", "UNREAD"] .archive) [.star, .markRead])
        ["INBOX", "UNREAD"] .archive)
      (labelsAfterActions String.toUpper ["INBOX", "UNREAD"] [.star, .markRead]) :=
  (rollback_iff String.toUpper (by unfold KeepsActionLabels; decide +kernel) ["INBOX", "UNREAD"]
    .archive [.star, .markRead]).2 (by decide +kernel)

/-- A message is archived and then moved to the trash. When the archive fails, the rollback puts
it back into the inbox. -/
theorem rollback_puts_back :
    ¬ SameMembership String.toUpper
      (labelsAfterFailedAction String.toUpper
        (labelsAfterActions String.toUpper (labelsAfterAction String.toUpper ["INBOX"] .archive)
          [.moveTrash])
        ["INBOX"] .archive)
      (labelsAfterActions String.toUpper ["INBOX"] [.moveTrash]) := by
  intro hsame
  have hrolled : labelsAfterFailedAction String.toUpper
      (labelsAfterActions String.toUpper (labelsAfterAction String.toUpper ["INBOX"] .archive)
        [.moveTrash]) ["INBOX"] .archive = ["INBOX", "TRASH"] := by decide +kernel
  have hlater : labelsAfterActions String.toUpper ["INBOX"] [.moveTrash] = ["TRASH"] := by
    decide +kernel
  rw [hrolled, hlater] at hsame
  exact absurd ((hsame "INBOX").1 (by decide +kernel)) (by decide +kernel)

end ElectronicMail.Actions
