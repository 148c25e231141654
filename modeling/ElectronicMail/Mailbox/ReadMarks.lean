import Mathlib.Data.List.Basic

/-!
# Optimistic read marks

A click marks a row, or one of its messages, read or unread before the server has answered. The
row is rebuilt by an initialiser that is given every field but `initialWindowPosition`, and its
own flag is set without a look at the other messages. `marks_iff` says when nothing else changes
and the flag keeps agreeing with the messages.
-/

namespace ElectronicMail.Mailbox

/-- `label.uppercased() == "UNREAD"`. Only letters of ASCII have the letters of it in upper
case. -/
def isUnreadLabel (label : String) : Bool := label.toList.map Char.toUpper = "UNREAD".toList

def removingUnreadLabel (labels : List String) : List String :=
  labels.filter fun label => !isUnreadLabel label

def addingUnreadLabel (labels : List String) : List String :=
  if labels.any isUnreadLabel then labels else labels ++ ["UNREAD"]

structure GmailThreadChildRow where
  (messageID receivedAt : String)
  (gmailThreadID sender subject aiTitle snippet : Option String)
  (labelIDs labels : List String)
  unread : Bool

structure MarkedRow (State Update Action : Type) where
  (threadID latestSourceRecordID latestReceivedAt : String)
  (entityID title href latestMessageAt latestSubject latestSender sender : Option String)
  participants : List String
  messageCount : Int
  bodyReady : Option Bool
  contentRevision : Option String
  initialWindowPosition : Option Int
  (summary aiGroupID aiTitle aiSummary snippet : Option String)
  hasAttachments : Option Bool
  attachmentCount : Option Int
  (labelIDs labels : List String)
  (unread actionNeeded : Bool)
  (actionType actionTypeKey : Option String)
  priority : Option Int
  dashboardVisible : Option Bool
  currentState : Option State
  (lifecycleState outcomeType : Option String)
  lifecycleUpdates : List Update
  children : Option (List GmailThreadChildRow)
  (enrichmentStatus presentationStatus : Option String)
  pendingAction : Option Action

def GmailThreadChildRow.markedRead (c : GmailThreadChildRow) : GmailThreadChildRow :=
  { c with
    unread := false
    labelIDs := removingUnreadLabel c.labelIDs
    labels := removingUnreadLabel c.labels }

def GmailThreadChildRow.markedUnread (c : GmailThreadChildRow) : GmailThreadChildRow :=
  { c with
    unread := true
    labelIDs := addingUnreadLabel c.labelIDs
    labels := addingUnreadLabel c.labels }

section Marks

variable {State Update Action : Type} (row : MarkedRow State Update Action)

/-- `copy`. The initialiser is not given `initialWindowPosition`, whose default is `nil`. -/
def MarkedRow.copy (unread : Bool) (labelIDs labels : List String)
    (children : Option (List GmailThreadChildRow)) : MarkedRow State Update Action :=
  { row with
    labelIDs := labelIDs
    labels := labels
    unread := unread
    children := children.or row.children
    initialWindowPosition := none }

/-- The children, with the marked ones among them: all, or the target. -/
def markedChildren (mark : GmailThreadChildRow → GmailThreadChildRow) (target : Option String)
    (children : Option (List GmailThreadChildRow)) : Option (List GmailThreadChildRow) :=
  children.map (List.map fun c => if target.all (c.messageID = ·) then mark c else c)

def MarkedRow.markedRead (target : Option String) : MarkedRow State Update Action :=
  let children := markedChildren GmailThreadChildRow.markedRead target row.children
  if target.all (row.latestSourceRecordID = ·) then
    row.copy false (removingUnreadLabel row.labelIDs) (removingUnreadLabel row.labels) children
  else row.copy row.unread row.labelIDs row.labels children

def MarkedRow.markedUnread (target : Option String) : MarkedRow State Update Action :=
  row.copy true (addingUnreadLabel row.labelIDs) (addingUnreadLabel row.labels)
    (markedChildren GmailThreadChildRow.markedUnread target row.children)

def MarkedRow.someUnread : Bool := (row.children.getD []).any GmailThreadChildRow.unread

/-- The labels other than `UNREAD` are the same in the same order. -/
def SameLabels (labels other : List String) : Prop :=
  removingUnreadLabel labels = removingUnreadLabel other

def SameChild (c c' : GmailThreadChildRow) : Prop :=
  (∃ unread labelIDs labels,
    c' = { c with unread := unread, labelIDs := labelIDs, labels := labels }) ∧
    SameLabels c.labelIDs c'.labelIDs ∧ SameLabels c.labels c'.labels

/-- What a mark should be: it changes only the read state, the second time nothing, and a flag
that agrees with the children agrees with them afterwards. -/
structure MarksOnly (mark : MarkedRow State Update Action → MarkedRow State Update Action) :
    Prop where
  frame : ∃ unread labelIDs labels children,
    mark row =
      { row with unread := unread, labelIDs := labelIDs, labels := labels, children := children }
  children : ∃ markChild, (mark row).children = row.children.map (List.map markChild) ∧
    ∀ c, SameChild c (markChild c)
  order : SameLabels row.labelIDs (mark row).labelIDs ∧ SameLabels row.labels (mark row).labels
  idempotent : mark (mark row) = mark row
  agrees : row.unread = row.someUnread → (mark row).unread = (mark row).someUnread

def FlagRight (target : Option String) : Prop :=
  let children := row.children.getD []
  match target with
  | none => children ≠ []
  | some id => (∃ c ∈ children, c.messageID = id ∨ c.unread = true) ∧
      if row.latestSourceRecordID = id then ∀ c ∈ children, c.unread = true → c.messageID = id
      else row.unread = true → ∃ c ∈ children, c.messageID ≠ id ∧ c.unread = true

end Marks

section Proofs

variable {State Update Action : Type} {row : MarkedRow State Update Action}
  {target : Option String} {mark : GmailThreadChildRow → GmailThreadChildRow}

theorem removing_idempotent (labels : List String) :
    removingUnreadLabel (removingUnreadLabel labels) = removingUnreadLabel labels :=
  List.filter_eq_self.2 fun _ h => (List.mem_filter.1 h).2

theorem removing_adding (labels : List String) :
    removingUnreadLabel (addingUnreadLabel labels) = removingUnreadLabel labels := by
  unfold addingUnreadLabel
  split
  · rfl
  · unfold removingUnreadLabel
    rw [List.filter_append]
    exact List.append_nil _

theorem adding_idempotent (labels : List String) :
    addingUnreadLabel (addingUnreadLabel labels) = addingUnreadLabel labels := by
  refine if_pos ?_
  unfold addingUnreadLabel
  split
  · assumption
  · exact List.any_eq_true.2 ⟨"UNREAD", List.mem_append_right _ List.mem_cons_self, by decide⟩

section

variable (c : GmailThreadChildRow)

theorem childRead_idempotent : c.markedRead.markedRead = c.markedRead := by
  simp only [GmailThreadChildRow.markedRead, removing_idempotent]

theorem childUnread_idempotent :
    c.markedUnread.markedUnread = c.markedUnread := by
  simp only [GmailThreadChildRow.markedUnread, adding_idempotent]

theorem sameChild_read : SameChild c c.markedRead :=
  ⟨⟨_, _, _, rfl⟩, (removing_idempotent _).symm, (removing_idempotent _).symm⟩

theorem sameChild_unread : SameChild c c.markedUnread :=
  ⟨⟨_, _, _, rfl⟩, (removing_adding _).symm, (removing_adding _).symm⟩

end

theorem markedChildren_idempotent (hmark : ∀ c, mark (mark c) = mark c)
    (hid : ∀ c, (mark c).messageID = c.messageID) (children : Option (List GmailThreadChildRow)) :
    markedChildren mark target (markedChildren mark target children) =
      markedChildren mark target children := by
  unfold markedChildren
  rw [Option.map_map, List.map_comp_map]
  congr 2
  funext c
  by_cases h : target.all (c.messageID = ·) = true
  · simp only [Function.comp_apply, if_pos h, hid, hmark]
  · simp only [Function.comp_apply, if_neg h]

theorem markedChildren_same (hmark : ∀ c, SameChild c (mark c)) :
    ∃ markChild, (markedChildren mark target row.children).or row.children =
      row.children.map (List.map markChild) ∧ ∀ c, SameChild c (markChild c) := by
  refine ⟨fun c => if target.all (c.messageID = ·) then mark c else c, ?_, fun c => ?_⟩
  · unfold markedChildren
    cases row.children <;> rfl
  · dsimp only
    split
    · exact hmark c
    · exact ⟨⟨_, _, _, rfl⟩, rfl, rfl⟩

theorem any_markedChildren {unread : Bool} (hmark : ∀ c, (mark c).unread = unread) :
    ((markedChildren mark target row.children).or row.children |>.getD []).any
        GmailThreadChildRow.unread = true ↔
      ∃ c ∈ row.children.getD [],
        if target.all (c.messageID = ·) then unread = true else c.unread = true := by
  unfold markedChildren
  cases row.children with
  | none => simp
  | some =>
    simp only [Option.map_some, Option.or_some, Option.getD_some, List.any_map, List.any_eq_true,
      Function.comp_apply]
    refine exists_congr fun c => and_congr_right fun _ => ?_
    split
    · rw [hmark]
    · rfl

theorem marksOnly_iff {f : MarkedRow State Update Action → MarkedRow State Update Action}
    {flag : Bool → Bool} {relabel : List String → List String}
    (hf : ∀ r, r.latestSourceRecordID = row.latestSourceRecordID →
      f r = r.copy (flag r.unread) (relabel r.labelIDs) (relabel r.labels)
        (markedChildren mark target r.children))
    (hflag : ∀ b, flag (flag b) = flag b) (hrelabel : ∀ l, relabel (relabel l) = relabel l)
    (hlabels : ∀ l, SameLabels l (relabel l)) (hmark : ∀ c, mark (mark c) = mark c)
    (hsame : ∀ c, SameChild c (mark c)) (hid : ∀ c, (mark c).messageID = c.messageID) :
    MarksOnly row f ↔ row.initialWindowPosition = none ∧
      (row.unread = row.someUnread → (f row).unread = (f row).someUnread) := by
  have hrow := hf row rfl
  constructor
  · intro h
    obtain ⟨unread, labelIDs, labels, children, hframe⟩ := h.frame
    rw [hrow] at hframe
    exact ⟨(congrArg MarkedRow.initialWindowPosition hframe).symm, h.agrees⟩
  · rintro ⟨hposition, hagrees⟩
    refine ⟨⟨flag row.unread, relabel row.labelIDs, relabel row.labels, (f row).children, ?_⟩, ?_,
      ?_, ?_, hagrees⟩
    · rw [hrow]
      unfold MarkedRow.copy
      rw [← hposition]
    · rw [hrow]
      exact markedChildren_same hsame
    · rw [hrow]
      exact ⟨hlabels _, hlabels _⟩
    · have hchildren : ∀ children, (markedChildren mark target ((markedChildren mark target
          children).or children)).or ((markedChildren mark target children).or children) =
            (markedChildren mark target children).or children := by
        intro children
        cases children with
        | none => rfl
        | some children =>
          exact markedChildren_idempotent hmark hid (some children)
      rw [hf (f row) (by rw [hrow]; rfl), hrow]
      simp only [MarkedRow.copy, hflag, hrelabel, hchildren]

theorem markedUnread_agrees :
    (row.markedUnread target).unread = (row.markedUnread target).someUnread ↔
      ∃ c ∈ row.children.getD [], target.all (c.messageID = ·) = true ∨ c.unread = true := by
  have hany := @any_markedChildren _ _ _ row target _ true
    (fun c => (rfl : c.markedUnread.unread = true))
  refine eq_comm.trans (hany.trans (exists_congr fun c => and_congr_right fun _ => ?_))
  split <;> simp_all

theorem markedRead_agrees (h : row.unread = row.someUnread) :
    (row.markedRead target).unread = (row.markedRead target).someUnread ↔
      if target.all (row.latestSourceRecordID = ·) then
        ∀ c ∈ row.children.getD [], c.unread = true → target.all (c.messageID = ·) = true
      else row.unread = true →
        ∃ c ∈ row.children.getD [], ¬ target.all (c.messageID = ·) = true ∧ c.unread = true := by
  have hany := @any_markedChildren _ _ _ row target _ false
    (fun c => (rfl : c.markedRead.unread = false))
  have hsome : (row.markedRead target).someUnread = true ↔
      ∃ c ∈ row.children.getD [], ¬ target.all (c.messageID = ·) = true ∧ c.unread = true := by
    refine Iff.trans ?_ (hany.trans ?_)
    · unfold MarkedRow.markedRead MarkedRow.someUnread
      dsimp only
      split <;> rfl
    · refine exists_congr fun c => and_congr_right fun _ => ?_
      split <;> simp_all
  unfold MarkedRow.markedRead at hsome ⊢
  dsimp only at hsome ⊢
  split
  · rename_i hlatest
    rw [if_pos hlatest] at hsome
    refine eq_comm.trans (Bool.eq_false_iff.trans ((not_congr hsome).trans ⟨?_, ?_⟩))
    · exact fun hnone c hc hunread => not_not.1 fun hother => hnone ⟨c, hc, hother, hunread⟩
    · exact fun hall ⟨c, hc, hother, hunread⟩ => hother (hall c hc hunread)
  · rename_i hlatest
    rw [if_neg hlatest] at hsome
    rw [Bool.eq_iff_iff, hsome]
    refine ⟨Iff.mp, fun hkept => ⟨hkept, fun ⟨c, hc, _, hunread⟩ => ?_⟩⟩
    exact h.trans (List.any_eq_true.2 ⟨c, hc, hunread⟩)

end Proofs

/-- **Read marks** change nothing else, and keep the flag in agreement with the children, for
exactly the rows that have no position in the initial window and whose flag comes out right. -/
theorem marks_iff {State Update Action : Type} (row : MarkedRow State Update Action)
    (target : Option String) :
    (MarksOnly row (·.markedRead target) ∧ MarksOnly row (·.markedUnread target) ∧
        (row.markedUnread none).markedRead none = row.markedRead none) ↔
      row.initialWindowPosition = none ∧ (row.unread = row.someUnread → FlagRight row target) := by
  have hunread : MarksOnly row (·.markedUnread target) ↔ _ :=
    @marksOnly_iff _ _ _ row target _ _ (fun _ => true) _ (fun _ _ => rfl) (fun _ => rfl)
      adding_idempotent (fun l => (removing_adding l).symm) childUnread_idempotent sameChild_unread
      fun _ => rfl
  have hread : MarksOnly row (·.markedRead target) ↔ row.initialWindowPosition = none ∧
      (row.unread = row.someUnread →
        (row.markedRead target).unread = (row.markedRead target).someUnread) := by
    by_cases hlatest : target.all (row.latestSourceRecordID = ·) = true
    · exact @marksOnly_iff _ _ _ row target _ _ (fun _ => false) _
        (fun r hr => if_pos (hr ▸ hlatest)) (fun _ => rfl) removing_idempotent (fun l => (removing_idempotent l).symm)
        childRead_idempotent sameChild_read fun _ => rfl
    · exact @marksOnly_iff _ _ _ row target _ _ id id (fun r hr => if_neg (hr ▸ hlatest))
        (fun _ => rfl) (fun _ => rfl) (fun _ => rfl) childRead_idempotent sameChild_read fun _ => rfl
  have hagain : (row.markedUnread none).markedRead none = row.markedRead none := by
    have hchild : ∀ c : GmailThreadChildRow, c.markedUnread.markedRead = c.markedRead := fun c => by
      simp only [GmailThreadChildRow.markedRead, GmailThreadChildRow.markedUnread, removing_adding]
    unfold MarkedRow.markedRead MarkedRow.markedUnread MarkedRow.copy markedChildren
    cases row.children <;> simp [removing_adding, hchild]
  have hflag : row.unread = row.someUnread → (FlagRight row target ↔
      (row.markedRead target).unread = (row.markedRead target).someUnread ∧
        (row.markedUnread target).unread = (row.markedUnread target).someUnread) := by
    intro h
    rw [markedRead_agrees h, markedUnread_agrees]
    cases target with
    | none => simp [FlagRight, List.eq_nil_iff_forall_not_mem]
    | some id => simp [FlagRight, and_comm]
  rw [hread, hunread]
  constructor
  · rintro ⟨⟨hposition, hr⟩, ⟨-, hu⟩, -⟩
    exact ⟨hposition, fun h => (hflag h).2 ⟨hr h, hu h⟩⟩
  · rintro ⟨hposition, hright⟩
    exact ⟨⟨hposition, fun h => ((hflag h).1 (hright h)).1⟩,
      ⟨hposition, fun h => ((hflag h).1 (hright h)).2⟩, hagain⟩

def fourthRow : MarkedRow Empty Empty Empty :=
  ⟨"t1", "m1", "2026-09-02T10:00:00Z", none, none, none, none, none, none, none, [], 1, none, none,
    some 3, none, none, none, none, none, none, none, [], [], false, false, none, none, none, none,
    none, none, none, [], none, none, none, none⟩

/-- A mark loses the position. -/
theorem position_lost : ¬ ∀ (row : MarkedRow Empty Empty Empty) (target : Option String),
    MarksOnly row (·.markedRead target) ∧ MarksOnly row (·.markedUnread target) ∧
      (row.markedUnread none).markedRead none = row.markedRead none := by
  intro h
  obtain ⟨unread, labelIDs, labels, children, hframe⟩ := (h fourthRow none).1.frame
  cases congrArg MarkedRow.initialWindowPosition hframe

end ElectronicMail.Mailbox
