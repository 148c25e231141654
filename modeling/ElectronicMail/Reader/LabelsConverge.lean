import ElectronicMail.Foundations.Run
import ElectronicMail.Reader.LabelSettling

/-!
# Optimistic labels converge

Once every action has settled and a fetch that was started after that has arrived, the reader
shows the labels of the server, with one exception: the override of an action that succeeded
before its messages were there stays until a thread agrees with it on all of them. And when all
actions on a label of a message fail, the message gets back what it showed before the first,
provided that none of them began while one under way had asked for something else.
`labels_converge` says both. Without the proviso a later action takes the outcome of the earlier
one for the presence to restore (`labels_diverge`).
-/

namespace ElectronicMail.Reader

open Foundations
open Actions (ThreadAction)

/-! ## After a fetch -/

/-- After a fetch that was started once every action had settled, the reader shows its answer
up to the overrides that are left, which are those of actions that succeeded; with none left it
shows the answer. -/
structure Converged (s : ReaderState) : Prop where
  settled : ∀ answer ∈ s.confirmed, s.mutations = [] ∧ ∀ intent ∈ s.overrides, intent.settled = true
  shown : ∀ answer ∈ s.confirmed, ∃ thread ∈ s.shown,
    List.Forall₂ (ShowsOriginal s.overrides) answer.thread.messages thread.messages ∧
      (s.overrides = [] → thread = answer.thread)

variable {s : ReaderState}

theorem converged_of_sound (hs : MutationsSound s) (hf : FetchSound s) : Converged s := by
  have hsettled : ∀ answer ∈ s.confirmed, ∀ intent ∈ s.overrides, intent.settled = true := by
    intro answer hanswer intent hin
    cases hsettled : intent.settled with
    | true => rfl
    | false =>
      obtain ⟨mutation, hmutation, _⟩ := hs.pending intent hin hsettled
      rw [(hf.confirmed answer hanswer).1] at hmutation
      cases hmutation
  constructor
  · intro answer hanswer
    exact ⟨(hf.confirmed answer hanswer).1, hsettled answer hanswer⟩
  intro answer hanswer
  obtain ⟨_, _, thread, hthread, hoverridden⟩ := hf.confirmed answer hanswer
  have hall : settledOf s.overrides = s.overrides :=
    List.filter_eq_self.2 (hsettled answer hanswer)
  refine ⟨thread, hthread, ?_, ?_⟩
  · have := hoverridden.messages
    rwa [hall] at this
  · intro hnil
    apply hoverridden.same
    rw [hall, hnil]

/-! ## The presence that is shown -/

theorem find_map_of_id {change : ThreadMessage → ThreadMessage}
    (h : ∀ message, (change message).id = message.id) (messages : List ThreadMessage)
    (messageId : String) :
    ((messages.map change).find? fun message => message.id == messageId) =
      (messages.find? fun message => message.id == messageId).map change := by
  rw [List.find?_map]
  congr 2
  funext message
  rw [Function.comp_apply, h]

theorem find_settingMessageLabel (thread : ThreadReaderResponse) (labelId : String)
    (entries : List (String × Bool)) (messageId : String) :
    (thread.settingMessageLabel labelId entries).messages.find?
        (fun message => message.id == messageId) =
      (thread.messages.find? fun message => message.id == messageId).map fun message =>
        match entries.lookup messageId with
        | none => message
        | some isPresent => message.settingLabel labelId isPresent := by
  simp only [ThreadReaderResponse.settingMessageLabel]
  rw [find_map_of_id]
  · cases hfind : thread.messages.find? fun message => message.id == messageId with
    | none => rfl
    | some message =>
      obtain rfl : message.id = messageId := by simpa using List.find?_some hfind
      rfl
  · intro message
    split <;> simp

/-- Setting a label of messages changes what a message shows of that label if it is one of
them, and nothing else. -/
theorem presence_setting (shown : Option ThreadReaderResponse) (set : ReaderLabel)
    (entries : List (String × Bool)) (messageId : String) (label : ReaderLabel) :
    presence (shown.map fun thread => thread.settingMessageLabel set.id entries) messageId label =
      (presence shown messageId label).map fun before =>
        if set = label then (entries.lookup messageId).getD before else before := by
  cases shown with
  | none => rfl
  | some thread =>
    unfold presence
    rw [Option.map_some, Option.bind_some, Option.bind_some, find_settingMessageLabel]
    cases thread.messages.find? fun message => message.id == messageId with
    | none => rfl
    | some =>
      rw [Option.map_some, Option.map_some, Option.map_some, Option.map_some]
      cases entries.lookup messageId with
      | none => simp
      | some =>
        rw [hasLabel_settingLabel, sameLabel_id]
        by_cases hlabel : set = label
        · simp [hlabel]
        · simp [hlabel, Ne.symm hlabel]

variable {label : ReaderLabel} {messageId : String}

theorem presence_setting_of_lookup_none {set : ReaderLabel} {entries : List (String × Bool)}
    (h : set = label → entries.lookup messageId = none) (shown : Option ThreadReaderResponse) :
    presence (shown.map fun thread => thread.settingMessageLabel set.id entries) messageId label =
      presence shown messageId label := by
  rw [presence_setting]
  by_cases hlabel : set = label
  · simp [h hlabel]
  · simp [hlabel]

theorem lookup_filterMap (keep : String → Bool) (value : String → Bool → Bool)
    (entries : List (String × Bool)) (key : String) :
    (entries.filterMap fun entry =>
        if keep entry.1 then some (entry.1, value entry.1 entry.2) else none).lookup key =
      if keep key then (entries.lookup key).map (value key) else none := by
  induction entries with
  | nil => simp
  | cons entry entries ih =>
    rw [List.filterMap_cons, List.lookup_cons]
    by_cases hkey : key = entry.1
    · subst hkey
      cases hkeep : keep entry.1 with
      | true => simp
      | false =>
        simp only [hkeep] at ih ⊢
        exact ih
    · have hne : (key == entry.1) = false := beq_eq_false_iff_ne.2 hkey
      rw [hne]
      cases keep entry.1 with
      | true =>
        simp only [if_true, List.lookup_cons, hne]
        exact ih
      | false => exact ih

theorem lookup_settledPresence (s : ReaderState) (mutation : ReaderLabelMutation)
    (succeeded : Bool) (messageId : String) :
    (s.settledPresence mutation succeeded).lookup messageId =
      if s.owns mutation messageId && (succeeded ||
          presence s.shown messageId mutation.label == some mutation.isPresent) then
        (mutation.previousPresenceByMessageId.lookup messageId).map fun previous =>
          if succeeded then mutation.isPresent else previous
      else none := by
  have hform : s.settledPresence mutation succeeded =
      mutation.previousPresenceByMessageId.filterMap fun entry =>
        if s.owns mutation entry.1 && (succeeded ||
            presence s.shown entry.1 mutation.label == some mutation.isPresent) then
          some (entry.1, if succeeded then mutation.isPresent else entry.2)
        else none := by
    unfold ReaderState.settledPresence
    congr 1
    funext entry
    cases s.owns mutation entry.1 <;> cases succeeded <;> simp
  rw [hform]
  exact lookup_filterMap
    (fun id => s.owns mutation id && (succeeded ||
      presence s.shown id mutation.label == some mutation.isPresent))
    (fun _ previous => if succeeded then mutation.isPresent else previous) _ _

/-! ## Failures -/

def ReaderLabelMutation.touches (mutation : ReaderLabelMutation) (messageId : String)
    (label : ReaderLabel) : Bool :=
  mutation.label == label && targets mutation.targetMessageId messageId

/-- The actions on a label of a message fail, no fetch arrives, and no action on it begins while
one under way has asked for something else than the message showed before. -/
def FailsAlone (messageId : String) (label : ReaderLabel) (before : Option Bool)
    (s : ReaderState) : LabelEvent → Prop
  | .arrive => False
  | .finish id succeeded => succeeded = true → ∀ mutation ∈ s.mutations, mutation.id = id →
      mutation.touches messageId label = false
  | .begin action target =>
    match readerLabelChange action with
    | none => True
    | some (changed, _) => changed = label → targets target messageId = true →
        ∀ mutation ∈ s.mutations, mutation.touches messageId label = true →
          before = some mutation.isPresent
  | _ => True

/-- A message shows what it showed before, or what the action that owns its label asked for;
the actions under way would restore what it showed before. -/
structure Restorable (messageId : String) (label : ReaderLabel) (before : Bool)
    (s : ReaderState) : Prop where
  previous : ∀ mutation ∈ s.mutations, mutation.touches messageId label = true →
    mutation.beganWithoutLoadedThread = false →
      mutation.previousPresenceByMessageId.lookup messageId = some before
  shown : presence s.shown messageId label = some before ∨
    ∃ mutation ∈ s.mutations, mutation.beganWithoutLoadedThread = false ∧
      mutation.touches messageId label = true ∧
      s.owners messageId label = some mutation.id ∧
      presence s.shown messageId label = some mutation.isPresent

variable {target : Option String} {done : ReaderLabelMutation}

section Restoring

variable {messageId : String} {label : ReaderLabel} {before : Bool} {s : ReaderState}

theorem lookup_eq_none_of_not_targeted {entries : List (String × Bool)}
    (h : ∀ entry ∈ entries, entry.1 ≠ messageId) : entries.lookup messageId = none := by
  cases hlookup : entries.lookup messageId with
  | none => rfl
  | some => exact absurd rfl (h _ (mem_of_lookup hlookup))

theorem lookup_targetMessages (value : ThreadMessage → Bool)
    (htarget : targets target messageId = true) :
    ((s.targetMessages target).map fun message => (message.id, value message)).lookup messageId =
      (s.shown.bind fun thread => thread.messages.find? fun m => m.id == messageId).map value := by
  rw [lookup_map_id]
  unfold ReaderState.targetMessages
  cases s.shown with
  | none => rfl
  | some thread =>
    rw [Option.bind_some]
    dsimp only
    rw [List.find?_filter]
    congr 2
    funext message
    by_cases hid : message.id = messageId
    · simp [hid, htarget]
    · simp [hid]

theorem lookup_targetMessages_of_not (value : ThreadMessage → Bool)
    (htarget : targets target messageId = false) :
    ((s.targetMessages target).map fun message => (message.id, value message)).lookup messageId =
      none := by
  apply lookup_eq_none_of_not_targeted
  intro entry hentry heq
  obtain ⟨message, hmessage, rfl⟩ := List.mem_map.1 hentry
  have htargeted := targets_of_mem_targetMessages hmessage
  rw [show message.id = messageId from heq, htarget] at htargeted
  cases htargeted

section

variable (h : Restorable messageId label before s)
include h

theorem Restorable.presence_eq (hasked : ∀ mutation ∈ s.mutations, mutation.touches messageId label = true →
      some before = some mutation.isPresent) : presence s.shown messageId label = some before := by
  rcases h.shown with hshown | ⟨mutation, hin, _, htouches, _, hshown⟩
  · exact hshown
  · rw [hshown, hasked mutation hin htouches]

theorem Restorable.beginTouching (htarget : targets target messageId = true)
    (hshown : presence s.shown messageId label = some before) (isPresent : Bool) :
    Restorable messageId label before
      (s.beginOnMessages label isPresent target (s.targetMessages target)) := by
  have hprevious : ((s.targetMessages target).map fun message =>
      (message.id, message.hasLabel label.id)).lookup messageId = some before := by
    rw [lookup_targetMessages _ htarget]
    exact hshown
  have hnext : ((s.targetMessages target).map fun message =>
      (message.id, isPresent)).lookup messageId = some isPresent := by
    rw [lookup_targetMessages (fun _ => isPresent) htarget]
    unfold presence at hshown
    obtain ⟨message, hmessage, _⟩ := Option.map_eq_some_iff.1 hshown
    rw [hmessage]
    rfl
  constructor
  · intro mutation hin htouches hbegan
    rcases List.mem_append.1 hin with hin | hin
    · exact h.previous mutation hin htouches hbegan
    · obtain rfl := List.mem_singleton.1 hin
      exact hprevious
  · refine .inr ⟨_, List.mem_append_right _ (List.mem_singleton.2 rfl), rfl, ?_, ?_, ?_⟩
    · simp [ReaderLabelMutation.touches, htarget]
    · exact if_pos ⟨rfl, List.mem_map.2 ⟨_, mem_of_lookup hprevious, rfl⟩⟩
    · simp only [ReaderState.beginOnMessages, ReaderState.settingShown]
      rw [presence_setting, hshown, List.map_map]
      simp only [Function.comp_def]
      rw [hnext]
      simp

theorem Restorable.beginApart {changed : ReaderLabel}
    (hapart : changed = label → targets target messageId = false) (isPresent : Bool) :
    Restorable messageId label before
      (s.beginOnMessages changed isPresent target (s.targetMessages target)) := by
  have hshown : presence (s.beginOnMessages changed isPresent target
      (s.targetMessages target)).shown messageId label = presence s.shown messageId label := by
    apply presence_setting_of_lookup_none
    intro hlabel
    rw [List.map_map]
    exact lookup_targetMessages_of_not (fun _ => isPresent) (hapart hlabel)
  have howners : (s.beginOnMessages changed isPresent target
      (s.targetMessages target)).owners messageId label = s.owners messageId label := by
    apply if_neg
    rintro ⟨hlabel, hkey⟩
    obtain ⟨entry, hentry, rfl⟩ := List.mem_map.1 hkey
    obtain ⟨message, hmessage, rfl⟩ := List.mem_map.1 hentry
    have htargeted := targets_of_mem_targetMessages hmessage
    rw [hapart hlabel.symm] at htargeted
    cases htargeted
  constructor
  · intro mutation hin htouches hbegan
    rcases List.mem_append.1 hin with hin | hin
    · exact h.previous mutation hin htouches hbegan
    obtain rfl := List.mem_singleton.1 hin
    simp only [ReaderLabelMutation.touches, Bool.and_eq_true, beq_iff_eq] at htouches
    rw [hapart htouches.1] at htouches
    cases htouches.2
  · rw [hshown, howners]
    rcases h.shown with hshown | ⟨mutation, hin, hrest⟩
    · exact .inl hshown
    · exact .inr ⟨mutation, List.mem_append_left _ hin, hrest⟩

theorem Restorable.begin {action : ThreadAction}
    (halone : FailsAlone messageId label (some before) s (.begin action target)) :
    Restorable messageId label before (s.beginReaderLabelMutation action target) := by
  unfold ReaderState.beginReaderLabelMutation
  split
  · exact h
  next changed isPresent hchange =>
    simp only [FailsAlone, hchange] at halone
    have hfresh : Restorable messageId label before
        ((s.recordReaderLabelMutationGeneration
          changed).supersedeReaderLabelIntentOverrides changed target) :=
      ⟨h.previous, h.shown⟩
    dsimp only
    split
    · constructor
      · intro mutation hin htouches hbegan
        rcases List.mem_append.1 hin with hin | hin
        · exact hfresh.previous mutation hin htouches hbegan
        · obtain rfl := List.mem_singleton.1 hin
          cases hbegan
      · rcases hfresh.shown with hshown | ⟨mutation, hin, hrest⟩
        · exact .inl hshown
        · exact .inr ⟨mutation, List.mem_append_left _ hin, hrest⟩
    · by_cases hon : changed = label ∧ targets target messageId = true
      · obtain ⟨rfl, htarget⟩ := hon
        exact hfresh.beginTouching htarget (hfresh.presence_eq (halone rfl htarget)) isPresent
      · refine hfresh.beginApart ?_ isPresent
        intro hlabel
        exact Bool.eq_false_iff.2 fun htarget => hon ⟨hlabel, htarget⟩

theorem Restorable.other_owner (hother : ∀ mutation ∈ s.mutations, mutation.beganWithoutLoadedThread = false →
      mutation.touches messageId label = true →
      s.owners messageId label = some mutation.id → mutation.id ≠ done.id) :
    Restorable messageId label before (s.retire done.id) where
  previous := fun mutation hin => h.previous mutation (mem_retire.1 hin).1
  shown := by
    rcases h.shown with hshown | ⟨mutation, hin, hbegan, htouches, howner, hshown⟩
    · exact .inl hshown
    · exact .inr ⟨mutation, mem_retire.2 ⟨hin, hother mutation hin hbegan htouches howner⟩,
        hbegan, htouches, howner, hshown⟩

theorem Restorable.congr {next : ReaderState}
    (hmutations : next.mutations = s.mutations)
    (howners : next.owners messageId label = s.owners messageId label)
    (hshown : presence next.shown messageId label = presence s.shown messageId label) :
    Restorable messageId label before next := by
  constructor
  · rw [hmutations]
    exact h.previous
  · rw [hmutations, howners, hshown]
    exact h.shown

theorem Restorable.finishCold {succeeded : Bool}
    (hfails : succeeded = true → done.touches messageId label = false) :
    Restorable messageId label before (s.finishWithoutThread done succeeded) := by
  unfold ReaderState.finishWithoutThread
  dsimp only
  split
  · exact h
  split
  · exact h
  split
  · next hsucceeded =>
      refine h.congr rfl rfl ?_
      apply presence_setting_of_lookup_none
      intro hlabel
      apply lookup_targetMessages_of_not (fun _ => done.isPresent)
      have hnot := hfails hsucceeded
      simpa [ReaderLabelMutation.touches, hlabel] using hnot
  · exact h.congr rfl rfl rfl

end

theorem finishOnMessages_at (s : ReaderState) (messageId : String) (label : ReaderLabel)
    (done : ReaderLabelMutation) (succeeded : Bool) :
    (s.finishOnMessages done succeeded).mutations = s.mutations ∧
      (s.finishOnMessages done succeeded).owners messageId label =
        (if label = done.label ∧
            messageId ∈ done.previousPresenceByMessageId.map Prod.fst ∧
            s.owns done messageId = true then none else s.owners messageId label) ∧
      presence (s.finishOnMessages done succeeded).shown messageId label =
        presence (s.settingShown done.label (s.settledPresence done succeeded)).shown messageId
          label := by
  unfold ReaderState.finishOnMessages
  dsimp only
  split <;> exact ⟨rfl, rfl, rfl⟩

section

variable (h : Restorable messageId label before s) (hs : MutationsSound s)
include h hs

theorem Restorable.finishApart (hin : done ∈ s.mutations)
    (hapart : done.touches messageId label = false) (succeeded : Bool) :
    Restorable messageId label before ((s.retire done.id).finishOnMessages done succeeded) := by
  have hkeys : done.label = label → ∀ entry ∈ done.previousPresenceByMessageId,
      entry.1 ≠ messageId := by
    rintro rfl entry hentry rfl
    have htargeted := hs.targeted done hin entry hentry
    simp [ReaderLabelMutation.touches, htargeted] at hapart
  have hretired : Restorable messageId label before (s.retire done.id) := by
    apply h.other_owner
    intro mutation hmutation _ htouches _ hid
    rw [hs.unique hmutation hin hid, hapart] at htouches
    cases htouches
  obtain ⟨hmutations, howners, hshown⟩ := finishOnMessages_at (s.retire done.id) messageId label
    done succeeded
  refine hretired.congr hmutations ?_ ?_
  · rw [howners, if_neg]
    rintro ⟨hlabel, hkey, _⟩
    obtain ⟨entry, hentry, heq⟩ := List.mem_map.1 hkey
    exact hkeys hlabel.symm entry hentry heq
  · rw [hshown]
    apply presence_setting_of_lookup_none
    intro hlabel
    rw [lookup_settledPresence, lookup_eq_none_of_not_targeted (hkeys hlabel)]
    simp

theorem Restorable.finishFailed (hin : done ∈ s.mutations)
    (hbegan : done.beganWithoutLoadedThread = false)
    (htouches : done.touches messageId label = true) :
    Restorable messageId label before ((s.retire done.id).finishOnMessages done false) := by
  have hprevious := h.previous done hin htouches hbegan
  obtain ⟨hmutations, howners, hshown⟩ := finishOnMessages_at (s.retire done.id) messageId label
    done false
  have hlabel : done.label = label := by
    simp only [ReaderLabelMutation.touches, Bool.and_eq_true, beq_iff_eq] at htouches
    exact htouches.1
  subst hlabel
  have hlookup := lookup_settledPresence (s.retire done.id) done false messageId
  rw [hprevious] at hlookup
  by_cases howns : s.owners messageId done.label = some done.id
  · have howned : (s.retire done.id).owns done messageId = true := beq_iff_eq.2 howns
    refine ⟨fun mutation hmutation => ?_, .inl ?_⟩
    · rw [hmutations] at hmutation
      exact h.previous mutation (mem_retire.1 hmutation).1
    rw [hshown]
    simp only [ReaderState.settingShown]
    rw [presence_setting, hlookup, howned]
    by_cases hown : presence s.shown messageId done.label = some done.isPresent
    · simp [ReaderState.retire, hown]
    · -- what is shown is not the outcome of the owner, so it is what was shown before
      have hbefore : presence s.shown messageId done.label = some before := by
        rcases h.shown with hshown | ⟨mutation, hmutation, _, _, howner, hpresent⟩
        · exact hshown
        · obtain rfl := hs.unique hmutation hin (Option.some.inj (howner.symm.trans howns))
          exact absurd hpresent hown
      have hne : before ≠ done.isPresent := fun heq => hown (by rw [hbefore, heq])
      simp [ReaderState.retire, hbefore, hne]
  · have hnot : (s.retire done.id).owns done messageId = false := by
      rw [Bool.eq_false_iff]
      exact fun howned => howns (beq_iff_eq.1 howned)
    have hretired : Restorable messageId done.label before (s.retire done.id) := by
      apply h.other_owner
      intro mutation _ _ _ howner hid
      exact howns (howner.trans (congrArg some hid))
    refine hretired.congr hmutations ?_ ?_
    · rw [howners, if_neg]
      rintro ⟨_, _, howned⟩
      rw [hnot] at howned
      cases howned
    · rw [hshown]
      apply presence_setting_of_lookup_none
      intro _
      rw [hlookup, hnot]
      rfl

theorem Restorable.step {event : LabelEvent} (halone : FailsAlone messageId label (some before) s event) :
    Restorable messageId label before (s.step event) := by
  cases event with
  | change | answer | failFetch => exact h.congr rfl rfl rfl
  | begin =>
    simp only [ReaderState.step]
    split
    · have hunsettled : Restorable messageId label before s.unsettle := h.congr rfl rfl rfl
      exact hunsettled.begin halone
    · exact h
  | finish id succeeded =>
    simp only [ReaderState.step]
    split
    · exact h
    next done hfind =>
      obtain ⟨hin, rfl⟩ := mem_of_find_mutation hfind
      have hfails : succeeded = true → done.touches messageId label = false :=
        fun hsucceeded => halone hsucceeded done hin rfl
      unfold ReaderState.finishReaderLabelMutation
      split
      · next hbegan =>
          refine Restorable.finishCold (h.other_owner ?_) hfails
          intro mutation hmutation hhot _ _ hid
          rw [hs.unique hmutation hin hid, hbegan] at hhot
          cases hhot
      · next hbegan =>
          cases htouches : done.touches messageId label with
          | false => exact h.finishApart hs hin htouches succeeded
          | true =>
            have hfailed : succeeded = false := by
              rw [Bool.eq_false_iff]
              intro hsucceeded
              rw [hfails hsucceeded] at htouches
              cases htouches
            rw [hfailed]
            exact h.finishFailed hs hin (Bool.eq_false_iff.2 hbegan) htouches
  | confirmOther action target =>
    simp only [ReaderState.step]
    split
    · next hnone =>
        rw [applyConfirmedReaderLabelChange_of_none hnone]
        exact h
    · exact h
  | fetch =>
    simp only [ReaderState.step, ReaderState.startFetch]
    split
    · exact h
    · exact h.congr rfl rfl rfl
  | arrive => exact halone.elim

end

end Restoring

/-! ## A message that is not shown -/

theorem presence_settingShown_eq_none (h : presence s.shown messageId label = none)
    (set : ReaderLabel) (entries : List (String × Bool)) :
    presence (s.settingShown set entries).shown messageId label = none := by
  simp only [ReaderState.settingShown]
  rw [presence_setting, h]
  rfl

theorem presence_step_eq_none (h : presence s.shown messageId label = none) {event : LabelEvent}
    {before : Option Bool} (halone : FailsAlone messageId label before s event) :
    presence (s.step event).shown messageId label = none := by
  cases event with
  | begin =>
    simp only [ReaderState.step]
    split
    · unfold ReaderState.beginReaderLabelMutation
      split
      · exact h
      dsimp only
      split
      · exact h
      · exact presence_settingShown_eq_none (by exact h) _ _
    · exact h
  | finish =>
    simp only [ReaderState.step]
    split
    · exact h
    unfold ReaderState.finishReaderLabelMutation
    split
    · unfold ReaderState.finishWithoutThread
      dsimp only
      split
      · exact h
      split
      · exact h
      split
      · exact presence_settingShown_eq_none (by exact h) _ _
      · exact h
    · rw [(finishOnMessages_at _ _ _ _ _).2.2]
      exact presence_settingShown_eq_none (by exact h) _ _
  | confirmOther action target =>
    simp only [ReaderState.step]
    split
    · next hnone =>
        rw [applyConfirmedReaderLabelChange_of_none hnone]
        exact h
    · exact h
  | fetch =>
    simp only [ReaderState.step, ReaderState.startFetch]
    split <;> exact h
  | arrive => exact halone.elim
  | _ => exact h

/-! ## Convergence -/

def NoneUnderWay (messageId : String) (label : ReaderLabel) (s : ReaderState) : Prop :=
  ∀ mutation ∈ s.mutations, mutation.touches messageId label = false

theorem sound_after (server : ServerSnapshot) (shown : Option ThreadReaderResponse)
    (events : List LabelEvent) :
    MutationsSound (after ReaderState.step (.initial server shown) events) ∧
      FetchSound (after ReaderState.step (.initial server shown) events) := by
  have hinitial : MutationsSound (.initial server shown) ∧ FetchSound (.initial server shown) := by
    refine ⟨⟨.nil, ?_, .nil, ?_, ?_, ?_⟩, Unsettled.fetchSound ⟨rfl, ?_⟩⟩
    · exact fun mutation hin => nomatch hin
    · exact fun a ha => nomatch ha
    · exact fun intent hin => nomatch hin
    · exact fun mutation hin => nomatch hin
    · exact fun request hin => nomatch hin
  exact after_of_step (I := fun s => MutationsSound s ∧ FetchSound s)
    (fun s event hs => sound_step hs.1 hs.2 event) hinitial events

theorem restored (hs : MutationsSound s) (hf : FetchSound s)
    (hnone : NoneUnderWay messageId label s) {events : List LabelEvent}
    (halone : Along ReaderState.step
      (FailsAlone messageId label (presence s.shown messageId label)) s events)
    (hdone : NoneUnderWay messageId label (after ReaderState.step s events)) :
    presence (after ReaderState.step s events).shown messageId label =
      presence s.shown messageId label := by
  cases hbefore : presence s.shown messageId label with
  | none =>
    rw [hbefore] at halone
    exact (throughout_of_step (I := fun s => presence s.shown messageId label = none)
      (fun _ _ hnone halone => presence_step_eq_none hnone halone) hbefore halone).last
  | some before =>
    rw [hbefore] at halone
    have hstart : Restorable messageId label before s := by
      refine ⟨fun mutation hin htouches => ?_, .inl hbefore⟩
      rw [hnone mutation hin] at htouches
      cases htouches
    have hend := (throughout_of_step
      (I := fun s => (MutationsSound s ∧ FetchSound s) ∧ Restorable messageId label before s)
      (fun _ event hall halone =>
        ⟨sound_step hall.1.1 hall.1.2 event, hall.2.step hall.1.1 halone⟩)
      ⟨⟨hs, hf⟩, hstart⟩ halone).last.2
    rcases hend.shown with hshown | ⟨mutation, hin, _, htouches, _⟩
    · exact hshown
    · rw [hdone mutation hin] at htouches
      cases htouches

/-- **Every waiting override has its action.** An override that has not settled is that of an action
under way, which began before the thread was there; so none waits once all actions have settled.
Two overrides are never about one label of one message. -/
theorem overrides_owned (server : ServerSnapshot) (shown : Option ThreadReaderResponse)
    (events : List LabelEvent) :
    let s := after ReaderState.step (.initial server shown) events
    (s.overrides.map ReaderLabelIntentOverride.key).Nodup ∧ KeysApart s.overrides ∧
      (∀ intent ∈ s.overrides, intent.settled = false → ∃ mutation ∈ s.mutations,
        mutation.id = intent.ownerId ∧ mutation.beganWithoutLoadedThread = true ∧
          (mutation.label, mutation.targetMessageId) = intent.key) ∧
      (s.mutations = [] → ∀ intent ∈ s.overrides, intent.settled = true) := by
  intro s
  have hs : MutationsSound s := (sound_after server shown events).1
  refine ⟨hs.keys, hs.apart, hs.pending, fun hnone intent hin => ?_⟩
  by_contra hwaits
  obtain ⟨mutation, hmutation, _⟩ := hs.pending intent hin (Bool.eq_false_iff.2 hwaits)
  rw [hnone] at hmutation
  cases hmutation

/-- In every run, what a fetch brings that was started after every action had settled is shown,
up to the overrides of actions that succeeded before their messages were there; and when all
actions on a label of a message fail without a fetch, none of them beginning while one under way
has asked for something else, the message shows what it showed before the first. -/
theorem labels_converge (server : ServerSnapshot) (shown : Option ThreadReaderResponse)
    (earlier : List LabelEvent) :
    Converged (after ReaderState.step (.initial server shown) earlier) ∧
      ∀ (messageId : String) (label : ReaderLabel) (events : List LabelEvent),
        NoneUnderWay messageId label (after ReaderState.step (.initial server shown) earlier) →
        Along ReaderState.step (FailsAlone messageId label
          (presence (after ReaderState.step (.initial server shown) earlier).shown messageId
            label)) (after ReaderState.step (.initial server shown) earlier) events →
        NoneUnderWay messageId label (after ReaderState.step
          (after ReaderState.step (.initial server shown) earlier) events) →
        presence (after ReaderState.step
            (after ReaderState.step (.initial server shown) earlier) events).shown messageId
            label =
          presence (after ReaderState.step (.initial server shown) earlier).shown messageId
            label := by
  obtain ⟨hs, hf⟩ := sound_after server shown earlier
  exact ⟨converged_of_sound hs hf, fun messageId label events hnone halone hdone =>
    restored hs hf hnone halone hdone⟩

/-! ## Where labels stay apart -/

/-- What `FailsAlone` says without its last part. -/
def AllFail (messageId : String) (label : ReaderLabel) (s : ReaderState) : LabelEvent → Prop
  | .arrive => False
  | .finish id succeeded => succeeded = true → ∀ mutation ∈ s.mutations, mutation.id = id →
      mutation.touches messageId label = false
  | _ => True

instance decidableFailsAlone (messageId : String) (label : ReaderLabel) (before : Option Bool)
    (s : ReaderState) (event : LabelEvent) :
    Decidable (FailsAlone messageId label before s event) := by
  unfold FailsAlone
  cases event with
  | «begin» action target =>
    dsimp only
    split <;> infer_instance
  | _ => dsimp only; infer_instance

instance decidableAllFail (messageId : String) (label : ReaderLabel) (s : ReaderState)
    (event : LabelEvent) : Decidable (AllFail messageId label s event) := by
  unfold AllFail
  cases event <;> dsimp only <;> infer_instance

instance decidableNoneUnderWay (messageId : String) (label : ReaderLabel) (s : ReaderState) :
    Decidable (NoneUnderWay messageId label s) :=
  inferInstanceAs (Decidable (∀ mutation ∈ s.mutations, mutation.touches messageId label = false))

def oneMessage (labelIds : List String) : ServerSnapshot where
  thread :=
    { entityId := "t"
      userId := "u"
      source := none
      gmailThreadId := some "t"
      subject := none
      title := none
      summary := none
      totalMessages := 1
      limit := 50
      offset := 0
      hasMore := false
      messages := [{ id := "m", bodyComplete := true, labelIds := labelIds, content := "text" }]
      contentRevision := some "r" }
  nodup := List.nodup_singleton "m"

/-- The reader has the message, unread. A star fails, and then a fetch arrives. -/
theorem labels_converge_of_failed_star :
    presence (after ReaderState.step (after ReaderState.step
        (.initial (oneMessage ["UNREAD"]) (some (oneMessage ["UNREAD"]).thread)) [])
        [.begin .star (some "m"), .fetch false, .finish 0 false]).shown "m" .starred =
      presence (after ReaderState.step
        (.initial (oneMessage ["UNREAD"]) (some (oneMessage ["UNREAD"]).thread)) []).shown "m"
        .starred :=
  (labels_converge (oneMessage ["UNREAD"]) (some (oneMessage ["UNREAD"]).thread) []).2 "m"
    .starred [.begin .star (some "m"), .fetch false, .finish 0 false] (by decide +kernel)
    (by decide +kernel) (by decide +kernel)

/-- A message that is marked read before it is there is shown read while the server has it
unread. A star and the unstar after it fail, and the message stays starred. -/
theorem labels_diverge :
    (¬ ∀ (server : ServerSnapshot) (shown : Option ThreadReaderResponse)
        (events : List LabelEvent),
        ∀ answer ∈ (after ReaderState.step (.initial server shown) events).confirmed,
          ∃ thread ∈ (after ReaderState.step (.initial server shown) events).shown,
            List.Forall₂ (fun original message : ThreadMessage =>
              message.id = original.id ∧ ∀ label, message.hasLabel label = original.hasLabel label)
              answer.thread.messages thread.messages) ∧
      ¬ ∀ (server : ServerSnapshot) (shown : Option ThreadReaderResponse)
        (events : List LabelEvent) (messageId : String) (label : ReaderLabel),
        Along ReaderState.step (AllFail messageId label) (.initial server shown) events →
        NoneUnderWay messageId label (after ReaderState.step (.initial server shown) events) →
        presence (after ReaderState.step (.initial server shown) events).shown messageId label =
          presence shown messageId label := by
  constructor
  · intro hall
    have hall := hall (oneMessage ["UNREAD"]) none
      [.begin .markRead none, .finish 0 true, .fetch false, .answer, .arrive]
      (oneMessage ["UNREAD"]) rfl
    obtain ⟨thread, hthread, hsame⟩ := hall
    obtain rfl := Option.some.inj hthread
    rcases hsame with _ | ⟨hsame, _⟩
    have hread := hsame.2 "UNREAD"
    revert hread
    decide +kernel
  · intro hall
    have hall := hall (oneMessage []) (some (oneMessage []).thread)
      [.begin .star (some "m"), .begin .unstar (some "m"), .finish 0 false, .finish 1 false] "m"
      .starred (by decide +kernel) (by decide +kernel)
    revert hall
    decide +kernel

end ElectronicMail.Reader
