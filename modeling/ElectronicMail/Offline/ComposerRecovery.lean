import ElectronicMail.Foundations.Run

/-!
# Drafts that are recovered from sealed files

What the composer holds is sealed for its user and its draft, in a file whose name is made of both
ids. Sealing is ideal: a box opens with its key and its context and with no others. A file name is
no id, however: characters that are no letters and no digits become `_`, and the rest of a long id
is cut off. `recovered_iff` says when drafts are kept apart all the same.
-/

namespace ElectronicMail.Offline.ComposerRecovery

open Foundations

abbrev Text := List Char

structure Draft where
  userID : Text
  draftID : Text
  deriving DecidableEq

/-! ## The store -/

section Store

-- `Character.isLetter` and `Character.isNumber`.
variable (isLetter isNumber : Char → Bool)

def sanitizedPathComponent (value : Text) : Text :=
  let cleaned := value.map fun character =>
    if isLetter character || isNumber character || character == '-' || character == '_' then
      character
    else '_'
  if cleaned.isEmpty then "draft".toList else cleaned.take 80

def fileURL (draft : Draft) : Text × Text :=
  (sanitizedPathComponent isLetter isNumber draft.userID,
    sanitizedPathComponent isLetter isNumber draft.draftID ++ ".bin".toList)

/-- `context`, before its encoding. -/
def context (draft : Draft) : Text :=
  "electronic-mail:composer-recovery:v1:".toList ++ draft.userID ++ ':' :: draft.draftID

/-- `AES.GCM.SealedBox`, with the user whose key it is sealed with. -/
structure SealedBox (Payload : Type) where
  key : Text
  authenticating : Text
  payload : Payload

variable {Payload : Type}

/-- `AES.GCM.seal`. -/
def sealed (draft : Draft) (payload : Payload) : SealedBox Payload :=
  ⟨draft.userID, context draft, payload⟩

/-- `AES.GCM.open`. -/
def SealedBox.opened (box : SealedBox Payload) (draft : Draft) : Option Payload :=
  if box.key = draft.userID ∧ box.authenticating = context draft then some box.payload else none

/-- The directory, and for every draft what was last written for it and not removed since. -/
structure Recovery (Payload : Type) where
  files : Text × Text → Option (SealedBox Payload)
  written : Draft → Option Payload

inductive Call (Payload : Type) where
  | write (draft : Draft) (payload : Payload)
  | read (draft : Draft)
  | remove (draft : Draft)

variable (r : Recovery Payload)

def read (draft : Draft) : Option Payload :=
  (r.files (fileURL isLetter isNumber draft)).bind fun box => box.opened draft

def write (draft : Draft) (payload : Payload) : Recovery Payload where
  files := Function.update r.files (fileURL isLetter isNumber draft) (some (sealed draft payload))
  written := Function.update r.written draft (some payload)

def remove (draft : Draft) : Recovery Payload where
  files := Function.update r.files (fileURL isLetter isNumber draft) none
  written := Function.update r.written draft none

def call : Call Payload → Recovery Payload
  | .write draft payload => write isLetter isNumber r draft payload
  | .read _ => r
  | .remove draft => remove isLetter isNumber r draft

def Recovery.empty : Recovery Payload := ⟨fun _ => none, fun _ => none⟩

/-! ## What is expected of it -/

def Recovered : Prop := ∀ draft, read isLetter isNumber r draft = r.written draft

def Unrevealed : Prop :=
  ∀ draft payload, read isLetter isNumber r draft = some payload → r.written draft = some payload

/-- The condition on a call: the file that it writes or removes is not the one of another draft that
has been written. -/
def SparesOthers : Call Payload → Prop
  | .write draft _ | .remove draft =>
    ∀ other, fileURL isLetter isNumber other = fileURL isLetter isNumber draft → other ≠ draft →
      r.written other = none
  | .read _ => True

end Store

/-! ## Boxes -/

section Runs

variable {isLetter isNumber : Char → Bool} {Payload : Type} {r : Recovery Payload}
  {draft other : Draft} {payload : Payload}

theorem opened_sealed : (sealed draft payload).opened other =
    if other = draft then some payload else none := by
  unfold SealedBox.opened sealed
  by_cases h : other = draft
  · simp [h]
  · rw [if_neg h, if_neg]
    rintro ⟨huser, hcontext⟩
    obtain ⟨userID, draftID⟩ := draft
    obtain ⟨userID', draftID'⟩ := other
    obtain rfl : userID = userID' := huser
    have hdraft := List.append_cancel_left hcontext
    exact h (congrArg (Draft.mk userID) (List.tail_eq_of_cons_eq hdraft).symm)

variable (isLetter isNumber) in
/-- Every file holds what was last written for the draft that it was sealed for. -/
def Filed (r : Recovery Payload) : Prop :=
  ∀ url box, r.files url = some box → ∃ draft payload, url = fileURL isLetter isNumber draft ∧
    box = sealed draft payload ∧ r.written draft = some payload

variable (isLetter isNumber) in
def Kept (r : Recovery Payload) : Prop :=
  ∀ draft payload, r.written draft = some payload →
    r.files (fileURL isLetter isNumber draft) = some (sealed draft payload)

variable (isLetter isNumber) in
def Recovery.put (r : Recovery Payload) (draft : Draft) (value : Option Payload) :
    Recovery Payload where
  files := Function.update r.files (fileURL isLetter isNumber draft) (value.map (sealed draft))
  written := Function.update r.written draft value

section Put

variable {value : Option Payload} {url : Text × Text}

theorem put_files_self : (r.put isLetter isNumber draft value).files
    (fileURL isLetter isNumber draft) = value.map (sealed draft) := Function.update_self ..

theorem put_files_of_ne (h : url ≠ fileURL isLetter isNumber draft) :
    (r.put isLetter isNumber draft value).files url = r.files url := Function.update_of_ne h ..

theorem put_written_self : (r.put isLetter isNumber draft value).written draft = value :=
  Function.update_self ..

theorem put_written_of_ne (h : other ≠ draft) :
    (r.put isLetter isNumber draft value).written other = r.written other :=
  Function.update_of_ne h ..

theorem Filed.put (h : Filed isLetter isNumber r) (draft : Draft) (value : Option Payload) :
    Filed isLetter isNumber (r.put isLetter isNumber draft value) := by
  intro url box hbox
  by_cases hurl : url = fileURL isLetter isNumber draft
  · subst hurl
    rw [put_files_self] at hbox
    obtain ⟨payload, rfl, rfl⟩ := Option.map_eq_some_iff.1 hbox
    exact ⟨draft, payload, rfl, rfl, put_written_self⟩
  · rw [put_files_of_ne hurl] at hbox
    obtain ⟨other, payload, rfl, rfl, hwritten⟩ := h url box hbox
    have hother : other ≠ draft := fun heq => hurl (heq ▸ rfl)
    exact ⟨other, payload, rfl, rfl, (put_written_of_ne hother).trans hwritten⟩

theorem Filed.unrevealed (h : Filed isLetter isNumber r) : Unrevealed isLetter isNumber r := by
  intro draft payload hread
  obtain ⟨box, hbox, hopened⟩ := Option.bind_eq_some_iff.1 hread
  obtain ⟨other, payload', -, rfl, hwritten⟩ := h _ box hbox
  rw [opened_sealed] at hopened
  split at hopened
  · next heq => rw [heq, hwritten, hopened]
  · cases hopened

theorem Kept.recovered (hkept : Kept isLetter isNumber r) (hfiled : Filed isLetter isNumber r) :
    Recovered isLetter isNumber r := by
  intro draft
  cases hwritten : r.written draft with
  | none =>
    rw [Option.eq_none_iff_forall_ne_some]
    intro payload hread
    rw [hfiled.unrevealed draft payload hread] at hwritten
    cases hwritten
  | some payload =>
    unfold read
    rw [hkept draft payload hwritten, Option.bind_some, opened_sealed, if_pos rfl]

theorem Kept.put (h : Kept isLetter isNumber r)
    (hspares : ∀ other, fileURL isLetter isNumber other = fileURL isLetter isNumber draft →
      other ≠ draft → r.written other = none) (value : Option Payload) :
    Kept isLetter isNumber (r.put isLetter isNumber draft value) := by
  intro other payload hwritten
  by_cases hother : other = draft
  · subst hother
    rw [put_written_self] at hwritten
    rw [put_files_self, hwritten, Option.map_some]
  · rw [put_written_of_ne hother] at hwritten
    have hurl : fileURL isLetter isNumber other ≠ fileURL isLetter isNumber draft := by
      intro hurl
      rw [hspares other hurl hother] at hwritten
      cases hwritten
    exact (put_files_of_ne hurl).trans (h other payload hwritten)

/-- A change that leaves all drafts recovered has spared the others: what is in the file now opens
for none of them. -/
theorem spares_of_put (h : Recovered isLetter isNumber (r.put isLetter isNumber draft value))
    (hurl : fileURL isLetter isNumber other = fileURL isLetter isNumber draft)
    (hother : other ≠ draft) : r.written other = none := by
  have hread := h other
  rw [put_written_of_ne hother] at hread
  rw [← hread, read, hurl, put_files_self]
  cases value with
  | none => rfl
  | some payload => exact opened_sealed.trans (if_neg hother)

end Put

/-- **Recovered drafts.** In every run of calls nothing is read but what was last written for the
draft, and every draft is read as it was last written throughout exactly the runs in which no call
writes or removes the file of another draft. -/
theorem recovered_iff (isLetter isNumber : Char → Bool) (calls : List (Call Payload)) :
    Throughout (call isLetter isNumber) (Unrevealed isLetter isNumber) Recovery.empty calls ∧
      (Throughout (call isLetter isNumber) (Recovered isLetter isNumber) Recovery.empty calls ↔
        Along (call isLetter isNumber) (SparesOthers isLetter isNumber) Recovery.empty calls) := by
  have hfiled : Filed isLetter isNumber (Recovery.empty : Recovery Payload) := nofun
  have hkept : Kept isLetter isNumber (Recovery.empty : Recovery Payload) := nofun
  have hstep (r : Recovery Payload) (c : Call Payload) (h : Filed isLetter isNumber r) :
      Filed isLetter isNumber (call isLetter isNumber r c) := by
    cases c with
    | write draft payload => exact h.put draft (some payload)
    | read draft => exact h
    | remove draft => exact h.put draft none
  constructor
  · have hall := throughout_of_step (fun r c h _ => hstep r c h) hfiled
      (along_of_forall (fun _ _ => trivial) Recovery.empty calls)
    exact hall.mono fun _ h => h.unrevealed
  · refine @throughout_iff_along _ _ calls (call isLetter isNumber) _ _ _
      (fun r => Filed isLetter isNumber r ∧ Kept isLetter isNumber r)
      (fun r h => h.2.recovered h.1) (fun r c h hspares => ⟨hstep r c h.1, ?_⟩)
      (fun r c h hrecovered => ?_) ⟨hfiled, hkept⟩
    · cases c with
      | write draft payload => exact h.2.put hspares (some payload)
      | read draft => exact h.2
      | remove draft => exact h.2.put hspares none
    · cases c with
      | write draft payload =>
        exact fun other => @spares_of_put _ _ _ r draft other (some payload) hrecovered
      | read draft => trivial
      | remove draft => exact fun other => @spares_of_put _ _ _ r draft other none hrecovered

end Runs

/-- The draft `a_b` of the user takes the file of the draft `a.b`. -/
theorem overwritten_recovery : ¬ Throughout (call Char.isAlpha Char.isDigit)
    (Recovered Char.isAlpha Char.isDigit) Recovery.empty
    [.write ⟨['u'], "a.b".toList⟩ "first", .write ⟨['u'], "a_b".toList⟩ "second"] := by
  intro h
  exact absurd (h.last ⟨['u'], "a.b".toList⟩) (by decide +kernel)

end ElectronicMail.Offline.ComposerRecovery
