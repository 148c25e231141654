import ElectronicMail.Accounts.Delivery
import ElectronicMail.Drafts.Row

/-!
# Drafts on account-scoped mailboxes

`save_draft`, `send_draft` and `delete_draft` of the account-scoped path read the row
of the draft, ask Gmail, and write the row, with no lock around the three. Gmail gives
every new draft an id of its own; a draft that was sent or deleted is not found any
more. `draftStep` lets any number of calls for one client draft take these steps in
any order, lose an answer of Gmail and stop at any point.

A call that ends between `drafts.create` and the write of the row leaves a draft in
Gmail that no row names, a save that read the row before the draft was sent takes the
row out of `sent`, and `send_draft` never looks at the state (`accountDraft_refuted`).
`accountDraft_sound` says that nothing else goes wrong.
-/

namespace ElectronicMail.Accounts

open Foundations
open Drafts (ClientDraft DraftState)

/-! ## The row -/

/-- `upsert_draft` with the state `saved`. -/
def upsertDraft (clientDraftId : String) (gmailDraftId gmailMessageId gmailThreadId : Option String)
    (contentHash : String) (stored : Option ClientDraft) : ClientDraft :=
  match stored with
  | none =>
    ⟨clientDraftId, gmailDraftId, gmailMessageId, gmailThreadId, contentHash, .saved, none, none,
      none⟩
  | some row =>
    { row with
      gmailDraftId := gmailDraftId.or row.gmailDraftId
      gmailMessageId := gmailMessageId.or row.gmailMessageId
      gmailThreadId := gmailThreadId.or row.gmailThreadId
      contentHash := contentHash
      state := .saved
      error := none }

/-- `update_draft_state`; the `UPDATE` has no guard on the state. -/
def updateDraftState (state : DraftState) (clientSendId gmailMessageId gmailThreadId : Option String)
    (row : ClientDraft) : ClientDraft :=
  { row with
    state := state
    error := none
    lastClientSendId := clientSendId.or row.lastClientSendId
    sentMessageId := gmailMessageId.or row.sentMessageId
    gmailThreadId := gmailThreadId.or row.gmailThreadId }

/-- What `save_draft` takes from its request into the row. -/
structure AccountSaveRequest where
  gmailThreadId : Option String
  contentHash : String
  deriving DecidableEq

/-- The `id` of a draft resource of Gmail, and the ids of its message. -/
structure DraftResource where
  id : String
  messageId : Option String
  threadId : Option String
  deriving DecidableEq

/-- What Gmail makes of a request: it is done, done but the answer is lost, or
refused. -/
inductive DraftAnswer where
  | performed (resource : DraftResource)
  | answerLost (resource : DraftResource)
  | refused

/-! ## Calls -/

inductive DraftPhase where
  | idle
  | saving (request : AccountSaveRequest) (existing : Option String)
  | storing (request : AccountSaveRequest) (resource : DraftResource) (draftId : String)
  | deleting (gmailDraftId : String)
  | markingDeleted
  | sending (clientSendId : String) (record : ClientDraft) (draftId : String)
  | markingSent (clientSendId : String) (messageId threadId : Option String)
  | answered (state : DraftState)
  | raised
  deriving DecidableEq

/-- The row of one client draft, the drafts that are in Gmail, the ids it has given, and
the calls. -/
structure DraftSystem where
  row : Option ClientDraft
  live : List String
  issued : List String
  phase : Nat → DraftPhase

def DraftSystem.initial : DraftSystem := ⟨none, [], [], fun _ => .idle⟩

/-- The `gmail_draft_id` of the row. -/
def DraftSystem.draftId (s : DraftSystem) : Option String := s.row.bind ClientDraft.gmailDraftId

def DraftSystem.isIn (s : DraftSystem) (state : DraftState) : Prop :=
  s.row.map ClientDraft.state = some state

instance (s : DraftSystem) (state : DraftState) : Decidable (s.isIn state) :=
  inferInstanceAs (Decidable (_ = _))

inductive DraftStep where
  | save (call : Nat) (request : AccountSaveRequest)
  | delete (call : Nat) (gmailDraftId : String)
  | send (call : Nat) (clientSendId : String)
  | gmail (call : Nat) (answer : DraftAnswer)
  | store (call : Nat)
  | stop (call : Nat)

/-- Call `i` goes on at `ph`. -/
def DraftSystem.goto (s : DraftSystem) (i : Nat) (ph : DraftPhase) : DraftSystem :=
  { s with phase := Function.update s.phase i ph }

/-- `drafts.create`, under an id that Gmail has not given before. -/
def createDraft (s : DraftSystem) (i : Nat) (resource : DraftResource) (ph : DraftPhase) :
    DraftSystem :=
  if resource.id = "" ∨ resource.id ∈ s.issued then s
  else { s.goto i ph with live := resource.id :: s.live, issued := resource.id :: s.issued }

/-- `drafts.delete` and `drafts.send`: the draft is gone. -/
def removeDraft (s : DraftSystem) (i : Nat) (draftId : String) (ph : DraftPhase) : DraftSystem :=
  { s.goto i ph with live := s.live.filter (· ≠ draftId) }

/-- The request of call `i` and the answer of Gmail. A draft that is not in Gmail is
not found. -/
def askGmail (s : DraftSystem) (i : Nat) (answer : DraftAnswer) : DraftSystem :=
  match s.phase i with
  | .saving request none =>
    match answer with
    | .performed resource => createDraft s i resource (.storing request resource resource.id)
    | .answerLost resource => createDraft s i resource .raised
    | .refused => s.goto i .raised
  | .saving request (some draftId) =>
    match answer with
    | .performed resource =>
      if draftId ∈ s.live then s.goto i (.storing request resource draftId)
      else s.goto i .raised
    | .answerLost _ => s.goto i .raised
    | .refused => s.goto i .raised
  | .deleting draftId =>
    match answer with
    | .performed _ =>
      if draftId ∈ s.live then removeDraft s i draftId .markingDeleted else s.goto i .raised
    | .answerLost _ => removeDraft s i draftId .raised
    | .refused => s.goto i .raised
  | .sending clientSendId record draftId =>
    match answer with
    | .performed resource =>
      if draftId ∈ s.live then
        removeDraft s i draftId (.markingSent clientSendId (nonEmpty resource.messageId)
          ((nonEmpty resource.threadId).or record.gmailThreadId))
      else s.goto i .raised
    | .answerLost _ => removeDraft s i draftId .raised
    | .refused => s.goto i .raised
  | _ => s

/-- The write of call `i`. -/
def storeDraft (clientDraftId : String) (s : DraftSystem) (i : Nat) : DraftSystem :=
  match s.phase i with
  | .storing request resource draftId =>
    { s.goto i (.answered .saved) with
      row := some (upsertDraft clientDraftId (some draftId) (nonEmpty resource.messageId)
        ((nonEmpty resource.threadId).or request.gmailThreadId) request.contentHash s.row) }
  | .markingDeleted =>
    { s.goto i (.answered .deleted) with
      row := s.row.map (updateDraftState .deleted none none none) }
  | .markingSent clientSendId messageId threadId =>
    { s.goto i (.answered .sent) with
      row := s.row.map (updateDraftState .sent (some clientSendId) messageId threadId) }
  | _ => s

def draftStep (clientDraftId : String) (s : DraftSystem) : DraftStep → DraftSystem
  | .save i request =>
    match s.phase i with
    | .idle => s.goto i (.saving request (nonEmpty s.draftId))
    | _ => s
  | .delete i gmailDraftId =>
    match s.phase i with
    | .idle =>
      if gmailDraftId ≠ "" ∧ s.draftId = some gmailDraftId then
        s.goto i (.deleting gmailDraftId)
      else s.goto i .raised
    | _ => s
  | .send i clientSendId =>
    match s.phase i with
    | .idle =>
      match s.row, nonEmpty s.draftId with
      | some record, some draftId => s.goto i (.sending clientSendId record draftId)
      | _, _ => s.goto i (.answered .failed)
    | _ => s
  | .gmail i answer => askGmail s i answer
  | .store i => storeDraft clientDraftId s i
  -- An exception, or the end of the process.
  | .stop i => s.goto i .raised

/-! ## The properties -/

def DraftPhase.isOver : DraftPhase → Bool
  | .idle => true
  | .answered _ => true
  | .raised => true
  | _ => false

/-- With no call in progress, every draft in Gmail is the one of the row. -/
def NoOrphan (s : DraftSystem) : Prop :=
  (∀ i, (s.phase i).isOver = true) → ∀ draftId ∈ s.live, s.draftId = some draftId

section Properties

variable (clientDraftId : String)

def KeepsSentDraft (s : DraftSystem) (t : DraftStep) : Prop :=
  s.isIn .sent → (draftStep clientDraftId s t).isIn .sent

/-- A `send_draft` of a sent draft answers from the row. -/
def AnswersStored (s : DraftSystem) (t : DraftStep) : Prop :=
  ∀ i clientSendId, t = .send i clientSendId → s.phase i = .idle → s.isIn .sent →
    (draftStep clientDraftId s t).phase i = .answered .sent

end Properties

/-- What the calls must not meet: a draft that Gmail has created and the call does not
store, a write of another id over that of a draft in Gmail, a write over a sent row, and
a `send_draft` of one. -/
def CallsInOrder (s : DraftSystem) : DraftStep → Prop
  | .send i _ => s.phase i = .idle → ¬ s.isIn .sent
  | .gmail i (.answerLost _) => ∀ request, s.phase i ≠ .saving request none
  | .store i =>
    (∀ request resource draftId, s.phase i = .storing request resource draftId →
      ¬ s.isIn .sent ∧ ∀ other ∈ s.live, s.draftId = some other → other = draftId) ∧
    (s.phase i = .markingDeleted → ¬ s.isIn .sent)
  | .stop i =>
    ∀ request resource draftId, s.phase i = .storing request resource draftId →
      draftId ∈ s.live → s.draftId = some draftId
  | _ => True

/-! ## Who holds a draft -/

def DraftPhase.held : DraftPhase → Option String
  | .storing _ _ draftId => some draftId
  | _ => none

def Owned (s : DraftSystem) : Prop :=
  ∀ draftId ∈ s.live, s.draftId = some draftId ∨ ∃ i, (s.phase i).held = some draftId

theorem held_of_isOver {ph : DraftPhase} (h : ph.isOver = true) : ph.held = none := by
  cases ph <;> first | rfl | cases h

theorem Owned.noOrphan {s : DraftSystem} (hs : Owned s) : NoOrphan s := by
  intro hover draftId hlive
  rcases hs draftId hlive with h | ⟨i, hi⟩
  · exact h
  · rw [held_of_isOver (hover i)] at hi
    cases hi

theorem draftGoto_phase (s : DraftSystem) (i j : Nat) (ph : DraftPhase) :
    (s.goto i ph).phase j = if j = i then ph else s.phase j := by
  simp [DraftSystem.goto, Function.update_apply]

section Step

variable {s : DraftSystem} {i : Nat}

/-- A step of call `i` that creates no draft keeps every draft owned if it keeps the id
of the row and writes what it holds. -/
theorem Owned.of_step (hs : Owned s) {s' : DraftSystem} (hlive : ∀ d ∈ s'.live, d ∈ s.live)
    (hrow : ∀ d ∈ s'.live, s.draftId = some d → s'.draftId = some d)
    (hheld : ∀ d ∈ s'.live, (s.phase i).held = some d → s'.draftId = some d)
    (hothers : ∀ j, j ≠ i → s'.phase j = s.phase j) : Owned s' := by
  intro d hd
  rcases hs d (hlive d hd) with h | ⟨j, hj⟩
  · exact Or.inl (hrow d hd h)
  by_cases hji : j = i
  · subst hji
    exact Or.inl (hheld d hd hj)
  · exact Or.inr ⟨j, by rwa [hothers j hji]⟩

theorem Owned.goto (hs : Owned s) (ph : DraftPhase)
    (hheld : ∀ d ∈ s.live, (s.phase i).held = some d → s.draftId = some d) :
    Owned (s.goto i ph) :=
  hs.of_step (fun _ hd => hd) (fun _ _ h => h) hheld fun j hj => by
    rw [draftGoto_phase, if_neg hj]

theorem owned_createDraft (hs : Owned s) (hfree : (s.phase i).held = none)
    {resource : DraftResource} {ph : DraftPhase} (hph : ph.held = some resource.id) :
    Owned (createDraft s i resource ph) := by
  unfold createDraft
  split
  · exact hs
  have hgoto : Owned (s.goto i ph) := hs.goto ph fun d _ h => by rw [hfree] at h; cases h
  intro d hd
  rcases List.mem_cons.1 hd with rfl | hold
  · exact Or.inr ⟨i, (congrArg DraftPhase.held ((draftGoto_phase s i i ph).trans
      (if_pos rfl))).trans hph⟩
  · exact hgoto d hold

theorem owned_removeDraft (hs : Owned s) (hfree : (s.phase i).held = none) (draftId : String)
    (ph : DraftPhase) : Owned (removeDraft s i draftId ph) := by
  refine hs.of_step (i := i) ?_ (fun d _ h => h) ?_ ?_
  · exact fun d hd => (List.mem_filter.1 hd).1
  · intro d _ h
    rw [hfree] at h
    cases h
  · intro j hj
    exact (draftGoto_phase s i j ph).trans (if_neg hj)

theorem owned_askGmail (hs : Owned s) (answer : DraftAnswer)
    (horder : CallsInOrder s (.gmail i answer)) : Owned (askGmail s i answer) := by
  have hgoto : (s.phase i).held = none → ∀ ph, Owned (s.goto i ph) := by
    intro hfree ph
    exact hs.goto ph fun d _ h => by rw [hfree] at h; cases h
  unfold askGmail
  cases hph : s.phase i with
  | saving request existing =>
    have hfree : (s.phase i).held = none := by rw [hph]; rfl
    cases existing with
    | none =>
      cases answer with
      | performed => exact owned_createDraft hs hfree rfl
      | answerLost => exact absurd hph (horder request)
      | refused => exact hgoto hfree _
    | some =>
      cases answer with
      | performed =>
        dsimp only
        split
        · exact hgoto hfree _
        · exact hgoto hfree _
      | answerLost | refused => exact hgoto hfree _
  | deleting | sending =>
    have hfree : (s.phase i).held = none := by rw [hph]; rfl
    cases answer with
    | performed =>
      dsimp only
      split
      · exact owned_removeDraft hs hfree _ _
      · exact hgoto hfree _
    | answerLost => exact owned_removeDraft hs hfree _ _
    | refused => exact hgoto hfree _
  | _ => exact hs

theorem owned_storeDraft (clientDraftId : String) (hs : Owned s)
    (horder : CallsInOrder s (.store i)) : Owned (storeDraft clientDraftId s i) := by
  have hmarked : ∀ (f : ClientDraft → ClientDraft) ph, (s.phase i).held = none →
      (∀ row, (f row).gmailDraftId = row.gmailDraftId) →
        Owned { s.goto i ph with row := s.row.map f } := by
    intro f ph hfree hf
    have hrow : (s.row.map f).bind ClientDraft.gmailDraftId = s.draftId := by
      cases hrow : s.row with
      | none => simp [DraftSystem.draftId, hrow]
      | some row => simp [DraftSystem.draftId, hrow, hf]
    refine hs.of_step (i := i) (fun _ hd => hd) (fun d _ h => ?_) ?_ ?_
    · exact hrow.trans h
    · intro d _ h
      rw [hfree] at h
      cases h
    · intro j hj
      exact (draftGoto_phase s i j ph).trans (if_neg hj)
  unfold storeDraft
  cases hph : s.phase i with
  | storing request resource draftId =>
    have hstored : ∀ stored, (upsertDraft clientDraftId (some draftId)
        (nonEmpty resource.messageId) ((nonEmpty resource.threadId).or request.gmailThreadId)
        request.contentHash stored).gmailDraftId = some draftId := by
      intro stored
      cases stored <;> rfl
    refine hs.of_step (i := i) (fun _ hd => hd) ?_ ?_ ?_
    · intro d hd h
      obtain rfl := (horder.1 request resource draftId hph).2 d hd h
      exact hstored s.row
    · intro d _ h
      rw [hph] at h
      exact (hstored s.row).trans h
    · intro j hj
      exact (draftGoto_phase s i j _).trans (if_neg hj)
  | markingDeleted | markingSent => exact hmarked _ _ (by rw [hph]; rfl) fun _ => rfl
  | _ => exact hs

/-- **Every step keeps the drafts owned**, if it is in order. -/
theorem owned_step (clientDraftId : String) (hs : Owned s) (t : DraftStep)
    (horder : CallsInOrder s t) : Owned (draftStep clientDraftId s t) := by
  have hidle : ∀ i, s.phase i = .idle → ∀ ph, Owned (s.goto i ph) := by
    intro i hph ph
    exact hs.goto ph fun d _ h => by rw [hph] at h; cases h
  cases t with
  | save i =>
    cases hph : s.phase i with
    | idle => simpa only [draftStep, hph] using hidle i hph _
    | _ => simpa only [draftStep, hph] using hs
  | delete i | send i =>
    cases hph : s.phase i with
    | idle =>
      simp only [draftStep, hph]
      split
      · exact hidle i hph _
      · exact hidle i hph _
    | _ => simpa only [draftStep, hph] using hs
  | gmail i answer => exact owned_askGmail hs answer horder
  | store i => exact owned_storeDraft clientDraftId hs horder
  | stop i =>
    apply hs.goto
    intro d hd h
    cases hph : s.phase i with
    | storing request resource =>
      rw [hph] at h
      obtain rfl := Option.some.inj h
      exact horder request resource _ hph hd
    | _ =>
      rw [hph] at h
      cases h

end Step

variable {t : DraftStep}

/-! ## Sent is final -/

section Sent

variable {s : DraftSystem}

theorem askGmail_row (s : DraftSystem) (i : Nat) (answer : DraftAnswer) :
    (askGmail s i answer).row = s.row := by
  have hcreate : ∀ resource ph, (createDraft s i resource ph).row = s.row := by
    intro resource ph
    unfold createDraft
    split <;> rfl
  unfold askGmail
  cases s.phase i with
  | saving request existing =>
    cases existing with
    | none =>
      cases answer with
      | performed | answerLost => exact hcreate _ _
      | refused => rfl
    | some =>
      cases answer with
      | performed =>
        dsimp only
        split <;> rfl
      | _ => rfl
  | deleting | sending =>
    cases answer with
    | performed =>
      dsimp only
      split <;> rfl
    | _ => rfl
  | _ => rfl

theorem draftStep_row (clientDraftId : String) (s : DraftSystem)
    (ht : ∀ i, t ≠ .store i) : (draftStep clientDraftId s t).row = s.row := by
  cases t with
  | save i =>
    cases hph : s.phase i with
    | idle =>
      simp only [draftStep, hph]
      rfl
    | _ => simp only [draftStep, hph]
  | delete i | send i =>
    cases hph : s.phase i with
    | idle =>
      simp only [draftStep, hph]
      split <;> rfl
    | _ => simp only [draftStep, hph]
  | gmail i answer => exact askGmail_row s i answer
  | store i => exact absurd rfl (ht i)
  | stop i => rfl

theorem keepsSentDraft_of_callsInOrder (clientDraftId : String)
    (horder : CallsInOrder s t) : KeepsSentDraft clientDraftId s t := by
  intro hsent
  by_cases ht : ∃ i, t = .store i
  · obtain ⟨i, rfl⟩ := ht
    show (storeDraft clientDraftId s i).isIn .sent
    unfold storeDraft
    cases hph : s.phase i with
    | storing request resource draftId =>
      exact absurd hsent (horder.1 request resource draftId hph).1
    | markingDeleted => exact absurd hsent (horder.2 hph)
    | markingSent =>
      cases hrow : s.row with
      | none => simp [DraftSystem.isIn, hrow] at hsent
      | some row => simp [DraftSystem.isIn, updateDraftState]
    | _ => exact hsent
  · have hrow := draftStep_row clientDraftId s fun i h => ht ⟨i, h⟩
    unfold DraftSystem.isIn
    rw [hrow]
    exact hsent

theorem answersStored_of_callsInOrder (clientDraftId : String)
    (horder : CallsInOrder s t) : AnswersStored clientDraftId s t := by
  rintro i clientSendId rfl hph hsent
  exact absurd hsent (horder hph)

end Sent

/-! ## Runs -/

/-- **Account-scoped drafts.** In every interleaving of saves, sends and deletions of one
client draft whose steps are in order, the only draft left in Gmail with no call in
progress is the one of the row, a sent draft stays sent, and a `send_draft` of a sent
draft answers from the row. -/
theorem accountDraft_sound (clientDraftId : String) (steps : List DraftStep)
    (horder : Along (draftStep clientDraftId) CallsInOrder .initial steps) :
    Throughout (draftStep clientDraftId) NoOrphan .initial steps ∧
      Along (draftStep clientDraftId) (KeepsSentDraft clientDraftId) .initial steps ∧
      Along (draftStep clientDraftId) (AnswersStored clientDraftId) .initial steps := by
  have hinitial : Owned .initial := fun _ h => absurd h List.not_mem_nil
  refine ⟨?_, ?_, ?_⟩
  · apply Throughout.mono fun s => Owned.noOrphan
    exact throughout_of_step (fun s t hs h => owned_step clientDraftId hs t h) hinitial horder
  · exact along_of_step (I := fun _ => True)
      (fun s t _ h => ⟨keepsSentDraft_of_callsInOrder clientDraftId h, trivial⟩) trivial horder
  · exact along_of_step (I := fun _ => True)
      (fun s t _ h => ⟨answersStored_of_callsInOrder clientDraftId h, trivial⟩) trivial horder

/-! ## One draft that goes well, and three that do not -/

def helloRequest : AccountSaveRequest := ⟨none, "h1"⟩

def helloDraft : DraftResource := ⟨"d1", some "m1", some "t1"⟩

def savedDraft : List DraftStep := [.save 0 helloRequest, .gmail 0 (.performed helloDraft), .store 0]

def sentDraft : List DraftStep :=
  savedDraft ++ [.send 1 "s1", .gmail 1 (.performed ⟨"d1", some "m2", some "t1"⟩), .store 1]

theorem accountDraft_sound_sentDraft :
    Throughout (draftStep "c1") NoOrphan .initial sentDraft ∧
      Along (draftStep "c1") (KeepsSentDraft "c1") .initial sentDraft ∧
      Along (draftStep "c1") (AnswersStored "c1") .initial sentDraft := by
  apply accountDraft_sound
  refine ⟨trivial, trivial, ⟨?_, ?_⟩, ?_, trivial, ⟨?_, ?_⟩, trivial⟩
  · rintro request resource draftId -
    exact ⟨by decide +kernel, fun other _ h => nomatch h⟩
  · intro h
    exact nomatch h
  · intro _
    decide +kernel
  · intro request resource draftId h
    exact nomatch h
  · intro h
    exact nomatch h

/-- The answer of `drafts.create` is lost. -/
def lostCreation : List DraftStep := [.save 0 helloRequest, .gmail 0 (.answerLost helloDraft)]

/-- A save reads the row and updates the draft in Gmail, the draft is sent, and the save
writes the row. -/
def saveOverSent : List DraftStep :=
  savedDraft ++ [.save 2 helloRequest, .gmail 2 (.performed helloDraft), .send 1 "s1",
    .gmail 1 (.performed ⟨"d1", some "m2", some "t1"⟩), .store 1, .store 2]

/-- The draft in Gmail is in no row; the sent draft is saved; and a second `send_draft`
asks Gmail again. -/
theorem accountDraft_refuted :
    ¬ Throughout (draftStep "c1") NoOrphan .initial lostCreation ∧
      ¬ Along (draftStep "c1") (KeepsSentDraft "c1") .initial saveOverSent ∧
      ¬ Along (draftStep "c1") (AnswersStored "c1") .initial (sentDraft ++ [.send 2 "s2"]) := by
  refine ⟨?_, ?_, ?_⟩
  · intro h
    have hover : ∀ i, ((after (draftStep "c1") .initial lostCreation).phase i).isOver = true := by
      intro i
      cases i with
      | zero | succ i => rfl
    exact absurd (h.last hover "d1" (by decide +kernel)) (by decide +kernel)
  · intro h
    have hlast : KeepsSentDraft "c1" (after (draftStep "c1") .initial saveOverSent.dropLast)
        (.store 2) := h.last
    exact absurd (hlast (by decide +kernel)) (by decide +kernel)
  · intro h
    exact absurd (h.last 2 "s2" rfl rfl (by decide +kernel)) (by decide +kernel)

end ElectronicMail.Accounts
