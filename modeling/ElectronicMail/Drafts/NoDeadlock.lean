import ElectronicMail.Foundations.Run
import ElectronicMail.Drafts.LockScopes

/-!
# Advisory locks do not deadlock

The global order is Google subject, provider barrier, Gmail draft, client draft,
transaction lock. Every scope takes its locks upwards in this order or takes a lock that
its session has already; the keys of added accounts are only ever shared. So every
operation is an ordered program, and the wait-for graph has no cycle
(`advisoryLocks_acyclic`).
-/

namespace ElectronicMail.Drafts

open Foundations
open Foundations.Locks

universe u

def lockRank : LockKey → Nat
  | .googleSubject _ => 0
  | .userMailProvider _ => 1
  | .gmailDraft _ _ => 2
  | .clientDraft _ _ => 3
  | .userMail _ => 4

def ShareOnly (key : LockKey) : Prop :=
  ∃ gmailAccountId, key = .userMailProvider (.account gmailAccountId)

abbrev KeepsOrder (holds : List LockHold) (part : List LockAction) : Prop :=
  Keeps lockRank ShareOnly holds part

def Under (n : Nat) (holds : List LockHold) : Prop :=
  ∀ hold ∈ holds, ShareOnly hold.key ∨ lockRank hold.key < n

variable {holds : List LockHold}

theorem Under.cons {n : Nat} {hold : LockHold} (hhold : ShareOnly hold.key ∨ lockRank hold.key < n)
    (h : Under n holds) : Under n (hold :: holds) := by
  intro other hother
  rcases List.mem_cons.1 hother with rfl | hother
  · exact hhold
  · exact h other hother

theorem Under.mono {n n' : Nat} (hle : n ≤ n') (h : Under n holds) : Under n' holds := by
  intro hold hhold
  rcases h hold hhold with hshare | hlt
  · exact Or.inl hshare
  · exact Or.inr (lt_of_lt_of_le hlt hle)

theorem Under.nil (n : Nat) : Under n [] := List.forall_mem_nil _

/-! ## Requests that respect the order -/

section Admissible

variable {holds : List LockHold} {hold : LockHold}

theorem admissible_of_under (hkey : ¬ ShareOnly hold.key) (h : Under (lockRank hold.key) holds) :
    Admissible lockRank ShareOnly holds hold :=
  ⟨fun hshare => absurd hshare hkey, Or.inr (Or.inr h)⟩

theorem admissible_of_mem (hkey : ¬ ShareOnly hold.key) (h : hold ∈ holds) :
    Admissible lockRank ShareOnly holds hold :=
  ⟨fun hshare => absurd hshare hkey, Or.inl ⟨hold, h, rfl, rfl, Or.inl rfl⟩⟩

theorem admissible_account (gmailAccountId : String) :
    Admissible lockRank ShareOnly holds
      (sessionLock .shared (.userMailProvider (.account gmailAccountId))) :=
  ⟨fun _ => rfl, Or.inr (Or.inl ⟨gmailAccountId, rfl⟩)⟩

theorem not_shareOnly_user (userId : String) : ¬ ShareOnly (.userMailProvider (.user userId)) := by
  rintro ⟨_, h⟩
  cases h

theorem not_shareOnly_of_rank {key : LockKey} (h : lockRank key ≠ 1) : ¬ ShareOnly key := by
  rintro ⟨_, rfl⟩
  exact h rfl

theorem not_shareOnly_userMail {userId : String} : ¬ ShareOnly (.userMail userId) :=
  not_shareOnly_of_rank (show (4 : Nat) ≠ 1 by decide)

end Admissible

variable {body : List LockAction}

theorem keeps_scope_one {hold : LockHold} (hadmissible : Admissible lockRank ShareOnly holds hold)
    (h : KeepsOrder (hold :: holds) body) : KeepsOrder holds (advisoryLockScope body [hold]) :=
  Keeps.bracket hadmissible h

theorem keeps_scope_two {first second : LockHold}
    (hfirst : Admissible lockRank ShareOnly holds first)
    (hsecond : Admissible lockRank ShareOnly (first :: holds) second)
    (h : KeepsOrder (second :: first :: holds) body) :
    KeepsOrder holds (advisoryLockScope body [first, second]) :=
  Keeps.bracket hfirst (keeps_scope_one hsecond h)

/-! ## Scopes -/

/-- The barrier of a user can be entered by a session that has it or that holds
nothing above it. -/
def CanEnter (userId : String) (holds : List LockHold) : Prop :=
  sessionLock .shared (.userMailProvider (.user userId)) ∈ holds ∨ Under 1 holds

theorem CanEnter.admissible {userId : String} (h : CanEnter userId holds) :
    Admissible lockRank ShareOnly holds
      (sessionLock .shared (.userMailProvider (.user userId))) := by
  rcases h with hmem | hunder
  · exact admissible_of_mem (not_shareOnly_user userId) hmem
  · exact admissible_of_under (not_shareOnly_user userId) hunder

section Scopes

variable {userId : String} {holds : List LockHold}

theorem keeps_sharedUserMailLock (h : CanEnter userId holds) (hbody : KeepsOrder
      (sessionLock .shared (.userMailProvider (.user userId)) :: holds) body) :
    KeepsOrder holds (sharedUserMailLock userId body) :=
  keeps_scope_one h.admissible hbody

theorem keeps_sharedGmailAccountMailLock (account : MailAccount) (h : CanEnter userId holds)
    (hbody : KeepsOrder (sessionLock .shared (.userMailProvider (account.identity userId)) ::
        sessionLock .shared (.userMailProvider (.user userId)) :: holds) body) :
    KeepsOrder holds (sharedGmailAccountMailLock userId account body) := by
  refine keeps_scope_two h.admissible ?_ hbody
  cases account with
  | primary => exact admissible_of_mem (not_shareOnly_user userId) List.mem_cons_self
  | added gmailAccountId => exact admissible_account gmailAccountId

theorem keeps_userMailWriteTransaction (h : Under 4 holds) :
    KeepsOrder holds (userMailWriteTransaction userId) := by
  have hadmissible : Admissible lockRank ShareOnly holds ⟨.write, .userMail userId, .shared⟩ :=
    admissible_of_under not_shareOnly_userMail h
  exact Keeps.bracket hadmissible Keeps.nil

theorem under_sessionLock_user (h : Under 4 holds) :
    Under 4 (sessionLock .shared (.userMailProvider (.user userId)) :: holds) :=
  h.cons (Or.inr (show (1 : Nat) < 4 by decide))

theorem under_sessionLock_account (account : MailAccount) (h : Under 4 holds) :
    Under 4 (sessionLock .shared (.userMailProvider (account.identity userId)) :: holds) :=
  h.cons (Or.inr (show (1 : Nat) < 4 by decide))

theorem keeps_gmailCall (call : GmailCall) (henter : CanEnter userId holds)
    (hunder : Under 4 holds) : KeepsOrder holds (gmailCall userId call) := by
  refine Keeps.append ?_ (Keeps.flatten ?_)
  · have hbody : ∀ holds', Under 4 holds' → KeepsOrder holds'
        (if call.refreshed then userMailWriteTransaction userId else []) := by
      intro holds' hunder'
      split
      · exact keeps_userMailWriteTransaction hunder'
      · exact Keeps.nil
    unfold createAuthorizedCredentials
    cases call.account with
    | none => exact keeps_sharedUserMailLock henter (hbody _ (under_sessionLock_user hunder))
    | some account =>
      exact keeps_sharedGmailAccountMailLock account henter
        (hbody _ (under_sessionLock_account account (under_sessionLock_user hunder)))
  · intro part hpart
    rw [List.eq_of_mem_replicate hpart]
    exact keeps_sharedUserMailLock henter Keeps.nil

theorem keeps_providerStep (step : ProviderStep) (henter : CanEnter userId holds)
    (hunder : Under 4 holds) : KeepsOrder holds (step.actions userId) := by
  cases step with
  | gmail call => exact keeps_gmailCall call henter hunder
  | write => exact keeps_userMailWriteTransaction hunder

theorem keeps_providerSteps (steps : List ProviderStep) (henter : CanEnter userId holds)
    (hunder : Under 4 holds) : KeepsOrder holds (providerSteps userId steps) := by
  apply Keeps.flatten
  intro part hpart
  obtain ⟨step, -, rfl⟩ := List.mem_map.1 hpart
  exact keeps_providerStep step henter hunder

end Scopes

variable {gmailDraftId : Option String}

/-! ## Draft locks -/

section Draft

variable {userId clientDraftId : String} {holds : List LockHold}

def heldDraftLocks (userId clientDraftId : String) (gmailDraftId : Option String) : List LockHold :=
  (draftLocks userId clientDraftId gmailDraftId).reverse

/-- The draft locks can be taken by a session that has them or that holds nothing
above the provider barrier. -/
def CanLockDraft (userId clientDraftId : String) (gmailDraftId : Option String)
    (holds : List LockHold) : Prop :=
  (∀ hold ∈ draftLocks userId clientDraftId gmailDraftId, hold ∈ holds) ∨ Under 2 holds

theorem keeps_draftLocks (h : CanLockDraft userId clientDraftId gmailDraftId holds)
    (hbody : KeepsOrder (heldDraftLocks userId clientDraftId gmailDraftId ++ holds) body) :
    KeepsOrder holds (advisoryLockScope body (draftLocks userId clientDraftId gmailDraftId)) := by
  have hclient : ¬ ShareOnly (LockKey.clientDraft userId clientDraftId) :=
    not_shareOnly_of_rank (show (3 : Nat) ≠ 1 by decide)
  cases gmailDraftId with
  | none =>
    refine keeps_scope_one ?_ hbody
    rcases h with hmem | hunder
    · exact admissible_of_mem hclient (hmem _ (by simp [draftLocks]))
    · exact admissible_of_under hclient (hunder.mono (show 2 ≤ 3 by decide))
  | some id =>
    have hgmail : ¬ ShareOnly (LockKey.gmailDraft userId id) :=
      not_shareOnly_of_rank (show (2 : Nat) ≠ 1 by decide)
    refine keeps_scope_two ?_ ?_ hbody
    · rcases h with hmem | hunder
      · exact admissible_of_mem hgmail (hmem _ (by simp [draftLocks]))
      · exact admissible_of_under hgmail hunder
    · rcases h with hmem | hunder
      · exact admissible_of_mem hclient (List.mem_cons_of_mem _ (hmem _ (by simp [draftLocks])))
      · exact admissible_of_under hclient
          ((hunder.mono (show 2 ≤ 3 by decide)).cons (Or.inr (show (2 : Nat) < 3 by decide)))

theorem under_heldDraftLocks (h : Under 4 holds) :
    Under 4 (heldDraftLocks userId clientDraftId gmailDraftId ++ holds) := by
  intro hold hhold
  rcases List.mem_append.1 hhold with hdraft | hhold
  · right
    cases gmailDraftId with
    | none =>
      obtain rfl : hold = _ := by simpa [heldDraftLocks, draftLocks] using hdraft
      exact (by decide : (3 : Nat) < 4)
    | some id =>
      have hcases : hold = sessionLock .exclusive (.clientDraft userId clientDraftId) ∨
          hold = sessionLock .exclusive (.gmailDraft userId id) := by
        simpa [heldDraftLocks, draftLocks] using hdraft
      rcases hcases with rfl | rfl
      · exact (by decide : (3 : Nat) < 4)
      · exact (by decide : (2 : Nat) < 4)
  · exact h hold hhold

theorem keeps_getDraft {gmailDraftId : String} (search inside : List ProviderStep)
    (henter : CanEnter userId holds) (hunder : Under 4 holds)
    (hdraft : CanLockDraft userId clientDraftId (some gmailDraftId)
      (sessionLock .shared (.userMailProvider (.user userId)) :: holds)) :
    KeepsOrder holds (getDraft userId clientDraftId gmailDraftId search inside) := by
  refine (keeps_providerSteps search henter hunder).append ?_
  refine keeps_sharedUserMailLock henter (keeps_draftLocks hdraft ?_)
  exact keeps_providerSteps inside
    (Or.inl (List.mem_append.2 (Or.inr List.mem_cons_self)))
    (under_heldDraftLocks (under_sessionLock_user hunder))

/-- The locks that `save_draft` holds under its provider barrier. -/
def barrier (userId : String) : List LockHold :=
  [sessionLock .shared (.userMailProvider (.user userId))]

theorem under_barrier : Under 2 (barrier userId) :=
  (Under.nil 2).cons (Or.inr (show (1 : Nat) < 2 by decide))

theorem keeps_saveStep (step : SaveStep) :
    KeepsOrder (heldDraftLocks userId clientDraftId gmailDraftId ++ barrier userId)
      (step.actions userId clientDraftId gmailDraftId) := by
  have henter : CanEnter userId
      (heldDraftLocks userId clientDraftId gmailDraftId ++ barrier userId) :=
    Or.inl (List.mem_append.2 (Or.inr List.mem_cons_self))
  have hunder : Under 4 (heldDraftLocks userId clientDraftId gmailDraftId ++ barrier userId) :=
    under_heldDraftLocks (under_barrier.mono (by decide))
  cases step with
  | provider step => exact keeps_providerStep step henter hunder
  | reopen search inside =>
    cases gmailDraftId with
    | none => exact Keeps.nil
    | some id =>
      refine keeps_getDraft search inside henter hunder (Or.inl ?_)
      intro hold hhold
      apply List.mem_cons_of_mem
      exact List.mem_append.2 (Or.inl (List.mem_reverse.2 hhold))

theorem keeps_saveScope (gmailDraftId : Option String) (steps : List SaveStep) :
    KeepsOrder (barrier userId) (saveScope userId clientDraftId gmailDraftId steps) := by
  refine keeps_draftLocks (Or.inr under_barrier) (Keeps.flatten ?_)
  intro part hpart
  obtain ⟨step, -, rfl⟩ := List.mem_map.1 hpart
  exact keeps_saveStep step

theorem keeps_clientDraftLock (gmailDraftId : Option String) (steps : List SaveStep)
    (adoptions : List (String × List SaveStep)) :
    KeepsOrder (barrier userId)
      (clientDraftLock userId clientDraftId gmailDraftId steps adoptions) := by
  induction adoptions generalizing gmailDraftId steps with
  | nil => exact keeps_saveScope gmailDraftId steps
  | cons adoption adoptions ih =>
    obtain ⟨adopted, more⟩ := adoption
    simp only [clientDraftLock]
    split
    · exact ih gmailDraftId (steps ++ more)
    · exact (keeps_saveScope gmailDraftId steps).append (ih (some adopted) more)

end Draft

/-! ## Operations -/

theorem keeps_operation (operation : Operation) : KeepsOrder [] operation.actions := by
  have henter : ∀ userId, CanEnter userId [] := fun userId => Or.inr (Under.nil 1)
  have hlocked : ∀ userId clientDraftId gmailDraftId steps,
      KeepsOrder [] (lockedDraftOperation userId clientDraftId gmailDraftId steps) := by
    intro userId clientDraftId gmailDraftId steps
    refine keeps_sharedUserMailLock (henter userId) ?_
    refine keeps_draftLocks (Or.inr under_barrier) ?_
    exact keeps_providerSteps steps (Or.inl (List.mem_append.2 (Or.inr List.mem_cons_self)))
      (under_heldDraftLocks (under_barrier.mono (by decide)))
  cases operation with
  | saveDraft userId clientDraftId gmailDraftId steps adoptions =>
    exact keeps_sharedUserMailLock (henter userId)
      (keeps_clientDraftLock gmailDraftId steps adoptions)
  | getDraft userId clientDraftId gmailDraftId search inside =>
    exact keeps_getDraft search inside (henter userId) (Under.nil 4) (Or.inr under_barrier)
  | deleteDraftById userId clientDraftId gmailDraftId steps
  | sendSavedDraft userId clientDraftId gmailDraftId steps =>
    exact hlocked userId clientDraftId gmailDraftId steps
  | provider userId account steps =>
    cases account with
    | none =>
      exact keeps_sharedUserMailLock (henter userId)
        (keeps_providerSteps steps (Or.inl List.mem_cons_self)
          (under_sessionLock_user (Under.nil 4)))
    | some account =>
      exact keeps_sharedGmailAccountMailLock account (henter userId)
        (keeps_providerSteps steps (Or.inl (List.mem_cons_of_mem _ List.mem_cons_self))
          (under_sessionLock_account account (under_sessionLock_user (Under.nil 4))))
  | unguarded userId steps => exact keeps_providerSteps steps (henter userId) (Under.nil 4)
  | purge userId subjectHash =>
    have hsubject : ¬ ShareOnly (LockKey.googleSubject subjectHash) :=
      not_shareOnly_of_rank (show (0 : Nat) ≠ 1 by decide)
    refine keeps_scope_one (admissible_of_under hsubject (Under.nil 0)) ?_
    refine keeps_scope_two (admissible_of_under (not_shareOnly_user userId) ?_)
      (admissible_of_under not_shareOnly_userMail ?_) (Keeps.flatten ?_)
    · exact (Under.nil 1).cons (Or.inr (show (0 : Nat) < 1 by decide))
    · exact ((Under.nil 4).cons (Or.inr (show (0 : Nat) < 4 by decide))).cons
        (Or.inr (show (1 : Nat) < 4 by decide))
    · intro part hpart
      rw [List.eq_of_mem_replicate hpart]
      exact keeps_scope_one (admissible_of_mem hsubject (by simp)) Keeps.nil

def operationsProgram (operations : List Operation) : List LockAction :=
  (operations.map Operation.actions).flatten

theorem ordered_operationsProgram (operations : List Operation) :
    Ordered lockRank ShareOnly [] (operationsProgram operations) := by
  apply Keeps.ordered
  apply Keeps.flatten
  intro part hpart
  obtain ⟨operation, -, rfl⟩ := List.mem_map.1 hpart
  exact keeps_operation operation

/-- **No deadlock between advisory locks.** Whatever operations any number of owners
run, and however their steps interleave, no owner of the wait-for graph waits, directly
or through others, for itself. -/
theorem advisoryLocks_acyclic {ι : Type u} [DecidableEq ι] (operations : ι → List Operation)
    (events : List (Event ι)) (i : ι) :
    ¬ Relation.TransGen
      (after step (start fun j => operationsProgram (operations j)) events).WaitsFor i i := by
  have hstart : Disciplined lockRank ShareOnly (start fun j => operationsProgram (operations j)) :=
    Disciplined.start fun j => ordered_operationsProgram (operations j)
  exact (after_of_step (fun s event h => h.step event) hstart events).waitsFor_acyclic i

/-- A purge waits for the provider work that it drains, not the other way round. -/
example :
    let s := after step
      (start fun i : Bool => operationsProgram
        (if i then [.purge "u" "subject" 1] else [.provider "u" none [.write]]))
      [.run false, .run true, .run true, .run false]
    s.WaitsFor true false ∧ ¬ s.WaitsFor false true := by
  decide

end ElectronicMail.Drafts
