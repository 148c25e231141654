import ElectronicMail.OAuth.Phases

/-!
# Grants that a revocation kills

A revocation kills every grant of its subject: the stored token of an account, which then
has to be behind the disconnect guard, and the grants of other callbacks, which must not
be stored any more. `GrantPhase.waits` says which callback may still store its grant, and
what keeps it from doing so is a tombstone that is not older than its session, an active
revocation job, or the lock.

`GrantSystem.spares` names the steps that kill more than that: a revocation outside the
lock, one that has not disconnected the account first, a guard that opens over a killed
token, a job that dies. `Careful` is what the other steps do to the callbacks that wait
and to the stored tokens.
-/

namespace ElectronicMail.OAuth

open Jobs (JobStatus)

/-! ## Who is affected by a revocation -/

/-- The process is not in an operation; a session may wait for the user at Google. -/
def GrantPhase.isQuiet : GrantPhase → Bool
  | .idle => true
  | .started _ _ => true
  | _ => false

def GrantPhase.waits : GrantPhase → Option Callback
  | .identifying c => some c
  | .locking c => some c
  | .lookingUp c => some c
  | .lookingAccount c _ => some c
  | .checkingEpoch c => some c
  | .checkingPending c => some c
  | .colliding c _ => some c
  | .linking c _ => some c
  | .upserting c => some c
  | .reconnecting c _ => some c
  | _ => none

def GrantPhase.isChecked : GrantPhase → Bool
  | .colliding _ _ => true
  | .linking _ _ => true
  | .upserting _ => true
  | .reconnecting _ _ => true
  | _ => false

/-- The subject whose revocation Google has confirmed, and which is to be recorded. -/
def GrantPhase.confirmed : GrantPhase → Option Subject
  | .cleanRecording c => some c.subject
  | .recording r _ => some r.subject
  | _ => none

def Revoker.asOperation : Revoker → Option Operation
  | .operation op => some op
  | _ => none

/-- The operation that revokes a stored token and has not closed the guard yet. -/
def GrantPhase.operates : GrantPhase → Option Operation
  | .revoking r => r.owner.asOperation
  | .recording r _ => r.owner.asOperation
  | .completing r _ => r.owner.asOperation
  | .guarding op => some op
  | .closing op => some op
  | _ => none

/-- An account of the subject has a token that is not behind the disconnect guard. -/
def Ledger.exposed (w : Ledger) (subject : Subject) : Bool :=
  w.accounts.any fun account =>
    account.googleSub = subject && account.token.isSome && !w.isGuarded account.userId

def Ledger.tokenKilled (w : Ledger) (op : Operation) : Bool :=
  w.accounts.any fun account =>
    account.userId = op.userId && account.googleSub = op.subject &&
      account.token.any fun g => w.killed.contains g

variable {n : Nat}

/-- With no operation in progress, a token that is not behind the disconnect guard is not
one that a revocation has killed. -/
def GrantSystem.NoneKilled (s : GrantSystem n) : Prop :=
  (∀ i, (s.phase i).isQuiet = true) → ∀ a ∈ s.ledger.accounts,
    s.ledger.isGuarded a.userId = false → ∀ g, a.token = some g → g ∉ s.ledger.killed

/-! ## When a step spares the stored tokens -/

def GrantSystem.alone (s : GrantSystem n) (i : Fin n) (subject : Subject) : Bool :=
  decide (∀ j, j ≠ i → ∀ c ∈ (s.phase j).waits, c.subject ≠ subject)

/-- Callbacks of the subject are kept from storing their grants by a job, or there are no
others. -/
def GrantSystem.withheld (s : GrantSystem n) (i : Fin n) (subject : Subject) : Bool :=
  s.ledger.hasActive subject || s.alone i subject

def Ledger.harmless (w : Ledger) (g : Grant) (ch : Choice) : Bool :=
  !ch.processed || decide (w.Dead g)

/-- The step of process `i` kills no token that is in use. -/
def GrantSystem.spares (s : GrantSystem n) (i : Fin n) (ch : Choice) : GrantPhase → Bool
  -- A revocation outside the lock finds no stored token and no other callback.
  | .dropping c =>
    s.ledger.harmless c.grant ch || (!s.ledger.exposed c.subject && s.alone i c.subject)
  -- A cleanup has disconnected the user, or there is no token.
  | .cleanRevoking c =>
    s.ledger.harmless c.grant ch ||
      ((match c.user with
        | some id => s.ledger.isGuarded id
        | none => !s.ledger.exposed c.subject) &&
      (ch.answered || s.withheld i c.subject))
  | .cleanRecording c => ch.ok || s.withheld i c.subject
  -- The user that a callback has disconnected still is, and a worker finds no token.
  | .revoking r =>
    s.ledger.harmless r.grant ch ||
      ((match r.owner with
        | .callback c => c.user.all s.ledger.isGuarded
        | .operation _ => true
        | .worker _ => !s.ledger.exposed r.subject) &&
      (ch.answered || s.withheld i r.subject))
  | .recording r _ => ch.ok || s.withheld i r.subject
  -- The guard that a sign-in opens is not over the killed token of a linked account.
  | .reconnecting c id =>
    !ch.ok || decide (∀ a ∈ s.ledger.accounts, a.userId = id → a.googleSub ≠ c.subject →
      ∀ g ∈ a.token, g ∉ s.ledger.killed)
  -- An operation that has killed the token closes the guard.
  | .closing op => ch.ok || s.ledger.isGuarded op.userId || !s.ledger.tokenKilled op
  | .guarding op => ch.ok || s.ledger.isGuarded op.userId || !s.ledger.tokenKilled op
  -- A job does not die while it withholds callbacks.
  | .failing r =>
    !ch.ok || decide (r.attemptCount < googleTokenRevocationMaxAttempts) ||
      s.alone i r.subject ||
      s.ledger.jobs.any fun job =>
        job.isActive && job.subjectHash = r.subject && !decide (job.id = r.jobId)
  | _ => true

def Spares (s : GrantSystem n) : GrantStep n → Prop
  | .advance i ch => s.spares i ch (s.phase i) = true
  | _ => True

instance (s : GrantSystem n) : ∀ l, Decidable (Spares s l)
  | .advance i ch => inferInstanceAs (Decidable (s.spares i ch (s.phase i) = true))
  | .startSession _ _ | .startOperation _ _ _ | .claim _ _ | .expire _ =>
    inferInstanceAs (Decidable True)

variable {ph : GrantPhase}

theorem Ledger.PhaseOk.callbackOk {w : Ledger} (h : w.PhaseOk ph) {c : Callback}
    (hc : ph.waits = some c) : w.CallbackOk c := by
  cases ph with
  | reconnecting => cases hc; exact h.1
  | identifying c' | locking c' | lookingUp c' | lookingAccount | checkingEpoch c'
  | checkingPending c' | colliding | linking | upserting c' => cases hc; exact h
  | _ => cases hc

/-! ## What a process knows of the accounts of its subject -/

/-- `callback_user_id` is the owner of the account of the subject. -/
def Ledger.OwnerKnown (w : Ledger) (c : Callback) : Prop :=
  ∀ a ∈ w.accounts, a.googleSub = c.subject → c.user = some a.userId

/-- If there is a `callback_user_id`, then it is the owner of the account. -/
def Ledger.OwnerTrue (w : Ledger) (c : Callback) : Prop :=
  ∀ a ∈ w.accounts, a.googleSub = c.subject → ∀ id, c.user = some id → a.userId = id

def Ledger.OpKnown (w : Ledger) (op : Operation) : Prop :=
  ∀ a ∈ w.accounts, a.googleSub = op.subject → a.userId = op.userId

def Ledger.RevokerKnown (w : Ledger) : Revoker → Prop
  | .callback c => w.OwnerKnown c
  | .operation op => w.OpKnown op
  | .worker _ => True

def Ledger.LookedUp (w : Ledger) (c : Callback) : Prop :=
  (c.intent = none → w.OwnerKnown c) ∧ (c.intent ≠ none → c.user = none)

/-- What a process knows of the accounts of the subject whose lock it holds. -/
def Ledger.Knows (w : Ledger) : GrantPhase → Prop
  | .identifying c => c.user = none
  | .locking c => c.user = none
  | .lookingUp c => c.user = none ∧ c.intent = none
  | .lookingAccount c existing => c.user = none ∧ c.intent = none ∧
      ∀ a ∈ w.accounts, a.googleSub = c.subject → existing.map (·.id) = some a.userId
  | .checkingEpoch c => w.LookedUp c
  | .checkingPending c => w.LookedUp c
  | .colliding c _ => w.LookedUp c
  | .linking c _ => w.LookedUp c
  | .upserting c => c.intent = none ∧ w.OwnerKnown c
  | .reconnecting c _ => c.intent = none ∧ w.OwnerKnown c
  | .tracking c => w.OwnerKnown c
  | .droppingStored c _ (some _) => w.OwnerKnown c
  | .marking c _ (some _) => w.OwnerKnown c
  | .droppingStored c _ none => w.OwnerTrue c
  | .marking c _ none => w.OwnerTrue c
  | .cleanRevoking c => w.OwnerTrue c
  | .outer c => c.user = none
  | .queueing c _ => c.user = none
  | .opEnqueuing op _ => w.OpKnown op
  | .checkingJob r => w.RevokerKnown r.owner
  | .revoking r => w.RevokerKnown r.owner
  | .recording r _ => w.RevokerKnown r.owner
  | .completing r _ => w.RevokerKnown r.owner
  | .workLocking r => ∃ attemptCount, r.owner = .worker attemptCount
  | _ => True

variable {subject : Subject}

section Ledger

variable {held : Option Subject} {w w' : Ledger}

/-- Behind the back of the process that holds the lock of the subject, its accounts only
lose tokens. -/
theorem Ledger.Extends.old_account (h : w.Extends held w') {a' : GmailAccount}
    (ha' : a' ∈ w'.accounts) (hne : held ≠ some a'.googleSub) :
    ∃ a ∈ w.accounts, a.googleSub = a'.googleSub ∧ a.userId = a'.userId ∧
      (a'.token = a.token ∨ a'.token = none) := by
  rcases h.accounts a' ha' with hold | hheld
  · exact hold
  · exact absurd hheld hne

variable {c : Callback}

theorem Ledger.OwnerKnown.true (h : w.OwnerKnown c) : w.OwnerTrue c := by
  intro a ha hsub id hid
  have := h a ha hsub
  rw [hid] at this
  exact (Option.some.inj this).symm

theorem Ledger.OwnerTrue.of_none (h : c.user = none) : w.OwnerTrue c := by
  intro a _ _ id hid
  rw [h] at hid
  cases hid

theorem Ledger.OwnerKnown.keep (hc : w.OwnerKnown c) (h : w.Extends held w')
    (hne : held ≠ some c.subject) : w'.OwnerKnown c := by
  intro a' ha' hsub
  obtain ⟨a, ha, hs, ho, -⟩ := h.old_account ha' (hsub ▸ hne)
  rw [← ho]
  exact hc a ha (hs.trans hsub)

theorem Ledger.OwnerTrue.keep (hc : w.OwnerTrue c) (h : w.Extends held w')
    (hne : held ≠ some c.subject) : w'.OwnerTrue c := by
  intro a' ha' hsub
  obtain ⟨a, ha, hs, ho, -⟩ := h.old_account ha' (hsub ▸ hne)
  rw [← ho]
  exact hc a ha (hs.trans hsub)

theorem Ledger.OpKnown.keep {op : Operation} (hop : w.OpKnown op) (h : w.Extends held w')
    (hne : held ≠ some op.subject) : w'.OpKnown op := by
  intro a' ha' hsub
  obtain ⟨a, ha, hs, ho, -⟩ := h.old_account ha' (hsub ▸ hne)
  rw [← ho]
  exact hop a ha (hs.trans hsub)

theorem Ledger.LookedUp.keep (hc : w.LookedUp c) (h : w.Extends held w')
    (hne : held ≠ some c.subject) : w'.LookedUp c :=
  ⟨fun hintent => (hc.1 hintent).keep h hne, hc.2⟩

theorem Ledger.RevokerKnown.keep {r : Revocation} (hr : w.RevokerKnown r.owner)
    (hok : w.RevocationOk r) (h : w.Extends held w') (hne : held ≠ some r.subject) :
    w'.RevokerKnown r.owner := by
  have howner := hok.2.2
  unfold Ledger.OwnerOk at howner
  cases hown : r.owner with
  | callback c =>
    simp only [hown] at howner
    rw [hown] at hr
    exact Ledger.OwnerKnown.keep hr h (howner.2.1 ▸ hne)
  | operation op =>
    simp only [hown] at howner
    rw [hown] at hr
    exact Ledger.OpKnown.keep hr h (howner.2 ▸ hne)
  | worker => trivial

theorem Ledger.Knows.keep (hk : w.Knows ph) (hph : w.PhaseOk ph)
    (h : w.Extends held w') (hne : ∀ subject, ph.lock = some subject → held ≠ some subject) :
    w'.Knows ph := by
  cases ph with
  | lookingAccount =>
    refine ⟨hk.1, hk.2.1, fun a' ha' hsub => ?_⟩
    obtain ⟨a, ha, hs, ho, -⟩ := h.old_account ha' (hsub ▸ hne _ rfl)
    rw [← ho]
    exact hk.2.2 a ha (hs.trans hsub)
  | checkingEpoch c | checkingPending c | colliding | linking =>
    exact Ledger.LookedUp.keep hk h (hne _ rfl)
  | upserting c | reconnecting => exact ⟨hk.1, hk.2.keep h (hne _ rfl)⟩
  | tracking c => exact Ledger.OwnerKnown.keep hk h (hne _ rfl)
  | droppingStored c id jobId | marking c id jobId =>
    cases jobId with
    | none => exact Ledger.OwnerTrue.keep hk h (hne _ rfl)
    | some k => exact Ledger.OwnerKnown.keep hk h (hne _ rfl)
  | cleanRevoking c => exact Ledger.OwnerTrue.keep hk h (hne _ rfl)
  | opEnqueuing => exact Ledger.OpKnown.keep hk h (hne _ rfl)
  | checkingJob r | revoking r | recording | completing =>
    exact Ledger.RevokerKnown.keep hk hph h (hne _ rfl)
  | _ => exact hk

/-! ### Where a step leads -/

variable {c : Callback} {r : Revocation}

theorem Ledger.LookedUp.failed (hc : w.LookedUp c) : w.Knows c.failed := by
  unfold Callback.failed
  cases hintent : c.intent with
  | none => exact hc.1 hintent
  | some initiating => exact hc.2 (by rw [hintent]; exact Option.some_ne_none initiating)

theorem Ledger.OwnerKnown.failed (hc : w.OwnerKnown c) (hintent : c.intent = none) :
    w.Knows c.failed :=
  Ledger.LookedUp.failed ⟨fun _ => hc, fun hne => absurd hintent hne⟩

theorem Ledger.OwnerTrue.cleanup (hc : w.OwnerTrue c) : w.Knows c.cleanup := by
  unfold Callback.cleanup
  cases c.user <;> exact hc

theorem Ledger.OwnerTrue.disconnectFailed (hc : w.OwnerTrue c) (jobId : Option Nat) :
    w.Knows (c.disconnectFailed jobId) := by
  cases jobId with
  | none => exact hc
  | some k => exact hc.cleanup

theorem Ledger.LookedUp.checked (hc : w.LookedUp c) : w.Knows c.checked := by
  unfold Callback.checked
  cases hintent : c.intent with
  | some => exact hc
  | none =>
    cases c.user with
    | none => exact ⟨hintent, hc.1 hintent⟩
    | some id =>
      dsimp only
      split
      · exact hc
      · exact ⟨hintent, hc.1 hintent⟩

theorem Ledger.RevokerKnown.broken (hr : w.RevokerKnown r.owner) : w.Knows r.broken := by
  unfold Revocation.broken
  cases howner : r.owner with
  | callback c =>
    rw [howner] at hr
    exact Ledger.OwnerTrue.cleanup (Ledger.OwnerKnown.true hr)
  | operation op | worker => trivial

theorem Revocation.resolved_knows (r : Revocation) : w.Knows r.resolved := by
  unfold Revocation.resolved
  cases r.owner <;> trivial

theorem Revocation.retried_knows (r : Revocation) : w.Knows r.retried := by
  unfold Revocation.retried
  cases r.owner <;> trivial

theorem Ledger.RevokerKnown.check (hr : w.RevokerKnown r.owner) (status : Option JobStatus) :
    w.Knows (r.check status) := by
  unfold Revocation.check
  cases status with
  | none =>
    cases howner : r.owner with
    | callback c | operation op => exact hr.broken
    | worker => exact r.resolved_knows
  | some =>
    dsimp only
    split
    · exact r.resolved_knows
    split
    · exact hr
    · exact hr.broken

theorem Ledger.Ok.lookUp (h : w.Ok) {a : GmailAccount} (ha : a ∈ w.accounts)
    (hsub : a.googleSub = subject) :
    ((w.accounts.find? fun account => account.googleSub = subject).bind
      fun account => w.user account.userId).map (·.id) = some a.userId := by
  cases hfind : w.accounts.find? fun account => account.googleSub = subject with
  | none =>
    have := List.find?_eq_none.1 hfind a ha
    simp [hsub] at this
  | some account =>
    have haccount := List.find?_some hfind
    simp only [decide_eq_true_eq] at haccount
    have hsame : account = a :=
      h.account_unique account (List.mem_of_find?_eq_some hfind) a ha (haccount.trans hsub.symm)
    subst hsame
    obtain ⟨u, hu, hid⟩ := h.owner account ha
    rw [Option.bind_some]
    cases huser : w.user account.userId with
    | none =>
      have := List.find?_eq_none.1 huser u hu
      simp [hid] at this
    | some =>
      rw [Option.map_some, (Ledger.user_eq_some huser).2]

/-- The user that `upsert_user` answers owns the account of the subject. -/
theorem Ledger.Ok.upsertUser_owner (h : w.Ok) {epoch id : Nat}
    (hupsert : w.upsertUser subject epoch = some (w', id)) :
    ∀ a ∈ w'.accounts, a.googleSub = subject → a.userId = id := by
  obtain ⟨rfl, u, hu, hsub, rfl⟩ | ⟨rfl, rfl, hnew⟩ := Ledger.upsertUser_cases hupsert
  · intro a ha hasub
    obtain ⟨b, hb, hbsub, hbid⟩ := h.primary u hu
    rw [← hbid, h.account_unique a ha b hb (hasub.trans (hbsub.trans hsub).symm)]
  · intro a ha hasub
    rcases List.mem_append.1 ha with ha | ha
    · exact absurd hasub (hnew a ha)
    · rw [List.mem_singleton.1 ha]

end Ledger

section Advance

variable {w : Ledger} {free : Subject → Bool} {me : Nat} {ch : Choice}

theorem acquire_knows {waiting acquired failed : GrantPhase}
    (hs : w.Knows waiting ∧ w.Knows acquired ∧ w.Knows failed) :
    (acquire w free ch subject waiting acquired failed).1.Knows
      (acquire w free ch subject waiting acquired failed).2 := by
  unfold acquire
  split
  · dsimp only
    split
    · exact hs.2.1
    · exact hs.1
  · exact hs.2.2

theorem stored_knows {result : Option Ledger} {failed : GrantPhase} (hs : w.Knows failed) :
    (stored w ch result failed).1.Knows (stored w ch result failed).2 := by
  unfold stored
  cases (if ch.ok then result else none) with
  | none => exact hs
  | some w' => trivial

theorem advance_knows (h : w.Ok) (hph : w.PhaseOk ph) (hk : w.Knows ph) :
    (advance w free me ch ph).1.Knows (advance w free me ch ph).2 := by
  cases ph with
  | idle | dropping c | cleanRecording c | closing op | purging op | failing r | completingJob r =>
    trivial
  | started | cleanRevoking c | opRecording op | guarding op =>
    dsimp only [advance]; split <;> trivial
  | identifying c =>
    dsimp only [advance]
    split
    · exact hk
    · trivial
  | locking c =>
    refine acquire_knows ⟨hk, ?_, hk⟩
    cases hintent : c.intent with
    | none => exact ⟨hk, hintent⟩
    | some =>
      refine ⟨fun hnone => ?_, fun _ => hk⟩
      rw [hintent] at hnone
      cases hnone
  | lookingUp c =>
    dsimp only [advance]
    split
    · exact ⟨hk.1, hk.2, fun a ha hsub => h.lookUp ha hsub⟩
    · exact hk.1
  | lookingAccount =>
    dsimp only [advance]
    split
    · exact ⟨fun _ => hk.2.2, fun hne => absurd hk.2.1 hne⟩
    · exact hk.1
  | checkingEpoch c | colliding =>
    dsimp only [advance]
    split
    · exact hk
    · exact Ledger.LookedUp.failed hk
  | checkingPending c =>
    dsimp only [advance]
    split
    · exact Ledger.LookedUp.checked hk
    · exact Ledger.LookedUp.failed hk
  | linking => exact stored_knows (Ledger.LookedUp.failed hk)
  | upserting c =>
    dsimp only [advance]
    cases hu : (if ch.ok then w.upsertUser c.subject c.epoch else none) with
    | none => exact hk.2.failed hk.1
    | some next =>
      obtain ⟨w', id⟩ := next
      by_cases hok : ch.ok = true
      · rw [if_pos hok] at hu
        refine ⟨hk.1, fun a ha hsub => ?_⟩
        exact congrArg some (h.upsertUser_owner hu a ha hsub).symm
      · rw [if_neg hok] at hu
        cases hu
  | reconnecting => exact stored_knows (hk.2.failed hk.1)
  | tracking c =>
    dsimp only [advance]
    split
    · have hgood : w.Good none (w.enqueue c.subject c.grant).1 := h.enqueue rfl
      have hknown : (w.enqueue c.subject c.grant).1.OwnerKnown c :=
        Ledger.OwnerKnown.keep hk hgood.2 nofun
      cases c.user <;> exact hknown
    · exact (Ledger.OwnerKnown.true hk).cleanup
  | droppingStored c id jobId =>
    have hgood : w.Good none (w.dropPrimary id) := h.dropPrimary id
    dsimp only [advance]
    split
    · cases jobId with
      | none => exact Ledger.OwnerTrue.keep (c := c) hk hgood.2 nofun
      | some k => exact Ledger.OwnerKnown.keep (c := c) hk hgood.2 nofun
    · refine Ledger.OwnerTrue.disconnectFailed ?_ jobId
      cases jobId with
      | none => exact hk
      | some k => exact Ledger.OwnerKnown.true hk
  | marking c id jobId =>
    have hgood : w.Good none (w.markDisconnected id) := h.markDisconnected id
    dsimp only [advance]
    split
    · cases jobId with
      | none => exact Ledger.OwnerTrue.keep (c := c) hk hgood.2 nofun
      | some k => exact Ledger.OwnerKnown.keep (c := c) hk hgood.2 nofun
    · refine Ledger.OwnerTrue.disconnectFailed ?_ jobId
      cases jobId with
      | none => exact hk
      | some k => exact Ledger.OwnerKnown.true hk
  | outer c => exact acquire_knows ⟨hk, (Ledger.OwnerTrue.of_none hk).cleanup, hk⟩
  | queueing =>
    dsimp only [advance]
    split
    · trivial
    · dsimp only
      split <;> trivial
  | checkingJob r =>
    dsimp only [advance]
    split
    · exact Ledger.RevokerKnown.check hk (w.jobStatus r.jobId)
    · exact Ledger.RevokerKnown.broken hk
  | revoking r =>
    have hgood : w.Good none (w.request r.grant ch) := h.request r.grant ch
    have hknown : (w.request r.grant ch).RevokerKnown r.owner :=
      Ledger.RevokerKnown.keep hk hph hgood.2 nofun
    dsimp only [advance]
    cases w.outcome r.grant ch with
    | retry => exact r.retried_knows
    | projectRevoked | credentialInvalid => exact hknown
  | recording r all =>
    have hgood : w.Good none (w.record r.subject) := h.record r.subject
    dsimp only [advance]
    split
    · exact Ledger.RevokerKnown.keep (r := r) hk hph hgood.2 nofun
    · exact Ledger.RevokerKnown.broken hk
  | completing r all =>
    dsimp only [advance]
    split
    · exact r.resolved_knows
    · exact Ledger.RevokerKnown.broken hk
  | opLocking op => exact acquire_knows ⟨trivial, trivial, trivial⟩
  | preparing op =>
    dsimp only [advance]
    split
    · trivial
    split
    · cases hhead : (w.primaryTokens op.userId).head? with
      | none => trivial
      | some g =>
        intro a ha hsub
        obtain ⟨b, hb, hprimary, -⟩ := Ledger.mem_primaryTokens.1 (List.mem_of_mem_head? hhead)
        rw [h.account_unique a ha b hb
          (hsub.trans (Ledger.UserIs.primary_subject hph hprimary).symm)]
        exact (Ledger.isPrimary_iff.1 hprimary).1
    · trivial
  | opEnqueuing op g =>
    have hgood : w.Good none (w.enqueue op.subject g).1 := h.enqueue hph.2
    dsimp only [advance]
    split
    · exact Ledger.OpKnown.keep hk hgood.2 nofun
    · trivial
  | removing op =>
    dsimp only [advance]
    split
    · cases op.kind <;> trivial
    · trivial
  | workLocking r =>
    refine acquire_knows ⟨hk, ?_, trivial⟩
    obtain ⟨attemptCount, howner⟩ := hk
    show w.RevokerKnown r.owner
    rw [howner]
    trivial

end Advance

end ElectronicMail.OAuth
