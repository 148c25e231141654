import ElectronicMail.Foundations.Run
import ElectronicMail.Foundations.Table
import ElectronicMail.Sends.PendingSend

/-!
# Delivery on account-scoped mailboxes

`_deliver` reads the record, and under a shared lock reads it again, marks it
`sending` and calls `messages.send`. Neither the lock nor the `UPDATE` of
`update_send` keeps two executions apart, and the handler, which also catches what
goes wrong when the lock is released, reads and rewrites the state without a guard.
`deliverStep` lets any number of executions take these steps in any order, raise
wherever a statement or a call can raise, and stop at any point.

Two executions that have both read the queued record both send
(`doubleRun_sends_twice`), and one execution that loses its lock connection after
the mail was recorded as sent marks it failed (`lostLockRun_reopens`).
`delivery_sound` says that nothing else goes wrong.
-/

namespace ElectronicMail.Accounts

open Foundations
open Foundations.Table
open Sends (SendState SendContent PendingSend GmailResult)

/-! ## The record -/

/-- `update_send`; the `UPDATE` has no guard on the state. -/
def updateSend (state : SendState) (error gmailMessageId gmailThreadId : Option String)
    (row : PendingSend) : PendingSend where
  state := state
  error := error
  gmailMessageId := gmailMessageId.or row.gmailMessageId
  gmailThreadId := gmailThreadId.or row.gmailThreadId
  content := row.content

/-- `str(result.get(…) or "") or None`. -/
def nonEmpty (value : Option String) : Option String := value.filter (· ≠ "")

def safeOperationError : String := "Gmail could not complete this operation. Please try again."

def waitingForConfirmation : String := "Waiting for Gmail delivery confirmation."

/-- What `_find_sent_delivery` gives. -/
inductive SentSearch where
  | found (result : GmailResult)
  | missing
  | raised

/-- What becomes of a call of `messages.send`. -/
inductive SendAnswer where
  | accepted (result : GmailResult)
  | responseLost
  | rejected
  deriving DecidableEq

/-! ## Executions -/

/-- Where an execution of `_deliver` stands: the next statement or call it makes, with
the record it was given. -/
inductive DeliverPhase where
  | idle
  | locking (record : PendingSend)
  | rereading (record : PendingSend)
  | searching (record current : PendingSend)
  | reconciling (record current : PendingSend) (recovered : GmailResult)
  | marking (record : PendingSend)
  | sending (record : PendingSend)
  | awaiting (record : PendingSend)
  | recording (record : PendingSend) (result : GmailResult)
  | unlocking (record : PendingSend)
  | handling (record : PendingSend)
  | failing (record : PendingSend) (ambiguous : Bool)
  | done

/-- `if record.state == "sent"` before the lock. -/
def enterDeliver (record : PendingSend) : DeliverPhase :=
  if record.state = .sent then .done else .locking record

def afterReread (record current : PendingSend) : DeliverPhase :=
  if current.state = .sent then .unlocking record
  else if current.state = .sending || Text.truthy current.error then .searching record current
  else .marking record

def afterSearch (record current : PendingSend) : SentSearch → DeliverPhase
  | .found recovered => .reconciling record current recovered
  | .missing => .handling record
  | .raised => .handling record

def afterAnswer (record : PendingSend) : SendAnswer → DeliverPhase
  | .accepted result => .recording record result
  | .responseLost => .handling record
  | .rejected => .handling record

/-- Where an exception leads: into the handler from inside the `try`, and out of the
execution from the handler. -/
def onRaise : DeliverPhase → DeliverPhase
  | .locking record => .handling record
  | .rereading record => .handling record
  | .searching record _ => .handling record
  | .reconciling record _ _ => .handling record
  | .marking record => .handling record
  | .sending record => .handling record
  | .recording record _ => .handling record
  | .unlocking record => .handling record
  | .awaiting record => .awaiting record
  | .idle => .idle
  | .handling _ => .done
  | .failing _ _ => .done
  | .done => .done

/-- A call of `messages.send` and its answer, once there is one. -/
structure SendCall where
  exec : Nat
  content : SendContent
  answer : Option SendAnswer

def SendCall.isRejected (call : SendCall) : Bool := call.answer = some .rejected

structure DeliverySystem where
  row : PendingSend
  phase : Nat → DeliverPhase
  calls : List SendCall

/-- A send as `create_or_get_send` inserts it. -/
def DeliverySystem.initial (gmailThreadId : Option String) (content : SendContent) :
    DeliverySystem :=
  ⟨PendingSend.new gmailThreadId content, fun _ => .idle, []⟩

inductive DeliverStep where
  | start (exec : Nat)
  | lock (exec : Nat)
  | reread (exec : Nat)
  | search (exec : Nat) (outcome : SentSearch)
  | mark (exec : Nat)
  | send (exec : Nat)
  | answer (exec : Nat) (answer : SendAnswer)
  | record (exec : Nat)
  | unlock (exec : Nat)
  | handle (exec : Nat)
  | writeFailure (exec : Nat)
  | raise (exec : Nat)
  | stop (exec : Nat)

/-- Execution `i` goes on at `ph`. -/
def DeliverySystem.goto (s : DeliverySystem) (i : Nat) (ph : DeliverPhase) : DeliverySystem :=
  { s with phase := Function.update s.phase i ph }

def recordedRow (row : PendingSend) : DeliverPhase → PendingSend
  | .reconciling _ current recovered =>
    updateSend .sent none (nonEmpty recovered.id)
      ((nonEmpty recovered.threadId).or current.gmailThreadId) row
  | .recording record result =>
    updateSend .sent none (nonEmpty result.id)
      ((nonEmpty result.threadId).or record.gmailThreadId) row
  | .marking _ => updateSend .sending none none none row
  | .failing _ true => updateSend .sending (some waitingForConfirmation) none none row
  | .failing _ false => updateSend .failed (some safeOperationError) none none row
  | _ => row

/-- One step of one execution; a step the execution is not at changes nothing. -/
def deliverStep (s : DeliverySystem) : DeliverStep → DeliverySystem
  | .start i =>
    match s.phase i with
    | .idle => s.goto i (enterDeliver s.row)
    | _ => s
  | .lock i =>
    match s.phase i with
    | .locking record => s.goto i (.rereading record)
    | _ => s
  | .reread i =>
    match s.phase i with
    | .rereading record => s.goto i (afterReread record s.row)
    | _ => s
  | .search i outcome =>
    match s.phase i with
    | .searching record current => s.goto i (afterSearch record current outcome)
    | _ => s
  | .mark i =>
    match s.phase i with
    | .marking record =>
      { s.goto i (.sending record) with row := recordedRow s.row (.marking record) }
    | _ => s
  | .send i =>
    match s.phase i with
    | .sending record =>
      { s.goto i (.awaiting record) with calls := ⟨i, record.content, none⟩ :: s.calls }
    | _ => s
  | .answer i answer =>
    match s.phase i with
    | .awaiting record =>
      { s.goto i (afterAnswer record answer) with
        calls := updateWhere (fun c => decide (c.exec = i ∧ c.answer = none))
          (fun c => { c with answer := some answer }) s.calls }
    | _ => s
  | .record i =>
    match s.phase i with
    | .recording record result =>
      { s.goto i (.unlocking record) with
        row := recordedRow s.row (.recording record result) }
    | .reconciling record current recovered =>
      { s.goto i (.unlocking record) with
        row := recordedRow s.row (.reconciling record current recovered) }
    | _ => s
  | .unlock i =>
    match s.phase i with
    | .unlocking _ => s.goto i .done
    | _ => s
  | .handle i =>
    match s.phase i with
    | .handling record => s.goto i (.failing record (s.row.state = .sending))
    | _ => s
  | .writeFailure i =>
    match s.phase i with
    | .failing record ambiguous =>
      { s.goto i .done with row := recordedRow s.row (.failing record ambiguous) }
    | _ => s
  | .raise i => s.goto i (onRaise (s.phase i))
  -- The worker dies.
  | .stop i => s.goto i .done

@[simp] theorem DeliverySystem.goto_row (s : DeliverySystem) (i : Nat) (ph : DeliverPhase) :
    (s.goto i ph).row = s.row := rfl

@[simp] theorem DeliverySystem.goto_calls (s : DeliverySystem) (i : Nat) (ph : DeliverPhase) :
    (s.goto i ph).calls = s.calls := rfl

theorem DeliverySystem.goto_phase (s : DeliverySystem) (i j : Nat) (ph : DeliverPhase) :
    (s.goto i ph).phase j = if j = i then ph else s.phase j := by
  simp [DeliverySystem.goto, Function.update_apply]

/-! ## The properties -/

/-- At every call of `messages.send` Gmail has rejected all the calls before it. -/
def SendsOnce (s : DeliverySystem) : Prop :=
  s.calls.Pairwise fun _ earlier => earlier.isRejected = true

instance (s : DeliverySystem) : Decidable (SendsOnce s) :=
  inferInstanceAs (Decidable (List.Pairwise _ s.calls))

def KeepsSent (s : DeliverySystem) (t : DeliverStep) : Prop :=
  s.row.state = .sent → (deliverStep s t).row.state = .sent

instance (s : DeliverySystem) (t : DeliverStep) : Decidable (KeepsSent s t) :=
  inferInstanceAs (Decidable (_ → _))

/-- The execution has marked the record and is about to call `messages.send`. -/
def DeliverPhase.maySend : DeliverPhase → Bool
  | .sending _ => true
  | _ => false

/-- A mark commits only while no other execution is about to send and every call so
far was rejected. -/
def MarksAlone (s : DeliverySystem) (t : DeliverStep) : Prop :=
  ∀ i record, t = .mark i → s.phase i = .marking record →
    (∀ j, (s.phase j).maySend = false) ∧ ∀ c ∈ s.calls, c.isRejected = true

def LeavesSent (s : DeliverySystem) (t : DeliverStep) : Prop :=
  (∀ i record, t = .mark i → s.phase i = .marking record → s.row.state ≠ .sent) ∧
    ∀ i record ambiguous, t = .writeFailure i → s.phase i = .failing record ambiguous →
      s.row.state ≠ .sent

theorem marksAlone_of_ne {s : DeliverySystem} {t : DeliverStep} (h : ∀ i, t ≠ .mark i) :
    MarksAlone s t := fun i _ ht => absurd ht (h i)

theorem leavesSent_of_ne {s : DeliverySystem} {t : DeliverStep} (h : ∀ i, t ≠ .mark i)
    (h' : ∀ i, t ≠ .writeFailure i) : LeavesSent s t :=
  ⟨fun i _ ht => absurd ht (h i), fun i _ _ ht => absurd ht (h' i)⟩

/-! ## What a step can do -/

/-- The effects of a step: nothing, a move of one execution to a point at which it
will not send next, a mark, a call, an answer, a record that is sent, or the write of
the handler. -/
inductive DeliverEffect (s : DeliverySystem) : DeliverStep → DeliverySystem → Prop where
  | stay (t : DeliverStep) : DeliverEffect s t s
  | move (t : DeliverStep) (i : Nat) (ph : DeliverPhase) (hquiet : ph.maySend = false) :
      DeliverEffect s t (s.goto i ph)
  | mark {i : Nat} {record : PendingSend} (hph : s.phase i = .marking record) :
      DeliverEffect s (.mark i)
        { s.goto i (.sending record) with row := updateSend .sending none none none s.row }
  | send {i : Nat} {record : PendingSend} (hph : s.phase i = .sending record) :
      DeliverEffect s (.send i)
        { s.goto i (.awaiting record) with calls := ⟨i, record.content, none⟩ :: s.calls }
  | answer {i : Nat} {record : PendingSend} (hph : s.phase i = .awaiting record)
      (answer : SendAnswer) :
      DeliverEffect s (.answer i answer)
        { s.goto i (afterAnswer record answer) with
          calls := updateWhere (fun c => decide (c.exec = i ∧ c.answer = none))
            (fun c => { c with answer := some answer }) s.calls }
  | record (i : Nat) (record row : PendingSend) (hsent : row.state = .sent) :
      DeliverEffect s (.record i) { s.goto i (.unlocking record) with row := row }
  | failure {i : Nat} {record : PendingSend} {ambiguous : Bool}
      (hph : s.phase i = .failing record ambiguous) (row : PendingSend)
      (hfailed : row.state ≠ .sent) :
      DeliverEffect s (.writeFailure i) { s.goto i .done with row := row }

theorem enterDeliver_maySend (record : PendingSend) : (enterDeliver record).maySend = false := by
  unfold enterDeliver
  split <;> rfl

theorem afterReread_maySend (record current : PendingSend) :
    (afterReread record current).maySend = false := by
  unfold afterReread
  split
  · rfl
  · split <;> rfl

theorem afterSearch_maySend (record current : PendingSend) (outcome : SentSearch) :
    (afterSearch record current outcome).maySend = false := by
  cases outcome <;> rfl

theorem afterAnswer_maySend (record : PendingSend) (answer : SendAnswer) :
    (afterAnswer record answer).maySend = false := by
  cases answer <;> rfl

theorem onRaise_maySend (ph : DeliverPhase) : (onRaise ph).maySend = false := by
  cases ph <;> rfl

/-- **The step lemma.** -/
theorem deliverStep_effect (s : DeliverySystem) (t : DeliverStep) :
    DeliverEffect s t (deliverStep s t) := by
  cases t with
  | start i =>
    cases hph : s.phase i with
    | idle =>
      simp only [deliverStep, hph]
      exact .move _ i _ (enterDeliver_maySend s.row)
    | _ => simpa only [deliverStep, hph] using .stay _
  | lock i =>
    cases hph : s.phase i with
    | locking =>
      simp only [deliverStep, hph]
      exact .move _ i _ rfl
    | _ => simpa only [deliverStep, hph] using .stay _
  | reread i =>
    cases hph : s.phase i with
    | rereading record =>
      simp only [deliverStep, hph]
      exact .move _ i _ (afterReread_maySend record s.row)
    | _ => simpa only [deliverStep, hph] using .stay _
  | search i outcome =>
    cases hph : s.phase i with
    | searching record current =>
      simp only [deliverStep, hph]
      exact .move _ i _ (afterSearch_maySend record current outcome)
    | _ => simpa only [deliverStep, hph] using .stay _
  | mark i =>
    cases hph : s.phase i with
    | marking =>
      simp only [deliverStep, hph]
      exact .mark hph
    | _ => simpa only [deliverStep, hph] using .stay _
  | send i =>
    cases hph : s.phase i with
    | sending =>
      simp only [deliverStep, hph]
      exact .send hph
    | _ => simpa only [deliverStep, hph] using .stay _
  | answer i answer =>
    cases hph : s.phase i with
    | awaiting =>
      simp only [deliverStep, hph]
      exact .answer hph answer
    | _ => simpa only [deliverStep, hph] using .stay _
  | record i =>
    cases hph : s.phase i with
    | recording record | reconciling record =>
      simp only [deliverStep, hph]
      exact .record i record _ rfl
    | _ => simpa only [deliverStep, hph] using .stay _
  | unlock i =>
    cases hph : s.phase i with
    | unlocking =>
      simp only [deliverStep, hph]
      exact .move _ i _ rfl
    | _ => simpa only [deliverStep, hph] using .stay _
  | handle i =>
    cases hph : s.phase i with
    | handling =>
      simp only [deliverStep, hph]
      exact .move _ i _ rfl
    | _ => simpa only [deliverStep, hph] using .stay _
  | writeFailure i =>
    cases hph : s.phase i with
    | failing record ambiguous =>
      simp only [deliverStep, hph]
      apply DeliverEffect.failure hph
      cases ambiguous <;> simp [recordedRow, updateSend]
    | _ => simpa only [deliverStep, hph] using .stay _
  | raise i => exact .move _ i _ (onRaise_maySend _)
  | stop i => exact .move _ i _ rfl

/-! ## Sent is final -/

theorem keepsSent_iff (s : DeliverySystem) (t : DeliverStep) : KeepsSent s t ↔ LeavesSent s t := by
  constructor
  · intro hkeeps
    constructor
    · rintro i record rfl hph hsent
      have hnext := hkeeps hsent
      simp [deliverStep, hph, recordedRow, updateSend] at hnext
    · rintro i record ambiguous rfl hph hsent
      have hnext := hkeeps hsent
      cases ambiguous <;> simp [deliverStep, hph, recordedRow, updateSend] at hnext
  · rintro ⟨hmark, hfailure⟩ hsent
    have heffect := deliverStep_effect s t
    generalize deliverStep s t = s' at heffect
    cases heffect with
    | stay | move | send hph | answer => exact hsent
    | mark hph => exact absurd hsent (hmark _ _ rfl hph)
    | record i record row hrow => exact hrow
    | failure hph => exact absurd hsent (hfailure _ _ _ rfl hph)

/-! ## One call -/

/-- At most one execution is about to send, and then all calls so far were rejected. -/
structure SendsAlone (s : DeliverySystem) : Prop where
  alone : ∀ i j, (s.phase i).maySend = true → (s.phase j).maySend = true → i = j
  quiet : ∀ i, (s.phase i).maySend = true → ∀ c ∈ s.calls, c.isRejected = true
  once : SendsOnce s

theorem sendsAlone_initial (gmailThreadId : Option String) (content : SendContent) :
    SendsAlone (DeliverySystem.initial gmailThreadId content) :=
  ⟨fun _ _ hi => (nomatch hi), fun _ hi => (nomatch hi), List.Pairwise.nil⟩

section Step

variable {s : DeliverySystem} {i : Nat}

theorem maySend_of_goto {ph : DeliverPhase} (hquiet : ph.maySend = false) {j : Nat}
    (h : ((s.goto i ph).phase j).maySend = true) : (s.phase j).maySend = true := by
  rw [s.goto_phase] at h
  split at h
  · exact absurd (h.symm.trans hquiet) (by simp)
  · exact h

theorem SendsAlone.goto (hs : SendsAlone s) {ph : DeliverPhase} (hquiet : ph.maySend = false) :
    SendsAlone (s.goto i ph) :=
  ⟨fun j k hj hk => hs.alone j k (maySend_of_goto hquiet hj) (maySend_of_goto hquiet hk),
    fun j hj => hs.quiet j (maySend_of_goto hquiet hj), hs.once⟩

theorem isRejected_of_answered {answer : SendAnswer} {p : SendCall → Bool}
    (hp : ∀ c, p c = true → c.answer = none) {c : SendCall} (h : c.isRejected = true) :
    (if p c then { c with answer := some answer } else c).isRejected = true := by
  by_cases hc : p c = true
  · simp [SendCall.isRejected, hp c hc] at h
  · rwa [if_neg hc]

/-- **Every step keeps one sender**, if its mark commits alone. -/
theorem sendsAlone_step (hs : SendsAlone s) (t : DeliverStep) (halone : MarksAlone s t) :
    SendsAlone (deliverStep s t) := by
  have heffect := deliverStep_effect s t
  generalize deliverStep s t = s' at heffect
  cases heffect with
  | stay => exact hs
  | move _ i ph hquiet => exact hs.goto hquiet
  | @mark i record hph =>
    obtain ⟨hothers, hrejected⟩ := halone i record rfl hph
    have honly : ∀ j, ((s.goto i (.sending record)).phase j).maySend = true → j = i := by
      intro j hj
      rw [s.goto_phase] at hj
      split at hj
      · assumption
      · rw [hothers j] at hj
        exact absurd hj Bool.false_ne_true
    exact ⟨fun j k hj hk => (honly j hj).trans (honly k hk).symm, fun j hj => hrejected, hs.once⟩
  | @send i record hph =>
    have hi : (s.phase i).maySend = true := by rw [hph]; rfl
    -- The only execution that might still send has just done so.
    have hnone : ∀ j, ((s.goto i (.awaiting record)).phase j).maySend = false := by
      intro j
      rw [s.goto_phase]
      split
      · rfl
      · rename_i hne
        exact Bool.eq_false_iff.2 fun hj => hne (hs.alone j i hj hi)
    refine ⟨fun j k hj => ?_, fun j hj => ?_, List.Pairwise.cons (hs.quiet i hi) hs.once⟩
    · exact absurd (hj.symm.trans (hnone j)) (by simp)
    · exact absurd (hj.symm.trans (hnone j)) (by simp)
  | @answer i record hph answer =>
    have hquiet := afterAnswer_maySend record answer
    have hgoto : SendsAlone (s.goto i (afterAnswer record answer)) := hs.goto hquiet
    have hkeeps : ∀ {c : SendCall}, c.isRejected = true →
        (if decide (c.exec = i ∧ c.answer = none) then { c with answer := some answer }
          else c).isRejected = true := by
      intro c h
      exact isRejected_of_answered (p := fun c => decide (c.exec = i ∧ c.answer = none))
        (fun c hc => (of_decide_eq_true hc).2) h
    refine ⟨hgoto.alone, fun j hj c hc => ?_, ?_⟩
    · obtain ⟨c₀, hc₀, rfl⟩ := mem_updateWhere.1 hc
      exact hkeeps (hgoto.quiet j hj c₀ hc₀)
    · exact List.Pairwise.map _ (fun later earlier h => hkeeps h) hs.once
  | record i record =>
    have hgoto : SendsAlone (s.goto i (.unlocking record)) := hs.goto rfl
    exact ⟨hgoto.alone, hgoto.quiet, hgoto.once⟩
  | @failure i record ambiguous hph row hrow =>
    have hgoto : SendsAlone (s.goto i .done) := hs.goto rfl
    exact ⟨hgoto.alone, hgoto.quiet, hgoto.once⟩

end Step

/-! ## Runs -/

/-- **Account-scoped sends.** In every interleaving in which a mark commits only while
no other execution is about to send and every call so far was rejected, and in which
neither a mark nor a handler writes to a sent record, `messages.send` is never called
after a call that Gmail may have accepted, and a sent record stays sent. -/
theorem delivery_sound (gmailThreadId : Option String) (content : SendContent)
    (steps : List DeliverStep)
    (halone : Along deliverStep MarksAlone (.initial gmailThreadId content) steps)
    (hsent : Along deliverStep LeavesSent (.initial gmailThreadId content) steps) :
    Throughout deliverStep SendsOnce (.initial gmailThreadId content) steps ∧
      Along deliverStep KeepsSent (.initial gmailThreadId content) steps := by
  constructor
  · apply Throughout.mono fun s => SendsAlone.once
    exact throughout_of_step (fun s t hs hgood => sendsAlone_step hs t hgood)
      (sendsAlone_initial gmailThreadId content) halone
  · apply along_of_step (I := fun _ => True) (fun s t _ h => ⟨(keepsSent_iff s t).2 h, trivial⟩)
      trivial hsent

/-! ## One delivery and two failures -/

def plainMail : SendContent := ⟨["ada@example.org"], [], [], "Hello", "Hello", none, [], []⟩

def deliveredRun : List DeliverStep :=
  [.start 0, .lock 0, .reread 0, .mark 0, .send 0, .answer 0 (.accepted ⟨some "m1", some "t1"⟩),
    .record 0]

/-- It marks the record alone and writes nothing after the record is sent. -/
theorem delivery_sound_deliveredRun :
    Throughout deliverStep SendsOnce (.initial none plainMail) deliveredRun ∧
      Along deliverStep KeepsSent (.initial none plainMail) deliveredRun := by
  apply delivery_sound none plainMail deliveredRun
  · have hother : ∀ {s t}, (∀ i, t ≠ .mark i) → MarksAlone s t := marksAlone_of_ne
    refine ⟨hother nofun, hother nofun, hother nofun, ?_, hother nofun, hother nofun,
      hother nofun, trivial⟩
    intro i record _ _
    refine ⟨fun j => ?_, fun c hc => absurd hc List.not_mem_nil⟩
    cases j with
    | zero | succ j => rfl
  · have hother : ∀ {s t}, (∀ i, t ≠ .mark i) → (∀ i, t ≠ .writeFailure i) → LeavesSent s t :=
      leavesSent_of_ne
    refine ⟨hother nofun nofun, hother nofun nofun, hother nofun nofun, ?_, hother nofun nofun,
      hother nofun nofun, hother nofun nofun, trivial⟩
    refine ⟨fun i record _ _ => ?_, fun i record ambiguous h => nomatch h⟩
    decide +kernel

/-- Two executions read the queued record under the shared lock, and then both mark it
and send. -/
def doubleRun : List DeliverStep :=
  [.start 0, .start 1, .lock 0, .lock 1, .reread 0, .reread 1, .mark 0, .mark 1, .send 0,
    .answer 0 (.accepted ⟨some "m1", some "t1"⟩), .send 1]

/-- The connection of the lock is lost once the mail is recorded as sent. -/
def lostLockRun : List DeliverStep := deliveredRun ++ [.raise 0, .handle 0, .writeFailure 0]

/-- The mail is sent twice, and a sent record is marked failed. -/
theorem delivery_refuted :
    ¬ Throughout deliverStep SendsOnce (.initial none plainMail) doubleRun ∧
      ¬ Along deliverStep KeepsSent (.initial none plainMail) lostLockRun := by
  constructor
  · intro h
    exact absurd h.last (by decide +kernel)
  · decide +kernel

end ElectronicMail.Accounts
