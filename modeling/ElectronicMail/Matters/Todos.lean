import ElectronicMail.Matters.Rows

/-!
# The to-dos of a matter

`extract_todos_for_matter` reads the revision of a matter, then its subgoals, asks a model,
and writes the decisions with the revision it has read, whatever has been written in between.
Every change of the matter enqueues an extraction, which joins the one that is queued or
running.

`todos_follow` says when the projection follows the matter: no decision is overwritten by one
about an older revision, and with no extraction under way every visible to-do is about the
current revision, or the matter is one that `pending_todo_matter_ids` returns.
-/

namespace ElectronicMail.Matters

open Foundations
open Foundations.Table

/-! ## The projection -/

/-- `source_key`: a subgoal, or the matter itself. -/
inductive TodoKey where
  | subgoal (id : Nat)
  | matter
  deriving DecidableEq

inductive DisplayKind where
  | todo
  | worthKnowing
  | hidden
  deriving DecidableEq

/-- A row of `ai_todo_items`. `newest` is no column: it is the newest revision that has
decided about the item. -/
structure TodoItem where
  key : TodoKey
  displayKind : DisplayKind
  userModified : Bool
  sourceMatterRevision : Nat
  newest : Nat
  deriving DecidableEq

def TodoItem.decide (matterRevision : Nat) (displayKind : DisplayKind) (i : TodoItem) : TodoItem :=
  { i with
    displayKind := if i.userModified then i.displayKind else displayKind
    sourceMatterRevision := matterRevision
    newest := max i.newest matterRevision }

/-- `ON CONFLICT … DO UPDATE` for one decision. -/
def upsertTodo (matterRevision : Nat) (items : List TodoItem)
    (decision : TodoKey × DisplayKind) : List TodoItem :=
  if items.any fun i => i.key == decision.1 then
    updateWhere (fun i => i.key == decision.1) (TodoItem.decide matterRevision decision.2) items
  else items ++ [⟨decision.1, decision.2, false, matterRevision, matterRevision⟩]

/-- `write_todo_projection`: what has no decision is hidden, unless the user has changed it. -/
def writeTodoProjection (matterRevision : Nat) (decisions : List (TodoKey × DisplayKind))
    (items : List TodoItem) : List TodoItem :=
  updateWhere (fun i => !i.userModified && !(decisions.map Prod.fst).contains i.key)
    (TodoItem.decide matterRevision .hidden)
    (decisions.foldl (upsertTodo matterRevision) items)

/-- What the extraction reads of a matter and of its subgoals, `needsYou` being those that
need the user. -/
structure Subject where
  status : MatterStatus
  visible : Bool
  revision : Nat
  needsYou : List Nat

/-- The keys of the source actions: the subgoals, or the matter when there are none. -/
def sourceKeys (status : MatterStatus) (needsYou : List Nat) : List TodoKey :=
  if status != .needsYou then []
  else if needsYou.isEmpty then [.matter]
  else needsYou.map .subgoal

/-- `pending_todo_matter_ids` returns the matter. `listed` says that its generation is the
active one of an enabled profile, and that some member is in the inbox. -/
def pendingTodo (listed : Bool) (m : Subject) (items : List TodoItem) : Bool :=
  listed && m.visible && m.status == .needsYou &&
    !items.any fun i => m.revision ≤ i.sourceMatterRevision

/-! ## The system -/

/-- The queued or running job of the dedupe key. At most one is, and one that is over is
never taken up again. `holder` has the lease. -/
structure TodoJob where
  id : Nat
  holder : Option Nat

inductive ExtractionStage where
  | claimed
  | read (revision : Nat) (status : MatterStatus)
  | gathered (revision : Nat) (keys : List TodoKey)
  | written (revision : Nat)

def ExtractionStage.revision? : ExtractionStage → Option Nat
  | .claimed => none
  | .read revision _ => some revision
  | .gathered revision _ => some revision
  | .written revision => some revision

/-- An execution of `extract_todos_for_matter`. -/
structure Extraction where
  id : Nat
  jobId : Nat
  stage : ExtractionStage

/-- A matter, its to-dos, its job and the executions. `owed` counts the changes that have not
been followed by `enqueue_todo_extraction` yet, and `written` is the newest revision that has
been written. -/
structure TodoRun where
  subject : Subject
  items : List TodoItem
  job : Option TodoJob
  nextId : Nat
  extractions : List Extraction
  owed : Nat
  written : Nat

/-- What happens next. `changes` is any transaction on the matter, and `writes` comes with
what the model has answered for each key. -/
inductive TodoLabel where
  | changes (status : MatterStatus) (visible : Bool) (needsYou : List Nat)
  | enqueues
  | claims (k : Nat)
  | reads (k : Nat)
  | gathers (k : Nat)
  | writes (k : Nat) (answer : TodoKey → DisplayKind)
  | ends (k : Nat)
  | fails (k : Nat) (requeue : Bool)
  | dies (k : Nat)

def TodoRun.extraction (w : TodoRun) (k : Nat) : Option Extraction :=
  rowAt Extraction.id w.extractions k

def TodoRun.goOn (w : TodoRun) (k : Nat) (stage : ExtractionStage) : List Extraction :=
  updateWhere (fun o => o.id == k) (fun o => { o with stage := stage }) w.extractions

def TodoRun.without (w : TodoRun) (k : Nat) : List Extraction :=
  w.extractions.filter fun o => o.id != k

def TodoJob.isHeldBy (o : Extraction) (j : TodoJob) : Bool :=
  j.id == o.jobId && j.holder == some o.id

def TodoRun.step (w : TodoRun) : TodoLabel → TodoRun
  | .changes status visible needsYou =>
    { w with
      subject := ⟨status, visible, w.subject.revision + 1, needsYou⟩
      owed := w.owed + 1 }
  | .enqueues =>
    match w.job with
    | some _ => { w with owed := w.owed - 1 }
    | none =>
      { w with job := some ⟨w.nextId, none⟩, nextId := w.nextId + 1, owed := w.owed - 1 }
  | .claims k =>
    match w.extraction k, w.job with
    | none, some j =>
      { w with
        job := some { j with holder := some k }
        extractions := ⟨k, j.id, .claimed⟩ :: w.extractions }
    | _, _ => w
  | .reads k =>
    match w.extraction k with
    | some ⟨_, _, .claimed⟩ =>
      { w with extractions := w.goOn k (.read w.subject.revision w.subject.status) }
    | _ => w
  | .gathers k =>
    match w.extraction k with
    | some ⟨_, _, .read revision status⟩ =>
      { w with
        extractions := w.goOn k (.gathered revision (sourceKeys status w.subject.needsYou)) }
    | _ => w
  | .writes k answer =>
    match w.extraction k with
    | some ⟨_, _, .gathered revision keys⟩ =>
      { w with
        items := writeTodoProjection revision (keys.map fun key => (key, answer key)) w.items
        extractions := w.goOn k (.written revision)
        written := max w.written revision }
    | _ => w
  | .ends k =>
    match w.extraction k with
    | some ⟨id, jobId, .written revision⟩ =>
      { w with
        job := w.job.filter fun j => !j.isHeldBy ⟨id, jobId, .written revision⟩
        extractions := w.without k }
    | _ => w
  | .fails k requeue =>
    match w.extraction k with
    | some o =>
      { w with
        job :=
          if requeue then w.job.map fun j =>
            if j.isHeldBy o then { j with holder := none } else j
          else w.job.filter fun j => !j.isHeldBy o
        extractions := w.without k }
    | none => w
  | .dies k => { w with extractions := w.without k }

/-! ## The law -/

/-- No item has been decided again for an older revision, and once every change has been
enqueued and no job is queued or running, a visible to-do is about the current revision or
its matter is pending. -/
structure TodosFollow (listed : Bool) (w : TodoRun) : Prop where
  newest : ∀ i ∈ w.items, i.sourceMatterRevision = i.newest
  current : w.owed = 0 → w.job = none → w.subject.visible = true → ∀ i ∈ w.items,
    i.displayKind ≠ .hidden → i.sourceMatterRevision = w.subject.revision ∨
      pendingTodo listed w.subject w.items = true

def TodoRun.IsFresh (w : TodoRun) (j : TodoJob) : Prop :=
  ∀ o ∈ w.extractions, j.isHeldBy o = true → ∀ r ∈ o.stage.revision?, r = w.subject.revision

/-- The matter needs the user, and `pending_todo_matter_ids` looks at it. -/
def TodoRun.NeedsYou (listed : Bool) (w : TodoRun) : Prop :=
  w.subject.status = .needsYou ∧ listed = true

/-- The last change to be enqueued finds no job whose execution has read an older revision,
unless the matter needs the user or the current revision has been written. -/
def EnqueuesSeen (listed : Bool) (w : TodoRun) : Prop :=
  w.owed ≤ 1 → ∀ j ∈ w.job, w.IsFresh j ∨ w.written = w.subject.revision ∨ w.NeedsYou listed

def WritesNewest (w : TodoRun) (k : Nat) : Prop :=
  ∀ o ∈ w.extraction k, ∀ revision keys, o.stage = .gathered revision keys → w.written ≤ revision

/-- A job dies, with every change enqueued, only when the current revision has been written
or the matter needs the user. -/
def FailsCovered (listed : Bool) (w : TodoRun) (k : Nat) (requeue : Bool) : Prop :=
  requeue = false → w.owed = 0 → ∀ o ∈ w.extraction k, ∀ j ∈ w.job, j.isHeldBy o = true →
    w.written = w.subject.revision ∨ w.NeedsYou listed

def KeepsFollowing (listed : Bool) (w : TodoRun) : TodoLabel → Prop
  | .enqueues => EnqueuesSeen listed w
  | .writes k _ => WritesNewest w k
  | .fails k requeue => FailsCovered listed w k requeue
  | .changes _ _ _ => True
  | .claims _ => True
  | .reads _ => True
  | .gathers _ => True
  | .ends _ => True
  | .dies _ => True

/-! ## Writes -/

/-- Every item is one that the user has not changed, decided for this revision and no newer
one. -/
def DecidedAt (revision : Nat) (items : List TodoItem) : Prop :=
  ∀ i ∈ items, i.userModified = false ∧ i.sourceMatterRevision = revision ∧ i.newest = revision

/-- An item was decided for this revision, or for one before it that all items had. -/
def DecidedBy (old revision : Nat) (i : TodoItem) : Prop :=
  i.userModified = false ∧ ((i.sourceMatterRevision = old ∧ i.newest = old) ∨
    (i.sourceMatterRevision = revision ∧ i.newest = revision))

variable {old : Nat}

variable {revision : Nat}

theorem decide_decided (hle : old ≤ revision) {i : TodoItem} (h : DecidedBy old revision i)
    (kind : DisplayKind) : (i.decide revision kind).userModified = false ∧
      (i.decide revision kind).sourceMatterRevision = revision ∧
      (i.decide revision kind).newest = revision := by
  obtain ⟨hmodified, hcase⟩ := h
  refine ⟨hmodified, rfl, ?_⟩
  show max i.newest revision = revision
  rcases hcase with ⟨_, hnewest⟩ | ⟨_, hnewest⟩
  · rw [hnewest, Nat.max_eq_right hle]
  · rw [hnewest, Nat.max_self]

variable {items : List TodoItem}

theorem upsertTodo_spec (hle : old ≤ revision) (h : ∀ i ∈ items, DecidedBy old revision i)
    (decision : TodoKey × DisplayKind) :
    ∀ i ∈ upsertTodo revision items decision, DecidedBy old revision i ∧
      (i.key = decision.1 → i.sourceMatterRevision = revision) ∧ (i.key ≠ decision.1 → i ∈ items) := by
  unfold upsertTodo
  by_cases hany : items.any (fun i => i.key == decision.1) = true
  · rw [if_pos hany]
    intro i hi
    obtain ⟨i₀, h₀, rfl⟩ := mem_updateWhere.1 hi
    by_cases hkey : (i₀.key == decision.1) = true
    · rw [if_pos hkey]
      obtain ⟨hm, hs, hn⟩ := decide_decided hle (h i₀ h₀) decision.2
      refine ⟨⟨hm, Or.inr ⟨hs, hn⟩⟩, fun _ => hs, fun hne => ?_⟩
      exact absurd (beq_iff_eq.1 hkey : i₀.key = decision.1) hne
    · rw [if_neg hkey]
      exact ⟨h i₀ h₀, fun heq => absurd heq (by simpa using hkey), fun _ => h₀⟩
  · rw [if_neg hany]
    intro i hi
    rcases List.mem_append.1 hi with hi | hi
    · refine ⟨h i hi, fun heq => ?_, fun _ => hi⟩
      exact absurd (List.any_eq_true.2 ⟨i, hi, by simp [heq]⟩) hany
    · rw [List.mem_singleton.1 hi]
      exact ⟨⟨rfl, Or.inr ⟨rfl, rfl⟩⟩, fun _ => rfl, fun hne => absurd rfl hne⟩

theorem foldl_upsertTodo (hle : old ≤ revision) (decisions : List (TodoKey × DisplayKind))
    (h : ∀ i ∈ items, DecidedBy old revision i) :
    ∀ i ∈ decisions.foldl (upsertTodo revision) items, DecidedBy old revision i ∧
      (i.key ∈ decisions.map Prod.fst → i.sourceMatterRevision = revision) := by
  induction decisions generalizing items with
  | nil => exact fun i hi => ⟨h i hi, by simp⟩
  | cons d ds ih =>
    intro i hi
    have hstep := upsertTodo_spec hle h d
    have hkept : ∀ ds : List (TodoKey × DisplayKind), ∀ items' : List TodoItem,
        (∀ i ∈ items', i.key = d.1 → i.sourceMatterRevision = revision) →
        (∀ i ∈ items', DecidedBy old revision i) →
          ∀ i ∈ ds.foldl (upsertTodo revision) items', i.key = d.1 →
            i.sourceMatterRevision = revision := by
      intro ds
      induction ds with
      | nil => exact fun _ hdone _ => hdone
      | cons e es ih' =>
        intro items' hdone hby
        have hstep' := upsertTodo_spec hle hby e
        refine ih' _ (fun i hi hkey => ?_) fun i hi => (hstep' i hi).1
        by_cases he : i.key = e.1
        · exact (hstep' i hi).2.1 he
        · exact hdone i ((hstep' i hi).2.2 he) hkey
    obtain ⟨hby, hrest⟩ := ih (fun i hi => (hstep i hi).1) i hi
    refine ⟨hby, fun hmem => ?_⟩
    rw [List.map_cons, List.mem_cons] at hmem
    rcases hmem with hkey | hmem
    · exact hkept ds _ (fun i hi => (hstep i hi).2.1) (fun i hi => (hstep i hi).1) i hi hkey
    · exact hrest hmem

/-- **A projection decides about every item.** -/
theorem decidedAt_write (hle : old ≤ revision) (h : DecidedAt old items)
    (decisions : List (TodoKey × DisplayKind)) :
    DecidedAt revision (writeTodoProjection revision decisions items) := by
  have hbefore : ∀ i ∈ items, DecidedBy old revision i :=
    fun i hi => ⟨(h i hi).1, Or.inl (h i hi).2⟩
  have hfold := foldl_upsertTodo hle decisions hbefore
  intro i hi
  obtain ⟨i₀, h₀, rfl⟩ := mem_updateWhere.1 hi
  obtain ⟨hby, hdecided⟩ := hfold i₀ h₀
  by_cases hp : (!i₀.userModified && !(decisions.map Prod.fst).contains i₀.key) = true
  · rw [if_pos hp]
    exact decide_decided hle hby .hidden
  rw [if_neg hp]
  have hkey : i₀.key ∈ decisions.map Prod.fst := by
    by_contra hout
    apply hp
    rw [hby.1]
    simpa using hout
  have hrevision := hdecided hkey
  refine ⟨hby.1, hrevision, ?_⟩
  rcases hby.2 with ⟨hs, hn⟩ | ⟨_, hn⟩
  · rw [hn, ← hs, hrevision]
  · exact hn

/-! ## The invariant -/

/-- The items are those of the newest projection, nobody has read a revision to come, and the
current revision is written or going to be, unless the matter needs the user. -/
structure TodosKept (listed : Bool) (w : TodoRun) : Prop where
  decided : DecidedAt w.written w.items
  past : w.written ≤ w.subject.revision
  read : ∀ o ∈ w.extractions, ∀ r ∈ o.stage.revision?, r ≤ w.subject.revision
  wrote : ∀ o ∈ w.extractions, ∀ r, o.stage = .written r → r ≤ w.written
  workers : (w.extractions.map Extraction.id).Nodup
  covered : w.owed = 0 → (∃ j, w.job = some j ∧ w.IsFresh j) ∨
    w.written = w.subject.revision ∨ w.NeedsYou listed

variable {listed : Bool} {w : TodoRun}

theorem todosFollow_of_kept (h : TodosKept listed w) :
    TodosFollow listed w where
  newest := by
    intro i hi
    obtain ⟨_, hs, hn⟩ := h.decided i hi
    rw [hs, hn]
  current := by
    intro howed hjob hvisible i hi _
    obtain ⟨_, hs, _⟩ := h.decided i hi
    by_cases hcurrent : w.written = w.subject.revision
    · exact Or.inl (hs.trans hcurrent)
    right
    rcases h.covered howed with ⟨j, hj, _⟩ | hwritten | ⟨hstatus, hlisted⟩
    · rw [hjob] at hj
      cases hj
    · exact absurd hwritten hcurrent
    · have hnone : w.items.any (fun i => w.subject.revision ≤ i.sourceMatterRevision) =
          false := by
        rw [List.any_eq_false]
        intro i' hi'
        rw [(h.decided i' hi').2.1, decide_eq_true_iff]
        have := h.past
        omega
      rw [pendingTodo, hnone, hlisted, hvisible, hstatus]
      rfl

variable {k : Nat} {o : Extraction}

theorem extraction_mem (h : w.extraction k = some o) : o ∈ w.extractions ∧ o.id = k :=
  rowAt_mem Extraction.id h

variable {stage : ExtractionStage}

theorem mem_goOnExtraction (h : o ∈ w.goOn k stage) :
    o ∈ w.extractions ∨ (o.stage = stage ∧ ∃ o₀ ∈ w.extractions, o₀.id = k ∧ o.id = k ∧
      o.jobId = o₀.jobId) := by
  obtain ⟨o₀, h₀, rfl⟩ := mem_updateWhere.1 h
  by_cases hk : (o₀.id == k) = true
  · rw [if_pos hk]
    rw [beq_iff_eq] at hk
    exact Or.inr ⟨rfl, o₀, h₀, hk, hk, rfl⟩
  · rw [if_neg hk]
    exact Or.inl h₀

theorem extractionGoOn_ids (w : TodoRun) (k : Nat) (stage : ExtractionStage) :
    (w.goOn k stage).map Extraction.id = w.extractions.map Extraction.id :=
  map_updateWhere fun _ _ _ => rfl

theorem todosKept_goOn (h : TodosKept listed w) (ho : w.extraction k = some o)
    (hstage : ∀ r ∈ stage.revision?, r = w.subject.revision ∨ r ∈ o.stage.revision?)
    (hwrote : ∀ r, stage = .written r → r ≤ w.written) :
    TodosKept listed { w with extractions := w.goOn k stage } := by
  obtain ⟨hmem, hid⟩ := extraction_mem ho
  refine ⟨h.decided, h.past, ?_, ?_, ?_, ?_⟩
  · intro o' ho' r hr
    rcases mem_goOnExtraction ho' with hold | ⟨hs, _⟩
    · exact h.read o' hold r hr
    rw [hs] at hr
    rcases hstage r hr with rfl | hold
    · exact Nat.le_refl _
    · exact h.read o hmem r hold
  · intro o' ho' r hr
    rcases mem_goOnExtraction ho' with hold | ⟨hs, _⟩
    · exact h.wrote o' hold r hr
    · exact hwrote r (hs.symm.trans hr)
  · show ((w.goOn k stage).map Extraction.id).Nodup
    rw [extractionGoOn_ids]
    exact h.workers
  · intro howed
    rcases h.covered howed with ⟨j, hj, hfresh⟩ | hrest
    · refine Or.inl ⟨j, hj, ?_⟩
      intro o' ho' hheld r hr
      rcases mem_goOnExtraction ho' with hold | ⟨hs, o₀, h₀, hid₀, hid', hjob⟩
      · exact hfresh o' hold hheld r hr
      have hsame : o₀ = o := row_unique Extraction.id h.workers h₀ hmem (hid₀.trans hid.symm)
      subst hsame
      rw [hs] at hr
      rcases hstage r hr with hcurrent | hold
      · exact hcurrent
      refine hfresh o₀ hmem ?_ r hold
      rw [TodoJob.isHeldBy, hid', hjob] at hheld
      rw [TodoJob.isHeldBy, hid]
      exact hheld
    · exact Or.inr hrest

/-! ## Steps -/

theorem todosKept_changes (h : TodosKept listed w)
    (status : MatterStatus) (visible : Bool) (needsYou : List Nat) :
    TodosKept listed (w.step (.changes status visible needsYou)) := by
  refine ⟨h.decided, Nat.le_succ_of_le h.past, ?_, h.wrote, h.workers, ?_⟩
  · exact fun o ho r hr => Nat.le_succ_of_le (h.read o ho r hr)
  · intro howed
    cases howed

theorem todosKept_enqueues (h : TodosKept listed w)
    (hgood : EnqueuesSeen listed w) : TodosKept listed (w.step .enqueues) := by
  simp only [TodoRun.step]
  cases hjob : w.job with
  | some j =>
    refine ⟨h.decided, h.past, h.read, h.wrote, h.workers, ?_⟩
    intro howed
    have howed : w.owed - 1 = 0 := howed
    rcases hgood (by omega) j hjob with hfresh | hrest
    · exact Or.inl ⟨j, rfl, hfresh⟩
    · exact Or.inr hrest
  | none =>
    refine ⟨h.decided, h.past, h.read, h.wrote, h.workers, ?_⟩
    intro _
    refine Or.inl ⟨⟨w.nextId, none⟩, rfl, ?_⟩
    intro o _ hheld
    simp [TodoJob.isHeldBy] at hheld

theorem todosKept_claims (h : TodosKept listed w) (k : Nat) :
    TodosKept listed (w.step (.claims k)) := by
  simp only [TodoRun.step]
  split
  · next j hk hj =>
      have hnew : ∀ o ∈ w.extractions, o.id ≠ k := (rowAt_eq_none Extraction.id).1 hk
      refine ⟨h.decided, h.past, ?_, ?_, ?_, ?_⟩
      · intro o ho r hr
        rcases List.mem_cons.1 ho with rfl | ho
        · cases hr
        · exact h.read o ho r hr
      · intro o ho r hr
        rcases List.mem_cons.1 ho with rfl | ho
        · cases hr
        · exact h.wrote o ho r hr
      · rw [List.map_cons, List.nodup_cons]
        refine ⟨?_, h.workers⟩
        intro hin
        obtain ⟨o, ho, hok⟩ := List.mem_map.1 hin
        exact hnew o ho hok
      · intro howed
        refine Or.inl ⟨{ j with holder := some k }, rfl, ?_⟩
        intro o ho hheld r hr
        rcases List.mem_cons.1 ho with rfl | ho
        · cases hr
        · simp only [TodoJob.isHeldBy, Bool.and_eq_true, beq_iff_eq, Option.some.injEq] at hheld
          exact absurd hheld.2.symm (hnew o ho)
  · exact h

/-- **A write** by an execution that has read no older revision than the one written last. -/
theorem todosKept_writes (h : TodosKept listed w)
    {answer : TodoKey → DisplayKind} (hgood : WritesNewest w k) :
    TodosKept listed (w.step (.writes k answer)) := by
  simp only [TodoRun.step]
  split
  · next id jobId revision keys ho =>
      have hle := hgood _ ho revision keys rfl
      have hread := h.read _ (extraction_mem ho).1 revision rfl
      -- The projection first, and then the stage of the execution.
      have hwritten : TodosKept listed
          { w with
            items := writeTodoProjection revision (keys.map fun key => (key, answer key)) w.items
            written := max w.written revision } := by
        rw [Nat.max_eq_right hle]
        refine ⟨decidedAt_write hle h.decided _, hread, h.read, ?_, h.workers, ?_⟩
        · exact fun o' ho' r hr => Nat.le_trans (h.wrote o' ho' r hr) hle
        intro howed
        rcases h.covered howed with hfresh | hcurrent | hneeds
        · exact Or.inl hfresh
        · refine Or.inr (Or.inl ?_)
          show revision = w.subject.revision
          omega
        · exact Or.inr (Or.inr hneeds)
      refine todosKept_goOn hwritten ho ?_ ?_
      · intro r hr
        exact Or.inr hr
      · intro r hr
        cases hr
        exact Nat.le_max_right _ _
  · exact h

theorem todosKept_without (h : TodosKept listed w) (k : Nat) {job : Option TodoJob}
    (hcovered : w.owed = 0 → (∃ j, job = some j ∧
        ∀ o ∈ w.without k, j.isHeldBy o = true → ∀ r ∈ o.stage.revision?, r = w.subject.revision) ∨
      w.written = w.subject.revision ∨ w.NeedsYou listed) :
    TodosKept listed { w with job := job, extractions := w.without k } where
  decided := h.decided
  past := h.past
  read := fun o ho => h.read o (List.mem_filter.1 ho).1
  wrote := fun o ho => h.wrote o (List.mem_filter.1 ho).1
  workers := h.workers.sublist (List.filter_sublist.map Extraction.id)
  covered := hcovered

theorem todosKept_ends (h : TodosKept listed w) (k : Nat) :
    TodosKept listed (w.step (.ends k)) := by
  simp only [TodoRun.step]
  split
  · next id jobId revision ho =>
      refine todosKept_without h k ?_
      intro howed
      rcases h.covered howed with ⟨j, hj, hfresh⟩ | hrest
      · by_cases hheld : j.isHeldBy ⟨id, jobId, .written revision⟩ = true
        · -- Its own projection is the one of the current revision.
          obtain ⟨hmem, _⟩ := extraction_mem ho
          have hcurrent := hfresh _ hmem hheld revision rfl
          have hwrote := h.wrote _ hmem revision rfl
          have hpast := h.past
          exact Or.inr (Or.inl (by omega))
        · refine Or.inl ⟨j, ?_, fun o' ho' => hfresh o' (List.mem_filter.1 ho').1⟩
          rw [hj]
          simp [hheld]
      · exact Or.inr hrest
  · exact h

theorem todosKept_fails (h : TodosKept listed w)
    {requeue : Bool} (hgood : FailsCovered listed w k requeue) :
    TodosKept listed (w.step (.fails k requeue)) := by
  simp only [TodoRun.step]
  split
  · next o ho =>
      refine todosKept_without h k ?_
      intro howed
      rcases h.covered howed with ⟨j, hj, hfresh⟩ | hrest
      · have hothers : ∀ o' ∈ w.without k, j.isHeldBy o' = true →
            ∀ r ∈ o'.stage.revision?, r = w.subject.revision :=
          fun o' ho' => hfresh o' (List.mem_filter.1 ho').1
        by_cases hheld : j.isHeldBy o = true
        · cases requeue with
          | true =>
            refine Or.inl ⟨{ j with holder := none }, by simp [hj, hheld], ?_⟩
            intro o' _ hheld'
            simp [TodoJob.isHeldBy] at hheld'
          | false => exact Or.inr (hgood rfl howed o ho j hj hheld)
        · refine Or.inl ⟨j, ?_, hothers⟩
          cases requeue with
          | true | false => simp [hj, hheld]
      · exact Or.inr hrest
  · exact h

theorem todosKept_step {l : TodoLabel} (h : TodosKept listed w)
    (hgood : KeepsFollowing listed w l) : TodosKept listed (w.step l) := by
  cases l with
  | changes status visible needsYou => exact todosKept_changes h status visible needsYou
  | enqueues => exact todosKept_enqueues h hgood
  | claims k => exact todosKept_claims h k
  | reads k =>
    simp only [TodoRun.step]
    split
    · next ho =>
        refine todosKept_goOn h ho (fun r hr => ?_) fun r hr => by cases hr
        exact Or.inl (Option.some.inj hr).symm
    · exact h
  | gathers k =>
    simp only [TodoRun.step]
    split
    · next ho => exact todosKept_goOn h ho (fun r hr => Or.inr hr) fun r hr => by cases hr
    · exact h
  | writes => exact todosKept_writes h hgood
  | ends k => exact todosKept_ends h k
  | fails => exact todosKept_fails h hgood
  | dies k =>
    refine todosKept_without h k ?_
    intro howed
    rcases h.covered howed with ⟨j, hj, hfresh⟩ | hrest
    · exact Or.inl ⟨j, hj, fun o ho => hfresh o (List.mem_filter.1 ho).1⟩
    · exact Or.inr hrest

/-! ## Runs -/

def TodoRun.start (m : Subject) : TodoRun := ⟨m, [], none, 0, [], 1, 0⟩

/-- **The to-dos follow the matter** in every run in which no execution writes after one that
has read a newer revision, the last change is not enqueued while the execution with the lease
has read an older revision, and no job dies with the current revision unwritten, the last two
unless the matter needs the user. -/
theorem todos_follow (listed : Bool) (m : Subject) (ls : List TodoLabel)
    (h : Along TodoRun.step (KeepsFollowing listed) (TodoRun.start m) ls) :
    Throughout TodoRun.step (TodosFollow listed) (TodoRun.start m) ls := by
  have hstart : TodosKept listed (TodoRun.start m) := by
    refine ⟨?_, Nat.zero_le _, ?_, ?_, List.nodup_nil, ?_⟩
    all_goals simp [TodoRun.start, DecidedAt]
  exact (throughout_of_step (fun _ _ hw hl => todosKept_step hw hl) hstart h).mono
    fun _ hw => todosFollow_of_kept hw

theorem todos_follow_once :
    Throughout TodoRun.step (TodosFollow true) (TodoRun.start ⟨.needsYou, true, 1, [4]⟩)
      [.enqueues, .claims 5, .reads 5, .gathers 5, .writes 5 fun _ => .todo, .ends 5] := by
  apply todos_follow
  refine ⟨?_, trivial, trivial, trivial, ?_, trivial, trivial⟩
  · intro _ j hj
    cases hj
  · exact fun _ _ _ _ _ => Nat.zero_le _

/-- The matter is completed while the model works on its first revision, and the extraction
for the second one joins the job that is running: the to-do stays visible. -/
theorem todo_of_completed_matter :
    ¬ Throughout TodoRun.step (TodosFollow true) (TodoRun.start ⟨.needsYou, true, 1, [4]⟩)
      [.enqueues, .claims 5, .reads 5, .gathers 5, .changes .completed true [], .enqueues,
        .writes 5 fun _ => .todo, .ends 5] := by
  intro h
  have hcurrent := h.last.current (by decide) (by decide) (by decide)
    ⟨.subgoal 4, .todo, false, 1, 1⟩ (by decide) (by decide)
  revert hcurrent
  decide

end ElectronicMail.Matters
