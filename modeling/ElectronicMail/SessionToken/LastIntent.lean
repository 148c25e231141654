import ElectronicMail.Foundations.Run
import ElectronicMail.SessionToken.Calls

/-!
# The last intent wins

A load answers nil or with the token of the mutation that was the latest when it last looked at
the ledger. What can go wrong is a ledger that becomes absent: a load then falls back to the
legacy record, or to the record with the highest ordinal, and ordinals start anew with every
ledger that was lost. `last_intent_wins` says that in every run in which the ledger becomes
absent only while these are what the latest mutation left, every load answers right.
-/

namespace ElectronicMail.SessionToken

open Foundations

/-! ## Statement -/

/-- The answer is the token of the latest mutation at the last look, which is newer than every
tombstone that was allocated when the load began. -/
structure AnswerOk (w : World) (began : List Mutation) (answer : LoadAnswer) : Prop where
  latest : ∃ m older, answer.asOf = m :: older ∧ m.kind = .token ∧
    (m, answer.token) ∈ w.tokens ∧ ∀ t ∈ began, t.kind = .tombstone → t ∈ older
  began : began <:+ answer.asOf
  asOf : answer.asOf <:+ w.allocated

/-- A record is the one of the latest mutation, or that one is there too and has a higher
ordinal. -/
def Behind (w : World) (latest m : Mutation) : Prop :=
  m = latest ∨ m.ordinal < latest.ordinal ∧ ∃ data, (latest, data) ∈ w.classic

/-- What a load can fall back to is what the latest mutation left: there is no legacy record,
and local builds recover its record or none. -/
structure Recoverable (w : World) (latest : Mutation) : Prop where
  classic : ∀ r ∈ w.classic, Behind w latest r.1
  legacy : w.legacyClassic = none ∧ w.legacySecure = none ∧ w.legacySynchronizable = none

/-- A call does not put an older record in its place: it is about to add none to the classic
place that could be taken for the latest, migrates no legacy record, holds no older record to
recover, and is not about to delete the record of the latest mutation where there are others. -/
def Safe (w : World) (latest : Mutation) : Call → Prop
  | .save (.adding m _) => w.localBuild = true → Behind w latest m
  | .load _ (.addingLegacy _ _ m _) => w.localBuild = true → Behind w latest m
  | .load _ (.allocatingLegacy _ _ _) => False
  | .load _ (.committingRecovery _ m _) => m = latest
  | .load _ (.markingMigrated _ _) => ∀ r ∈ w.classic, r.1 = latest
  | .load _ (.deletingMigratable _ _) => ∀ r ∈ w.classic, r.1 = latest
  | _ => True

/-- Where the ledger becomes absent, what is left is of the latest mutation. -/
def LosesSafely (s : Store) : Event → Prop
  | .absent => ∀ m ∈ s.world.allocated.head?,
      Recoverable s.world m ∧ ∀ c ∈ s.calls, Safe s.world m c
  | _ => True

/-! ## Invariant -/

/-- The mutation has been allocated, and the data are to be saved for it. -/
def RecordOk (w : World) (m : Mutation) (data : String) : Prop :=
  m ∈ w.allocated ∧ (m, data) ∈ w.tokens

def Old (w : World) (m : Mutation) : Prop := m ∈ w.allocated ∧ w.allocated.head? ≠ some m

/-- What a ledger desires is the latest mutation, or one that no call has. -/
structure LedgerOk (w : World) (state : LedgerState) : Prop where
  desired : ∃ m, state.desired = some m ∧ (w.allocated.head? = some m ∨ m ∉ w.allocated)
  persisted : ∀ e ∈ state.entries, e.recordPersisted = true → e.mutation ∈ w.allocated

/-- A ledger that is not on disk has been recovered from the latest mutation, by a local build,
or is of mutations that no call has. -/
structure Narrow (w : World) (latest : Mutation) (state : LedgerState) : Prop where
  release : w.localBuild = false → state.desired ≠ some latest
  entries : ∀ e ∈ state.entries, e.mutation ∈ w.allocated → e.mutation = latest

structure WorldOk (w : World) : Prop where
  fresh : ∀ m ∈ w.allocated, m.generationId < w.nextGeneration
  preference : ∀ state, w.preference = .stored state → LedgerOk w state
  disk : ∀ state, w.disk = .stored state → LedgerOk w state
  absent : w.preference = .absent → w.disk = .absent
  classic : ∀ r ∈ w.classic, RecordOk w r.1 r.2
  secure : ∀ r ∈ w.secure, RecordOk w r.1 r.2
  recoverable : w.disk = .absent → ∀ m ∈ w.allocated.head?,
    Recoverable w m ∧ ∀ state, w.preference = .stored state → Narrow w m state

def LoadOk (w : World) (began : List Mutation) : LoadPhase → Prop
  | .addingLegacy _ _ m token => m.kind = .token ∧ RecordOk w m token
  | .markingLegacy _ _ m token => m.kind = .token ∧ RecordOk w m token
  | .checkingLegacy _ _ m token => m.kind = .token ∧ RecordOk w m token
  | .committingRecovery _ m data => w.localBuild = true ∧ RecordOk w m data
  | .reading _ m => m.kind = .token
  | .checkingRead _ m data => m.kind = .token ∧ RecordOk w m data
  | .markingRead m answer => m ∈ w.allocated ∧ AnswerOk w began answer
  | .checkingMissing _ m => m.kind = .token
  | .readingMigratable m => m.kind = .token
  | .checkingMigratable m data => w.localBuild = false ∧ m.kind = .token ∧ RecordOk w m data
  | .addingMigrated m data => w.localBuild = false ∧ m.kind = .token ∧ RecordOk w m data
  | .verifyingMigrated m data => w.localBuild = false ∧ m.kind = .token ∧ RecordOk w m data
  | .checkingMigrated m data => w.localBuild = false ∧ m.kind = .token ∧ RecordOk w m data
  | .markingMigrated m answer => w.localBuild = false ∧ m ∈ w.allocated ∧ AnswerOk w began answer
  | .deletingMigratable m answer =>
    w.localBuild = false ∧ m ∈ w.allocated ∧ AnswerOk w began answer
  | .returned (some answer) => AnswerOk w began answer
  | _ => True

def CallOk (w : World) : Call → Prop
  | .save (.guarding m data) => RecordOk w m data
  | .save (.adding m data) => RecordOk w m data
  | .save (.marking m) => m ∈ w.allocated
  | .save .returned => True
  | .load began phase => began <:+ w.allocated ∧ LoadOk w began phase
  | .cleanup (.deleting todo _) => ∀ m ∈ todo, Old w m
  | .cleanup _ => True

structure CallSound (w : World) (c : Call) : Prop where
  ok : CallOk w c
  safe : w.disk = .absent → ∀ m ∈ w.allocated.head?, Safe w m c

structure Grows (w w' : World) : Prop where
  allocated : w.allocated <:+ w'.allocated
  tokens : w.tokens ⊆ w'.tokens
  localBuild : w'.localBuild = w.localBuild
  old : ∀ m, Old w m → Old w' m

structure Follows (w w' : World) : Prop where
  disk : w'.disk = .absent → w.disk = .absent
  same : w'.disk = .absent → w'.allocated = w.allocated
  kept : w'.disk = .absent → w.localBuild = true → ∀ m ∈ w.allocated.head?,
    ∀ data, (m, data) ∈ w.classic → (m, data) ∈ w'.classic
  shrinks : w'.disk = .absent → w.localBuild = false → w'.classic ⊆ w.classic

variable {c : Call}

section Growth

variable {w w' : World}

theorem RecordOk.mono (hg : Grows w w') {m : Mutation} {data : String} (h : RecordOk w m data) :
    RecordOk w' m data :=
  ⟨hg.allocated.subset h.1, hg.tokens h.2⟩

variable {began : List Mutation}

theorem AnswerOk.mono (hg : Grows w w') {answer : LoadAnswer} (h : AnswerOk w began answer) :
    AnswerOk w' began answer := by
  obtain ⟨m, older, hasOf, hkind, htoken, htombstones⟩ := h.latest
  exact ⟨⟨m, older, hasOf, hkind, hg.tokens htoken, htombstones⟩, h.began,
    h.asOf.trans hg.allocated⟩

theorem LoadOk.mono (hg : Grows w w') {phase : LoadPhase} (h : LoadOk w began phase) :
    LoadOk w' began phase := by
  have hlocal := hg.localBuild
  cases phase with
  | addingLegacy | markingLegacy | checkingLegacy | checkingRead => exact ⟨h.1, h.2.mono hg⟩
  | committingRecovery => exact ⟨hlocal.trans h.1, h.2.mono hg⟩
  | reading | checkingMissing | readingMigratable => exact h
  | markingRead => exact ⟨hg.allocated.subset h.1, h.2.mono hg⟩
  | checkingMigratable | addingMigrated | verifyingMigrated | checkingMigrated =>
    exact ⟨hlocal.trans h.1, h.2.1, h.2.2.mono hg⟩
  | markingMigrated | deletingMigratable =>
    exact ⟨hlocal.trans h.1, hg.allocated.subset h.2.1, h.2.2.mono hg⟩
  | returned answer =>
    cases answer with
    | none => trivial
    | some => exact AnswerOk.mono hg h
  | _ => trivial

theorem CallOk.mono (hg : Grows w w') (h : CallOk w c) : CallOk w' c := by
  cases c with
  | save phase =>
    cases phase with
    | guarding | adding => exact RecordOk.mono hg h
    | marking => exact hg.allocated.subset h
    | returned => trivial
  | load => exact ⟨h.1.trans hg.allocated, h.2.mono hg⟩
  | cleanup phase =>
    cases phase with
    | deleting => exact fun m hm => hg.old m (h m hm)
    | _ => trivial

theorem Behind.mono (hf : Follows w w') (hdisk : w'.disk = .absent) (hlocal : w.localBuild = true)
    {latest m : Mutation} (hlatest : latest ∈ w.allocated.head?) (h : Behind w latest m) :
    Behind w' latest m := by
  rcases h with heq | ⟨hlt, data, hdata⟩
  · exact Or.inl heq
  · exact Or.inr ⟨hlt, data, hf.kept hdisk hlocal latest hlatest data hdata⟩

structure Keeps (w w' : World) : Prop where
  ok : WorldOk w'
  grows : Grows w w'
  follows : Follows w w'

theorem keeps_refl (hw : WorldOk w) : Keeps w w where
  ok := hw
  grows := ⟨List.suffix_refl _, List.Subset.refl _, rfl, fun _ h => h⟩
  follows := ⟨fun h => h, fun _ => rfl, fun _ _ _ _ _ h => h, fun _ _ => List.Subset.refl _⟩

theorem CallSound.mono (hk : Keeps w w') (h : CallSound w c) : CallSound w' c := by
  have hg := hk.grows
  have hf := hk.follows
  refine ⟨h.ok.mono hg, ?_⟩
  intro hdisk latest hlatest
  rw [hf.same hdisk] at hlatest
  have hsafe := h.safe (hf.disk hdisk) latest hlatest
  have hok := h.ok
  cases c with
  | save phase =>
    cases phase with
    | adding =>
      intro hlocal
      rw [hg.localBuild] at hlocal
      exact (hsafe hlocal).mono hf hdisk hlocal hlatest
    | _ => trivial
  | load began phase =>
    cases phase with
    | addingLegacy =>
      intro hlocal
      rw [hg.localBuild] at hlocal
      exact (hsafe hlocal).mono hf hdisk hlocal hlatest
    | allocatingLegacy | committingRecovery => exact hsafe
    | markingMigrated | deletingMigratable =>
      exact fun r hr => hsafe r (hf.shrinks hdisk hok.2.1 hr)
    | _ => trivial
  | cleanup => trivial

end Growth

/-! ## Writes of the ledger -/

section Ledger

variable {w : World} {o : Answered} {state : LedgerState} {m : Mutation}

theorem snapshot_eq_available (h : w.snapshot = .available state) :
    w.preference = .stored state := by
  unfold World.snapshot Preference.snapshot at h
  split at h
  · cases h
  · cases h
  · rename_i stored hstored
    split at h
    · cases h
      exact hstored
    · cases h

theorem snapshot_eq_absent (h : w.snapshot = .absent) : w.preference = .absent := by
  unfold World.snapshot Preference.snapshot at h
  split at h
  · assumption
  · cases h
  · split at h
    · cases h
    · cases h

theorem keeps_persist (hw : WorldOk w) (hstate : LedgerOk w state)
    (hnarrow : w.disk = .absent → ∀ latest ∈ w.allocated.head?, Narrow w latest state) :
    Keeps w (w.persist o state) := by
  have hdisk : ∀ stored, (w.persist o state).disk = .stored stored → LedgerOk w stored := by
    intro stored hstored
    simp only [World.persist] at hstored
    split at hstored
    · cases hstored
      exact hstate
    · exact hw.disk stored hstored
  have habsent : (w.persist o state).disk = .absent → w.disk = .absent := by
    intro h
    simp only [World.persist] at h
    split at h
    · cases h
    · exact h
  refine ⟨⟨hw.fresh, ?_, ?_, ?_, hw.classic, hw.secure, ?_⟩,
    ⟨List.suffix_refl _, List.Subset.refl _, rfl, fun _ h => h⟩,
    ⟨habsent, fun _ => rfl, fun _ _ _ _ _ h => h, fun _ _ => List.Subset.refl _⟩⟩
  · intro stored hstored
    cases hstored
    exact ⟨hstate.desired, hstate.persisted⟩
  · intro stored hstored
    exact ⟨(hdisk stored hstored).desired, (hdisk stored hstored).persisted⟩
  · intro h
    cases h
  · intro h latest hlatest
    refine ⟨?_, ?_⟩
    · have hrecoverable := (hw.recoverable (habsent h) latest hlatest).1
      exact ⟨hrecoverable.classic, hrecoverable.legacy⟩
    · intro stored hstored
      cases hstored
      obtain ⟨hrelease, hentries⟩ := hnarrow (habsent h) latest hlatest
      exact ⟨hrelease, hentries⟩

theorem keeps_edit (hw : WorldOk w) {edited : LedgerState} (hpreference : w.preference = .stored state)
    (hdesired : edited.desired = state.desired)
    (hentries : ∀ e ∈ edited.entries, (∃ e' ∈ state.entries, e'.mutation = e.mutation) ∧
      (e.recordPersisted = true → e.mutation ∈ w.allocated)) :
    Keeps w (w.persist o edited) := by
  refine keeps_persist hw ⟨?_, fun e he => (hentries e he).2⟩ ?_
  · rw [hdesired]
    exact (hw.preference state hpreference).desired
  intro hdisk latest hlatest
  obtain ⟨hrelease, hnarrow⟩ := (hw.recoverable hdisk latest hlatest).2 state hpreference
  refine ⟨fun hlocal => hdesired ▸ hrelease hlocal, ?_⟩
  intro e he hallocated
  obtain ⟨⟨e', he', heq⟩, -⟩ := hentries e he
  rw [← heq] at hallocated ⊢
  exact hnarrow e' he' hallocated

theorem keeps_markRecordPersisted (hw : WorldOk w) (hm : m ∈ w.allocated) :
    Keeps w (w.markRecordPersisted o m).1 := by
  unfold World.markRecordPersisted
  split
  · rename_i state hstate
    split
    · have hpreference := snapshot_eq_available hstate
      refine keeps_edit hw hpreference rfl ?_
      intro e he
      obtain ⟨e', he', rfl⟩ := List.mem_map.1 he
      have hpersisted := (hw.preference state hpreference).persisted e' he'
      by_cases heq : e'.mutation = m
      · rw [if_pos heq]
        exact ⟨⟨e', he', rfl⟩, fun _ => heq ▸ hm⟩
      · rw [if_neg heq]
        exact ⟨⟨e', he', rfl⟩, hpersisted⟩
    · exact keeps_refl hw
  · exact keeps_refl hw

theorem keeps_removeCleanedEntries (hw : WorldOk w) (generationIds : List Nat) :
    Keeps w (w.removeCleanedEntries o generationIds) := by
  unfold World.removeCleanedEntries
  split
  · exact keeps_refl hw
  split
  · rename_i state hstate
    have hpreference := snapshot_eq_available hstate
    refine keeps_edit hw hpreference rfl ?_
    intro e he
    have hmem := List.mem_of_mem_filter he
    exact ⟨⟨e, hmem, rfl⟩, (hw.preference state hpreference).persisted e hmem⟩
  · exact keeps_refl hw

theorem Keeps.trans {w' w'' : World} (h : Keeps w w') (h' : Keeps w' w'') : Keeps w w'' := by
  have hg := h.grows
  have hg' := h'.grows
  have hf := h.follows
  have hf' := h'.follows
  refine ⟨h'.ok, ⟨hg.allocated.trans hg'.allocated, List.Subset.trans hg.tokens hg'.tokens,
    hg'.localBuild.trans hg.localBuild, fun m hm => hg'.old m (hg.old m hm)⟩,
    ⟨fun hdisk => hf.disk (hf'.disk hdisk), ?_, ?_, ?_⟩⟩
  · intro hdisk
    exact (hf'.same hdisk).trans (hf.same (hf'.disk hdisk))
  · intro hdisk hlocal latest hlatest data hdata
    have hsame := hf.same (hf'.disk hdisk)
    exact hf'.kept hdisk (hg.localBuild.trans hlocal) latest (hsame ▸ hlatest) data
      (hf.kept (hf'.disk hdisk) hlocal latest hlatest data hdata)
  · intro hdisk hlocal
    exact List.Subset.trans (hf'.shrinks hdisk (hg.localBuild.trans hlocal))
      (hf.shrinks (hf'.disk hdisk) hlocal)

theorem keeps_nextGeneration (hw : WorldOk w) :
    Keeps w { w with nextGeneration := w.nextGeneration + 1 } := by
  refine ⟨⟨?_, ?_, ?_, hw.absent, hw.classic, hw.secure, ?_⟩,
    ⟨List.suffix_refl _, List.Subset.refl _, rfl, fun _ h => h⟩,
    ⟨fun h => h, fun _ => rfl, fun _ _ _ _ _ h => h, fun _ _ => List.Subset.refl _⟩⟩
  · intro m hm
    exact Nat.lt_succ_of_lt (hw.fresh m hm)
  · intro state hstate
    exact ⟨(hw.preference state hstate).desired, (hw.preference state hstate).persisted⟩
  · intro state hstate
    exact ⟨(hw.disk state hstate).desired, (hw.disk state hstate).persisted⟩
  · intro hdisk latest hlatest
    obtain ⟨⟨hclassic, hlegacy⟩, hnarrow⟩ := hw.recoverable hdisk latest hlatest
    refine ⟨⟨hclassic, hlegacy⟩, ?_⟩
    intro state hstate
    exact ⟨(hnarrow state hstate).release, (hnarrow state hstate).entries⟩

structure Extends (w : World) (state : LedgerState) : Prop where
  persisted : ∀ e ∈ state.entries, e.recordPersisted = true → e.mutation ∈ w.allocated
  narrow : w.disk = .absent → ∀ latest ∈ w.allocated.head?, ∀ e ∈ state.entries,
    e.mutation ∈ w.allocated → e.mutation = latest

theorem extends_empty (w : World) : Extends w {} := by
  refine ⟨?_, ?_⟩
  · intro e he
    cases he
  · intro _ _ _ e he
    cases he

theorem extends_preference (hw : WorldOk w) (h : w.preference = .stored state) : Extends w state :=
  ⟨(hw.preference state h).persisted,
    fun hdisk latest hlatest => ((hw.recoverable hdisk latest hlatest).2 state h).entries⟩

section

variable (hw : WorldOk w) (hstate : Extends w state)
include hw hstate

/-- A mutation that `synchronize` has put on disk is the latest one. -/
theorem keeps_published (hm : m.generationId = w.nextGeneration) (hsynchronized : o.synchronized = true) :
    Keeps w
      { w.persist o (state.publish m) with
        nextGeneration := w.nextGeneration + 1
        allocated := m :: w.allocated } := by
  have hdisk : (w.persist o (state.publish m)).disk = .stored (state.publish m) := by
    simp [World.persist, hsynchronized]
  have hledger : LedgerOk
      { w.persist o (state.publish m) with
        nextGeneration := w.nextGeneration + 1
        allocated := m :: w.allocated } (state.publish m) := by
    refine ⟨⟨m, rfl, Or.inl rfl⟩, ?_⟩
    intro e he hpersisted
    rcases List.mem_append.1 he with he | he
    · exact List.mem_cons_of_mem _ (hstate.persisted e he hpersisted)
    · rw [List.mem_singleton.1 he] at hpersisted
      cases hpersisted
  have hrecord : ∀ m' data, RecordOk w m' data → RecordOk
      { w.persist o (state.publish m) with
        nextGeneration := w.nextGeneration + 1
        allocated := m :: w.allocated } m' data :=
    fun m' data h => ⟨List.mem_cons_of_mem _ h.1, h.2⟩
  have hpresent : ∀ disk : Preference, disk = (w.persist o (state.publish m)).disk →
      disk ≠ .absent := by
    rintro disk rfl habsent
    rw [hdisk] at habsent
    cases habsent
  refine ⟨⟨?_, ?_, ?_, ?_, ?_, ?_, ?_⟩, ⟨List.suffix_cons _ _, List.Subset.refl _, rfl, ?_⟩,
    ⟨?_, ?_, ?_, ?_⟩⟩
  · intro m' hm'
    rcases List.mem_cons.1 hm' with rfl | hm'
    · rw [hm]
      exact Nat.lt_succ_self _
    · exact Nat.lt_succ_of_lt (hw.fresh m' hm')
  · intro stored hstored
    cases hstored
    exact hledger
  · intro stored hstored
    have heq : Preference.stored (state.publish m) = .stored stored := hdisk.symm.trans hstored
    cases heq
    exact hledger
  · intro h
    cases h
  · exact fun r hr => hrecord r.1 r.2 (hw.classic r hr)
  · exact fun r hr => hrecord r.1 r.2 (hw.secure r hr)
  · exact fun h => absurd h (hpresent _ rfl)
  · intro m' hold
    refine ⟨List.mem_cons_of_mem _ hold.1, ?_⟩
    intro heq
    have hsame : m = m' := by simpa using heq
    have hfresh := hw.fresh m' hold.1
    rw [← hsame, hm] at hfresh
    exact absurd hfresh (Nat.lt_irrefl _)
  · exact fun h => absurd h (hpresent _ rfl)
  · exact fun h => absurd h (hpresent _ rfl)
  · exact fun h => absurd h (hpresent _ rfl)
  · exact fun h => absurd h (hpresent _ rfl)

theorem keeps_unpublished (hm : m.generationId = w.nextGeneration) :
    Keeps w { w.persist o (state.publish m) with nextGeneration := w.nextGeneration + 1 } := by
  have hnew : m ∉ w.allocated := by
    intro hmem
    exact absurd (hw.fresh m hmem) (by rw [hm]; exact Nat.lt_irrefl _)
  have hpersist : Keeps w (w.persist o (state.publish m)) := by
    refine keeps_persist hw ⟨⟨m, rfl, Or.inr hnew⟩, ?_⟩ ?_
    · intro e he hpersisted
      rcases List.mem_append.1 he with he | he
      · exact hstate.persisted e he hpersisted
      · rw [List.mem_singleton.1 he] at hpersisted
        cases hpersisted
    · intro hdisk latest hlatest
      refine ⟨?_, ?_⟩
      · intro _ heq
        have hsame : m = latest := Option.some.inj heq
        exact hnew (hsame ▸ List.mem_of_mem_head? hlatest)
      · intro e he hallocated
        rcases List.mem_append.1 he with he | he
        · exact hstate.narrow hdisk latest hlatest e he hallocated
        · rw [List.mem_singleton.1 he] at hallocated
          exact absurd hallocated hnew
  exact hpersist.trans (keeps_nextGeneration hpersist.ok)

theorem keeps_allocateFrom (kind : MutationKind) :
    Keeps w (w.allocateFrom o state kind).1 := by
  unfold World.allocateFrom
  split
  · by_cases hsynchronized : o.synchronized = true
    · simp only [hsynchronized, if_true]
      exact keeps_published hw hstate rfl hsynchronized
    · simp only [hsynchronized]
      exact keeps_unpublished hw hstate rfl
  · exact keeps_refl hw

end

structure Returned (w w' : World) (kind : MutationKind) (m : Mutation) : Prop where
  kind : m.kind = kind
  allocated : w'.allocated = m :: w.allocated
  disk : w'.disk ≠ .absent

theorem allocateFrom_eq_some {kind : MutationKind}
    (h : (w.allocateFrom o state kind).2 = some m) :
    Returned w (w.allocateFrom o state kind).1 kind m := by
  unfold World.allocateFrom at h ⊢
  split at h
  · rename_i hhighest
    rw [if_pos hhighest]
    by_cases hsynchronized : o.synchronized = true
    · simp only [hsynchronized, if_true] at h ⊢
      cases h
      refine ⟨rfl, rfl, ?_⟩
      simp [World.persist, hsynchronized]
    · simp [hsynchronized] at h
  · cases h

theorem keeps_allocate (hw : WorldOk w) (kind : MutationKind) : Keeps w (w.allocate o kind).1 := by
  unfold World.allocate
  split
  · rename_i state hstate
    exact keeps_allocateFrom hw (extends_preference hw (snapshot_eq_available hstate)) kind
  · exact keeps_allocateFrom hw (extends_empty w) kind

theorem allocate_eq_some {kind : MutationKind} (h : (w.allocate o kind).2 = some m) :
    Returned w (w.allocate o kind).1 kind m := by
  unfold World.allocate at h ⊢
  split at h
  · exact allocateFrom_eq_some h
  · exact allocateFrom_eq_some h

theorem keeps_allocateLegacy (hw : WorldOk w) :
    Keeps w (w.allocateLegacyMigrationIfUnclaimed o).1 := by
  unfold World.allocateLegacyMigrationIfUnclaimed
  split
  · exact keeps_refl hw
  · rename_i state hstate
    split
    · exact keeps_refl hw
    · exact keeps_allocateFrom hw (extends_preference hw (snapshot_eq_available hstate)) .token
  · exact keeps_allocateFrom hw (extends_empty w) .token

theorem allocateLegacy_eq_some (h : (w.allocateLegacyMigrationIfUnclaimed o).2 = some m) :
    Returned w (w.allocateLegacyMigrationIfUnclaimed o).1 .token m := by
  unfold World.allocateLegacyMigrationIfUnclaimed at h ⊢
  split at h
  · cases h
  · split at h
    · cases h
    · rename_i hdesired
      rw [if_neg hdesired]
      exact allocateFrom_eq_some h
  · exact allocateFrom_eq_some h

theorem keeps_recover (hw : WorldOk w) (hlocal : w.localBuild = true) (hm : m ∈ w.allocated)
    (hlatest : w.disk = .absent → ∀ latest ∈ w.allocated.head?, m = latest) :
    Keeps w (w.recoverCommittedIfUnclaimed o m).1 := by
  unfold World.recoverCommittedIfUnclaimed
  split
  · rename_i habsent
    have hdisk := hw.absent (snapshot_eq_absent habsent)
    obtain ⟨latest, older, hallocated⟩ := List.exists_cons_of_ne_nil (List.ne_nil_of_mem hm)
    have hhead : w.allocated.head? = some latest := by rw [hallocated]; rfl
    have hsame := hlatest hdisk latest hhead
    refine keeps_persist hw ⟨⟨m, rfl, Or.inl (hsame ▸ hhead)⟩, ?_⟩ ?_
    · intro e he _
      rw [List.mem_singleton.1 he]
      exact hm
    · intro _ latest' hlatest'
      refine ⟨fun hrelease => ?_, ?_⟩
      · rw [hlocal] at hrelease
        cases hrelease
      · intro e he _
        rw [List.mem_singleton.1 he]
        exact hlatest hdisk latest' hlatest'
  · exact keeps_refl hw

end Ledger

/-! ## Writes of the Keychain -/

structure SameLedger (w w' : World) : Prop where
  preference : w'.preference = w.preference
  disk : w'.disk = w.disk
  localBuild : w'.localBuild = w.localBuild
  nextGeneration : w'.nextGeneration = w.nextGeneration
  allocated : w'.allocated = w.allocated
  tokens : w.tokens ⊆ w'.tokens

section Keychain

variable {w w' : World} {o : Answered} {m : Mutation} {data : String}

theorem SameLedger.ledgerOk (h : SameLedger w w') {state : LedgerState} (hok : LedgerOk w state) :
    LedgerOk w' state := by
  refine ⟨?_, ?_⟩
  · rw [h.allocated]
    exact hok.desired
  · rw [h.allocated]
    exact hok.persisted

theorem SameLedger.recordOk (h : SameLedger w w') (hok : RecordOk w m data) :
    RecordOk w' m data := by
  refine ⟨?_, h.tokens hok.2⟩
  rw [h.allocated]
  exact hok.1

theorem keeps_of_sameLedger (hw : WorldOk w) (h : SameLedger w w')
    (hclassic : ∀ r ∈ w'.classic, RecordOk w' r.1 r.2)
    (hsecure : ∀ r ∈ w'.secure, RecordOk w' r.1 r.2)
    (hrecoverable : w.disk = .absent → ∀ latest ∈ w.allocated.head?, Recoverable w' latest)
    (hkept : w.disk = .absent → w.localBuild = true → ∀ latest ∈ w.allocated.head?,
      ∀ data, (latest, data) ∈ w.classic → (latest, data) ∈ w'.classic)
    (hshrinks : w.disk = .absent → w.localBuild = false → w'.classic ⊆ w.classic) :
    Keeps w w' := by
  have hdisk : w'.disk = .absent → w.disk = .absent := by
    rw [h.disk]
    exact fun habsent => habsent
  refine ⟨⟨?_, ?_, ?_, ?_, hclassic, hsecure, ?_⟩, ⟨?_, h.tokens, h.localBuild, ?_⟩,
    ⟨hdisk, fun _ => h.allocated, fun habsent => hkept (hdisk habsent),
      fun habsent => hshrinks (hdisk habsent)⟩⟩
  · rw [h.allocated, h.nextGeneration]
    exact hw.fresh
  · intro state hstate
    exact h.ledgerOk (hw.preference state (h.preference ▸ hstate))
  · intro state hstate
    exact h.ledgerOk (hw.disk state (h.disk ▸ hstate))
  · rw [h.preference, h.disk]
    exact hw.absent
  · intro habsent latest hlatest
    rw [h.allocated] at hlatest
    refine ⟨hrecoverable (hdisk habsent) latest hlatest, ?_⟩
    intro state hstate
    rw [h.preference] at hstate
    have hnarrow := (hw.recoverable (hdisk habsent) latest hlatest).2 state hstate
    refine ⟨?_, ?_⟩
    · rw [h.localBuild]
      exact hnarrow.release
    · rw [h.allocated]
      exact hnarrow.entries
  · rw [h.allocated]
  · intro m hold
    unfold Old
    rw [h.allocated]
    exact hold

theorem keeps_tokens (hw : WorldOk w) (entry : Mutation × String) :
    Keeps w { w with tokens := entry :: w.tokens } := by
  have hsame : SameLedger w { w with tokens := entry :: w.tokens } :=
    ⟨rfl, rfl, rfl, rfl, rfl, List.subset_cons_self _ _⟩
  refine keeps_of_sameLedger hw hsame (fun r hr => hsame.recordOk (hw.classic r hr))
    (fun r hr => hsame.recordOk (hw.secure r hr)) ?_ (fun _ _ _ _ _ h => h)
    fun _ _ => List.Subset.refl _
  intro hdisk latest hlatest
  have hrecoverable := (hw.recoverable hdisk latest hlatest).1
  exact ⟨hrecoverable.classic, hrecoverable.legacy⟩

theorem keeps_addGenerationRecord (hw : WorldOk w) (hrecord : RecordOk w m data)
    (hbehind : w.disk = .absent → ∀ latest ∈ w.allocated.head?, w.localBuild = true →
      Behind w latest m) :
    Keeps w (w.addGenerationRecord o m data).1 := by
  unfold World.addGenerationRecord
  split
  · split
    · unfold World.withRecords World.records
      by_cases hlocal : w.localBuild = true
      · rw [if_pos hlocal, if_pos hlocal]
        have hsame : SameLedger w { w with classic := w.classic ++ [(m, data)] } :=
          ⟨rfl, rfl, rfl, rfl, rfl, List.Subset.refl _⟩
        refine keeps_of_sameLedger hw hsame ?_ hw.secure ?_
          (fun _ _ _ _ _ h => List.mem_append_left _ h) fun _ hrelease => ?_
        · intro r hr
          rcases List.mem_append.1 hr with hr | hr
          · exact hw.classic r hr
          · rw [List.mem_singleton.1 hr]
            exact hrecord
        · intro hdisk latest hlatest
          obtain ⟨hclassic, hlegacy⟩ := (hw.recoverable hdisk latest hlatest).1
          have hlonger : ∀ m', Behind w latest m' →
              Behind { w with classic := w.classic ++ [(m, data)] } latest m' := by
            intro m' hm'
            rcases hm' with heq | ⟨hlt, found, hfound⟩
            · exact Or.inl heq
            · exact Or.inr ⟨hlt, found, List.mem_append_left _ hfound⟩
          refine ⟨?_, hlegacy⟩
          intro r hr
          rcases List.mem_append.1 hr with hr | hr
          · exact hlonger r.1 (hclassic r hr)
          · rw [List.mem_singleton.1 hr]
            exact hlonger m (hbehind hdisk latest hlatest hlocal)
        · rw [hlocal] at hrelease
          cases hrelease
      · rw [if_neg hlocal, if_neg hlocal]
        refine keeps_of_sameLedger hw ⟨rfl, rfl, rfl, rfl, rfl, List.Subset.refl _⟩ hw.classic ?_ ?_
          (fun _ _ _ _ _ h => h) fun _ _ => List.Subset.refl _
        · intro r hr
          rcases List.mem_append.1 hr with hr | hr
          · exact hw.secure r hr
          · rw [List.mem_singleton.1 hr]
            exact hrecord
        · intro hdisk latest hlatest
          have hrecoverable := (hw.recoverable hdisk latest hlatest).1
          exact ⟨hrecoverable.classic, hrecoverable.legacy⟩
    · exact keeps_refl hw
  · exact keeps_refl hw

theorem recoverable_filter {latest : Mutation} (h : Recoverable w latest) (hne : m ≠ latest) :
    Recoverable { w with classic := w.classic.filter fun r => r.1 ≠ m } latest := by
  refine ⟨?_, h.legacy⟩
  intro r hr
  rcases h.classic r (List.mem_of_mem_filter hr) with heq | ⟨hlt, found, hfound⟩
  · exact Or.inl heq
  · exact Or.inr ⟨hlt, found, List.mem_filter.2 ⟨hfound, by simp [Ne.symm hne]⟩⟩

theorem keeps_deleteGenerationRecord (hw : WorldOk w) (hold : Old w m) :
    Keeps w (w.deleteGenerationRecord o m).1 := by
  have hne : ∀ latest ∈ w.allocated.head?, m ≠ latest := by
    rintro latest hlatest rfl
    exact hold.2 hlatest
  unfold World.deleteGenerationRecord
  split
  · unfold World.withRecords World.records
    by_cases hlocal : w.localBuild = true
    · rw [if_pos hlocal, if_pos hlocal]
      refine keeps_of_sameLedger hw ⟨rfl, rfl, rfl, rfl, rfl, List.Subset.refl _⟩
        (fun r hr => hw.classic r (List.mem_of_mem_filter hr)) hw.secure ?_ ?_ ?_
      · intro hdisk latest hlatest
        exact recoverable_filter (hw.recoverable hdisk latest hlatest).1 (hne latest hlatest)
      · intro _ _ latest hlatest found hfound
        exact List.mem_filter.2 ⟨hfound, by simp [Ne.symm (hne latest hlatest)]⟩
      · exact fun _ _ r hr => List.mem_of_mem_filter hr
    · rw [if_neg hlocal, if_neg hlocal]
      refine keeps_of_sameLedger hw ⟨rfl, rfl, rfl, rfl, rfl, List.Subset.refl _⟩ hw.classic
        (fun r hr => hw.secure r (List.mem_of_mem_filter hr)) ?_ (fun _ _ _ _ _ h => h)
        fun _ _ => List.Subset.refl _
      intro hdisk latest hlatest
      have hrecoverable := (hw.recoverable hdisk latest hlatest).1
      exact ⟨hrecoverable.classic, hrecoverable.legacy⟩
  · exact keeps_refl hw

theorem keeps_deleteMigratable (hw : WorldOk w)
    (hall : w.disk = .absent → ∀ latest ∈ w.allocated.head?, ∀ r ∈ w.classic, r.1 = latest) :
    Keeps w (w.deleteMigratableGenerationRecord o m) := by
  unfold World.deleteMigratableGenerationRecord
  split
  · rename_i hrelease
    have hlocal : w.localBuild = false := by
      simp only [Bool.and_eq_true, Bool.not_eq_true'] at hrelease
      exact hrelease.1
    refine keeps_of_sameLedger hw ⟨rfl, rfl, rfl, rfl, rfl, List.Subset.refl _⟩
      (fun r hr => hw.classic r (List.mem_of_mem_filter hr)) hw.secure ?_ ?_
      fun _ _ r hr => List.mem_of_mem_filter hr
    · intro hdisk latest hlatest
      refine ⟨?_, (hw.recoverable hdisk latest hlatest).1.legacy⟩
      intro r hr
      exact Or.inl (hall hdisk latest hlatest r (List.mem_of_mem_filter hr))
    · intro _ hbuild
      rw [hlocal] at hbuild
      cases hbuild
  · exact keeps_refl hw

theorem keeps_deleteLegacyRecords (hw : WorldOk w) : Keeps w (w.deleteLegacyRecords o) := by
  unfold World.deleteLegacyRecords
  split
  · refine keeps_of_sameLedger hw ⟨rfl, rfl, rfl, rfl, rfl, List.Subset.refl _⟩ hw.classic
      hw.secure ?_ (fun _ _ _ _ _ h => h) fun _ _ => List.Subset.refl _
    intro hdisk latest hlatest
    obtain ⟨hclassic, hlegacy⟩ := (hw.recoverable hdisk latest hlatest).1
    exact ⟨hclassic, by simp [hlegacy], hlegacy.2⟩
  · refine keeps_of_sameLedger hw ⟨rfl, rfl, rfl, rfl, rfl, List.Subset.refl _⟩ hw.classic
      hw.secure ?_ (fun _ _ _ _ _ h => h) fun _ _ => List.Subset.refl _
    intro hdisk latest hlatest
    obtain ⟨hclassic, hlegacy⟩ := (hw.recoverable hdisk latest hlatest).1
    exact ⟨hclassic, hlegacy.1, by simp [hlegacy], by simp [hlegacy]⟩

end Keychain

/-! ## Steps -/

section Steps

variable {w w' : World} {o : Answered} {m : Mutation} {data : String} {began : List Mutation}

theorem desired_of_isDesired (h : w.isDesired m = true) :
    ∃ state, w.preference = .stored state ∧ state.desired = some m := by
  unfold World.isDesired at h
  split at h
  · rename_i state hstate
    exact ⟨state, snapshot_eq_available hstate, of_decide_eq_true h⟩
  · cases h

theorem latest_of_isDesired (hw : WorldOk w) (h : w.isDesired m = true) (hm : m ∈ w.allocated) :
    w.allocated.head? = some m := by
  obtain ⟨state, hpreference, hstate⟩ := desired_of_isDesired h
  obtain ⟨desired, hdesired, hlatest⟩ := (hw.preference state hpreference).desired
  have hsame : desired = m := Option.some.inj (hdesired.symm.trans hstate)
  rw [hsame] at hlatest
  exact hlatest.resolve_right fun hnot => hnot hm

theorem answerOk_now (hbegan : began <:+ w.allocated) (hlatest : w.allocated.head? = some m)
    (hkind : m.kind = .token) (hrecord : RecordOk w m data) :
    AnswerOk w began (w.answer data) := by
  obtain ⟨older, hallocated⟩ := List.head?_eq_some_iff.1 hlatest
  refine ⟨⟨m, older, hallocated, hkind, hrecord.2, ?_⟩, hbegan, List.suffix_refl _⟩
  intro t ht htombstone
  have hmem : t ∈ m :: older := hallocated ▸ hbegan.subset ht
  rcases List.mem_cons.1 hmem with rfl | holder
  · rw [hkind] at htombstone
    cases htombstone
  · exact holder

theorem mem_of_lookup {records : List (Mutation × String)} (h : records.lookup m = some data) :
    (m, data) ∈ records := by
  obtain ⟨before, rest, rfl, -⟩ := List.lookup_eq_some_iff.1 h
  exact List.mem_append_right _ List.mem_cons_self

theorem recordOk_of_read (hw : WorldOk w) (h : w.readGenerationRecord o m = some data) :
    RecordOk w m data := by
  unfold World.readGenerationRecord World.records at h
  split at h
  · split at h
    · exact hw.classic (m, data) (mem_of_lookup h)
    · exact hw.secure (m, data) (mem_of_lookup h)
  · cases h

theorem entry_of_containsAllocated (h : w.containsAllocated m = true) :
    ∃ state, w.preference = .stored state ∧ ∃ e ∈ state.entries, e.mutation = m := by
  unfold World.containsAllocated at h
  split at h
  · rename_i state hstate
    obtain ⟨e, he, heq⟩ := List.any_eq_true.1 h
    exact ⟨state, snapshot_eq_available hstate, e, he, of_decide_eq_true heq⟩
  · cases h

theorem old_of_cleanupPlan (hw : WorldOk w) {candidates : List Mutation}
    (h : w.cleanupPlan = some candidates) : ∀ m ∈ candidates, Old w m := by
  unfold World.cleanupPlan at h
  split at h
  · rename_i state hstate
    have hledger := hw.preference state (snapshot_eq_available hstate)
    unfold LedgerState.cleanupPlan at h
    split at h
    · cases h
    rename_i desired hdesired
    split at h
    · rename_i hany
      obtain ⟨e, he, hpersisted⟩ := List.any_eq_true.1 hany
      simp only [Bool.and_eq_true, decide_eq_true_eq] at hpersisted
      -- the record of the desired mutation is persisted, so a call has it
      have hhas : desired ∈ w.allocated := hpersisted.1 ▸ hledger.persisted e he hpersisted.2
      have hlatest : w.allocated.head? = some desired := by
        obtain ⟨m, hm, hor⟩ := hledger.desired
        rw [hdesired] at hm
        cases hm
        exact hor.resolve_right fun hnot => hnot hhas
      cases h
      intro m hm
      obtain ⟨e', he', hfound⟩ := List.mem_filterMap.1 hm
      split at hfound
      · rename_i holder
        simp only [Bool.and_eq_true, decide_eq_true_eq] at holder
        cases hfound
        refine ⟨hledger.persisted e' he' holder.1, ?_⟩
        intro hhead
        have hsame : desired = e'.mutation := Option.some.inj (hlatest.symm.trans hhead)
        rw [← hsame] at holder
        exact absurd holder.2 (Nat.lt_irrefl _)
      · cases hfound
    · cases h
  · cases h

structure CallStep (w : World) (next : World × Call × Bool) : Prop where
  keeps : Keeps w next.1
  sound : CallSound next.1 next.2.1

theorem callStep_move (hw : WorldOk w) (hc : CallSound w c) (schedules : Bool) :
    CallStep w (w, c, schedules) :=
  ⟨keeps_refl hw, hc⟩

theorem saveSound_returned (w : World) : CallSound w (.save .returned) :=
  ⟨trivial, fun _ _ _ => trivial⟩

theorem callStep_save (hw : WorldOk w) {phase : SavePhase} (hc : CallSound w (.save phase)) :
    CallStep w (stepCall w o (.save phase)) := by
  cases phase with
  | guarding m data =>
    by_cases hcontains : w.containsAllocated m = true
    · simp only [stepCall, stepSave, hcontains]
      have hsound : CallSound w (.save (.adding m data)) := by
        refine ⟨hc.ok, ?_⟩
        intro hdisk latest hlatest _
        obtain ⟨state, hstate, e, he, hsame⟩ := entry_of_containsAllocated hcontains
        have hentries := ((hw.recoverable hdisk latest hlatest).2 state hstate).entries
        rw [hsame.symm]
        exact Or.inl (hentries e he (hsame ▸ hc.ok.1))
      exact callStep_move hw hsound false
    · have hstep : stepCall w o (.save (.guarding m data)) = (w, .save .returned, false) := by
        simp [stepCall, stepSave, hcontains]
      rw [hstep]
      exact callStep_move hw (saveSound_returned w) false
  | adding m data =>
    have hkeeps : Keeps w (w.addGenerationRecord o m data).1 :=
      keeps_addGenerationRecord hw hc.ok fun hdisk latest hlatest =>
        hc.safe hdisk latest hlatest
    refine ⟨hkeeps, ?_⟩
    show CallSound (w.addGenerationRecord o m data).1
      (.save (if (w.addGenerationRecord o m data).2 then .marking m else .returned))
    split
    · exact ⟨hkeeps.grows.allocated.subset hc.ok.1, fun _ _ _ => trivial⟩
    · exact saveSound_returned _
  | marking m => exact ⟨keeps_markRecordPersisted hw hc.ok, saveSound_returned _⟩
  | returned => exact callStep_move hw (saveSound_returned w) false

variable {phase : CleanupPhase}

theorem cleanupSound (h : CallOk w (.cleanup phase)) :
    CallSound w (.cleanup phase) := ⟨h, fun _ _ _ => trivial⟩

theorem callStep_cleanup (hw : WorldOk w) (hc : CallSound w (.cleanup phase)) :
    CallStep w (stepCall w o (.cleanup phase)) := by
  cases phase with
  | planning =>
    cases hplan : w.cleanupPlan with
    | none =>
      have hstep : stepCall w o (.cleanup .planning) = (w, .cleanup .returned, false) := by
        simp [stepCall, stepCleanup, hplan]
      have hsound : CallSound w (.cleanup .returned) := cleanupSound trivial
      rw [hstep]
      exact callStep_move hw hsound false
    | some candidates =>
      have hsound : CallSound w (.cleanup (.deleting candidates [])) :=
        cleanupSound (old_of_cleanupPlan hw hplan)
      simp only [stepCall, stepCleanup, hplan]
      exact callStep_move hw hsound false
  | deleting todo cleaned =>
    cases todo with
    | nil =>
      have hsound : CallSound w (.cleanup (.removing cleaned)) := cleanupSound trivial
      exact callStep_move hw hsound false
    | cons m =>
      have hkeeps : Keeps w (w.deleteGenerationRecord o m).1 :=
        keeps_deleteGenerationRecord hw (hc.ok m List.mem_cons_self)
      refine ⟨hkeeps, cleanupSound ?_⟩
      intro m' hm'
      exact hkeeps.grows.old m' (hc.ok m' (List.mem_cons_of_mem _ hm'))
  | removing cleaned =>
    have hsound : CallSound (w.removeCleanedEntries o cleaned) (.cleanup .deletingLegacy) :=
      cleanupSound trivial
    exact ⟨keeps_removeCleanedEntries hw cleaned, hsound⟩
  | deletingLegacy =>
    have hsound : CallSound (w.deleteLegacyRecords o) (.cleanup .returned) :=
      cleanupSound trivial
    exact ⟨keeps_deleteLegacyRecords hw, hsound⟩
  | returned =>
    have hsound : CallSound w (.cleanup .returned) := cleanupSound trivial
    exact callStep_move hw hsound false

end Steps

/-! ## Steps of a load -/

section Load

variable {w : World} {o : Answered} {m : Mutation} {token data : String} {began : List Mutation}
  {left : Nat} {unclaimed : Bool} {phase : LoadPhase} {answer : LoadAnswer}

section

variable (hbegan : began <:+ w.allocated)
include hbegan

theorem loadSound (hok : LoadOk w began phase)
    (hsafe : w.disk = .absent → ∀ latest ∈ w.allocated.head?, Safe w latest (.load began phase)) :
    CallSound w (.load began phase) :=
  ⟨⟨hbegan, hok⟩, hsafe⟩

theorem loadSound_looking : CallSound w (.load began (.looking left)) :=
  loadSound hbegan trivial fun _ _ _ => trivial

theorem loadSound_afterLegacy : CallSound w (.load began (.afterLegacy left unclaimed)) :=
  loadSound hbegan trivial fun _ _ _ => trivial

theorem loadSound_none : CallSound w (.load began (.returned none)) :=
  loadSound hbegan trivial fun _ _ _ => trivial

theorem loadSound_some (h : AnswerOk w began answer) :
    CallSound w (.load began (.returned (some answer))) :=
  loadSound hbegan h fun _ _ _ => trivial

end

theorem callStep_orElse {w' : World} {next other : LoadPhase} {goesOn : Prop} [Decidable goesOn]
    (hkeeps : Keeps w w') (hnext : CallSound w' (.load began next))
    (hother : CallSound w' (.load began other)) :
    CallStep w (w', .load began (if goesOn then next else other), false) := by
  refine ⟨hkeeps, ?_⟩
  split
  · exact hnext
  · exact hother

theorem callStep_looking (hw : WorldOk w) (hbegan : began <:+ w.allocated) (rounds : Nat) :
    CallStep w (stepCall w o (.load began (.looking rounds))) := by
  have hlegacy : ∀ unclaimed left, CallSound w (.load began (.readingLegacy left unclaimed)) :=
    fun _ _ => loadSound hbegan trivial fun _ _ _ => trivial
  have hchecking : ∀ left desired, CallSound w (.load began (.checking left desired)) :=
    fun _ _ => loadSound hbegan trivial fun _ _ _ => trivial
  cases rounds with
  | zero => exact callStep_move hw (loadSound_none hbegan) false
  | succ left =>
    cases hsnapshot : w.snapshot with
    | absent =>
      simp only [stepCall, stepLoad, hsnapshot]
      exact callStep_move hw (hlegacy true left) false
    | corrupt =>
      simp only [stepCall, stepLoad, hsnapshot]
      exact callStep_move hw (loadSound_none hbegan) false
    | available state =>
      cases hdesired : state.desired with
      | none =>
        simp only [stepCall, stepLoad, hsnapshot, hdesired]
        exact callStep_move hw (hlegacy false left) false
      | some desired =>
        simp only [stepCall, stepLoad, hsnapshot, hdesired]
        exact callStep_move hw (hchecking left desired) false

/-! ### The legacy record -/

section

variable (hw : WorldOk w)
include hw

theorem readLegacyRecord_eq_none (hdisk : w.disk = .absent) {latest : Mutation}
    (hlatest : latest ∈ w.allocated.head?) : w.readLegacyRecord o = none := by
  simp [World.readLegacyRecord, (hw.recoverable hdisk latest hlatest).1.legacy]

theorem callStep_readingLegacy (hbegan : began <:+ w.allocated) :
    CallStep w (stepCall w o (.load began (.readingLegacy left unclaimed))) := by
  cases hread : w.readLegacyRecord o with
  | none =>
    simp only [stepCall, stepLoad, hread]
    exact callStep_move hw (loadSound_afterLegacy hbegan) false
  | some token =>
    simp only [stepCall, stepLoad, hread]
    split
    · exact callStep_move hw (loadSound_afterLegacy hbegan) false
    have hsound : CallSound w (.load began (.allocatingLegacy left unclaimed token)) := by
      refine loadSound hbegan trivial ?_
      intro hdisk latest hlatest
      have hnone := readLegacyRecord_eq_none (o := o) hw hdisk hlatest
      rw [hread] at hnone
      cases hnone
    exact callStep_move hw hsound false

theorem callStep_allocatingLegacy (hbegan : began <:+ w.allocated) :
    CallStep w (stepCall w o (.load began (.allocatingLegacy left unclaimed token))) := by
  have hkeeps : Keeps w (w.allocateLegacyMigrationIfUnclaimed o).1 := keeps_allocateLegacy hw
  have hbegan' := hbegan.trans hkeeps.grows.allocated
  cases hallocated : (w.allocateLegacyMigrationIfUnclaimed o).2 with
  | none =>
    simp only [stepCall, stepLoad, hallocated]
    exact ⟨hkeeps, loadSound_afterLegacy hbegan'⟩
  | some m =>
    have hreturned := allocateLegacy_eq_some hallocated
    simp only [stepCall, stepLoad, hallocated]
    refine ⟨hkeeps.trans (keeps_tokens hkeeps.ok (m, token)), loadSound hbegan' ?_ ?_⟩
    · refine ⟨hreturned.kind, ?_, List.mem_cons_self⟩
      show m ∈ (w.allocateLegacyMigrationIfUnclaimed o).1.allocated
      rw [hreturned.allocated]
      exact List.mem_cons_self
    · exact fun hdisk => absurd hdisk hreturned.disk

theorem callStep_addingLegacy (hc : CallSound w (.load began (.addingLegacy left unclaimed m token))) :
    CallStep w (stepCall w o (.load began (.addingLegacy left unclaimed m token))) := by
  obtain ⟨hbegan, hkind, hrecord⟩ := hc.ok
  have hkeeps : Keeps w (w.addGenerationRecord o m token).1 :=
    keeps_addGenerationRecord hw hrecord fun hdisk latest hlatest =>
      hc.safe hdisk latest hlatest
  have hbegan' := hbegan.trans hkeeps.grows.allocated
  exact callStep_orElse hkeeps
    (loadSound hbegan' ⟨hkind, hrecord.mono hkeeps.grows⟩ fun _ _ _ => trivial)
    (loadSound_afterLegacy hbegan')

theorem callStep_markingLegacy (hc : CallSound w (.load began (.markingLegacy left unclaimed m token))) :
    CallStep w (stepCall w o (.load began (.markingLegacy left unclaimed m token))) := by
  obtain ⟨hbegan, hkind, hrecord⟩ := hc.ok
  have hkeeps : Keeps w (w.markRecordPersisted o m).1 := keeps_markRecordPersisted hw hrecord.1
  have hbegan' := hbegan.trans hkeeps.grows.allocated
  exact callStep_orElse hkeeps
    (loadSound hbegan' ⟨hkind, hrecord.mono hkeeps.grows⟩ fun _ _ _ => trivial)
    (loadSound_afterLegacy hbegan')

theorem callStep_checkingLegacy (hc : CallSound w (.load began (.checkingLegacy left unclaimed m token))) :
    CallStep w (stepCall w o (.load began (.checkingLegacy left unclaimed m token))) := by
  obtain ⟨hbegan, hkind, hrecord⟩ := hc.ok
  by_cases hdesired : w.isDesired m = true
  · have hlatest := latest_of_isDesired hw hdesired hrecord.1
    simp only [stepCall, stepLoad, hdesired]
    exact callStep_move hw (loadSound_some hbegan (answerOk_now hbegan hlatest hkind hrecord)) true
  · simp only [stepCall, stepLoad, hdesired]
    exact callStep_move hw (loadSound_afterLegacy hbegan) true

theorem callStep_afterLegacy (hbegan : began <:+ w.allocated) :
    CallStep w (stepCall w o (.load began (.afterLegacy left unclaimed))) := by
  have hrecovery : ∀ left, CallSound w (.load began (.readingRecovery left)) :=
    fun _ => loadSound hbegan trivial fun _ _ _ => trivial
  have hchoice : ∀ phase ∈ [LoadPhase.looking left, .returned none, .readingRecovery left],
      CallSound w (.load began phase) := by
    intro phase hphase
    simp only [List.mem_cons, List.not_mem_nil, or_false] at hphase
    rcases hphase with rfl | rfl | rfl
    · exact loadSound_looking hbegan
    · exact loadSound_none hbegan
    · exact hrecovery left
  have hnext : ∃ phase ∈ [LoadPhase.looking left, .returned none, .readingRecovery left],
      stepCall w o (.load began (.afterLegacy left unclaimed)) = (w, .load began phase, false) := by
    cases hsnapshot : w.snapshot with
    | available state =>
      by_cases hclaimed : (unclaimed || state.desired.isSome) = true
      · exact ⟨.looking left, by simp, by simp [stepCall, stepLoad, hsnapshot, hclaimed]⟩
      · exact ⟨.returned none, by simp, by simp [stepCall, stepLoad, hsnapshot, hclaimed]⟩
    | absent | corrupt =>
      cases unclaimed with
      | true => exact ⟨.readingRecovery left, by simp, by simp [stepCall, stepLoad, hsnapshot]⟩
      | false => exact ⟨.returned none, by simp, by simp [stepCall, stepLoad, hsnapshot]⟩
  obtain ⟨phase, hphase, hstep⟩ := hnext
  rw [hstep]
  exact callStep_move hw (hchoice phase hphase) false

end

/-! ### The recovery of a local build -/

variable {record : Mutation × String}

/-- The record that a local build would recover: one of the classic place, with the highest
ordinal. -/
theorem recovery_eq_some (h : w.latestLocalRecoveryRecord o = some record) :
    w.localBuild = true ∧ record ∈ w.classic ∧ ∀ r ∈ w.classic, r.1.ordinal ≤ record.1.ordinal := by
  unfold World.latestLocalRecoveryRecord at h
  split at h
  · rename_i hlocal
    simp only [Bool.and_eq_true] at hlocal
    split at h
    · cases h
    rename_i r hr
    split at h
    · cases h
    cases h
    have hmem := List.mem_filter.1 (List.mem_of_getElem? hr)
    refine ⟨hlocal.1, hmem.1, ?_⟩
    intro r' hr'
    exact of_decide_eq_true (List.all_eq_true.1 hmem.2 r' hr')
  · cases h

theorem recovery_eq_latest (hw : WorldOk w) (hdisk : w.disk = .absent) {latest : Mutation}
    (hlatest : latest ∈ w.allocated.head?) (h : w.latestLocalRecoveryRecord o = some record) :
    record.1 = latest := by
  obtain ⟨-, hmem, hhighest⟩ := recovery_eq_some h
  rcases (hw.recoverable hdisk latest hlatest).1.classic record hmem with heq | ⟨hlt, found, hfound⟩
  · exact heq
  · exact absurd (hhighest (latest, found) hfound) (Nat.not_le.2 hlt)

theorem callStep_readingRecovery (hw : WorldOk w) (hbegan : began <:+ w.allocated) :
    CallStep w (stepCall w o (.load began (.readingRecovery left))) := by
  cases hrecovery : w.latestLocalRecoveryRecord o with
  | none =>
    simp only [stepCall, stepLoad, hrecovery]
    exact callStep_move hw (loadSound_none hbegan) false
  | some record =>
    obtain ⟨hlocal, hmem, -⟩ := recovery_eq_some hrecovery
    have hsound : CallSound w (.load began (.committingRecovery left record.1 record.2)) :=
      loadSound hbegan ⟨hlocal, hw.classic record hmem⟩ fun hdisk latest hlatest =>
        recovery_eq_latest hw hdisk hlatest hrecovery
    simp only [stepCall, stepLoad, hrecovery]
    exact callStep_move hw hsound false

theorem latest_of_recover (hw : WorldOk w) (hm : m ∈ w.allocated)
    (hlatest : w.disk = .absent → ∀ latest ∈ w.allocated.head?, m = latest)
    (h : (w.recoverCommittedIfUnclaimed o m).2 = true) : w.allocated.head? = some m := by
  unfold World.recoverCommittedIfUnclaimed at h
  split at h
  · rename_i habsent
    obtain ⟨latest, older, hallocated⟩ := List.exists_cons_of_ne_nil (List.ne_nil_of_mem hm)
    have hhead : w.allocated.head? = some latest := by rw [hallocated]; rfl
    rw [hlatest (hw.absent (snapshot_eq_absent habsent)) latest hhead]
    exact hhead
  · cases h

theorem callStep_committingRecovery (hw : WorldOk w)
    (hc : CallSound w (.load began (.committingRecovery left m data))) :
    CallStep w (stepCall w o (.load began (.committingRecovery left m data))) := by
  obtain ⟨hbegan, hlocal, hrecord⟩ := hc.ok
  have hsafe : w.disk = .absent → ∀ latest ∈ w.allocated.head?, m = latest := hc.safe
  have hkeeps : Keeps w (w.recoverCommittedIfUnclaimed o m).1 :=
    keeps_recover hw hlocal hrecord.1 hsafe
  have hbegan' := hbegan.trans hkeeps.grows.allocated
  by_cases hrecovered : (w.recoverCommittedIfUnclaimed o m).2 = true
  · simp only [stepCall, stepLoad, hrecovered, if_true]
    refine ⟨hkeeps, ?_⟩
    split
    · rename_i htoken
      have hlatest := latest_of_recover hw hrecord.1 hsafe hrecovered
      have hanswer := answerOk_now hbegan hlatest htoken.1 hrecord
      exact loadSound_some hbegan' (hanswer.mono hkeeps.grows)
    · exact loadSound_none hbegan'
  · simp only [stepCall, stepLoad, hrecovered]
    exact ⟨hkeeps, loadSound_looking hbegan'⟩

/-! ### The record of the desired mutation -/

theorem callStep_checking (hw : WorldOk w) (hbegan : began <:+ w.allocated) :
    CallStep w (stepCall w o (.load began (.checking left m))) := by
  by_cases hdesired : w.isDesired m = true
  · by_cases hkind : m.kind = .token
    · have hsound : CallSound w (.load began (.reading left m)) :=
        loadSound hbegan hkind fun _ _ _ => trivial
      simp only [stepCall, stepLoad, hdesired, hkind]
      exact callStep_move hw hsound false
    · simp only [stepCall, stepLoad, hdesired, hkind]
      exact callStep_move hw (loadSound_none hbegan) true
  · simp only [stepCall, stepLoad, hdesired]
    exact callStep_move hw (loadSound_looking hbegan) false

theorem callStep_reading (hw : WorldOk w) (hc : CallSound w (.load began (.reading left m))) :
    CallStep w (stepCall w o (.load began (.reading left m))) := by
  obtain ⟨hbegan, hkind⟩ := hc.ok
  cases hread : w.readGenerationRecord o m with
  | none =>
    have hsound : CallSound w (.load began (.checkingMissing left m)) :=
      loadSound hbegan hkind fun _ _ _ => trivial
    simp only [stepCall, stepLoad, hread]
    exact callStep_move hw hsound false
  | some data =>
    have hsound : CallSound w (.load began (.checkingRead left m data)) :=
      loadSound hbegan ⟨hkind, recordOk_of_read hw hread⟩ fun _ _ _ => trivial
    simp only [stepCall, stepLoad, hread]
    exact callStep_move hw hsound false

theorem callStep_checkingRead (hw : WorldOk w)
    (hc : CallSound w (.load began (.checkingRead left m data))) :
    CallStep w (stepCall w o (.load began (.checkingRead left m data))) := by
  obtain ⟨hbegan, hkind, hrecord⟩ := hc.ok
  by_cases hdesired : w.isDesired m = true
  · have hlatest := latest_of_isDesired hw hdesired hrecord.1
    have hsound : CallSound w (.load began (.markingRead m (w.answer data))) :=
      loadSound hbegan ⟨hrecord.1, answerOk_now hbegan hlatest hkind hrecord⟩ fun _ _ _ => trivial
    simp only [stepCall, stepLoad, hdesired]
    exact callStep_move hw hsound false
  · simp only [stepCall, stepLoad, hdesired]
    exact callStep_move hw (loadSound_looking hbegan) false

theorem callStep_markingRead (hw : WorldOk w)
    (hc : CallSound w (.load began (.markingRead m answer))) :
    CallStep w (stepCall w o (.load began (.markingRead m answer))) := by
  obtain ⟨hbegan, hm, hanswer⟩ := hc.ok
  have hkeeps : Keeps w (w.markRecordPersisted o m).1 := keeps_markRecordPersisted hw hm
  exact ⟨hkeeps, loadSound_some (hbegan.trans hkeeps.grows.allocated) (hanswer.mono hkeeps.grows)⟩

theorem callStep_checkingMissing (hw : WorldOk w)
    (hc : CallSound w (.load began (.checkingMissing left m))) :
    CallStep w (stepCall w o (.load began (.checkingMissing left m))) := by
  obtain ⟨hbegan, hkind⟩ := hc.ok
  exact callStep_orElse (keeps_refl hw) (loadSound hbegan hkind fun _ _ _ => trivial)
    (loadSound_looking hbegan)

/-! ### The migration of a classic record -/

section

variable (hw : WorldOk w)
include hw

theorem recordOk_of_readMigratable (h : w.readMigratableGenerationRecord o m = some data) :
    w.localBuild = false ∧ RecordOk w m data := by
  unfold World.readMigratableGenerationRecord at h
  split at h
  · cases h
  rename_i hrelease
  split at h
  · exact ⟨Bool.eq_false_iff.2 hrelease, hw.classic (m, data) (mem_of_lookup h)⟩
  · cases h

theorem callStep_readingMigratable (hc : CallSound w (.load began (.readingMigratable m))) :
    CallStep w (stepCall w o (.load began (.readingMigratable m))) := by
  obtain ⟨hbegan, hkind⟩ := hc.ok
  cases hread : w.readMigratableGenerationRecord o m with
  | none =>
    simp only [stepCall, stepLoad, hread]
    exact callStep_move hw (loadSound_none hbegan) false
  | some data =>
    obtain ⟨hrelease, hrecord⟩ := recordOk_of_readMigratable hw hread
    have hsound : CallSound w (.load began (.checkingMigratable m data)) :=
      loadSound hbegan ⟨hrelease, hkind, hrecord⟩ fun _ _ _ => trivial
    simp only [stepCall, stepLoad, hread]
    exact callStep_move hw hsound false

theorem callStep_checkingMigratable (hc : CallSound w (.load began (.checkingMigratable m data))) :
    CallStep w (stepCall w o (.load began (.checkingMigratable m data))) := by
  obtain ⟨hbegan, hrest⟩ := hc.ok
  exact callStep_orElse (keeps_refl hw) (loadSound hbegan hrest fun _ _ _ => trivial)
    (loadSound_none hbegan)

theorem callStep_addingMigrated (hc : CallSound w (.load began (.addingMigrated m data))) :
    CallStep w (stepCall w o (.load began (.addingMigrated m data))) := by
  obtain ⟨hbegan, hrelease, hkind, hrecord⟩ := hc.ok
  have hkeeps : Keeps w (w.addGenerationRecord o m data).1 := by
    refine keeps_addGenerationRecord hw hrecord ?_
    intro _ _ _ hlocal
    rw [hrelease] at hlocal
    cases hlocal
  have hbegan' := hbegan.trans hkeeps.grows.allocated
  have hrelease' := hkeeps.grows.localBuild.trans hrelease
  exact callStep_orElse hkeeps
    (loadSound hbegan' ⟨hrelease', hkind, hrecord.mono hkeeps.grows⟩ fun _ _ _ => trivial)
    (loadSound_none hbegan')

theorem callStep_verifyingMigrated (hc : CallSound w (.load began (.verifyingMigrated m data))) :
    CallStep w (stepCall w o (.load began (.verifyingMigrated m data))) := by
  obtain ⟨hbegan, hrest⟩ := hc.ok
  exact callStep_orElse (keeps_refl hw) (loadSound hbegan hrest fun _ _ _ => trivial)
    (loadSound_none hbegan)

theorem callStep_checkingMigrated (hc : CallSound w (.load began (.checkingMigrated m data))) :
    CallStep w (stepCall w o (.load began (.checkingMigrated m data))) := by
  obtain ⟨hbegan, hrelease, hkind, hrecord⟩ := hc.ok
  by_cases hdesired : w.isDesired m = true
  · have hlatest := latest_of_isDesired hw hdesired hrecord.1
    have hsound : CallSound w (.load began (.markingMigrated m (w.answer data))) := by
      refine loadSound hbegan ⟨hrelease, hrecord.1, answerOk_now hbegan hlatest hkind hrecord⟩ ?_
      -- a release build that desires the latest mutation has its ledger on disk
      intro hdisk latest hhead
      obtain ⟨state, hpreference, hstate⟩ := desired_of_isDesired hdesired
      have hnot := ((hw.recoverable hdisk latest hhead).2 state hpreference).release hrelease
      rw [hstate, ← hlatest] at hnot
      exact absurd hhead hnot
    simp only [stepCall, stepLoad, hdesired]
    exact callStep_move hw hsound false
  · simp only [stepCall, stepLoad, hdesired]
    exact callStep_move hw (loadSound_none hbegan) true

theorem callStep_markingMigrated (hc : CallSound w (.load began (.markingMigrated m answer))) :
    CallStep w (stepCall w o (.load began (.markingMigrated m answer))) := by
  obtain ⟨hbegan, -, hm, -⟩ := hc.ok
  have hkeeps : Keeps w (w.markRecordPersisted o m).1 := keeps_markRecordPersisted hw hm
  have hsound : CallSound (w.markRecordPersisted o m).1
      (.load began (.deletingMigratable m answer)) :=
    ⟨(hc.mono hkeeps).ok, (hc.mono hkeeps).safe⟩
  exact callStep_orElse hkeeps hsound (loadSound_none (hbegan.trans hkeeps.grows.allocated))

theorem callStep_deletingMigratable (hc : CallSound w (.load began (.deletingMigratable m answer))) :
    CallStep w (stepCall w o (.load began (.deletingMigratable m answer))) := by
  obtain ⟨hbegan, -, -, hanswer⟩ := hc.ok
  have hkeeps : Keeps w (w.deleteMigratableGenerationRecord o m) :=
    keeps_deleteMigratable hw hc.safe
  exact ⟨hkeeps, loadSound_some (hbegan.trans hkeeps.grows.allocated) (hanswer.mono hkeeps.grows)⟩

theorem callStep_load (hc : CallSound w (.load began phase)) :
    CallStep w (stepCall w o (.load began phase)) := by
  have hbegan := hc.ok.1
  cases phase with
  | looking rounds => exact callStep_looking hw hbegan rounds
  | readingLegacy => exact callStep_readingLegacy hw hbegan
  | allocatingLegacy => exact callStep_allocatingLegacy hw hbegan
  | addingLegacy => exact callStep_addingLegacy hw hc
  | markingLegacy => exact callStep_markingLegacy hw hc
  | checkingLegacy => exact callStep_checkingLegacy hw hc
  | afterLegacy => exact callStep_afterLegacy hw hbegan
  | readingRecovery => exact callStep_readingRecovery hw hbegan
  | committingRecovery => exact callStep_committingRecovery hw hc
  | checking => exact callStep_checking hw hbegan
  | reading => exact callStep_reading hw hc
  | checkingRead => exact callStep_checkingRead hw hc
  | markingRead => exact callStep_markingRead hw hc
  | checkingMissing => exact callStep_checkingMissing hw hc
  | readingMigratable => exact callStep_readingMigratable hw hc
  | checkingMigratable => exact callStep_checkingMigratable hw hc
  | addingMigrated => exact callStep_addingMigrated hw hc
  | verifyingMigrated => exact callStep_verifyingMigrated hw hc
  | checkingMigrated => exact callStep_checkingMigrated hw hc
  | markingMigrated => exact callStep_markingMigrated hw hc
  | deletingMigratable => exact callStep_deletingMigratable hw hc
  | returned => exact callStep_move hw hc false

end

end Load

/-! ## Runs -/

structure StoreOk (s : Store) : Prop where
  world : WorldOk s.world
  calls : ∀ c ∈ s.calls, CallSound s.world c

section Runs

variable {s : Store}

theorem callStep (hw : WorldOk s.world) (hc : CallSound s.world c) (o : Answered) :
    CallStep s.world (stepCall s.world o c) := by
  cases c with
  | save => exact callStep_save hw hc
  | load => exact callStep_load hw hc
  | cleanup => exact callStep_cleanup hw hc

theorem storeOk_of_keeps (hs : StoreOk s) {w : World} (hk : Keeps s.world w) :
    StoreOk { s with world := w } :=
  ⟨hk.ok, fun c hc => (hs.calls c hc).mono hk⟩

theorem storeOk_beginSave (hs : StoreOk s) {allocated : World × Option Mutation}
    (hk : Keeps s.world allocated.1) (hm : ∀ m ∈ allocated.2, m ∈ allocated.1.allocated)
    (kind : MutationKind) (data : String) : StoreOk (s.beginSave kind data allocated) := by
  unfold Store.beginSave
  split
  · exact storeOk_of_keeps hs hk
  rename_i mutation hmutation
  split
  · have htokens := hk.trans (keeps_tokens hk.ok (mutation, data))
    refine ⟨htokens.ok, ?_⟩
    intro c hc
    rcases List.mem_append.1 hc with hc | hc
    · exact (hs.calls c hc).mono htokens
    · rw [List.mem_singleton.1 hc]
      exact ⟨⟨hm mutation hmutation, List.mem_cons_self⟩, fun _ _ _ => trivial⟩
  · exact storeOk_of_keeps hs hk

theorem keeps_given (hw : WorldOk s.world) (kind : MutationKind) (mutation : Option Mutation)
    (o : Answered) :
    Keeps s.world (s.given kind mutation o).1 ∧
      ∀ m ∈ (s.given kind mutation o).2, m ∈ (s.given kind mutation o).1.allocated := by
  cases mutation with
  | none =>
    refine ⟨keeps_allocate hw kind, ?_⟩
    intro m hm
    have hreturned := allocate_eq_some hm
    show m ∈ (s.world.allocate o kind).1.allocated
    rw [hreturned.allocated]
    exact List.mem_cons_self
  | some mutation =>
    refine ⟨keeps_refl hw, ?_⟩
    intro m hm
    simp only [Store.given] at hm ⊢
    split at hm
    · rename_i hcontains
      cases hm
      simpa using hcontains
    · cases hm

theorem storeOk_call (hs : StoreOk s) (i : Nat) (o : Answered) : StoreOk (s.step (.call i o)) := by
  cases hcall : s.calls[i]? with
  | none =>
    have hstep : s.step (.call i o) = s := by simp [Store.step, hcall]
    rw [hstep]
    exact hs
  | some call =>
    have hcallStep := callStep hs.world (hs.calls call (List.mem_of_getElem? hcall)) o
    have hstep : s.step (.call i o) =
        { world := (stepCall s.world o call).1
          calls := s.calls.set i (stepCall s.world o call).2.1 ++
            if (stepCall s.world o call).2.2 then [.cleanup .planning] else [] } := by
      simp [Store.step, hcall]
    rw [hstep]
    refine ⟨hcallStep.keeps.ok, ?_⟩
    intro c hc
    rcases List.mem_append.1 hc with hc | hc
    · rcases List.mem_or_eq_of_mem_set hc with hc | rfl
      · exact (hs.calls c hc).mono hcallStep.keeps
      · exact hcallStep.sound
    · split at hc
      · rw [List.mem_singleton.1 hc]
        exact cleanupSound trivial
      · cases hc

theorem keeps_undecodable {w : World} (hw : WorldOk w) :
    Keeps w { w with preference := .undecodable, disk := .undecodable } := by
  have hpresent : ∀ {p : Prop}, Preference.undecodable = .absent → p := fun h => by cases h
  have hundecodable : ∀ {p : Prop} {state}, Preference.undecodable = .stored state → p :=
    fun h => by cases h
  exact ⟨⟨hw.fresh, fun _ h => hundecodable h, fun _ h => hundecodable h, hpresent, fun r hr =>
      ⟨(hw.classic r hr).1, (hw.classic r hr).2⟩, fun r hr =>
      ⟨(hw.secure r hr).1, (hw.secure r hr).2⟩, hpresent⟩,
    ⟨List.suffix_refl _, List.Subset.refl _, rfl, fun _ h => h⟩,
    ⟨hpresent, hpresent, hpresent, hpresent⟩⟩

theorem grows_absent (w : World) : Grows w { w with preference := .absent, disk := .absent } :=
  ⟨List.suffix_refl _, List.Subset.refl _, rfl, fun _ h => h⟩

theorem storeOk_absent (hs : StoreOk s) (hsafe : LosesSafely s .absent) :
    StoreOk (s.step .absent) := by
  by_cases hpersisted : s.LatestPersisted
  · have hstep : s.step .absent =
        { s with world := { s.world with preference := .absent, disk := .absent } } := by
      simp [Store.step, hpersisted]
    have hw := hs.world
    rw [hstep]
    refine ⟨⟨hw.fresh, ?_, ?_, fun _ => rfl, ?_, ?_, ?_⟩, ?_⟩
    · intro state hstate
      cases hstate
    · intro state hstate
      cases hstate
    · exact fun r hr => (hw.classic r hr).mono (grows_absent s.world)
    · exact fun r hr => (hw.secure r hr).mono (grows_absent s.world)
    · intro _ latest hlatest
      refine ⟨⟨(hsafe latest hlatest).1.classic, (hsafe latest hlatest).1.legacy⟩, ?_⟩
      intro state hstate
      cases hstate
    · intro c hc
      refine ⟨(hs.calls c hc).ok.mono (grows_absent s.world), ?_⟩
      intro _ latest hlatest
      exact (hsafe latest hlatest).2 c hc
  · have hstep : s.step .absent = s := by simp [Store.step, hpersisted]
    rw [hstep]
    exact hs

theorem storeOk_relaunch (hs : StoreOk s) (localBuild : Bool) :
    StoreOk (s.step (.relaunch localBuild)) := by
  have hw := hs.world
  have hledger : ∀ state, s.world.disk = .stored state →
      LedgerOk (s.step (.relaunch localBuild)).world state := by
    intro state hstate
    exact ⟨(hw.disk state hstate).desired, (hw.disk state hstate).persisted⟩
  refine ⟨⟨hw.fresh, hledger, hledger, fun h => h, ?_, ?_, ?_⟩, ?_⟩
  · exact fun r hr => ⟨(hw.classic r hr).1, (hw.classic r hr).2⟩
  · exact fun r hr => ⟨(hw.secure r hr).1, (hw.secure r hr).2⟩
  · intro hdisk latest hlatest
    have hrecoverable := (hw.recoverable hdisk latest hlatest).1
    refine ⟨⟨hrecoverable.classic, hrecoverable.legacy⟩, ?_⟩
    -- what the process sees of the preferences is what is on disk, and nothing is
    intro state hstate
    have heq : Preference.absent = .stored state := hdisk.symm.trans hstate
    cases heq
  · exact fun c hc => absurd hc List.not_mem_nil

theorem storeOk_step (hs : StoreOk s) (e : Event) (hsafe : LosesSafely s e) :
    StoreOk (s.step e) := by
  cases e with
  | prepare kind o => exact storeOk_of_keeps hs (keeps_allocate hs.world kind)
  | save mutation token o =>
    obtain ⟨hk, hm⟩ := keeps_given hs.world .token mutation o
    exact storeOk_beginSave hs hk hm .token token
  | clear mutation o =>
    obtain ⟨hk, hm⟩ := keeps_given hs.world .tombstone mutation o
    exact storeOk_beginSave hs hk hm .tombstone World.tombstoneData
  | load =>
    refine ⟨hs.world, ?_⟩
    intro c hc
    rcases List.mem_append.1 hc with hc | hc
    · exact hs.calls c hc
    · rw [List.mem_singleton.1 hc]
      exact loadSound_looking (List.suffix_refl _)
  | call i o => exact storeOk_call hs i o
  | undecodable =>
    by_cases hpersisted : s.LatestPersisted
    · have hstep : s.step .undecodable =
          { s with world :=
              { s.world with preference := .undecodable, disk := .undecodable } } := by
        simp [Store.step, hpersisted]
      rw [hstep]
      exact storeOk_of_keeps hs (keeps_undecodable hs.world)
    · have hstep : s.step .undecodable = s := by simp [Store.step, hpersisted]
      rw [hstep]
      exact hs
  | absent => exact storeOk_absent hs hsafe
  | relaunch localBuild => exact storeOk_relaunch hs localBuild

theorem storeOk_initial (legacyClassic legacySecure legacySynchronizable : Option String)
    (localBuild : Bool) :
    StoreOk (.initial legacyClassic legacySecure legacySynchronizable localBuild) := by
  refine ⟨⟨?_, ?_, ?_, fun _ => rfl, ?_, ?_, ?_⟩, ?_⟩
  · exact fun m hm => absurd hm List.not_mem_nil
  · intro state hstate
    cases hstate
  · intro state hstate
    cases hstate
  · exact fun r hr => absurd hr List.not_mem_nil
  · exact fun r hr => absurd hr List.not_mem_nil
  · intro _ latest hlatest
    cases hlatest
  · exact fun c hc => absurd hc List.not_mem_nil

end Runs

def AnswersRight (s : Store) : Prop :=
  ∀ began answer, Call.load began (.returned (some answer)) ∈ s.calls →
    AnswerOk s.world began answer

/-- In every run in which the ledger becomes absent only while what a load can fall back to is
of the latest mutation, every load answers right. -/
theorem last_intent_wins (legacyClassic legacySecure legacySynchronizable : Option String)
    (localBuild : Bool) (events : List Event)
    (hsafe : Along Store.step LosesSafely
      (.initial legacyClassic legacySecure legacySynchronizable localBuild) events) :
    Throughout Store.step AnswersRight
      (.initial legacyClassic legacySecure legacySynchronizable localBuild) events := by
  have hok : Throughout Store.step StoreOk
      (.initial legacyClassic legacySecure legacySynchronizable localBuild) events := by
    refine throughout_of_step ?_
      (storeOk_initial legacyClassic legacySecure legacySynchronizable localBuild) hsafe
    intro s e hs hgood
    exact storeOk_step hs e hgood
  refine hok.mono ?_
  intro s hs began answer hmem
  exact (hs.calls _ hmem).ok.2

def callTimes (i n : Nat) : List Event := List.replicate n (.call i {})

/-- A token is saved, the ledger is lost, and a local build recovers the token. -/
def recovered : List Event :=
  [.prepare .token {}, .save (some ⟨0, 1, .token⟩) "A" {}] ++ callTimes 0 3 ++
    [.absent, .load] ++ callTimes 2 5

theorem recovered_answers_right :
    Throughout Store.step AnswersRight (.initial none none none true) recovered ∧
      Call.load [⟨0, 1, .token⟩] (.returned (some ⟨"A", [⟨0, 1, .token⟩]⟩)) ∈
        (after Store.step (.initial none none none true) recovered).calls := by
  refine ⟨last_intent_wins none none none true recovered ?_, by decide⟩
  refine ⟨trivial, trivial, trivial, trivial, trivial, ?_, trivial, trivial, trivial, trivial,
    trivial, trivial, trivial⟩
  intro m hm
  cases hm
  refine ⟨⟨?_, rfl, rfl, rfl⟩, ?_⟩
  · intro r hr
    exact Or.inl (congrArg Prod.fst (List.mem_singleton.1 hr))
  · intro c hc
    rcases List.mem_cons.1 hc with rfl | hc
    · trivial
    · rw [List.mem_singleton.1 hc]
      trivial

/-- Two tokens are saved, the ledger becomes corrupt, the user signs out, and the ledger is
lost: ordinals have started anew with the tombstone. -/
def signedInAgain : List Event :=
  [.prepare .token {}, .save (some ⟨0, 1, .token⟩) "A" {}] ++ callTimes 0 3 ++
    [.prepare .token {}, .save (some ⟨1, 2, .token⟩) "B" {}] ++ callTimes 2 3 ++
    [.undecodable, .prepare .tombstone {}, .clear (some ⟨2, 1, .tombstone⟩) {}] ++
    callTimes 4 3 ++ [.absent, .load] ++ callTimes 6 5

theorem sign_out_forgotten :
    ¬ ∀ (legacyClassic legacySecure legacySynchronizable : Option String) (localBuild : Bool)
      (events : List Event), Throughout Store.step AnswersRight
        (.initial legacyClassic legacySecure legacySynchronizable localBuild) events := by
  intro hall
  have hright := (hall none none none true signedInAgain).last
    [⟨2, 1, .tombstone⟩, ⟨1, 2, .token⟩, ⟨0, 1, .token⟩]
    ⟨"B", [⟨2, 1, .tombstone⟩, ⟨1, 2, .token⟩, ⟨0, 1, .token⟩]⟩ (by decide)
  obtain ⟨m, older, hallocated, hkind, -⟩ := hright.latest
  cases hallocated
  cases hkind

end ElectronicMail.SessionToken
