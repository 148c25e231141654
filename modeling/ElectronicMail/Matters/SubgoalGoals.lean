import ElectronicMail.Matters.Membership

/-!
# Subgoals with their goals

The loop of `apply_matter_assignment` over the subgoals of an answer, with everything it
writes: `Rows.Subgoal` keeps of a row what the lifecycle of the matters needs, and
`goalLoop_forget` says that its loop is what is left of this one.

A row is looked up by the id that the answer names and then by `canonical_key`, in two
dictionaries filled before the loop. An update writes the goal and not the key of it.
-/

namespace ElectronicMail.Matters

open Foundations.Table
open Foundations.Text (strip truncate)

/-- `str.casefold` and the hexadecimal SHA-256 digest of a text. -/
structure TextDigest where
  casefold : String → String
  sha256 : String → String

/-- `[a-z0-9]`. -/
def isKeyChar (c : Char) : Bool :=
  ('a' ≤ c && c ≤ 'z') || ('0' ≤ c && c ≤ '9')

/-- `re.sub(r"[^a-z0-9]+", " ", text)`. -/
def spaceOut : List Char → List Char
  | [] => []
  | c :: rest =>
    if isKeyChar c then c :: spaceOut rest
    else
      match spaceOut rest with
      | ' ' :: spaced => ' ' :: spaced
      | spaced => ' ' :: spaced

def canonicalSubgoalKey (lib : TextDigest) (goal : String) : String :=
  lib.sha256 (strip (String.ofList (spaceOut (lib.casefold goal).toList)))

/-- A row of `matter_subgoals`. -/
structure GoalRow where
  id : Nat
  generationId : Nat
  matterId : Nat
  canonicalKey : String
  goal : String
  status : MatterStatus
  latestDevelopment : String
  evidenceMessageIds : List Nat
  revision : Nat
  updatedAt : Nat

/-- An entry of the argument `subgoals`. -/
structure SubgoalEntry where
  existingSubgoalId : Option Nat
  goal : Option String
  status : MatterStatus
  latestDevelopment : Option String
  evidenceMessageIds : List Nat
  deriving DecidableEq

/-- `WHERE generation_id = … AND matter_id = …`. -/
def GoalRow.isIn (generationId matterId : Nat) (r : GoalRow) : Bool :=
  r.generationId == generationId && r.matterId == matterId

/-- `str(subgoal.get("goal") or "").strip()`. -/
def SubgoalEntry.goalText (e : SubgoalEntry) : String := strip (e.goal.getD "")

/-- `str(subgoal.get("latest_development") or "").strip()`. -/
def SubgoalEntry.development (e : SubgoalEntry) : String := strip (e.latestDevelopment.getD "")

def SubgoalEntry.key (lib : TextDigest) (e : SubgoalEntry) : String :=
  canonicalSubgoalKey lib e.goalText

def SubgoalEntry.isComplete (e : SubgoalEntry) : Bool :=
  e.goalText != "" && e.development != "" && e.status.ofSubgoal

/-- What one call of `apply_matter_assignment` that is not provisional has for the loop.
`memberIds` are the messages of the matter, the new one included. -/
structure GoalBatch where
  generationId : Nat
  matterId : Nat
  messageId : Nat
  memberIds : List Nat
  subgoals : List SubgoalEntry

/-- `valid_evidence[:20]`. -/
def GoalBatch.evidence (b : GoalBatch) (e : SubgoalEntry) : List Nat :=
  let valid := e.evidenceMessageIds.eraseDups.filter b.memberIds.contains
  (if valid.contains b.messageId then valid else valid ++ [b.messageId]).take 20

/-- The row that an entry addresses among those of the matter before the loop. Of two rows
with one key the dictionary keeps the last. -/
def SubgoalEntry.existing (lib : TextDigest) (rows : List GoalRow) (e : SubgoalEntry) :
    Option GoalRow :=
  (rows.find? fun r => some r.id == e.existingSubgoalId).or
    (rows.reverse.find? fun r => r.canonicalKey == e.key lib)

/-- `ON CONFLICT (id) DO UPDATE`. -/
def GoalRow.update (b : GoalBatch) (now : Nat) (e : SubgoalEntry) (r : GoalRow) : GoalRow :=
  { r with
    goal := truncate 600 e.goalText
    status := e.status
    latestDevelopment := truncate 1000 e.development
    evidenceMessageIds := (r.evidenceMessageIds ++ b.evidence e).eraseDups
    revision := r.revision + 1
    updatedAt := now }

section Update

variable (b : GoalBatch) (now : Nat) (e : SubgoalEntry) (r : GoalRow)

@[simp]
theorem GoalRow.update_id : (r.update b now e).id = r.id := by simp only [GoalRow.update]

@[simp]
theorem GoalRow.update_canonicalKey : (r.update b now e).canonicalKey = r.canonicalKey := by
  simp only [GoalRow.update]

@[simp]
theorem GoalRow.update_isIn (g t : Nat) : (r.update b now e).isIn g t = r.isIn g t := by
  simp only [GoalRow.update, GoalRow.isIn]

@[simp]
theorem GoalRow.update_goal : (r.update b now e).goal = truncate 600 e.goalText := rfl

@[simp]
theorem GoalRow.update_status : (r.update b now e).status = e.status := rfl

@[simp]
theorem GoalRow.update_latestDevelopment :
    (r.update b now e).latestDevelopment = truncate 1000 e.development := rfl

end Update

def GoalRow.insert (lib : TextDigest) (b : GoalBatch) (id now : Nat) (e : SubgoalEntry) : GoalRow :=
  { id := id
    generationId := b.generationId
    matterId := b.matterId
    canonicalKey := e.key lib
    goal := truncate 600 e.goalText
    status := e.status
    latestDevelopment := truncate 1000 e.development
    evidenceMessageIds := b.evidence e
    revision := 1
    updatedAt := now }

/-- The rows as the loop goes through the entries, the keys processed so far, and the next
id. -/
structure GoalLoop where
  rows : List GoalRow
  processedKeys : List String
  nextId : Nat

def GoalLoop.upsert (lib : TextDigest) (b : GoalBatch) (now : Nat) (stored : List GoalRow)
    (loop : GoalLoop) (e : SubgoalEntry) : GoalLoop :=
  match e.existing lib stored with
  | some g =>
    { loop with
      rows := updateWhere (fun r => r.id == g.id) (GoalRow.update b now e) loop.rows
      processedKeys := e.key lib :: loop.processedKeys }
  | none =>
    { rows := loop.rows ++ [GoalRow.insert lib b loop.nextId now e]
      processedKeys := e.key lib :: loop.processedKeys
      nextId := loop.nextId + 1 }

def GoalLoop.round (lib : TextDigest) (b : GoalBatch) (now : Nat) (stored : List GoalRow)
    (loop : GoalLoop) (e : SubgoalEntry) : GoalLoop :=
  if e.isComplete && !loop.processedKeys.contains (e.key lib) then loop.upsert lib b now stored e
  else loop

structure Goals where
  rows : List GoalRow
  nextId : Nat
  now : Nat

def Goals.empty : Goals := ⟨[], 0, 0⟩

def Goals.stored (s : Goals) (b : GoalBatch) : List GoalRow :=
  s.rows.filter (GoalRow.isIn b.generationId b.matterId)

/-- The statements of `apply_matter_assignment` on the subgoals. -/
def Goals.assign (lib : TextDigest) (s : Goals) (b : GoalBatch) : Goals :=
  let now := s.now + 1
  let loop := (b.subgoals.take 12).foldl (GoalLoop.round lib b now (s.stored b))
    ⟨s.rows, [], s.nextId⟩
  ⟨loop.rows, loop.nextId, now⟩

/-! ## The accepted entries -/

/-- The entries that the loop does not skip: of complete ones with one key the first. -/
def acceptedFrom (lib : TextDigest) : List String → List SubgoalEntry → List SubgoalEntry
  | _, [] => []
  | processed, e :: rest =>
    if e.isComplete && !processed.contains (e.key lib) then
      e :: acceptedFrom lib (e.key lib :: processed) rest
    else acceptedFrom lib processed rest

def GoalBatch.accepted (lib : TextDigest) (b : GoalBatch) : List SubgoalEntry :=
  acceptedFrom lib [] (b.subgoals.take 12)

variable {lib : TextDigest}

/-- **The loop is a fold of upserts over the accepted entries.** -/
theorem foldl_round {b : GoalBatch} {now : Nat} {stored : List GoalRow}
    (entries : List SubgoalEntry) (loop : GoalLoop) :
    entries.foldl (GoalLoop.round lib b now stored) loop =
      (acceptedFrom lib loop.processedKeys entries).foldl (GoalLoop.upsert lib b now stored)
        loop := by
  induction entries generalizing loop with
  | nil => rfl
  | cons e rest ih =>
    rw [List.foldl_cons, ih, acceptedFrom, GoalLoop.round]
    by_cases hgood : (e.isComplete && !loop.processedKeys.contains (e.key lib)) = true
    · rw [if_pos hgood, if_pos hgood, List.foldl_cons]
      have hkeys : (loop.upsert lib b now stored e).processedKeys =
          e.key lib :: loop.processedKeys := by
        unfold GoalLoop.upsert
        cases e.existing lib stored with
        | some g | none => rfl
      rw [hkeys]
    · rw [if_neg hgood, if_neg hgood]

theorem acceptedFrom_keys (entries : List SubgoalEntry) (processed : List String) :
    (∀ e ∈ acceptedFrom lib processed entries, e.key lib ∉ processed) ∧
      ((acceptedFrom lib processed entries).map (SubgoalEntry.key lib)).Nodup := by
  induction entries generalizing processed with
  | nil => simp [acceptedFrom]
  | cons e rest ih =>
    rw [acceptedFrom]
    by_cases hgood : (e.isComplete && !processed.contains (e.key lib)) = true
    · rw [if_pos hgood]
      obtain ⟨hnew, hnodup⟩ := ih (e.key lib :: processed)
      simp only [Bool.and_eq_true, Bool.not_eq_true', List.contains_eq_mem,
        decide_eq_false_iff_not] at hgood
      constructor
      · intro a ha
        rcases List.mem_cons.1 ha with rfl | ha
        · exact hgood.2
        · exact fun hmem => hnew a ha (List.mem_cons_of_mem _ hmem)
      · rw [List.map_cons, List.nodup_cons]
        refine ⟨?_, hnodup⟩
        intro hmem
        obtain ⟨a, ha, hkey⟩ := List.mem_map.1 hmem
        apply hnew a ha
        rw [hkey]
        exact List.mem_cons_self
    · rw [if_neg hgood]
      exact ih processed

theorem accepted_unique {b : GoalBatch} {e e' : SubgoalEntry} (he : e ∈ b.accepted lib)
    (he' : e' ∈ b.accepted lib) (h : e.key lib = e'.key lib) : e = e' :=
  row_unique (SubgoalEntry.key lib) (acceptedFrom_keys (b.subgoals.take 12) []).2 he he' h

/-! ## The loop without texts -/

section Forget

variable (lib : TextDigest) (number : String → Nat)

/-- What `Rows` keeps of a row, with the keys numbered. -/
def GoalRow.forget (r : GoalRow) : Subgoal :=
  ⟨r.id, r.generationId, r.matterId, number r.canonicalKey, r.status, r.updatedAt⟩

/-- What `Membership` keeps of an entry. -/
def SubgoalEntry.forget (e : SubgoalEntry) : SubgoalUpdate :=
  ⟨if e.goalText = "" then none else some (number (e.key lib)), e.development != "", e.status,
    e.existingSubgoalId⟩

/-- What `Membership` keeps of the loop. -/
def GoalLoop.forget (loop : GoalLoop) : SubgoalLoop :=
  ⟨loop.rows.map (GoalRow.forget number), loop.processedKeys.map number, loop.nextId⟩

variable {lib number}

variable {stored : List GoalRow}

theorem find?_reverse_key (hkeys : (stored.map GoalRow.canonicalKey).Nodup) (key : String) :
    (stored.reverse.find? fun r => r.canonicalKey == key) =
      stored.find? fun r => r.canonicalKey == key := by
  cases hfirst : stored.find? fun r => r.canonicalKey == key with
  | none => simpa using hfirst
  | some r =>
    have hr := List.mem_of_find?_eq_some hfirst
    have hkey := List.find?_some hfirst
    cases hlast : stored.reverse.find? fun r => r.canonicalKey == key with
    | none =>
      have hnone := List.find?_eq_none.1 hlast r (List.mem_reverse.2 hr)
      exact absurd hkey hnone
    | some r' =>
      have hr' := List.mem_reverse.1 (List.mem_of_find?_eq_some hlast)
      have hkey' := List.find?_some hlast
      rw [beq_iff_eq] at hkey hkey'
      rw [row_unique GoalRow.canonicalKey hkeys hr' hr (hkey'.trans hkey.symm)]

theorem existing_forget (hnumber : Function.Injective number)
    (hkeys : (stored.map GoalRow.canonicalKey).Nodup) (e : SubgoalEntry) :
    (((stored.map (GoalRow.forget number)).find? fun g => some g.id == e.existingSubgoalId).or
        ((stored.map (GoalRow.forget number)).find? fun g =>
          g.canonicalKey == number (e.key lib))) =
      (e.existing lib stored).map (GoalRow.forget number) := by
  have hkey : ((fun g : Subgoal => g.canonicalKey == number (e.key lib)) ∘
      GoalRow.forget number) = fun r => r.canonicalKey == e.key lib := by
    funext r
    by_cases h : r.canonicalKey = e.key lib
    · simp [GoalRow.forget, h]
    · simp [GoalRow.forget, h, hnumber.ne h]
  rw [SubgoalEntry.existing, find?_reverse_key hkeys, List.find?_map, List.find?_map, hkey,
    Option.map_or]
  rfl

/-- **The loop of `Membership` is this one without the texts.** -/
theorem goalLoop_forget (hnumber : Function.Injective number) {b : GoalBatch} {now : Nat}
    (hkeys : (stored.map GoalRow.canonicalKey).Nodup) (loop : GoalLoop) (e : SubgoalEntry) :
    (loop.round lib b now stored e).forget number =
      (loop.forget number).round b.generationId b.matterId now
        (stored.map (GoalRow.forget number)) (e.forget lib number) := by
  unfold GoalLoop.round SubgoalLoop.round
  by_cases hgoal : e.goalText = ""
  · simp [SubgoalEntry.isComplete, SubgoalEntry.forget, hgoal]
  have hcontains : (loop.forget number).processedKeys.contains (number (e.key lib)) =
      loop.processedKeys.contains (e.key lib) := by
    rw [Bool.eq_iff_iff]
    simp only [GoalLoop.forget, List.contains_eq_mem, decide_eq_true_eq, List.mem_map]
    constructor
    · rintro ⟨key, hmem, hsame⟩
      rw [← hnumber hsame]
      exact hmem
    · exact fun hmem => ⟨_, hmem, rfl⟩
  have hcomplete : e.isComplete = (e.development != "" && e.status.ofSubgoal) := by
    have hne : (e.goalText != "") = true := bne_iff_ne.2 hgoal
    rw [SubgoalEntry.isComplete, hne, Bool.true_and]
  simp only [SubgoalEntry.forget, if_neg hgoal]
  rw [hcontains, ← hcomplete, existing_forget hnumber hkeys]
  by_cases hgood : (e.isComplete && !loop.processedKeys.contains (e.key lib)) = true
  · rw [if_pos hgood, if_pos hgood, GoalLoop.upsert]
    cases e.existing lib stored with
    | some g =>
      simp only [GoalLoop.forget, Option.map_some, updateWhere, List.map_map, List.map_cons,
        SubgoalLoop.mk.injEq, and_true]
      apply List.map_congr_left
      intro r _
      by_cases hid : r.id = g.id
      · simp [GoalRow.forget, GoalRow.update, hid]
      · simp [GoalRow.forget, hid]
    | none => simp [GoalLoop.forget, GoalRow.forget, GoalRow.insert]
  · rw [if_neg hgood, if_neg hgood]

end Forget

end ElectronicMail.Matters
