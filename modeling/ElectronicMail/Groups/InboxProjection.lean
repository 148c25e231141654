import Mathlib.Algebra.Order.Ring.Unbundled.Rat
import Mathlib.Data.Prod.Lex
import Mathlib.Data.String.Basic

/-!
# The groups that the Inbox shows

`build_inbox_projection` evaluates every group, goes through those it accepts from the highest
score to the lowest, and shows a group unless one shown before has claimed its key or a message.
-/

namespace ElectronicMail.Groups

/-- What the text rules of the module say of a group and its messages. An id that is missing is
empty. -/
structure GroupRules (γ μ : Type) where
  groupId : γ → String
  messageId : μ → String
  gmailThreadId : μ → String
  workflowType : γ → List μ → String
  strongEvidence : γ → List μ → List String
  crossesUnrelatedEntities : List μ → Bool
  hasConflictingReferences : List μ → Bool
  /-- A model has made the group, and its answer does not allow the Inbox. -/
  isUnjustified : γ → List μ → Bool
  isExactReferenceGroup : γ → Bool
  confidence : γ → List μ → ℚ
  projectionKey : γ → List μ → String

abbrev Score : Type := ℕ ×ₗ ℚ ×ₗ ℤ ×ₗ String

structure Candidate (γ μ : Type) where
  group : γ
  messages : List μ
  score : Score

structure Selection (γ μ : Type) where
  claimedMessageIds : List String
  claimedProjectionKeys : List String
  visibleGroups : List (Candidate γ μ)
  superseded : List (Candidate γ μ)

def inboxStrictWorkflows : List String :=
  ["financial_transfer", "support_case", "billing", "logistics", "account_security", "application"]

namespace GroupRules

variable {γ μ : Type} (rules : GroupRules γ μ)

def threadIds (messages : List μ) : List String :=
  ((messages.map fun m =>
    if rules.gmailThreadId m != "" then rules.gmailThreadId m else rules.messageId m).filter
      fun id => id != "").eraseDups

/-- `evaluate_inbox_candidate`: the score of a group that is accepted. -/
def evaluateInboxCandidate (group : γ) (messages : List μ) : Option Score :=
  if messages.length < 2 then none
  else if (rules.threadIds messages).length < 2 then none
  else if !inboxStrictWorkflows.contains (rules.workflowType group messages) then none
  else if (rules.strongEvidence group messages).isEmpty then none
  else if rules.crossesUnrelatedEntities messages then none
  else if rules.hasConflictingReferences messages then none
  else if rules.isUnjustified group messages then none
  else
    some (toLex (if rules.isExactReferenceGroup group then 100 else 80,
      toLex (min 1 (rules.confidence group messages),
        toLex (-(messages.length : ℤ), rules.groupId group))))

def candidates (groups : List γ) (groupMessages : String → List μ) : List (Candidate γ μ) :=
  groups.filterMap fun group =>
    let messages := groupMessages (rules.groupId group)
    (rules.evaluateInboxCandidate group messages).map fun score => ⟨group, messages, score⟩

def key (c : Candidate γ μ) : String := rules.projectionKey c.group c.messages

def ids (c : Candidate γ μ) : List String := c.messages.map rules.messageId

def consider (s : Selection γ μ) (c : Candidate γ μ) : Selection γ μ :=
  if s.claimedProjectionKeys.contains (rules.key c) ||
      (rules.ids c).any fun id => s.claimedMessageIds.contains id then
    { s with superseded := s.superseded ++ [c] }
  else
    { s with
      claimedMessageIds := s.claimedMessageIds ++ rules.ids c
      claimedProjectionKeys := s.claimedProjectionKeys ++ [rules.key c]
      visibleGroups := s.visibleGroups ++ [c] }

def buildInboxProjection (groups : List γ) (groupMessages : String → List μ) : Selection γ μ :=
  ((rules.candidates groups groupMessages).mergeSort fun c d => decide (d.score ≤ c.score)).foldl
    rules.consider ⟨[], [], [], []⟩

def Apart (c d : Candidate γ μ) : Prop :=
  rules.key c ≠ rules.key d ∧ (rules.ids c).Disjoint (rules.ids d)

structure Greedy (s : Selection γ μ) (done : List (Candidate γ μ)) : Prop where
  messages : s.claimedMessageIds = s.visibleGroups.flatMap rules.ids
  keys : s.claimedProjectionKeys = s.visibleGroups.map rules.key
  apart : s.visibleGroups.Pairwise fun c d => d.score ≤ c.score ∧ rules.Apart c d
  covered : ∀ c ∈ done, ∃ d ∈ s.visibleGroups, c.score ≤ d.score ∧ ¬ rules.Apart c d
  all : (s.visibleGroups ++ s.superseded).Perm done

variable {rules} {s : Selection γ μ} {done : List (Candidate γ μ)} {c : Candidate γ μ}

theorem Greedy.apart_of_unclaimed (h : rules.Greedy s done) (hnone : ¬ (s.claimedProjectionKeys.contains
    (rules.key c) || (rules.ids c).any fun id => s.claimedMessageIds.contains id) = true) :
    ∀ d ∈ s.visibleGroups, rules.Apart d c := by
  simp only [Bool.or_eq_true, List.any_eq_true, List.contains_iff_mem, h.keys, h.messages,
    not_or, not_exists, not_and] at hnone
  refine fun d hd => ⟨fun hsame => hnone.1 (hsame ▸ List.mem_map_of_mem hd), fun id hid hid' => ?_⟩
  exact hnone.2 id hid' (List.mem_flatMap_of_mem hd hid)

theorem Greedy.consider (h : rules.Greedy s done) (hlast : ∀ d ∈ done, c.score ≤ d.score) :
    rules.Greedy (rules.consider s c) (done ++ [c]) := by
  have hdone : ∀ d ∈ s.visibleGroups, c.score ≤ d.score := fun d hd =>
    hlast d (h.all.subset (List.mem_append_left _ hd))
  unfold GroupRules.consider
  split
  · next hclaimed =>
    refine ⟨h.messages, h.keys, h.apart, fun c' hc' => ?_, ?_⟩
    · rcases List.mem_append.1 hc' with hold | hnew
      · exact h.covered c' hold
      rw [List.mem_singleton.1 hnew]
      by_contra hnone
      rw [h.keys, h.messages] at hclaimed
      simp only [Bool.or_eq_true, List.contains_iff_mem, List.any_eq_true, List.mem_map,
        List.mem_flatMap] at hclaimed
      rcases hclaimed with ⟨d, hd, hsame⟩ | ⟨id, hid, d, hd, hid'⟩
      · exact hnone ⟨d, hd, hdone d hd, fun hapart => hapart.1 hsame.symm⟩
      · exact hnone ⟨d, hd, hdone d hd, fun hapart => hapart.2 hid hid'⟩
    · rw [← List.append_assoc]
      exact h.all.append_right [c]
  · next hclaimed =>
    refine ⟨by simp [h.messages], by simp [h.keys], ?_, fun c' hc' => ?_, ?_⟩
    · rw [List.pairwise_append]
      refine ⟨h.apart, List.pairwise_singleton _ _, fun d hd e he => ?_⟩
      rw [List.mem_singleton.1 he]
      exact ⟨hdone d hd, h.apart_of_unclaimed hclaimed d hd⟩
    · rcases List.mem_append.1 hc' with hold | hnew
      · obtain ⟨d, hd, hcovers⟩ := h.covered c' hold
        exact ⟨d, List.mem_append_left _ hd, hcovers⟩
      · rw [List.mem_singleton.1 hnew]
        exact ⟨c, List.mem_append_right _ (List.mem_singleton_self c), le_refl _,
          fun hself => hself.1 rfl⟩
    · rw [List.append_assoc]
      refine (List.perm_append_comm.append_left _).trans ?_
      rw [← List.append_assoc]
      exact h.all.append_right [c]

/-- The loop goes from the highest score to the lowest. -/
theorem Greedy.foldl {cs : List (Candidate γ μ)} (h : rules.Greedy s done)
    (hsorted : (done ++ cs).Pairwise fun c d => d.score ≤ c.score) :
    rules.Greedy (cs.foldl rules.consider s) (done ++ cs) := by
  induction cs generalizing s done with
  | nil => rwa [List.append_nil]
  | cons c cs ih =>
    have hlast : ∀ d ∈ done, c.score ≤ d.score := fun d hd =>
      (List.pairwise_append.1 hsorted).2.2 d hd c List.mem_cons_self
    rw [List.append_cons] at hsorted ⊢
    exact ih (h.consider hlast) hsorted

theorem evaluate_accepts {group : γ} {messages : List μ} {score : Score}
    (h : rules.evaluateInboxCandidate group messages = some score) :
    2 ≤ (rules.threadIds messages).length ∧
      rules.workflowType group messages ∈ inboxStrictWorkflows ∧
      rules.strongEvidence group messages ≠ [] := by
  simp only [evaluateInboxCandidate, Option.ite_none_left_eq_some] at h
  obtain ⟨_, hthreads, hworkflow, hevidence, _⟩ := h
  refine ⟨Nat.le_of_not_lt hthreads, by simpa using hworkflow, fun hnone => hevidence ?_⟩
  rw [hnone]
  rfl

/-- **The Inbox shows the strongest groups.** No message and no key is in two groups that are shown,
every accepted group has its key or a message in one that is shown and no weaker, each of them is
shown or superseded once, and a group that is shown spans two threads, is of a strict workflow and
has strong evidence. -/
theorem inbox_projection_greedy (rules : GroupRules γ μ) (groups : List γ)
    (groupMessages : String → List μ) :
    let s := rules.buildInboxProjection groups groupMessages
    (s.visibleGroups.Pairwise fun c d => d.score ≤ c.score ∧ rules.Apart c d) ∧
      (∀ c ∈ rules.candidates groups groupMessages,
        ∃ d ∈ s.visibleGroups, c.score ≤ d.score ∧ ¬ rules.Apart c d) ∧
      (s.visibleGroups ++ s.superseded).Perm
        (rules.candidates groups groupMessages) ∧
      ∀ c ∈ s.visibleGroups, c.group ∈ groups ∧ 2 ≤ (rules.threadIds c.messages).length ∧
        rules.workflowType c.group c.messages ∈ inboxStrictWorkflows ∧
        rules.strongEvidence c.group c.messages ≠ [] := by
  intro s
  have hperm := List.mergeSort_perm (rules.candidates groups groupMessages)
    fun c d => decide (d.score ≤ c.score)
  have hsorted : (((rules.candidates groups groupMessages).mergeSort
      fun c d => decide (d.score ≤ c.score)).Pairwise fun c d => d.score ≤ c.score) := by
    refine (List.pairwise_mergeSort (fun a b c hab hbc => ?_) (fun a b => ?_) _).imp
      of_decide_eq_true
    · exact decide_eq_true ((of_decide_eq_true hbc).trans (of_decide_eq_true hab))
    · rw [Bool.or_eq_true, decide_eq_true_eq, decide_eq_true_eq]
      exact le_total _ _
  have hstart : rules.Greedy ⟨[], [], [], []⟩ [] :=
    ⟨rfl, rfl, .nil, fun c hc => absurd hc List.not_mem_nil, .nil⟩
  have hs : rules.Greedy s _ := hstart.foldl hsorted
  have hall := hs.all.trans hperm
  refine ⟨hs.apart, fun c hc => hs.covered c (hperm.mem_iff.2 hc), hall, fun c hc => ?_⟩
  have hc := hall.subset (List.mem_append_left _ hc)
  obtain ⟨group, hgroup, hsome⟩ := List.mem_filterMap.1 hc
  obtain ⟨score, hscore, rfl⟩ := Option.map_eq_some_iff.1 hsome
  exact ⟨hgroup, evaluate_accepts hscore⟩

end GroupRules

end ElectronicMail.Groups
