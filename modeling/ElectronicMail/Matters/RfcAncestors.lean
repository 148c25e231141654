import Mathlib.Data.List.Nodup
import Mathlib.Data.List.Perm.Subperm
import ElectronicMail.Foundations.Distinct
import ElectronicMail.Foundations.Text

/-!
# Reply ancestors

`_messages_with_rfc_ancestors` follows the `In-Reply-To` and `References` headers of messages to
the stored messages that they name, for eight rounds and up to a hundred messages.
-/

namespace ElectronicMail.Matters

open Foundations
open Foundations.Text (isSpace strip)

/-- A stored message, with its `Message-ID` as the lookup compares it. -/
structure StoredMail where
  messageId : String
  rfcMessageId : String
  headers : List (String × String)
  deriving DecidableEq

/-- `re.findall(r"<[^<>\s]+>", raw)`, with what follows the last `<`. -/
def bracketedIds : Option (List Char) → List Char → List String
  | _, [] => []
  | candidate, c :: rest =>
    if c = '<' then bracketedIds (some []) rest
    else if c = '>' then
      match candidate with
      | some (d :: ds) => String.ofList ('<' :: d :: ds ++ ['>']) :: bracketedIds none rest
      | _ => bracketedIds none rest
    else if isSpace c then bracketedIds none rest
    else bracketedIds (candidate.map (· ++ [c])) rest

/-- `headers.get(name) or headers.get(name.title()) or ""`. -/
def headerOf (headers : List (String × String)) (name title : String) : String :=
  match headers.lookup name with
  | some value => if value = "" then (headers.lookup title).getD "" else value
  | none => (headers.lookup title).getD ""

def idsIn (raw : String) : List String :=
  if bracketedIds none raw.toList ≠ [] then bracketedIds none raw.toList
  else if strip raw ≠ "" then [strip raw]
  else []

section Walk

variable (casefold : String → String) (stored start : List StoredMail) (maxMessages : Nat)

def rfcAncestorMessageIds (m : StoredMail) : List String :=
  ((idsIn (headerOf m.headers "in-reply-to" "In-Reply-To") ++
    idsIn (headerOf m.headers "references" "References")).map casefold).eraseDups

def listMessagesByRfcMessageIds (ids : List String) : List StoredMail :=
  stored.filter fun m => m.rfcMessageId ∈ ids

/-- `ancestor_ids`. -/
def askedIds (frontier : List StoredMail) (requested : List String) : List String :=
  ((frontier.flatMap (rfcAncestorMessageIds casefold)).filter (· ∉ requested)).eraseDups

def nextRound (byId : List StoredMail) (ids : List String) : List StoredMail :=
  (listMessagesByRfcMessageIds stored ids).filter
    fun m => m.messageId ∉ byId.map StoredMail.messageId

/-- The rounds, with the messages there are, the last ones and the ids that have been asked for. -/
def ancestorRounds : Nat → List StoredMail → List StoredMail → List String → List StoredMail
  | 0, byId, _, _ => byId
  | rounds + 1, byId, frontier, requested =>
    let ancestorIds := askedIds casefold frontier requested
    if ancestorIds = [] ∨ maxMessages ≤ byId.length then byId
    else
      let next := nextRound stored byId ancestorIds
      if next = [] then byId
      else ancestorRounds rounds (byId ++ next.take (maxMessages - byId.length)) next
        (requested ++ ancestorIds)

def messagesWithRfcAncestors (maxRounds : Nat) : List StoredMail :=
  ancestorRounds casefold stored maxMessages maxRounds start.eraseDups start []

/-- The stored messages that are at most so many parents away from the start. -/
def reachable : Nat → List StoredMail
  | 0 => stored.filter (· ∈ start)
  | n + 1 => stored.filter fun m => m ∈ reachable n ∨
      (reachable n).any fun c => m.rfcMessageId ∈ rfcAncestorMessageIds casefold c

variable {casefold stored start maxMessages} {k : Nat} {byId frontier : List StoredMail}
  {requested : List String} {m : StoredMail}

theorem mem_reachable_succ : m ∈ reachable casefold stored start (k + 1) ↔
    m ∈ stored ∧ (m ∈ reachable casefold stored start k ∨
      ∃ c ∈ reachable casefold stored start k,
        m.rfcMessageId ∈ rfcAncestorMessageIds casefold c) := by
  simp [reachable]

theorem reachable_subset_stored (k : Nat) : reachable casefold stored start k ⊆ stored := by
  cases k with
  | zero | succ k => exact List.filter_subset_self _

theorem reachable_mono (n : Nat) :
    reachable casefold stored start k ⊆ reachable casefold stored start (k + n) := by
  induction n with
  | zero => exact fun m hm => hm
  | succ n ih =>
    intro m hm
    exact mem_reachable_succ.2 ⟨reachable_subset_stored _ hm, Or.inl (ih hm)⟩

def ParentsIn (casefold : String → String) (stored byId : List StoredMail) : Prop :=
  ∀ c ∈ byId, ∀ m ∈ stored, m.rfcMessageId ∈ rfcAncestorMessageIds casefold c → m ∈ byId

theorem ParentsIn.reachable (h : ParentsIn casefold stored byId)
    (hk : reachable casefold stored start k ⊆ byId) (n : Nat) :
    reachable casefold stored start (k + n) ⊆ byId := by
  induction n with
  | zero => exact hk
  | succ n ih =>
    intro m hm
    obtain ⟨hstored, hin | ⟨c, hc, hm⟩⟩ := mem_reachable_succ.1 hm
    · exact ih hin
    · exact h c (ih hc) m hstored hm

/-- What the rounds have after `k` of them. -/
structure WalkOk (casefold : String → String) (stored start : List StoredMail) (maxMessages k : Nat)
    (byId frontier : List StoredMail) : Prop where
  nodup : (byId.map StoredMail.messageId).Nodup
  bound : byId.length ≤ max start.length maxMessages
  given : start ⊆ byId
  within : byId ⊆ reachable casefold stored start k
  last : frontier ⊆ reachable casefold stored start k

/-- While the limit has not been reached, nothing is left out, and whatever is not in the last
round has had its parents asked for. -/
structure WalkAll (casefold : String → String) (stored start : List StoredMail) (k : Nat)
    (byId frontier : List StoredMail) (requested : List String) : Prop where
  all : reachable casefold stored start k ⊆ byId
  found : ∀ m ∈ stored, m.rfcMessageId ∈ requested → m ∈ byId
  asked : ∀ c ∈ byId, c ∉ frontier → ∀ v ∈ rfcAncestorMessageIds casefold c, v ∈ requested

theorem mem_askedIds {v : String} : v ∈ askedIds casefold frontier requested ↔
    (∃ c ∈ frontier, v ∈ rfcAncestorMessageIds casefold c) ∧ v ∉ requested := by
  simp [askedIds, List.mem_eraseDups]

theorem mem_nextRound {ids : List String} : m ∈ nextRound stored byId ids ↔
    m ∈ stored ∧ m.rfcMessageId ∈ ids ∧ m.messageId ∉ byId.map StoredMail.messageId := by
  simp only [nextRound, listMessagesByRfcMessageIds, List.mem_filter, decide_eq_true_eq, and_assoc]

section Rounds

variable (hkeyed : (stored.map StoredMail.messageId).Nodup)
include hkeyed

theorem mem_or_mem_nextRound (hbyId : byId ⊆ stored) (hm : m ∈ stored) {ids : List String}
    (hids : m.rfcMessageId ∈ ids) : m ∈ byId ∨ m ∈ nextRound stored byId ids := by
  by_cases hin : m.messageId ∈ byId.map StoredMail.messageId
  · obtain ⟨m', hm', heq⟩ := List.mem_map.1 hin
    exact Or.inl (List.inj_on_of_nodup_map hkeyed (hbyId hm') hm heq ▸ hm')
  · exact Or.inr (mem_nextRound.2 ⟨hm, hids, hin⟩)

theorem WalkAll.parentsIn (h : WalkAll casefold stored start k byId frontier requested)
    (hbyId : byId ⊆ stored)
    (hnone : nextRound stored byId (askedIds casefold frontier requested) = []) :
    ParentsIn casefold stored byId := by
  intro c hc m hm hnames
  by_cases hrequested : m.rfcMessageId ∈ requested
  · exact h.found m hm hrequested
  by_cases hfrontier : c ∈ frontier
  · have hasked := mem_askedIds.2 ⟨⟨c, hfrontier, hnames⟩, hrequested⟩
    rcases mem_or_mem_nextRound hkeyed hbyId hm hasked with hin | hnext
    · exact hin
    · rw [hnone] at hnext
      cases hnext
  · exact absurd (h.asked c hc hfrontier _ hnames) hrequested

theorem nodup_append_nextRound (h : (byId.map StoredMail.messageId).Nodup) (ids : List String) :
    ((byId ++ nextRound stored byId ids).map StoredMail.messageId).Nodup := by
  rw [List.map_append, List.nodup_append]
  refine ⟨h, ?_, ?_⟩
  · exact hkeyed.sublist (List.Sublist.map _ (List.filter_sublist.trans List.filter_sublist))
  · rintro a ha b hb rfl
    obtain ⟨m, hm, rfl⟩ := List.mem_map.1 hb
    exact (mem_nextRound.1 hm).2.2 ha

theorem WalkOk.next (requested : List String)
    (h : WalkOk casefold stored start maxMessages k byId frontier)
    (hroom : byId.length < maxMessages) :
    WalkOk casefold stored start maxMessages (k + 1)
      (byId ++ (nextRound stored byId (askedIds casefold frontier requested)).take
        (maxMessages - byId.length))
      (nextRound stored byId (askedIds casefold frontier requested)) := by
  have hnext : nextRound stored byId (askedIds casefold frontier requested) ⊆
      reachable casefold stored start (k + 1) := by
    intro m hm
    obtain ⟨hstored, hids, -⟩ := mem_nextRound.1 hm
    obtain ⟨⟨c, hc, hnames⟩, -⟩ := mem_askedIds.1 hids
    exact mem_reachable_succ.2 ⟨hstored, Or.inr ⟨c, h.last hc, hnames⟩⟩
  refine ⟨?_, ?_, fun m hm => List.mem_append_left _ (h.given hm), ?_, hnext⟩
  · exact (nodup_append_nextRound hkeyed h.nodup _).sublist
      (List.Sublist.map _ (List.Sublist.append_left (List.take_sublist _ _) byId))
  · rw [List.length_append, List.length_take]
    omega
  · intro m hm
    rcases List.mem_append.1 hm with hm | hm
    · exact reachable_mono 1 (h.within hm)
    · exact hnext (List.mem_of_mem_take hm)

theorem WalkAll.next (h : WalkAll casefold stored start k byId frontier requested)
    (hok : WalkOk casefold stored start maxMessages k byId frontier)
    (hroom : (nextRound stored byId (askedIds casefold frontier requested)).length ≤
      maxMessages - byId.length) :
    WalkAll casefold stored start (k + 1)
      (byId ++ (nextRound stored byId (askedIds casefold frontier requested)).take
        (maxMessages - byId.length))
      (nextRound stored byId (askedIds casefold frontier requested))
      (requested ++ askedIds casefold frontier requested) := by
  have hbyId : byId ⊆ stored := fun m hm => reachable_subset_stored _ (hok.within hm)
  rw [List.take_of_length_le hroom]
  have hfound : ∀ m ∈ stored,
      m.rfcMessageId ∈ requested ++ askedIds casefold frontier requested →
        m ∈ byId ++ nextRound stored byId (askedIds casefold frontier requested) := by
    intro m hm hids
    rcases List.mem_append.1 hids with hids | hids
    · exact List.mem_append_left _ (h.found m hm hids)
    · exact List.mem_append.2 (mem_or_mem_nextRound hkeyed hbyId hm hids)
  have hasked : ∀ c ∈ byId, ∀ v ∈ rfcAncestorMessageIds casefold c,
      v ∈ requested ++ askedIds casefold frontier requested := by
    intro c hc v hv
    by_cases hrequested : v ∈ requested
    · exact List.mem_append_left _ hrequested
    · by_cases hfrontier : c ∈ frontier
      · exact List.mem_append_right _ (mem_askedIds.2 ⟨⟨c, hfrontier, hv⟩, hrequested⟩)
      · exact absurd (h.asked c hc hfrontier v hv) hrequested
  refine ⟨?_, hfound, ?_⟩
  · intro m hm
    obtain ⟨hstored, hin | ⟨c, hc, hnames⟩⟩ := mem_reachable_succ.1 hm
    · exact List.mem_append_left _ (h.all hin)
    · exact hfound m hstored (hasked c (h.all hc) _ hnames)
  · intro c hc hfrontier
    rcases List.mem_append.1 hc with hc | hc
    · exact hasked c hc
    · exact absurd hc hfrontier

/-- **The rounds**: they keep to the limit and to what can be reached, and all of it is there
when it is below the limit. -/
theorem ancestorRounds_spec (rounds : Nat) (requested : List String)
    (hok : WalkOk casefold stored start maxMessages k byId frontier) :
    WalkOk casefold stored start maxMessages (k + rounds)
        (ancestorRounds casefold stored maxMessages rounds byId frontier requested) [] ∧
      (WalkAll casefold stored start k byId frontier requested →
        (reachable casefold stored start (k + rounds)).length < maxMessages →
        reachable casefold stored start (k + rounds) ⊆
          ancestorRounds casefold stored maxMessages rounds byId frontier requested) := by
  induction rounds generalizing k byId frontier requested with
  | zero =>
    exact ⟨⟨hok.nodup, hok.bound, hok.given, hok.within, List.nil_subset _⟩, fun hall _ => hall.all⟩
  | succ rounds ih =>
    have hbyId : byId ⊆ stored := fun m hm => reachable_subset_stored _ (hok.within hm)
    have hstays : WalkOk casefold stored start maxMessages (k + (rounds + 1)) byId [] :=
      ⟨hok.nodup, hok.bound, hok.given, fun m hm => reachable_mono _ (hok.within hm),
        List.nil_subset _⟩
    have hdone : nextRound stored byId (askedIds casefold frontier requested) = [] →
        WalkAll casefold stored start k byId frontier requested →
        reachable casefold stored start (k + (rounds + 1)) ⊆ byId :=
      fun hnone hall => (hall.parentsIn hkeyed hbyId hnone).reachable hall.all _
    unfold ancestorRounds
    dsimp only
    by_cases hstop : askedIds casefold frontier requested = [] ∨ maxMessages ≤ byId.length
    · rw [if_pos hstop]
      refine ⟨hstays, fun hall hfew => ?_⟩
      rcases hstop with hnone | hfull
      · apply hdone _ hall
        simp [hnone, nextRound, listMessagesByRfcMessageIds]
      · have hcount := (List.subperm_of_subset hstays.nodup.of_map hstays.within).length_le
        omega
    · rw [if_neg hstop]
      by_cases hnone : nextRound stored byId (askedIds casefold frontier requested) = []
      · rw [if_pos hnone]
        exact ⟨hstays, fun hall _ => hdone hnone hall⟩
      rw [if_neg hnone]
      have hroom : byId.length < maxMessages := Nat.not_le.1 fun h => hstop (Or.inr h)
      have hnext := WalkOk.next hkeyed requested hok hroom
      obtain ⟨hspec, hrest⟩ := ih (requested ++ askedIds casefold frontier requested) hnext
      rw [Nat.add_assoc, Nat.add_comm 1] at hspec hrest
      refine ⟨hspec, fun hall hfew => hrest (hall.next hkeyed hok ?_) hfew⟩
      -- all of the round can be reached, so it is below the limit with what is there
      have hcount := (List.subperm_of_subset
        (nodup_append_nextRound hkeyed hok.nodup (askedIds casefold frontier requested)).of_map
        (List.append_subset.2 ⟨hstays.within, fun m hm => ?_⟩)).length_le
      · rw [List.length_append] at hcount
        omega
      · have hreach := reachable_mono rounds (hnext.last hm)
        rwa [Nat.add_assoc, Nat.add_comm 1] at hreach

end Rounds

end Walk

/-- **The ancestors are exact.** Every message comes once, with every start message, nothing but
what eight parent steps reach and at most a hundred messages or the start. Fewer than a hundred
reachable messages are all there. -/
theorem messagesWithRfcAncestors_exact (casefold : String → String) {stored start : List StoredMail}
    (hkeyed : (stored.map StoredMail.messageId).Nodup) (hstart : start ⊆ stored) :
    let result := messagesWithRfcAncestors casefold stored start 100 8
    (result.map StoredMail.messageId).Nodup ∧ start ⊆ result ∧
      result ⊆ reachable casefold stored start 8 ∧ result.length ≤ max start.length 100 ∧
      ((reachable casefold stored start 8).length < 100 →
        ∀ m, m ∈ result ↔ m ∈ reachable casefold stored start 8) := by
  have hmem : ∀ m, m ∈ start.eraseDups ↔ m ∈ start := fun m => List.mem_eraseDups
  have hreach : ∀ m, m ∈ reachable casefold stored start 0 ↔ m ∈ start := by
    intro m
    simp only [reachable, List.mem_filter, decide_eq_true_eq]
    exact ⟨And.right, fun hm => ⟨hstart hm, hm⟩⟩
  have hnodup : (start.eraseDups.map StoredMail.messageId).Nodup := by
    refine (List.nodup_map_iff_inj_on (nodup_eraseDups start)).2 ?_
    intro m hm m' hm' heq
    exact List.inj_on_of_nodup_map hkeyed (hstart ((hmem m).1 hm)) (hstart ((hmem m').1 hm')) heq
  have hok : WalkOk casefold stored start 100 0 start.eraseDups start :=
    ⟨hnodup, Nat.le_trans (length_eraseDups_le start) (Nat.le_max_left _ _), fun m hm => (hmem m).2 hm,
      fun m hm => (hreach m).2 ((hmem m).1 hm), fun m hm => (hreach m).2 hm⟩
  have hall : WalkAll casefold stored start 0 start.eraseDups start [] :=
    ⟨fun m hm => (hmem m).2 ((hreach m).1 hm), nofun, fun c hc hout => absurd ((hmem c).1 hc) hout⟩
  obtain ⟨hspec, hcomplete⟩ := ancestorRounds_spec hkeyed 8 [] hok
  rw [Nat.zero_add] at hspec hcomplete
  exact ⟨hspec.nodup, hspec.given, hspec.within, hspec.bound,
    fun hfew m => ⟨fun hm => hspec.within hm, fun hm => hcomplete hall hfew hm⟩⟩

/-- A question, and the automatic answer to it in a thread of its own. -/
def question : StoredMail := ⟨"m1", "<q@x.org>", [("message-id", "<q@x.org>")]⟩

def autoReply : StoredMail := ⟨"m2", "<a@y.org>", [("in-reply-to", "<q@x.org>")]⟩

theorem question_found :
    question ∈ messagesWithRfcAncestors id [question, autoReply] [autoReply] 100 8 := by
  have hkeyed : ([question, autoReply].map StoredMail.messageId).Nodup := by decide
  have hstart : [autoReply] ⊆ [question, autoReply] := fun m hm => List.mem_cons_of_mem _ hm
  refine ((messagesWithRfcAncestors_exact id hkeyed hstart).2.2.2.2 ?_ question).2 ?_
  · exact Nat.lt_of_le_of_lt (List.length_filter_le _ _) (by decide)
  · decide +kernel

end ElectronicMail.Matters
