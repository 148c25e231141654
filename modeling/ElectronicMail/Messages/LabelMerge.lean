import Mathlib.Data.List.Pairwise
import ElectronicMail.Foundations.Newest
import ElectronicMail.Messages.Writes

/-!
# The label merge converges

`history_id` and `label_ids_json` of a row are merged by the same `CASE`, which
keeps the newest pair in the sense of `Newest.newest`, with null and non-numeric
history ids below every number. So the stored pair is the one of the first upsert
with the greatest history id, whatever else a row goes through and in whatever
order the upserts come (`labelMerge_converges`).
-/

namespace ElectronicMail.Messages

open Foundations.Newest

/-! ## Upserts of one message -/

def applyUpserts (table : MessageTable) (us : List Upsert) : MessageTable :=
  us.foldl applyUpsert table

def upsertsOf (messageId : String) (us : List Upsert) : List GmailMessage :=
  us.filterMap fun u => if u.messageId = messageId then some u.excluded else none

/-- The rows seen for a message: the one stored at the start and those upserted. -/
def seen (table : MessageTable) (messageId : String) (us : List Upsert) : List GmailMessage :=
  (table messageId).toList ++ upsertsOf messageId us

def historyAndLabels (row : GmailMessage) : Option String × List String :=
  (row.historyId, row.labelIds)

def historyValue (historyId : Option String) : WithBot Nat :=
  match numericHistoryId historyId with
  | none => ⊥
  | some n => WithBot.some n

def historyKey (row : GmailMessage) : WithBot Nat := historyValue row.historyId

def storedKey (table : MessageTable) (messageId : String) : WithBot Nat :=
  (table messageId).elim ⊥ historyKey

theorem upsertsOf_append (messageId : String) (us vs : List Upsert) :
    upsertsOf messageId (us ++ vs) = upsertsOf messageId us ++ upsertsOf messageId vs :=
  List.filterMap_append

theorem applyUpserts_append (table : MessageTable) (us vs : List Upsert) :
    applyUpserts table (us ++ vs) = applyUpserts (applyUpserts table us) vs :=
  List.foldl_append

theorem caseNewerHistory_eq {α : Type} (stored excluded : Option String) (kept taken : α) :
    caseNewerHistory stored excluded kept taken =
      if historyValue stored < historyValue excluded then taken else kept := by
  unfold caseNewerHistory historyValue
  cases numericHistoryId excluded with
  | none =>
    dsimp only
    rw [if_neg not_lt_bot]
  | some new =>
    cases numericHistoryId stored with
    | none =>
      dsimp only
      rw [if_pos (WithBot.bot_lt_coe new)]
    | some old => simp only [WithBot.coe_lt_coe]

theorem historyAndLabels_mergeRow (now : String) (stored excluded : GmailMessage) :
    historyAndLabels (mergeRow now stored excluded) =
      historyAndLabels (newest historyKey stored excluded) := by
  unfold historyAndLabels newest historyKey
  simp only [mergeRow, caseNewerHistory_eq]
  split
  · rfl
  · rfl

theorem historyAndLabels_newest_congr {held held' : GmailMessage}
    (h : historyAndLabels held = historyAndLabels held') (offered : GmailMessage) :
    historyAndLabels (newest historyKey held offered) =
      historyAndLabels (newest historyKey held' offered) := by
  have hkey : historyKey held = historyKey held' := congrArg historyValue (congrArg Prod.fst h)
  unfold newest
  rw [hkey]
  split
  · rfl
  · exact h

/-- **The stored pair.** After any upserts, it is the pair of the first newest row
seen. -/
theorem storedPair_eq (table : MessageTable) (messageId : String) (us : List Upsert) :
    (applyUpserts table us messageId).map historyAndLabels =
      (List.argmax historyKey (seen table messageId us)).map historyAndLabels := by
  induction us using List.reverseRecOn with
  | nil =>
    unfold seen
    cases hrow : table messageId with
    | none | some row => exact congrArg _ hrow
  | append_singleton us u ih =>
    have hseen : seen table messageId (us ++ [u]) =
        seen table messageId us ++ upsertsOf messageId [u] := by
      unfold seen
      rw [upsertsOf_append, List.append_assoc]
    have hstep : applyUpserts table (us ++ [u]) = applyUpsert (applyUpserts table us) u :=
      applyUpserts_append table us [u]
    rcases eq_or_ne messageId u.messageId with rfl | hne
    · have hone : upsertsOf u.messageId [u] = [u.excluded] := by
        simp [upsertsOf]
      rw [hstep, applyUpsert_self, hseen, hone, List.argmax_concat]
      cases hrow : applyUpserts table us u.messageId with
      | none =>
        rw [hrow] at ih
        cases hmax : List.argmax historyKey (seen table u.messageId us) with
        | none => rfl
        | some row =>
          rw [hmax] at ih
          cases ih
      | some stored =>
        rw [hrow] at ih
        cases hmax : List.argmax historyKey (seen table u.messageId us) with
        | none =>
          rw [hmax] at ih
          cases ih
        | some row =>
          rw [hmax] at ih
          have hsame : historyAndLabels stored = historyAndLabels row := Option.some.inj ih
          have hmerge := (historyAndLabels_mergeRow u.now stored u.excluded).trans
            (historyAndLabels_newest_congr hsame u.excluded)
          refine (congrArg some hmerge).trans ?_
          unfold newest
          dsimp only
          split
          · rfl
          · rfl
    · have hnone : upsertsOf messageId [u] = [] := by
        simp [upsertsOf, hne.symm]
      rw [hstep, applyUpsert_of_ne hne, hseen, hnone, List.append_nil, ih]

/-! ## Convergence -/

theorem storedKey_le_applyUpsert (table : MessageTable) (messageId : String) (u : Upsert) :
    storedKey table messageId ≤ storedKey (applyUpsert table u) messageId := by
  unfold storedKey
  rcases eq_or_ne messageId u.messageId with rfl | hne
  · rw [applyUpsert_self]
    cases table u.messageId with
    | none => exact bot_le
    | some stored =>
      have hpair := historyAndLabels_mergeRow u.now stored u.excluded
      have hkey : historyKey (mergeRow u.now stored u.excluded) =
          historyKey (newest historyKey stored u.excluded) :=
        congrArg historyValue (congrArg Prod.fst hpair)
      exact le_of_le_of_eq (key_le_newest historyKey stored u.excluded) hkey.symm
  · rw [applyUpsert_of_ne hne]

theorem storedKey_le_applyUpserts (table : MessageTable) (messageId : String)
    (us : List Upsert) : storedKey table messageId ≤ storedKey (applyUpserts table us) messageId := by
  induction us generalizing table with
  | nil => exact le_refl _
  | cons u us ih =>
    exact le_trans (storedKey_le_applyUpsert table messageId u) (ih (applyUpsert table u))

theorem numericHistoryId_of_historyKey {row : GmailMessage} {n : Nat}
    (h : historyKey row = WithBot.some n) : numericHistoryId row.historyId = some n := by
  unfold historyKey historyValue at h
  cases hnum : numericHistoryId row.historyId with
  | none =>
    rw [hnum] at h
    exact absurd h WithBot.bot_ne_coe
  | some m =>
    rw [hnum] at h
    exact congrArg some (WithBot.coe_inj.1 h)

variable {rows : List GmailMessage}

theorem exists_number_of_mem_argmax {row : GmailMessage} (hmax : row ∈ List.argmax historyKey rows)
    (hnumeric : ∃ r ∈ rows, (numericHistoryId r.historyId).isSome) :
    ∃ n : Nat, historyKey row = WithBot.some n := by
  obtain ⟨r, hr, hsome⟩ := hnumeric
  obtain ⟨n, hn⟩ := Option.isSome_iff_exists.1 hsome
  have hle : historyKey r ≤ historyKey row := List.le_of_mem_argmax hr hmax
  have hkey : historyKey r = WithBot.some n := by
    unfold historyKey historyValue
    rw [hn]
  rw [hkey] at hle
  obtain ⟨m, hm, -⟩ := WithBot.coe_le_iff.1 hle
  exact ⟨m, hm⟩

theorem eq_of_historyKey_eq
    (hdistinct : (rows.filterMap fun row => numericHistoryId row.historyId).Nodup)
    {r r' : GmailMessage} (hr : r ∈ rows) (hr' : r' ∈ rows) {n : Nat}
    (hn : historyKey r = WithBot.some n) (hn' : historyKey r' = WithBot.some n) : r = r' := by
  have hpairwise := List.pairwise_filterMap.1 hdistinct
  have hsymm : Std.Symm fun x y : GmailMessage => ∀ m, numericHistoryId x.historyId = some m →
      ∀ k, numericHistoryId y.historyId = some k → m ≠ k :=
    ⟨fun x y hxy m hm k hk hmk => hxy k hk m hm hmk.symm⟩
  by_contra hne
  exact hpairwise.forall hr hr' hne n (numericHistoryId_of_historyKey hn) n
    (numericHistoryId_of_historyKey hn') rfl

/-- **The label merge converges.** Once a numeric history id has been seen, the
stored pair is the one of the row with the greatest number seen, the first one on
ties; the stored history id never decreases; and two orders of the same upserts with
distinct numbers end with the same pair. -/
theorem labelMerge_converges (table : MessageTable) (messageId : String) :
    (∀ us, (∃ row ∈ seen table messageId us, (numericHistoryId row.historyId).isSome) →
      ∃ pre row post, seen table messageId us = pre ++ row :: post ∧
        (∃ n : Nat, numericHistoryId row.historyId = some n) ∧
        (∀ r ∈ pre, historyKey r < historyKey row) ∧
        (∀ r ∈ post, historyKey r ≤ historyKey row) ∧
        (applyUpserts table us messageId).map historyAndLabels = some (historyAndLabels row)) ∧
    (∀ us vs, storedKey (applyUpserts table us) messageId ≤
      storedKey (applyUpserts table (us ++ vs)) messageId) ∧
    (∀ us us', (upsertsOf messageId us).Perm (upsertsOf messageId us') →
      ((seen table messageId us).filterMap fun row => numericHistoryId row.historyId).Nodup →
      (upsertsOf messageId us ≠ [] →
        ∃ row ∈ seen table messageId us, (numericHistoryId row.historyId).isSome) →
      (applyUpserts table us messageId).map historyAndLabels =
        (applyUpserts table us' messageId).map historyAndLabels) := by
  refine ⟨?_, ?_, ?_⟩
  · intro us hnumeric
    have hstored := storedPair_eq table messageId us
    cases hmax : List.argmax historyKey (seen table messageId us) with
    | none =>
      obtain ⟨row, hrow, -⟩ := hnumeric
      rw [List.argmax_eq_none.1 hmax] at hrow
      cases hrow
    | some row =>
      obtain ⟨pre, post, hsplit, hpre, hpost⟩ := exists_split_of_mem_argmax hmax
      obtain ⟨n, hn⟩ := exists_number_of_mem_argmax hmax hnumeric
      rw [hmax] at hstored
      exact ⟨pre, row, post, hsplit, ⟨n, numericHistoryId_of_historyKey hn⟩, hpre, hpost, hstored⟩
  · intro us vs
    rw [applyUpserts_append]
    exact storedKey_le_applyUpserts (applyUpserts table us) messageId vs
  · intro us us' hperm hdistinct hnumeric
    have hseen : (seen table messageId us).Perm (seen table messageId us') :=
      hperm.append_left _
    rw [storedPair_eq, storedPair_eq]
    cases hus : upsertsOf messageId us with
    | nil =>
      rw [hus] at hperm
      unfold seen
      rw [hus, List.nil_perm.1 hperm]
    | cons first rest =>
      have hsome := hnumeric (by rw [hus]; exact List.cons_ne_nil first rest)
      cases hmax : List.argmax historyKey (seen table messageId us) with
      | none =>
        obtain ⟨row, hrow, -⟩ := hsome
        rw [List.argmax_eq_none.1 hmax] at hrow
        cases hrow
      | some row =>
        obtain ⟨n, hn⟩ := exists_number_of_mem_argmax hmax hsome
        have hmax' := argmax_eq_of_perm hseen hmax (by
          intro r hr hkey
          exact eq_of_historyKey_eq hdistinct hr (List.argmax_mem hmax) (hkey.trans hn) hn)
        rw [Option.mem_def.1 hmax']

end ElectronicMail.Messages
