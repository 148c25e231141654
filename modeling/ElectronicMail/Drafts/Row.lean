import Mathlib.Data.Option.Basic
import ElectronicMail.Foundations.Table

/-!
# Client drafts

The table `gmail_client_drafts` of one account and the statements that write it. The
client id of a row is its primary key and the Gmail id is unique where it is set; a
`DraftTable` carries both. Statements that can be rejected give `none`.

`Wrote` is what every statement does to the table: it replaces or inserts the row it
returns and leaves the rows of other clients alone.
-/

namespace ElectronicMail.Drafts

open Foundations.Table

/-- The values of `gmail_client_drafts.state`. -/
inductive DraftState where
  | creating
  | saved
  | failed
  | sending
  | sent
  | deleted
  deriving DecidableEq

/-- A row of `gmail_client_drafts`; also the `ClientDraftRecord` of an operation. -/
structure ClientDraft where
  clientDraftId : String
  gmailDraftId : Option String
  gmailMessageId : Option String
  gmailThreadId : Option String
  contentHash : String
  state : DraftState
  lastClientSendId : Option String
  sentMessageId : Option String
  error : Option String
  deriving DecidableEq

structure DraftTable where
  rows : List ClientDraft
  clientIds : (rows.map ClientDraft.clientDraftId).Nodup
  gmailIds : (rows.filterMap ClientDraft.gmailDraftId).Nodup

def DraftTable.empty : DraftTable := ⟨[], List.nodup_nil, List.nodup_nil⟩

/-- `get_client_draft` by the client id. -/
def DraftTable.byClient (table : DraftTable) (clientDraftId : String) : Option ClientDraft :=
  rowAt ClientDraft.clientDraftId table.rows clientDraftId

/-- `get_client_draft` by the Gmail id. -/
def DraftTable.byGmail (table : DraftTable) (gmailDraftId : String) : Option ClientDraft :=
  rowAt ClientDraft.gmailDraftId table.rows (some gmailDraftId)

variable {c : String}

/-! ## Look-ups -/

theorem DraftTable.byClient_eq_some_iff (table : DraftTable) {row : ClientDraft} :
    table.byClient c = some row ↔ row ∈ table.rows ∧ row.clientDraftId = c := by
  constructor
  · intro h
    exact rowAt_mem ClientDraft.clientDraftId h
  · rintro ⟨hmem, rfl⟩
    exact rowAt_of_mem ClientDraft.clientDraftId table.clientIds hmem

theorem DraftTable.client_of_byClient (table : DraftTable) {row : ClientDraft}
    (h : table.byClient c = some row) : row.clientDraftId = c :=
  (table.byClient_eq_some_iff.1 h).2

theorem DraftTable.gmail_unique (table : DraftTable) {row other : ClientDraft} {g : String}
    (hrow : row ∈ table.rows) (hother : other ∈ table.rows) (h : row.gmailDraftId = some g)
    (h' : other.gmailDraftId = some g) : row = other := by
  have hnodup := table.gmailIds
  generalize table.rows = rows at hrow hother hnodup
  induction rows with
  | nil => cases hrow
  | cons first rest ih =>
    have hin : ∀ r ∈ rest, r.gmailDraftId = some g →
        g ∈ rest.filterMap ClientDraft.gmailDraftId := by
      intro r hr hg
      exact List.mem_filterMap.2 ⟨r, hr, hg⟩
    have hrest : (rest.filterMap ClientDraft.gmailDraftId).Nodup := by
      cases hg : first.gmailDraftId with
      | none => rwa [List.filterMap_cons_none hg] at hnodup
      | some x => exact (List.nodup_cons.1 (by rwa [List.filterMap_cons_some hg] at hnodup)).2
    have hfirst : first.gmailDraftId = some g → g ∉ rest.filterMap ClientDraft.gmailDraftId := by
      intro hg
      rw [List.filterMap_cons_some hg] at hnodup
      exact (List.nodup_cons.1 hnodup).1
    rcases List.mem_cons.1 hrow with hrowFirst | hrowRest
    · rcases List.mem_cons.1 hother with hotherFirst | hotherRest
      · exact hrowFirst.trans hotherFirst.symm
      · exact absurd (hin other hotherRest h') (hfirst (hrowFirst ▸ h))
    · rcases List.mem_cons.1 hother with hotherFirst | hotherRest
      · exact absurd (hin row hrowRest h) (hfirst (hotherFirst ▸ h'))
      · exact ih hrowRest hotherRest hrest

theorem DraftTable.byGmail_eq_some_iff (table : DraftTable) {g : String} {row : ClientDraft} :
    table.byGmail g = some row ↔
      table.byClient row.clientDraftId = some row ∧ row.gmailDraftId = some g := by
  constructor
  · intro h
    obtain ⟨hmem, hg⟩ := rowAt_mem ClientDraft.gmailDraftId h
    exact ⟨table.byClient_eq_some_iff.2 ⟨hmem, rfl⟩, hg⟩
  · rintro ⟨hclient, hg⟩
    have hmem := (table.byClient_eq_some_iff.1 hclient).1
    cases hfind : table.byGmail g with
    | none =>
      exact absurd hg ((rowAt_eq_none ClientDraft.gmailDraftId).1 hfind row hmem)
    | some other =>
      obtain ⟨hother, hkey⟩ := rowAt_mem ClientDraft.gmailDraftId hfind
      exact congrArg some (table.gmail_unique hother hmem hkey hg)

/-! ## Changing rows -/

/-- The unique constraint on Gmail ids lets `row` in. -/
def DraftTable.Admits (table : DraftTable) (row : ClientDraft) : Prop :=
  ∀ other ∈ table.rows, other.clientDraftId ≠ row.clientDraftId →
    other.gmailDraftId = none ∨ other.gmailDraftId ≠ row.gmailDraftId

instance (table : DraftTable) (row : ClientDraft) : Decidable (table.Admits row) :=
  inferInstanceAs (Decidable (∀ other ∈ table.rows, other.clientDraftId ≠ row.clientDraftId →
    other.gmailDraftId = none ∨ other.gmailDraftId ≠ row.gmailDraftId))

theorem nodup_filterMap_gmail {rows : List ClientDraft} (p : ClientDraft → Bool)
    (h : (rows.filterMap ClientDraft.gmailDraftId).Nodup) :
    ((rows.filter p).filterMap ClientDraft.gmailDraftId).Nodup :=
  h.sublist (List.filter_sublist.filterMap ClientDraft.gmailDraftId)

/-- `row` in place of the row of its client, if there is one. -/
def DraftTable.put (table : DraftTable) (row : ClientDraft) (h : table.Admits row) : DraftTable where
  rows := row :: table.rows.filter fun other => decide (other.clientDraftId ≠ row.clientDraftId)
  clientIds := by
    rw [List.map_cons, List.nodup_cons]
    constructor
    · intro hmem
      obtain ⟨other, hother, hkey⟩ := List.mem_map.1 hmem
      exact of_decide_eq_true (List.mem_filter.1 hother).2 hkey
    · exact table.clientIds.sublist (List.filter_sublist.map ClientDraft.clientDraftId)
  gmailIds := by
    have hrest := nodup_filterMap_gmail
      (fun other => decide (other.clientDraftId ≠ row.clientDraftId)) table.gmailIds
    cases hg : row.gmailDraftId with
    | none => rwa [List.filterMap_cons_none hg]
    | some g =>
      rw [List.filterMap_cons_some hg, List.nodup_cons]
      refine ⟨?_, hrest⟩
      intro hmem
      obtain ⟨other, hother, hkey⟩ := List.mem_filterMap.1 hmem
      obtain ⟨hin, hne⟩ := List.mem_filter.1 hother
      rcases h other hin (of_decide_eq_true hne) with hnone | hother
      · rw [hnone] at hkey
        cases hkey
      · exact hother (hkey.trans hg.symm)

/-- What a statement leaves behind: the row it returns, and the rows of other clients as
they were. -/
structure Wrote (before after : DraftTable) (row : ClientDraft) : Prop where
  returned : after.byClient row.clientDraftId = some row
  others : ∀ d, d ≠ row.clientDraftId → after.byClient d = before.byClient d

theorem DraftTable.put_wrote (table : DraftTable) (row : ClientDraft) (h : table.Admits row) :
    Wrote table (table.put row h) row where
  returned := (DraftTable.byClient_eq_some_iff _).2 ⟨List.mem_cons_self, rfl⟩
  others := by
    intro d hd
    unfold DraftTable.byClient DraftTable.put rowAt
    rw [List.find?_cons_of_neg (by simpa using fun heq => hd heq.symm), List.find?_filter]
    congr 1
    funext other
    by_cases hother : other.clientDraftId = d
    · simp [hother, hd]
    · simp [hother]

theorem DraftTable.admits_of_same_keys (table : DraftTable) {row new : ClientDraft}
    (hrow : table.byClient c = some row) (hclient : new.clientDraftId = c)
    (hgmail : new.gmailDraftId = row.gmailDraftId) : table.Admits new := by
  intro other hother hne
  by_cases hnone : other.gmailDraftId = none
  · exact Or.inl hnone
  refine Or.inr ?_
  intro heq
  obtain ⟨g, hg⟩ := Option.ne_none_iff_exists'.1 hnone
  obtain ⟨hmem, hkey⟩ := table.byClient_eq_some_iff.1 hrow
  have hsame := table.gmail_unique hother hmem hg (by rw [← hgmail, ← heq, hg])
  exact hne (by rw [hsame, hkey, hclient])

/-! ## The statements -/

/-- The arguments of `upsert_client_draft`. -/
structure DraftUpsert where
  clientDraftId : String
  gmailDraftId : Option String
  gmailMessageId : Option String
  gmailThreadId : Option String
  contentHash : String
  state : DraftState
  error : Option String := none

def DraftUpsert.row (u : DraftUpsert) : Option ClientDraft → ClientDraft
  | none =>
    ⟨u.clientDraftId, u.gmailDraftId, u.gmailMessageId, u.gmailThreadId, u.contentHash, u.state,
      none, none, u.error⟩
  | some stored =>
    { stored with
      clientDraftId := u.clientDraftId
      gmailDraftId := u.gmailDraftId.or stored.gmailDraftId
      gmailMessageId := u.gmailMessageId.or stored.gmailMessageId
      gmailThreadId := u.gmailThreadId.or stored.gmailThreadId
      contentHash := u.contentHash
      state := u.state
      error := u.error }

/-- `upsert_client_draft`: `none` when another row has the Gmail id. -/
def upsertClientDraft (table : DraftTable) (u : DraftUpsert) : Option (DraftTable × ClientDraft) :=
  let row := u.row (table.byClient u.clientDraftId)
  if h : table.Admits row then some (table.put row h, row) else none

/-- An `UPDATE ... WHERE client_draft_id = ... AND guard RETURNING *` that keeps both ids;
`none` when no row qualifies. -/
def updateClientDraft (table : DraftTable) (clientDraftId : String) (guard : ClientDraft → Bool)
    (set : ClientDraft → ClientDraft)
    (hset : ∀ row, (set row).clientDraftId = row.clientDraftId ∧
      (set row).gmailDraftId = row.gmailDraftId) : Option (DraftTable × ClientDraft) :=
  match h : table.byClient clientDraftId with
  | none => none
  | some row =>
    if guard row then
      some (table.put (set row) (table.admits_of_same_keys h
        ((hset row).1.trans (table.client_of_byClient h)) (hset row).2), set row)
    else none

/-- `mark_client_draft_sent`; the `UPDATE` has no guard on the state. -/
def markClientDraftSent (table : DraftTable) (clientDraftId clientSendId : String)
    (gmailMessageId gmailThreadId : Option String) : Option (DraftTable × ClientDraft) :=
  updateClientDraft table clientDraftId (fun _ => true)
    (fun row => { row with
      state := .sent
      lastClientSendId := some clientSendId
      sentMessageId := gmailMessageId
      gmailThreadId := gmailThreadId.or row.gmailThreadId
      error := none })
    (fun _ => ⟨rfl, rfl⟩)

def markClientDraftSending (table : DraftTable) (clientDraftId clientSendId : String) :
    Option (DraftTable × ClientDraft) :=
  updateClientDraft table clientDraftId (fun row => decide (row.state = .saved))
    (fun row => { row with
      state := .sending
      lastClientSendId := some clientSendId
      error := none })
    (fun _ => ⟨rfl, rfl⟩)

def restoreClientDraftAfterDefiniteSendFailure (table : DraftTable)
    (clientDraftId clientSendId error : String) : Option (DraftTable × ClientDraft) :=
  updateClientDraft table clientDraftId
    (fun row => decide (row.state = .sending ∧ row.lastClientSendId = some clientSendId))
    (fun row => { row with state := .saved, error := some error })
    (fun _ => ⟨rfl, rfl⟩)

def markClientDraftDeleted (table : DraftTable) (clientDraftId : String) :
    Option (DraftTable × ClientDraft) :=
  updateClientDraft table clientDraftId
    (fun row => decide (row.state ≠ .sending ∧ row.state ≠ .sent))
    (fun row => { row with state := .deleted, error := none })
    (fun _ => ⟨rfl, rfl⟩)

/-! ## What the statements do -/

@[simp] theorem DraftUpsert.row_clientDraftId (u : DraftUpsert) (stored : Option ClientDraft) :
    (u.row stored).clientDraftId = u.clientDraftId := by
  cases stored <;> rfl

@[simp] theorem DraftUpsert.row_state (u : DraftUpsert) (stored : Option ClientDraft) :
    (u.row stored).state = u.state := by
  cases stored <;> rfl

@[simp] theorem DraftUpsert.row_contentHash (u : DraftUpsert) (stored : Option ClientDraft) :
    (u.row stored).contentHash = u.contentHash := by
  cases stored <;> rfl

theorem DraftUpsert.row_gmailDraftId (u : DraftUpsert) (stored : Option ClientDraft) :
    (u.row stored).gmailDraftId = u.gmailDraftId.or (stored.bind ClientDraft.gmailDraftId) := by
  cases stored with
  | none => exact (Option.or_none).symm
  | some row => rfl

theorem upsertClientDraft_spec {table after : DraftTable} {u : DraftUpsert} {row : ClientDraft}
    (h : upsertClientDraft table u = some (after, row)) :
    row = u.row (table.byClient u.clientDraftId) ∧ Wrote table after row := by
  simp only [upsertClientDraft] at h
  split at h
  · case isTrue hadmits =>
      cases h
      exact ⟨rfl, table.put_wrote _ hadmits⟩
  · cases h

theorem updateClientDraft_spec {table after : DraftTable} {guard : ClientDraft → Bool}
    {set : ClientDraft → ClientDraft} {hset : ∀ row, (set row).clientDraftId = row.clientDraftId ∧
      (set row).gmailDraftId = row.gmailDraftId} {row : ClientDraft}
    (h : updateClientDraft table c guard set hset = some (after, row)) :
    ∃ stored, table.byClient c = some stored ∧ guard stored = true ∧ row = set stored ∧
      Wrote table after row := by
  unfold updateClientDraft at h
  split at h
  · cases h
  case h_2 stored hstored =>
    split at h
    · case isTrue hguard =>
        cases h
        exact ⟨stored, hstored, hguard, rfl, table.put_wrote _ _⟩
    · cases h

end ElectronicMail.Drafts
