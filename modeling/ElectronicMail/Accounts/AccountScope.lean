import ElectronicMail.Accounts.AccountMail

/-!
# The scope of account calls

What the calls of `account_mail.py` do to the tables of all accounts: a call changes and
returns rows of its own account only, and what it reads is what the last write with the
same keys stored, when the scope of its caller lets it see the account.

The routes set no scope, so all they read is the primary account
(`routeRead_misses`); `accountScope_iff` says that this is the only way a read goes
wrong, in every sequence of calls.
-/

namespace ElectronicMail.Accounts

open Foundations
open Foundations.Table
open Foundations.Versions
open Foundations.RowPolicy

/-! ## Statement of the contract -/

def ScopedCall.Owns {α : Type} (c : ScopedCall) (row : Scoped α) : Prop :=
  row.userId = c.userId ∧ row.gmailAccountId = c.gmailAccountId

def ScopedCall.key (c : ScopedCall) (id : String) : String × String × String :=
  (c.userId, c.gmailAccountId, id)

/-- The sends that `list_sends` asks for. -/
def ScopedCall.ListsSend (c : ScopedCall) (row : Scoped SendColumns) : Prop :=
  c.Owns row ∧ isListed row.columns.state = true

/-- The drafts that `get_draft` asks for. -/
def ScopedCall.AsksDraft (c : ScopedCall) (clientDraftId gmailDraftId : Option String)
    (row : Scoped DraftColumns) : Prop :=
  c.Owns row ∧ ∃ asked, draftColumn clientDraftId gmailDraftId = some asked ∧
    asked row.columns = true

/-- A call of a read gives what the last writes with the same keys stored, and a row that
a write gives is the one that is stored now. -/
def Answers (after : AccountStore) (c : ScopedCall) (result : AccountResult) : Prop :=
  match c.call with
  | .getSend serverSendId =>
    result = .send (rowAt (Scoped.key SendColumns.serverSendId) after.sends.log
      (c.key serverSendId))
  | .listSends limit =>
    ∃ rows, result = .sends rows ∧
      IsNewest (fun r : Scoped SendColumns => r.columns.updatedAt) (sendLimit limit)
        (fun r => IsCurrent (Scoped.key SendColumns.serverSendId) after.sends.log r ∧
          c.ListsSend r) rows
  | .getAction serverActionId =>
    result = .action (rowAt (Scoped.key ActionColumns.serverActionId) after.actions.log
      (c.key serverActionId))
  | .getDraft clientDraftId gmailDraftId =>
    ∃ found, result = .draft found ∧ ∀ row, found = some row ↔
      IsCurrent (Scoped.key fun row : DraftColumns => row.clientDraftId) after.drafts.log row ∧
        c.AsksDraft clientDraftId gmailDraftId row
  | .createOrGetSend _ clientSendId _ _ =>
    ∀ row, result = .send (some row) →
      rowAt (Scoped.key SendColumns.clientSendId) after.sends.log (c.key clientSendId) = some row
  | .updateSend serverSendId _ _ _ _ =>
    ∀ row, result = .send (some row) →
      rowAt (Scoped.key SendColumns.serverSendId) after.sends.log (c.key serverSendId) = some row
  | .createOrGetAction _ clientActionId _ _ =>
    ∀ row, result = .action (some row) →
      rowAt (Scoped.key ActionColumns.clientActionId) after.actions.log (c.key clientActionId)
        = some row
  | .updateAction serverActionId _ _ =>
    ∀ row, result = .action (some row) →
      rowAt (Scoped.key ActionColumns.serverActionId) after.actions.log (c.key serverActionId)
        = some row
  | .upsertDraft _ _ _ _ _ _ =>
    ∀ row, result = .draft (some row) →
      IsCurrent (Scoped.key fun row : DraftColumns => row.clientDraftId) after.drafts.log row
  | .updateDraftState clientDraftId _ _ _ _ =>
    ∀ row, result = .draft (some row) →
      rowAt (Scoped.key fun row : DraftColumns => row.clientDraftId) after.drafts.log
        (c.key clientDraftId) = some row

def AccountResult.accounts : AccountResult → List String
  | .send row => row.toList.map Scoped.gmailAccountId
  | .sends rows => rows.map Scoped.gmailAccountId
  | .action row => row.toList.map Scoped.gmailAccountId
  | .draft row => row.toList.map Scoped.gmailAccountId
  | .idempotencyConflict => []
  | .notPersisted => []
  | .databaseError => []
  | .workBlocked => []

def others {α : Type} (gmailAccountId : String) (t : Versioned (Scoped α)) : List (Scoped α) :=
  t.rows.filter fun r => decide (r.gmailAccountId ≠ gmailAccountId)

structure SameOthers (gmailAccountId : String) (s s' : AccountStore) : Prop where
  sends : others gmailAccountId s'.sends = others gmailAccountId s.sends
  actions : others gmailAccountId s'.actions = others gmailAccountId s.actions
  drafts : others gmailAccountId s'.drafts = others gmailAccountId s.drafts

section Contract

variable (primary : String → Option String) (digest : SendRequest → String)

/-- The call is exact: it reads what was written, returns rows of its account only and
changes no row of another one. -/
structure ScopeExact (s : AccountStore) (c : ScopedCall) : Prop where
  answers : Answers (callStep primary digest s c) c (runCall primary digest s c).2
  returned : ∀ account ∈ (runCall primary digest s c).2.accounts, account = c.gmailAccountId
  others : SameOthers c.gmailAccountId s (callStep primary digest s c)

/-- The scope of the caller is the account of the call: the one it has set, or without
one the primary account of the user. -/
def ScopedCall.Reaches (c : ScopedCall) : Prop :=
  accountScope (primary c.userId) c.caller.setting = some c.gmailAccountId

/-- A read either has the account as its scope, or asks for nothing that is stored. -/
def ScopeReached (s : AccountStore) (c : ScopedCall) : Prop :=
  match c.call with
  | .getSend serverSendId =>
    c.Reaches primary ∨ ∀ row ∈ s.sends.rows, row.key SendColumns.serverSendId ≠ c.key serverSendId
  | .listSends _ => c.Reaches primary ∨ ∀ row ∈ s.sends.rows, ¬ c.ListsSend row
  | .getAction serverActionId =>
    c.Reaches primary ∨
      ∀ row ∈ s.actions.rows, row.key ActionColumns.serverActionId ≠ c.key serverActionId
  | .getDraft clientDraftId gmailDraftId =>
    c.Reaches primary ∨ ∀ row ∈ s.drafts.rows, ¬ c.AsksDraft clientDraftId gmailDraftId row
  | _ => True

end Contract

/-! ## Inserts and updates -/

inductive CreateEffect {α : Type} (clientId serverId : α → String) (row : Scoped α)
    (t : Versioned (Scoped α)) : Versioned (Scoped α) × Created α → Prop where
  | refused : CreateEffect clientId serverId row t (t, .refused)
  | missing : CreateEffect clientId serverId row t (t, .missing)
  | found (r : Scoped α) (mem : r ∈ t.rows) (key : r.key clientId = row.key clientId) :
      CreateEffect clientId serverId row t (t, .found r)
  | inserted (client : ∀ r ∈ t.rows, r.key clientId ≠ row.key clientId)
      (server : ∀ r ∈ t.rows, r.key serverId ≠ row.key serverId) :
      CreateEffect clientId serverId row t (t.insert row, .inserted row)

variable {gmailAccountId : String}

section Rows

variable {α : Type} {t : Versioned (Scoped α)}

theorem createOrGetRow_effect (allows : Scoped α → Bool) (clientId serverId : α → String)
    (row : Scoped α) (t : Versioned (Scoped α)) :
    CreateEffect clientId serverId row t (createOrGetRow allows clientId serverId row t) := by
  unfold createOrGetRow
  split
  · exact .refused
  split
  · split
    · exact .missing
    · rename_i r hr
      obtain ⟨hmem, -, hkey⟩ := mem_select.1 (List.mem_of_mem_head? hr)
      exact .found r hmem (of_decide_eq_true hkey)
  · rename_i hclient
    split
    · exact .refused
    rename_i hserver
    refine .inserted ?_ ?_
    · intro r hr hkey
      simp only [Scoped.key, Prod.mk.injEq] at hkey
      exact hclient (List.any_eq_true.2 ⟨r, hr, by simp [hkey.2.1, hkey.2.2]⟩)
    · intro r hr hkey
      simp only [Scoped.key, Prod.mk.injEq] at hkey
      exact hserver (List.any_eq_true.2 ⟨r, hr, by simp [hkey.2.2]⟩)

variable {clientId serverId : α → String} {row : Scoped α}
  {result : Versioned (Scoped α) × Created α}

theorem CreateEffect.recorded (h : CreateEffect clientId serverId row t result)
    (hclient : t.Recorded (Scoped.key clientId)) (hserver : t.Recorded (Scoped.key serverId)) :
    result.1.Recorded (Scoped.key clientId) ∧ result.1.Recorded (Scoped.key serverId) := by
  cases h with
  | refused | missing | found r => exact ⟨hclient, hserver⟩
  | inserted hc hs => exact ⟨hclient.insert hc, hserver.insert hs⟩

theorem others_insert (h : row.gmailAccountId = gmailAccountId) :
    others gmailAccountId (t.insert row) = others gmailAccountId t := by
  show List.filter _ (t.rows ++ [row]) = List.filter _ t.rows
  simp [List.filter_append, h]

theorem others_update {p : Scoped α → Bool} {g : Scoped α → Scoped α}
    (hp : ∀ r, p r = true → r.gmailAccountId = gmailAccountId)
    (hg : ∀ r, (g r).gmailAccountId = r.gmailAccountId) :
    others gmailAccountId (t.update p g) = others gmailAccountId t := by
  unfold others
  rw [t.update_rows, updateWhere]
  generalize t.rows = rows
  induction rows with
  | nil => rfl
  | cons r rows ih =>
    rw [List.map_cons]
    by_cases hpr : p r = true
    · rw [if_pos hpr, List.filter_cons_of_neg (by simp [hg, hp r hpr]),
        List.filter_cons_of_neg (by simp [hp r hpr]), ih]
    · rw [if_neg hpr]
      simp only [List.filter_cons, ih]

theorem CreateEffect.others (h : CreateEffect clientId serverId row t result)
    (haccount : row.gmailAccountId = gmailAccountId) :
    others gmailAccountId result.1 = others gmailAccountId t := by
  cases h with
  | refused | missing | found r => rfl
  | inserted => exact others_insert haccount

theorem CreateEffect.current {r : Scoped α} (h : CreateEffect clientId serverId row t result)
    (hclient : t.Recorded (Scoped.key clientId))
    (hr : result.2 = .found r ∨ result.2 = .inserted r) :
    rowAt (Scoped.key clientId) result.1.log (row.key clientId) = some r := by
  cases h with
  | refused | missing => simp at hr
  | found r' hmem hkey =>
    obtain rfl : r' = r := by simpa using hr
    rw [← hkey]
    exact hclient.mem_rows_iff.1 hmem
  | inserted =>
    obtain rfl : row = r := by simpa using hr
    show rowAt _ (row :: t.log) _ = _
    rw [rowAt_cons, if_pos rfl]

end Rows

section Updates

variable {α : Type} {allows : Scoped α → Bool} {t : Versioned (Scoped α)} {column : α → String}
  {key : String × String × String} {f : α → α}

/-- An update by a key keeps the record of every key that the `SET` keeps. -/
theorem updateRow_recorded (hcolumn : t.Recorded (Scoped.key column)) {other : α → String}
    (hother : t.Recorded (Scoped.key other)) (hkeep : ∀ x, other (f x) = other x) :
    (updateRow allows column key f t).1.Recorded (Scoped.key other) := by
  apply hother.update
  · intro r hr r' hr' hp hp'
    simp only [Bool.and_eq_true, decide_eq_true_eq] at hp hp'
    exact hcolumn.eq_of_key hr hr' (hp.2.trans hp'.2.symm)
  · intro r hr hp
    simp [Scoped.key, hkeep]

theorem others_updateRow (haccount : key.2.1 = gmailAccountId) :
    others gmailAccountId (updateRow allows column key f t).1 = others gmailAccountId t := by
  apply others_update
  · intro r hp
    simp only [Bool.and_eq_true, decide_eq_true_eq] at hp
    rw [← haccount, ← hp.2]
    rfl
  · intro r
    rfl

theorem updateRow_account {row : Scoped α} (hrow : (updateRow allows column key f t).2 = some row)
    (haccount : key.2.1 = gmailAccountId) :
    row.gmailAccountId = gmailAccountId := by
  obtain ⟨r, hfind, rfl⟩ := Option.map_eq_some_iff.1 hrow
  have hp := List.find?_some hfind
  simp only [Bool.and_eq_true, decide_eq_true_eq] at hp
  rw [← haccount, ← hp.2]
  rfl

theorem updateRow_current (hkeep : ∀ x, column (f x) = column x) {row : Scoped α}
    (hrow : (updateRow allows column key f t).2 = some row) :
    row.key column = key ∧
      rowAt (Scoped.key column) (updateRow allows column key f t).1.log key = some row := by
  unfold updateRow at hrow ⊢
  dsimp only at hrow ⊢
  obtain ⟨r, hfind, rfl⟩ := Option.map_eq_some_iff.1 hrow
  have hp := List.find?_some hfind
  simp only [Bool.and_eq_true, decide_eq_true_eq] at hp
  have hnew : Scoped.key column { r with columns := f r.columns } = key := by
    rw [← hp.2]
    simp [Scoped.key, hkeep]
  refine ⟨hnew, ?_⟩
  unfold Versioned.update
  rw [hfind]
  show rowAt _ (_ :: t.log) _ = _
  rw [rowAt_cons, if_pos hnew]

end Updates

/-! ## Drafts -/

/-- What the unique columns of `gmail_client_drafts` say about the rows. -/
structure DraftsUnique (rows : List (Scoped DraftColumns)) : Prop where
  client : ∀ r ∈ rows, ∀ r' ∈ rows, r.gmailAccountId = r'.gmailAccountId →
    r.columns.clientDraftId = r'.columns.clientDraftId → r = r'
  gmail : ∀ r ∈ rows, ∀ r' ∈ rows, r.gmailAccountId = r'.gmailAccountId →
    r.columns.gmailDraftId = r'.columns.gmailDraftId → r.columns.gmailDraftId.isSome → r = r'

abbrev draftKey : Scoped DraftColumns → String × String × String :=
  Scoped.key fun row : DraftColumns => row.clientDraftId

variable {t : Versioned (Scoped DraftColumns)} {f : DraftColumns → DraftColumns}

theorem DraftsUnique.updateRow {allows : Scoped DraftColumns → Bool}
    {column : DraftColumns → String} {key : String × String × String} (h : DraftsUnique t.rows)
    (hclient : ∀ x, (f x).clientDraftId = x.clientDraftId)
    (hgmail : ∀ x, (f x).gmailDraftId = x.gmailDraftId) :
    DraftsUnique (updateRow allows column key f t).1.rows := by
  have hrows : (Accounts.updateRow allows column key f t).1.rows = updateWhere _ _ t.rows :=
    t.update_rows _ _
  rw [hrows, updateWhere]
  constructor
  · intro x hx x' hx' haccount hc
    obtain ⟨r, hr, rfl⟩ := List.mem_map.1 hx
    obtain ⟨r', hr', rfl⟩ := List.mem_map.1 hx'
    rw [h.client r hr r' hr']
    · split at haccount <;> split at haccount <;> exact haccount
    · split at hc <;> split at hc <;> simpa [hclient] using hc
  · intro x hx x' hx' haccount hg hsome
    obtain ⟨r, hr, rfl⟩ := List.mem_map.1 hx
    obtain ⟨r', hr', rfl⟩ := List.mem_map.1 hx'
    rw [h.gmail r hr r' hr']
    · split at haccount <;> split at haccount <;> exact haccount
    · split at hg <;> split at hg <;> simpa [hgmail] using hg
    · split at hsome <;> simpa [hgmail] using hsome

inductive UpsertEffect (new : Scoped DraftColumns) (f : DraftColumns → DraftColumns)
    (t : Versioned (Scoped DraftColumns)) :
    Versioned (Scoped DraftColumns) × Option (Scoped DraftColumns) → Prop where
  | refused : UpsertEffect new f t (t, none)
  | inserted
      (client : ∀ r ∈ t.rows, r.gmailAccountId = new.gmailAccountId →
        r.columns.clientDraftId ≠ new.columns.clientDraftId)
      (free : gmailDraftTaken t.rows new = false) :
      UpsertEffect new f t (t.insert new, some new)
  | updated (p : Scoped DraftColumns → Bool) (r : Scoped DraftColumns)
      (found : t.rows.find? p = some r)
      (selects : ∀ x, p x = true ↔ x.gmailAccountId = new.gmailAccountId ∧
        x.columns.clientDraftId = new.columns.clientDraftId)
      (free : gmailDraftTaken t.rows { r with columns := f r.columns } = false) :
      UpsertEffect new f t (t.update p fun x => { x with columns := f x.columns },
        some { r with columns := f r.columns })

theorem upsertRow_effect (allows : Scoped DraftColumns → Bool) (new : Scoped DraftColumns)
    (f : DraftColumns → DraftColumns) (t : Versioned (Scoped DraftColumns)) :
    UpsertEffect new f t (upsertRow allows new f t) := by
  unfold upsertRow
  dsimp only
  split
  · exact .refused
  split
  · rename_i hfind
    split
    · exact .refused
    rename_i hfree
    refine .inserted ?_ (Bool.eq_false_iff.2 hfree)
    intro r hr haccount hclient
    exact List.find?_eq_none.1 hfind r hr (decide_eq_true ⟨haccount, hclient⟩)
  · rename_i r hfind
    split
    · exact .refused
    rename_i hfree
    rw [Bool.or_eq_true, not_or] at hfree
    exact .updated _ r hfind (fun x => decide_eq_true_iff) (Bool.eq_false_iff.2 hfree.2)

variable {row : Scoped DraftColumns}

theorem client_of_free {rows : List (Scoped DraftColumns)}
    (h : gmailDraftTaken rows row = false) {r : Scoped DraftColumns} (hr : r ∈ rows)
    (haccount : r.gmailAccountId = row.gmailAccountId)
    (hgmail : r.columns.gmailDraftId = row.columns.gmailDraftId)
    (hsome : r.columns.gmailDraftId.isSome) :
    r.columns.clientDraftId = row.columns.clientDraftId := by
  by_contra hne
  refine Bool.eq_false_iff.1 h (List.any_eq_true.2 ⟨r, hr, ?_⟩)
  exact decide_eq_true ⟨haccount, hne, hsome, hgmail⟩

variable {new : Scoped DraftColumns}
  {result : Versioned (Scoped DraftColumns) × Option (Scoped DraftColumns)}

theorem UpsertEffect.others (h : UpsertEffect new f t result)
    (haccount : new.gmailAccountId = gmailAccountId) :
    others gmailAccountId result.1 = others gmailAccountId t := by
  cases h with
  | refused => rfl
  | inserted => exact others_insert haccount
  | updated p r hfind hp =>
    apply others_update
    · intro x hx
      exact ((hp x).1 hx).1.trans haccount
    · intro x
      rfl

theorem mem_update_cases {p : Scoped DraftColumns → Bool} {x : Scoped DraftColumns}
    (hx : x ∈ (t.update p fun x => { x with columns := f x.columns }).rows) :
    (x ∈ t.rows ∧ p x = false) ∨
      ∃ r ∈ t.rows, p r = true ∧ x = { r with columns := f r.columns } := by
  rw [t.update_rows] at hx
  obtain ⟨r, hr, rfl⟩ := mem_updateWhere.1 hx
  by_cases hp : p r = true
  · exact Or.inr ⟨r, hr, hp, if_pos hp⟩
  · rw [if_neg hp]
    exact Or.inl ⟨hr, Bool.eq_false_iff.2 hp⟩

theorem UpsertEffect.recorded (h : UpsertEffect new f t result)
    (hf : ∀ x, (f x).clientDraftId = x.clientDraftId) (hkey : t.Recorded draftKey)
    (hunique : DraftsUnique t.rows) : result.1.Recorded draftKey ∧ DraftsUnique result.1.rows := by
  cases h with
  | refused => exact ⟨hkey, hunique⟩
  | inserted hclient hfree =>
    refine ⟨hkey.insert ?_, ?_, ?_⟩
    · intro r hr hsame
      simp only [draftKey, Scoped.key, Prod.mk.injEq] at hsame
      exact hclient r hr hsame.2.1 hsame.2.2
    · intro r hr r' hr' haccount hc
      rcases List.mem_append.1 hr with hold | hnew <;>
        rcases List.mem_append.1 hr' with hold' | hnew'
      · exact hunique.client r hold r' hold' haccount hc
      · obtain rfl := List.mem_singleton.1 hnew'
        exact absurd hc (hclient r hold haccount)
      · obtain rfl := List.mem_singleton.1 hnew
        exact absurd hc.symm (hclient r' hold' haccount.symm)
      · rw [List.mem_singleton.1 hnew, List.mem_singleton.1 hnew']
    · intro r hr r' hr' haccount hg hsome
      rcases List.mem_append.1 hr with hold | hnew <;>
        rcases List.mem_append.1 hr' with hold' | hnew'
      · exact hunique.gmail r hold r' hold' haccount hg hsome
      · obtain rfl := List.mem_singleton.1 hnew'
        exact absurd (client_of_free hfree hold haccount hg hsome) (hclient r hold haccount)
      · obtain rfl := List.mem_singleton.1 hnew
        exact absurd (client_of_free hfree hold' haccount.symm hg.symm (hg ▸ hsome))
          (hclient r' hold' haccount.symm)
      · rw [List.mem_singleton.1 hnew, List.mem_singleton.1 hnew']
  | updated p r hfind hp hfree =>
    have hmem : r ∈ t.rows := List.mem_of_find?_eq_some hfind
    have hone : ∀ x ∈ t.rows, p x = true → x = r := by
      intro x hx hpx
      have hr := (hp r).1 (List.find?_some hfind)
      have hx' := (hp x).1 hpx
      exact hunique.client x hx r hmem (hx'.1.trans hr.1.symm) (hx'.2.trans hr.2.symm)
    have hout : ∀ x ∈ t.rows, p x = false → x.gmailAccountId = r.gmailAccountId →
        x.columns.clientDraftId ≠ r.columns.clientDraftId := by
      intro x hx hpx haccount hc
      rw [hunique.client x hx r hmem haccount hc, List.find?_some hfind] at hpx
      cases hpx
    refine ⟨hkey.update ?_ ?_, ?_, ?_⟩
    · intro x hx x' hx' hpx hpx'
      rw [hone x hx hpx, hone x' hx' hpx']
    · intro x hx hpx
      simp [draftKey, Scoped.key, hf]
    · intro x hx x' hx' haccount hc
      rcases mem_update_cases hx with ⟨hold, hpx⟩ | ⟨y, hy, hpy, rfl⟩ <;>
        rcases mem_update_cases hx' with ⟨hold', hpx'⟩ | ⟨y', hy', hpy', rfl⟩
      · exact hunique.client x hold x' hold' haccount hc
      · obtain rfl := hone y' hy' hpy'
        exact absurd (hc.trans (hf _)) (hout x hold hpx haccount)
      · obtain rfl := hone y hy hpy
        exact absurd (hc.symm.trans (hf _)) (hout x' hold' hpx' haccount.symm)
      · rw [hone y hy hpy, hone y' hy' hpy']
    · intro x hx x' hx' haccount hg hsome
      rcases mem_update_cases hx with ⟨hold, hpx⟩ | ⟨y, hy, hpy, rfl⟩ <;>
        rcases mem_update_cases hx' with ⟨hold', hpx'⟩ | ⟨y', hy', hpy', rfl⟩
      · exact hunique.gmail x hold x' hold' haccount hg hsome
      · obtain rfl := hone y' hy' hpy'
        exact absurd ((client_of_free hfree hold haccount hg hsome).trans (hf _))
          (hout x hold hpx haccount)
      · obtain rfl := hone y hy hpy
        exact absurd ((client_of_free hfree hold' haccount.symm hg.symm (hg ▸ hsome)).trans (hf _))
          (hout x' hold' hpx' haccount.symm)
      · rw [hone y hy hpy, hone y' hy' hpy']

theorem UpsertEffect.current (h : UpsertEffect new f t result) (hrow : result.2 = some row) :
    IsCurrent draftKey result.1.log row ∧ row.gmailAccountId = new.gmailAccountId := by
  cases h with
  | refused => cases hrow
  | inserted =>
    obtain rfl := Option.some.inj hrow
    refine ⟨?_, rfl⟩
    show rowAt draftKey (new :: t.log) (draftKey new) = _
    rw [rowAt_cons, if_pos rfl]
  | updated p r hfind hp =>
    obtain rfl := Option.some.inj hrow
    refine ⟨?_, ((hp r).1 (List.find?_some hfind)).1⟩
    show rowAt draftKey (t.update p _).log _ = _
    unfold Versioned.update
    rw [hfind]
    show rowAt draftKey (_ :: t.log) _ = _
    rw [rowAt_cons, if_pos rfl]

/-! ## Reads -/

section Reads

variable {primary : String → Option String} {c : ScopedCall}

theorem allowed_of_owns {α : Type} {row : Scoped α} (h : c.Owns row) :
    row.allowed primary c.caller.setting = true ↔ c.Reaches primary := by
  unfold Scoped.allowed allowsAccount ScopedCall.Reaches
  rw [h.1, h.2, decide_eq_true_iff]

theorem select_owned {α : Type} {p : Scoped α → Bool} (hp : ∀ r, p r = true → c.Owns r)
    (rows : List (Scoped α)) [Decidable (c.Reaches primary)] :
    select (Scoped.allowed primary c.caller.setting) p rows =
      if c.Reaches primary then rows.filter p else [] := by
  split
  · rename_i h
    exact select_of_allowed fun r _ hr => (allowed_of_owns (hp r hr)).2 h
  · rename_i h
    exact select_of_refused fun r _ hr =>
      Bool.eq_false_iff.2 fun hallowed => h ((allowed_of_owns (hp r hr)).1 hallowed)

theorem selectKey_account {α : Type} {allows : Scoped α → Bool} {column : α → String}
    {rows : List (Scoped α)} {id : String} {row : Scoped α}
    (h : (select allows (fun r => decide (r.key column = (c.userId, c.gmailAccountId, id)))
      rows).head? = some row) : row.gmailAccountId = c.gmailAccountId := by
  have hkey := of_decide_eq_true (mem_select.1 (List.mem_of_mem_head? h)).2.2
  simp only [Scoped.key, Prod.mk.injEq] at hkey
  exact hkey.2.1

/-- A read by a key gives the last version exactly when it sees the account or there is
no such row. -/
theorem readKey_iff {α : Type} {column : α → String} {t : Versioned (Scoped α)}
    (ht : t.Recorded (Scoped.key column)) (id : String) :
    (select (Scoped.allowed primary c.caller.setting)
        (fun r => decide (r.key column = (c.userId, c.gmailAccountId, id))) t.rows).head?
        = rowAt (Scoped.key column) t.log (c.key id) ↔
      c.Reaches primary ∨ ∀ row ∈ t.rows, row.key column ≠ c.key id := by
  classical
  have howns : ∀ r : Scoped α,
      decide (r.key column = (c.userId, c.gmailAccountId, id)) = true → c.Owns r := by
    intro r hr
    have hkey := of_decide_eq_true hr
    simp only [Scoped.key, Prod.mk.injEq] at hkey
    exact ⟨hkey.1, hkey.2.1⟩
  rw [select_owned howns, ← ht.newest]
  by_cases h : c.Reaches primary
  · rw [if_pos h, List.head?_filter]
    exact iff_of_true rfl (Or.inl h)
  · rw [if_neg h, List.head?_nil, eq_comm, rowAt_eq_none]
    exact ⟨Or.inr, fun h' => h'.resolve_left h⟩

theorem head?_filter_eq_some {α : Type} {p : α → Bool} {rows : List α}
    (hone : ∀ r ∈ rows, ∀ r' ∈ rows, p r = true → p r' = true → r = r') {row : α} :
    (rows.filter p).head? = some row ↔ row ∈ rows ∧ p row = true := by
  constructor
  · intro h
    exact List.mem_filter.1 (List.mem_of_mem_head? h)
  rintro ⟨hmem, hp⟩
  cases hfound : (rows.filter p).head? with
  | none =>
    rw [List.head?_eq_none_iff, List.filter_eq_nil_iff] at hfound
    exact absurd hp (hfound row hmem)
  | some r =>
    obtain ⟨hr, hpr⟩ := List.mem_filter.1 (List.mem_of_mem_head? hfound)
    rw [hone r hr row hmem hpr hp]

/-- `list_sends` gives the newest of the current sends exactly when it sees the account
or there is none to list. -/
theorem readSends_iff {t : Versioned (Scoped SendColumns)}
    (ht : t.Recorded (Scoped.key SendColumns.serverSendId)) (limit : Int) :
    IsNewest (fun r : Scoped SendColumns => r.columns.updatedAt) (sendLimit limit)
        (fun r => IsCurrent (Scoped.key SendColumns.serverSendId) t.log r ∧ c.ListsSend r)
        (newestFirst (fun r => r.columns.updatedAt) (sendLimit limit)
          (select (Scoped.allowed primary c.caller.setting)
            (fun r => decide (r.userId = c.userId ∧ r.gmailAccountId = c.gmailAccountId) &&
              isListed r.columns.state) t.rows)) ↔
      c.Reaches primary ∨ ∀ row ∈ t.rows, ¬ c.ListsSend row := by
  classical
  have hp : ∀ r : Scoped SendColumns,
      (decide (r.userId = c.userId ∧ r.gmailAccountId = c.gmailAccountId) &&
        isListed r.columns.state) = true ↔ c.ListsSend r := by
    intro r
    simp [ScopedCall.ListsSend, ScopedCall.Owns]
  rw [select_owned fun r hr => ((hp r).1 hr).1]
  simp only [← ht.mem_rows_iff]
  by_cases h : c.Reaches primary
  · rw [if_pos h]
    refine iff_of_true ?_ (Or.inl h)
    have hpage := newestFirst_isNewest (fun r : Scoped SendColumns => r.columns.updatedAt)
      (n := sendLimit limit) ((List.Nodup.of_map _ ht.keys).filter fun r =>
        decide (r.userId = c.userId ∧ r.gmailAccountId = c.gmailAccountId) &&
          isListed r.columns.state)
    have hamong : (fun r => r ∈ t.rows ∧ c.ListsSend r) = fun r => r ∈ t.rows.filter fun r =>
        decide (r.userId = c.userId ∧ r.gmailAccountId = c.gmailAccountId) &&
          isListed r.columns.state := by
      funext r
      rw [List.mem_filter, hp r]
    rw [hamong]
    exact hpage
  · rw [if_neg h]
    have hpos : 0 < sendLimit limit := by
      unfold sendLimit
      omega
    show IsNewest _ _ _ (List.take _ []) ↔ _
    rw [List.take_nil, isNewest_nil_iff hpos]
    constructor
    · intro hnone
      exact Or.inr fun row hrow hlists => hnone row ⟨hrow, hlists⟩
    · intro hnone row hrow
      exact hnone.resolve_left h row hrow.1 hrow.2

/-- Drafts that one `get_draft` asks for are one draft. -/
theorem asksDraft_unique {rows : List (Scoped DraftColumns)} (h : DraftsUnique rows)
    {clientDraftId gmailDraftId : Option String} {r r' : Scoped DraftColumns} (hr : r ∈ rows)
    (hr' : r' ∈ rows) (hask : c.AsksDraft clientDraftId gmailDraftId r)
    (hask' : c.AsksDraft clientDraftId gmailDraftId r') : r = r' := by
  obtain ⟨howns, asked, hcolumn, hasked⟩ := hask
  obtain ⟨howns', asked', hcolumn', hasked'⟩ := hask'
  obtain rfl := Option.some.inj (hcolumn.symm.trans hcolumn')
  have haccount : r.gmailAccountId = r'.gmailAccountId := howns.2.trans howns'.2.symm
  unfold draftColumn at hcolumn
  split at hcolumn
  · obtain rfl := Option.some.inj hcolumn
    rw [decide_eq_true_iff] at hasked hasked'
    exact h.client r hr r' hr' haccount (Option.some.inj (hasked.trans hasked'.symm))
  · split at hcolumn
    · rename_i hgmail
      obtain rfl := Option.some.inj hcolumn
      rw [decide_eq_true_iff] at hasked hasked'
      refine h.gmail r hr r' hr' haccount (hasked.trans hasked'.symm) ?_
      rw [hasked]
      cases gmailDraftId with
      | none => cases hgmail
      | some g => rfl
    · cases hcolumn

/-- `get_draft` gives the current draft exactly when it sees the account or there is no
such draft. -/
theorem readDraft_iff {t : Versioned (Scoped DraftColumns)} (ht : t.Recorded draftKey)
    (hunique : DraftsUnique t.rows) (clientDraftId gmailDraftId : Option String) :
    (∀ row, (draftColumn clientDraftId gmailDraftId).bind (fun asked =>
        (select (Scoped.allowed primary c.caller.setting)
          (fun r => decide (r.userId = c.userId ∧ r.gmailAccountId = c.gmailAccountId) &&
            asked r.columns) t.rows).head?) = some row ↔
        IsCurrent draftKey t.log row ∧ c.AsksDraft clientDraftId gmailDraftId row) ↔
      c.Reaches primary ∨ ∀ row ∈ t.rows, ¬ c.AsksDraft clientDraftId gmailDraftId row := by
  classical
  simp only [← ht.mem_rows_iff]
  cases hcolumn : draftColumn clientDraftId gmailDraftId with
  | none =>
    have hnot : ∀ row, ¬ c.AsksDraft clientDraftId gmailDraftId row := by
      rintro row ⟨-, asked, hasked, -⟩
      rw [hcolumn] at hasked
      cases hasked
    simp [hnot]
  | some asked =>
    have hp : ∀ r : Scoped DraftColumns,
        (decide (r.userId = c.userId ∧ r.gmailAccountId = c.gmailAccountId) &&
          asked r.columns) = true ↔ c.AsksDraft clientDraftId gmailDraftId r := by
      intro r
      simp [ScopedCall.AsksDraft, ScopedCall.Owns, hcolumn]
    rw [Option.bind_some, select_owned fun r hr => ((hp r).1 hr).1]
    by_cases h : c.Reaches primary
    · rw [if_pos h]
      refine iff_of_true ?_ (Or.inl h)
      intro row
      rw [head?_filter_eq_some, hp row]
      intro r hr r' hr' hpr hpr'
      exact asksDraft_unique hunique hr hr' ((hp r).1 hpr) ((hp r').1 hpr')
    · rw [if_neg h]
      constructor
      · intro hnone
        refine Or.inr fun row hrow hask => ?_
        cases (hnone row).2 ⟨hrow, hask⟩
      · intro hnone row
        constructor
        · intro hfound
          cases hfound
        · rintro ⟨hrow, hask⟩
          exact absurd hask (hnone.resolve_left h row hrow)

end Reads

/-! ## Runs -/

/-- The tables hold the newest version of every row, by each of its unique columns. -/
structure StoreOk (s : AccountStore) : Prop where
  sendServer : s.sends.Recorded (Scoped.key SendColumns.serverSendId)
  sendClient : s.sends.Recorded (Scoped.key SendColumns.clientSendId)
  actionServer : s.actions.Recorded (Scoped.key ActionColumns.serverActionId)
  actionClient : s.actions.Recorded (Scoped.key ActionColumns.clientActionId)
  draft : s.drafts.Recorded draftKey
  draftsUnique : DraftsUnique s.drafts.rows

theorem storeOk_initial : StoreOk .initial :=
  ⟨recorded_empty, recorded_empty, recorded_empty, recorded_empty, recorded_empty,
    ⟨fun _ h => (nomatch h), fun _ h => (nomatch h)⟩⟩

section Runs

variable {primary : String → Option String} {digest : SendRequest → String}

theorem guarded_cases {P : AccountStore × AccountResult → Prop} {c : ScopedCall} {s : AccountStore}
    {write : AccountStore × AccountResult} (hwrite : P write) (hblocked : P (s, .workBlocked)) :
    P (guarded c s write) := by
  unfold guarded
  split
  · exact hwrite
  · exact hblocked

theorem storeOk_step (s : AccountStore) (c : ScopedCall) (hs : StoreOk s) :
    StoreOk (callStep primary digest s c) := by
  have hguarded : ∀ {write : AccountStore × AccountResult}, StoreOk write.1 →
      StoreOk (guarded c s write).1 := fun h => guarded_cases (P := fun r => StoreOk r.1) h hs
  unfold callStep runCall
  cases c.call with
  | createOrGetSend serverSendId clientSendId request createdAt =>
    refine hguarded ?_
    obtain ⟨hclient, hserver⟩ :=
      (createOrGetRow_effect (Scoped.allowed primary c.gmailAccountId) SendColumns.clientSendId
        SendColumns.serverSendId ⟨c.userId, c.gmailAccountId, newSend (digest request)
          serverSendId clientSendId request createdAt c.now⟩ s.sends).recorded hs.sendClient hs.sendServer
    exact { hs with sendServer := hserver, sendClient := hclient }
  | updateSend =>
    exact hguarded { hs with
      sendServer := updateRow_recorded hs.sendServer hs.sendServer fun _ => rfl
      sendClient := updateRow_recorded hs.sendServer hs.sendClient fun _ => rfl }
  | getSend | listSends | getAction | getDraft => exact hs
  | createOrGetAction serverActionId clientActionId request createdAt =>
    refine hguarded ?_
    obtain ⟨hclient, hserver⟩ :=
      (createOrGetRow_effect (Scoped.allowed primary c.gmailAccountId) ActionColumns.clientActionId
        ActionColumns.serverActionId ⟨c.userId, c.gmailAccountId, newAction serverActionId
          clientActionId request createdAt c.now⟩ s.actions).recorded hs.actionClient hs.actionServer
    exact { hs with actionServer := hserver, actionClient := hclient }
  | updateAction =>
    exact hguarded { hs with
      actionServer := updateRow_recorded hs.actionServer hs.actionServer fun _ => rfl
      actionClient := updateRow_recorded hs.actionServer hs.actionClient fun _ => rfl }
  | upsertDraft clientDraftId gmailDraftId gmailMessageId gmailThreadId contentHash createdAt =>
    refine hguarded ?_
    obtain ⟨hdraft, hunique⟩ :=
      (upsertRow_effect (Scoped.allowed primary c.gmailAccountId)
        ⟨c.userId, c.gmailAccountId, newDraft clientDraftId gmailDraftId gmailMessageId
          gmailThreadId contentHash createdAt c.now⟩
        (setDraft clientDraftId gmailDraftId gmailMessageId gmailThreadId contentHash c.now)
        s.drafts).recorded (fun _ => rfl) hs.draft hs.draftsUnique
    exact { hs with draft := hdraft, draftsUnique := hunique }
  | updateDraftState =>
    exact hguarded { hs with
      draft := updateRow_recorded hs.draft hs.draft fun _ => rfl
      draftsUnique := hs.draftsUnique.updateRow (fun _ => rfl) fun _ => rfl }

theorem sameOthers_step (s : AccountStore) (c : ScopedCall) :
    SameOthers c.gmailAccountId s (callStep primary digest s c) := by
  have hsame : SameOthers c.gmailAccountId s s := ⟨rfl, rfl, rfl⟩
  have hguarded : ∀ {write : AccountStore × AccountResult}, SameOthers c.gmailAccountId s write.1 →
      SameOthers c.gmailAccountId s (guarded c s write).1 :=
    fun h => guarded_cases (P := fun r => SameOthers c.gmailAccountId s r.1) h hsame
  unfold callStep runCall
  cases c.call with
  | createOrGetSend =>
    exact hguarded { hsame with sends := (createOrGetRow_effect _ _ _ _ s.sends).others rfl }
  | updateSend =>
    exact hguarded { hsame with sends := others_updateRow rfl }
  | getSend | listSends | getAction | getDraft => exact hsame
  | createOrGetAction =>
    exact hguarded { hsame with actions := (createOrGetRow_effect _ _ _ _ s.actions).others rfl }
  | updateAction =>
    exact hguarded { hsame with actions := others_updateRow rfl }
  | upsertDraft =>
    exact hguarded { hsame with drafts := (upsertRow_effect _ _ _ s.drafts).others rfl }
  | updateDraftState =>
    exact hguarded { hsame with drafts := others_updateRow rfl }

theorem sendCreated_eq_send {requestHash : String} {created : Created SendColumns}
    {row : Scoped SendColumns} (h : sendCreated requestHash created = .send (some row)) :
    created = .found row ∨ created = .inserted row := by
  cases created with
  | refused | missing => cases h
  | found r =>
    simp only [sendCreated] at h
    split at h
    · cases h
    · cases h
      exact Or.inl rfl
  | inserted r =>
    cases h
    exact Or.inr rfl

theorem actionCreated_eq_action {request : AccountActionRequest} {created : Created ActionColumns}
    {row : Scoped ActionColumns} (h : actionCreated request created = .action (some row)) :
    created = .found row ∨ created = .inserted row := by
  cases created with
  | refused | missing => cases h
  | found r =>
    simp only [actionCreated] at h
    split at h
    · cases h
    · cases h
      exact Or.inl rfl
  | inserted r =>
    cases h
    exact Or.inr rfl

theorem draftUpserted_eq_draft {upserted : Option (Scoped DraftColumns)}
    (h : (upserted.elim .databaseError fun row => .draft (some row)) =
      AccountResult.draft (some row)) : upserted = some row := by
  cases upserted with
  | none => cases h
  | some r =>
    cases h
    rfl

theorem mem_accounts {α : Type} {row : Option (Scoped α)} {account : String}
    (h : account ∈ row.toList.map Scoped.gmailAccountId) :
    ∃ r, row = some r ∧ r.gmailAccountId = account := by
  obtain ⟨r, hr, haccount⟩ := List.mem_map.1 h
  exact ⟨r, Option.mem_toList.1 hr, haccount⟩

theorem sendCreated_accounts {requestHash : String} {created : Created SendColumns}
    {account : String} (h : account ∈ (sendCreated requestHash created).accounts) :
    ∃ r, (created = .found r ∨ created = .inserted r) ∧ r.gmailAccountId = account := by
  cases hresult : sendCreated requestHash created with
  | send row =>
    rw [hresult] at h
    obtain ⟨r, rfl, haccount⟩ := mem_accounts h
    exact ⟨r, sendCreated_eq_send hresult, haccount⟩
  | _ => cases created <;> grind [sendCreated, AccountResult.accounts]

theorem actionCreated_accounts {request : AccountActionRequest} {created : Created ActionColumns}
    {account : String} (h : account ∈ (actionCreated request created).accounts) :
    ∃ r, (created = .found r ∨ created = .inserted r) ∧ r.gmailAccountId = account := by
  cases hresult : actionCreated request created with
  | action row =>
    rw [hresult] at h
    obtain ⟨r, rfl, haccount⟩ := mem_accounts h
    exact ⟨r, actionCreated_eq_action hresult, haccount⟩
  | _ => cases created <;> grind [actionCreated, AccountResult.accounts]

theorem CreateEffect.account {α : Type} {t : Versioned (Scoped α)} {clientId serverId : α → String}
    {row r : Scoped α} {result : Versioned (Scoped α) × Created α}
    (h : CreateEffect clientId serverId row t result)
    (hr : result.2 = .found r ∨ result.2 = .inserted r) :
    r.gmailAccountId = row.gmailAccountId := by
  cases h with
  | refused | missing => simp at hr
  | found r' hmem hkey =>
    obtain rfl : r' = r := by simpa using hr
    simp only [Scoped.key, Prod.mk.injEq] at hkey
    exact hkey.2.1
  | inserted =>
    obtain rfl : row = r := by simpa using hr
    rfl

theorem returned_step (s : AccountStore) (c : ScopedCall) :
    ∀ account ∈ (runCall primary digest s c).2.accounts, account = c.gmailAccountId := by
  have hguarded : ∀ {write : AccountStore × AccountResult},
      (∀ account ∈ write.2.accounts, account = c.gmailAccountId) →
        ∀ account ∈ (guarded c s write).2.accounts, account = c.gmailAccountId := fun h =>
    guarded_cases (P := fun r => ∀ account ∈ r.2.accounts, account = c.gmailAccountId) h
      fun _ h => nomatch h
  unfold runCall
  cases c.call with
  | createOrGetSend =>
    refine hguarded fun account haccount => ?_
    obtain ⟨r, hr, rfl⟩ := sendCreated_accounts haccount
    exact (createOrGetRow_effect _ _ _ _ s.sends).account hr
  | updateSend | updateAction | updateDraftState =>
    refine hguarded fun account haccount => ?_
    obtain ⟨r, hr, rfl⟩ := mem_accounts haccount
    exact updateRow_account hr rfl
  | getSend | getAction =>
    intro account haccount
    obtain ⟨r, hr, rfl⟩ := mem_accounts haccount
    exact selectKey_account hr
  | listSends =>
    intro account haccount
    obtain ⟨r, hr, rfl⟩ := List.mem_map.1 haccount
    have hmem := (List.mem_insertionSort _).1 (List.mem_of_mem_take hr)
    have hp := (mem_select.1 hmem).2.2
    rw [Bool.and_eq_true, decide_eq_true_iff] at hp
    exact hp.1.2
  | createOrGetAction =>
    refine hguarded fun account haccount => ?_
    obtain ⟨r, hr, rfl⟩ := actionCreated_accounts haccount
    exact (createOrGetRow_effect _ _ _ _ s.actions).account hr
  | upsertDraft clientDraftId gmailDraftId gmailMessageId gmailThreadId contentHash createdAt =>
    refine hguarded fun account haccount => ?_
    dsimp only at haccount
    have heffect := upsertRow_effect (Scoped.allowed primary c.gmailAccountId)
      ⟨c.userId, c.gmailAccountId, newDraft clientDraftId gmailDraftId gmailMessageId
        gmailThreadId contentHash createdAt c.now⟩
      (setDraft clientDraftId gmailDraftId gmailMessageId gmailThreadId contentHash c.now) s.drafts
    cases hrow : (upsertRow (Scoped.allowed primary c.gmailAccountId)
      ⟨c.userId, c.gmailAccountId, newDraft clientDraftId gmailDraftId gmailMessageId
        gmailThreadId contentHash createdAt c.now⟩
      (setDraft clientDraftId gmailDraftId gmailMessageId gmailThreadId contentHash c.now)
      s.drafts).2 with
    | none =>
      rw [hrow] at haccount
      cases haccount
    | some row =>
      rw [hrow] at haccount
      obtain ⟨r, hr, rfl⟩ := mem_accounts haccount
      obtain rfl := Option.some.inj hr
      exact (heffect.current hrow).2
  | getDraft =>
    intro account haccount
    obtain ⟨r, hr, rfl⟩ := mem_accounts haccount
    obtain ⟨asked, -, hfound⟩ := Option.bind_eq_some_iff.1 hr
    have hp := (mem_select.1 (List.mem_of_mem_head? hfound)).2.2
    rw [Bool.and_eq_true, decide_eq_true_iff] at hp
    exact hp.1.2

theorem answers_iff (s : AccountStore) (hs : StoreOk s) (c : ScopedCall) :
    Answers (callStep primary digest s c) c (runCall primary digest s c).2 ↔
      ScopeReached primary s c := by
  unfold Answers ScopeReached callStep runCall
  cases c.call with
  | createOrGetSend serverSendId clientSendId =>
    refine iff_of_true ?_ trivial
    refine guarded_cases (P := fun r => ∀ row, r.2 = .send (some row) →
      rowAt _ r.1.sends.log (c.key clientSendId) = some row) ?_ (fun _ h => nomatch h)
    intro row hrow
    exact (createOrGetRow_effect _ _ _ _ s.sends).current hs.sendClient (sendCreated_eq_send hrow)
  | updateSend serverSendId =>
    refine iff_of_true ?_ trivial
    refine guarded_cases (P := fun r => ∀ row, r.2 = .send (some row) →
      rowAt _ r.1.sends.log (c.key serverSendId) = some row) ?_ (fun _ h => nomatch h)
    intro row hrow
    refine (updateRow_current ?_ (AccountResult.send.inj hrow)).2
    exact fun _ => rfl
  | getSend serverSendId =>
    dsimp only
    rw [← readKey_iff hs.sendServer serverSendId, AccountResult.send.injEq]
  | listSends limit =>
    dsimp only
    rw [← readSends_iff hs.sendServer limit]
    constructor
    · rintro ⟨rows, hrows, hpage⟩
      cases hrows
      exact hpage
    · intro hpage
      exact ⟨_, rfl, hpage⟩
  | createOrGetAction serverActionId clientActionId =>
    refine iff_of_true ?_ trivial
    refine guarded_cases (P := fun r => ∀ row, r.2 = .action (some row) →
      rowAt _ r.1.actions.log (c.key clientActionId) = some row) ?_ (fun _ h => nomatch h)
    intro row hrow
    exact (createOrGetRow_effect _ _ _ _ s.actions).current hs.actionClient
      (actionCreated_eq_action hrow)
  | updateAction serverActionId =>
    refine iff_of_true ?_ trivial
    refine guarded_cases (P := fun r => ∀ row, r.2 = .action (some row) →
      rowAt _ r.1.actions.log (c.key serverActionId) = some row) ?_ (fun _ h => nomatch h)
    intro row hrow
    refine (updateRow_current ?_ (AccountResult.action.inj hrow)).2
    exact fun _ => rfl
  | getAction serverActionId =>
    dsimp only
    rw [← readKey_iff hs.actionServer serverActionId, AccountResult.action.injEq]
  | upsertDraft =>
    refine iff_of_true ?_ trivial
    refine guarded_cases (P := fun r => ∀ row, r.2 = .draft (some row) →
      IsCurrent draftKey r.1.drafts.log row) ?_ (fun _ h => nomatch h)
    intro row hrow
    exact ((upsertRow_effect _ _ _ s.drafts).current (draftUpserted_eq_draft hrow)).1
  | updateDraftState clientDraftId =>
    refine iff_of_true ?_ trivial
    refine guarded_cases (P := fun r => ∀ row, r.2 = .draft (some row) →
      rowAt draftKey r.1.drafts.log (c.key clientDraftId) = some row) ?_ (fun _ h => nomatch h)
    intro row hrow
    refine (updateRow_current ?_ (AccountResult.draft.inj hrow)).2
    exact fun _ => rfl
  | getDraft clientDraftId gmailDraftId =>
    dsimp only
    rw [← readDraft_iff hs.draft hs.draftsUnique clientDraftId gmailDraftId]
    constructor
    · rintro ⟨found, hfound, hrow⟩
      cases hfound
      exact hrow
    · intro hrow
      exact ⟨_, rfl, hrow⟩

variable (primary digest)

theorem scopeExact_iff (s : AccountStore) (hs : StoreOk s) (c : ScopedCall) :
    ScopeExact primary digest s c ↔ ScopeReached primary s c := by
  rw [← answers_iff s hs c]
  constructor
  · intro h
    exact h.answers
  · intro h
    exact ⟨h, returned_step s c, sameOthers_step s c⟩

/-- In every sequence of calls: all of them are exact exactly when every read has the
account as its scope or asks for nothing that is stored. -/
theorem accountScope_iff (calls : List ScopedCall) :
    Along (callStep primary digest) (ScopeExact primary digest) .initial calls ↔
      Along (callStep primary digest) (ScopeReached primary) .initial calls := by
  constructor
  · intro h
    refine along_of_step (I := StoreOk) ?_ storeOk_initial h
    intro s c hs hexact
    exact ⟨(scopeExact_iff primary digest s hs c).1 hexact, storeOk_step s c hs⟩
  · intro h
    refine along_of_step (I := StoreOk) ?_ storeOk_initial h
    intro s c hs hreached
    exact ⟨(scopeExact_iff primary digest s hs c).2 hreached, storeOk_step s c hs⟩

/-- **Accounts are isolated** in every sequence of calls, whatever the scopes of their callers: a
call returns rows of its account only and changes no row of another one, and the client draft id
and the Gmail draft id of an account are of one row each. -/
theorem accounts_isolated (calls : List ScopedCall) :
    Along (callStep primary digest) (fun s c =>
      (∀ account ∈ (runCall primary digest s c).2.accounts, account = c.gmailAccountId) ∧
        SameOthers c.gmailAccountId s (callStep primary digest s c) ∧
        DraftsUnique (callStep primary digest s c).drafts.rows) .initial calls := by
  have hany : Along (callStep primary digest) (fun _ _ => True) .initial calls :=
    along_of_forall (fun _ _ => trivial) _ calls
  refine along_of_step (I := StoreOk) ?_ storeOk_initial hany
  intro s c hs _
  have hafter : StoreOk (callStep primary digest s c) := storeOk_step s c hs
  exact ⟨⟨returned_step s c, sameOthers_step s c, hafter.draftsUnique⟩, hafter⟩

end Runs

/-! ## A route -/

/-- A send of the account `a2` is created and read by routes of the user `u`, whose
primary account is `u`. -/
def routeCalls : List ScopedCall :=
  [⟨.httpRoute, "u", "a2", true, 1, .createOrGetSend "s1" "c1"
      ⟨"compose", none, none, ⟨["a@b.c"], [], [], "Hi", "", none, [], []⟩⟩ "t"⟩,
    ⟨.httpRoute, "u", "a2", true, 2, .getSend "s1"⟩]

theorem routeRead_misses :
    ¬ Along (callStep some fun _ => "h") (ScopeExact some fun _ => "h") .initial routeCalls := by
  intro h
  have hlast : Answers _ _ _ := h.2.1.answers
  exact absurd (AccountResult.send.inj hlast) (by decide +kernel)

end ElectronicMail.Accounts
