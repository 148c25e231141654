import Mathlib.Data.List.Perm.Subperm
import Mathlib.Data.List.Sort

/-!
# Keyset pagination

A page of a table is read with `WHERE key > :cursor ORDER BY key LIMIT size + 1`;
the first `size` rows are shown and the key of the last one is the next cursor when
a row is left over. `followPages` reads page after page, each from the table as it
is at that moment.

A program hands cursors out as texts or records: `readEncoded` is a read whose next
cursor is an encoding of the last shown row, and `followCursor` follows such cursors
over successive states. `followCursor_eq` reduces it to `followPages`.

`IsPage` says what one read returns. The walk rules follow from it for tables with
distinct keys: the keys of a walk go up strictly (`followPages_sorted`), a key that
every table holds is returned by a walk that ends (`mem_followPages`), and a walk
over a table that stays as it is ends (`followPages_replicate`).
-/

namespace ElectronicMail.Foundations.Keyset

universe u v w x y

variable {α : Type u} {κ : Type v} [LinearOrder κ] (key : α → κ)

/-- `WHERE key > :cursor`; there is no clause without a cursor. -/
def beyond (cursor : Option κ) (rows : List α) : List α :=
  match cursor with
  | none => rows
  | some bound => rows.filter fun row => decide (bound < key row)

/-- `WHERE key > :cursor ORDER BY key LIMIT n`. -/
def fetch (n : Nat) (cursor : Option κ) (rows : List α) : List α :=
  ((beyond key cursor rows).insertionSort fun a b => key a ≤ key b).take n

def readPage (size : Nat) (cursor : Option κ) (rows : List α) : List α × Option κ :=
  let fetched := fetch key (size + 1) cursor rows
  let visible := fetched.take size
  (visible, if size < fetched.length then visible.getLast?.map key else none)

/-- The rows of successive reads and the cursor that is left, `none` once a read
gave no next cursor. -/
def followPages (size : Nat) : Option κ → List (List α) → List α × Option κ
  | cursor, [] => ([], cursor)
  | cursor, rows :: tables =>
    let page := readPage key size cursor rows
    match page.2 with
    | none => page
    | some bound =>
      let rest := followPages size (some bound) tables
      (page.1 ++ rest.1, rest.2)

/-- What a read returns: the rows beyond the cursor up to the next cursor, in order,
where the next cursor is the key of a returned row. -/
structure IsPage (rows : List α) (cursor : Option κ) (page : List α × Option κ) : Prop where
  sorted : page.1.Pairwise fun a b => key a < key b
  mem_iff : ∀ a, a ∈ page.1 ↔
    a ∈ rows ∧ (∀ bound ∈ cursor, bound < key a) ∧ ∀ bound ∈ page.2, key a ≤ bound
  next_mem : ∀ bound ∈ page.2, ∃ a ∈ page.1, key a = bound

variable {n : Nat}

section Page

variable {key}

variable {rows : List α}

theorem mem_beyond {cursor : Option κ} {a : α} :
    a ∈ beyond key cursor rows ↔ a ∈ rows ∧ ∀ bound ∈ cursor, bound < key a := by
  cases cursor with
  | none | some => simp [beyond]

theorem beyond_sublist (cursor : Option κ) (rows : List α) :
    (beyond key cursor rows).Sublist rows := by
  cases cursor with
  | none => exact List.Sublist.refl rows
  | some => exact List.filter_sublist

theorem sorted_beyond (hkeys : (rows.map key).Nodup) (cursor : Option κ) :
    ((beyond key cursor rows).insertionSort fun a b => key a ≤ key b).Pairwise
      fun a b => key a < key b := by
  have hle : ((beyond key cursor rows).insertionSort fun a b => key a ≤ key b).Pairwise
      fun a b => key a ≤ key b := by
    have : Std.Total fun a b : α => key a ≤ key b := ⟨fun a b => le_total (key a) (key b)⟩
    have : IsTrans α fun a b => key a ≤ key b := ⟨fun _ _ _ => le_trans⟩
    exact List.pairwise_insertionSort _ _
  have hne : ((beyond key cursor rows).insertionSort fun a b => key a ≤ key b).Pairwise
      fun a b => key a ≠ key b := by
    rw [← List.pairwise_map (f := key)]
    have hperm := (List.perm_insertionSort (fun a b => key a ≤ key b)
      (beyond key cursor rows)).map key
    exact hperm.nodup_iff.2 (hkeys.sublist ((beyond_sublist cursor rows).map key))
  exact (hle.and hne).imp fun h => lt_of_le_of_ne h.1 h.2

theorem readPage_isPage {size : Nat} (hsize : 0 < size) (hkeys : (rows.map key).Nodup)
    (cursor : Option κ) : IsPage key rows cursor (readPage key size cursor rows) := by
  have hsorted := sorted_beyond hkeys cursor
  have hmem : ∀ a, a ∈ (beyond key cursor rows).insertionSort (fun a b => key a ≤ key b) ↔
      a ∈ rows ∧ ∀ bound ∈ cursor, bound < key a := by
    intro a
    rw [List.mem_insertionSort, mem_beyond]
  unfold readPage fetch
  generalize (beyond key cursor rows).insertionSort (fun a b => key a ≤ key b) = found
    at hsorted hmem
  have hvisible : (found.take (size + 1)).take size = found.take size := by
    rw [List.take_take, Nat.min_eq_left (Nat.le_succ size)]
  simp only [hvisible, List.length_take]
  have hsplit : found.take size ++ found.drop size = found := List.take_append_drop size found
  by_cases hmore : size < found.length
  · have hlt : size < min (size + 1) found.length := by omega
    rw [if_pos hlt]
    have hne : found.take size ≠ [] := by
      intro h
      have := congrArg List.length h
      rw [List.length_take, List.length_nil] at this
      omega
    obtain ⟨init, last, hlast⟩ := List.eq_nil_or_concat (found.take size) |>.resolve_left hne
    rw [List.concat_eq_append] at hlast
    rw [hlast] at hsplit ⊢
    rw [← hsplit, List.pairwise_append, List.pairwise_append] at hsorted
    obtain ⟨⟨hinit, hone, hinitLast⟩, -, hcross⟩ := hsorted
    refine ⟨?_, ?_, ?_⟩
    · exact List.pairwise_append.2 ⟨hinit, hone, hinitLast⟩
    · intro a
      rw [← and_assoc, ← hmem a, ← hsplit]
      simp only [List.getLast?_concat, Option.map_some, Option.mem_some_iff, forall_eq',
        List.mem_append, List.mem_singleton]
      constructor
      · intro ha
        refine ⟨Or.inl ha, ?_⟩
        rcases ha with ha | ha
        · exact le_of_lt (hinitLast a ha last (List.mem_singleton.2 rfl))
        · rw [ha]
      · rintro ⟨ha | ha, hle⟩
        · exact ha
        · -- a row left over has a key above the last shown one
          have := hcross last (List.mem_append.2 (Or.inr (List.mem_singleton.2 rfl))) a ha
          exact absurd hle (not_le.2 this)
    · intro bound hbound
      refine ⟨last, List.mem_append.2 (Or.inr (List.mem_singleton.2 rfl)), ?_⟩
      simpa using hbound
  · have hle : ¬ size < min (size + 1) found.length := by omega
    rw [if_neg hle, List.take_of_length_le (Nat.le_of_not_lt hmore)]
    refine ⟨hsorted, ?_, ?_⟩
    · intro a
      rw [hmem a]
      simp
    · intro bound hbound
      cases hbound

theorem sorted_fetch (hkeys : (rows.map key).Nodup) (n : Nat) (cursor : Option κ) :
    (fetch key n cursor rows).Pairwise fun a b => key a < key b :=
  (sorted_beyond hkeys cursor).sublist (List.take_sublist _ _)

theorem mem_of_mem_fetch {cursor : Option κ} {a : α} (h : a ∈ fetch key n cursor rows) :
    a ∈ rows ∧ ∀ bound ∈ cursor, bound < key a :=
  mem_beyond.1 ((List.mem_insertionSort _).1 (List.mem_of_mem_take h))

def nextBound (key : α → κ) (cursor : κ) (fetched : List α) : κ :=
  (fetched.getLast?.map key).getD cursor

theorem le_nextBound {fetched : List α} {cursor : κ}
    (hsorted : fetched.Pairwise fun a b => key a < key b)
    (hbeyond : ∀ a ∈ fetched, cursor < key a) :
    cursor ≤ nextBound key cursor fetched ∧ ∀ a ∈ fetched, key a ≤ nextBound key cursor fetched := by
  unfold nextBound
  rcases List.eq_nil_or_concat fetched with rfl | ⟨init, last, rfl⟩
  · exact ⟨le_rfl, fun a ha => nomatch ha⟩
  rw [List.concat_eq_append] at hsorted hbeyond ⊢
  simp only [List.getLast?_concat, Option.map_some, Option.getD_some]
  refine ⟨le_of_lt (hbeyond last (by simp)), ?_⟩
  intro a ha
  rcases List.mem_append.1 ha with hinit | hlast
  · exact le_of_lt ((List.pairwise_append.1 hsorted).2.2 a hinit last (by simp))
  · obtain rfl := List.mem_singleton.1 hlast
    exact le_rfl

theorem mem_fetch_or_beyond (hkeys : (rows.map key).Nodup) {cursor : κ} {a : α} (ha : a ∈ rows)
    (hbeyond : cursor < key a) : a ∈ fetch key n (some cursor) rows ∨
      nextBound key cursor (fetch key n (some cursor) rows) < key a := by
  have hsorted := sorted_beyond hkeys (some cursor)
  have hfound : a ∈ (beyond key (some cursor) rows).insertionSort fun a b => key a ≤ key b := by
    rw [List.mem_insertionSort, mem_beyond]
    exact ⟨ha, fun bound hbound => Option.mem_some_iff.1 hbound ▸ hbeyond⟩
  unfold fetch
  generalize (beyond key (some cursor) rows).insertionSort (fun a b => key a ≤ key b) = found
    at hsorted hfound
  rw [← List.take_append_drop n found] at hfound hsorted
  rcases List.mem_append.1 hfound with htake | hdrop
  · exact .inl htake
  right
  obtain ⟨-, -, hcross⟩ := List.pairwise_append.1 hsorted
  unfold nextBound
  cases hlast : (found.take n).getLast? with
  | none => exact hbeyond
  | some last => exact hcross last (List.mem_of_getLast? hlast) a hdrop

theorem length_beyond_nextBound (hkeys : (rows.map key).Nodup) (cursor : κ) :
    (beyond key (some (nextBound key cursor (fetch key n (some cursor) rows))) rows).length ≤
      (beyond key (some cursor) rows).length - n := by
  have hfetched : ∀ a ∈ fetch key n (some cursor) rows, cursor < key a :=
    fun a ha => (mem_of_mem_fetch ha).2 cursor rfl
  have hbounds := le_nextBound (sorted_fetch hkeys n (some cursor)) hfetched
  have hlength : ((fetch key n (some cursor) rows) ++
      beyond key (some (nextBound key cursor (fetch key n (some cursor) rows))) rows).length ≤
        (beyond key (some cursor) rows).length := by
    apply List.Subperm.length_le
    apply List.subperm_of_subset
    · rw [List.nodup_append]
      refine ⟨(sorted_fetch hkeys n _).imp fun h heq => absurd (heq ▸ h) (lt_irrefl _), ?_, ?_⟩
      · exact (hkeys.of_map key).sublist (beyond_sublist _ _)
      · rintro a ha b hb rfl
        exact absurd (hbounds.2 a ha) (not_le.2 ((mem_beyond.1 hb).2 _ rfl))
    · intro a ha
      rcases List.mem_append.1 ha with ha | ha
      · exact mem_beyond.2 (mem_of_mem_fetch ha)
      obtain ⟨hrow, hkey⟩ := mem_beyond.1 ha
      refine mem_beyond.2 ⟨hrow, ?_⟩
      intro bound hbound
      obtain rfl := Option.mem_some_iff.1 hbound
      exact lt_of_le_of_lt hbounds.1 (hkey _ rfl)
  have htaken : (fetch key n (some cursor) rows).length =
      min n (beyond key (some cursor) rows).length := by
    unfold fetch
    rw [List.length_take, List.length_insertionSort]
  rw [List.length_append, htaken] at hlength
  omega

end Page

/-! ## Walks -/

section Walk

variable {key} {size : Nat}

variable {cursor : Option κ} {rows : List α} {tables : List (List α)}

theorem followPages_cons_none (h : (readPage key size cursor rows).2 = none) :
    followPages key size cursor (rows :: tables) = readPage key size cursor rows := by
  simp only [followPages, h]

theorem followPages_cons_some {bound : κ} (h : (readPage key size cursor rows).2 = some bound) :
    followPages key size cursor (rows :: tables) =
      ((readPage key size cursor rows).1 ++ (followPages key size (some bound) tables).1,
        (followPages key size (some bound) tables).2) := by
  simp only [followPages, h]

section

variable (hsize : 0 < size) (hkeys : ∀ rows ∈ tables, (rows.map key).Nodup)
include hsize hkeys

theorem mem_of_mem_followPages {a : α} (ha : a ∈ (followPages key size cursor tables).1) :
    (∃ rows ∈ tables, a ∈ rows) ∧ ∀ bound ∈ cursor, bound < key a := by
  induction tables generalizing cursor with
  | nil => cases ha
  | cons rows tables ih =>
    have hpage := readPage_isPage hsize (hkeys rows List.mem_cons_self) cursor
    cases hnext : (readPage key size cursor rows).2 with
    | none =>
      rw [followPages_cons_none hnext] at ha
      have hrow := (hpage.mem_iff a).1 ha
      exact ⟨⟨rows, List.mem_cons_self, hrow.1⟩, hrow.2.1⟩
    | some bound =>
      rw [followPages_cons_some hnext] at ha
      rcases List.mem_append.1 ha with ha | ha
      · have hrow := (hpage.mem_iff a).1 ha
        exact ⟨⟨rows, List.mem_cons_self, hrow.1⟩, hrow.2.1⟩
      obtain ⟨⟨rows', hrows', hmem⟩, hbound⟩ :=
        ih (fun rows h => hkeys rows (List.mem_cons_of_mem _ h)) ha
      refine ⟨⟨rows', List.mem_cons_of_mem _ hrows', hmem⟩, ?_⟩
      -- the bound is the key of a row beyond the first cursor
      obtain ⟨last, hlast, hkey⟩ := hpage.next_mem bound hnext
      intro first hfirst
      have hlt : first < key last := ((hpage.mem_iff last).1 hlast).2.1 first hfirst
      rw [hkey] at hlt
      exact lt_trans hlt (hbound bound rfl)

/-- **The keys of a walk go up strictly**, whatever the tables become. -/
theorem followPages_sorted (cursor : Option κ) :
    (followPages key size cursor tables).1.Pairwise fun a b => key a < key b := by
  induction tables generalizing cursor with
  | nil => exact List.Pairwise.nil
  | cons rows tables ih =>
    have hpage := readPage_isPage hsize (hkeys rows List.mem_cons_self) cursor
    have htail : ∀ rows ∈ tables, (rows.map key).Nodup :=
      fun rows h => hkeys rows (List.mem_cons_of_mem _ h)
    cases hnext : (readPage key size cursor rows).2 with
    | none =>
      rw [followPages_cons_none hnext]
      exact hpage.sorted
    | some bound =>
      rw [followPages_cons_some hnext]
      refine List.pairwise_append.2 ⟨hpage.sorted, ih htail (some bound), ?_⟩
      intro a ha b hb
      have hle : key a ≤ bound := ((hpage.mem_iff a).1 ha).2.2 bound hnext
      exact lt_of_le_of_lt hle ((mem_of_mem_followPages hsize htail hb).2 bound rfl)

/-- **Nothing that stays is missed.** A key that every table holds beyond the first
cursor is returned by a walk that ends. -/
theorem mem_followPages (hne : tables ≠ []) (hend : (followPages key size cursor tables).2 = none) {k : κ}
    (hcursor : ∀ bound ∈ cursor, bound < k) (hk : ∀ rows ∈ tables, ∃ a ∈ rows, key a = k) :
    ∃ a ∈ (followPages key size cursor tables).1, key a = k := by
  induction tables generalizing cursor with
  | nil => exact absurd rfl hne
  | cons rows tables ih =>
    have hpage := readPage_isPage hsize (hkeys rows List.mem_cons_self) cursor
    obtain ⟨a, ha, rfl⟩ := hk rows List.mem_cons_self
    cases hnext : (readPage key size cursor rows).2 with
    | none =>
      rw [followPages_cons_none hnext]
      have hall : ∀ bound ∈ (readPage key size cursor rows).2, key a ≤ bound := by
        intro bound hbound
        rw [hnext] at hbound
        cases hbound
      exact ⟨a, (hpage.mem_iff a).2 ⟨ha, hcursor, hall⟩, rfl⟩
    | some bound =>
      rw [followPages_cons_some hnext] at hend ⊢
      by_cases hle : key a ≤ bound
      · have hall : ∀ next ∈ (readPage key size cursor rows).2, key a ≤ next := by
          intro next h
          rw [hnext] at h
          cases h
          exact hle
        have hshown := (hpage.mem_iff a).2 ⟨ha, hcursor, hall⟩
        exact ⟨a, List.mem_append.2 (Or.inl hshown), rfl⟩
      · have hlater : ∀ next ∈ some bound, next < key a := by
          intro next h
          cases h
          exact not_le.1 hle
        have hnonempty : tables ≠ [] := by
          rintro rfl
          cases hend
        obtain ⟨b, hb, hkey⟩ := ih (fun rows h => hkeys rows (List.mem_cons_of_mem _ h))
          hnonempty hend hlater (fun rows h => hk rows (List.mem_cons_of_mem _ h))
        exact ⟨b, List.mem_append.2 (Or.inr hb), hkey⟩

end

/-- A walk over a table that stays as it is ends: every page takes at least one of
the rows beyond its cursor. -/
theorem followPages_replicate (hsize : 0 < size) (hkeys : (rows.map key).Nodup)
    (hn : (beyond key cursor rows).length < n) :
    (followPages key size cursor (List.replicate n rows)).2 = none := by
  induction n generalizing cursor with
  | zero => exact absurd hn (Nat.not_lt_zero _)
  | succ n ih =>
    have hpage := readPage_isPage hsize hkeys cursor
    rw [List.replicate_succ]
    cases hnext : (readPage key size cursor rows).2 with
    | none => rw [followPages_cons_none hnext, hnext]
    | some bound =>
      rw [followPages_cons_some hnext]
      apply ih
      obtain ⟨last, hlast, hkey⟩ := hpage.next_mem bound hnext
      obtain ⟨hrow, hbeyond, -⟩ := (hpage.mem_iff last).1 hlast
      -- the rows beyond the new cursor are rows beyond the old one, without `last`
      have hsub : (beyond key (some bound) rows).Sublist (beyond key cursor rows) := by
        cases cursor with
        | none => exact beyond_sublist (some bound) rows
        | some first =>
          have hlt : first < bound := hkey ▸ hbeyond first rfl
          refine List.monotone_filter_right rows ?_
          intro a ha
          exact decide_eq_true (lt_trans hlt (of_decide_eq_true ha))
      have hin : last ∈ beyond key cursor rows := mem_beyond.2 ⟨hrow, hbeyond⟩
      have hout : last ∉ beyond key (some bound) rows := by
        intro h
        have := (mem_beyond.1 h).2 bound rfl
        rw [hkey] at this
        exact lt_irrefl bound this
      have hlt : (beyond key (some bound) rows).length < (beyond key cursor rows).length := by
        refine lt_of_le_of_ne hsub.length_le ?_
        intro h
        rw [hsub.eq_of_length h] at hout
        exact hout hin
      omega

/-- **A walk over a table that stays as it is** ends and returns its rows. -/
theorem followPages_static (hsize : 0 < size) (hkeys : (rows.map key).Nodup)
    (hn : rows.length < n) : (followPages key size none (List.replicate n rows)).2 = none ∧
      ∀ a, a ∈ (followPages key size none (List.replicate n rows)).1 ↔ a ∈ rows := by
  have hall : ∀ table ∈ List.replicate n rows, (table.map key).Nodup := by
    intro table htable
    rw [List.eq_of_mem_replicate htable]
    exact hkeys
  have hend : (followPages key size none (List.replicate n rows)).2 = none :=
    followPages_replicate hsize hkeys hn
  refine ⟨hend, ?_⟩
  intro a
  constructor
  · intro ha
    obtain ⟨⟨table, htable, hmem⟩, -⟩ := mem_of_mem_followPages hsize hall ha
    rwa [List.eq_of_mem_replicate htable] at hmem
  · intro ha
    have hne : List.replicate n rows ≠ [] := by
      rw [Ne, List.replicate_eq_nil_iff]
      omega
    obtain ⟨b, hb, hkey⟩ := mem_followPages hsize hall hne hend
      (k := key a) (by simp) (fun table htable => ⟨a, List.eq_of_mem_replicate htable ▸ ha, rfl⟩)
    obtain ⟨⟨table, htable, hmem⟩, -⟩ := mem_of_mem_followPages hsize hall hb
    rw [List.eq_of_mem_replicate htable] at hmem
    rwa [← List.inj_on_of_nodup_map hkeys hmem ha hkey]

section Identity

variable {ι : Type w} [DecidableEq ι] {ident : α → ι} {tables : List (List α)} {i : ι} {k : κ}

theorem count_followPages_le (hsize : 0 < size)
    (hkeys : ∀ rows ∈ tables, (rows.map key).Nodup)
    (hkey : ∀ rows ∈ tables, ∀ a ∈ rows, ident a = i → key a = k) (cursor : Option κ) :
    ((followPages key size cursor tables).1.map ident).count i ≤ 1 := by
  have hsorted := followPages_sorted hsize hkeys cursor
  have hmem : ∀ a ∈ (followPages key size cursor tables).1, ident a = i → key a = k := by
    intro a ha
    obtain ⟨⟨rows, hrows, hrow⟩, -⟩ := mem_of_mem_followPages hsize hkeys ha
    exact hkey rows hrows a hrow
  generalize (followPages key size cursor tables).1 = found at hsorted hmem
  rw [List.count_eq_countP, List.countP_map, List.countP_eq_length_filter]
  have hfiltered := hsorted.filter ((fun x => x == i) ∘ ident)
  have hall : ∀ a ∈ found.filter ((fun x => x == i) ∘ ident), key a = k := by
    intro a ha
    have h := List.mem_filter.1 ha
    exact hmem a h.1 (beq_iff_eq.1 h.2)
  cases hfilter : found.filter ((fun x => x == i) ∘ ident) with
  | nil => exact Nat.zero_le 1
  | cons a rest =>
    cases rest with
    | nil => exact Nat.le_refl 1
    | cons b =>
      -- two of them would have one key, in strict order
      rw [hfilter] at hfiltered hall
      have hlt := (List.pairwise_cons.1 hfiltered).1 b List.mem_cons_self
      rw [hall a List.mem_cons_self, hall b (List.mem_cons_of_mem _ List.mem_cons_self)] at hlt
      exact absurd hlt (lt_irrefl k)

/-- **What stays with its key is returned exactly once** by a walk that ends. -/
theorem count_followPages_eq (hsize : 0 < size)
    (hkeys : ∀ rows ∈ tables, (rows.map key).Nodup) (hne : tables ≠ [])
    (hkey : ∀ rows ∈ tables, ∀ a ∈ rows, ident a = i → key a = k)
    (hident : ∀ a b, key a = key b → ident a = ident b)
    (hstays : ∀ rows ∈ tables, ∃ a ∈ rows, ident a = i)
    (hend : (followPages key size none tables).2 = none) :
    ((followPages key size none tables).1.map ident).count i = 1 := by
  apply Nat.le_antisymm (count_followPages_le hsize hkeys hkey none)
  rw [Nat.one_le_iff_ne_zero, Ne, List.count_eq_zero, not_not]
  have hhas : ∀ rows ∈ tables, ∃ a ∈ rows, key a = k := by
    intro rows hrows
    obtain ⟨a, ha, hi⟩ := hstays rows hrows
    exact ⟨a, ha, hkey rows hrows a ha hi⟩
  obtain ⟨a, ha, hka⟩ := mem_followPages hsize hkeys hne hend (by simp) hhas
  obtain ⟨rows, hrows⟩ := List.exists_mem_of_ne_nil tables hne
  obtain ⟨b, hb, hi⟩ := hstays rows hrows
  have hsame : ident a = i := (hident a b (hka.trans (hkey rows hrows b hb hi).symm)).trans hi
  exact List.mem_map.2 ⟨a, ha, hsame⟩

end Identity

end Walk

/-! ## Encoded cursors -/

section Encoded

variable {σ : Type w} {τ : Type x} {ε : Type y} {ρ : Type u}

def readEncoded (encode : α → τ) (size : Nat) (cursor : Option κ) (rows : List α) :
    List α × Option τ :=
  let fetched := fetch key (size + 1) cursor rows
  let visible := fetched.take size
  (visible, if size < fetched.length then visible.getLast?.map encode else none)

/-- Page after page, each read from the state of that moment, until there is no next
cursor or no further state. -/
def followCursor (read : σ → Option τ → Except ε (List ρ × Option τ)) :
    Option τ → List σ → Except ε (List ρ × Option τ)
  | cursor, [] => .ok ([], cursor)
  | cursor, s :: states =>
    match read s cursor with
    | .error e => .error e
    | .ok (visible, none) => .ok (visible, none)
    | .ok (visible, some next) =>
      match followCursor read (some next) states with
      | .error e => .error e
      | .ok (rest, left) => .ok (visible ++ rest, left)

theorem readEncoded_cases (encode : α → τ) (size : Nat) (cursor : Option κ) (rows : List α) :
    (readEncoded key encode size cursor rows = ((readPage key size cursor rows).1, none) ∧
        (readPage key size cursor rows).2 = none) ∨
      ∃ a ∈ (readPage key size cursor rows).1,
        readEncoded key encode size cursor rows =
            ((readPage key size cursor rows).1, some (encode a)) ∧
          (readPage key size cursor rows).2 = some (key a) := by
  unfold readEncoded readPage
  generalize fetch key (size + 1) cursor rows = fetched
  by_cases hmore : size < fetched.length
  · simp only [if_pos hmore]
    cases hlast : (fetched.take size).getLast? with
    | none => exact Or.inl ⟨rfl, rfl⟩
    | some a => exact Or.inr ⟨a, List.mem_of_getLast? hlast, rfl, rfl⟩
  · left
    simp only [if_neg hmore, and_self]

variable {key} {read : σ → Option τ → Except ε (List α × Option τ)} {encode : α → τ}
  {table : σ → List α} {size : Nat} {valid : α → Prop}

theorem followCursor_step {s : σ} {states : List σ} {cursor : Option τ} {bound : Option κ}
    (hread : read s cursor = .ok (readEncoded key encode size bound (table s)))
    (hrest : ∀ a ∈ (readPage key size bound (table s)).1,
      ∃ left, followCursor read (some (encode a)) states =
          .ok ((followPages key size (some (key a)) (states.map table)).1, left) ∧
        (left = none ↔ (followPages key size (some (key a)) (states.map table)).2 = none)) :
    ∃ left, followCursor read cursor (s :: states) =
        .ok ((followPages key size bound ((s :: states).map table)).1, left) ∧
      (left = none ↔ (followPages key size bound ((s :: states).map table)).2 = none) := by
  rw [List.map_cons]
  rcases readEncoded_cases key encode size bound (table s) with
    ⟨hencoded, hnext⟩ | ⟨a, ha, hencoded, hnext⟩
  · rw [followPages_cons_none hnext, hnext]
    refine ⟨none, ?_, iff_of_true rfl rfl⟩
    simp only [followCursor, hread, hencoded]
  · obtain ⟨left, hwalk, hleft⟩ := hrest a ha
    rw [followPages_cons_some hnext]
    refine ⟨left, ?_, hleft⟩
    simp only [followCursor, hread, hencoded, hwalk]

/-- **Following encoded cursors is following their keys**, when every state reads the
encoding of a valid row as the key of that row. -/
theorem followCursor_eq {states : List σ} (hsize : 0 < size)
    (hkeys : ∀ s ∈ states, ((table s).map key).Nodup)
    (hvalid : ∀ s ∈ states, ∀ a ∈ table s, valid a)
    (hread : ∀ s ∈ states, ∀ a, valid a →
      read s (some (encode a)) = .ok (readEncoded key encode size (some (key a)) (table s)))
    {a : α} (ha : valid a) :
    ∃ left, followCursor read (some (encode a)) states =
        .ok ((followPages key size (some (key a)) (states.map table)).1, left) ∧
      (left = none ↔ (followPages key size (some (key a)) (states.map table)).2 = none) := by
  induction states generalizing a with
  | nil => exact ⟨some (encode a), rfl, by simp [followPages]⟩
  | cons s states ih =>
    refine followCursor_step (hread s List.mem_cons_self a ha) ?_
    intro b hb
    have hpage := readPage_isPage hsize (hkeys s List.mem_cons_self) (some (key a))
    have hrow : b ∈ table s := ((hpage.mem_iff b).1 hb).1
    exact ih (fun s h => hkeys s (List.mem_cons_of_mem _ h))
      (fun s h => hvalid s (List.mem_cons_of_mem _ h))
      (fun s h => hread s (List.mem_cons_of_mem _ h)) (hvalid s List.mem_cons_self b hrow)

end Encoded

end ElectronicMail.Foundations.Keyset
