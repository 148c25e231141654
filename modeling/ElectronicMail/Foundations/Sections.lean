import Mathlib.Data.List.Nodup
import Mathlib.Data.List.Perm.Basic

/-!
# Rows in sections

Rows are shown under sections that have ids of their own. `extend` puts rows at the end of the
section with an id, which it opens at the end of the list when there is none. As a collection,
the rows are those there were and the new ones.
-/

namespace ElectronicMail.Foundations

universe u v w

structure Section (ι : Type u) (τ : Type v) (ρ : Type w) where
  id : ι
  title : τ
  rows : List ρ
  deriving DecidableEq

namespace Section

variable {ι : Type u} {τ : Type v} {ρ : Type w}

def allRows (sections : List (Section ι τ ρ)) : List ρ := sections.flatMap Section.rows

def ids (sections : List (Section ι τ ρ)) : List ι := sections.map Section.id

variable [DecidableEq ι]

/-- The sections with one of this id, opened at the end when there was none. -/
def opened (id : ι) (title : τ) (sections : List (Section ι τ ρ)) : List (Section ι τ ρ) :=
  if id ∈ ids sections then sections else sections ++ [⟨id, title, []⟩]

def taking (id : ι) (rows : List ρ) (s : Section ι τ ρ) : Section ι τ ρ :=
  if s.id = id then { s with rows := s.rows ++ rows } else s

def extend (id : ι) (title : τ) (rows : List ρ) (sections : List (Section ι τ ρ)) :
    List (Section ι τ ρ) :=
  (opened id title sections).map (taking id rows)

@[simp]
theorem ids_map_taking (id : ι) (rows : List ρ) (sections : List (Section ι τ ρ)) :
    ids (sections.map (taking id rows)) = ids sections := by
  unfold ids
  rw [List.map_map]
  apply List.map_congr_left
  intro s _
  simp only [Function.comp_apply, taking]
  split <;> rfl

theorem mem_ids_opened (id : ι) (title : τ) (sections : List (Section ι τ ρ)) :
    id ∈ ids (opened id title sections) := by
  unfold opened
  split
  · assumption
  · simp [ids]

variable {sections : List (Section ι τ ρ)}

theorem nodup_ids_opened (h : (ids sections).Nodup) (id : ι) (title : τ) :
    (ids (opened id title sections)).Nodup := by
  unfold opened
  split
  · exact h
  next hout =>
    have hids : ids (sections ++ [⟨id, title, []⟩]) = ids sections ++ [id] := by simp [ids]
    rw [hids, List.nodup_append]
    refine ⟨h, List.nodup_singleton id, ?_⟩
    intro a ha b hb
    obtain rfl := List.mem_singleton.1 hb
    exact fun heq => hout (heq ▸ ha)

@[simp]
theorem allRows_opened (id : ι) (title : τ) (sections : List (Section ι τ ρ)) :
    allRows (opened id title sections) = allRows sections := by
  unfold opened
  split <;> simp [allRows]

theorem nodup_ids_extend (h : (ids sections).Nodup) (id : ι) (title : τ) (rows : List ρ) :
    (ids (extend id title rows sections)).Nodup := by
  unfold extend
  rw [ids_map_taking]
  exact nodup_ids_opened h id title

theorem map_taking_of_not_mem {id : ι} (h : id ∉ ids sections) (rows : List ρ) :
    sections.map (taking id rows) = sections := by
  conv_rhs => rw [← List.map_id sections]
  apply List.map_congr_left
  intro s hs
  have hne : s.id ≠ id := fun heq => h (heq ▸ List.mem_map_of_mem hs)
  simp [taking, hne]

theorem allRows_map_taking (h : (ids sections).Nodup) {id : ι} (hid : id ∈ ids sections)
    (rows : List ρ) :
    (allRows (sections.map (taking id rows))).Perm (allRows sections ++ rows) := by
  induction sections with
  | nil => cases hid
  | cons s sections ih =>
    obtain ⟨hout, hd⟩ := List.nodup_cons.1 h
    simp only [allRows, List.map_cons, List.flatMap_cons]
    by_cases hs : s.id = id
    · rw [map_taking_of_not_mem (hs ▸ hout)]
      simp only [taking, hs, if_true, List.append_assoc]
      exact List.Perm.append_left _ List.perm_append_comm
    · have hin : id ∈ ids sections := by
        rcases List.mem_cons.1 hid with heq | hin
        · exact absurd heq.symm hs
        · exact hin
      rw [taking, if_neg hs, List.append_assoc]
      exact List.Perm.append_left _ (ih hd hin)

/-- The rows after `extend` are the rows there were and the new ones. -/
theorem allRows_extend (h : (ids sections).Nodup) (id : ι) (title : τ) (rows : List ρ) :
    (allRows (extend id title rows sections)).Perm (allRows sections ++ rows) := by
  unfold extend
  have hperm := allRows_map_taking (nodup_ids_opened h id title)
    (mem_ids_opened id title sections) rows
  rwa [allRows_opened] at hperm

end Section

end ElectronicMail.Foundations
