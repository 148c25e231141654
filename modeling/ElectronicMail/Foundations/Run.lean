import Mathlib.Data.List.Infix

/-!
# Runs of a step function

A system is a total function `step : σ → ℓ → σ`; a label that is not enabled
leaves the state as it is. A run is a list of labels: `after step s ls` is the
state it ends in, `Throughout step P s ls` says that `P` holds in every state it
visits, and `Along step good s ls` that every step meets a condition on the state
before it and its label.

Safety statements are proved with `throughout_of_step`: a predicate that holds at
the start and that every step meeting the condition keeps holds throughout every
run whose steps all meet it. `along_of_step` is the same for a condition on the
steps of a run.
-/

namespace ElectronicMail.Foundations

universe u v

variable {σ : Type u} {ℓ : Type v}

def after (step : σ → ℓ → σ) : σ → List ℓ → σ
  | s, [] => s
  | s, l :: ls => after step (step s l) ls

/-- Every state the run visits, the first and the last included, satisfies `P`. -/
def Throughout (step : σ → ℓ → σ) (P : σ → Prop) : σ → List ℓ → Prop
  | s, [] => P s
  | s, l :: ls => P s ∧ Throughout step P (step s l) ls

/-- Every step of the run meets `good`. -/
def Along (step : σ → ℓ → σ) (good : σ → ℓ → Prop) : σ → List ℓ → Prop
  | _, [] => True
  | s, l :: ls => good s l ∧ Along step good (step s l) ls

instance decidableAlong (step : σ → ℓ → σ) (good : σ → ℓ → Prop)
    [∀ s l, Decidable (good s l)] : ∀ s ls, Decidable (Along step good s ls)
  | _, [] => inferInstanceAs (Decidable True)
  | s, l :: ls =>
    have := decidableAlong step good (step s l) ls
    inferInstanceAs (Decidable (good s l ∧ Along step good (step s l) ls))

variable {ls : List ℓ}

section Rules

variable {step : σ → ℓ → σ}

theorem after_append (s : σ) (ls ms : List ℓ) :
    after step s (ls ++ ms) = after step (after step s ls) ms := by
  induction ls generalizing s with
  | nil => rfl
  | cons l ls ih => exact ih (step s l)

variable {P : σ → Prop} {s : σ}

theorem Throughout.last (h : Throughout step P s ls) : P (after step s ls) := by
  induction ls generalizing s with
  | nil => exact h
  | cons l ls ih => exact ih h.2

theorem Throughout.mono {Q : σ → Prop} (hPQ : ∀ s, P s → Q s) (h : Throughout step P s ls) :
    Throughout step Q s ls := by
  induction ls generalizing s with
  | nil => exact hPQ s h
  | cons l ls ih => exact ⟨hPQ s h.1, ih h.2⟩

variable {good : σ → ℓ → Prop}

theorem Along.and {good' : σ → ℓ → Prop} (h : Along step good s ls) (h' : Along step good' s ls) :
    Along step (fun s l => good s l ∧ good' s l) s ls := by
  induction ls generalizing s with
  | nil => trivial
  | cons l ls ih => exact ⟨⟨h.1, h'.1⟩, ih h.2 h'.2⟩

theorem Along.initial {all : List ℓ} (h : ls <+: all) (hall : Along step good s all) :
    Along step good s ls := by
  induction ls generalizing s all with
  | nil => trivial
  | cons l ls ih =>
    obtain ⟨rest, rfl⟩ := h
    exact ⟨hall.1, ih ⟨rest, rfl⟩ hall.2⟩

theorem Along.append_right {ms : List ℓ} (h : Along step good s (ls ++ ms)) :
    Along step good (after step s ls) ms := by
  induction ls generalizing s with
  | nil => exact h
  | cons l ls ih => exact ih h.2

theorem Along.last {l : ℓ} (h : Along step good s (ls ++ [l])) : good (after step s ls) l := by
  induction ls generalizing s with
  | nil => exact h.1
  | cons m ls ih => exact ih h.2

theorem along_of_forall (h : ∀ s l, good s l) (s : σ) (ls : List ℓ) : Along step good s ls := by
  induction ls generalizing s with
  | nil => trivial
  | cons l ls ih => exact ⟨h s l, ih (step s l)⟩

variable {I : σ → Prop}

/-- **The invariant rule.** A predicate that holds at the start and is kept by
every step that meets `good` holds throughout every run along `good`. -/
theorem throughout_of_step (hI : ∀ s l, I s → good s l → I (step s l)) (hs : I s)
    (hgood : Along step good s ls) : Throughout step I s ls := by
  induction ls generalizing s with
  | nil => exact hs
  | cons l ls ih => exact ⟨hs, ih (hI s l hs hgood.1) hgood.2⟩

/-- **The exact invariant rule.** When an invariant gives `P` and is kept by the steps that
meet `good`, and no other step keeps `P`, the runs throughout which `P` holds are those
along `good`. -/
theorem throughout_iff_along (hP : ∀ s, I s → P s) (hI : ∀ s l, I s → good s l → I (step s l))
    (hgood : ∀ s l, I s → P (step s l) → good s l) (hs : I s) :
    Throughout step P s ls ↔ Along step good s ls := by
  induction ls generalizing s with
  | nil => exact ⟨fun _ => trivial, fun _ => hP s hs⟩
  | cons l ls ih =>
    constructor
    · rintro ⟨_, hrest⟩
      have hnext : P (step s l) := by
        cases ls with
        | nil => exact hrest
        | cons => exact hrest.1
      have hl := hgood s l hs hnext
      exact ⟨hl, (ih (hI s l hs hl)).1 hrest⟩
    · rintro ⟨hl, hrest⟩
      exact ⟨hP s hs, (ih (hI s l hs hl)).2 hrest⟩

theorem after_of_step (hI : ∀ s l, I s → I (step s l)) (hs : I s) (ls : List ℓ) :
    I (after step s ls) := by
  induction ls generalizing s with
  | nil => exact hs
  | cons l ls ih => exact ih (hI s l hs)

theorem Throughout.along (h : Throughout step P s ls) :
    Along step (fun s l => P s ∧ P (step s l)) s ls := by
  induction ls generalizing s with
  | nil => trivial
  | cons l ls ih =>
    have hnext : P (step s l) := by
      cases ls with
      | nil => exact h.2
      | cons => exact h.2.1
    exact ⟨⟨h.1, hnext⟩, ih h.2⟩

theorem along_of_step {given : σ → ℓ → Prop} (hI : ∀ s l, I s → given s l → good s l ∧ I (step s l))
    (hs : I s) (hgiven : Along step given s ls) : Along step good s ls := by
  induction ls generalizing s with
  | nil => trivial
  | cons l ls ih =>
    obtain ⟨hgood, hinv⟩ := hI s l hs hgiven.1
    exact ⟨hgood, ih hinv hgiven.2⟩

end Rules

end ElectronicMail.Foundations
