import ElectronicMail.Foundations.Run

/-!
# The last setting of a flag

A state has flags, and each label of a run sets some of them and leaves the others. After a run a
flag is what the last label that sets it sets it to, or what it was before when none does
(`Sets.after_iff`).

`Sets.undone_iff` is about undoing one label after others have come: the flags that it changed get
their old value back and the others stay. This is the run without the label exactly when none of the
changed flags is set the same way by the last of the others that sets it.
-/

namespace ElectronicMail.Foundations

universe u v w

variable {σ : Type u} {ℓ : Type v} {κ : Type w}

def lastSet (sets : ℓ → κ → Option Bool) (k : κ) : List ℓ → Option Bool
  | [] => none
  | l :: ls => (lastSet sets k ls).or (sets l k)

def Sets (step : σ → ℓ → σ) (read : σ → κ → Prop) (sets : ℓ → κ → Option Bool) : Prop :=
  ∀ s l k, read (step s l) k ↔ (sets l k).elim (read s k) (· = true)

def Changes (read : σ → κ → Prop) (sets : ℓ → κ → Option Bool) (s : σ) (l : ℓ) (k : κ) : Prop :=
  ∃ v, sets l k = some v ∧ (read s k ↔ v = false)

section Rules

variable {step : σ → ℓ → σ} {read : σ → κ → Prop} {sets : ℓ → κ → Option Bool}

section

variable (h : Sets step read sets)
include h

theorem Sets.after_iff (s : σ) (ls : List ℓ) (k : κ) :
    read (after step s ls) k ↔ (lastSet sets k ls).elim (read s k) (· = true) := by
  induction ls generalizing s with
  | nil => exact Iff.rfl
  | cons l ls ih =>
    have hrest := ih (step s l)
    cases hlast : lastSet sets k ls with
    | none => simpa [after, lastSet, hlast, h s l k] using hrest
    | some v => simpa [after, lastSet, hlast] using hrest

theorem Sets.after_congr {s s' : σ} {k : κ}
    (hk : read s k ↔ read s' k) (ls : List ℓ) :
    read (after step s ls) k ↔ read (after step s' ls) k := by
  rw [h.after_iff, h.after_iff]
  cases lastSet sets k ls with
  | none => exact hk
  | some v => exact Iff.rfl

theorem Sets.step_iff {s : σ} {l : ℓ} {k : κ}
    (hk : ¬ Changes read sets s l k) : read (step s l) k ↔ read s k := by
  rw [h s l k]
  cases hv : sets l k with
  | none => exact Iff.rfl
  | some v =>
    have hread : ¬ (read s k ↔ v = false) := fun hiff => hk ⟨v, hv, hiff⟩
    cases v <;> simp_all

theorem Sets.undone_iff {s : σ} {l : ℓ} {ls : List ℓ} {k : κ}
    {restored : Prop} (hchanged : Changes read sets s l k → (restored ↔ read s k))
    (hkept : ¬ Changes read sets s l k → (restored ↔ read (after step (step s l) ls) k)) :
    (restored ↔ read (after step s ls) k) ↔
      (Changes read sets s l k → lastSet sets k ls ≠ sets l k) := by
  by_cases hk : Changes read sets s l k
  · obtain ⟨v, hv, hread⟩ := hk
    have hold := hchanged ⟨v, hv, hread⟩
    rw [hold, h.after_iff, hv]
    cases hlast : lastSet sets k ls with
    | none => simp
    | some w =>
      -- The flag was `!v`, and the run without the label ends with `w`.
      have hchange : Changes read sets s l k := ⟨v, hv, hread⟩
      simp only [Option.elim_some, hchange, hread, forall_const, ne_eq, Option.some.injEq]
      cases v <;> cases w <;> simp
  · have hsame := h.after_congr (h.step_iff hk) ls
    simp [hk, hkept hk, hsame]

end

end Rules

end ElectronicMail.Foundations
