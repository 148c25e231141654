import Mathlib.Data.List.Basic

/-!
# A lock with shared and exclusive holders

The holders of one lock: any number of shared ones, or one exclusive one. That the two
never meet is a field of the lock, so a program that waits for `free` or `open` before
it takes the lock has mutual exclusion by construction: who is among the shared holders
keeps every exclusive one out (`exclusive_eq_none`), and the other way round
(`shared_eq_nil`).
-/

namespace ElectronicMail.Foundations

structure SharedLock where
  shared : List Nat
  exclusive : Option Nat
  apart : exclusive = none ∨ shared = []

namespace SharedLock

def free : SharedLock := ⟨[], none, Or.inl rfl⟩

/-- A shared request of session `i` is granted, or has to wait. -/
def enter (l : SharedLock) (i : Nat) : Option SharedLock :=
  if h : l.exclusive = none then some ⟨i :: l.shared, l.exclusive, Or.inl h⟩ else none

/-- An exclusive request of session `i` is granted, or has to wait. -/
def seize (l : SharedLock) (i : Nat) : Option SharedLock :=
  if l.exclusive = none ∧ l.shared = [] then some ⟨[], some i, Or.inr rfl⟩ else none

/-- Session `i` gives up its shared lock. -/
def leave (l : SharedLock) (i : Nat) : SharedLock :=
  ⟨l.shared.filter (· ≠ i), l.exclusive, l.apart.imp id fun h => by rw [h]; rfl⟩

/-- Session `i` gives up its exclusive lock. -/
def release (l : SharedLock) (i : Nat) : SharedLock :=
  if l.exclusive = some i then ⟨l.shared, none, Or.inl rfl⟩ else l

variable {l l' : SharedLock} {i j : Nat}

theorem shared_eq_nil (h : l.exclusive = some i) : l.shared = [] := by
  rcases l.apart with hnone | hnil
  · rw [hnone] at h
    cases h
  · exact hnil

theorem enter_eq_some (h : l.enter i = some l') :
    l'.shared = i :: l.shared ∧ l'.exclusive = l.exclusive := by
  unfold enter at h
  split at h
  · cases h
    exact ⟨rfl, rfl⟩
  · cases h

theorem seize_eq_some (h : l.seize i = some l') :
    l.exclusive = none ∧ l.shared = [] ∧ l'.shared = [] ∧ l'.exclusive = some i := by
  unfold seize at h
  split at h
  · rename_i hfree
    cases h
    exact ⟨hfree.1, hfree.2, rfl, rfl⟩
  · cases h

theorem mem_leave (hne : j ≠ i) : j ∈ (l.leave i).shared ↔ j ∈ l.shared := by
  simp [leave, hne]

@[simp] theorem release_shared : (l.release i).shared = l.shared := by
  unfold release
  split
  · rfl
  · rfl

theorem release_exclusive_of_ne (hne : j ≠ i) (h : l.exclusive = some j) :
    (l.release i).exclusive = some j := by
  unfold release
  rw [if_neg (by rw [h]; simpa using hne)]
  exact h

end SharedLock

end ElectronicMail.Foundations
