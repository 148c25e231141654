import Mathlib.Algebra.Order.Group.Defs
import Mathlib.Algebra.Order.Group.Basic
import Mathlib.Data.List.TakeWhile

/-!
# Sliding windows over a log of times

A limiter keeps the latest entries of a growing log of times and forgets those that have left the
window before `now`. `Window` says that the entries kept are the end of the log and that what is
forgotten lies at least a window back; forgetting more (`Window.evict`, `Window.clear`) and adding
an entry at `now` (`Window.push`) keep this.

`Window.count_push_le` is the limit: entries of the log that lie pairwise less than a window apart,
with the one that is added among them, are all kept.
-/

namespace ElectronicMail.Foundations

universe u

variable {τ : Type u} [AddCommGroup τ] [LinearOrder τ]

/-- Forget the entries at the front that are no later than the cutoff. -/
def evict (cutoff : τ) (kept : List τ) : List τ := kept.dropWhile (· ≤ cutoff)

theorem length_evict_le (cutoff : τ) (kept : List τ) : (evict cutoff kept).length ≤ kept.length :=
  (List.dropWhile_sublist _).length_le

theorem evict_cons_of_le {cutoff first : τ} (h : first ≤ cutoff) (rest : List τ) :
    evict cutoff (first :: rest) = evict cutoff rest := by
  simp [evict, h]

/-- The entries kept from a log: its end, without entries that the window before `now` has left. -/
structure Window (width now : τ) (log kept : List τ) : Prop where
  split : ∃ forgotten, log = forgotten ++ kept ∧ ∀ t ∈ forgotten, t ≤ now - width
  sorted : log.Pairwise (· ≤ ·)
  past : ∀ t ∈ log, t ≤ now

namespace Window

variable {width now now' : τ} {log kept : List τ}

theorem nil : Window width now [] [] :=
  ⟨⟨[], rfl, List.forall_mem_nil _⟩, List.Pairwise.nil, List.forall_mem_nil _⟩

section

variable (h : Window width now log kept)
include h

theorem mono [IsOrderedAddMonoid τ] (hnow : now ≤ now') : Window width now' log kept := by
  obtain ⟨forgotten, hlog, hforgotten⟩ := h.split
  refine ⟨⟨forgotten, hlog, ?_⟩, h.sorted, ?_⟩
  · intro t ht
    exact (hforgotten t ht).trans (sub_le_sub_right hnow width)
  · intro t ht
    exact (h.past t ht).trans hnow

theorem sorted_kept : kept.Pairwise (· ≤ ·) := by
  obtain ⟨forgotten, hlog, -⟩ := h.split
  exact (List.pairwise_append.1 (hlog ▸ h.sorted)).2.1

theorem drop {gone rest : List τ} (hkept : kept = gone ++ rest)
    (hgone : ∀ t ∈ gone, t ≤ now - width) : Window width now log rest := by
  obtain ⟨forgotten, hlog, hforgotten⟩ := h.split
  refine ⟨⟨forgotten ++ gone, by rw [hlog, hkept, List.append_assoc], ?_⟩, h.sorted, h.past⟩
  intro t ht
  rcases List.mem_append.1 ht with ht | ht
  · exact hforgotten t ht
  · exact hgone t ht

theorem evict : Window width now log (evict (now - width) kept) := by
  refine h.drop (List.takeWhile_append_dropWhile).symm ?_
  intro t ht
  simpa using List.mem_takeWhile_imp ht

theorem clear (hlast : ∀ last ∈ kept.getLast?, last ≤ now - width) : Window width now log [] := by
  refine h.drop (List.append_nil kept).symm ?_
  intro t ht
  obtain ⟨last, hmem⟩ := Option.ne_none_iff_exists'.1
    (mt List.getLast?_eq_none_iff.1 (List.ne_nil_of_mem ht))
  refine le_trans ?_ (hlast last hmem)
  -- The entries are sorted, so the last one is the latest.
  obtain ⟨front, hkept⟩ := List.getLast?_eq_some_iff.1 hmem
  have hsorted := h.sorted_kept
  rw [hkept] at ht hsorted
  rcases List.mem_append.1 ht with ht | ht
  · exact (List.pairwise_append.1 hsorted).2.2 t ht last (List.mem_singleton_self last)
  · exact le_of_eq (List.mem_singleton.1 ht)

theorem push : Window width now (log ++ [now]) (kept ++ [now]) := by
  obtain ⟨forgotten, hlog, hforgotten⟩ := h.split
  refine ⟨⟨forgotten, by rw [hlog, List.append_assoc], hforgotten⟩, ?_, ?_⟩
  · rw [List.pairwise_append]
    refine ⟨h.sorted, List.pairwise_singleton _ _, ?_⟩
    intro t ht t' ht'
    rw [List.mem_singleton.1 ht']
    exact h.past t ht
  · intro t ht
    rcases List.mem_append.1 ht with ht | ht
    · exact h.past t ht
    · exact le_of_eq (List.mem_singleton.1 ht)

theorem evicted_in_window :
    ∀ t ∈ Foundations.evict (now - width) kept, now - width < t ∧ t ≤ now := by
  intro t ht
  obtain ⟨forgotten, hlog, -⟩ := h.split
  have hmem : t ∈ kept := (List.dropWhile_sublist _).subset ht
  refine ⟨?_, h.past t (hlog ▸ List.mem_append_right forgotten hmem)⟩
  cases hevict : Foundations.evict (now - width) kept with
  | nil =>
    rw [hevict] at ht
    cases ht
  | cons first rest =>
    have hfirst : ¬ first ≤ now - width := by
      have hhead := List.head?_dropWhile_not (· ≤ now - width) kept
      have hcons : kept.dropWhile (· ≤ now - width) = first :: rest := hevict
      rw [hcons] at hhead
      simpa using hhead
    have hsorted := h.evict.sorted_kept
    rw [hevict] at ht hsorted
    rcases List.mem_cons.1 ht with rfl | ht
    · exact not_le.1 hfirst
    · exact (not_le.1 hfirst).trans_le ((List.pairwise_cons.1 hsorted).1 t ht)

theorem length_evict_le :
    (Foundations.evict (now - width) kept).length ≤
      (log.filter fun t => now - width < t ∧ t ≤ now).length := by
  obtain ⟨forgotten, hlog, -⟩ := h.evict.split
  rw [hlog, List.filter_append, List.length_append,
    List.filter_eq_self.2 fun t ht => decide_eq_true (h.evicted_in_window t ht)]
  exact Nat.le_add_left _ _

theorem count_push_le {p : τ → Bool}
    (hp : ∀ t t', p t = true → p t' = true → t' - width < t) {limit : Nat}
    (hlog : (log.filter p).length ≤ limit) (hkept : kept.length < limit) :
    ((log ++ [now]).filter p).length ≤ limit := by
  cases hnow : p now with
  | false => simpa [List.filter_append, hnow] using hlog
  | true =>
    obtain ⟨forgotten, hsplit, hforgotten⟩ := h.split
    have hnone : forgotten.filter p = [] := by
      rw [List.filter_eq_nil_iff]
      intro t ht htrue
      exact absurd (hp t now htrue hnow) (not_lt.2 (hforgotten t ht))
    have hlength := List.length_filter_le p kept
    rw [hsplit, List.filter_append, List.filter_append, hnone,
      List.filter_cons_of_pos hnow, List.filter_nil]
    simp only [List.nil_append, List.length_append, List.length_singleton]
    omega

end

end Window

end ElectronicMail.Foundations
