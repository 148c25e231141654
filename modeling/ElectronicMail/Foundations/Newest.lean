import Mathlib.Data.List.MinMax

/-!
# Keeping the newest value

A register that replaces its value only by one with a strictly greater key holds,
after any sequence of offers, the first value with the greatest key, the `List.argmax`:
`exists_split_of_mem_argmax` spells it out, and `argmax_eq_of_perm` is the independence of the
order of the offers. One that gives way to an equal key too holds the last such value
(`foldl_latest_split`).
-/

namespace ElectronicMail.Foundations.Newest

universe u v

variable {α : Type u} {κ : Type v} [LinearOrder κ] (key : α → κ)

def newest (held offered : α) : α := if key held < key offered then offered else held

theorem key_le_newest (held offered : α) : key held ≤ key (newest key held offered) := by
  unfold newest
  split
  · rename_i h
    exact le_of_lt h
  · exact le_refl (key held)

variable {key}

theorem exists_split_of_mem_argmax {l : List α} {m : α} (h : m ∈ List.argmax key l) :
    ∃ pre post, l = pre ++ m :: post ∧ (∀ a ∈ pre, key a < key m) ∧ ∀ a ∈ post, key a ≤ key m := by
  induction l using List.reverseRecOn generalizing m with
  | nil =>
    rw [List.argmax_nil] at h
    cases h
  | append_singleton l b ih =>
    rw [List.argmax_concat] at h
    cases hl : List.argmax key l with
    | none =>
      rw [hl] at h
      obtain rfl : b = m := Option.some.inj h
      rw [List.argmax_eq_none.1 hl]
      exact ⟨[], [], rfl, List.forall_mem_nil _, List.forall_mem_nil _⟩
    | some c =>
      rw [hl] at h
      change (if key c < key b then some b else some c) = some m at h
      split at h
      · rename_i hlt
        obtain rfl : b = m := Option.some.inj h
        refine ⟨l, [], rfl, ?_, List.forall_mem_nil _⟩
        intro a ha
        exact lt_of_le_of_lt (List.le_of_mem_argmax ha hl) hlt
      · rename_i hle
        obtain rfl : c = m := Option.some.inj h
        obtain ⟨pre, post, rfl, hpre, hpost⟩ := ih hl
        refine ⟨pre, post ++ [b], by rw [List.append_assoc, List.cons_append], hpre, ?_⟩
        intro a ha
        rcases List.mem_append.1 ha with ha | ha
        · exact hpost a ha
        · rw [List.mem_singleton.1 ha]
          exact not_lt.1 hle

/-- A greatest value that shares its key with no other one is the greatest value of
every rearrangement. -/
theorem argmax_eq_of_perm {l l' : List α} (hperm : l.Perm l') {m : α}
    (h : m ∈ List.argmax key l) (hunique : ∀ a ∈ l, key a = key m → a = m) :
    m ∈ List.argmax key l' := by
  cases hl' : List.argmax key l' with
  | none =>
    have hmem := hperm.mem_iff.1 (List.argmax_mem h)
    rw [List.argmax_eq_none.1 hl'] at hmem
    cases hmem
  | some m' =>
    have hmem' : m' ∈ l := hperm.mem_iff.2 (List.argmax_mem hl')
    have hle : key m ≤ key m' :=
      List.le_of_mem_argmax (hperm.mem_iff.1 (List.argmax_mem h)) hl'
    have hge : key m' ≤ key m := List.le_of_mem_argmax hmem' h
    rw [hunique m' hmem' (le_antisymm hge hle)]
    rfl

/-! ## The later of two equals -/

variable (key) in
def latest (held offered : α) : α := if key held ≤ key offered then offered else held

variable (key) in
theorem foldl_latest_split (first : α) (l : List α) :
    ∃ pre post, first :: l = pre ++ l.foldl (latest key) first :: post ∧
      (∀ a ∈ pre, key a ≤ key (l.foldl (latest key) first)) ∧
      ∀ a ∈ post, key a < key (l.foldl (latest key) first) := by
  induction l using List.reverseRecOn with
  | nil => exact ⟨[], [], rfl, List.forall_mem_nil _, List.forall_mem_nil _⟩
  | append_singleton l b ih =>
    obtain ⟨pre, post, hsplit, hpre, hpost⟩ := ih
    rw [List.foldl_append, List.foldl_cons, List.foldl_nil, latest, ← List.cons_append]
    split
    · next hle =>
      refine ⟨first :: l, [], rfl, fun a ha => ?_, List.forall_mem_nil _⟩
      rw [hsplit] at ha
      rcases List.mem_append.1 ha with ha | ha
      · exact (hpre a ha).trans hle
      rcases List.mem_cons.1 ha with rfl | ha
      · exact hle
      · exact (hpost a ha).le.trans hle
    · next hlt =>
      refine ⟨pre, post ++ [b], by rw [hsplit, List.append_assoc, List.cons_append], hpre, ?_⟩
      intro a ha
      rcases List.mem_append.1 ha with ha | ha
      · exact hpost a ha
      · rw [List.mem_singleton.1 ha]
        exact not_le.1 hlt

theorem foldl_latest_mem (first : α) (l : List α) : l.foldl (latest key) first ∈ first :: l := by
  obtain ⟨pre, post, hsplit, -, -⟩ := foldl_latest_split key first l
  rw [hsplit]
  exact List.mem_append_right _ List.mem_cons_self

theorem le_foldl_latest {first a : α} {l : List α} (ha : a ∈ first :: l) :
    key a ≤ key (l.foldl (latest key) first) := by
  obtain ⟨pre, post, hsplit, hpre, hpost⟩ := foldl_latest_split key first l
  rw [hsplit] at ha
  rcases List.mem_append.1 ha with ha | ha
  · exact hpre a ha
  rcases List.mem_cons.1 ha with heq | ha
  · exact heq ▸ le_refl _
  · exact (hpost a ha).le

theorem foldl_latest_congr {a b : α} (h : key a = key b) (l : List α) :
    (l.foldl (latest key) a = a ∧ l.foldl (latest key) b = b) ∨
      l.foldl (latest key) a = l.foldl (latest key) b := by
  induction l with
  | nil => exact Or.inl ⟨rfl, rfl⟩
  | cons x l ih =>
    simp only [List.foldl_cons, latest]
    rw [h]
    split
    · exact Or.inr rfl
    · exact ih

/-! ## The greatest of a list -/

theorem max?_congr {l l' : List κ} (h : ∀ v ∈ l, ∃ w ∈ l', v ≤ w) (h' : ∀ w ∈ l', ∃ v ∈ l, w ≤ v) :
    l.max? = l'.max? := by
  cases hmax : l.max? with
  | none =>
    rw [List.max?_eq_none_iff] at hmax
    subst hmax
    cases l' with
    | nil => rfl
    | cons w l' => obtain ⟨v, hv, -⟩ := h' w List.mem_cons_self; cases hv
  | some m =>
    obtain ⟨hm, hle⟩ := List.max?_eq_some_iff.1 hmax
    obtain ⟨w, hw, hmw⟩ := h m hm
    obtain ⟨v, hv, hwv⟩ := h' w hw
    obtain rfl : m = w := le_antisymm hmw (hwv.trans (hle v hv))
    refine (List.max?_eq_some_iff.2 ⟨hw, fun b hb => ?_⟩).symm
    obtain ⟨v, hv, hbv⟩ := h' b hb
    exact hbv.trans (hle v hv)

end ElectronicMail.Foundations.Newest
