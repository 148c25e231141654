import Mathlib.Data.List.Infix

/-!
# Length-prefixed records without a separator

A record of a name and a number is written `length:name:number` in decimal, and
records are written one after another with nothing between them. The length says
where the name ends, but nothing says where the number of one record ends and the
length of the next begins.

`frames_inj` is the criterion for reading such a text back: it has one reading as
long as no name has a colon at a position whose decimal digits end the digits of the
length of the name (`Splits`).
-/

namespace ElectronicMail.Foundations.LengthPrefix

def digits (n : Nat) : List Char := Nat.toDigits 10 n

/-- `length:name:number`. -/
def frame (record : List Char × Nat) : List Char :=
  digits record.1.length ++ ':' :: (record.1 ++ ':' :: digits record.2)

def frames (records : List (List Char × Nat)) : List Char := records.flatMap frame

/-- The name has a colon where a shorter name would end whose length is written with
the last digits of the length of this one. -/
def Splits (name : List Char) : Prop :=
  ∃ k, 0 < k ∧ name[k]? = some ':' ∧ digits k <:+ digits name.length

theorem not_splits_of_not_mem {name : List Char} (h : ':' ∉ name) : ¬ Splits name := by
  rintro ⟨k, -, hk, -⟩
  exact h (List.mem_of_getElem? hk)

@[simp]
theorem frames_nil : frames [] = [] := rfl

@[simp]
theorem frames_cons (record : List Char × Nat) (records : List (List Char × Nat)) :
    frames (record :: records) = frame record ++ frames records := rfl

variable {m n : Nat}

/-! ## Digits -/

theorem digits_inj (h : digits m = digits n) : m = n := by
  calc m = Nat.ofDigitChars 10 (digits m) 0 := Nat.ofDigitChars_ten_toDigits.symm
    _ = Nat.ofDigitChars 10 (digits n) 0 := by rw [h]
    _ = n := Nat.ofDigitChars_ten_toDigits

theorem colon_not_mem_digits (n : Nat) : ':' ∉ digits n := by
  intro h
  have hdigit := Nat.isDigit_of_mem_toDigits (by decide) (by decide) h
  exact absurd hdigit (by decide)

theorem digits_length_pos (n : Nat) : 0 < (digits n).length := Nat.length_toDigits_pos

theorem digits_length_mono (h : m ≤ n) : (digits m).length ≤ (digits n).length := by
  apply (Nat.length_toDigits_le_iff (by decide) (digits_length_pos n)).2
  exact Nat.lt_of_le_of_lt h ((Nat.length_toDigits_le_iff (by decide) (digits_length_pos n)).1
    (Nat.le_refl _))

theorem le_of_digits_suffix (h : digits m <:+ digits n) : m ≤ n := by
  by_contra hlt
  have hlength : (digits m).length = (digits n).length :=
    Nat.le_antisymm h.length_le (digits_length_mono (by omega))
  have : m = n := digits_inj (h.eq_of_length hlength)
  omega

/-! ## Reading back -/

theorem cut_at_colon {xs ys us vs : List Char} (hxs : ':' ∉ xs) (hys : ':' ∉ ys)
    (h : xs ++ ':' :: us = ys ++ ':' :: vs) : xs = ys ∧ us = vs := by
  induction xs generalizing ys with
  | nil =>
    cases ys with
    | nil => exact ⟨rfl, (List.cons.inj h).2⟩
    | cons =>
      obtain ⟨rfl, -⟩ := List.cons.inj h
      exact absurd List.mem_cons_self hys
  | cons x xs ih =>
    cases ys with
    | nil =>
      obtain ⟨rfl, -⟩ := List.cons.inj h
      exact absurd List.mem_cons_self hxs
    | cons =>
      obtain ⟨rfl, hrest⟩ := List.cons.inj h
      obtain ⟨rfl, rfl⟩ := ih (fun hmem => hxs (List.mem_cons_of_mem _ hmem))
        (fun hmem => hys (List.mem_cons_of_mem _ hmem)) hrest
      exact ⟨rfl, rfl⟩

theorem splits_of_suffix {name name' rest rest' : List Char} (hne : name' ≠ [])
    (hsuffix : digits name'.length <:+ digits name.length) (hlength : name'.length ≠ name.length)
    (h : name ++ ':' :: rest = name' ++ ':' :: rest') : Splits name := by
  have hlt : name'.length < name.length :=
    Nat.lt_of_le_of_ne (le_of_digits_suffix hsuffix) hlength
  refine ⟨name'.length, List.length_pos_of_ne_nil hne, ?_, hsuffix⟩
  calc name[name'.length]? = (name ++ ':' :: rest)[name'.length]? :=
        (List.getElem?_append_left hlt).symm
    _ = (name' ++ ':' :: rest')[name'.length]? := by rw [h]
    _ = some ':' := by simp

variable {xs ys : List (List Char × Nat)}

theorem number_frames_inj (hxs : ∀ x ∈ xs, x.1 ≠ [] ∧ ¬ Splits x.1)
    (hys : ∀ y ∈ ys, y.1 ≠ [] ∧ ¬ Splits y.1) (h : digits m ++ frames xs = digits n ++ frames ys) :
    m = n ∧ xs = ys := by
  induction xs generalizing ys m n with
  | nil =>
    cases ys with
    | nil =>
      simp only [frames_nil, List.append_nil] at h
      exact ⟨digits_inj h, rfl⟩
    | cons =>
      exfalso
      apply colon_not_mem_digits m
      simp only [frames_nil, List.append_nil] at h
      rw [h]
      simp [frame]
  | cons x xs ih =>
    cases ys with
    | nil =>
      exfalso
      apply colon_not_mem_digits n
      simp only [frames_nil, List.append_nil] at h
      rw [← h]
      simp [frame]
    | cons y ys =>
      obtain ⟨name, number⟩ := x
      obtain ⟨name', number'⟩ := y
      obtain ⟨hname, hsplits⟩ := hxs _ List.mem_cons_self
      obtain ⟨hname', hsplits'⟩ := hys _ List.mem_cons_self
      simp only [frames_cons, frame, List.append_assoc, List.cons_append] at h
      rw [← List.append_assoc, ← List.append_assoc] at h
      have hcolon : ∀ i j, ':' ∉ digits i ++ digits j := by
        intro i j hmem
        rcases List.mem_append.1 hmem with hmem | hmem
        · exact colon_not_mem_digits i hmem
        · exact colon_not_mem_digits j hmem
      obtain ⟨hnumber, hrest⟩ := cut_at_colon (hcolon _ _) (hcolon _ _) h
      -- Both lengths end the same run of digits.
      have hlength : name.length = name'.length := by
        by_contra hne
        have hsuffix : digits name.length <:+ digits n ++ digits name'.length :=
          ⟨digits m, hnumber⟩
        rcases List.suffix_or_suffix_of_suffix hsuffix (List.suffix_append _ _) with
          hshort | hshort
        · exact hsplits' (splits_of_suffix hname hshort hne hrest.symm)
        · exact hsplits (splits_of_suffix hname' hshort (Ne.symm hne) hrest)
      rw [hlength] at hnumber
      obtain ⟨rfl, htail⟩ := List.append_inj hrest hlength
      obtain ⟨rfl, rfl⟩ := ih (fun z hz => hxs z (List.mem_cons_of_mem _ hz))
        (fun z hz => hys z (List.mem_cons_of_mem _ hz)) (List.cons.inj htail).2
      exact ⟨digits_inj (List.append_cancel_right hnumber), rfl⟩

/-- **Records are read back in one way** as long as no name splits. -/
theorem frames_inj (hxs : ∀ x ∈ xs, x.1 ≠ [] ∧ ¬ Splits x.1)
    (hys : ∀ y ∈ ys, y.1 ≠ [] ∧ ¬ Splits y.1) (h : frames xs = frames ys) : xs = ys := by
  apply (number_frames_inj hxs hys (m := 0) (n := 0) _).2
  rw [h]

end ElectronicMail.Foundations.LengthPrefix
