import Mathlib.Data.List.Basic

/-!
# Streams that are read in chunks

A read returns some of what is left, at most as much as it is asked for, and nothing at the end
only. Reading until nothing comes, or until a number of units has come, gives the same units
however the source cuts them (`flatten_chunks`, `chunksUpTo_spec`).
-/

namespace ElectronicMail.Foundations.Streams

universe u

variable {α : Type u}

/-- What a read of at most `limit` units returns when `ready` of them are there. -/
def readSome (limit ready : Nat) (rest : List α) : List α := rest.take (min limit (max 1 ready))

theorem readSome_append_drop (limit ready : Nat) (rest : List α) :
    readSome limit ready rest ++ rest.drop (readSome limit ready rest).length = rest := by
  unfold readSome
  rw [List.length_take]
  conv_rhs => rw [← List.take_append_drop (min limit (max 1 ready)) rest]
  congr 1
  rcases Nat.le_total (min limit (max 1 ready)) rest.length with hle | hle
  · rw [Nat.min_eq_left hle]
  · rw [Nat.min_eq_right hle, List.drop_length, List.drop_eq_nil_of_le hle]

theorem length_readSome_le (limit ready : Nat) (rest : List α) :
    (readSome limit ready rest).length ≤ limit := by
  unfold readSome
  rw [List.length_take]
  omega

variable {limit : Nat}

theorem readSome_eq_nil_iff {ready : Nat} (hlimit : 0 < limit) {rest : List α} :
    readSome limit ready rest = [] ↔ rest = [] := by
  unfold readSome
  rw [List.take_eq_nil_iff]
  constructor
  · rintro (hzero | hnil)
    · omega
    · exact hnil
  · exact .inr

/-- The chunks that reads of at most `limit` units return until nothing comes. -/
def chunks (limit : Nat) (ready : Nat → Nat) (rest : List α) : List (List α) :=
  match h : readSome limit (ready 0) rest with
  | [] => []
  | unit :: units =>
    (unit :: units) :: chunks limit (fun i => ready (i + 1)) (rest.drop (units.length + 1))
termination_by rest.length
decreasing_by
  have hlength := congrArg List.length (readSome_append_drop limit (ready 0) rest)
  rw [h, List.length_append, List.length_drop] at hlength
  simp only [List.length_cons, List.length_drop] at hlength ⊢
  omega

theorem flatten_chunks (hlimit : 0 < limit) (ready : Nat → Nat) (rest : List α) :
    (chunks limit ready rest).flatten = rest := by
  fun_induction chunks limit ready rest with
  | case1 ready rest h =>
    rw [(readSome_eq_nil_iff hlimit).1 h]
    rfl
  | case2 ready rest unit units h ih =>
    have happend := readSome_append_drop limit (ready 0) rest
    rw [h] at happend
    rw [List.flatten_cons, ih]
    exact happend

/-- The chunks that reads return until `remaining` units have come, and whether they have. -/
def chunksUpTo (limit : Nat) (ready : Nat → Nat) (rest : List α) (remaining : Nat) :
    List (List α) × Bool :=
  if remaining = 0 then ([], true)
  else
    match h : readSome (min limit remaining) (ready 0) rest with
    | [] => ([], false)
    | unit :: units =>
      let after := chunksUpTo limit (fun i => ready (i + 1)) (rest.drop (units.length + 1))
        (remaining - (units.length + 1))
      ((unit :: units) :: after.1, after.2)
termination_by remaining
decreasing_by omega

theorem chunksUpTo_spec (hlimit : 0 < limit) (ready : Nat → Nat) (rest : List α)
    (remaining : Nat) (henough : remaining ≤ rest.length) :
    (chunksUpTo limit ready rest remaining).1.flatten = rest.take remaining ∧
      (chunksUpTo limit ready rest remaining).2 = true := by
  fun_induction chunksUpTo limit ready rest remaining with
  | case1 ready rest => simp
  | case2 ready rest remaining hmore h =>
    have hnil := (readSome_eq_nil_iff (by omega)).1 h
    rw [hnil] at henough
    simp at henough
    omega
  | case3 ready rest remaining hmore unit units h after ih =>
    have happend := readSome_append_drop (min limit remaining) (ready 0) rest
    have hlength := length_readSome_le (min limit remaining) (ready 0) rest
    rw [h] at happend hlength
    rw [List.length_cons] at hlength
    have hleft : remaining - (units.length + 1) ≤ (rest.drop (units.length + 1)).length := by
      rw [List.length_drop]
      omega
    obtain ⟨hflatten, hall⟩ := ih hleft
    refine ⟨?_, hall⟩
    rw [List.flatten_cons, hflatten]
    conv_rhs => rw [← happend]
    have hhead : (unit :: units).take remaining = unit :: units := by
      apply List.take_of_length_le
      rw [List.length_cons]
      omega
    rw [List.take_append, hhead]
    rfl

end ElectronicMail.Foundations.Streams
