import Mathlib.Data.List.Basic

/-!
# Text operations of the source language

`strip`, the slice `text[:n]` and truth values as the source language defines them
on strings.
-/

namespace ElectronicMail.Foundations.Text

/-- The characters `str.isspace` accepts. -/
def isSpace (c : Char) : Bool :=
  let n := c.toNat
  (9 ≤ n && n ≤ 13) || (28 ≤ n && n ≤ 32) || n = 0x85 || n = 0xa0 || n = 0x1680 ||
    (0x2000 ≤ n && n ≤ 0x200a) || n = 0x2028 || n = 0x2029 || n = 0x202f || n = 0x205f ||
    n = 0x3000

/-- `text.strip()`. -/
def strip (text : String) : String :=
  String.ofList ((text.toList.dropWhile isSpace).reverse.dropWhile isSpace).reverse

/-- `text.lower()` on the letters of ASCII; others are kept. -/
def lower (text : String) : String :=
  String.ofList (text.toList.map Char.toLower)

/-- The truth value of an optional text: `None` and `""` are false. -/
def truthy : Option String → Bool
  | none => false
  | some text => text != ""

/-- `text[:n]`. -/
def truncate (n : Nat) (text : String) : String :=
  String.ofList (text.toList.take n)

theorem truncate_length_le (n : Nat) (text : String) : (truncate n text).toList.length ≤ n := by
  unfold truncate
  rw [String.toList_ofList, List.length_take]
  exact Nat.min_le_left n _

theorem truncate_eq_self {n : Nat} {text : String} (h : text.toList.length ≤ n) :
    truncate n text = text := by
  unfold truncate
  rw [List.take_of_length_le h, String.ofList_toList]

end ElectronicMail.Foundations.Text
