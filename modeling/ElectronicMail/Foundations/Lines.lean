import Mathlib.Data.List.Basic
import Mathlib.Data.List.Flatten

/-!
# Reading a stream line by line

A reader takes a stream in chunks and yields the lines that have been ended.
-/

namespace ElectronicMail.Foundations.Lines

universe u

variable {α : Type u} (ends : α → Bool)

/-- The lines that end in a text, with what is left unfinished; `unfinished` has been read
before it. -/
def read (unfinished : List α) : List α → List (List α) × List α
  | [] => ([], unfinished)
  | c :: text =>
    if ends c then
      let rest := read [] text
      (unfinished :: rest.1, rest.2)
    else read (unfinished ++ [c]) text

end ElectronicMail.Foundations.Lines
