import Mathlib.Data.List.Infix

/-!
# Texts rewritten from left to right

A `Rule` looks at the head of a text and says how much of it it takes and what it puts
there. `rewrite` goes through a text once: where the rule applies, its replacement comes
out and the scan goes on behind what was taken; elsewhere the element is kept. This is
how a regular expression is substituted.
-/

namespace ElectronicMail.Foundations.Scan

universe u

variable {α : Type u}

abbrev Rule (α : Type u) := List α → Option (Nat × List α)

def rewriteFrom (rule : Rule α) : Nat → List α → List α
  | _, [] => []
  | k + 1, _ :: text => rewriteFrom rule k text
  | 0, c :: text =>
    match rule (c :: text) with
    | none => c :: rewriteFrom rule 0 text
    | some (n, put) => put ++ rewriteFrom rule (n - 1) text

/-- The text with the rule applied wherever the scan finds it to apply. -/
def rewrite (rule : Rule α) (text : List α) : List α := rewriteFrom rule 0 text

end ElectronicMail.Foundations.Scan
