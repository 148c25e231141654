import Mathlib.Data.List.DropRight
import ElectronicMail.Foundations.Text

/-!
# Texts as lists of characters

`strip`, `lower`, and the case folding of `re.IGNORECASE` on lists of characters, for
texts that are taken apart character by character.
-/

namespace ElectronicMail.Foundations.Chars

open Foundations.Text (isSpace)

universe u

/-! ## Trimming -/

section Trim

variable {α : Type u} (p : α → Bool)

/-- What satisfies `p` is taken off both ends. -/
def trim (text : List α) : List α := (text.dropWhile p).rdropWhile p

variable {p}

theorem trim_trim (text : List α) : trim p (trim p text) = trim p text := by
  have hstart : ∀ hl : 0 < (trim p text).length, ¬ p (trim p text)[0] = true := by
    intro hl
    have hinit : trim p text <+: text.dropWhile p := List.rdropWhile_prefix p _
    rw [hinit.getElem hl]
    exact List.dropWhile_get_zero_not p text _
  rw [trim, List.dropWhile_eq_self_iff.2 hstart]
  exact List.rdropWhile_idempotent p _

theorem trim_sublist (text : List α) : (trim p text).Sublist text :=
  (List.rdropWhile_prefix p _).sublist.trans (List.dropWhile_suffix p).sublist

theorem trim_eq_nil_iff {text : List α} : trim p text = [] ↔ ∀ c ∈ text, p c = true := by
  rw [trim, List.rdropWhile_eq_nil_iff]
  refine ⟨fun h => ?_, fun h c hc => h c ((List.dropWhile_suffix p).subset hc)⟩
  by_contra hne
  have hdrop : text.dropWhile p ≠ [] := fun hnil => hne (List.dropWhile_eq_nil_iff.1 hnil)
  have hhead := List.head_dropWhile_not p hdrop
  rw [h _ (List.head_mem hdrop)] at hhead
  cases hhead

/-- A text that stays as it is begins and ends with what does not satisfy `p`. -/
theorem trim_eq_self_iff {text : List α} :
    trim p text = text ↔ (∀ c ∈ text.head?, p c = false) ∧ ∀ c ∈ text.getLast?, p c = false := by
  cases text with
  | nil => simp [trim]
  | cons a text =>
    by_cases ha : p a = true
    · refine iff_of_false (fun h => ?_) fun h => by simp [ha] at h
      have hle : (trim p text).length ≤ text.length := (trim_sublist text).length_le
      rw [trim, List.dropWhile_cons_of_pos ha] at h
      rw [trim, h, List.length_cons] at hle
      omega
    · rw [trim, List.dropWhile_cons_of_neg ha, List.rdropWhile_eq_self_iff]
      simp [ha, List.getLast?_eq_some_getLast]

end Trim

/-- `text.strip()`. -/
def strip (text : List Char) : List Char := trim isSpace text

theorem toList_strip (text : String) : (Text.strip text).toList = strip text.toList :=
  String.toList_ofList

theorem strip_strip (text : String) : Text.strip (Text.strip text) = Text.strip text := by
  show String.ofList (strip (Text.strip text).toList) = Text.strip text
  rw [toList_strip]
  exact congrArg String.ofList (trim_trim text.toList)

/-! ## Case -/

/-- `text.lower()` of one character. Of the letters outside ASCII, these two have letters
of ASCII in their lower case; the others are kept. -/
def lowerChar (c : Char) : List Char :=
  if c = '\u0130' then ['i', '\u0307']
  else if c = '\u212a' then ['k']
  else [c.toLower]

/-- `text.lower()`. -/
def lower (text : List Char) : List Char := text.flatMap lowerChar

@[simp] theorem toLower_toLower (c : Char) : c.toLower.toLower = c.toLower := by
  have hupper : ¬ (c.toLower.val ≥ 'A'.val ∧ c.toLower.val ≤ 'Z'.val) := by
    unfold Char.toLower
    split <;> grind [UInt32.toNat_add, Char.toNat_val]
  exact dif_neg hupper

/-- The lower case that `re.IGNORECASE` compares characters by. -/
def foldCase (c : Char) : Char :=
  if c = '\u0130' || c = '\u0131' then 'i'
  else if c = '\u017f' then 's'
  else if c = '\u212a' then 'k'
  else c.toLower

def startsWith (word text : List Char) : Bool := word.isPrefixOf (text.map foldCase)

/-- `ord(c) < 32 or ord(c) == 127`. -/
def isControl (c : Char) : Bool := c.toNat < 32 || c.toNat = 127

end ElectronicMail.Foundations.Chars
