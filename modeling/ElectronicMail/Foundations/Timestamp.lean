import Mathlib.Order.Basic
import Mathlib.Algebra.Ring.Nat
import Mathlib.Data.List.Basic

/-!
# Timestamps and their ISO text

A point in time as a date and a time of day in UTC, to the microsecond. `isoformat`
is the text the source language prints for it and `fromisoformat` reads such a text
back; `fromisoformat_isoformat` is the round trip.
-/

namespace ElectronicMail.Foundations

@[ext] structure Timestamp where
  year : Nat
  month : Nat
  day : Nat
  hour : Nat
  minute : Nat
  second : Nat
  microsecond : Nat
  year_lt : year < 10 ^ 4
  month_lt : month < 13
  day_lt : day < 32
  hour_lt : hour < 24
  minute_lt : minute < 60
  second_lt : second < 60
  microsecond_lt : microsecond < 10 ^ 6
  deriving DecidableEq

namespace Timestamp

def ordinal (t : Timestamp) : Nat :=
  (((((t.year * 13 + t.month) * 32 + t.day) * 24 + t.hour) * 60 + t.minute) * 60 + t.second) *
    10 ^ 6 + t.microsecond

theorem ordinal_injective : Function.Injective ordinal := by
  intro a b h
  obtain ⟨y, mo, d, h₁, mi, s, us, hy, hmo, hd, hh, hmi, hs, hus⟩ := a
  obtain ⟨y', mo', d', h₁', mi', s', us', hy', hmo', hd', hh', hmi', hs', hus'⟩ := b
  simp only [ordinal] at h
  simp only [Timestamp.mk.injEq]
  omega

/-- Points in time in order. -/
instance : LinearOrder Timestamp := LinearOrder.lift' ordinal ordinal_injective

/-! ## The text -/

/-- `n` in decimal with leading zeros up to `width` digits. -/
def padded (width n : Nat) : List Char :=
  List.replicate (width - (Nat.toDigits 10 n).length) '0' ++ Nat.toDigits 10 n

/-- The characters of `isoformat`. -/
def isoChars (t : Timestamp) : List Char :=
  padded 4 t.year ++ '-' :: (padded 2 t.month ++ '-' :: (padded 2 t.day ++ 'T' ::
    (padded 2 t.hour ++ ':' :: (padded 2 t.minute ++ ':' :: (padded 2 t.second ++
      ((if t.microsecond = 0 then [] else '.' :: padded 6 t.microsecond) ++
        ['+', '0', '0', ':', '0', '0']))))))

/-- `value.isoformat()`; the microseconds are left out when they are zero. -/
def isoformat (t : Timestamp) : String := String.ofList t.isoChars

/-- Exactly `width` digits and the rest of the text. -/
def readDigits (width : Nat) (text : List Char) : Option (Nat × List Char) :=
  if (text.take width).length = width ∧ (text.take width).all Char.isDigit then
    some (Nat.ofDigitChars 10 (text.take width) 0, text.drop width)
  else none

def readChar (c : Char) : List Char → Option (List Char)
  | [] => none
  | d :: text => if d = c then some text else none

def readMicrosecond : List Char → Option (Nat × List Char)
  | '.' :: text => readDigits 6 text
  | text => some (0, text)

/-- `datetime.fromisoformat`, for the texts that `isoformat` writes and for those
without an offset, which are taken as UTC. -/
def fromisoformat (text : List Char) : Option Timestamp := do
  let (year, text) ← readDigits 4 text
  let text ← readChar '-' text
  let (month, text) ← readDigits 2 text
  let text ← readChar '-' text
  let (day, text) ← readDigits 2 text
  let text ← readChar 'T' text
  let (hour, text) ← readDigits 2 text
  let text ← readChar ':' text
  let (minute, text) ← readDigits 2 text
  let text ← readChar ':' text
  let (second, text) ← readDigits 2 text
  let (microsecond, text) ← readMicrosecond text
  if text = [] ∨ text = ['+', '0', '0', ':', '0', '0'] then
    if h : year < 10 ^ 4 ∧ month < 13 ∧ day < 32 ∧ hour < 24 ∧ minute < 60 ∧ second < 60 ∧
        microsecond < 10 ^ 6 then
      some ⟨year, month, day, hour, minute, second, microsecond, h.1, h.2.1, h.2.2.1, h.2.2.2.1,
        h.2.2.2.2.1, h.2.2.2.2.2.1, h.2.2.2.2.2.2⟩
    else none
  else none

variable {width n : Nat}

/-! ## The round trip -/

theorem length_padded (hwidth : 0 < width) (hn : n < 10 ^ width) :
    (padded width n).length = width := by
  have hlen : (Nat.toDigits 10 n).length ≤ width :=
    (Nat.length_toDigits_le_iff (by decide) hwidth).2 hn
  rw [padded, List.length_append, List.length_replicate]
  omega

theorem isDigit_of_mem_padded {c : Char} (hc : c ∈ padded width n) : c.isDigit = true := by
  rcases List.mem_append.1 hc with hc | hc
  · rw [List.eq_of_mem_replicate hc]
    rfl
  · exact Nat.isDigit_of_mem_toDigits (by decide) (by decide) hc

@[simp] theorem ofDigitChars_padded (width n : Nat) :
    Nat.ofDigitChars 10 (padded width n) 0 = n := by
  rw [padded, Nat.ofDigitChars_append, Nat.ofDigitChars_replicate_zero, Nat.mul_zero,
    Nat.ofDigitChars_ten_toDigits]

theorem readDigits_padded (hwidth : 0 < width) (hn : n < 10 ^ width)
    (text : List Char) : readDigits width (padded width n ++ text) = some (n, text) := by
  have hlen := length_padded hwidth hn
  have htake : (padded width n ++ text).take width = padded width n := List.take_left' hlen
  have hdigits : (padded width n).all Char.isDigit = true :=
    List.all_eq_true.2 fun c hc => isDigit_of_mem_padded hc
  rw [readDigits, htake, if_pos ⟨hlen, hdigits⟩, ofDigitChars_padded, List.drop_left' hlen]

@[simp] theorem readChar_cons (c : Char) (text : List Char) : readChar c (c :: text) = some text :=
  if_pos rfl

theorem readMicrosecond_written (hn : n < 10 ^ 6) :
    readMicrosecond ((if n = 0 then [] else '.' :: padded 6 n) ++ ['+', '0', '0', ':', '0', '0']) =
      some (n, ['+', '0', '0', ':', '0', '0']) := by
  by_cases h : n = 0
  · subst h
    rfl
  · rw [if_neg h]
    exact readDigits_padded (by decide) hn _

/-- **The round trip.** -/
theorem fromisoformat_isoChars (t : Timestamp) : fromisoformat t.isoChars = some t := by
  have hmonth : t.month < 10 ^ 2 := lt_of_lt_of_le t.month_lt (by decide)
  have hday : t.day < 10 ^ 2 := lt_of_lt_of_le t.day_lt (by decide)
  have hhour : t.hour < 10 ^ 2 := lt_of_lt_of_le t.hour_lt (by decide)
  have hminute : t.minute < 10 ^ 2 := lt_of_lt_of_le t.minute_lt (by decide)
  have hsecond : t.second < 10 ^ 2 := lt_of_lt_of_le t.second_lt (by decide)
  have hranges : t.year < 10 ^ 4 ∧ t.month < 13 ∧ t.day < 32 ∧ t.hour < 24 ∧ t.minute < 60 ∧
      t.second < 60 ∧ t.microsecond < 10 ^ 6 :=
    ⟨t.year_lt, t.month_lt, t.day_lt, t.hour_lt, t.minute_lt, t.second_lt, t.microsecond_lt⟩
  simp only [fromisoformat, isoChars, readDigits_padded (by decide : 0 < 4) t.year_lt,
    readDigits_padded (by decide : 0 < 2) hmonth, readDigits_padded (by decide : 0 < 2) hday,
    readDigits_padded (by decide : 0 < 2) hhour, readDigits_padded (by decide : 0 < 2) hminute,
    readDigits_padded (by decide : 0 < 2) hsecond, readMicrosecond_written t.microsecond_lt,
    readChar_cons, Option.bind_eq_bind, Option.bind_some, or_true, if_true, dif_pos hranges]

/-- `text.replace("Z", "+00:00")`. -/
def replaceZulu (text : List Char) : List Char :=
  text.flatMap fun c => if c = 'Z' then ['+', '0', '0', ':', '0', '0'] else [c]

theorem replaceZulu_eq_self {text : List Char} (h : 'Z' ∉ text) : replaceZulu text = text := by
  induction text with
  | nil => rfl
  | cons c text ih =>
    rw [List.mem_cons, not_or] at h
    have hc : ¬ c = 'Z' := fun e => h.1 e.symm
    show (if c = 'Z' then _ else [c]) ++ replaceZulu text = _
    rw [if_neg hc, ih h.2, List.singleton_append]

theorem zulu_not_mem_padded (width n : Nat) : 'Z' ∉ padded width n := by
  intro h
  have := isDigit_of_mem_padded h
  revert this
  decide

theorem zulu_not_mem_isoChars (t : Timestamp) : 'Z' ∉ t.isoChars := by
  unfold isoChars
  split <;> simp [zulu_not_mem_padded]

end Timestamp

end ElectronicMail.Foundations
