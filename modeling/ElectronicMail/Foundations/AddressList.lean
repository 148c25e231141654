import ElectronicMail.Foundations.Chars

/-!
# Lists of mail addresses

The text of an address field: mailboxes with commas between them, where a comma inside a quoted
string, a comment or angle brackets does not count. `AddressReader` says what a reader of such
fields does with the addresses of a list, whatever it does with the text of one address;
`readList` is a simple reader of this kind.
-/

namespace ElectronicMail.Foundations.AddressList

open Foundations.Chars (strip)
open Foundations.Text (isSpace)

abbrev Mailbox := List Char × List Char

/-! ## Where a text stands -/

inductive Mode where
  | plain
  | angle
  | quoted
  | escaped
  | comment (depth : Nat)
  | escapedComment (depth : Nat)
  deriving DecidableEq

def Mode.next : Mode → Char → Mode
  | .plain, c =>
    if c = '"' then .quoted
    else if c = '(' then .comment 0
    else if c = '<' then .angle
    else .plain
  | .angle, c => if c = '>' then .plain else .angle
  | .quoted, c =>
    if c = '"' then .plain
    else if c = '\\' then .escaped
    else .quoted
  | .escaped, _ => .quoted
  | .comment depth, c =>
    if c = '\\' then .escapedComment depth
    else if c = '(' then .comment (depth + 1)
    else if c = ')' then
      match depth with
      | 0 => .plain
      | depth + 1 => .comment depth
    else .comment depth
  | .escapedComment depth, _ => .comment depth

def Mode.after (mode : Mode) (text : List Char) : Mode := text.foldl Mode.next mode

def Closed (text : List Char) : Prop := Mode.plain.after text = .plain

instance (text : List Char) : Decidable (Closed text) :=
  inferInstanceAs (Decidable (Mode.plain.after text = .plain))

/-- `", ".join(texts)`. -/
def join : List (List Char) → List Char
  | [] => []
  | [text] => text
  | text :: texts => text ++ ',' :: ' ' :: join texts

/-- A reader of address fields goes address by address through a list of closed ones, each of them
read as one mailbox. A text that it reads as one mailbox is that mailbox, where one is asked for. -/
structure AddressReader (getaddresses : List Char → List Mailbox)
    (parseaddr : List Char → Mailbox) : Prop where
  list : ∀ texts : List (List Char), texts ≠ [] →
    (∀ text ∈ texts, Closed text ∧ ∃ mailbox, getaddresses text = [mailbox] ∧ mailbox.2 ≠ []) →
    getaddresses (join texts) = texts.flatMap getaddresses
  single : ∀ (text : List Char) (mailbox : Mailbox), getaddresses text = [mailbox] →
    mailbox.2 ≠ [] → parseaddr text = mailbox

/-! ## A reader -/

def pieces : Mode → List Char → List Char → List (List Char)
  | _, piece, [] => [piece]
  | mode, piece, c :: text =>
    if mode = .plain ∧ c = ',' then piece :: pieces .plain [] text
    else pieces (mode.next c) (piece ++ [c]) text

def unquote : Mode → List Char → List Char
  | _, [] => []
  | .plain, c :: text => if c = '"' then unquote .quoted text else c :: unquote .plain text
  | .quoted, c :: text =>
    if c = '"' then unquote .plain text
    else if c = '\\' then unquote .escaped text
    else c :: unquote .quoted text
  | _, c :: text => c :: unquote .quoted text

/-- The name before the bracket that closes the piece, and the address in it; a piece without
brackets is an address. -/
def readPiece (piece : List Char) : Mailbox :=
  match (strip piece).reverse with
  | '>' :: rest =>
    (unquote .plain (strip (((rest.dropWhile (· != '<')).drop 1).reverse)),
      (rest.takeWhile (· != '<')).reverse)
  | _ => ([], strip piece)

def readList (text : List Char) : List Mailbox := (pieces .plain [] text).map readPiece

def readOne (text : List Char) : Mailbox :=
  match readList text with
  | [mailbox] => mailbox
  | _ => ([], [])

theorem pieces_append (mode : Mode) (piece text rest : List Char)
    (h : mode.after text = .plain) :
    pieces mode piece (text ++ ',' :: rest) = pieces mode piece text ++ pieces .plain [] rest := by
  induction text generalizing mode piece with
  | nil =>
    obtain rfl : mode = .plain := h
    simp [pieces]
  | cons c text ih =>
    simp only [List.cons_append, pieces]
    split
    · next hcomma =>
        obtain ⟨rfl, rfl⟩ := hcomma
        rw [ih .plain [] h]
        rfl
    · exact ih _ _ h

theorem strip_cons_blank (text : List Char) : strip (' ' :: text) = strip text := by
  have hblank : isSpace ' ' = true := by decide
  simp [strip, Chars.trim, hblank]

theorem readPiece_cons_blank (piece : List Char) : readPiece (' ' :: piece) = readPiece piece := by
  simp only [readPiece, strip_cons_blank]

theorem map_pieces_blank (mode : Mode) (piece text : List Char) :
    (pieces mode (' ' :: piece) text).map readPiece = (pieces mode piece text).map readPiece := by
  induction text generalizing mode piece with
  | nil => simp [pieces, readPiece_cons_blank]
  | cons c text ih =>
    simp only [pieces]
    split
    · simp [readPiece_cons_blank]
    · exact ih _ _

theorem readList_cons_blank (text : List Char) : readList (' ' :: text) = readList text := by
  have hnext : Mode.next .plain ' ' = .plain := by decide
  simp only [readList, pieces, hnext, List.nil_append]
  exact map_pieces_blank .plain [] text

theorem readList_join {texts : List (List Char)} (hne : texts ≠ [])
    (h : ∀ text ∈ texts, Closed text) : readList (join texts) = texts.flatMap readList := by
  induction texts with
  | nil => exact absurd rfl hne
  | cons text texts ih =>
    cases texts with
    | nil => simp [join]
    | cons next texts =>
      have hrest := ih (List.cons_ne_nil _ _) fun t ht => h t (List.mem_cons_of_mem _ ht)
      have hfirst : readList (text ++ ',' :: ' ' :: join (next :: texts)) =
          readList text ++ readList (' ' :: join (next :: texts)) := by
        unfold readList
        rw [pieces_append .plain [] text _ (h text (List.mem_cons_self ..)), List.map_append]
      calc
        readList (join (text :: next :: texts)) =
            readList text ++ readList (' ' :: join (next :: texts)) := hfirst
        _ = readList text ++ (next :: texts).flatMap readList := by
            rw [readList_cons_blank, hrest]
        _ = (text :: next :: texts).flatMap readList := rfl

theorem addressReader_readList : AddressReader readList readOne where
  list _ hne h := readList_join hne fun text ht => (h text ht).1
  single text mailbox h _ := by
    unfold readOne
    rw [h]

end ElectronicMail.Foundations.AddressList
