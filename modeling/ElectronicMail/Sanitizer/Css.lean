import ElectronicMail.Foundations.Chars
import ElectronicMail.Foundations.Scan

/-!
# Style sheets of mail

`sanitize_css` and `canonical_https_url` of `html_sanitizer.py`. The three passes of
`sanitize_css` are scans: each of the regular expressions is a rule for the text at one place.
Texts are lists of characters.
-/

namespace ElectronicMail.Sanitizer

open Foundations.Chars
open Foundations.Scan
open Foundations.Text (isSpace)

/-- `html.unescape`, and `\w` of regular expressions. -/
structure HtmlLibrary where
  unescape : List Char → List Char
  isWord : Char → Bool

/-! ## Addresses -/

def canonicalHttpsUrl (value : List Char) : Option (List Char) :=
  let candidate := strip value
  if candidate = [] || 8192 < candidate.length || candidate.contains '\\' ||
      candidate.any isControl then none
  else if "https://".toList.isPrefixOf (lower candidate) then some candidate
  else if "http://".toList.isPrefixOf (lower candidate) then
    some ("https://".toList ++ candidate.drop 7)
  else if "//".toList.isPrefixOf candidate then some ("https:".toList ++ candidate)
  else none

/-! ## Rules -/

/-- What stands behind `\s*` and a character, if it stands there. -/
def behind (mark : Char) (text : List Char) : Option (List Char) :=
  match text.dropWhile isSpace with
  | [] => none
  | c :: rest => if c = mark then some rest else none

section Rules

variable (lib : HtmlLibrary)

/-- `_CSS_IMPORT_RE`, replaced by nothing. -/
def cssImport : Rule Char := fun text =>
  if startsWith "@import".toList text && !(text.drop 7).head?.any lib.isWord then
    let body := (text.drop 7).takeWhile (· != ';')
    some (7 + body.length + ((text.drop (7 + body.length)).take 1).length, [])
  else none

/-- The length of `word\s*\([^)]*\)` at the head of the text. -/
def callLength (word : String) (text : List Char) : Option Nat :=
  if startsWith word.toList text then
    match behind '(' (text.drop word.length) with
    | none => none
    | some arguments =>
      match arguments.dropWhile (· != ')') with
      | [] => none
      | _ :: rest => some (text.length - rest.length)
  else none

/-- The length of `word\s*:` and of all that follows up to a character of `ends`. -/
def valueLength (word : String) (ends : Char → Bool) (text : List Char) : Option Nat :=
  if startsWith word.toList text then
    match behind ':' (text.drop word.length) with
    | none => none
    | some value => some (text.length - (value.dropWhile fun c => !ends c).length)
  else none

/-- The characters of `[;}]`. -/
def endsValue (c : Char) : Bool := c = ';' || c = '}'

/-- The length of what `_CSS_DANGER_RE` matches at the head of the text. -/
def dangerLength (text : List Char) : Option Nat :=
  (callLength "expression" text).or <|
    (valueLength "behavior" endsValue text).or <|
      (valueLength "-moz-binding" endsValue text).or <|
        (valueLength "javascript" (fun c => endsValue c || isSpace c) text).or <|
          callLength "image-set" text

/-- `_CSS_DANGER_RE`, replaced by `none`. -/
def cssDanger : Rule Char := fun text =>
  (dangerLength text).map fun n => (n, "none".toList)

/-- The characters of `[^)'"]`. -/
def inUrl (c : Char) : Bool := c != ')' && c != '\'' && c != '"'

/-- The target and the rest where `_CSS_URL_RE` matches behind `url(`. -/
def urlBody (text : List Char) : Option (List Char × List Char) :=
  match text.dropWhile isSpace with
  | [] => none
  | c :: rest =>
    if c = '\'' || c = '"' then
      match rest.dropWhile inUrl with
      | [] => none
      | d :: tail =>
        if d = c && rest.takeWhile inUrl != [] then
          (behind ')' tail).map fun after => (rest.takeWhile inUrl, after)
        else none
    else if c = ')' then
      -- The group takes one blank back from `\s*`.
      (text.takeWhile isSpace).getLast?.map fun blank => ([blank], rest)
    else
      match (c :: rest).dropWhile inUrl with
      | [] => none
      | d :: after => if d = ')' then some ((c :: rest).takeWhile inUrl, after) else none

def replaceUrl (target : List Char) : List Char :=
  match canonicalHttpsUrl (strip (lib.unescape target)) with
  | none => "none".toList
  | some canonical => "url('".toList ++ canonical ++ "')".toList

/-- `_CSS_URL_RE`, replaced by `replace_url`. -/
def cssUrl : Rule Char := fun text =>
  if startsWith "url(".toList text then
    (urlBody (text.drop 4)).map fun found =>
      (text.length - found.2.length, replaceUrl lib found.1)
  else none

def sanitizeCss (value : List Char) : List Char :=
  rewrite (cssUrl lib) (rewrite cssDanger (rewrite (cssImport lib) value))

end Rules

end ElectronicMail.Sanitizer
