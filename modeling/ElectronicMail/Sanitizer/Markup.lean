import ElectronicMail.Sanitizer.Css

/-!
# Markup of mail

`_EmailHTMLSanitizer` of `html_sanitizer.py`: what it does on each event of the parser, with
the attributes and addresses that it keeps. The output is the list of parts that
`sanitize_email_markup` joins.
-/

namespace ElectronicMail.Sanitizer

open Foundations.Chars
open Foundations.Text (isSpace)

/-! ## Tags and attributes -/

def allowedTags : List String :=
  ["a", "abbr", "address", "article", "aside", "b", "big", "blockquote", "body", "br", "caption",
    "center", "cite", "code", "col", "colgroup", "dd", "del", "dfn", "div", "dl", "dt", "em",
    "figcaption", "figure", "font", "footer", "h1", "h2", "h3", "h4", "h5", "h6", "head", "header",
    "hr", "html", "i", "img", "ins", "kbd", "label", "legend", "li", "main", "mark", "nav", "ol",
    "p", "pre", "q", "s", "samp", "section", "small", "span", "strike", "strong", "sub", "sup",
    "table", "tbody", "td", "tfoot", "th", "thead", "title", "tr", "tt", "u", "ul", "wbr"]

def voidTags : List String := ["br", "col", "hr", "img", "wbr"]

def voidDropTags : List String := ["base", "embed", "input", "link", "meta", "source"]

def dropTags : List String :=
  ["applet", "audio", "base", "button", "embed", "form", "frame", "frameset", "iframe", "input",
    "link", "math", "meta", "noscript", "object", "picture", "script", "select", "source", "svg",
    "template", "textarea", "video"]

def presentationalAttrs : List String :=
  ["abbr", "align", "alt", "aria-hidden", "axis", "bgcolor", "border", "cellpadding",
    "cellspacing", "char", "charoff", "class", "clear", "color", "colspan", "compact", "dir",
    "face", "frame", "headers", "height", "hspace", "id", "lang", "name", "noshade", "nowrap",
    "reversed", "role", "rowspan", "rules", "scope", "shape", "size", "span", "start", "summary",
    "title", "valign", "vspace", "width", "wrap"]

/-- `_URL_ATTRS.get(tag, frozenset())`. -/
def urlAttrs (tag : String) : List String :=
  if tag = "a" then ["href"]
  else if tag = "img" then ["src"]
  else if ["body", "table", "td", "th"].contains tag then ["background"]
  else []

def droppedUrlAttrs : List String :=
  ["action", "formaction", "longdesc", "ping", "poster", "srcset", "usemap", "xlink:href", "xmlns"]

/-- `text.lower()`, of a tag or of the name of an attribute. -/
def lowerText (text : String) : String := String.ofList (lower text.toList)

/-! ## Addresses -/

/-- The characters of `[a-z0-9+/=\s]`, with `re.IGNORECASE`. -/
def isBase64 (c : Char) : Bool :=
  ('a' ≤ foldCase c && foldCase c ≤ 'z') || c.isDigit || ['+', '/', '='].contains c || isSpace c

/-- `_DATA_IMAGE_RE.fullmatch`. -/
def isDataImage (candidate : List Char) : Bool :=
  ["png", "jpeg", "jpg", "gif", "webp", "bmp"].any fun kind =>
    let head := ("data:image/" ++ kind ++ ";base64,").toList
    startsWith head candidate && candidate.drop head.length != [] &&
      (candidate.drop head.length).all isBase64

/-- `candidate[4:].strip().strip("<>")`. -/
def cidOf (candidate : List Char) : List Char :=
  trim (fun c => c = '<' || c = '>') (strip (candidate.drop 4))

def cleanUrl (attr : String) (value : List Char) : Option (List Char) :=
  let candidate := strip value
  let starts (word : String) : Bool := word.toList.isPrefixOf (lower candidate)
  if candidate = [] || candidate.any isControl then none
  else if attr = "src" || attr = "background" then
    if starts "cid:" then
      if cidOf candidate != [] && !(cidOf candidate).any ['"', '\'', '<', '>'].contains then
        some ("cid:".toList ++ cidOf candidate)
      else none
    else if candidate.length ≤ 8000000 && isDataImage candidate then some candidate
    else canonicalHttpsUrl candidate
  else if starts "javascript:" || starts "vbscript:" || starts "data:" then none
  else if "#".toList.isPrefixOf candidate || starts "mailto:" || starts "tel:" then some candidate
  else
    match canonicalHttpsUrl candidate with
    | some https => some https
    | none =>
      if !candidate.contains ':' && !"//".toList.isPrefixOf candidate then some candidate
      else none

section Attributes

variable (lib : HtmlLibrary)

def cleanAttribute (tag name : String) (value : Option (List Char)) :
    Option (String × Option (List Char)) :=
  let attr := String.ofList (strip (lower name.toList))
  if attr = "" || "on".toList.isPrefixOf attr.toList || droppedUrlAttrs.contains attr ||
      attr.toList.contains ':' then none
  else if attr = "style" then
    match value with
    | none => none
    | some text =>
      if strip (sanitizeCss lib text) = [] then none
      else some ("style", some (sanitizeCss lib text))
  else if attr = "target" then
    if lower (strip (value.getD [])) = "_blank".toList then some ("target", some "_blank".toList)
    else none
  else if (urlAttrs tag).contains attr then
    (cleanUrl attr (value.getD [])).map fun cleaned => (attr, some cleaned)
  else if presentationalAttrs.contains attr then
    match value with
    | none => some (attr, none)
    | some text => if text.any isControl then none else some (attr, some text)
  else none

/-- `html.escape(text, quote=False)`. -/
def escapeText (text : List Char) : List Char :=
  text.flatMap fun c =>
    if c = '&' then "&amp;".toList
    else if c = '<' then "&lt;".toList
    else if c = '>' then "&gt;".toList
    else [c]

def escapeAttribute (value : List Char) : List Char :=
  value.flatMap fun c =>
    if c = '&' then "&amp;".toList
    else if c = '"' then "&quot;".toList
    else if c = '<' then "&lt;".toList
    else if c = '>' then "&gt;".toList
    else [c]

def renderAttribute : String × Option (List Char) → List Char
  | (name, none) => ' ' :: name.toList
  | (name, some value) => ' ' :: name.toList ++ "=\"".toList ++ escapeAttribute value ++ ['"']

def startTagText (tag : String) (attrs : List (String × Option (List Char))) : List Char :=
  '<' :: tag.toList ++ attrs.flatMap renderAttribute ++ ['>']

def renderStart (tag : String) (attrs : List (String × Option (List Char))) : List Char :=
  startTagText tag (attrs.filterMap fun attr => cleanAttribute lib tag attr.1 attr.2)

end Attributes

/-! ## Events -/

inductive Event where
  | startTag (tag : String) (attrs : List (String × Option (List Char)))
  | endTag (tag : String)
  | startEndTag (tag : String) (attrs : List (String × Option (List Char)))
  | data (text : List Char)
  | comment (text : List Char)
  | decl (text : List Char)

/-- The fields of `_EmailHTMLSanitizer`; the top of the drop stack is its head. -/
structure EmailHTMLSanitizer where
  parts : List (List Char)
  dropStack : List String
  inStyle : Bool
  styleParts : List (List Char)

/-- `__init__`. -/
def EmailHTMLSanitizer.initial : EmailHTMLSanitizer := ⟨[], [], false, []⟩

namespace EmailHTMLSanitizer

variable (lib : HtmlLibrary) (keepStyle : Bool) (s : EmailHTMLSanitizer)

/-- `self.parts.append(part)`. -/
def emit (part : List Char) : EmailHTMLSanitizer := { s with parts := s.parts ++ [part] }

/-- `self._drop_stack.append(tag)`. -/
def push (tag : String) : EmailHTMLSanitizer := { s with dropStack := tag :: s.dropStack }

def handleStartTag (name : String) (attrs : List (String × Option (List Char))) : EmailHTMLSanitizer :=
  let tag := lowerText name
  if s.dropStack ≠ [] then
    if dropTags.contains tag && !voidDropTags.contains tag then s.push tag else s
  else if tag = "style" then
    if !keepStyle then s.push tag else { s with inStyle := true, styleParts := [] }
  else if dropTags.contains tag then
    if !voidDropTags.contains tag then s.push tag else s
  else if !allowedTags.contains tag then s
  else s.emit (renderStart lib tag attrs)

/-- `sanitize_css("".join(self._style_parts)).replace("<", "")`. -/
def css : List Char := (sanitizeCss lib s.styleParts.flatten).filter (· != '<')

/-- `f"<style>{css}</style>"`. -/
def styleBlock (css : List Char) : List Char := "<style>".toList ++ css ++ "</style>".toList

def handleEndTag (name : String) : EmailHTMLSanitizer :=
  let tag := lowerText name
  if s.inStyle && tag = "style" then
    let closed := { s with inStyle := false, styleParts := [] }
    if strip (s.css lib) = [] then closed else closed.emit (styleBlock (s.css lib))
  else
    match s.dropStack with
    | top :: rest => if top = tag then { s with dropStack := rest } else s
    | [] =>
      if voidTags.contains tag || !allowedTags.contains tag then s
      else s.emit ("</".toList ++ tag.toList ++ ['>'])

def handleStartEndTag (tag : String) (attrs : List (String × Option (List Char))) : EmailHTMLSanitizer :=
  let started := s.handleStartTag lib keepStyle tag attrs
  if voidTags.contains (lowerText tag) then started else started.handleEndTag lib tag

def handleData (text : List Char) : EmailHTMLSanitizer :=
  if s.dropStack ≠ [] || text = [] then s
  else if s.inStyle then { s with styleParts := s.styleParts ++ [text] }
  else s.emit (escapeText text)

def handleDecl (text : List Char) : EmailHTMLSanitizer :=
  if s.dropStack ≠ [] || s.inStyle then s
  else if "doctype html".toList.isPrefixOf (lower text) then s.emit "<!doctype html>".toList
  else s

def handle : Event → EmailHTMLSanitizer
  | .startTag tag attrs => s.handleStartTag lib keepStyle tag attrs
  | .endTag tag => s.handleEndTag lib tag
  | .startEndTag tag attrs => s.handleStartEndTag lib keepStyle tag attrs
  | .data text => s.handleData text
  | .comment _ => s
  | .decl text => s.handleDecl text

end EmailHTMLSanitizer

end ElectronicMail.Sanitizer
