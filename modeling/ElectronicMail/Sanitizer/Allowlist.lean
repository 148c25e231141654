import Mathlib
import ElectronicMail.Foundations.Run
import ElectronicMail.Sanitizer.Markup

/-!
# What the sanitizer emits

`AllowedPart` is the grammar of the parts of an output, and `output_allowlisted` says that
every part of it is of that grammar, for any events in any order. While something is dropped an
event changes neither the output nor the style text, with one exception: the end tag of a style
element that was open before closes it, and its block is emitted.
-/

namespace ElectronicMail.Sanitizer

open Foundations
open Foundations.Chars

/-! ## Statement -/

def isSchemeChar (c : Char) : Bool := c.isAlphanum || ['+', '-', '.'].contains c

def isBreak (c : Char) : Bool := c = '\t' || c = '\n' || c = '\r'

/-- What a browser reads of an address: blanks before it and breaks in it are left out. -/
def readUrl (url : List Char) : List Char :=
  (url.filter fun c => !isBreak c).dropWhile fun c => c.toNat ≤ 32

def schemeOf (url : List Char) : Option (List Char) :=
  match (readUrl url).dropWhile isSchemeChar with
  | ':' :: _ =>
    let scheme := (readUrl url).takeWhile isSchemeChar
    if scheme.head?.any Char.isAlpha then some (scheme.map Char.toLower) else none
  | _ => none

/-- The schemes of the addresses that are kept; `data` for images in base64 only. -/
inductive AllowedUrl (url : List Char) : Prop where
  | none (h : schemeOf url = none)
  | scheme (word : String) (hword : word ∈ ["https", "cid", "mailto", "tel"])
      (h : schemeOf url = some word.toList)
  | dataImage (h : schemeOf url = some "data".toList) (himage : isDataImage url = true)

def Plain (text : List Char) : Prop := '"' ∉ text ∧ '<' ∉ text ∧ '>' ∉ text

def allowedAttrs (tag : String) : List String :=
  "style" :: "target" :: urlAttrs tag ++ presentationalAttrs

inductive AllowedAttr (tag : String) : List Char → Prop where
  | bare (name : String) (hname : name ∈ presentationalAttrs) : AllowedAttr tag (' ' :: name.toList)
  | valued (name : String) (hname : name ∈ allowedAttrs tag) (value : List Char)
      (hplain : Plain (escapeAttribute value)) (hurl : name ∈ urlAttrs tag → AllowedUrl value) :
      AllowedAttr tag (' ' :: name.toList ++ "=\"".toList ++ escapeAttribute value ++ ['"'])

inductive AllowedPart (keepStyle : Bool) : List Char → Prop where
  | doctype : AllowedPart keepStyle "<!doctype html>".toList
  | style (css : List Char) (hkeep : keepStyle = true) (hcss : '<' ∉ css) :
      AllowedPart keepStyle ("<style>".toList ++ css ++ "</style>".toList)
  | startTag (tag : String) (htag : tag ∈ allowedTags) (attrs : List (List Char))
      (hattrs : ∀ attr ∈ attrs, AllowedAttr tag attr) :
      AllowedPart keepStyle ('<' :: tag.toList ++ attrs.flatten ++ ['>'])
  | endTag (tag : String) (htag : tag ∈ allowedTags) (hvoid : tag ∉ voidTags) :
      AllowedPart keepStyle ("</".toList ++ tag.toList ++ ['>'])
  | text (text : List Char) (hleft : '<' ∉ text) (hright : '>' ∉ text) : AllowedPart keepStyle text

def EmailHTMLSanitizer.ClosesStyle (s : EmailHTMLSanitizer) : Event → Prop
  | .endTag tag => s.inStyle = true ∧ lowerText tag = "style"
  | .startEndTag tag _ => s.inStyle = true ∧ lowerText tag = "style"
  | _ => False

/-- While something is dropped, an event changes only what is dropped: neither the output nor
the style text. If it ends a style element, it may emit the block of the text that is there. -/
structure DropsQuietly (lib : HtmlLibrary) (keepStyle : Bool) (s : EmailHTMLSanitizer)
    (e : Event) : Prop where
  quiet : s.dropStack ≠ [] → ¬ s.ClosesStyle e →
    ∃ tags, s.handle lib keepStyle e = { s with dropStack := tags }
  closing : s.dropStack ≠ [] → s.ClosesStyle e →
    (s.handle lib keepStyle e).parts = s.parts ∨
      (s.handle lib keepStyle e).parts = s.parts ++ [EmailHTMLSanitizer.styleBlock (s.css lib)]

variable {d : Char}

/-! ## Escapes -/

theorem entities_lack (hd : d ∈ ['"', '<', '>']) :
    ∀ entity ∈ ["&amp;", "&quot;", "&lt;", "&gt;"], d ∉ entity.toList := by
  intro entity hentity
  simp only [List.mem_cons, List.not_mem_nil, or_false] at hd hentity
  rcases hd with rfl | rfl | rfl <;> rcases hentity with rfl | rfl | rfl | rfl <;> decide

theorem escapeAttribute_lacks (hd : d ∈ ['"', '<', '>']) (value : List Char) :
    d ∉ escapeAttribute value := by
  intro hmem
  obtain ⟨c, -, hc⟩ := List.mem_flatMap.1 hmem
  split at hc
  · exact entities_lack hd "&amp;" (by decide) hc
  split at hc
  · exact entities_lack hd "&quot;" (by decide) hc
  split at hc
  · exact entities_lack hd "&lt;" (by decide) hc
  split at hc
  · exact entities_lack hd "&gt;" (by decide) hc
  · rw [List.mem_singleton.1 hc] at hd
    simp_all

theorem plain_escapeAttribute (value : List Char) : Plain (escapeAttribute value) :=
  ⟨escapeAttribute_lacks (by decide) value, escapeAttribute_lacks (by decide) value,
    escapeAttribute_lacks (by decide) value⟩

theorem escapeText_lacks (hd : d ∈ ['<', '>']) (text : List Char) : d ∉ escapeText text := by
  have hd' : d ∈ ['"', '<', '>'] := List.mem_cons_of_mem _ hd
  intro hmem
  obtain ⟨c, -, hc⟩ := List.mem_flatMap.1 hmem
  split at hc
  · exact entities_lack hd' "&amp;" (by decide) hc
  split at hc
  · exact entities_lack hd' "&lt;" (by decide) hc
  split at hc
  · exact entities_lack hd' "&gt;" (by decide) hc
  · rw [List.mem_singleton.1 hc] at hd
    simp_all

/-! ## Schemes -/

variable {text : List Char}

/-- A text whose lower case starts with a word starts with it in some case. The words have no
`k`, which is the lower case of the Kelvin sign too, and do not end in `i`. -/
theorem exists_of_lower_prefix {word : List Char}
    (hchars : word.all (fun c => c != '\u0307' && c != 'k') = true)
    (hlast : word.getLast? ≠ some 'i') (h : word <+: lower text) :
    ∃ start rest, text = start ++ rest ∧ start.map Char.toLower = word := by
  simp only [List.all_eq_true, Bool.and_eq_true, bne_iff_ne] at hchars
  induction word generalizing text with
  | nil => exact ⟨[], text, rfl, rfl⟩
  | cons b word ih =>
    cases text with
    | nil => simp [lower] at h
    | cons c text =>
      have hlower : lower (c :: text) = lowerChar c ++ lower text := rfl
      rw [hlower] at h
      by_cases hdot : c = '\u0130'
      · have hchar : lowerChar c = ['i', '\u0307'] := by simp [lowerChar, hdot]
        rw [hchar, List.cons_append, List.cons_prefix_cons] at h
        cases word with
        | nil => exact absurd (congrArg some h.1) hlast
        | cons d =>
          have hd : d = '\u0307' := (List.cons_prefix_cons.1 h.2).1
          exact absurd hd (hchars d (by simp)).1
      · by_cases hkelvin : c = '\u212a'
        · have hchar : lowerChar c = ['k'] := by simp [lowerChar, hkelvin]
          rw [hchar, List.cons_append, List.cons_prefix_cons] at h
          exact absurd h.1 (hchars b (by simp)).2
        · have hchar : lowerChar c = [c.toLower] := by simp [lowerChar, hdot, hkelvin]
          rw [hchar, List.cons_append, List.cons_prefix_cons] at h
          have hlast' : word.getLast? ≠ some 'i' := by
            cases word with
            | nil => simp
            | cons => simpa using hlast
          obtain ⟨start, rest, rfl, hstart⟩ :=
            ih hlast' h.2 fun c hc => hchars c (List.mem_cons_of_mem _ hc)
          exact ⟨c :: start, rest, rfl, by simp [hstart, h.1]⟩

variable {c : Char}

theorem eq_colon_of_toLower (h : c.toLower = ':') : c = ':' := by
  have hupper : ¬ c.isUpper = true := by
    intro hupper
    have hlower : c.toLower.isLower = true := by simp [Char.isAlpha, hupper]
    rw [h] at hlower
    exact absurd hlower (by decide)
  rwa [Char.toLower_eq_of_not_isUpper hupper] at h

theorem toNat_of_isAlpha (h : c.isAlpha = true) : 65 ≤ c.toNat := by
  simp only [Char.isAlpha, Char.isUpper, Char.isLower, Bool.or_eq_true, Bool.and_eq_true,
    decide_eq_true_eq, UInt32.le_iff_toNat_le, ge_iff_le] at h
  have hnat : c.toNat = c.val.toNat := rfl
  have hupper : 'A'.val.toNat = 65 := rfl
  have hlower : 'a'.val.toNat = 97 := rfl
  omega

theorem kept_of_le (h : 33 ≤ c.toNat) : (!isBreak c) = true ∧ decide (c.toNat ≤ 32) = false := by
  constructor
  · by_contra hbreak
    simp only [isBreak, Bool.not_eq_true, Bool.not_eq_false', Bool.or_eq_true, decide_eq_true_eq,
      or_assoc] at hbreak
    rcases hbreak with rfl | rfl | rfl
    · exact absurd h (by decide)
    · exact absurd h (by decide)
    · exact absurd h (by decide)
  · exact decide_eq_false (by omega)

theorem schemeOf_start (word more : List Char) {start rest : List Char} (hne : word ≠ [])
    (hword : word.all Char.isLower = true)
    (h : start.map Char.toLower = word ++ ':' :: more) :
    schemeOf (start ++ rest) = some word := by
  obtain ⟨letters, tail, rfl, hletters, htail⟩ := List.map_eq_append_iff.1 h
  obtain ⟨colon, after, rfl, hcolon, -⟩ := List.map_eq_cons_iff.1 htail
  rw [eq_colon_of_toLower hcolon]
  have halpha : ∀ c ∈ letters, c.isAlpha = true := by
    intro c hc
    rw [← Char.isLower_toLower_eq_isAlpha]
    exact List.all_eq_true.1 hword _ (hletters ▸ List.mem_map_of_mem hc)
  obtain ⟨first, others, rfl⟩ : ∃ first others, letters = first :: others := by
    apply List.exists_cons_of_ne_nil
    rintro rfl
    exact hne hletters.symm
  have hfirst := halpha first List.mem_cons_self
  have hscheme : ∀ c ∈ first :: others, isSchemeChar c = true := by
    intro c hc
    simp [isSchemeChar, Char.isAlphanum, halpha c hc]
  have hread : readUrl (first :: others ++ ':' :: after ++ rest) =
      first :: others ++ ':' :: (after ++ rest).filter fun c => !isBreak c := by
    have hkept : (first :: others).filter (fun c => !isBreak c) = first :: others := by
      apply List.filter_eq_self.2
      intro c hc
      have hnat := toNat_of_isAlpha (halpha c hc)
      exact (kept_of_le (by omega)).1
    have hnat := toNat_of_isAlpha hfirst
    unfold readUrl
    rw [List.append_assoc, List.filter_append, hkept, List.cons_append, List.dropWhile_cons,
      (kept_of_le (by omega : 33 ≤ first.toNat)).2]
    rfl
  have hcolon' : isSchemeChar ':' = false := by decide
  unfold schemeOf
  rw [hread, List.dropWhile_append_of_pos hscheme, List.takeWhile_append_of_pos hscheme]
  simp only [List.dropWhile_cons, List.takeWhile_cons, hcolon', Bool.false_eq_true, if_false,
    List.append_nil, List.head?_cons, Option.any_some, hfirst, if_true, hletters]

theorem schemeOf_of_lower (word more : List Char) (hne : word ≠ [])
    (hword : word.all Char.isLower = true)
    (hchars : (word ++ ':' :: more).all (fun c => c != '\u0307' && c != 'k') = true)
    (hlast : (word ++ ':' :: more).getLast? ≠ some 'i')
    (h : (word ++ ':' :: more).isPrefixOf (lower text) = true) : schemeOf text = some word := by
  obtain ⟨start, rest, rfl, hstart⟩ :=
    exists_of_lower_prefix hchars hlast (List.isPrefixOf_iff_prefix.1 h)
  exact schemeOf_start word more hne hword hstart

theorem schemeOf_of_fold (word more : List Char) (hne : word ≠ [])
    (hword : word.all Char.isLower = true)
    (hchars : (word ++ [':']).all (fun c => c != 'i' && c != 's' && c != 'k') = true)
    (h : startsWith (word ++ ':' :: more) text = true) : schemeOf text = some word := by
  have hprefix : word ++ [':'] <+: text.map foldCase := by
    refine List.IsPrefix.trans ?_ (List.isPrefixOf_iff_prefix.1 h)
    exact ⟨more, by simp⟩
  obtain ⟨after, hafter⟩ := hprefix
  obtain ⟨start, rest, rfl, hstart, -⟩ := List.map_eq_append_iff.1 hafter.symm
  refine schemeOf_start word [] hne hword ?_
  rw [← hstart]
  apply List.map_congr_left
  intro c hc
  have hfold := List.all_eq_true.1 hchars (foldCase c) (hstart ▸ List.mem_map_of_mem hc)
  simp only [Bool.and_eq_true, bne_iff_ne] at hfold
  revert hfold
  unfold foldCase
  split
  · intro hfold
    exact absurd rfl hfold.1.1
  split
  · intro hfold
    exact absurd rfl hfold.1.2
  · split
    · intro hfold
      exact absurd rfl hfold.2
    · intro _
      rfl

variable {url : List Char}

theorem schemeOf_of_no_colon (h : ':' ∉ url) : schemeOf url = none := by
  unfold schemeOf
  split
  · rename_i rest hrest
    have hread : ':' ∈ readUrl url :=
      (List.dropWhile_suffix isSchemeChar).subset (hrest ▸ List.mem_cons_self)
    exact absurd (List.mem_filter.1 ((List.dropWhile_suffix _).subset hread)).1 h
  · rfl

theorem schemeOf_hash (url : List Char) : schemeOf ('#' :: url) = none := by
  unfold schemeOf readUrl
  rw [List.filter_cons_of_pos (by decide), List.dropWhile_cons_of_neg (by decide),
    List.dropWhile_cons_of_neg (by decide)]
  rfl

variable {value : List Char}

/-! ## Addresses that are kept -/

theorem schemeOf_canonical (h : canonicalHttpsUrl value = some url) :
    schemeOf url = some "https".toList := by
  simp only [canonicalHttpsUrl] at h
  split at h
  · cases h
  split at h
  · rename_i hhttps
    cases h
    exact schemeOf_of_lower "https".toList "//".toList (by decide) (by decide) (by decide)
      (by decide) hhttps
  · split at h
    · cases h
      exact schemeOf_start "https".toList "//".toList (by decide) (by decide) (by decide)
    · split at h
      · cases h
        exact schemeOf_start "https".toList [] (by decide) (by decide) (by decide)
      · cases h

theorem schemeOf_dataImage {candidate : List Char} (h : isDataImage candidate = true) :
    schemeOf candidate = some "data".toList := by
  obtain ⟨kind, -, hkind⟩ := List.any_eq_true.1 h
  simp only [Bool.and_eq_true] at hkind
  refine schemeOf_of_fold "data".toList ("image/" ++ kind ++ ";base64,").toList (by decide)
    (by decide) (by decide) ?_
  simpa using hkind.1.1

theorem allowedUrl_of_cleanUrl {attr : String} (h : cleanUrl attr value = some url) : AllowedUrl url := by
  simp only [cleanUrl] at h
  split at h
  · cases h
  split at h
  · split at h
    · split at h
      · cases h
        exact .scheme "cid" (by decide)
          (schemeOf_start "cid".toList [] (by decide) (by decide) (by decide))
      · cases h
    · split at h
      · rename_i himage
        cases h
        have hdata := (Bool.and_eq_true _ _ ▸ himage).2
        exact .dataImage (schemeOf_dataImage hdata) hdata
      · exact .scheme "https" (by decide) (schemeOf_canonical h)
  · split at h
    · cases h
    · split at h
      · rename_i hkept
        cases h
        simp only [Bool.or_eq_true] at hkept
        rcases hkept with (hhash | hmailto) | htel
        · obtain ⟨rest, hrest⟩ := List.isPrefixOf_iff_prefix.1 hhash
          rw [← hrest]
          exact .none (schemeOf_hash rest)
        · exact .scheme "mailto" (by decide) (schemeOf_of_lower "mailto".toList [] (by decide)
            (by decide) (by decide) (by decide) hmailto)
        · exact .scheme "tel" (by decide) (schemeOf_of_lower "tel".toList [] (by decide)
            (by decide) (by decide) (by decide) htel)
      · split at h
        · rename_i https hhttps
          cases h
          exact .scheme "https" (by decide) (schemeOf_canonical hhttps)
        · split at h
          · rename_i hplain
            cases h
            simp only [Bool.and_eq_true, Bool.not_eq_true', List.contains_eq_mem,
              decide_eq_false_iff_not] at hplain
            exact .none (schemeOf_of_no_colon hplain.1)
          · cases h

variable {tag name : String}

/-! ## Attributes that are kept -/

theorem urlAttrs_ne (h : name ∈ urlAttrs tag) : name ≠ "style" ∧ name ≠ "target" := by
  have hcases : name = "href" ∨ name = "src" ∨ name = "background" := by
    unfold urlAttrs at h
    split at h
    · exact Or.inl (List.mem_singleton.1 h)
    split at h
    · exact Or.inr (Or.inl (List.mem_singleton.1 h))
    split at h
    · exact Or.inr (Or.inr (List.mem_singleton.1 h))
    · cases h
  rcases hcases with rfl | rfl | rfl <;> decide

theorem allowedAttr_valued
    (hname : name ∈ allowedAttrs tag) (hurl : name ∈ urlAttrs tag → AllowedUrl value) :
    AllowedAttr tag (renderAttribute (name, some value)) :=
  .valued name hname value (plain_escapeAttribute value) hurl

theorem allowedAttr_of_cleanAttribute {lib : HtmlLibrary}
    {value : Option (List Char)} {attr : String × Option (List Char)}
    (h : cleanAttribute lib tag name value = some attr) :
    AllowedAttr tag (renderAttribute attr) := by
  simp only [cleanAttribute] at h
  generalize String.ofList (strip (lower name.toList)) = key at h
  split at h
  · cases h
  split at h
  · cases value with
    | none => cases h
    | some =>
      simp only at h
      split at h
      · cases h
      cases h
      exact allowedAttr_valued (by simp [allowedAttrs])
        fun hurl => absurd rfl (urlAttrs_ne hurl).1
  · split at h
    · split at h
      · cases h
        exact allowedAttr_valued (by simp [allowedAttrs])
          fun hurl => absurd rfl (urlAttrs_ne hurl).2
      · cases h
    · split at h
      · rename_i hurl
        obtain ⟨cleaned, hcleaned, rfl⟩ := Option.map_eq_some_iff.1 h
        have hmem : key ∈ urlAttrs tag := List.contains_iff_mem.1 hurl
        exact allowedAttr_valued (by simp [allowedAttrs, hmem])
          fun _ => allowedUrl_of_cleanUrl hcleaned
      · split at h
        · rename_i hurl hpresentational
          have hmem : key ∈ presentationalAttrs := List.contains_iff_mem.1 hpresentational
          cases value with
          | none =>
            cases h
            exact .bare key hmem
          | some =>
            simp only at h
            split at h
            · cases h
            cases h
            exact allowedAttr_valued (by simp [allowedAttrs, hmem])
              fun hurl' => absurd (List.contains_iff_mem.2 hurl') hurl
        · cases h

theorem allowedPart_renderStart {lib : HtmlLibrary} {keepStyle : Bool}
    (htag : tag ∈ allowedTags) (attrs : List (String × Option (List Char))) :
    AllowedPart keepStyle (renderStart lib tag attrs) := by
  unfold renderStart startTagText
  rw [List.flatMap_def]
  refine .startTag tag htag _ ?_
  intro attr hattr
  obtain ⟨cleaned, hcleaned, rfl⟩ := List.mem_map.1 hattr
  obtain ⟨original, -, horiginal⟩ := List.mem_filterMap.1 hcleaned
  exact allowedAttr_of_cleanAttribute horiginal

/-! ## Events -/

/-- What holds after any events: the parts are allowed, and a style element is open only where
styles are kept. -/
structure Sound (keepStyle : Bool) (s : EmailHTMLSanitizer) : Prop where
  parts : ∀ part ∈ s.parts, AllowedPart keepStyle part
  style : s.inStyle = true → keepStyle = true

theorem sound_initial (keepStyle : Bool) : Sound keepStyle .initial := by
  refine ⟨?_, ?_⟩
  · intro part hpart
    cases hpart
  · intro hstyle
    cases hstyle

section Steps

variable {lib : HtmlLibrary} {keepStyle : Bool} {s : EmailHTMLSanitizer}

theorem Sound.emit (h : Sound keepStyle s) {part : List Char} (hpart : AllowedPart keepStyle part) :
    Sound keepStyle (s.emit part) := by
  refine ⟨?_, h.style⟩
  intro p hp
  rcases List.mem_append.1 hp with hp | hp
  · exact h.parts p hp
  · rw [List.mem_singleton.1 hp]
    exact hpart

theorem Sound.handleStartTag (h : Sound keepStyle s) (name : String)
    (attrs : List (String × Option (List Char))) :
    Sound keepStyle (s.handleStartTag lib keepStyle name attrs) := by
  unfold EmailHTMLSanitizer.handleStartTag
  dsimp only
  split
  · split
    · exact ⟨h.parts, h.style⟩
    · exact h
  · split
    · split
      · exact ⟨h.parts, h.style⟩
      · rename_i hkeep
        exact ⟨h.parts, fun _ => by simpa using hkeep⟩
    · split
      · split
        · exact ⟨h.parts, h.style⟩
        · exact h
      · split
        · exact h
        · rename_i hallowed
          exact h.emit (allowedPart_renderStart (by simpa using hallowed) attrs)

theorem Sound.handleEndTag (h : Sound keepStyle s) (name : String) :
    Sound keepStyle (s.handleEndTag lib name) := by
  unfold EmailHTMLSanitizer.handleEndTag
  dsimp only
  split
  · rename_i hstyle
    have hclosed : Sound keepStyle { s with inStyle := false, styleParts := [] } :=
      ⟨h.parts, fun hopen => by cases hopen⟩
    split
    · exact hclosed
    refine hclosed.emit (.style (s.css lib) (h.style (Bool.and_eq_true _ _ ▸ hstyle).1) ?_)
    intro hmem
    exact absurd (List.mem_filter.1 hmem).2 (by decide)
  · split
    · split
      · exact ⟨h.parts, h.style⟩
      · exact h
    · split
      · exact h
      · rename_i hallowed
        simp only [Bool.or_eq_true, not_or, Bool.not_eq_true', List.contains_eq_mem,
          decide_eq_false_iff_not, decide_eq_true_eq, not_not] at hallowed
        exact h.emit (.endTag _ hallowed.2 hallowed.1)

theorem Sound.handle (h : Sound keepStyle s) (e : Event) :
    Sound keepStyle (s.handle lib keepStyle e) := by
  cases e with
  | startTag tag attrs => exact h.handleStartTag tag attrs
  | endTag tag => exact h.handleEndTag tag
  | startEndTag tag attrs =>
    show Sound keepStyle (s.handleStartEndTag lib keepStyle tag attrs)
    unfold EmailHTMLSanitizer.handleStartEndTag
    dsimp only
    split
    · exact h.handleStartTag tag attrs
    · exact (h.handleStartTag tag attrs).handleEndTag tag
  | data text =>
    show Sound keepStyle (s.handleData text)
    unfold EmailHTMLSanitizer.handleData
    split
    · exact h
    split
    · exact ⟨h.parts, h.style⟩
    · exact h.emit (.text _ (escapeText_lacks (by decide) text)
        (escapeText_lacks (by decide) text))
  | comment => exact h
  | decl text =>
    show Sound keepStyle (s.handleDecl text)
    unfold EmailHTMLSanitizer.handleDecl
    split
    · exact h
    split
    · exact h.emit .doctype
    · exact h

variable (lib keepStyle)

theorem handleStartTag_dropping (hdrop : s.dropStack ≠ []) (name : String)
    (attrs : List (String × Option (List Char))) :
    ∃ tags, tags ≠ [] ∧
      s.handleStartTag lib keepStyle name attrs = { s with dropStack := tags } := by
  unfold EmailHTMLSanitizer.handleStartTag
  dsimp only
  rw [if_pos hdrop]
  split
  · exact ⟨_, List.cons_ne_nil _ _, rfl⟩
  · exact ⟨s.dropStack, hdrop, rfl⟩

theorem handleEndTag_dropping (hdrop : s.dropStack ≠ []) (name : String) :
    (s.inStyle = true ∧ lowerText name = "style" ∧
      ((s.handleEndTag lib name).parts = s.parts ∨
        (s.handleEndTag lib name).parts = s.parts ++ [EmailHTMLSanitizer.styleBlock (s.css lib)])) ∨
    ¬ (s.inStyle = true ∧ lowerText name = "style") ∧
      ∃ tags, s.handleEndTag lib name = { s with dropStack := tags } := by
  unfold EmailHTMLSanitizer.handleEndTag
  dsimp only
  split
  · rename_i hstyle
    simp only [Bool.and_eq_true, decide_eq_true_eq] at hstyle
    refine Or.inl ⟨hstyle.1, hstyle.2, ?_⟩
    split
    · exact Or.inl rfl
    · exact Or.inr rfl
  · rename_i hstyle
    simp only [Bool.and_eq_true, decide_eq_true_eq] at hstyle
    refine Or.inr ⟨hstyle, ?_⟩
    split
    · split
      · exact ⟨_, rfl⟩
      · exact ⟨s.dropStack, rfl⟩
    · rename_i hnil
      exact absurd hnil hdrop

theorem dropsQuietly_handle (s : EmailHTMLSanitizer) (e : Event) :
    DropsQuietly lib keepStyle s e := by
  by_cases hdrop : s.dropStack = []
  · exact ⟨fun h => absurd hdrop h, fun h => absurd hdrop h⟩
  cases e with
  | startTag tag attrs =>
    obtain ⟨tags, -, hstart⟩ := handleStartTag_dropping lib keepStyle hdrop tag attrs
    exact ⟨fun _ _ => ⟨tags, hstart⟩, fun _ hcloses => hcloses.elim⟩
  | endTag tag =>
    rcases handleEndTag_dropping lib hdrop tag with ⟨hopen, htag, hparts⟩ | ⟨hopen, hend⟩
    · exact ⟨fun _ hcloses => absurd ⟨hopen, htag⟩ hcloses, fun _ _ => hparts⟩
    · exact ⟨fun _ _ => hend, fun _ hcloses => absurd hcloses hopen⟩
  | startEndTag tag attrs =>
    obtain ⟨tags, hne, hstart⟩ := handleStartTag_dropping lib keepStyle hdrop tag attrs
    have hboth : s.handle lib keepStyle (.startEndTag tag attrs) =
        if voidTags.contains (lowerText tag) then { s with dropStack := tags }
        else ({ s with dropStack := tags } : EmailHTMLSanitizer).handleEndTag lib tag := by
      show s.handleStartEndTag lib keepStyle tag attrs = _
      unfold EmailHTMLSanitizer.handleStartEndTag
      rw [hstart]
    by_cases hvoid : voidTags.contains (lowerText tag) = true
    · rw [if_pos hvoid] at hboth
      exact ⟨fun _ _ => ⟨tags, hboth⟩, fun _ _ => Or.inl (by rw [hboth])⟩
    rw [if_neg hvoid] at hboth
    rcases handleEndTag_dropping lib (s := { s with dropStack := tags }) hne tag with
      ⟨hopen, htag, hparts⟩ | ⟨hopen, hend⟩
    · rw [← hboth] at hparts
      exact ⟨fun _ hcloses => absurd ⟨hopen, htag⟩ hcloses, fun _ _ => hparts⟩
    · rw [← hboth] at hend
      exact ⟨fun _ _ => hend, fun _ hcloses => absurd hcloses hopen⟩
  | data text =>
    have hsame : s.handleData text = s := by
      unfold EmailHTMLSanitizer.handleData
      rw [if_pos (by simp [hdrop])]
    exact ⟨fun _ _ => ⟨s.dropStack, hsame⟩, fun _ hcloses => hcloses.elim⟩
  | comment => exact ⟨fun _ _ => ⟨s.dropStack, rfl⟩, fun _ hcloses => hcloses.elim⟩
  | decl text =>
    have hsame : s.handleDecl text = s := by
      unfold EmailHTMLSanitizer.handleDecl
      rw [if_pos (by simp [hdrop])]
    exact ⟨fun _ _ => ⟨s.dropStack, hsame⟩, fun _ hcloses => hcloses.elim⟩

end Steps

/-- **The output is on the allowlist.** -/
theorem output_allowlisted (lib : HtmlLibrary) (keepStyle : Bool) (events : List Event) :
    (∀ part ∈ (after (EmailHTMLSanitizer.handle lib keepStyle) .initial events).parts,
      AllowedPart keepStyle part) ∧
    Along (EmailHTMLSanitizer.handle lib keepStyle) (DropsQuietly lib keepStyle) .initial
      events := by
  have hsound : Sound keepStyle
      (after (EmailHTMLSanitizer.handle lib keepStyle) .initial events) := by
    apply after_of_step _ (sound_initial keepStyle)
    intro s e h
    exact h.handle e
  exact ⟨hsound.parts, along_of_forall (dropsQuietly_handle lib keepStyle) .initial events⟩

/-- A style element, a script in it, and the end of the style element while the script is
dropped. -/
def scriptInStyle : List Event :=
  [.startTag "style" [], .data "p{}".toList, .startTag "script" [], .endTag "style"]

/-- The end tag of the style element comes while something is dropped, and its block is
emitted. -/
theorem style_ends_in_script :
    (after (EmailHTMLSanitizer.handle ⟨id, Char.isAlphanum⟩ true) .initial
      (scriptInStyle.take 3)).dropStack ≠ [] ∧
    (after (EmailHTMLSanitizer.handle ⟨id, Char.isAlphanum⟩ true) .initial
      (scriptInStyle.take 3)).parts = [] ∧
    (after (EmailHTMLSanitizer.handle ⟨id, Char.isAlphanum⟩ true) .initial scriptInStyle).parts =
      ["<style>p{}</style>".toList] := by
  decide +kernel

end ElectronicMail.Sanitizer
