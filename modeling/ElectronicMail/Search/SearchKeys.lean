import Mathlib.Logic.Relation
import ElectronicMail.Offline.MailboxSnapshot
import ElectronicMail.Search.Chain

/-!
# Keys of searches

The app names a search by a hash of its label and its trimmed query. The server names the jobs of
the search so too, and the app refreshes the search whose name an event has. Between the two stand
the URL of the request, the bounds of the route and the normalisation of the server.
`search_keys_iff` says for which queries the names agree.
-/

namespace ElectronicMail.Search

open Foundations
open Foundations.Text (isSpace strip truncate)
open Offline (MailboxLabel isWhitespaceOrNewline)

def rawValue : MailboxLabel → String
  | .inbox => "inbox"
  | .sent => "sent"
  | .drafts => "drafts"
  | .spam => "spam"
  | .trash => "trash"
  | .archive => "archive"
  | .all => "all"
  | .starred => "starred"

/-- `query.trimmingCharacters(in: .whitespacesAndNewlines)`. -/
def trimmed (query : String) : List Char := Chars.trim isWhitespaceOrNewline query.toList

/-- What a character of `q` is read as. `URLComponents` writes a plus as it is, and in the query of
a URL it stands for a space. -/
def readAs (c : Char) : Char := if c = '+' then ' ' else c

/-- `q` as the route reads it. -/
def receivedQuery (query : String) : String := String.ofList ((trimmed query).map readAs)

namespace Library

variable (lib : Library)

/-- `InboxStore.searchKey`. -/
def searchKey (label : MailboxLabel) (query : String) : String :=
  lib.sha256 (rawValue label ++ "\x00" ++ String.ofList (trimmed query))

/-- The job that `InboxStore.searchMailbox` starts through the route `mailbox_search`. -/
def startedHydration (userId query : String) (label : MailboxLabel) (limit : Int) :
    Option Payload :=
  let q := receivedQuery query
  if q.toList.length < 1 ∨ 200 < q.toList.length then none
  else lib.searchJob userId q (rawValue label) limit

def eventKeys (env : Environment) (payload : Payload) : List String :=
  (lib.runMailboxSearchHydration env payload).notified.map fun _ => payload.searchKey

/-- The events of all jobs that the search has started name it as the app does. -/
def KeyAgrees (query : String) (label : MailboxLabel) : Prop :=
  ∀ userId limit start job, lib.startedHydration userId query label limit = some start →
    Relation.ReflTransGen lib.Continues start job →
      ∀ env, ∀ key ∈ lib.eventKeys env job, key = lib.searchKey label query

/-- The key of what the server makes of the query and the label is theirs. -/
def KeyInvariant (query : String) (label : MailboxLabel) : Prop :=
  lib.mailboxSearchKey (truncate 200 (strip query)) (lib.normalizedLabel (rawValue label)) =
    lib.mailboxSearchKey query (rawValue label)

def KeyUnique (query : String) (label : MailboxLabel) : Prop :=
  ∀ query' label',
    lib.mailboxSearchKey query' (rawValue label') = lib.mailboxSearchKey query (rawValue label) →
      label' = label ∧ truncate 200 (strip query') = truncate 200 (strip query)

end Library

/-- Of a query that the route takes and that is not blank to it, it reads what the app has sent,
and strips nothing off. -/
def SentWhole (query : String) : Prop :=
  (trimmed query).length ≤ 200 → (∃ c ∈ trimmed query, c ≠ '+' ∧ isSpace c = false) →
    '+' ∉ trimmed query ∧ (∀ c ∈ (trimmed query).head?, isSpace c = false) ∧
      ∀ c ∈ (trimmed query).getLast?, isSpace c = false

def CutClean (query : String) : Prop := ∀ c ∈ (strip query).toList[199]?, isSpace c = false

/-! ## Normalisation -/

theorem toList_truncate (n : Nat) (text : String) : (truncate n text).toList = text.toList.take n :=
  String.toList_ofList

theorem length_strip_le (text : String) : (strip text).toList.length ≤ text.toList.length := by
  rw [Chars.toList_strip]
  exact (Chars.trim_sublist text.toList).length_le

theorem normal_iff (query : String) :
    truncate 200 (strip (truncate 200 (strip query))) = truncate 200 (strip query) ↔
      CutClean query := by
  have hshort := (length_strip_le (truncate 200 (strip query))).trans (Text.truncate_length_le ..)
  have hedges := Chars.trim_eq_self_iff.1 (Chars.trim_trim query.toList : Chars.trim isSpace _ = _)
  rw [← Chars.strip, ← Chars.toList_strip] at hedges
  rw [Text.truncate_eq_self hshort, ← String.toList_inj, Chars.toList_strip, Chars.strip,
    Chars.trim_eq_self_iff, toList_truncate, List.head?_take, List.getLast?_take]
  refine ⟨fun h c hc => ?_, fun h => ⟨hedges.1, fun c hc => ?_⟩⟩
  · exact h.2 c (by simp_all)
  · cases hcut : (strip query).toList[199]? with
    | none => exact hedges.2 c (by simpa [hcut] using hc)
    | some d => exact h c (by simpa [hcut] using hc)

theorem rawValue_injective : Function.Injective rawValue := by
  intro a b h
  revert h
  cases a <;> cases b <;> decide

theorem takeWhile_rawValue (label : MailboxLabel) (text : List Char) :
    ((rawValue label).toList ++ '\x00' :: text).takeWhile (· != '\x00') =
      (rawValue label).toList := by
  have hfree : (rawValue label).toList.all (· != '\x00') = true := by cases label <;> decide
  rw [List.takeWhile_append_of_pos (List.all_eq_true.1 hfree),
    List.takeWhile_cons_of_neg (by decide), List.append_nil]

theorem sha256_inj {lib : Library} (hsha : Function.Injective lib.sha256)
    {label label' : MailboxLabel} {text text' : String} :
    lib.sha256 (rawValue label ++ "\x00" ++ text) =
      lib.sha256 (rawValue label' ++ "\x00" ++ text') ↔ label = label' ∧ text = text' := by
  refine ⟨fun h => ?_, by rintro ⟨rfl, rfl⟩; rfl⟩
  have hlist : (rawValue label).toList ++ '\x00' :: text.toList =
      (rawValue label').toList ++ '\x00' :: text'.toList := by
    simpa using congrArg String.toList (hsha h)
  have hlabel := congrArg (List.takeWhile (· != '\x00')) hlist
  rw [takeWhile_rawValue, takeWhile_rawValue] at hlabel
  obtain rfl := rawValue_injective (String.toList_inj.1 hlabel)
  exact ⟨rfl, String.toList_inj.1 (List.cons.inj (List.append_cancel_left hlist)).2⟩

section Keys

variable {lib : Library} (hlower : ∀ label, lib.lower (rawValue label) = rawValue label)
include hlower

theorem normalizedLabel_rawValue (label : MailboxLabel) :
    lib.normalizedLabel (rawValue label) = rawValue label := by
  have hstrip : strip (rawValue label) = rawValue label := by cases label <;> decide
  rw [Library.normalizedLabel, hstrip, hlower]
  exact if_neg (by cases label <;> decide)

theorem mailboxSearchKey_rawValue (query : String) (label : MailboxLabel) :
    lib.mailboxSearchKey query (rawValue label) =
      lib.sha256 (rawValue label ++ "\x00" ++ truncate 200 (strip query)) := by
  rw [Library.mailboxSearchKey, normalizedLabel_rawValue hlower]

end Keys

/-! ## The request -/

theorem length_received (query : String) :
    (receivedQuery query).toList.length = (trimmed query).length := by
  rw [receivedQuery, String.toList_ofList, List.length_map]

theorem truncate_received {query : String} (h : (trimmed query).length ≤ 200) :
    truncate 200 (strip (receivedQuery query)) = strip (receivedQuery query) :=
  Text.truncate_eq_self ((length_strip_le _).trans ((length_received query).trans_le h))

theorem map_readAs_iff (text : List Char) : text.map readAs = text ↔ '+' ∉ text := by
  have hmap : text.map readAs = text.map id ↔ ∀ c ∈ text, readAs c = c := List.map_inj_left
  rw [List.map_id] at hmap
  refine hmap.trans ⟨fun h hplus => ?_, fun hplus c hc => if_neg ?_⟩
  · exact absurd (h '+' hplus) (by decide)
  · rintro rfl
    exact hplus hc

/-- The server goes on with what the app has sent if nothing was read as a space and nothing is
stripped off. -/
theorem strip_received_iff (query : String) :
    strip (receivedQuery query) = String.ofList (trimmed query) ↔
      '+' ∉ trimmed query ∧ (∀ c ∈ (trimmed query).head?, isSpace c = false) ∧
        ∀ c ∈ (trimmed query).getLast?, isSpace c = false := by
  rw [← String.toList_inj, Chars.toList_strip, String.toList_ofList, receivedQuery,
    String.toList_ofList, Chars.strip, ← map_readAs_iff, ← Chars.trim_eq_self_iff]
  constructor
  · intro h
    have hsub : (Chars.trim isSpace ((trimmed query).map readAs)).Sublist _ := Chars.trim_sublist _
    have hmap := hsub.eq_of_length (by rw [h, List.length_map])
    rw [h] at hmap
    rw [← hmap] at h
    exact ⟨hmap.symm, h⟩
  · rintro ⟨hmap, htrim⟩
    rw [hmap, htrim]

theorem strip_received_ne_iff (query : String) :
    strip (receivedQuery query) ≠ "" ↔ ∃ c ∈ trimmed query, c ≠ '+' ∧ isSpace c = false := by
  rw [Ne, ← String.toList_inj, Chars.toList_strip, receivedQuery, String.toList_ofList]
  refine (not_congr Chars.trim_eq_nil_iff).trans ?_
  simp only [List.forall_mem_map, not_forall, Bool.not_eq_true, exists_prop]
  refine exists_congr fun c => and_congr_right fun _ => ?_
  unfold readAs
  split
  · next heq => simp [heq]; decide
  · next hne => simp [hne]

/-! ## The jobs of a search -/

theorem continues_searchKey {lib : Library} {payload next : Payload}
    (h : lib.Continues payload next) : next.searchKey = payload.searchKey := by
  obtain ⟨env, hqueued⟩ := h
  obtain ⟨-, validated, nextPageToken, -, henqueue⟩ := (run_cases lib env payload).2 next hqueued
  obtain ⟨-, -, -, -, rfl⟩ := enqueueContinuation_ok henqueue
  rfl

theorem searchKey_of_chain {lib : Library} {start job : Payload}
    (h : Relation.ReflTransGen lib.Continues start job) : job.searchKey = start.searchKey := by
  induction h with
  | refl => rfl
  | tail _ hnext ih => exact (continues_searchKey hnext).trans ih

def Library.startedJob (lib : Library) (userId query : String) (label : MailboxLabel)
    (limit : Int) : Payload :=
  initialPayload userId (strip (receivedQuery query)) (rawValue label) (clamp limit 200)
    (lib.sha256 (rawValue label ++ "\x00" ++ strip (receivedQuery query)))

/-- An account that may not be written: a job lists nothing, and notifies once. -/
def refusing : Environment := ⟨false, false, fun _ _ => .error "", .ok ()⟩

section Agreement

variable {lib : Library} (hlower : ∀ label, lib.lower (rawValue label) = rawValue label)
  {query : String} {label : MailboxLabel}
include hlower

theorem startedHydration_eq (userId : String) (limit : Int) :
    lib.startedHydration userId query label limit =
      if (trimmed query).length ≤ 200 ∧ strip (receivedQuery query) ≠ "" then
        some (lib.startedJob userId query label limit) else none := by
  unfold Library.startedHydration
  dsimp only
  rw [length_received]
  by_cases hlong : 200 < (trimmed query).length
  · rw [if_pos (Or.inr hlong), if_neg (by omega)]
  have hshort := truncate_received (Nat.not_lt.1 hlong)
  unfold Library.searchJob
  dsimp only
  rw [hshort]
  by_cases hblank : strip (receivedQuery query) = ""
  · rw [if_pos hblank, ite_self, if_neg fun h => h.2 hblank]
  have hnonempty : trimmed query ≠ [] := by
    intro hnil
    refine hblank ?_
    rw [receivedQuery, hnil]
    decide
  have hpos := List.length_pos_iff.2 hnonempty
  rw [if_neg (by omega), if_neg hblank, if_pos ⟨by omega, hblank⟩, normalizedLabel_rawValue hlower,
    mailboxSearchKey_rawValue hlower, Chars.strip_strip, hshort]
  rfl

variable (hsha : Function.Injective lib.sha256)
include hsha

theorem keyAgrees_iff (hkey : ∀ text, lib.sha256 text ≠ "") :
    lib.KeyAgrees query label ↔ SentWhole query := by
  constructor
  · intro h hlong hread
    have hblank := (strip_received_ne_iff query).2 hread
    have hstart : lib.startedHydration "" query label 1 = _ :=
      (startedHydration_eq hlower "" 1).trans (if_pos ⟨hlong, hblank⟩)
    generalize hjob : lib.startedJob "" query label 1 = start at hstart
    have hvalid : ¬ (start.searchKey = "" ∨
        start.searchKey ≠ lib.mailboxSearchKey start.query start.label) := by
      subst hjob
      refine not_or.2 ⟨hkey _, not_not.2 (Eq.symm ?_)⟩
      show lib.mailboxSearchKey (strip (receivedQuery query)) (rawValue label) = _
      rw [mailboxSearchKey_rawValue hlower, Chars.strip_strip, truncate_received hlong]
      rfl
    have hevent : start.searchKey ∈ lib.eventKeys refusing start := by
      unfold Library.eventKeys Library.runMailboxSearchHydration
      rw [if_neg hvalid]
      subst hjob
      exact List.mem_singleton_self _
    have hname := h "" 1 start start hstart .refl refusing _ hevent
    subst hjob
    exact (strip_received_iff query).1 ((sha256_inj hsha).1 hname).2
  · intro h userId limit start job hstart hjobs env key hevent
    obtain ⟨-, -, rfl⟩ := List.mem_map.1 hevent
    rw [startedHydration_eq hlower] at hstart
    split at hstart
    · next hstarts =>
      cases hstart
      have hwhole := h hstarts.1 ((strip_received_ne_iff query).1 hstarts.2)
      rw [searchKey_of_chain hjobs, Library.searchKey, ← (strip_received_iff query).2 hwhole]
      rfl
    · cases hstart

theorem keyInvariant_iff : lib.KeyInvariant query label ↔ CutClean query := by
  rw [Library.KeyInvariant, normalizedLabel_rawValue hlower, mailboxSearchKey_rawValue hlower,
    mailboxSearchKey_rawValue hlower, sha256_inj hsha, ← normal_iff]
  exact and_iff_right rfl

theorem keyUnique : lib.KeyUnique query label := by
  intro query' label' h
  rw [mailboxSearchKey_rawValue hlower, mailboxSearchKey_rawValue hlower] at h
  exact (sha256_inj hsha).1 h

end Agreement

/-- **Search keys.** The names of a search agree, and its normal form has its key, for exactly the
queries of which the server reads and keeps what the app has sent and which a cut does not leave
with white space at the end. -/
theorem search_keys_iff {lib : Library} (hsha : Function.Injective lib.sha256)
    (hkey : ∀ text, lib.sha256 text ≠ "")
    (hlower : ∀ label, lib.lower (rawValue label) = rawValue label) (query : String)
    (label : MailboxLabel) :
    (lib.KeyAgrees query label ∧ lib.KeyInvariant query label ∧ lib.KeyUnique query label) ↔
      SentWhole query ∧ CutClean query := by
  rw [keyAgrees_iff hlower hsha hkey, keyInvariant_iff hlower hsha]
  exact and_congr_right fun _ => and_iff_left (keyUnique hlower hsha)

def plainLibrary : Library := ⟨fun text => "#" ++ text, Text.lower⟩

theorem plainLibrary_sha256 (text : String) :
    (plainLibrary.sha256 text).toList = '#' :: text.toList := String.toList_append

theorem plainLibrary_injective : Function.Injective plainLibrary.sha256 := by
  intro a b h
  have hlist := congrArg String.toList h
  rw [plainLibrary_sha256, plainLibrary_sha256] at hlist
  exact String.toList_inj.1 (List.cons.inj hlist).2

theorem plainLibrary_ne (text : String) : plainLibrary.sha256 text ≠ "" := by
  intro h
  have hlist := congrArg String.toList h
  rw [plainLibrary_sha256] at hlist
  cases hlist

theorem plainLibrary_lower (label : MailboxLabel) :
    plainLibrary.lower (rawValue label) = rawValue label := by
  cases label <;> decide

theorem invoice_keys : plainLibrary.KeyAgrees " invoice" .inbox ∧
    plainLibrary.KeyInvariant " invoice" .inbox ∧ plainLibrary.KeyUnique " invoice" .inbox := by
  have hends : (trimmed " invoice").head? = some 'i' ∧ (trimmed " invoice").getLast? = some 'e' := by
    decide +kernel
  have hcut : (strip " invoice").toList[199]? = none := by decide +kernel
  refine (search_keys_iff plainLibrary_injective plainLibrary_ne plainLibrary_lower _ _).2
    ⟨fun _ _ => ⟨by decide +kernel, ?_, ?_⟩, ?_⟩
  · rw [hends.1]
    rintro c ⟨⟩
    decide
  · rw [hends.2]
    rintro c ⟨⟩
    decide
  · unfold CutClean
    rw [hcut]
    exact nofun

/-- The server searches for the letter alone, and names that search. -/
theorem plus_lost : ¬ ∀ query label, plainLibrary.KeyAgrees query label ∧
    plainLibrary.KeyInvariant query label ∧ plainLibrary.KeyUnique query label := by
  intro h
  have hwhole := (keyAgrees_iff plainLibrary_lower plainLibrary_injective plainLibrary_ne).1
    (h "c++" .all).1 (by decide +kernel) ⟨'c', by decide +kernel, by decide, by decide⟩
  exact absurd hwhole.1 (by decide +kernel)

end ElectronicMail.Search
