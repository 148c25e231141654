import ElectronicMail.Foundations.Distinct
import ElectronicMail.Recipients.Fields

/-!
# Recipients survive rendering

The addresses that are read from the headers of a message are the requested or derived ones when
each mailbox, printed without quotes, reads back as a mailbox with the same address, as often as the
stages of the message print it (`recipients_survive`). A display name with a comma does not read
back: what stands before the comma gets the mail as well.
-/

namespace ElectronicMail.Recipients

open Foundations (firstsBy firstsBy_congr firstsBy_firstsBy
  filter_firstsBy firstsBy_sublist key_notMem_of_mem_firstsBy map_firstsBy nodup_firstsBy)
open Foundations.AddressList (AddressReader Closed Mailbox join)
open Foundations.Chars (strip)

/-- The mail library reads lists of addresses, and lower case is stable. -/
structure Library.Documented (lib : Library) : Prop where
  reader : AddressReader lib.getaddresses lib.parseaddr
  lower_lower : ∀ text, lib.lower (lib.lower text) = lib.lower text
  lower_eq_nil : ∀ text, lib.lower text = [] ↔ text = []

/-! ## What is wanted -/

namespace Library

variable (lib : Library)

def requested (values : List (List Char)) : List Mailbox :=
  values.flatMap fun value =>
    (lib.getaddresses value).map fun mailbox => (mailbox.1, strip mailbox.2)

def others (source : Source) (value : Option (List Char)) : List Mailbox :=
  (lib.getaddresses (orElse value [])).filter fun mailbox =>
    mailbox.2 != [] && lib.lower mailbox.2 != lib.userEmail source

def HasSender (source : Source) : Prop :=
  lib.senderEmail source ≠ [] ∧ lib.senderEmail source ≠ lib.userEmail source

instance (source : Source) : Decidable (lib.HasSender source) :=
  inferInstanceAs (Decidable (_ ∧ _))

/-- The addresses that a reply goes to: the sender's, or those of the source that are not the
user's. -/
def derivedTo (source : Source) : List (List Char) :=
  if lib.HasSender source then [(lib.parseaddr source.senderValue).2]
  else (lib.others source source.to).map Prod.snd

/-- The addresses of the source that a reply to all goes to beside them. -/
def derivedCc (source : Source) : List (List Char) :=
  firstsBy lib.lower ((lib.derivedTo source).map lib.lower)
    ((lib.others source source.to ++ lib.others source source.cc).map Prod.snd)

/-- The addresses of each field of a message: of a reply, without the user's and without those of
the fields before. -/
def replyWanted (source : Source) (toAddresses ccAddresses bccAddresses : List (List Char)) :
    Fields :=
  let user := [lib.userEmail source]
  let wantedTo := firstsBy lib.lower user toAddresses
  let wantedCc := firstsBy lib.lower (user ++ wantedTo.map lib.lower) ccAddresses
  let wantedBcc := firstsBy lib.lower (user ++ wantedTo.map lib.lower ++ wantedCc.map lib.lower)
    bccAddresses
  ⟨wantedTo, wantedCc, wantedBcc⟩

def addressesOf (values : List (List Char)) : List (List Char) :=
  (lib.requested values).map Prod.snd

def explicitWanted (request : Request) : Fields :=
  ⟨firstsBy lib.lower [] (lib.addressesOf request.to),
    firstsBy lib.lower [] (lib.addressesOf request.cc),
    firstsBy lib.lower [] (lib.addressesOf request.bcc)⟩

def wanted : Build → Fields
  | .compose request => lib.explicitWanted request
  | .response .forward request _ => lib.explicitWanted request
  | .response .reply request source =>
    lib.replyWanted source
      (if request.explicitTo then lib.addressesOf request.to else lib.derivedTo source)
      (lib.addressesOf request.cc) (lib.addressesOf request.bcc)
  | .response .replyAll request source =>
    lib.replyWanted source
      (if request.explicitTo then lib.addressesOf request.to else lib.derivedTo source)
      (if request.explicitCc then lib.addressesOf request.cc else lib.derivedCc source)
      (lib.addressesOf request.bcc)

def found : Option (List Char) → List (List Char)
  | none => []
  | some text => (lib.getaddresses text).map Prod.snd

end Library

def Build.repliesTo : Build → Option Source
  | .response .reply _ source => some source
  | .response .replyAll _ source => some source
  | _ => none

def Library.Disjoint (lib : Library) (some other : List (List Char)) : Prop :=
  ∀ address ∈ some, ∀ otherAddress ∈ other, lib.lower address ≠ lib.lower otherAddress

/-- The addresses that are found in the headers are those that are wanted. No field has an address
twice; the fields of a reply are disjoint and none has the user's. -/
structure Library.Survives (lib : Library) (build : Build) (headers : Headers) : Prop where
  «to» : lib.found headers.to = (lib.wanted build).to
  cc : lib.found headers.cc = (lib.wanted build).cc
  bcc : lib.found headers.bcc = (lib.wanted build).bcc
  distinct : ∀ field ∈ [headers.to, headers.cc, headers.bcc],
    ((lib.found field).map lib.lower).Nodup
  disjoint : build.repliesTo.isSome → lib.Disjoint (lib.found headers.to) (lib.found headers.cc) ∧
    lib.Disjoint (lib.found headers.to) (lib.found headers.bcc) ∧
    lib.Disjoint (lib.found headers.cc) (lib.found headers.bcc)
  notUser : ∀ source, build.repliesTo = some source →
    ∀ field ∈ [headers.to, headers.cc, headers.bcc], ∀ address ∈ lib.found field,
      lib.lower address ≠ lib.userEmail source

/-! ## What reads back -/

/-- The mailbox, printed, is a closed text that reads as one mailbox with the same address, and that
one so again, so often. -/
def Library.ReadsBack (lib : Library) : Nat → Mailbox → Prop
  | 0, _ => True
  | n + 1, mailbox =>
    Closed (rendered mailbox) ∧
      ∃ next, lib.getaddresses (rendered mailbox) = [next] ∧ next.2 = mailbox.2 ∧
        lib.ReadsBack n next

def Library.requestReadsBack (lib : Library) (n : Nat) (values : List (List Char)) : Prop :=
  ∀ mailbox ∈ lib.requested values, lib.ReadsBack n mailbox

def Library.toReadsBack (lib : Library) (request : Request) (source : Source) : Prop :=
  if request.explicitTo then lib.requestReadsBack 2 request.to
  else if lib.HasSender source then
    lib.getaddresses source.senderValue = [lib.parseaddr source.senderValue] ∧
      lib.ReadsBack 1 (lib.parseaddr source.senderValue)
  else ∀ mailbox ∈ lib.others source source.to, lib.ReadsBack 2 mailbox

def Library.ccReadsBack (lib : Library) (request : Request) (source : Source) : Prop :=
  if request.explicitCc then lib.requestReadsBack 2 request.cc
  else ∀ mailbox ∈ lib.others source source.to ++ lib.others source source.cc,
    lib.ReadsBack 3 mailbox

/-- Each mailbox of the message reads back as often as it is printed: once for a new message, a
forward and a sender that is replied to, twice for the other recipients of a reply, three times for
the copies of a reply to all. -/
def Library.AllReadBack (lib : Library) : Build → Prop
  | .compose request =>
    lib.requestReadsBack 1 request.to ∧ lib.requestReadsBack 1 request.cc ∧
      lib.requestReadsBack 1 request.bcc
  | .response .forward request _ =>
    lib.requestReadsBack 1 request.to ∧ lib.requestReadsBack 1 request.cc ∧
      lib.requestReadsBack 1 request.bcc
  | .response .reply request source =>
    lib.toReadsBack request source ∧ lib.requestReadsBack 2 request.cc ∧
      lib.requestReadsBack 2 request.bcc
  | .response .replyAll request source =>
    lib.toReadsBack request source ∧ lib.ccReadsBack request source ∧
      lib.requestReadsBack 2 request.bcc

/-! ## Lists that carry addresses -/

/-- The texts are printed mailboxes with these addresses, which read back so often. -/
def Library.Carries (lib : Library) (n : Nat) (texts addresses : List (List Char)) : Prop :=
  ∃ mailboxes : List Mailbox, texts = mailboxes.map rendered ∧
    mailboxes.map Prod.snd = addresses ∧
    ∀ mailbox ∈ mailboxes, mailbox.2 ≠ [] ∧ lib.ReadsBack n mailbox

variable {n : Nat} {mailboxes : List Mailbox}
  {texts addresses cleaned next values : List (List Char)} {source : Source}

section

variable {lib : Library} (hlib : lib.Documented)

include hlib

theorem parseaddr_rendered {mailbox : Mailbox} (hne : mailbox.2 ≠ [])
    (h : lib.ReadsBack (n + 1) mailbox) : (lib.parseaddr (rendered mailbox)).2 = mailbox.2 := by
  obtain ⟨-, next, hread, hsame, -⟩ := h
  rw [hlib.reader.single _ next hread (hsame ▸ hne), hsame]

theorem addresses_map_rendered
    (h : ∀ mailbox ∈ mailboxes, mailbox.2 ≠ [] ∧ lib.ReadsBack (n + 1) mailbox) :
    lib.addresses (mailboxes.map rendered) = mailboxes.map fun mailbox => lib.lower mailbox.2 := by
  unfold Library.addresses
  rw [List.map_map]
  refine List.map_congr_left fun mailbox hmem => ?_
  obtain ⟨hne, hback⟩ := h mailbox hmem
  simp only [Function.comp, parseaddr_rendered hlib hne hback]

theorem foldl_add (cleaned : List Mailbox)
    (hcleaned : ∀ mailbox ∈ cleaned, mailbox.2 ≠ [] ∧ lib.ReadsBack (n + 1) mailbox)
    (h : ∀ mailbox ∈ mailboxes, mailbox.2 ≠ [] ∧ lib.ReadsBack (n + 1) mailbox) :
    mailboxes.foldl lib.add (cleaned.map rendered) =
      (cleaned ++ firstsBy (fun mailbox => lib.lower mailbox.2)
        (cleaned.map fun mailbox => lib.lower mailbox.2) mailboxes).map rendered := by
  induction mailboxes generalizing cleaned with
  | nil => simp [firstsBy]
  | cons mailbox mailboxes ih =>
    have hrest := fun m hm => h m (List.mem_cons_of_mem _ hm)
    rw [List.foldl_cons, Library.add, addresses_map_rendered hlib hcleaned, firstsBy]
    simp only [List.contains_iff_mem]
    split
    · exact ih cleaned hcleaned hrest
    have hnext : ∀ m ∈ cleaned ++ [mailbox], m.2 ≠ [] ∧ lib.ReadsBack (n + 1) m := by
      intro m hm
      rcases List.mem_append.1 hm with hm | hm
      · exact hcleaned m hm
      · rw [List.mem_singleton.1 hm]
        exact h mailbox (List.mem_cons_self ..)
    have hsnoc : cleaned.map rendered ++ [rendered mailbox] =
        (cleaned ++ [mailbox]).map rendered := by simp
    rw [hsnoc, ih _ hnext hrest, List.append_assoc]
    congr 2
    rw [List.singleton_append]
    congr 1
    refine firstsBy_congr fun m _ => ?_
    simp [or_comm]

theorem carries_foldl_add
    (h : ∀ mailbox ∈ mailboxes, mailbox.2 ≠ [] ∧ lib.ReadsBack (n + 1) mailbox) :
    lib.Carries (n + 1) (mailboxes.foldl lib.add [])
      (firstsBy lib.lower [] (mailboxes.map Prod.snd)) := by
  have hfold := foldl_add hlib [] (fun m hm => nomatch hm) h
  refine ⟨_, hfold, ?_, ?_⟩
  · exact map_firstsBy [] mailboxes
  · intro mailbox hmem
    exact h mailbox ((firstsBy_sublist _ mailboxes).subset hmem)

theorem found_header
    (h : lib.Carries (n + 1) texts addresses) : lib.found (header texts) = addresses := by
  obtain ⟨mailboxes, rfl, rfl, hback⟩ := h
  cases hm : mailboxes with
  | nil => rfl
  | cons first rest =>
    rw [← hm]
    have hne : mailboxes.map rendered ≠ [] := by simp [hm]
    have hread : lib.getaddresses (join (mailboxes.map rendered)) =
        (mailboxes.map rendered).flatMap lib.getaddresses := by
      refine hlib.reader.list _ hne ?_
      intro text htext
      obtain ⟨mailbox, hmem, rfl⟩ := List.mem_map.1 htext
      obtain ⟨hnonempty, hclosed, next, hnext, hsame, -⟩ := hback mailbox hmem
      exact ⟨hclosed, next, hnext, hsame ▸ hnonempty⟩
    rw [header, if_neg hne, Library.found, hread, List.flatMap_map, List.map_flatMap,
      List.flatMap_congr (g := fun mailbox : Mailbox => [mailbox.2])]
    · exact List.map_eq_flatMap.symm
    · intro mailbox hmem
      obtain ⟨-, -, next, hnext, hsame, -⟩ := hback mailbox hmem
      rw [hnext, List.map_singleton, hsame]

/-! ## What the stages do -/

omit hlib in
theorem validatedMailbox_ok {value : List Char}
    {mailbox : Mailbox} (h : lib.validatedMailbox value cleaned mailbox = .ok next) :
    next = lib.add cleaned (mailbox.1, strip mailbox.2) ∧ strip mailbox.2 ≠ [] := by
  unfold Library.validatedMailbox at h
  simp only at h
  split at h
  · next hvalid =>
      refine ⟨(Except.ok.inj h).symm, ?_⟩
      intro hnil
      rw [hnil] at hvalid
      exact absurd hvalid (by decide)
  · cases h

omit hlib in
theorem foldlM_validatedMailbox {value : List Char}
    (h : mailboxes.foldlM (lib.validatedMailbox value) cleaned = .ok next) :
    next = (mailboxes.map fun mailbox => (mailbox.1, strip mailbox.2)).foldl lib.add cleaned ∧
      ∀ mailbox ∈ mailboxes, strip mailbox.2 ≠ [] := by
  induction mailboxes generalizing cleaned with
  | nil => exact ⟨(Except.ok.inj h).symm, fun mailbox hmem => nomatch hmem⟩
  | cons mailbox mailboxes ih =>
    rw [List.foldlM_cons] at h
    cases hone : lib.validatedMailbox value cleaned mailbox with
    | error =>
      rw [hone] at h
      cases h
    | ok middle =>
      rw [hone] at h
      obtain ⟨rfl, hne⟩ := validatedMailbox_ok hone
      obtain ⟨hnext, hall⟩ := ih h
      exact ⟨hnext, List.forall_mem_cons.2 ⟨hne, hall⟩⟩

omit hlib in
theorem foldlM_validatedValue (h : values.foldlM lib.validatedValue cleaned = .ok next) :
    next = (lib.requested values).foldl lib.add cleaned ∧
      ∀ mailbox ∈ lib.requested values, mailbox.2 ≠ [] := by
  induction values generalizing cleaned with
  | nil => exact ⟨(Except.ok.inj h).symm, fun mailbox hmem => nomatch hmem⟩
  | cons value values ih =>
    rw [List.foldlM_cons] at h
    cases hone : lib.validatedValue cleaned value with
    | error =>
      rw [hone] at h
      cases h
    | ok middle =>
      rw [hone] at h
      obtain ⟨hnext, hall⟩ := ih h
      unfold Library.validatedValue at hone
      split at hone
      · cases hone
      split at hone
      · cases hone
      obtain ⟨hmiddle, hne⟩ := foldlM_validatedMailbox hone
      refine ⟨?_, ?_⟩
      · rw [hnext, hmiddle, ← List.foldl_append]
        rfl
      · intro mailbox hmem
        rcases List.mem_append.1 hmem with hmem | hmem
        · obtain ⟨parsed, hparsed, rfl⟩ := List.mem_map.1 hmem
          exact hne parsed hparsed
        · exact hall mailbox hmem

omit hlib in
theorem validatedAddresses_eq (h : lib.validatedAddresses values = .ok cleaned) :
    cleaned = (lib.requested values).foldl lib.add [] ∧
      ∀ mailbox ∈ lib.requested values, mailbox.2 ≠ [] := by
  unfold Library.validatedAddresses at h
  split at h
  · cases h
  · exact foldlM_validatedValue h

theorem carries_validated (h : lib.validatedAddresses values = .ok cleaned)
    (hback : lib.requestReadsBack (n + 1) values) :
    lib.Carries (n + 1) cleaned (firstsBy lib.lower [] (lib.addressesOf values)) := by
  obtain ⟨rfl, hne⟩ := validatedAddresses_eq h
  exact carries_foldl_add hlib fun mailbox hmem => ⟨hne mailbox hmem, hback mailbox hmem⟩

theorem carries_cleanAddresses (values : List (List Char))
    (h : ∀ mailbox ∈ values.flatMap lib.getaddresses, mailbox.2 ≠ [] →
      lib.ReadsBack (n + 1) mailbox) :
    lib.Carries (n + 1) (lib.cleanAddresses values)
      (firstsBy lib.lower [] (((values.flatMap lib.getaddresses).filter fun mailbox =>
        mailbox.2 != []).map Prod.snd)) := by
  refine carries_foldl_add hlib fun mailbox hmem => ?_
  obtain ⟨hmem, hne⟩ := List.mem_filter.1 hmem
  have hne : mailbox.2 ≠ [] := by simpa using hne
  exact ⟨hne, h mailbox hmem hne⟩

omit hlib in
theorem Library.Carries.read (h : lib.Carries (n + 1) texts addresses) :
    ((texts.flatMap lib.getaddresses).map Prod.snd = addresses) ∧
      ∀ mailbox ∈ texts.flatMap lib.getaddresses, mailbox.2 ≠ [] ∧ lib.ReadsBack n mailbox := by
  obtain ⟨mailboxes, rfl, rfl, hback⟩ := h
  refine ⟨?_, ?_⟩
  · rw [List.flatMap_map, List.map_flatMap,
      List.flatMap_congr (g := fun mailbox : Mailbox => [mailbox.2])]
    · exact List.map_eq_flatMap.symm
    · intro mailbox hmem
      obtain ⟨-, -, next, hnext, hsame, -⟩ := hback mailbox hmem
      rw [hnext, List.map_singleton, hsame]
  · intro mailbox hmem
    rw [List.flatMap_map] at hmem
    obtain ⟨printed, hprinted, hread⟩ := List.mem_flatMap.1 hmem
    obtain ⟨hne, -, next, hnext, hsame, hrest⟩ := hback printed hprinted
    rw [hnext] at hread
    obtain rfl := List.mem_singleton.1 hread
    exact ⟨hsame ▸ hne, hrest⟩

theorem Library.Carries.clean (h : lib.Carries (n + 2) texts addresses) :
    lib.Carries (n + 1) (lib.cleanAddresses texts) (firstsBy lib.lower [] addresses) := by
  obtain ⟨haddresses, hback⟩ := h.read
  have hclean := carries_cleanAddresses hlib (n := n) texts
    fun mailbox hmem _ => (hback mailbox hmem).2
  rw [List.filter_eq_self.2 fun mailbox hmem => by simpa using (hback mailbox hmem).1,
    haddresses] at hclean
  exact hclean

theorem foldl_uniqueValue (excluded recipients : List (List Char))
    (h : ∀ mailbox ∈ mailboxes, mailbox.2 ≠ [] ∧ lib.ReadsBack (n + 1) mailbox) :
    (mailboxes.map rendered).foldl lib.uniqueValue (excluded, recipients) =
      (excluded ++ (firstsBy (fun mailbox => lib.lower mailbox.2) excluded mailboxes).map
          fun mailbox => lib.lower mailbox.2,
        recipients ++ (firstsBy (fun mailbox => lib.lower mailbox.2) excluded mailboxes).map
          rendered) := by
  induction mailboxes generalizing excluded recipients with
  | nil => simp [firstsBy]
  | cons mailbox mailboxes ih =>
    have hrest := fun m hm => h m (List.mem_cons_of_mem _ hm)
    obtain ⟨hne, hback⟩ := h mailbox (List.mem_cons_self ..)
    have hlower : lib.lower mailbox.2 ≠ [] := fun hnil => hne ((hlib.lower_eq_nil _).1 hnil)
    have hnext : firstsBy (fun m : Mailbox => lib.lower m.2)
        (excluded ++ [lib.lower mailbox.2]) mailboxes =
        firstsBy (fun m : Mailbox => lib.lower m.2) (lib.lower mailbox.2 :: excluded) mailboxes :=
      firstsBy_congr fun m _ => by simp [or_comm]
    rw [List.map_cons, List.foldl_cons, Library.uniqueValue]
    simp only [parseaddr_rendered hlib hne hback, hlower, false_or, firstsBy, List.contains_iff_mem]
    split
    · exact ih _ _ hrest
    · rw [ih _ _ hrest, hnext]
      simp

theorem uniqueField_spec (excluded : List (List Char))
    (h : lib.Carries (n + 1) (lib.cleanAddresses values) (firstsBy lib.lower [] addresses)) :
    (lib.uniqueField excluded values).1 =
        excluded ++ (firstsBy lib.lower excluded addresses).map lib.lower ∧
      lib.Carries (n + 1) (lib.uniqueField excluded values).2
        (firstsBy lib.lower excluded addresses) := by
  obtain ⟨mailboxes, hcleaned, haddresses, hback⟩ := h
  have hfold := foldl_uniqueValue hlib excluded [] hback
  have hfirsts : (firstsBy (fun mailbox : Mailbox => lib.lower mailbox.2) excluded
      mailboxes).map Prod.snd = firstsBy lib.lower excluded addresses := by
    rw [map_firstsBy (f := Prod.snd) excluded mailboxes, haddresses,
      firstsBy_firstsBy fun b hb => absurd hb List.not_mem_nil]
  simp only [Library.uniqueField, hcleaned, hfold, List.nil_append]
  refine ⟨?_, _, rfl, hfirsts, ?_⟩
  · rw [← hfirsts, List.map_map]
    rfl
  · intro mailbox hmem
    exact hback mailbox ((firstsBy_sublist _ mailboxes).subset hmem)

/-! ## Messages -/

theorem carries_explicit (h : lib.validatedAddresses values = .ok cleaned)
    (hback : lib.requestReadsBack (n + 2) values) :
    lib.Carries (n + 1) (lib.cleanAddresses cleaned)
      (firstsBy lib.lower [] (lib.addressesOf values)) := by
  have hclean := (carries_validated hlib h hback).clean hlib
  rw [firstsBy_firstsBy fun b hb => absurd hb List.not_mem_nil] at hclean
  exact hclean

omit hlib in
theorem carries_without {value : Option (List Char)}
    (h : ∀ mailbox ∈ lib.others source value, lib.ReadsBack n mailbox) :
    lib.Carries n (lib.addressesWithoutUser (orElse value []) (lib.userEmail source))
      ((lib.others source value).map Prod.snd) := by
  refine ⟨_, rfl, rfl, fun mailbox hmem => ⟨?_, h mailbox hmem⟩⟩
  have hkept := (List.mem_filter.1 hmem).2
  simp only [Bool.and_eq_true, bne_iff_ne] at hkept
  exact hkept.1

omit hlib in
theorem Library.Carries.append {more moreAddresses : List (List Char)}
    (h : lib.Carries n texts addresses) (hmore : lib.Carries n more moreAddresses) :
    lib.Carries n (texts ++ more) (addresses ++ moreAddresses) := by
  obtain ⟨mailboxes, rfl, rfl, hback⟩ := h
  obtain ⟨moreMailboxes, rfl, rfl, hmoreBack⟩ := hmore
  refine ⟨mailboxes ++ moreMailboxes, List.map_append.symm, List.map_append, ?_⟩
  exact List.forall_mem_append.2 ⟨hback, hmoreBack⟩

omit hlib in
theorem contextTo_of_sender (h : lib.HasSender source) :
    lib.contextTo source = [source.senderValue] := if_pos h

omit hlib in
theorem contextTo_of_no_sender (h : ¬ lib.HasSender source) :
    lib.contextTo source =
      lib.addressesWithoutUser (orElse source.to []) (lib.userEmail source) := if_neg h

theorem carries_contextTo (h : if lib.HasSender source then
        lib.getaddresses source.senderValue = [lib.parseaddr source.senderValue] ∧
          lib.ReadsBack 1 (lib.parseaddr source.senderValue)
      else ∀ mailbox ∈ lib.others source source.to, lib.ReadsBack 2 mailbox) :
    lib.Carries 1 (lib.cleanAddresses (lib.contextTo source))
      (firstsBy lib.lower [] (lib.derivedTo source)) := by
  unfold Library.derivedTo
  by_cases hsender : lib.HasSender source
  · rw [if_pos hsender] at h
    rw [contextTo_of_sender hsender, if_pos hsender]
    obtain ⟨hread, hback⟩ := h
    have hne : (lib.parseaddr source.senderValue).2 ≠ [] :=
      fun hnil => hsender.1 ((hlib.lower_eq_nil _).2 hnil)
    have hclean := carries_cleanAddresses hlib (n := 0) [source.senderValue] <| by
      intro mailbox hmem _
      rw [List.flatMap_singleton, hread] at hmem
      rw [List.mem_singleton.1 hmem]
      exact hback
    rw [List.flatMap_singleton, hread] at hclean
    simpa [hne] using hclean
  · rw [if_neg hsender] at h
    rw [contextTo_of_no_sender hsender, if_neg hsender]
    exact (carries_without h).clean hlib

theorem Library.Carries.filter
    (h : lib.Carries (n + 1) texts addresses) (dropped : List (List Char)) :
    lib.Carries (n + 1)
      (texts.filter fun value => !dropped.contains (lib.lower (lib.parseaddr value).2))
      (addresses.filter fun address => !dropped.contains (lib.lower address)) := by
  obtain ⟨mailboxes, rfl, rfl, hback⟩ := h
  refine ⟨mailboxes.filter fun mailbox => !dropped.contains (lib.lower mailbox.2), ?_, ?_, ?_⟩
  · rw [List.filter_map]
    congr 1
    refine List.filter_congr fun mailbox hmem => ?_
    obtain ⟨hne, hreads⟩ := hback mailbox hmem
    simp only [Function.comp, parseaddr_rendered hlib hne hreads]
  · rw [List.filter_map]
    rfl
  · intro mailbox hmem
    exact hback mailbox (List.mem_of_mem_filter hmem)

theorem carries_replyAllCc
    (h : ∀ mailbox ∈ lib.others source source.to ++ lib.others source source.cc,
      lib.ReadsBack 3 mailbox) :
    lib.Carries 1 (lib.cleanAddresses (lib.replyAllCc source))
      (firstsBy lib.lower [] (lib.derivedCc source)) := by
  obtain ⟨hto, hcc⟩ := List.forall_mem_append.1 h
  have hall := (carries_without hto).append (carries_without hcc)
  have htargets : lib.addresses (lib.contextTo source) = (lib.derivedTo source).map lib.lower := by
    unfold Library.derivedTo
    by_cases hsender : lib.HasSender source
    · rw [contextTo_of_sender hsender, if_pos hsender]
      rfl
    · rw [contextTo_of_no_sender hsender, if_neg hsender]
      obtain ⟨mailboxes, hmailboxes, haddresses, hback⟩ := carries_without hto
      rw [hmailboxes, addresses_map_rendered hlib hback, ← haddresses, List.map_map]
      rfl
  have hfiltered := (hall.clean hlib).filter hlib (lib.addresses (lib.contextTo source))
  have hkept (address : List Char) :
      (!(lib.addresses (lib.contextTo source)).contains (lib.lower address)) = true ↔
        lib.lower address ∉ lib.addresses (lib.contextTo source) := by simp
  rw [filter_firstsBy hkept, List.nil_append, htargets, ← List.map_append] at hfiltered
  rw [Library.replyAllCc, htargets]
  exact hfiltered.clean hlib

omit hlib in
theorem Library.Carries.nonempty
    (h : lib.Carries n texts addresses) {address : List Char} (hmem : address ∈ addresses) :
    address ≠ [] := by
  obtain ⟨mailboxes, -, rfl, hback⟩ := h
  obtain ⟨mailbox, hmailbox, rfl⟩ := List.mem_map.1 hmem
  exact (hback mailbox hmailbox).1

theorem firstsBy_excluded (source : Source)
    (hne : ∀ address ∈ firstsBy lib.lower [] addresses, address ≠ []) (before : List (List Char)) :
    firstsBy lib.lower
        ((if lib.userEmail source = [] then [] else [lib.lower (lib.userEmail source)]) ++ before)
        addresses =
      firstsBy lib.lower ([lib.userEmail source] ++ before) addresses := by
  have hfirsts : ∀ taken : List (List Char),
      firstsBy lib.lower taken (firstsBy lib.lower [] addresses) =
        firstsBy lib.lower taken addresses := fun taken =>
    firstsBy_firstsBy (fun b (hb : b ∈ ([] : List (List Char))) => nomatch hb) addresses
  rw [← hfirsts, ← hfirsts ([lib.userEmail source] ++ before)]
  refine firstsBy_congr fun address hmem => ?_
  have haddress : lib.lower address ≠ [] := fun hnil =>
    hne address hmem ((hlib.lower_eq_nil _).1 hnil)
  by_cases huser : lib.userEmail source = []
  · simp [huser, haddress]
  · have hlower : lib.lower (lib.userEmail source) = lib.userEmail source :=
      hlib.lower_lower source.userEmail
    simp [huser, hlower]

theorem found_replyRecipients (source : Source)
    {toTexts ccTexts bccTexts toAddresses ccAddresses bccAddresses : List (List Char)}
    (hto : lib.Carries 1 (lib.cleanAddresses toTexts) (firstsBy lib.lower [] toAddresses))
    (hcc : lib.Carries 1 (lib.cleanAddresses ccTexts) (firstsBy lib.lower [] ccAddresses))
    (hbcc : lib.Carries 1 (lib.cleanAddresses bccTexts) (firstsBy lib.lower [] bccAddresses)) :
    let headers := (lib.replyRecipients toTexts ccTexts bccTexts (lib.userEmail source)).headers
    let wanted := lib.replyWanted source toAddresses ccAddresses bccAddresses
    lib.found headers.to = wanted.to ∧ lib.found headers.cc = wanted.cc ∧
      lib.found headers.bcc = wanted.bcc := by
  intro headers wanted
  let excluded := if lib.userEmail source = [] then [] else [lib.lower (lib.userEmail source)]
  have hwantedTo : firstsBy lib.lower excluded toAddresses = wanted.to := by
    have h := firstsBy_excluded hlib source (fun _ => hto.nonempty) []
    rw [List.append_nil, List.append_nil] at h
    exact h
  obtain ⟨htoExcluded, htoCarries⟩ := uniqueField_spec hlib excluded hto
  rw [hwantedTo] at htoExcluded htoCarries
  have hwantedCc : firstsBy lib.lower (excluded ++ wanted.to.map lib.lower) ccAddresses =
      wanted.cc := firstsBy_excluded hlib source (fun _ => hcc.nonempty) _
  obtain ⟨hccExcluded, hccCarries⟩ :=
    uniqueField_spec hlib (excluded ++ wanted.to.map lib.lower) hcc
  rw [hwantedCc, List.append_assoc] at hccExcluded
  rw [hwantedCc] at hccCarries
  have hwantedBcc : firstsBy lib.lower
      (excluded ++ (wanted.to.map lib.lower ++ wanted.cc.map lib.lower)) bccAddresses =
        wanted.bcc := by
    rw [firstsBy_excluded hlib source fun _ => hbcc.nonempty]
    rfl
  obtain ⟨-, hbccCarries⟩ := uniqueField_spec hlib
    (excluded ++ (wanted.to.map lib.lower ++ wanted.cc.map lib.lower)) hbcc
  rw [hwantedBcc] at hbccCarries
  refine ⟨found_header hlib htoCarries, ?_, ?_⟩
  · change lib.found (header (lib.uniqueField (lib.uniqueField excluded toTexts).1 ccTexts).2) = _
    rw [htoExcluded]
    exact found_header hlib hccCarries
  · change lib.found (header (lib.uniqueField
      (lib.uniqueField (lib.uniqueField excluded toTexts).1 ccTexts).1 bccTexts).2) = _
    rw [htoExcluded, hccExcluded]
    exact found_header hlib hbccCarries

omit hlib in
theorem replyWanted_apart (source : Source)
    (toAddresses ccAddresses bccAddresses : List (List Char)) :
    let wanted := lib.replyWanted source toAddresses ccAddresses bccAddresses
    (lib.Disjoint wanted.to wanted.cc ∧ lib.Disjoint wanted.to wanted.bcc ∧
      lib.Disjoint wanted.cc wanted.bcc) ∧
    ∀ field ∈ [wanted.to, wanted.cc, wanted.bcc], ∀ address ∈ field,
      lib.lower address ≠ lib.userEmail source := by
  intro wanted
  have hkeys : ∀ (fields : List (List Char)), ∀ address ∈ fields,
      lib.lower address ∈ fields.map lib.lower := fun fields address hmem =>
    List.mem_map_of_mem hmem
  refine ⟨⟨?_, ?_, ?_⟩, ?_⟩
  · intro address hmem other hother heq
    refine key_notMem_of_mem_firstsBy hother ?_
    rw [← heq]
    exact List.mem_append_right _ (hkeys _ address hmem)
  · intro address hmem other hother heq
    refine key_notMem_of_mem_firstsBy hother ?_
    rw [← heq]
    exact List.mem_append_left _ (List.mem_append_right _ (hkeys _ address hmem))
  · intro address hmem other hother heq
    refine key_notMem_of_mem_firstsBy hother ?_
    rw [← heq]
    exact List.mem_append_right _ (hkeys _ address hmem)
  · intro field hfield address hmem heq
    simp only [List.mem_cons, List.not_mem_nil, or_false] at hfield
    rcases hfield with rfl | rfl | rfl <;> refine key_notMem_of_mem_firstsBy hmem ?_ <;>
      simp [heq]

omit hlib in
theorem wanted_distinct (build : Build) :
    ∀ field ∈ [(lib.wanted build).to, (lib.wanted build).cc, (lib.wanted build).bcc],
      (field.map lib.lower).Nodup := by
  intro field hfield
  simp only [List.mem_cons, List.not_mem_nil, or_false] at hfield
  cases build with
  | compose =>
    rcases hfield with rfl | rfl | rfl <;> exact nodup_firstsBy _ _
  | response mode =>
    cases mode <;> rcases hfield with rfl | rfl | rfl <;> exact nodup_firstsBy _ _

omit hlib in
theorem survives_of_found {build : Build} {headers : Headers}
    (hfound : lib.found headers.to = (lib.wanted build).to ∧
      lib.found headers.cc = (lib.wanted build).cc ∧
      lib.found headers.bcc = (lib.wanted build).bcc) : lib.Survives build headers := by
  obtain ⟨hto, hcc, hbcc⟩ := hfound
  have hfields : ∀ P : List (List Char) → Prop,
      (∀ field ∈ [(lib.wanted build).to, (lib.wanted build).cc, (lib.wanted build).bcc], P field) →
      ∀ field ∈ [headers.to, headers.cc, headers.bcc], P (lib.found field) := by
    intro P hP
    simpa [hto, hcc, hbcc] using hP
  refine ⟨hto, hcc, hbcc, ?_, ?_, ?_⟩
  · exact hfields (fun field => (field.map lib.lower).Nodup) (wanted_distinct build)
  · intro hreply
    rw [hto, hcc, hbcc]
    cases build with
    | compose => cases hreply
    | response mode request source =>
      cases mode with
      | forward => cases hreply
      | reply | replyAll => exact (replyWanted_apart source _ _ _).1
  · intro source hsource
    refine hfields (fun field => ∀ address ∈ field, lib.lower address ≠ lib.userEmail source) ?_
    cases build with
    | compose => cases hsource
    | response mode =>
      cases mode with
      | forward => cases hsource
      | reply | replyAll =>
        cases hsource
        exact (replyWanted_apart source _ _ _).2

end

theorem ok_of_bind {α β : Type} {x : Except String α} {f : α → Except String β} {b : β}
    (h : (x >>= f) = .ok b) : ∃ a, x = .ok a ∧ f a = .ok b := by
  cases x with
  | error => cases h
  | ok a => exact ⟨a, rfl, h⟩

theorem recipients_survive {lib : Library} (hlib : lib.Documented) {build : Build}
    (hback : lib.AllReadBack build) {fields : Fields} (hfields : lib.fields build = .ok fields) :
    lib.Survives build fields.headers := by
  refine survives_of_found ?_
  cases build with
  | compose =>
    obtain ⟨hbackTo, hbackCc, hbackBcc⟩ := hback
    obtain ⟨explicitTo, hto, hfields⟩ := ok_of_bind hfields
    obtain ⟨explicitCc, hcc, hfields⟩ := ok_of_bind hfields
    obtain ⟨explicitBcc, hbcc, hfields⟩ := ok_of_bind hfields
    cases hfields
    exact ⟨found_header hlib (carries_validated hlib hto hbackTo),
      found_header hlib (carries_validated hlib hcc hbackCc),
      found_header hlib (carries_validated hlib hbcc hbackBcc)⟩
  | response mode request source =>
    obtain ⟨explicitTo, hto, hfields⟩ := ok_of_bind hfields
    obtain ⟨explicitCc, hcc, hfields⟩ := ok_of_bind hfields
    obtain ⟨explicitBcc, hbcc, hfields⟩ := ok_of_bind hfields
    have htoStage : lib.toReadsBack request source →
        lib.Carries 1
          (lib.cleanAddresses (if request.explicitTo then explicitTo else lib.contextTo source))
          (firstsBy lib.lower []
            (if request.explicitTo then lib.addressesOf request.to
              else lib.derivedTo source)) := by
      intro h
      unfold Library.toReadsBack at h
      cases hexplicit : request.explicitTo with
      | true => exact carries_explicit hlib hto (by simpa [hexplicit] using h)
      | false => exact carries_contextTo hlib (by simpa [hexplicit] using h)
    cases mode with
    | forward =>
      obtain ⟨hbackTo, hbackCc, hbackBcc⟩ := hback
      cases hfields
      exact ⟨found_header hlib (carries_validated hlib hto hbackTo),
        found_header hlib (carries_validated hlib hcc hbackCc),
        found_header hlib (carries_validated hlib hbcc hbackBcc)⟩
    | reply =>
      obtain ⟨hbackTo, hbackCc, hbackBcc⟩ := hback
      cases hfields
      exact found_replyRecipients hlib source (htoStage hbackTo)
        (carries_explicit hlib hcc hbackCc) (carries_explicit hlib hbcc hbackBcc)
    | replyAll =>
      obtain ⟨hbackTo, hbackCc, hbackBcc⟩ := hback
      have hccStage : lib.Carries 1
          (lib.cleanAddresses (if request.explicitCc then explicitCc else lib.replyAllCc source))
          (firstsBy lib.lower []
            (if request.explicitCc then lib.addressesOf request.cc
              else lib.derivedCc source)) := by
        unfold Library.ccReadsBack at hbackCc
        cases hexplicit : request.explicitCc with
        | true => exact carries_explicit hlib hcc (by simpa [hexplicit] using hbackCc)
        | false => exact carries_replyAllCc hlib (by simpa [hexplicit] using hbackCc)
      cases hfields
      exact found_replyRecipients hlib source (htoStage hbackTo) hccStage
        (carries_explicit hlib hbcc hbackBcc)

/-! ## A simple library -/

/-- A library with the simple reader of address lists, and lower case of ASCII. -/
def Library.simple : Library :=
  ⟨Foundations.AddressList.readList, Foundations.AddressList.readOne, List.map Char.toLower⟩

theorem documented_simple : Library.simple.Documented where
  reader := Foundations.AddressList.addressReader_readList
  lower_lower text := by simp [Library.simple]
  lower_eq_nil text := List.map_eq_nil_iff

def commaRequest : Request :=
  ⟨["\"b@evil.org, John\" <john@x.org>".toList], [], [], true, true⟩

/-- A name with a comma gets the mail to what stands before the comma. -/
theorem comma_in_name_adds_recipient :
    ¬ ∀ lib : Library, lib.Documented → ∀ (build : Build) (fields : Fields),
      lib.fields build = .ok fields → lib.Survives build fields.headers := by
  intro h
  have hfields : Library.simple.fields (.compose commaRequest) =
      .ok ⟨["b@evil.org, John <john@x.org>".toList], [], []⟩ := by decide +kernel
  have hto := (h .simple documented_simple _ _ hfields).to
  exact absurd hto (by decide +kernel)

-- Two names that do not read back may cancel out: the condition is not necessary for them.
example : (Library.simple.fields (.compose
      ⟨["\"(\" <a@b.c>".toList, "\") <a@b.c>, \" <d@e.f>".toList], [], [], true, true⟩)).toOption.map
        (fun fields => Library.simple.found fields.headers.to) =
    some ["a@b.c".toList, "d@e.f".toList] := by decide +kernel

def plainRequest : Request :=
  ⟨["\"John Doe\" <john@x.org>".toList, "JOHN@x.org".toList, "Ann <ann@y.org>".toList], [], [],
    true, true⟩

theorem plainRequest_survives :
    Library.simple.Survives (.compose plainRequest)
      ⟨some "John Doe <john@x.org>, Ann <ann@y.org>".toList, none, none⟩ := by
  have hrequested : Library.simple.requested plainRequest.to =
      [("John Doe".toList, "john@x.org".toList), ([], "JOHN@x.org".toList),
        ("Ann".toList, "ann@y.org".toList)] := by decide +kernel
  have hback : ∀ mailbox ∈ Library.simple.requested plainRequest.to,
      Closed (rendered mailbox) ∧ Library.simple.getaddresses (rendered mailbox) = [mailbox] := by
    rw [hrequested]
    decide +kernel
  have hfields : Library.simple.fields (.compose plainRequest) =
      .ok ⟨["John Doe <john@x.org>".toList, "Ann <ann@y.org>".toList], [], []⟩ := by
    decide +kernel
  have hall : Library.simple.AllReadBack (.compose plainRequest) := by
    have hempty : Library.simple.requestReadsBack 1 [] := fun mailbox hmem => by cases hmem
    refine ⟨?_, hempty, hempty⟩
    intro mailbox hmem
    obtain ⟨hclosed, hread⟩ := hback mailbox hmem
    exact ⟨hclosed, mailbox, hread, rfl, trivial⟩
  exact recipients_survive documented_simple hall hfields

end ElectronicMail.Recipients
