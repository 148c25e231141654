import ElectronicMail.Search.Continuation

/-!
# Chains of search jobs

A job that leaves pages over queues its continuation, and so on: a chain of jobs. Gmail may answer
anything, with tokens that repeat in a job, across jobs, or never. `search_chains` says that every
continuation passes the checks of the job that runs it, that a chain from one search has at most
`gmailSearchMaxContinuationJobs` continuations, and that a job lists at most
`gmailSearchMaxPages` pages.

The producer and the checks meet in `validated_of_enqueue`; `Continuation.Sound` is what the checks
establish, whatever the payload.
-/

namespace ElectronicMail.Search

open Foundations

/-- A continuation whose history has one hash for each job before it, all different. -/
structure Continuation.Sound (continuation : Continuation) : Prop where
  length : continuation.tokenHashes.length = continuation.index
  nodup : continuation.tokenHashes.Nodup
  hex : ∀ hash ∈ continuation.tokenHashes, isSha256Hex hash = true
  bounded : continuation.index ≤ gmailSearchMaxContinuationJobs

variable {hashes : List String}

/-! ## The checks -/

theorem hexTexts_map (h : ∀ hash ∈ hashes, isSha256Hex hash = true) :
    hexTexts (hashes.map .text) = some hashes := by
  induction hashes with
  | nil => rfl
  | cons hash hashes ih =>
    rw [List.forall_mem_cons] at h
    simp [hexTexts, h.1, ih h.2]

theorem hex_of_hexTexts {items : List Json}
    (h : hexTexts items = some hashes) : ∀ hash ∈ hashes, isSha256Hex hash = true := by
  induction items generalizing hashes with
  | nil =>
    cases h
    exact List.forall_mem_nil _
  | cons item items ih =>
    cases item with
    | text hash =>
      simp only [hexTexts] at h
      split at h
      · next hhex =>
        obtain ⟨rest, hrest, rfl⟩ := Option.map_eq_some_iff.1 h
        exact List.forall_mem_cons.2 ⟨hhex, ih hrest⟩
      · cases h
    | _ => simp [hexTexts] at h

variable {lib : Library}

theorem validatedHashes_ok {pageToken : String} {index : Nat} {value : Json}
    (h : lib.validatedHashes pageToken index value = .ok hashes) :
    hashes.length = index ∧ hashes.Nodup ∧ ∀ hash ∈ hashes, isSha256Hex hash = true := by
  cases value with
  | list items =>
    simp only [Library.validatedHashes] at h
    cases hitems : hexTexts items with
    | none => simp [hitems] at h
    | some texts =>
      simp only [hitems] at h
      split at h
      · next hok =>
        cases h
        exact ⟨hok.1, hok.2.1, hex_of_hexTexts hitems⟩
      · cases h
  | _ => simp [Library.validatedHashes] at h

theorem validatedIndex_ok {value : Json} {index : Nat}
    (h : validatedIndex value = .ok index) : index ≤ gmailSearchMaxContinuationJobs := by
  cases value with
  | number n =>
    simp only [validatedIndex] at h
    split at h
    · cases h
    · cases h
      omega
  | _ => simp [validatedIndex] at h

variable {payload : Payload}

variable {continuation : Continuation}

theorem validatedInitial_ok (h : validatedInitial payload = .ok continuation) :
    continuation = ⟨"", 0, []⟩ := by
  unfold validatedInitial at h
  split at h
  · cases h
    rfl
  · cases h

theorem sound_initial : Continuation.Sound ⟨"", 0, []⟩ :=
  ⟨rfl, List.nodup_nil, List.forall_mem_nil _, Nat.zero_le _⟩

theorem sound_of_validated (h : lib.validatedContinuation payload = .ok continuation) :
    continuation.Sound := by
  unfold Library.validatedContinuation at h
  cases htoken : payload.pageToken with
  | null =>
    rw [htoken] at h
    rw [validatedInitial_ok h]
    exact sound_initial
  | text pageToken =>
    simp only [htoken] at h
    split at h
    · rw [validatedInitial_ok h]
      exact sound_initial
    · -- The four checks of a continuation, one after the other.
      cases hvalid : validatedPageToken pageToken with
      | error e => simp [hvalid, bind, Except.bind] at h
      | ok token =>
        cases hindex : validatedIndex payload.continuationIndex with
        | error e => simp [hvalid, hindex, bind, Except.bind] at h
        | ok index =>
          cases hhashes : lib.validatedHashes token index payload.continuationTokenHashes with
          | error e => simp [hvalid, hindex, hhashes, bind, Except.bind] at h
          | ok =>
            simp only [hvalid, hindex, hhashes, bind, Except.bind, pure, Except.pure] at h
            split at h
            · cases h
            cases h
            obtain ⟨hlength, hnodup, hhex⟩ := validatedHashes_ok hhashes
            exact ⟨hlength, hnodup, hhex, validatedIndex_ok hindex⟩
  | _ => simp [htoken] at h

theorem validatedPageToken_ok {value token : String} (h : validatedPageToken value = .ok token) :
    token = value ∧ value ≠ "" := by
  unfold validatedPageToken at h
  split at h
  · cases h
  next hok =>
  cases h
  exact ⟨rfl, fun hempty => hok (Or.inl hempty)⟩

variable {next : Payload} {validated : Continuation}

/-! ## The producer -/

variable {nextPageToken : String}

/-- What `enqueue_continuation` makes of a validated continuation. -/
theorem enqueueContinuation_ok
    (h : lib.enqueueContinuation payload validated nextPageToken = .ok next) :
    validatedPageToken nextPageToken = .ok nextPageToken ∧ nextPageToken ≠ "" ∧
      validated.index + 1 ≤ gmailSearchMaxContinuationJobs ∧
      lib.pageTokenHash nextPageToken ∉ validated.tokenHashes ∧
      next = continuationPayload payload
        ⟨nextPageToken, validated.index + 1,
          validated.tokenHashes ++ [lib.pageTokenHash nextPageToken]⟩
        (lib.continuationKey payload.userId payload.searchKey nextPageToken (validated.index + 1)
          (validated.tokenHashes ++ [lib.pageTokenHash nextPageToken])) := by
  unfold Library.enqueueContinuation at h
  cases hvalid : validatedPageToken nextPageToken with
  | error e => simp [hvalid, bind, Except.bind] at h
  | ok token =>
    obtain ⟨rfl, hne⟩ := validatedPageToken_ok hvalid
    simp only [hvalid, bind, Except.bind, pure, Except.pure] at h
    split at h
    · cases h
    next hbound =>
    split at h
    · cases h
    next hfresh =>
    cases h
    refine ⟨rfl, hne, by omega, ?_, rfl⟩
    simpa using hfresh

theorem validated_of_enqueue (hsha : ∀ text, isSha256Hex (lib.sha256 text) = true)
    (hsound : validated.Sound)
    (h : lib.enqueueContinuation payload validated nextPageToken = .ok next) :
    lib.validatedContinuation next =
      .ok ⟨nextPageToken, validated.index + 1,
        validated.tokenHashes ++ [lib.pageTokenHash nextPageToken]⟩ := by
  obtain ⟨htoken, hne, hbound, hfresh, rfl⟩ := enqueueContinuation_ok h
  have hindex : validatedIndex (.number ((validated.index + 1 : Nat) : Int)) =
      .ok (validated.index + 1) := by
    simp only [validatedIndex]
    rw [if_neg (by omega)]
    simp
  have hhex : ∀ hash ∈ validated.tokenHashes ++ [lib.pageTokenHash nextPageToken],
      isSha256Hex hash = true := by
    intro hash hmem
    rcases List.mem_append.1 hmem with hmem | hmem
    · exact hsound.hex hash hmem
    · rw [List.mem_singleton.1 hmem]
      exact hsha nextPageToken
  have hnodup : (validated.tokenHashes ++ [lib.pageTokenHash nextPageToken]).Nodup :=
    List.nodup_append.2 ⟨hsound.nodup, List.nodup_singleton _, by
      intro a ha b hb heq
      rw [List.mem_singleton.1 hb] at heq
      exact hfresh (heq ▸ ha)⟩
  have hhashes : lib.validatedHashes nextPageToken (validated.index + 1)
      (.list ((validated.tokenHashes ++ [lib.pageTokenHash nextPageToken]).map .text)) =
        .ok (validated.tokenHashes ++ [lib.pageTokenHash nextPageToken]) := by
    simp only [Library.validatedHashes, hexTexts_map hhex]
    refine if_pos ⟨?_, hnodup, List.getLast?_concat⟩
    rw [List.length_append, hsound.length]
    rfl
  simp only [Library.validatedContinuation, continuationPayload, if_neg hne, htoken, hindex,
    hhashes, bind, Except.bind, pure, Except.pure, Library.validatedKey, initialPayload]
  rw [if_pos ⟨hsha _, trivial⟩]

/-! ## A job -/

theorem length_walkPages_le (env : Environment) (budget i : Nat) (pageToken : Option String)
    (seen : List String) (hydratedCount : Nat) :
    (walkPages env budget i pageToken seen hydratedCount).listed.length ≤ budget := by
  induction budget generalizing i pageToken seen hydratedCount with
  | zero => exact Nat.le_refl 0
  | succ budget ih =>
    unfold walkPages
    split
    · simp
    split
    · simp
    · split
      · simp
      · split
        · simp
        · split
          · simp
          · simpa [Walk.after] using ih _ _ _ _

theorem clamp_le (value : Int) {bound : Int} (h : 1 ≤ bound) : clamp value bound ≤ bound := by
  unfold clamp
  omega

/-- `hydrate_gmail_search_results` lists no more than `GMAIL_SEARCH_MAX_PAGES` pages. -/
theorem length_hydrate_le (env : Environment) (query : String) (maxPages : Int)
    (pageToken : String) :
    (hydrateGmailSearchResults env query maxPages pageToken).listed.length ≤
      gmailSearchMaxPages.toNat := by
  unfold hydrateGmailSearchResults
  split
  · exact Nat.zero_le _
  split
  · exact Nat.zero_le _
  split
  · exact Nat.zero_le _
  · refine (length_walkPages_le ..).trans (Int.toNat_le_toNat ?_)
    exact clamp_le maxPages (by decide)

/-- A job lists what its walk lists, or nothing, and queues what `enqueue_continuation` makes. -/
theorem run_cases (lib : Library) (env : Environment) (payload : Payload) :
    (∃ query maxPages pageToken, (lib.runMailboxSearchHydration env payload).listed =
        (hydrateGmailSearchResults env query maxPages pageToken).listed ∨
      (lib.runMailboxSearchHydration env payload).listed = []) ∧
    ∀ next, (lib.runMailboxSearchHydration env payload).queued = some next →
      payload.searchKey = lib.mailboxSearchKey payload.query payload.label ∧
        ∃ validated nextPageToken, lib.validatedContinuation payload = .ok validated ∧
          lib.enqueueContinuation payload validated nextPageToken = .ok next := by
  unfold Library.runMailboxSearchHydration
  split
  · exact ⟨⟨"", 0, "", Or.inr rfl⟩, fun next hnext => by cases hnext⟩
  next hkey =>
  have hkey := not_not.1 (not_or.1 hkey).2
  cases hvalidated : lib.validatedContinuation payload with
  | error e => exact ⟨⟨"", 0, "", Or.inr rfl⟩, fun next hnext => by cases hnext⟩
  | ok validated =>
    dsimp only
    split
    · exact ⟨⟨_, _, _, Or.inl rfl⟩, fun next hnext => by cases hnext⟩
    · exact ⟨⟨_, _, _, Or.inl rfl⟩, fun next hnext => by cases hnext⟩
    · next nextPageToken _ =>
      split
      · exact ⟨⟨_, _, _, Or.inl rfl⟩, fun next hnext => by cases hnext⟩
      · exact ⟨⟨_, _, _, Or.inl rfl⟩, fun next hnext => by cases hnext⟩
      · next continuation henqueue _ =>
        refine ⟨⟨_, _, _, Or.inl rfl⟩, fun next hnext => ?_⟩
        cases hnext
        exact ⟨hkey, validated, nextPageToken, rfl, henqueue⟩

/-! ## Chains -/

/-- The second job is the continuation that a run of the first one queues. -/
def Library.Continues (lib : Library) (payload next : Payload) : Prop :=
  ∃ env, (lib.runMailboxSearchHydration env payload).queued = some next

/-- The checks accept the job, and its history has its index's number of different hashes. -/
def Library.Accepts (lib : Library) (payload : Payload) : Prop :=
  payload.searchKey = lib.mailboxSearchKey payload.query payload.label ∧
    ∃ continuation, lib.validatedContinuation payload = .ok continuation ∧
      payload.continuationIndex = .number continuation.index ∧
      payload.continuationTokenHashes = .list (continuation.tokenHashes.map .text) ∧
      continuation.tokenHashes.Nodup ∧ continuation.tokenHashes.length = continuation.index

theorem accepts_of_continues (hsha : ∀ text, isSha256Hex (lib.sha256 text) = true)
    (h : lib.Continues payload next) :
    lib.Accepts next ∧ ∀ validated, lib.validatedContinuation payload = .ok validated →
      ∃ continuation, lib.validatedContinuation next = .ok continuation ∧
        continuation.index = validated.index + 1 := by
  obtain ⟨env, hqueued⟩ := h
  obtain ⟨hkey, validated, nextPageToken, hvalidated, henqueue⟩ :=
    (run_cases lib env payload).2 next hqueued
  have hnext := validated_of_enqueue hsha (sound_of_validated hvalidated) henqueue
  have hsound := sound_of_validated hnext
  obtain ⟨-, -, -, -, rfl⟩ := enqueueContinuation_ok henqueue
  refine ⟨⟨hkey, _, hnext, rfl, rfl, hsound.nodup, hsound.length⟩, ?_⟩
  intro validated' hvalidated'
  cases hvalidated.symm.trans hvalidated'
  exact ⟨_, hnext, rfl⟩

theorem length_chain_le (hsha : ∀ text, isSha256Hex (lib.sha256 text) = true)
    {start : Payload} {chain : List Payload} (h : List.IsChain lib.Continues (start :: chain))
    (hstart : lib.validatedContinuation start = .ok validated) :
    validated.index + chain.length ≤ gmailSearchMaxContinuationJobs := by
  induction chain generalizing start validated with
  | nil => exact (sound_of_validated hstart).bounded
  | cons next chain ih =>
    obtain ⟨hcontinues, hrest⟩ := List.isChain_cons_cons.1 h
    obtain ⟨continuation, hnext, hindex⟩ := (accepts_of_continues hsha hcontinues).2 _ hstart
    have hle := ih hrest hnext
    rw [List.length_cons]
    omega

theorem validated_searchJob {userId query label : String} {limit : Int} {start : Payload}
    (h : lib.searchJob userId query label limit = some start) :
    lib.validatedContinuation start = .ok ⟨"", 0, []⟩ := by
  unfold Library.searchJob at h
  dsimp only at h
  split at h
  · cases h
  · cases h
    rfl

variable (lib) in
/-- **Chains of search jobs.** Whatever Gmail answers, the continuations pass the checks, a search
has at most so many of them one after another, and a job lists at most so many pages. -/
theorem search_chains (hsha : ∀ text, isSha256Hex (lib.sha256 text) = true) :
    (∀ env payload next,
      (lib.runMailboxSearchHydration env payload).queued = some next → lib.Accepts next) ∧
    (∀ userId query label limit start chain,
      lib.searchJob userId query label limit = some start →
        List.IsChain lib.Continues (start :: chain) →
          (start :: chain).length ≤ 1 + gmailSearchMaxContinuationJobs) ∧
    ∀ env payload,
      (lib.runMailboxSearchHydration env payload).listed.length ≤ gmailSearchMaxPages.toNat := by
  refine ⟨?_, ?_, ?_⟩
  · intro env payload next hqueued
    exact (accepts_of_continues hsha ⟨env, hqueued⟩).1
  · intro userId query label limit start chain hstart hchain
    have hle := length_chain_le hsha hchain (validated_searchJob hstart)
    rw [List.length_cons]
    omega
  · intro env payload
    obtain ⟨⟨query, maxPages, pageToken, hlisted⟩, -⟩ := run_cases lib env payload
    rcases hlisted with hlisted | hlisted
    · rw [hlisted]
      exact length_hydrate_le env query maxPages pageToken
    · rw [hlisted]
      exact Nat.zero_le _

/-- The hashes of the texts of one search and its continuation; of others, the one of the empty
text. -/
def invoiceHash (text : String) : String :=
  if text = "all\x00invoice" then
    "7c80ec9430f8b46a8d4c025a5fa7f8299cf5e221d13f72257f4d99955e60e99c"
  else if text = "p5" then
    "536c351ae15e5f5e3dc37bcc5dea8ab641e70fc0431a088a1d684aef2ebf3e5b"
  else if text = "u\x007c80ec9430f8b46a8d4c025a5fa7f8299cf5e221d13f72257f4d99955e60e99c\x001\x00p5\x00536c351ae15e5f5e3dc37bcc5dea8ab641e70fc0431a088a1d684aef2ebf3e5b" then
    "d8940c26fc66454723cf009ab8f941ac81704edeef598f8ba2203be10076a812"
  else "e3b0c44298fc1c149afbf4c8996fb92427ae41e4649b934ca495991b7852b855"

theorem isSha256Hex_invoiceHash (text : String) : isSha256Hex (invoiceHash text) = true := by
  unfold invoiceHash
  split
  · decide +kernel
  · split
    · decide +kernel
    · split <;> decide +kernel

def endlessPages : Environment where
  canWrite := true
  connected := true
  list i _ := .ok ⟨.ok 100, .ok (), "p" ++ toString (i + 1)⟩
  stores := .ok ()

def invoiceSearch : Payload :=
  initialPayload "u" "invoice" "all" 50 (invoiceHash "all\x00invoice")

theorem invoiceSearch_continues :
    ∃ next, (Library.runMailboxSearchHydration ⟨invoiceHash, Text.lower⟩ endlessPages
        invoiceSearch).queued = some next ∧
      Library.Accepts ⟨invoiceHash, Text.lower⟩ next := by
  have hqueued : (Library.runMailboxSearchHydration ⟨invoiceHash, Text.lower⟩ endlessPages
      invoiceSearch).queued.isSome = true := by decide +kernel
  obtain ⟨next, hnext⟩ := Option.isSome_iff_exists.1 hqueued
  have hchains := search_chains ⟨invoiceHash, Text.lower⟩ isSha256Hex_invoiceHash
  exact ⟨next, hnext, hchains.1 endlessPages invoiceSearch next hnext⟩

end ElectronicMail.Search
