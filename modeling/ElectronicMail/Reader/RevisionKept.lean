import Mathlib.Data.List.Forall2
import ElectronicMail.Foundations.Run
import ElectronicMail.Reader.ThreadCache

/-!
# A cached thread and its revision

The copy in the local store that says that it is whole should have the messages of the server at
its revision, up to the labels that have been edited since. What the client writes by itself and
what the coordinator puts together does. The store's own pages may have been answered at
different revisions, and then their messages are stored under the last one.
`stored_matches` is about the runs in which, whenever the last page of such a request arrives,
the messages gathered before it are the first ones of the thread at that page's revision.
-/

namespace ElectronicMail.Reader

open Foundations

/-! ## Messages up to edited labels -/

def uneditedLabels (edited : List (String × String)) (message : ThreadMessage) : List String :=
  message.labelIds.filter fun label =>
    !edited.any fun edit => edit.1 == message.id && sameLabel label edit.2

structure SameMessage (edited : List (String × String)) (message original : ThreadMessage) :
    Prop where
  id : message.id = original.id
  bodyComplete : message.bodyComplete = original.bodyComplete
  content : message.content = original.content
  labels : uneditedLabels edited message = uneditedLabels edited original

abbrev SameMessages (edited : List (String × String)) :
    List ThreadMessage → List ThreadMessage → Prop :=
  List.Forall₂ (SameMessage edited)

/-- A thread that is whole has the messages of the server at its revision. -/
def MatchesRevision (server : ServerThread) (edited : List (String × String))
    (thread : ThreadReaderResponse) : Prop :=
  ∀ revision, thread.contentRevision = some revision → thread.hasMore = false →
    SameMessages edited thread.messages (server.messagesAt revision)

theorem SameMessage.refl (edited : List (String × String)) (message : ThreadMessage) :
    SameMessage edited message message := ⟨rfl, rfl, rfl, rfl⟩

theorem sameMessages_refl (edited : List (String × String)) (messages : List ThreadMessage) :
    SameMessages edited messages messages := by
  induction messages with
  | nil => exact .nil
  | cons message messages ih => exact .cons (SameMessage.refl edited message) ih

variable {edited later : List (String × String)}

theorem uneditedLabels_mono (h : edited ⊆ later) (message : ThreadMessage) :
    uneditedLabels later message = (uneditedLabels edited message).filter fun label =>
        !later.any fun edit => edit.1 == message.id && sameLabel label edit.2 := by
  unfold uneditedLabels
  rw [List.filter_filter]
  apply List.filter_congr
  intro label _
  by_cases hlater : (later.any fun edit => edit.1 == message.id && sameLabel label edit.2) = true
  · simp [hlater]
  have hnow : (edited.any fun edit => edit.1 == message.id && sameLabel label edit.2) = false := by
    rw [Bool.eq_false_iff]
    intro hany
    obtain ⟨edit, hin, hedit⟩ := List.any_eq_true.1 hany
    exact hlater (List.any_eq_true.2 ⟨edit, h hin, hedit⟩)
  simp [hlater, hnow]

variable {message : ThreadMessage}

variable {original : ThreadMessage}

theorem SameMessage.mono (h : edited ⊆ later) (hsame : SameMessage edited message original) :
    SameMessage later message original where
  id := hsame.id
  bodyComplete := hsame.bodyComplete
  content := hsame.content
  labels := by
    rw [uneditedLabels_mono h, uneditedLabels_mono h, hsame.labels, hsame.id]

variable {thread : ThreadReaderResponse}

variable {server : ServerThread}

theorem MatchesRevision.mono (h : edited ⊆ later)
    (hmatches : MatchesRevision server edited thread) : MatchesRevision server later thread :=
  fun revision hrevision hmore => (hmatches revision hrevision hmore).imp fun _ _ => .mono h

/-! ## Editing labels -/

theorem uneditedLabels_settingLabel
    {labelId : String} (h : (message.id, labelId) ∈ edited) (isPresent : Bool) :
    uneditedLabels edited (message.settingLabel labelId isPresent) =
      uneditedLabels edited message := by
  have hsame : ∀ label, sameLabel label labelId = true →
      (edited.any fun edit => edit.1 == message.id && sameLabel label edit.2) = true := by
    intro label hlabel
    exact List.any_eq_true.2 ⟨_, h, by simp [hlabel]⟩
  have hself : sameLabel labelId labelId = true := by simp [sameLabel]
  have hrest : (message.labelIds.filter fun label => !sameLabel label labelId).filter
        (fun label => !edited.any fun edit => edit.1 == message.id && sameLabel label edit.2) =
      uneditedLabels edited message := by
    unfold uneditedLabels
    rw [List.filter_filter]
    apply List.filter_congr
    intro label _
    cases hlabel : sameLabel label labelId with
    | true => simp [hsame label hlabel]
    | false => simp
  unfold ThreadMessage.settingLabel
  split
  · rfl
  cases isPresent with
  | false => exact hrest
  | true =>
    show ((message.labelIds.filter fun label => !sameLabel label labelId) ++ [labelId]).filter
      (fun label => !edited.any fun edit => edit.1 == message.id && sameLabel label edit.2) = _
    rw [List.filter_append, hrest]
    simp [hsame labelId hself]

theorem SameMessage.settingLabel (hsame : SameMessage edited message original) {labelId : String}
    (h : (message.id, labelId) ∈ edited) (isPresent : Bool) :
    SameMessage edited (message.settingLabel labelId isPresent) original where
  id := by rw [id_settingLabel, hsame.id]
  bodyComplete := by rw [bodyComplete_settingLabel, hsame.bodyComplete]
  content := by rw [content_settingLabel, hsame.content]
  labels := by rw [uneditedLabels_settingLabel h, hsame.labels]

theorem MatchesRevision.settingMessageLabel (hmatches : MatchesRevision server edited thread)
    (edit : LabelEdit) (h : edit.touched ⊆ edited) :
    MatchesRevision server edited (thread.settingMessageLabel edit.labelId edit.presenceByMessageId) := by
  intro revision hrevision hmore
  have hmessages := hmatches revision hrevision hmore
  simp only [ThreadReaderResponse.settingMessageLabel]
  rw [SameMessages, List.forall₂_map_left_iff]
  apply hmessages.imp
  intro message original hsame
  split
  · exact hsame
  next isPresent hlookup =>
    refine hsame.settingLabel (h ?_) isPresent
    exact List.mem_map.2 ⟨_, mem_of_lookup hlookup, rfl⟩

theorem MatchesRevision.editing (hmatches : MatchesRevision server edited thread)
    (edits : List LabelEdit) (h : edits.flatMap LabelEdit.touched ⊆ edited) :
    MatchesRevision server edited (thread.editing edits) := by
  induction edits generalizing thread with
  | nil => exact hmatches
  | cons edit edits ih =>
    rw [List.flatMap_cons, List.append_subset] at h
    exact ih (hmatches.settingMessageLabel edit h.1) h.2

variable {head : PageHead} {revision : String} {limit offset : Nat}

/-! ## Pages of the server -/

section Pages

variable {server : ServerThread}

theorem take_add_limit_of_last (h : (server.page head revision limit offset).hasMore = false) :
    (server.messagesAt revision).take (offset + limit) = server.messagesAt revision := by
  have hlength : (server.messagesAt revision).length ≤
      offset + (((server.messagesAt revision).drop offset).take limit).length := by
    simpa [ServerThread.page] using h
  rw [List.length_take, List.length_drop] at hlength
  apply List.take_of_length_le
  omega

theorem matchesRevision_page (edited : List (String × String)) (head : PageHead)
    (revision : String) (limit : Nat) :
    MatchesRevision server edited (server.page head revision limit 0) := by
  intro shown hshown hmore
  obtain rfl : revision = shown := Option.some.inj hshown
  have hwhole := take_add_limit_of_last hmore
  rw [Nat.zero_add] at hwhole
  show SameMessages edited (((server.messagesAt revision).drop 0).take limit) _
  rw [List.drop_zero, hwhole]
  exact sameMessages_refl edited _

/-! ## The pages of the store -/

theorem matchesRevision_merging (edited : List (String × String)) {g : Gathered}
    (h : (server.page head revision limit g.nextOffset).hasMore = false →
      g.messages = (server.messagesAt revision).take g.nextOffset) :
    MatchesRevision server edited (g.merging (server.page head revision limit g.nextOffset)).result := by
  intro shown hshown hmore
  have hlast : (server.page head revision limit g.nextOffset).hasMore = false := hmore
  obtain rfl : revision = shown := Option.some.inj hshown
  show SameMessages edited (g.messages ++ newlyObserved (g.messages.map ThreadMessage.id)
    (((server.messagesAt revision).drop g.nextOffset).take limit)) _
  rw [h hlast, take_append_newlyObserved (server.nodup revision), take_add_limit_of_last hlast]
  exact sameMessages_refl edited _

/-! ## The pages of the coordinator -/

/-- The snapshot holds the first messages of the thread at the revision it expects. -/
structure HoldsFirst (server : ServerThread) (s : PaginatedSnapshot) (revision : String)
    (count : Nat) : Prop where
  expected : s.expectedRevision = some revision
  carried : s.snapshot.contentRevision = some revision
  messages : s.snapshot.messages = (server.messagesAt revision).take count

theorem holdsFirst_start (head : PageHead) (revision : String) (limit : Nat) :
    HoldsFirst server (PaginatedSnapshot.start (server.page head revision limit 0)) revision
      limit where
  expected := rfl
  carried := rfl
  messages := rfl

variable {s : PaginatedSnapshot}

theorem HoldsFirst.appending {next : PaginatedSnapshot} {expected : String}
    (hs : HoldsFirst server s expected s.offset)
    (h : s.appending (server.page head revision limit s.offset) = .ok next) :
    HoldsFirst server next expected (s.offset + limit) ∧ next.offset = s.offset ∧
      revision = expected := by
  unfold PaginatedSnapshot.appending at h
  split at h
  · cases h
  split at h
  · cases h
  next _ hrevision =>
    split at h
    · cases h
    obtain rfl := Except.ok.inj h
    obtain rfl : revision = expected := by
      have : some revision = s.expectedRevision := not_not.1 hrevision
      exact Option.some.inj (this.trans hs.expected)
    refine ⟨⟨hs.expected, rfl, ?_⟩, rfl, rfl⟩
    show s.snapshot.messages ++ newlyObserved (s.snapshot.messages.map ThreadMessage.id)
      (((server.messagesAt revision).drop s.offset).take limit) = _
    rw [hs.messages, take_append_newlyObserved (server.nodup revision)]

variable {outcome : PaginatedOutcome}

/-- The end of the loop's body: the next page starts where the snapshot ends, and a snapshot
that is complete is the thread. -/
theorem HoldsFirst.concluding (hs : HoldsFirst server s revision (s.offset + limit))
    (h : s.concluding (server.page head revision limit s.offset) = .ok outcome) : match outcome with
    | .another next => HoldsFirst server next revision next.offset
    | .complete thread => ∀ edited, MatchesRevision server edited thread := by
  unfold PaginatedSnapshot.concluding at h
  split at h
  · split at h
    · cases h
    · obtain rfl := Except.ok.inj h
      refine ⟨hs.expected, hs.carried, ?_⟩
      show s.snapshot.messages = (server.messagesAt revision).take
        (s.offset + (((server.messagesAt revision).drop s.offset).take limit).length)
      rw [hs.messages, List.take_eq_take_iff, List.length_take, List.length_drop]
      omega
  · next hlast =>
      split at h
      · obtain rfl := Except.ok.inj h
        intro edited shown hshown _
        obtain rfl : revision = shown := Option.some.inj (hs.carried.symm.trans hshown)
        rw [hs.messages, take_add_limit_of_last (Bool.eq_false_iff.2 hlast)]
        exact sameMessages_refl edited _
      · cases h

theorem receivePaginated_sound {threadId userId : String} {snapshot : Option PaginatedSnapshot}
    (hs : ∀ s ∈ snapshot, ∃ revision, HoldsFirst server s revision s.offset)
    (h : receivePaginated threadId userId snapshot
      (server.page head revision limit (paginatedOffset snapshot)) = .ok outcome) :
    match outcome with
    | .another next => ∃ revision, HoldsFirst server next revision next.offset
    | .complete thread => ∀ edited, MatchesRevision server edited thread := by
  unfold receivePaginated at h
  split at h
  · cases h
  cases snapshot with
  | none =>
    have hheld : HoldsFirst server
        (PaginatedSnapshot.start (server.page head revision limit 0)) revision (0 + limit) := by
      rw [Nat.zero_add]
      exact holdsFirst_start head revision limit
    have hspec := hheld.concluding h
    cases outcome with
    | another => exact ⟨revision, hspec⟩
    | complete => exact hspec
  | some s =>
    obtain ⟨expected, hheld⟩ := hs s rfl
    dsimp only [paginatedOffset] at h
    split at h
    · cases h
    next next hnext =>
      obtain ⟨hheld, hoffset, rfl⟩ := hheld.appending hnext
      rw [← hoffset] at h hheld
      have hspec := hheld.concluding h
      cases outcome with
      | another => exact ⟨revision, hspec⟩
      | complete => exact hspec

end Pages

/-! ## The invariant -/

def StageSound (server : ServerThread) (edited : List (String × String)) : Stage → Prop
  | .paginated snapshot _ => ∀ s ∈ snapshot, ∃ revision, HoldsFirst server s revision s.offset
  | .fetched thread => MatchesRevision server edited thread
  | .writing thread => MatchesRevision server edited thread
  | _ => True

structure RequestSound (server : ServerThread) (edited : List (String × String))
    (request : Request) : Prop where
  answer : ∀ page ∈ request.answer,
    ∃ head revision, server.answer head revision request.stage = some page
  stage : StageSound server edited request.stage

structure Sound (server : ServerThread) (d : Device) : Prop where
  stored : ∀ thread ∈ d.stored, MatchesRevision server d.edited thread
  memory : ∀ thread ∈ d.memory, MatchesRevision server d.edited thread
  opened : ∀ thread ∈ d.opened, MatchesRevision server d.edited thread
  requests : ∀ request ∈ d.requests, RequestSound server d.edited request

theorem StageSound.mono (h : edited ⊆ later) {stage : Stage} (hs : StageSound server edited stage) :
    StageSound server later stage := by
  cases stage with
  | fetched | writing => exact MatchesRevision.mono h hs
  | _ => exact hs

section Copies

variable {server : ServerThread} {d : Device}

section

variable (hs : Sound server d)
include hs

theorem Sound.setRequest (i : Nat) {request : Request}
    (h : RequestSound server d.edited request) : Sound server (d.setRequest i request) where
  stored := hs.stored
  memory := hs.memory
  opened := hs.opened
  requests := by
    intro r hr
    rcases List.mem_or_eq_of_mem_set hr with hin | rfl
    · exact hs.requests r hin
    · exact h

theorem Sound.dropRequest (i : Nat) : Sound server (d.dropRequest i) where
  stored := hs.stored
  memory := hs.memory
  opened := hs.opened
  requests := fun r hr => hs.requests r (List.mem_of_mem_eraseIdx hr)

theorem Sound.addRequest {stage : Stage}
    (h : StageSound server d.edited stage) : Sound server (d.addRequest stage) where
  stored := hs.stored
  memory := hs.memory
  opened := hs.opened
  requests := by
    intro r hr
    rcases List.mem_append.1 hr with hin | hnew
    · exact hs.requests r hin
    · obtain rfl := List.mem_singleton.1 hnew
      exact ⟨by simp, h⟩

theorem Sound.store (h : MatchesRevision server d.edited thread) : Sound server (d.store thread) where
  stored := by
    rintro _ ⟨⟩
    exact h
  memory := hs.memory
  opened := hs.opened
  requests := hs.requests

theorem Sound.show (h : MatchesRevision server d.edited thread) (edits : List LabelEdit) :
    Sound server (d.show thread edits) ∧
      MatchesRevision server (d.show thread edits).edited (thread.editing edits) := by
  have hedited : d.edited ⊆ edits.flatMap LabelEdit.touched ++ d.edited :=
    List.subset_append_right _ _
  have hshown : MatchesRevision server (edits.flatMap LabelEdit.touched ++ d.edited)
      (thread.editing edits) :=
    (h.mono hedited).editing edits (List.subset_append_left _ _)
  refine ⟨⟨fun t ht => (hs.stored t ht).mono hedited, ?_, ?_, ?_⟩, hshown⟩
  · rintro _ ⟨⟩
    exact hshown
  · rintro _ ⟨⟩
    exact hshown
  · intro r hr
    exact ⟨(hs.requests r hr).answer, (hs.requests r hr).stage.mono hedited⟩

theorem Sound.throughClient {gates : Gates} {next : Device}
    (h : d.throughClient gates (server.page head revision limit offset) = some next) :
    Sound server next ∧ next.edited = d.edited := by
  unfold Device.throughClient at h
  split at h
  · split at h
    · cases h
    · split at h
      · next hstores =>
          obtain rfl := Option.some.inj h
          obtain rfl : offset = 0 := hstores.2.1
          exact ⟨hs.store (matchesRevision_page _ head revision limit), rfl⟩
      · obtain rfl := Option.some.inj h
        exact ⟨hs, rfl⟩
  · obtain rfl := Option.some.inj h
    exact ⟨hs, rfl⟩

end

end Copies

/-! ## Answers that arrive -/

/-- When the last page of a request of `performThreadPrefetch` arrives for its user, the
messages gathered before it are the first ones of the thread at the revision of that page. -/
def PagesAgree (server : ServerThread) (d : Device) : Event → Prop
  | .arrive i _ =>
    match d.requests[i]? with
    | some ⟨.prefetch (some g), some page⟩ =>
      page.userId = d.userId → page.hasMore = false → ∀ revision ∈ page.contentRevision,
        g.messages = (server.messagesAt revision).take g.nextOffset
    | _ => True
  | _ => True

section Arriving

variable {server : ServerThread} {d : Device}

/-- Where `performThreadPrefetch` goes on with what it has gathered. -/
theorem stageSound_nextStage {g : Gathered}
    (h : MatchesRevision server edited g.result) : StageSound server edited g.nextStage := by
  unfold Gathered.nextStage
  split
  · trivial
  · exact h

variable {page : ThreadReaderResponse}

section

variable (hs : Sound server d) (i : Nat)
include hs

theorem Sound.receivePrefetch (gates : Gates)
    {gathered : Option Gathered}
    (hpage : ∃ head revision, server.answer head revision (.prefetch gathered) = some page)
    (hagree : ∀ g ∈ gathered, page.userId = d.userId → page.hasMore = false →
      ∀ revision ∈ page.contentRevision,
        g.messages = (server.messagesAt revision).take g.nextOffset) :
    Sound server (d.receivePrefetch i gates gathered page) := by
  obtain ⟨head, revision, hpage⟩ := hpage
  have hserved : ∃ offset, page = server.page head revision threadFetchLimit offset := by
    cases gathered with
    | none => exact ⟨0, (Option.some.inj hpage).symm⟩
    | some g => exact ⟨g.nextOffset, (Option.some.inj hpage).symm⟩
  have hresult : page.userId = d.userId → ∀ edited,
      StageSound server edited (gathering gathered page).nextStage := by
    intro huser edited
    apply stageSound_nextStage
    cases gathered with
    | none =>
      obtain rfl := Option.some.inj hpage
      exact matchesRevision_page edited head revision threadFetchLimit
    | some g =>
      obtain rfl := Option.some.inj hpage
      exact matchesRevision_merging edited fun hlast => hagree g rfl huser hlast revision rfl
  obtain ⟨offset, rfl⟩ := hserved
  unfold Device.receivePrefetch
  split
  · exact hs.dropRequest i
  next next hnext =>
    obtain ⟨hsnext, hedited⟩ := hs.throughClient hnext
    split
    · exact hsnext.dropRequest i
    · next huser => exact hsnext.setRequest i ⟨by simp, hresult (not_not.1 huser) _⟩

theorem Sound.receiveSingle (gates : Gates)
    {response : ThreadReaderResponse} (hresponse : ∃ head revision,
      server.answer head revision (.single limit offset) = some response) :
    Sound server (d.receiveSingle i gates response) := by
  obtain ⟨head, revision, hresponse⟩ := hresponse
  obtain rfl := Option.some.inj hresponse
  unfold Device.receiveSingle
  split
  · exact hs.dropRequest i
  · next next hnext => exact (hs.throughClient hnext).1.dropRequest i

theorem Sound.receiveBatch (gates : Gates)
    (hthread : ∃ head revision, server.answer head revision .batch = some thread) :
    Sound server (d.receiveBatch i gates thread) := by
  obtain ⟨head, revision, hthread⟩ := hthread
  obtain rfl := Option.some.inj hthread
  unfold Device.receiveBatch
  split
  · exact (hs.store (matchesRevision_page _ head revision _)).dropRequest i
  · exact hs.dropRequest i

theorem Sound.receivePaginated {snapshot : Option PaginatedSnapshot}
    (pagesLeft : Nat) (hpage : ∃ head revision,
      server.answer head revision (.paginated snapshot pagesLeft) = some page)
    (hstage : StageSound server d.edited (.paginated snapshot pagesLeft)) :
    Sound server (d.receivePaginated i snapshot pagesLeft page) := by
  obtain ⟨head, revision, hpage⟩ := hpage
  obtain rfl := Option.some.inj hpage
  unfold Device.receivePaginated
  split
  · exact hs.dropRequest i
  · next thread hthread =>
      exact hs.setRequest i ⟨by simp, receivePaginated_sound hstage hthread d.edited⟩
  · next next hnext =>
      split
      · exact hs.dropRequest i
      refine hs.setRequest i ⟨by simp, ?_⟩
      rintro _ ⟨⟩
      exact receivePaginated_sound hstage hnext

end

end Arriving

/-! ## The step -/

theorem Sound.step {d : Device} (hs : Sound server d) (event : Event)
    (hagree : PagesAgree server d event) : Sound server (d.step server event) := by
  cases event with
  | change => exact ⟨hs.stored, hs.memory, hs.opened, hs.requests⟩
  | start request =>
    refine hs.addRequest ?_
    cases request with
    | paginated => rintro _ ⟨⟩
    | _ => trivial
  | answer i head =>
    simp only [Device.step]
    split
    · next stage hrequest =>
        have hrequest := hs.requests _ (List.mem_of_getElem? hrequest)
        exact hs.setRequest i ⟨fun page hpage => ⟨head, d.revision, hpage⟩, hrequest.stage⟩
    · exact hs
  | arrive i gates =>
    simp only [PagesAgree] at hagree
    simp only [Device.step]
    split
    · next gathered page hrequest =>
        refine hs.receivePrefetch i gates
          ((hs.requests _ (List.mem_of_getElem? hrequest)).answer page rfl) ?_
        rintro g rfl
        rw [hrequest] at hagree
        exact hagree
    · next response hrequest =>
        exact hs.receiveSingle i gates
          ((hs.requests _ (List.mem_of_getElem? hrequest)).answer response rfl)
    · next thread hrequest =>
        exact hs.receiveBatch i gates
          ((hs.requests _ (List.mem_of_getElem? hrequest)).answer thread rfl)
    · next snapshot pagesLeft page hrequest =>
        have hrequest := hs.requests _ (List.mem_of_getElem? hrequest)
        exact hs.receivePaginated i pagesLeft (hrequest.answer page rfl) hrequest.stage
    · exact hs
  | fail i => exact hs.dropRequest i
  | readCached fromMemory =>
    simp only [Device.step]
    split
    · next thread hthread =>
        refine hs.addRequest ?_
        cases fromMemory with
        | true => exact hs.memory thread hthread
        | false => exact hs.stored thread hthread
    · exact hs
  | install i edits =>
    simp only [Device.step]
    split
    · next thread answer hrequest =>
        have hrequest := hs.requests _ (List.mem_of_getElem? hrequest)
        obtain ⟨hshown, hthread⟩ := hs.show hrequest.stage edits
        exact hshown.addRequest hthread
    · exact hs
  | persist =>
    simp only [Device.step]
    split
    · next thread hthread => exact hs.addRequest (hs.opened thread hthread)
    · exact hs
  | write i =>
    simp only [Device.step]
    split
    · next thread answer hrequest =>
        have hrequest := hs.requests _ (List.mem_of_getElem? hrequest)
        exact (hs.store hrequest.stage).dropRequest i
    · exact hs
  | edit edit =>
    simp only [Device.step]
    split
    · next thread hthread => exact (hs.show (hs.opened thread hthread) [edit]).1
    · exact hs
  | removeStored => exact ⟨by rintro _ ⟨⟩, hs.memory, hs.opened, hs.requests⟩
  | evict => exact ⟨hs.stored, by rintro _ ⟨⟩, hs.opened, hs.requests⟩
  | close => exact ⟨hs.stored, hs.memory, by rintro _ ⟨⟩, hs.requests⟩

/-! ## The stored copy -/

/-- The stored copy matches its revision, and one that the coordinator keeps as complete and
of the announced revision has the messages of the server at that revision. -/
structure StoredMatches (server : ServerThread) (d : Device) : Prop where
  stored : ∀ thread ∈ d.stored, MatchesRevision server d.edited thread
  fresh : ∀ revision, keepsCopy d.stored (some revision) = true →
    ∃ thread ∈ d.stored, SameMessages d.edited thread.messages (server.messagesAt revision)

theorem Sound.storedMatches {d : Device} (hs : Sound server d) : StoredMatches server d where
  stored := hs.stored
  fresh := by
    intro revision hkeeps
    cases hstored : d.stored with
    | none => simp [keepsCopy, hstored] at hkeeps
    | some thread =>
      rw [hstored] at hkeeps
      simp [keepsCopy] at hkeeps
      exact ⟨thread, rfl, hs.stored thread hstored revision hkeeps.2 hkeeps.1.2⟩

/-- Along every run in which the pages that the store puts together agree, the stored thread is
the server's at its revision. -/
theorem stored_matches (server : ServerThread) (userId threadId revision : String)
    (events : List Event)
    (h : Along (Device.step server) (PagesAgree server) (.launch userId threadId revision) events) :
    Throughout (Device.step server) (StoredMatches server) (.launch userId threadId revision)
      events := by
  have hlaunch : Sound server (.launch userId threadId revision) :=
    ⟨by rintro _ ⟨⟩, by rintro _ ⟨⟩, by rintro _ ⟨⟩, by rintro _ ⟨⟩⟩
  exact (throughout_of_step (fun _ event hs hagree => hs.step event hagree) hlaunch h).mono
    fun _ hs => hs.storedMatches

/-! ## A long thread -/

theorem SameMessages.contents
    {messages originals : List ThreadMessage} (h : SameMessages edited messages originals) :
    messages.map ThreadMessage.content = originals.map ThreadMessage.content := by
  induction h with
  | nil => rfl
  | cons hsame _ ih => rw [List.map_cons, List.map_cons, hsame.content, ih]

def nthId (n : Nat) : String := String.ofList (List.replicate n 'm')

/-- 51 messages, one more than a page of the store. The body of the first is rendered anew in
the second revision. -/
def longThread : ServerThread where
  messagesAt := fun revision =>
    (List.range 51).map fun n =>
      { id := nthId n
        bodyComplete := true
        labelIds := []
        content := if n = 0 ∧ revision = "r2" then "rendered again" else "rendered" }
  nodup := by
    intro revision
    have hids : ((List.range 51).map nthId).Nodup := by decide +kernel
    rw [List.map_map]
    exact hids

/-- What the server says about `longThread`. -/
def longThreadHead : PageHead where
  entityId := "t"
  userId := "u"
  source := some "gmail"
  gmailThreadId := some "t"
  subject := none
  title := none
  summary := none

/-- The store reads both pages, with some events between them, and stores the thread. -/
def twoPages (between : List Event) : List Event :=
  [.start .prefetch, .answer 0 longThreadHead, .arrive 0 ⟨true, true⟩] ++ between ++
    [.answer 0 longThreadHead, .arrive 0 ⟨true, true⟩, .install 0 [], .write 1]

instance decidablePagesAgree (server : ServerThread) (d : Device) (event : Event) :
    Decidable (PagesAgree server d event) := by
  unfold PagesAgree
  cases event with
  | arrive =>
    dsimp only
    split <;> infer_instance
  | _ => exact inferInstanceAs (Decidable True)

theorem stored_matches_of_two_pages :
    Along (Device.step longThread) (PagesAgree longThread) (.launch "u" "t" "r1") (twoPages []) ∧
      Throughout (Device.step longThread) (StoredMatches longThread) (.launch "u" "t" "r1")
        (twoPages []) :=
  have h : Along (Device.step longThread) (PagesAgree longThread) (.launch "u" "t" "r1")
      (twoPages []) := by decide +kernel
  ⟨h, stored_matches longThread "u" "t" "r1" (twoPages []) h⟩

/-- A thread that changes between its pages is kept under the later revision with the first
page of the earlier one. -/
theorem stale_page_kept :
    ¬ ∀ (server : ServerThread) (userId threadId revision : String) (events : List Event),
      Throughout (Device.step server) (StoredMatches server) (.launch userId threadId revision)
        events := by
  intro hall
  have hlast := (hall longThread "u" "t" "r1" (twoPages [.change "r2"])).last
  have hkeeps : keepsCopy (after (Device.step longThread) (.launch "u" "t" "r1")
      (twoPages [.change "r2"])).stored (some "r2") = true := by decide +kernel
  have hstale : ∀ thread ∈ (after (Device.step longThread) (.launch "u" "t" "r1")
      (twoPages [.change "r2"])).stored,
      thread.messages.map ThreadMessage.content ≠
        (longThread.messagesAt "r2").map ThreadMessage.content := by decide +kernel
  obtain ⟨thread, hthread, hsame⟩ := hlast.fresh "r2" hkeeps
  exact hstale thread hthread hsame.contents

end ElectronicMail.Reader
