import ElectronicMail.Reader.Overrides

/-!
# Actions and fetches settle

An action under way has an id of its own, and an override that has not settled waits for one.
A fetch that was started after every action had settled finds the labels as they were, so that
what it brings is shown up to the overrides that are left. `sound_step` is the invariant.
-/

namespace ElectronicMail.Reader

open Foundations
open Actions (ThreadAction)

/-! ## Actions and overrides -/

/-- Actions under way have ids of their own and act on their targets; an override that has not
settled belongs to one of them. -/
structure MutationsSound (s : ReaderState) : Prop where
  ids : (s.mutations.map ReaderLabelMutation.id).Nodup
  issued : ∀ mutation ∈ s.mutations, mutation.id < s.nextMutation
  keys : (s.overrides.map ReaderLabelIntentOverride.key).Nodup
  apart : KeysApart s.overrides
  pending : ∀ intent ∈ s.overrides, intent.settled = false →
    ∃ mutation ∈ s.mutations, mutation.id = intent.ownerId ∧
      mutation.beganWithoutLoadedThread = true ∧
      (mutation.label, mutation.targetMessageId) = intent.key
  targeted : ∀ mutation ∈ s.mutations, ∀ entry ∈ mutation.previousPresenceByMessageId,
    targets mutation.targetMessageId entry.1 = true

/-- A request that has been settled throughout sees no action under way, and what it has brought
is shown. -/
structure FetchSound (s : ReaderState) : Prop where
  inFlight : ∀ request ∈ s.inFlight, request.settled = true →
    s.mutations = [] ∧ request.labelMutationGeneration = s.generation
  confirmed : ∀ answer ∈ s.confirmed, s.mutations = [] ∧
    (∀ request ∈ s.inFlight, request.settled = true) ∧
    ∃ thread ∈ s.shown, Overridden s.overrides answer.thread thread

def Unsettled (s : ReaderState) : Prop :=
  s.confirmed = none ∧ ∀ request ∈ s.inFlight, request.settled = false

variable {s : ReaderState}

theorem Unsettled.fetchSound (h : Unsettled s) : FetchSound s where
  inFlight := by
    intro request hrequest hsettled
    rw [h.2 request hrequest] at hsettled
    cases hsettled
  confirmed := by
    intro answer hanswer
    rw [h.1] at hanswer
    cases hanswer

variable {mutation : ReaderLabelMutation}

theorem FetchSound.unsettled (h : FetchSound s) (hin : mutation ∈ s.mutations) : Unsettled s := by
  constructor
  · cases hconfirmed : s.confirmed with
    | none => rfl
    | some answer =>
      rw [(h.confirmed answer hconfirmed).1] at hin
      cases hin
  · intro request hrequest
    rw [Bool.eq_false_iff]
    intro hsettled
    rw [(h.inFlight request hrequest hsettled).1] at hin
    cases hin

section Frames

variable (s : ReaderState) (mutation : ReaderLabelMutation) (succeeded : Bool)

theorem unsettled_unsettle : Unsettled s.unsettle := by
  refine ⟨rfl, ?_⟩
  intro request hrequest
  obtain ⟨old, _, rfl⟩ := Option.map_eq_some_iff.1 hrequest
  rfl

/-- What `finishReaderLabelMutation` leaves alone. -/
theorem finishReaderLabelMutation_frame :
    (s.finishReaderLabelMutation mutation succeeded).mutations = s.mutations ∧
      (s.finishReaderLabelMutation mutation succeeded).nextMutation = s.nextMutation ∧
      (s.finishReaderLabelMutation mutation succeeded).inFlight = s.inFlight ∧
      (s.finishReaderLabelMutation mutation succeeded).confirmed = s.confirmed := by
  unfold ReaderState.finishReaderLabelMutation
  split
  · unfold ReaderState.finishWithoutThread
    dsimp only
    split
    · exact ⟨rfl, rfl, rfl, rfl⟩
    split
    · exact ⟨rfl, rfl, rfl, rfl⟩
    · split <;> exact ⟨rfl, rfl, rfl, rfl⟩
  · unfold ReaderState.finishOnMessages
    dsimp only
    split <;> exact ⟨rfl, rfl, rfl, rfl⟩

theorem beginReaderLabelMutation_frame (action : ThreadAction) (target : Option String) :
    (s.beginReaderLabelMutation action target).inFlight = s.inFlight ∧
      (s.beginReaderLabelMutation action target).confirmed = s.confirmed := by
  unfold ReaderState.beginReaderLabelMutation
  split
  · exact ⟨rfl, rfl⟩
  · dsimp only
    split <;> exact ⟨rfl, rfl⟩

end Frames

theorem MutationsSound.ids_append (h : MutationsSound s) {m : ReaderLabelMutation}
    (hid : m.id = s.nextMutation) : ((s.mutations ++ [m]).map ReaderLabelMutation.id).Nodup ∧
      ∀ mutation ∈ s.mutations ++ [m], mutation.id < s.nextMutation + 1 := by
  constructor
  · rw [List.map_append, List.nodup_append]
    refine ⟨h.ids, List.nodup_singleton _, ?_⟩
    intro a ha b hb
    obtain ⟨earlier, hin, rfl⟩ := List.mem_map.1 ha
    obtain rfl : b = m.id := by simpa using hb
    have := h.issued earlier hin
    omega
  · intro mutation hin
    rcases List.mem_append.1 hin with hin | hin
    · have := h.issued mutation hin
      omega
    · obtain rfl := List.mem_singleton.1 hin
      omega

theorem MutationsSound.supersede (h : MutationsSound s) (label : ReaderLabel)
    (target : Option String) :
    MutationsSound (s.supersedeReaderLabelIntentOverrides label target) where
  ids := h.ids
  issued := h.issued
  keys := (List.filter_sublist.map _).nodup h.keys
  apart := fun a ha b hb =>
    h.apart a (List.mem_of_mem_filter ha) b (List.mem_of_mem_filter hb)
  pending := fun intent hin => h.pending intent (List.mem_of_mem_filter hin)
  targeted := h.targeted

theorem overlaps_comm (a b : ReaderLabelIntentOverride) :
    overlaps a.label a.targetMessageId b = overlaps b.label b.targetMessageId a := by
  unfold overlaps
  rw [Bool.eq_iff_iff]
  simp only [Bool.and_eq_true, Bool.or_eq_true, beq_iff_eq]
  constructor
  · rintro ⟨hlabel, htargets⟩
    refine ⟨hlabel.symm, ?_⟩
    rcases htargets with (hb | ha) | hsame
    · exact .inl (.inr hb)
    · exact .inl (.inl ha)
    · exact .inr hsame.symm
  · rintro ⟨hlabel, htargets⟩
    refine ⟨hlabel.symm, ?_⟩
    rcases htargets with (ha | hb) | hsame
    · exact .inl (.inr ha)
    · exact .inl (.inl hb)
    · exact .inr hsame.symm

variable {intent : ReaderLabelIntentOverride}

theorem KeysApart.put {overrides : List ReaderLabelIntentOverride} (h : KeysApart overrides)
    (hnew : ∀ other ∈ overrides, overlaps intent.label intent.targetMessageId other = true →
      other.key = intent.key) :
    KeysApart (Dictionary.put ReaderLabelIntentOverride.key intent overrides) := by
  intro a ha b hb hoverlap
  rw [Dictionary.mem_put] at ha hb
  rcases ha with rfl | ⟨ha, _⟩
  · rcases hb with rfl | ⟨hb, _⟩
    · rfl
    · exact (hnew b hb hoverlap).symm
  · rcases hb with rfl | ⟨hb, _⟩
    · rw [overlaps_comm] at hoverlap
      exact hnew a ha hoverlap
    · exact h a ha b hb hoverlap

theorem targets_of_mem_targetMessages {target : Option String} {message : ThreadMessage}
    (h : message ∈ s.targetMessages target) : targets target message.id = true := by
  unfold ReaderState.targetMessages at h
  split at h
  · cases h
  · exact (List.mem_filter.1 h).2

theorem MutationsSound.begin (h : MutationsSound s) (action : ThreadAction)
    (target : Option String) : MutationsSound (s.beginReaderLabelMutation action target) := by
  unfold ReaderState.beginReaderLabelMutation
  split
  · exact h
  next label isPresent hchange =>
    have hrecorded : MutationsSound (s.recordReaderLabelMutationGeneration label) :=
      ⟨h.ids, h.issued, h.keys, h.apart, h.pending, h.targeted⟩
    have hs := hrecorded.supersede label target
    have hgone : ∀ other ∈ ((s.recordReaderLabelMutationGeneration
        label).supersedeReaderLabelIntentOverrides label target).overrides,
        overlaps label target other = false := by
      intro other hin
      have := (List.mem_filter.1 hin).2
      simpa using this
    dsimp only
    generalize (s.recordReaderLabelMutationGeneration
      label).supersedeReaderLabelIntentOverrides label target = fresh at hs hgone ⊢
    split
    · obtain ⟨hids, hissued⟩ := hs.ids_append (m :=
        { id := fresh.nextMutation
          label := label
          isPresent := isPresent
          targetMessageId := target
          beganWithoutLoadedThread := true
          previousPresenceByMessageId := [] }) rfl
      refine ⟨hids, hissued, Dictionary.nodup_put hs.keys _, hs.apart.put ?_, ?_, ?_⟩
      · intro other hin hoverlap
        rw [hgone other hin] at hoverlap
        cases hoverlap
      · intro intent hin hunsettled
        rcases Dictionary.mem_put.1 hin with rfl | ⟨hin, _⟩
        · exact ⟨_, List.mem_append_right _ (List.mem_singleton.2 rfl), rfl, rfl, rfl⟩
        · obtain ⟨mutation, hmutation, hrest⟩ := hs.pending intent hin hunsettled
          exact ⟨mutation, List.mem_append_left _ hmutation, hrest⟩
      · intro mutation hmutation entry hentry
        rcases List.mem_append.1 hmutation with hin | hin
        · exact hs.targeted mutation hin entry hentry
        · obtain rfl := List.mem_singleton.1 hin
          cases hentry
    · next messages hmessages hne =>
        obtain ⟨hids, hissued⟩ := hs.ids_append (m :=
          { id := fresh.nextMutation
            label := label
            isPresent := isPresent
            targetMessageId := target
            beganWithoutLoadedThread := false
            previousPresenceByMessageId :=
              (fresh.targetMessages target).map fun message =>
                (message.id, message.hasLabel label.id) }) rfl
        refine ⟨hids, hissued, hs.keys, hs.apart, ?_, ?_⟩
        · intro intent hin hunsettled
          obtain ⟨mutation, hmutation, hrest⟩ := hs.pending intent hin hunsettled
          exact ⟨mutation, List.mem_append_left _ hmutation, hrest⟩
        · intro mutation hmutation entry hentry
          rcases List.mem_append.1 hmutation with hin | hin
          · exact hs.targeted mutation hin entry hentry
          · obtain rfl := List.mem_singleton.1 hin
            obtain ⟨message, hmessage, rfl⟩ := List.mem_map.1 hentry
            exact targets_of_mem_targetMessages hmessage

theorem MutationsSound.unique (h : MutationsSound s) {a b : ReaderLabelMutation}
    (ha : a ∈ s.mutations) (hb : b ∈ s.mutations) (hid : a.id = b.id) : a = b :=
  List.inj_on_of_nodup_map h.ids ha hb hid

theorem mem_retire {id : Nat} :
    mutation ∈ (s.retire id).mutations ↔ mutation ∈ s.mutations ∧ mutation.id ≠ id := by
  simp [ReaderState.retire]

theorem MutationsSound.pending_retire (h : MutationsSound s) (hmutation : mutation ∈ s.mutations)
    (hin : intent ∈ s.overrides) (hunsettled : intent.settled = false)
    (hother : mutation.beganWithoutLoadedThread = true →
      (mutation.label, mutation.targetMessageId) ≠ intent.key ∨ intent.ownerId ≠ mutation.id) :
    ∃ owner ∈ (s.retire mutation.id).mutations, owner.id = intent.ownerId ∧
      owner.beganWithoutLoadedThread = true ∧
      (owner.label, owner.targetMessageId) = intent.key := by
  obtain ⟨owner, howner, hid, hbegan, hkey⟩ := h.pending intent hin hunsettled
  refine ⟨owner, mem_retire.2 ⟨howner, ?_⟩, hid, hbegan, hkey⟩
  intro hsame
  obtain rfl := h.unique howner hmutation hsame
  rcases hother hbegan with hne | hne
  · exact hne hkey
  · exact hne hid.symm

theorem MutationsSound.finish (h : MutationsSound s) (hmutation : mutation ∈ s.mutations)
    (succeeded : Bool) : MutationsSound
      ((s.retire mutation.id).finishReaderLabelMutation mutation succeeded) := by
  obtain ⟨hmutations, hnext, _, _⟩ :=
    finishReaderLabelMutation_frame (s.retire mutation.id) mutation succeeded
  have hleft : ∀ m ∈ (s.retire mutation.id).mutations, m ∈ s.mutations := fun m hm =>
    (mem_retire.1 hm).1
  suffices hoverrides :
      (((s.retire mutation.id).finishReaderLabelMutation mutation succeeded).overrides.map
        ReaderLabelIntentOverride.key).Nodup ∧
      KeysApart ((s.retire mutation.id).finishReaderLabelMutation mutation succeeded).overrides ∧
      ∀ intent ∈ ((s.retire mutation.id).finishReaderLabelMutation mutation succeeded).overrides,
        intent.settled = false → ∃ owner ∈ (s.retire mutation.id).mutations,
          owner.id = intent.ownerId ∧ owner.beganWithoutLoadedThread = true ∧
            (owner.label, owner.targetMessageId) = intent.key by
    refine ⟨?_, ?_, hoverrides.1, hoverrides.2.1, ?_, ?_⟩
    · rw [hmutations]
      exact (List.filter_sublist.map _).nodup h.ids
    · rw [hmutations, hnext]
      exact fun m hm => h.issued m (hleft m hm)
    · rw [hmutations]
      exact hoverrides.2.2
    · rw [hmutations]
      exact fun m hm => h.targeted m (hleft m hm)
  unfold ReaderState.finishReaderLabelMutation
  split
  · unfold ReaderState.finishWithoutThread
    dsimp only
    split
    · next hbegan hnone =>
        refine ⟨h.keys, h.apart, fun intent hin hunsettled => ?_⟩
        refine h.pending_retire hmutation hin hunsettled fun _ => .inl ?_
        intro hkey
        exact (Table.rowAt_eq_none _).1 hnone intent hin hkey.symm
    · next intent hintent =>
        obtain ⟨hin, hkey⟩ := Table.rowAt_mem _ hintent
        split
        · next howner =>
            refine ⟨h.keys, h.apart, fun other hother hunsettled => ?_⟩
            refine h.pending_retire hmutation hother hunsettled fun _ => ?_
            by_cases hsame : other.key = intent.key
            · obtain rfl := List.inj_on_of_nodup_map h.keys hother hin hsame
              exact .inr howner
            · exact .inl fun heq => hsame (heq.symm.trans hkey.symm)
        · split
          · refine ⟨Dictionary.nodup_put h.keys _, h.apart.put ?_, ?_⟩
            · exact fun other hother hoverlap => (h.apart intent hin other hother hoverlap).symm
            · intro other hother hunsettled
              rcases Dictionary.mem_put.1 hother with rfl | ⟨hother, hne⟩
              · cases hunsettled
              · refine h.pending_retire hmutation hother hunsettled fun _ => .inl ?_
                intro heq
                exact hne (heq.symm.trans hkey.symm)
          · refine ⟨Dictionary.nodup_drop h.keys _, ?_, ?_⟩
            · exact fun a ha b hb =>
                h.apart a (Dictionary.mem_drop.1 ha).1 b (Dictionary.mem_drop.1 hb).1
            · intro other hother hunsettled
              obtain ⟨hother, hne⟩ := Dictionary.mem_drop.1 hother
              exact h.pending_retire hmutation hother hunsettled fun _ => .inl (Ne.symm hne)
  · next hbegan =>
      have hoverrides : ((s.retire mutation.id).finishOnMessages mutation succeeded).overrides =
          s.overrides := by
        unfold ReaderState.finishOnMessages
        dsimp only
        split <;> rfl
      rw [hoverrides]
      exact ⟨h.keys, h.apart, fun intent hin hunsettled =>
        h.pending_retire hmutation hin hunsettled fun hcold => absurd hcold hbegan⟩

/-! ## The step -/

theorem applyConfirmedReaderLabelChange_of_none {action : ThreadAction}
    (h : (readerLabelChange action).isNone = true) (s : ReaderState) (target : Option String) :
    s.applyConfirmedReaderLabelChange action target = s := by
  rw [Option.isNone_iff_eq_none] at h
  unfold ReaderState.applyConfirmedReaderLabelChange
  rw [h]

theorem mem_of_find_mutation {id : Nat}
    (h : (s.mutations.find? fun m => m.id == id) = some mutation) :
    mutation ∈ s.mutations ∧ mutation.id = id :=
  ⟨List.mem_of_find?_eq_some h, by simpa using List.find?_some h⟩

theorem MutationsSound.install (h : MutationsSound s) (request : ThreadFetch)
    (answer : ServerSnapshot) : MutationsSound (s.install request answer) := by
  have hkept := overriding_sublist s.overrides
    (s.keepingChangedLabels answer.thread request.labelMutationGeneration)
  exact
    { ids := h.ids
      issued := h.issued
      keys := (hkept.map _).nodup h.keys
      apart := fun a ha b hb => h.apart a (hkept.subset ha) b (hkept.subset hb)
      pending := fun intent hin => h.pending intent (hkept.subset hin)
      targeted := h.targeted }

theorem FetchSound.install (h : FetchSound s) (hs : MutationsSound s) {request : ThreadFetch}
    (hrequest : s.inFlight = some request) (answer : ServerSnapshot) :
    FetchSound (s.install request answer) where
  inFlight := by
    intro other hother
    cases hother
  confirmed := by
    intro shown hshown
    cases hsettled : request.settled with
    | true =>
      obtain ⟨hmutations, hgeneration⟩ := h.inFlight request hrequest hsettled
      obtain rfl : answer = shown := by
        simpa [ReaderState.install, hsettled] using hshown
      refine ⟨hmutations, by simp [ReaderState.install], _, rfl, ?_⟩
      have hkeeping : s.keepingChangedLabels answer.thread request.labelMutationGeneration =
          answer.thread := by
        unfold ReaderState.keepingChangedLabels
        rw [if_neg (not_not.2 hgeneration.symm)]
      show Overridden (overriding s.overrides _).2 answer.thread (overriding s.overrides _).1
      rw [hkeeping]
      exact overridden_overriding hs.keys hs.apart answer.thread
    | false =>
      have hearlier : shown ∈ s.confirmed := by
        simpa [ReaderState.install, hsettled] using hshown
      have := (h.confirmed shown hearlier).2.1 request hrequest
      rw [hsettled] at this
      cases this

theorem FetchSound.startFetch (h : FetchSound s) (replacing : Bool) :
    FetchSound (s.startFetch replacing) := by
  unfold ReaderState.startFetch
  split
  · exact h
  constructor
  · rintro _ ⟨⟩ hsettled
    exact ⟨List.isEmpty_iff.1 hsettled, rfl⟩
  intro answer hanswer
  obtain ⟨hmutations, _, hshown⟩ := h.confirmed answer hanswer
  refine ⟨hmutations, ?_, hshown⟩
  rintro _ ⟨⟩
  rw [hmutations]
  rfl

theorem sound_step (hs : MutationsSound s) (hf : FetchSound s) (event : LabelEvent) :
    MutationsSound (s.step event) ∧ FetchSound (s.step event) := by
  cases event with
  | change =>
    exact ⟨⟨hs.ids, hs.issued, hs.keys, hs.apart, hs.pending, hs.targeted⟩,
      ⟨hf.inFlight, hf.confirmed⟩⟩
  | begin action target =>
    simp only [ReaderState.step]
    split
    · have hunsettled : MutationsSound s.unsettle :=
        ⟨hs.ids, hs.issued, hs.keys, hs.apart, hs.pending, hs.targeted⟩
      refine ⟨hunsettled.begin action target, Unsettled.fetchSound ?_⟩
      obtain ⟨hinFlight, hconfirmed⟩ := beginReaderLabelMutation_frame s.unsettle action target
      unfold Unsettled
      rw [hinFlight, hconfirmed]
      exact unsettled_unsettle s
    · exact ⟨hs, hf⟩
  | finish id succeeded =>
    simp only [ReaderState.step]
    split
    · exact ⟨hs, hf⟩
    next mutation hfind =>
      obtain ⟨hin, rfl⟩ := mem_of_find_mutation hfind
      refine ⟨hs.finish hin succeeded, Unsettled.fetchSound ?_⟩
      obtain ⟨_, _, hinFlight, hconfirmed⟩ :=
        finishReaderLabelMutation_frame (s.retire mutation.id) mutation succeeded
      unfold Unsettled
      rw [hinFlight, hconfirmed]
      exact hf.unsettled hin
  | confirmOther action target =>
    simp only [ReaderState.step]
    split
    · next hnone =>
        rw [applyConfirmedReaderLabelChange_of_none hnone]
        exact ⟨hs, hf⟩
    · exact ⟨hs, hf⟩
  | fetch replacing =>
    refine ⟨?_, hf.startFetch replacing⟩
    simp only [ReaderState.step, ReaderState.startFetch]
    split
    · exact hs
    · exact ⟨hs.ids, hs.issued, hs.keys, hs.apart, hs.pending, hs.targeted⟩
  | answer =>
    refine ⟨⟨hs.ids, hs.issued, hs.keys, hs.apart, hs.pending, hs.targeted⟩, ?_, ?_⟩
    · intro request hrequest
      obtain ⟨old, hold, rfl⟩ := Option.map_eq_some_iff.1 hrequest
      exact hf.inFlight old hold
    · intro answer hanswer
      obtain ⟨hmutations, hsettled, hshown⟩ := hf.confirmed answer hanswer
      refine ⟨hmutations, ?_, hshown⟩
      intro request hrequest
      obtain ⟨old, hold, rfl⟩ := Option.map_eq_some_iff.1 hrequest
      exact hsettled old hold
  | arrive =>
    simp only [ReaderState.step]
    split
    · next request hrequest =>
        split
        · next answer _ => exact ⟨hs.install request answer, hf.install hs hrequest answer⟩
        · exact ⟨hs, hf⟩
    · exact ⟨hs, hf⟩
  | failFetch =>
    refine ⟨⟨hs.ids, hs.issued, hs.keys, hs.apart, hs.pending, hs.targeted⟩, ?_, ?_⟩
    · rintro _ ⟨⟩
    · intro answer hanswer
      obtain ⟨hmutations, _, hshown⟩ := hf.confirmed answer hanswer
      exact ⟨hmutations, by rintro _ ⟨⟩, hshown⟩

end ElectronicMail.Reader
