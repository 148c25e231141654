import ElectronicMail.Attachments.Prefetch
import ElectronicMail.Foundations.Positions
import ElectronicMail.Foundations.Run

/-!
# Downloads are bounded and unique

`downloads_bounded` is what the coordinator promises, in every run in which nobody takes a
download that still runs out of `activeDownloads`. A download is completed by its id and its
generation, so that a later download of the same id can be completed by somebody who has waited
for an earlier one, and a foreground download that has waited for room does not look again
whether its id is active.
-/

namespace ElectronicMail.Attachments

open Foundations
open Foundations.Table

/-! ## The law -/

/-- A request of a download that has not been cancelled is in the network. -/
def Download.inNetwork (d : Download) : Bool := d.phase == .downloading && !d.cancelled

/-- The downloads are few, of different requests, and all active, and none of them writes for a
user whose downloads have been reset. -/
structure DownloadsBounded (s : Prefetch) : Prop where
  bounded : (s.downloads.filter Download.inNetwork).length ≤ s.maximumConcurrentDownloads
  unique : ∀ (i j : Nat) d e, s.downloads[i]? = some d → s.downloads[j]? = some e →
    d.phase ≠ .ended → e.phase ≠ .ended → d.request.id = e.request.id → i = j
  active : ∀ (i : Nat) d, s.downloads[i]? = some d → d.phase ≠ .ended →
    ∃ a ∈ s.activeDownloads, a.task = i
  reset : ∀ r ∈ s.finished, ∀ i < r.started, ∀ d, s.downloads[i]? = some d →
    names r.userId d.request = true → d.phase ≠ .writing

def Download.live (d : Download) : Bool := d.phase != .ended && !d.cancelled

def Prefetch.StartSafe (s : Prefetch) (id : List Char) : Prop :=
  ∀ a ∈ rowAt ActiveDownload.id s.activeDownloads id, s.hasEnded a.task = true

/-- None of the downloads that the loop of `pump` starts takes the place of one that runs. -/
def Prefetch.PumpingSafe : List (List Char) → Prefetch → Prop
  | [], _ => True
  | id :: queueOrder, s =>
    if s.hasRoom then
      match rowAt Request.id s.queued id with
      | none => PumpingSafe queueOrder s
      | some request =>
        if s.blocked request.userId then PumpingSafe queueOrder (s.dequeue id)
        else
          s.StartSafe request.id ∧ PumpingSafe queueOrder ((s.dequeue id).startAutomatic request)
    else True

/-- None of the downloads that `pump` starts takes the place of one that runs. -/
def Prefetch.PumpSafe (s : Prefetch) : Prop := s.PumpingSafe s.queueOrder

/-- What `complete` takes out of `activeDownloads` runs no more. -/
def Prefetch.CompleteSafe (s : Prefetch) (id : List Char) (g : Generation) : Prop :=
  ∀ a ∈ s.activeOf id g, s.hasEnded a.task = true ∧ (s.removeActive id).PumpSafe

/-- The condition on a method that goes on: `complete` and the last loop of `reset` take no
download out of `activeDownloads` that runs, and `pump` and a foreground download that has waited
for room start none in the place of one that runs; there is still room for the latter. -/
def Prefetch.ResumeSafe (s : Prefetch) (i : Nat) : Call → Prop
  | .readingCache _ _ => True
  | .joining _ => True
  | .makingCapacity _ _ a => s.hasEnded a.task = true → s.CompleteSafe a.id a.generation
  | .capacityMade request g =>
    s.isCurrent request.userId g = true →
      (s.downloads.filter Download.live).length < s.maximumConcurrentDownloads ∧
        s.StartSafe request.id
  | .awaiting a =>
    s.hasEnded a.task = true → (s.setCall i .returned).CompleteSafe a.id a.generation
  | .pumped a =>
    s.hasEnded a.task = true → (s.setCall i .returned).CompleteSafe a.id a.generation
  | .resetting _ _ matching =>
    (matching.all fun a => s.hasEnded a.task) = true →
      (∀ a ∈ matching, ∀ b ∈ s.activeOf a.id a.generation, s.hasEnded b.task = true) ∧
        ((s.setCall i .returned).removeMatching matching).PumpSafe
  | .returned => True

/-- The condition on a step: nobody takes a download out of `activeDownloads` that runs, and a
reset that is refused for its epoch finds no download of its user that runs. -/
def Undisturbed (s : Prefetch) : Event → Prop
  | .activate _ _ => True
  | .enqueue attachments userId selected accountEpoch =>
    ∀ s' ∈ s.acceptAccountEpoch userId accountEpoch, s'.blocked userId = false →
      (s'.enqueueAll attachments userId selected).PumpSafe
  | .download _ _ _ _ => True
  | .reset userId epoch =>
    (s.acceptReset userId epoch).2 = false →
      ∀ d ∈ s.downloads, names userId d.request = true → d.phase = .ended
  | .proceed _ _ _ => True
  | .resume i _ _ => ∀ c ∈ s.calls[i]?, s.ResumeSafe i c

instance (s : Prefetch) (id : List Char) : Decidable (s.StartSafe id) :=
  inferInstanceAs (Decidable (∀ a ∈ _, _))

instance decidablePumpingSafe : ∀ ids (s : Prefetch), Decidable (s.PumpingSafe ids)
  | [], _ => .isTrue trivial
  | id :: ids, s =>
    if hroom : s.hasRoom then
      match hrow : rowAt Request.id s.queued id with
      | none =>
        have := decidablePumpingSafe ids s
        decidable_of_iff (s.PumpingSafe ids) (by simp [Prefetch.PumpingSafe, hroom, hrow])
      | some request =>
        if hblocked : s.blocked request.userId = true then
          have := decidablePumpingSafe ids (s.dequeue id)
          decidable_of_iff ((s.dequeue id).PumpingSafe ids)
            (by simp [Prefetch.PumpingSafe, hroom, hrow, hblocked])
        else
          have := decidablePumpingSafe ids ((s.dequeue id).startAutomatic request)
          decidable_of_iff (s.StartSafe request.id ∧
            ((s.dequeue id).startAutomatic request).PumpingSafe ids)
            (by simp [Prefetch.PumpingSafe, hroom, hrow, hblocked])
    else .isTrue (by simp [Prefetch.PumpingSafe, hroom])

instance (s : Prefetch) : Decidable s.PumpSafe := decidablePumpingSafe s.queueOrder s

instance (s : Prefetch) (id : List Char) (g : Generation) : Decidable (s.CompleteSafe id g) :=
  inferInstanceAs (Decidable (∀ a ∈ _, _ ∧ _))

instance (s : Prefetch) (i : Nat) : ∀ c, Decidable (s.ResumeSafe i c)
  | .readingCache _ _ | .joining _ => inferInstanceAs (Decidable True)
  | .makingCapacity _ _ _ => inferInstanceAs (Decidable (_ → _))
  | .capacityMade _ _ => inferInstanceAs (Decidable (_ → _ ∧ _))
  | .awaiting _ => inferInstanceAs (Decidable (_ → _))
  | .pumped _ => inferInstanceAs (Decidable (_ → _))
  | .resetting _ _ _ => inferInstanceAs (Decidable (_ → (∀ a ∈ _, ∀ b ∈ _, _) ∧ _))
  | .returned => inferInstanceAs (Decidable True)

instance (s : Prefetch) : ∀ e, Decidable (Undisturbed s e)
  | .activate _ _ => inferInstanceAs (Decidable True)
  | .enqueue _ _ _ _ => inferInstanceAs (Decidable (∀ s' ∈ _, _ → _))
  | .download _ _ _ _ => inferInstanceAs (Decidable True)
  | .reset _ _ => inferInstanceAs (Decidable (_ → ∀ d ∈ _, _ → _))
  | .proceed _ _ _ => inferInstanceAs (Decidable True)
  | .resume _ _ _ => inferInstanceAs (Decidable (∀ c ∈ _, _))

/-! ## The invariant -/

structure Sound (s : Prefetch) : Prop where
  keys : (s.activeDownloads.map ActiveDownload.id).Nodup
  known : ∀ (i : Nat) d, s.downloads[i]? = some d → d.phase ≠ .ended →
    ∃ a ∈ s.activeDownloads, a.task = i ∧ a.request = d.request
  live : (s.downloads.filter Download.live).length ≤ s.maximumConcurrentDownloads
  resets : ∀ userId started matching, Call.resetting userId started matching ∈ s.calls →
    started ≤ s.downloads.length ∧
      ∀ i < started, ∀ d, s.downloads[i]? = some d → names userId d.request = true →
        d.phase ≠ .ended → ∃ a ∈ matching, a.task = i
  finished : ∀ r ∈ s.finished, r.started ≤ s.downloads.length ∧
    ∀ i < r.started, ∀ d, s.downloads[i]? = some d → names r.userId d.request = true →
      d.phase = .ended

variable {s : Prefetch}

theorem Sound.downloadsBounded (h : Sound s) : DownloadsBounded s := by
  constructor
  · apply Nat.le_trans _ h.live
    apply length_filter_le_of_pointwise
    intro i d hd hin
    refine ⟨d, hd, ?_⟩
    unfold Download.inNetwork at hin
    unfold Download.live
    simp only [Bool.and_eq_true, beq_iff_eq] at hin
    simp [hin.1, hin.2]
  · intro i j d e hd he hrun hrun' hid
    obtain ⟨a, ha, rfl, hreq⟩ := h.known i d hd hrun
    obtain ⟨b, hb, rfl, hreq'⟩ := h.known j e he hrun'
    have hsame : a.id = b.id := by
      unfold ActiveDownload.id
      rw [hreq, hreq', hid]
    rw [row_unique ActiveDownload.id h.keys ha hb hsame]
  · intro i d hd hrun
    obtain ⟨a, ha, htask, _⟩ := h.known i d hd hrun
    exact ⟨a, ha, htask⟩
  · intro r hr i hi d hd hnames hwriting
    rw [(h.finished r hr).2 i hi d hd hnames] at hwriting
    cases hwriting

variable {s' : Prefetch}

theorem Sound.congr (h : Sound s)
    (hmaximum : s'.maximumConcurrentDownloads = s.maximumConcurrentDownloads)
    (hactive : s'.activeDownloads = s.activeDownloads) (hdownloads : s'.downloads = s.downloads)
    (hcalls : ∀ userId started matching, Call.resetting userId started matching ∈ s'.calls →
      Call.resetting userId started matching ∈ s.calls)
    (hfinished : s'.finished = s.finished) : Sound s' := by
  constructor
  · rw [hactive]
    exact h.keys
  · rw [hactive, hdownloads]
    exact h.known
  · rw [hdownloads, hmaximum]
    exact h.live
  · intro userId started matching hin
    rw [hdownloads]
    exact h.resets userId started matching (hcalls _ _ _ hin)
  · rw [hfinished, hdownloads]
    exact h.finished

theorem Sound.setCall (h : Sound s) (i : Nat) {c : Call}
    (hc : ∀ userId started matching, c ≠ .resetting userId started matching) :
    Sound (s.setCall i c) := by
  refine h.congr rfl rfl rfl ?_ rfl
  intro userId started matching hin
  rcases List.mem_or_eq_of_mem_set hin with hin | heq
  · exact hin
  · exact absurd heq.symm (hc _ _ _)

theorem Sound.pushCall (h : Sound s) {c : Call}
    (hc : ∀ userId started matching, c ≠ .resetting userId started matching)
    (hmaximum : s'.maximumConcurrentDownloads = s.maximumConcurrentDownloads)
    (hactive : s'.activeDownloads = s.activeDownloads) (hdownloads : s'.downloads = s.downloads)
    (hcalls : s'.calls = s.calls ++ [c]) (hfinished : s'.finished = s.finished) : Sound s' := by
  refine h.congr hmaximum hactive hdownloads ?_ hfinished
  intro userId started matching hin
  rw [hcalls, List.mem_append, List.mem_singleton] at hin
  rcases hin with hin | heq
  · exact hin
  · exact absurd heq.symm (hc _ _ _)

/-! ## Downloads that go on -/

/-- Downloads come to their end and are cancelled, and nothing else happens to them. -/
structure Fades (ds ds' : List Download) : Prop where
  length : ds'.length = ds.length
  each : ∀ (i : Nat) d', ds'[i]? = some d' → ∃ d, ds[i]? = some d ∧ d'.request = d.request ∧
    (d'.phase ≠ .ended → d.phase ≠ .ended) ∧ (d'.live = true → d.live = true)

theorem Sound.fades (h : Sound s)
    (hmaximum : s'.maximumConcurrentDownloads = s.maximumConcurrentDownloads)
    (hactive : s'.activeDownloads = s.activeDownloads) (hfades : Fades s.downloads s'.downloads)
    (hcalls : s'.calls = s.calls) (hfinished : s'.finished = s.finished) : Sound s' := by
  constructor
  · rw [hactive]
    exact h.keys
  · intro i d' hd' hrun
    obtain ⟨d, hd, hrequest, hphase, _⟩ := hfades.each i d' hd'
    rw [hactive, hrequest]
    exact h.known i d hd (hphase hrun)
  · rw [hmaximum]
    apply Nat.le_trans _ h.live
    apply length_filter_le_of_pointwise
    intro i d' hd' hlive
    obtain ⟨d, hd, _, _, hlive'⟩ := hfades.each i d' hd'
    exact ⟨d, hd, hlive' hlive⟩
  · intro userId started matching hin
    rw [hcalls] at hin
    obtain ⟨hle, hmatching⟩ := h.resets userId started matching hin
    refine ⟨by rw [hfades.length]; exact hle, ?_⟩
    intro i hi d' hd' hnames hrun
    obtain ⟨d, hd, hrequest, hphase, _⟩ := hfades.each i d' hd'
    exact hmatching i hi d hd (hrequest ▸ hnames) (hphase hrun)
  · intro r hr
    rw [hfinished] at hr
    obtain ⟨hle, hended⟩ := h.finished r hr
    refine ⟨by rw [hfades.length]; exact hle, ?_⟩
    intro i hi d' hd' hnames
    obtain ⟨d, hd, hrequest, hphase, _⟩ := hfades.each i d' hd'
    by_contra hrun
    exact hphase hrun (hended i hi d hd (hrequest ▸ hnames))

theorem fades_cancel (s : Prefetch) (tasks : List Nat) :
    Fades s.downloads (s.cancel tasks).downloads := by
  constructor
  · simp [Prefetch.cancel]
  intro i d' hd'
  simp only [Prefetch.cancel, List.getElem?_mapIdx, Option.map_eq_some_iff] at hd'
  obtain ⟨d, hd, rfl⟩ := hd'
  refine ⟨d, hd, ?_⟩
  split
  · exact ⟨rfl, id, by simp [Download.live]⟩
  · exact ⟨rfl, id, id⟩

theorem Sound.cancel (h : Sound s) (tasks : List Nat) : Sound (s.cancel tasks) :=
  h.fades rfl rfl (fades_cancel s tasks) rfl rfl

theorem Sound.proceed (h : Sound s) (task : Nat) (hit : Bool)
    (response : Option Nat) : Sound (s.proceed task hit response) := by
  refine h.fades rfl rfl ⟨by simp [Prefetch.proceed], ?_⟩ rfl rfl
  intro i d' hd'
  rw [Prefetch.proceed, List.getElem?_modify] at hd'
  obtain ⟨d, hd, rfl⟩ := Option.map_eq_some_iff.1 hd'
  refine ⟨d, hd, ?_⟩
  by_cases htask : task = i
  · subst htask
    have hnext : d.phase = .ended → d.next (s.isCurrent d.request.userId d.generation) hit
        response = .ended := by
      intro hphase
      unfold Download.next
      rw [hphase]
    simp only [if_true]
    refine ⟨trivial, fun hrun hphase => hrun (hnext hphase), ?_⟩
    unfold Download.live
    simp only [Bool.and_eq_true, bne_iff_ne, ne_eq]
    exact fun hlive => ⟨fun hphase => hlive.1 (hnext hphase), hlive.2⟩
  · simp only [htask, if_false]
    exact ⟨trivial, id, id⟩

/-! ## Downloads that start -/

theorem Sound.live_le (h : Sound s) :
    (s.downloads.filter Download.live).length ≤ s.activeDownloads.length := by
  have hpositions : (s.downloads.filter Download.live).length ≤
      (s.activeDownloads.map ActiveDownload.task).length := by
    apply length_filter_le_of_positions
    intro i d hd hlive
    unfold Download.live at hlive
    simp only [Bool.and_eq_true, bne_iff_ne, ne_eq] at hlive
    obtain ⟨a, ha, htask, _⟩ := h.known i d hd hlive.1
    exact List.mem_map.2 ⟨a, ha, htask⟩
  rwa [List.length_map] at hpositions

theorem hasEnded_iff {task : Nat} :
    s.hasEnded task = true ↔ ∀ d, s.downloads[task]? = some d → d.phase = .ended := by
  unfold Prefetch.hasEnded
  cases s.downloads[task]? with
  | none | some d => simp

variable {request : Request}

theorem Sound.makeDownload (h : Sound s) (automatic : Bool) (hsafe : s.StartSafe request.id)
    (hroom : (s.downloads.filter Download.live).length < s.maximumConcurrentDownloads) :
    Sound (s.makeDownload request automatic).1 := by
  constructor
  · exact Dictionary.nodup_put h.keys _
  · intro i d hd hrun
    have hd : (s.downloads ++ [(⟨request, automatic, s.generationOf request.userId, false,
      .reading⟩ : Download)])[i]? = some d := hd
    rw [List.getElem?_append] at hd
    split at hd
    · obtain ⟨a, ha, htask, hrequest⟩ := h.known i d hd hrun
      refine ⟨a, Dictionary.mem_put.2 (Or.inr ⟨ha, ?_⟩), htask, hrequest⟩
      intro hid
      have hrow : rowAt ActiveDownload.id s.activeDownloads request.id = some a := by
        have := rowAt_of_mem ActiveDownload.id h.keys ha
        rwa [show a.id = request.id from hid] at this
      exact hrun (hasEnded_iff.1 (hsafe a hrow) d (htask ▸ hd))
    · next hlen =>
        rw [List.getElem?_singleton] at hd
        split at hd
        · obtain rfl := Option.some.inj hd
          refine ⟨_, Dictionary.mem_put.2 (Or.inl rfl), ?_, rfl⟩
          show s.downloads.length = i
          omega
        · cases hd
  · show ((s.downloads ++ [_]).filter Download.live).length ≤ _
    rw [List.filter_append, List.length_append]
    exact hroom
  · intro userId started matching hin
    obtain ⟨hle, hmatching⟩ := h.resets userId started matching hin
    refine ⟨?_, ?_⟩
    · show started ≤ (s.downloads ++ [_]).length
      rw [List.length_append]
      omega
    · intro i hi d hd
      have hd : (s.downloads ++ [_])[i]? = some d := hd
      rw [List.getElem?_append_left (by omega)] at hd
      exact hmatching i hi d hd
  · intro r hr
    obtain ⟨hle, hended⟩ := h.finished r hr
    refine ⟨?_, ?_⟩
    · show r.started ≤ (s.downloads ++ [_]).length
      rw [List.length_append]
      omega
    · intro i hi d hd
      have hd : (s.downloads ++ [_])[i]? = some d := hd
      rw [List.getElem?_append_left (by omega)] at hd
      exact hended i hi d hd

theorem Sound.dequeue (h : Sound s) (id : List Char) : Sound (s.dequeue id) :=
  h.congr rfl rfl rfl (fun _ _ _ hin => hin) rfl

theorem Sound.startAutomatic (h : Sound s) (hsafe : s.StartSafe request.id)
    (hroom : (s.downloads.filter Download.live).length < s.maximumConcurrentDownloads) :
    Sound (s.startAutomatic request) :=
  (h.makeDownload true hsafe hroom).pushCall (c := .pumped (s.makeDownload request true).2)
    (by intros; simp) rfl rfl rfl rfl rfl

/-- **`pump` keeps the invariant**, when it starts no download in the place of one that runs. -/
theorem Sound.pumping {ids : List (List Char)} (h : Sound s)
    (hsafe : s.PumpingSafe ids) : Sound (s.pumping ids) := by
  induction ids generalizing s with
  | nil => exact h.congr rfl rfl rfl (fun _ _ _ hin => hin) rfl
  | cons id ids ih =>
    unfold Prefetch.pumping
    unfold Prefetch.PumpingSafe at hsafe
    split
    · next hroom =>
        rw [if_pos hroom] at hsafe
        split
        · next hnone =>
            simp only [hnone] at hsafe
            exact ih h hsafe
        · next request hrow =>
            simp only [hrow] at hsafe
            split
            · next hblocked =>
                rw [if_pos hblocked] at hsafe
                exact ih (h.dequeue id) hsafe
            · next hblocked =>
                rw [if_neg hblocked] at hsafe
                refine ih ((h.dequeue id).startAutomatic hsafe.1 ?_) hsafe.2
                have hlive := h.live_le
                unfold Prefetch.hasRoom at hroom
                show (s.downloads.filter Download.live).length < s.maximumConcurrentDownloads
                omega
    · exact h.congr rfl rfl rfl (fun _ _ _ hin => hin) rfl

theorem Sound.pump (h : Sound s) (hsafe : s.PumpSafe) : Sound s.pump :=
  h.pumping hsafe

theorem pumping_downloads (ids : List (List Char)) (s : Prefetch) :
    s.downloads <+: (s.pumping ids).downloads := by
  induction ids generalizing s with
  | nil => exact List.prefix_refl _
  | cons id ids ih =>
    unfold Prefetch.pumping
    split
    · split
      · exact ih s
      · next request _ =>
          split
          · exact ih (s.dequeue id)
          · exact (List.prefix_append s.downloads _).trans
              (ih ((s.dequeue id).startAutomatic request))
    · exact List.prefix_refl _

variable {id : List Char}

/-! ## Downloads that are completed -/

theorem Sound.removeActive (h : Sound s)
    (hended : ∀ a ∈ s.activeDownloads, a.id = id → s.hasEnded a.task = true) :
    Sound (s.removeActive id) := by
  refine ⟨Dictionary.nodup_drop h.keys id, ?_, h.live, h.resets, h.finished⟩
  intro i d hd hrun
  obtain ⟨a, ha, htask, hrequest⟩ := h.known i d hd hrun
  refine ⟨a, Dictionary.mem_drop.2 ⟨ha, ?_⟩, htask, hrequest⟩
  intro hid
  exact hrun (hasEnded_iff.1 (hended a ha hid) d (htask ▸ hd))

theorem activeOf_unique (hkeys : (s.activeDownloads.map ActiveDownload.id).Nodup)
    {g : Generation} {a b : ActiveDownload} (ha : s.activeOf id g = some a)
    (hb : b ∈ s.activeDownloads) (hid : b.id = id) : b = a := by
  obtain ⟨hrow, _⟩ := Option.filter_eq_some_iff.1 ha
  obtain ⟨hmem, hkey⟩ := rowAt_mem ActiveDownload.id hrow
  exact row_unique ActiveDownload.id hkeys hb hmem (hid.trans hkey.symm)

theorem Sound.complete (h : Sound s) {g : Generation}
    (hsafe : s.CompleteSafe id g) : Sound (s.complete id g) := by
  unfold Prefetch.complete
  cases ha : s.activeOf id g with
  | none => simpa using h
  | some a =>
    obtain ⟨hended, hpump⟩ := hsafe a ha
    simp only [Option.isSome_some, if_true]
    refine Sound.pump (h.removeActive ?_) hpump
    intro b hb hid
    rwa [activeOf_unique h.keys ha hb hid]

theorem Sound.removeMatching (h : Sound s) {matching : List ActiveDownload}
    (hended : ∀ a ∈ matching, ∀ b ∈ s.activeOf a.id a.generation, s.hasEnded b.task = true) :
    Sound (s.removeMatching matching) := by
  induction matching generalizing s with
  | nil => exact h
  | cons a matching ih =>
    unfold Prefetch.removeMatching
    cases hb : s.activeOf a.id a.generation with
    | none =>
      simp only [Option.isSome_none, Bool.false_eq_true, if_false]
      exact ih h fun c hc => hended c (List.mem_cons_of_mem _ hc)
    | some b =>
      simp only [Option.isSome_some, if_true]
      have hnext : Sound (s.removeActive a.id) := by
        apply h.removeActive
        intro c hc hid
        rw [activeOf_unique h.keys hb hc hid]
        exact hended a List.mem_cons_self b hb
      apply ih hnext
      intro c hc d hd
      -- what is left has been there before
      obtain ⟨hrow, hgen⟩ := Option.filter_eq_some_iff.1 hd
      obtain ⟨hmem, hkey⟩ := rowAt_mem ActiveDownload.id hrow
      have hbefore := rowAt_of_mem ActiveDownload.id h.keys (Dictionary.mem_drop.1 hmem).1
      rw [hkey] at hbefore
      exact hended c (List.mem_cons_of_mem _ hc) d (Option.filter_eq_some_iff.2 ⟨hbefore, hgen⟩)

variable {epoch : Option Nat}

/-! ## Methods -/

theorem acceptAccountEpoch_some {userId : List Char}
    (h : s' ∈ s.acceptAccountEpoch userId epoch) : ∃ epochs,
      s' = { s with accountEpochs := epochs } := by
  unfold Prefetch.acceptAccountEpoch at h
  split at h
  · obtain rfl := Option.some.inj h
    exact ⟨_, rfl⟩
  split at h
  · cases h
  · split at h
    · cases h
    · obtain rfl := Option.some.inj h
      exact ⟨_, rfl⟩

theorem Sound.acceptAccountEpoch (hs : Sound s) {userId : List Char}
    (h : s' ∈ s.acceptAccountEpoch userId epoch) : Sound s' := by
  obtain ⟨epochs, rfl⟩ := acceptAccountEpoch_some h
  exact hs.congr rfl rfl rfl (fun _ _ _ hin => hin) rfl

theorem Sound.enqueueAll (h : Sound s)
    (attachments : List (List Char × ThreadAttachment)) (userId : List Char) (selected : Bool) :
    Sound (s.enqueueAll attachments userId selected) := by
  unfold Prefetch.enqueueAll
  generalize attachments.map (fun a => Request.mk userId a.1 a.2) = requests
  induction requests generalizing s with
  | nil => exact h
  | cons request requests ih =>
    apply ih
    unfold Prefetch.enqueueOne
    split
    · exact h
    split
    · exact h.congr rfl rfl rfl (fun _ _ _ hin => hin) rfl
    split
    · exact h.congr rfl rfl rfl (fun _ _ _ hin => hin) rfl
    · exact h

theorem Sound.makeCapacity (h : Sound s) (i : Nat) (request : Request)
    (g : Generation) (pick : List Char) : Sound (s.makeCapacity i request g pick) := by
  unfold Prefetch.makeCapacity
  split
  · split
    · exact h.setCall i (by intros; simp)
    · refine Sound.setCall ?_ i (by intros; simp)
      split
      · exact h.cancel _
      · exact h
  · exact h.setCall i (by intros; simp)

theorem Sound.putBack (h : Sound s) (active : ActiveDownload) : Sound (s.putBack active) := by
  unfold Prefetch.putBack
  split
  · exact h.congr rfl rfl rfl (fun _ _ _ hin => hin) rfl
  · exact h

theorem Sound.startForeground (h : Sound s) (i : Nat) (hsafe : s.StartSafe request.id)
    (hroom : (s.downloads.filter Download.live).length < s.maximumConcurrentDownloads) :
    Sound (s.startForeground i request) :=
  (h.makeDownload false hsafe hroom).setCall i (by intros; simp)

theorem Sound.afterMiss (h : Sound s) (i : Nat) (request : Request)
    (g : Generation) (pick : List Char) : Sound (s.afterMiss i request g pick) := by
  unfold Prefetch.afterMiss
  split
  · exact h.setCall i (by intros; simp)
  split
  · exact h.setCall i (by intros; simp)
  next hnone =>
    have hqueue : Sound (s.leaveQueue request.id) :=
      h.congr rfl rfl rfl (fun _ _ _ hin => hin) rfl
    have hreserved : Sound (s.leaveQueue request.id).reserve :=
      hqueue.congr rfl rfl rfl (fun _ _ _ hin => hin) rfl
    dsimp only
    split
    · exact hreserved.makeCapacity i request g pick
    next hroom =>
      apply hqueue.startForeground
      · intro a ha
        have hfound : rowAt ActiveDownload.id s.activeDownloads request.id = some a := ha
        rw [hnone] at hfound
        cases hfound
      · have hlive := h.live_le
        have hlength : ¬ s.activeDownloads.length ≥ s.maximumConcurrentDownloads := hroom
        show (s.downloads.filter Download.live).length < s.maximumConcurrentDownloads
        omega

theorem acceptReset_keeps (s : Prefetch) (userId : Option (List Char)) (epoch : Option Nat) :
    ∃ epochs through, (s.acceptReset userId epoch).1 =
      { s with accountEpochs := epochs, invalidatedThroughAccountEpoch := through } := by
  unfold Prefetch.acceptReset
  split
  · exact ⟨_, _, rfl⟩
  split
  · exact ⟨_, _, rfl⟩
  dsimp only
  split
  · exact ⟨_, _, rfl⟩
  split
  · exact ⟨_, _, rfl⟩
  · exact ⟨_, _, rfl⟩

variable {userId : Option (List Char)}

theorem Sound.finish (h : Sound s) {started : Nat} (hle : started ≤ s.downloads.length)
    (hended : ∀ i < started, ∀ d, s.downloads[i]? = some d → names userId d.request = true →
      d.phase = .ended) : Sound (s.finish userId started) := by
  refine ⟨h.keys, h.known, h.live, h.resets, ?_⟩
  intro r hr
  rcases List.mem_cons.1 hr with rfl | hr
  · exact ⟨hle, hended⟩
  · exact h.finished r hr

theorem Sound.reset (h : Sound s) (hrefused : (s.acceptReset userId epoch).2 = false →
      ∀ d ∈ s.downloads, names userId d.request = true → d.phase = .ended) :
    Sound (s.reset userId epoch) := by
  have haccepted : Sound (s.acceptReset userId epoch).1 ∧
      (s.acceptReset userId epoch).1.downloads = s.downloads := by
    obtain ⟨epochs, through, heq⟩ := acceptReset_keeps s userId epoch
    rw [heq]
    exact ⟨h.congr rfl rfl rfl (fun _ _ _ hin => hin) rfl, rfl⟩
  unfold Prefetch.reset
  revert hrefused haccepted
  generalize s.acceptReset userId epoch = result
  obtain ⟨s', accepted⟩ := result
  rintro hrefused ⟨hs', hdownloads⟩
  cases accepted with
  | false =>
    refine hs'.finish (Nat.le_refl _) ?_
    intro i _ d hd hnames
    have hd : s'.downloads[i]? = some d := hd
    rw [show s'.downloads = s.downloads from hdownloads] at hd
    exact hrefused rfl d (List.mem_of_getElem? hd) hnames
  | true =>
    have hinvalid : Sound (s'.invalidate userId) := by
      unfold Prefetch.invalidate
      split
      · exact hs'.congr rfl rfl rfl (fun _ _ _ hin => hin) rfl
      · exact hs'.congr rfl rfl rfl (fun _ _ _ hin => hin) rfl
    have hcancel := hinvalid.cancel
      ((s'.activeDownloads.filter fun a => names userId a.request).map ActiveDownload.task)
    have hactive : (s'.invalidate userId).activeDownloads = s'.activeDownloads := by
      unfold Prefetch.invalidate
      split
      · rfl
      · rfl
    refine ⟨hcancel.keys, hcancel.known, hcancel.live, ?_, hcancel.finished⟩
    intro u n matching hin
    rcases List.mem_append.1 hin with hin | hin
    · exact hcancel.resets u n matching hin
    obtain ⟨rfl, rfl, rfl⟩ := Call.resetting.inj (List.mem_singleton.1 hin)
    refine ⟨Nat.le_refl _, ?_⟩
    intro i _ d hd hnames hrun
    obtain ⟨a, ha, htask, hrequest⟩ := hcancel.known i d hd hrun
    have ha : a ∈ (s'.invalidate u).activeDownloads := ha
    rw [hactive] at ha
    exact ⟨a, List.mem_filter.2 ⟨ha, hrequest ▸ hnames⟩, htask⟩

theorem removeMatching_downloads (matching : List ActiveDownload) (s : Prefetch) :
    (s.removeMatching matching).downloads = s.downloads := by
  induction matching generalizing s with
  | nil => rfl
  | cons a matching ih =>
    unfold Prefetch.removeMatching
    rw [ih]
    split
    · rfl
    · rfl

theorem Sound.resume (h : Sound s) {i : Nat} {hit : Bool} {pick : List Char}
    (hsafe : Undisturbed s (.resume i hit pick)) : Sound (s.resume i hit pick) := by
  unfold Undisturbed at hsafe
  unfold Prefetch.resume
  split
  · exact h
  · split
    · exact h.setCall i (by intros; simp)
    · exact h.afterMiss i _ _ pick
  · split
    · exact h.setCall i (by intros; simp)
    · exact h
  · next hcall =>
      split
      · next hended =>
          exact ((h.complete (hsafe _ hcall hended)).putBack _).makeCapacity i _ _ pick
      · exact h
  · next request g hcall =>
      unfold Prefetch.afterCapacity
      have hreleased : Sound s.release := h.congr rfl rfl rfl (fun _ _ _ hin => hin) rfl
      dsimp only
      split
      · next hcurrent =>
          obtain ⟨hroom, hstart⟩ := hsafe _ hcall hcurrent
          exact hreleased.startForeground i hstart hroom
      · exact hreleased.setCall i (by intros; simp)
  · next hcall =>
      split
      · next hended =>
          exact (h.setCall i (by intros; simp)).complete (hsafe _ hcall hended)
      · exact h
  · next hcall =>
      split
      · next hended =>
          exact (h.setCall i (by intros; simp)).complete (hsafe _ hcall hended)
      · exact h
  · next userId started matching hcall =>
      split
      · next hall =>
          obtain ⟨hremoved, hpump⟩ := hsafe _ hcall hall
          obtain ⟨hle, hmatching⟩ :=
            h.resets userId started matching (List.mem_of_getElem? hcall)
          have hcalled : Sound (s.setCall i .returned) := h.setCall i (by intros; simp)
          have hpumped := (hcalled.removeMatching hremoved).pump hpump
          -- the first downloads are still the same ones
          have hprefix := pumping_downloads
            ((s.setCall i .returned).removeMatching matching).queueOrder
            ((s.setCall i .returned).removeMatching matching)
          rw [removeMatching_downloads] at hprefix
          obtain ⟨more, hmore⟩ := hprefix
          have hmore : s.downloads ++ more =
              ((s.setCall i .returned).removeMatching matching).pump.downloads := hmore
          apply hpumped.finish
          · rw [← hmore, List.length_append]
            omega
          · intro j hj d hd hnames
            rw [← hmore, List.getElem?_append_left (by omega)] at hd
            by_contra hrun
            obtain ⟨a, ha, rfl⟩ := hmatching j hj d hd hnames hrun
            exact hrun (hasEnded_iff.1 (List.all_eq_true.1 hall a ha) d hd)
      · exact h
  · exact h

/-! ## Runs -/

theorem sound_step {e : Event} (h : Sound s) (hsafe : Undisturbed s e) : Sound (s.step e) := by
  cases e with
  | activate userId epoch =>
    show Sound (s.activate userId epoch)
    unfold Prefetch.activate
    split
    · exact h
    · next s' heq =>
        exact (h.acceptAccountEpoch heq).congr rfl rfl rfl (fun _ _ _ hin => hin) rfl
  | enqueue attachments userId selected epoch =>
    show Sound (s.enqueue attachments userId selected epoch)
    unfold Prefetch.enqueue
    split
    · exact h
    next s' heq =>
      have hs' := h.acceptAccountEpoch heq
      split
      · exact hs'
      next hblocked =>
        exact (hs'.enqueueAll attachments userId selected).pump
          (hsafe s' heq (by simpa using hblocked))
  | download messageId attachment userId epoch =>
    show Sound (s.download ⟨userId, messageId, attachment⟩ epoch)
    unfold Prefetch.download
    split
    · exact h
    next s' heq =>
      have hs' := h.acceptAccountEpoch heq
      split
      · exact hs'
      · exact hs'.pushCall (by intros; simp) rfl rfl rfl rfl rfl
  | reset => exact h.reset hsafe
  | proceed task hit response => exact h.proceed task hit response
  | resume => exact h.resume hsafe

theorem sound_start (n : Nat) : Sound (.start n) := by
  refine ⟨List.nodup_nil, ?_, Nat.zero_le _, ?_, ?_⟩
  · intro i d hd
    simp [Prefetch.start] at hd
  · intro userId started matching hin
    simp [Prefetch.start] at hin
  · intro r hr
    simp [Prefetch.start] at hr

/-- **Downloads are bounded and unique.** No more downloads than the maximum are in the network
without having been cancelled, no two of one request run, all that run are active, and none
that had been started before a reset writes for its user after the reset has returned. -/
theorem downloads_bounded (maximumConcurrentDownloads : Nat) (events : List Event)
    (h : Along Prefetch.step Undisturbed (.start maximumConcurrentDownloads) events) :
    Throughout Prefetch.step DownloadsBounded (.start maximumConcurrentDownloads) events := by
  apply (throughout_of_step _ (sound_start maximumConcurrentDownloads) h).mono
    fun _ hs => hs.downloadsBounded
  exact fun s e hs hsafe => sound_step hs hsafe

/-- Two attachments are fetched ahead, a click on a third one takes the place of the second, and
the account is reset while the first is being written. -/
theorem downloads_bounded_of_click :
    let message := ['m']
    let attachment := fun c => ThreadAttachment.mk [c] (some 9)
    Throughout Prefetch.step DownloadsBounded (.start 2)
      [.enqueue [(message, attachment 'x'), (message, attachment 'z')] ['u'] false none,
        .download message (attachment 'y') ['u'] none, .resume 2 false [],
        .proceed 1 true none, .resume 2 false [], .resume 2 false [], .resume 1 false [],
        .proceed 0 false none, .proceed 0 false (some 9), .proceed 0 false none,
        .reset (some ['u']) none, .proceed 0 false none, .proceed 2 false none,
        .proceed 2 false none, .resume 3 false []] :=
  downloads_bounded 2 _ (by decide +kernel)

/-- Two attachments are fetched ahead and a third one is clicked twice. Both clicks wait for the
second download. The later one finds no room then and waits for the first, and starts a second
download of the attachment that the earlier click downloads. -/
def twoClicks : List Event :=
  let message := ['m']
  let attachment := fun c => ThreadAttachment.mk [c] (some 9)
  [.enqueue [(message, attachment 'x'), (message, attachment 'z')] ['u'] false none,
    .download message (attachment 'y') ['u'] none, .download message (attachment 'y') ['u'] none,
    .resume 2 false [], .resume 3 false [], .proceed 1 true none,
    .resume 2 false [], .resume 2 false [], .resume 3 false [], .proceed 0 true none,
    .resume 3 false [], .resume 3 false [], .proceed 2 false none, .proceed 3 false none]

theorem downloaded_twice : ¬ Throughout Prefetch.step DownloadsBounded (.start 2) twoClicks := by
  intro h
  have hlast := h.last
  have htwo : ∀ i ∈ [2, 3], ((after Prefetch.step (.start 2) twoClicks).downloads[i]?).map
      (fun d => (d.phase, d.request.id)) =
        some (.downloading, Request.id ⟨['u'], ['m'], ⟨['y'], some 9⟩⟩) := by
    decide +kernel
  obtain ⟨d, hd, hphase⟩ := Option.map_eq_some_iff.1 (htwo 2 (by simp))
  obtain ⟨e, he, hphase'⟩ := Option.map_eq_some_iff.1 (htwo 3 (by simp))
  obtain ⟨hrun, hid⟩ := Prod.mk.inj hphase
  obtain ⟨hrun', hid'⟩ := Prod.mk.inj hphase'
  have hsame := hlast.unique 2 3 d e hd he (by simp [hrun]) (by simp [hrun'])
    (hid.trans hid'.symm)
  omega

end ElectronicMail.Attachments
