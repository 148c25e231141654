import ElectronicMail.Foundations.Run
import ElectronicMail.SignOut.Device

/-!
# Sign-out leaves no mail

`no_mail_left` is that no operation that was started before a sign-out writes after its clean-up,
in the runs in which a drain that was started before it and goes on afterwards finds that the
coordinator has been reset, and in no others. Clearing the session token schedules the reset and the clean-up
independently of each other, and only the reset stops a drain.
-/

namespace ElectronicMail.SignOut

open Foundations

/-! ## The law -/

/-- Nothing has been written by an operation that was started before a sign-out whose clean-up
had finished then. -/
def NoMailLeft (s : Device) : Prop :=
  ∀ w ∈ s.writes, w.cleared ≤ w.era

def CarriedOut.covers (r : CarriedOut) (userId : Nat) : Bool := r.userId.all (· == userId)

/-- The condition on a step: a drain that owns its work, and was started before a sign-out that
has been cleaned up, writes only after the coordinator has been reset for its user, by a
sign-out after its start. -/
def DrainsReset (s : Device) : Event → Prop
  | .drain i .write =>
    ∀ d ∈ s.coordinator.drains[i]?, d.returned = false → s.coordinator.ownsWork d = true →
      d.era < s.cleared → ∃ r ∈ s.resets, r.covers d.userId = true ∧ d.era < r.signOut
  | _ => True

instance (s : Device) : ∀ e, Decidable (DrainsReset s e)
  | .drain _ .write => inferInstanceAs (Decidable (∀ d ∈ _, _ → _ → _ → ∃ r ∈ _, _ ∧ _))
  | .drain _ .fail | .drain _ .leave | .updateSessionToken _ _ | .clearAll | .beginStore
  | .persist _ _ | .changeScope | .beginClient | .client _ _ | .transition | .crawl _ _
  | .signOutRemotely _ | .purge _ _ _ => inferInstanceAs (Decidable True)

/-! ## The coordinator -/

/-- Nothing that the coordinator still runs for a user was started before a reset for the user
that has been carried out, and no epoch before this one is accepted. -/
structure Owned (c : Coordinator) (resets : List CarriedOut) (least : Nat) : Prop where
  epoch : least ≤ c.invalidatedThroughAccountEpoch
  drainIds : ∀ d ∈ c.drains, d.ownerId < c.nextId
  crawlIds : ∀ x ∈ c.crawls, x.ownerId < c.nextId
  drain : ∀ d ∈ c.drains, c.drainOwnerId = some d.ownerId →
    c.currentUserId = some d.userId ∧ ∀ r ∈ resets, r.covers d.userId = true → r.signOut ≤ d.era
  crawl : ∀ x ∈ c.crawls, (x.key, x.ownerId) ∈ c.metadataCrawlOwners →
    ∀ r ∈ resets, r.covers x.key.userId = true → r.signOut ≤ x.era

def MayStart (resets : List CarriedOut) (userId era : Nat) : Prop :=
  ∀ r ∈ resets, r.covers userId = true → r.signOut ≤ era

section Coordinator

variable {c : Coordinator} {resets : List CarriedOut} {userId era least : Nat}

section

variable (h : Owned c resets least)
include h

theorem Owned.cancelCrawls (userId : Nat) : Owned (c.cancelCrawls userId) resets least := by
  refine ⟨h.epoch, h.drainIds, h.crawlIds, h.drain, ?_⟩
  intro x hx hin
  exact h.crawl x hx (List.mem_filter.1 hin).1

theorem Owned.cancelCrawl (key : CrawlKey) : Owned (c.cancelCrawl key) resets least := by
  refine ⟨h.epoch, h.drainIds, h.crawlIds, h.drain, ?_⟩
  intro x hx hin
  exact h.crawl x hx (Dictionary.mem_drop.1 hin).1

theorem Owned.leave (previous : Option Nat) :
    Owned (match previous with
      | some previousUserId => c.cancelCrawls previousUserId
      | none => c) resets least := by
  cases previous with
  | some => exact h.cancelCrawls _
  | none => exact h

theorem Owned.turnTo (userId : Nat) :
    Owned (c.turnTo userId) resets least ∧ (c.turnTo userId).currentUserId = some userId := by
  unfold Coordinator.turnTo
  split
  · next hsame => exact ⟨h, hsame⟩
  · refine ⟨?_, rfl⟩
    have hcrawls := h.leave c.currentUserId
    refine ⟨hcrawls.epoch, hcrawls.drainIds, hcrawls.crawlIds, ?_, hcrawls.crawl⟩
    intro d _ howner
    cases howner

theorem Owned.acceptObservation {epoch : Nat} {c' : Coordinator}
    (hc' : c.acceptObservation userId epoch = some c') :
    Owned c' resets least ∧ c'.currentUserId = some userId ∧
      c.invalidatedThroughAccountEpoch ≤ epoch := by
  unfold Coordinator.acceptObservation at hc'
  split at hc'
  · cases hc'
  next hepoch =>
    split at hc'
    · cases hc'
    · obtain rfl := Option.some.inj hc'
      have hcurrent : Owned { c with currentAccountEpoch := some epoch } resets least :=
        ⟨h.epoch, h.drainIds, h.crawlIds, h.drain, h.crawl⟩
      obtain ⟨hturned, huser⟩ := hcurrent.turnTo userId
      exact ⟨hturned, huser, Nat.le_of_not_lt hepoch⟩

theorem Owned.scheduleDrain (huser : c.currentUserId = some userId)
    (hera : MayStart resets userId era) : Owned (c.scheduleDrain userId era) resets least := by
  unfold Coordinator.scheduleDrain
  split
  · exact h
  refine ⟨h.epoch, ?_, ?_, ?_, h.crawl⟩
  · intro d hd
    rcases List.mem_append.1 hd with hd | hd
    · exact Nat.lt_succ_of_lt (h.drainIds d hd)
    · rw [List.mem_singleton] at hd
      subst hd
      exact Nat.lt_succ_self _
  · exact fun x hx => Nat.lt_succ_of_lt (h.crawlIds x hx)
  · intro d hd howner
    have howner := Option.some.inj howner
    rcases List.mem_append.1 hd with hd | hd
    · have hlt := h.drainIds d hd
      omega
    · rw [List.mem_singleton] at hd
      subst hd
      exact ⟨huser, hera⟩

theorem Owned.enqueueRows (huser : c.currentUserId = some userId)
    (hera : MayStart resets userId era) : Owned (c.enqueueRows userId era) resets least :=
  Owned.scheduleDrain (c := { c with pendingUsers := Dictionary.put id userId c.pendingUsers })
    ⟨h.epoch, h.drainIds, h.crawlIds, h.drain, h.crawl⟩ huser hera

theorem Owned.startCrawl {key : CrawlKey}
    (hera : MayStart resets key.userId era) : Owned (c.startCrawl key era) resets least := by
  refine ⟨h.epoch, fun d hd => Nat.lt_succ_of_lt (h.drainIds d hd), ?_, h.drain, ?_⟩
  · intro x hx
    rcases List.mem_append.1 hx with hx | hx
    · exact Nat.lt_succ_of_lt (h.crawlIds x hx)
    · rw [List.mem_singleton] at hx
      subst hx
      exact Nat.lt_succ_self _
  · intro x hx hin
    rcases List.mem_append.1 hx with hx | hx
    · rcases Dictionary.mem_put.1 hin with heq | ⟨hin, _⟩
      · have hlt := h.crawlIds x hx
        have hid := (Prod.mk.inj heq).2
        omega
      · exact h.crawl x hx hin
    · rw [List.mem_singleton] at hx
      subst hx
      exact hera

theorem Owned.resumeCrawl (hera : MayStart resets userId era)
    (choice : CrawlChoice) : Owned (c.resumeCrawl userId era choice) resets least := by
  unfold Coordinator.resumeCrawl
  have hcancelled : Owned (if choice.generationChanged then c.cancelCrawl ⟨userId, choice.label⟩
      else c) resets least := by
    split
    · exact h.cancelCrawl _
    · exact h
  dsimp only
  revert hcancelled
  generalize (if choice.generationChanged = true then c.cancelCrawl ⟨userId, choice.label⟩
    else c) = c'
  intro hcancelled
  split
  · exact hcancelled
  · exact hcancelled.startCrawl hera

theorem Owned.resumeCrawls (hera : MayStart resets userId era)
    (choices : List CrawlChoice) : Owned (c.resumeCrawls userId era choices) resets least := by
  unfold Coordinator.resumeCrawls
  split
  · exact h
  next hcurrent =>
    clear hcurrent
    induction choices generalizing c with
    | nil => exact h
    | cons choice choices ih => exact ih (h.resumeCrawl hera choice)

/-- **An operation observes something.** The coordinator refuses it when it was started before a
reset. -/
theorem Owned.observe {epoch : Nat}
    (hera : c.invalidatedThroughAccountEpoch ≤ epoch → MayStart resets userId era)
    (o : Observation) : Owned (c.observe userId epoch era o) resets least := by
  unfold Coordinator.observe
  split
  · exact h
  next c' hc' =>
    obtain ⟨hc', huser, hepoch⟩ := h.acceptObservation hc'
    have hstart := hera hepoch
    cases o with
    | mailbox choices =>
      dsimp only
      split
      · exact hc'
      · exact (hc'.enqueueRows huser hstart).resumeCrawls hstart choices
    | prioritized => exact hc'.enqueueRows huser hstart
    | progress choices =>
      dsimp only
      split
      · exact hc'
      · exact hc'.resumeCrawls hstart choices
    | hydrated =>
      dsimp only
      split
      · exact hc'
      · exact hc'.enqueueRows huser hstart

theorem Owned.leaveDrain (ownerId : Nat) : Owned (c.leaveDrain ownerId) resets least := by
  have hbefore : ∀ d ∈ (c.leaveDrain ownerId).drains, ∃ d₀ ∈ c.drains,
      d.ownerId = d₀.ownerId ∧ d.userId = d₀.userId ∧ d.era = d₀.era := by
    intro d hd
    obtain ⟨d₀, hd₀, rfl⟩ := List.mem_map.1 hd
    refine ⟨d₀, hd₀, ?_⟩
    split
    · exact ⟨rfl, rfl, rfl⟩
    · exact ⟨rfl, rfl, rfl⟩
  refine ⟨h.epoch, ?_, h.crawlIds, ?_, h.crawl⟩
  · intro d hd
    obtain ⟨d₀, hd₀, hid, _, _⟩ := hbefore d hd
    rw [hid]
    exact h.drainIds d₀ hd₀
  · intro d hd howner
    obtain ⟨d₀, hd₀, hid, huser, hera⟩ := hbefore d hd
    have howner : (if c.drainOwnerId = some ownerId then none else c.drainOwnerId) =
        some d.ownerId := howner
    split at howner
    · cases howner
    · rw [huser, hera]
      exact h.drain d₀ hd₀ (hid ▸ howner)

theorem Owned.pause (userId : Nat) : Owned (c.pause userId) resets least :=
  Owned.cancelCrawls (c := { c with pausedUsers := Dictionary.put id userId c.pausedUsers })
    ⟨h.epoch, h.drainIds, h.crawlIds, h.drain, h.crawl⟩ userId

theorem Owned.crawlPage {x : Crawl} (hx : x ∈ c.crawls) : Owned (c.crawlPage x) resets least := by
  unfold Coordinator.crawlPage
  split
  · next howns =>
      simp only [Coordinator.ownsCrawl, Bool.and_eq_true, List.contains_iff_mem, beq_iff_eq]
        at howns
      exact h.enqueueRows howns.2 (h.crawl x hx howns.1)
  · exact h

theorem Owned.finishCrawl {x : Crawl} (hx : x ∈ c.crawls)
    (latest : Option CrawlChoice) : Owned (c.finishCrawl x latest) resets least := by
  unfold Coordinator.finishCrawl
  split
  · next howns =>
      simp only [Coordinator.ownsCrawl, List.contains_iff_mem] at howns
      split
      · exact h.cancelCrawl _
      · exact (h.cancelCrawl x.key).resumeCrawl (h.crawl x hx howns) _
  · exact h

theorem Owned.retireWork (userId : Nat) : Owned (c.retireWork userId) resets least :=
  ⟨h.epoch, h.drainIds, h.crawlIds, h.drain, h.crawl⟩

end

theorem reset_epoch (c : Coordinator) (userId : Option Nat) (epoch : Nat) :
    c.invalidatedThroughAccountEpoch ≤ (c.reset userId epoch).1.invalidatedThroughAccountEpoch ∧
      ((c.reset userId epoch).2 = true →
        (c.reset userId epoch).1.invalidatedThroughAccountEpoch = epoch) := by
  have hretired : ∀ (users : List Nat) (c' : Coordinator),
      (users.foldl Coordinator.retireWork c').invalidatedThroughAccountEpoch =
        c'.invalidatedThroughAccountEpoch := by
    intro users
    induction users with
    | nil => exact fun _ => rfl
    | cons u users ih => exact fun c' => ih (c'.retireWork u)
  unfold Coordinator.reset
  split
  · exact ⟨Nat.le_refl _, fun h => by cases h⟩
  next hepoch =>
    have hle : c.invalidatedThroughAccountEpoch ≤ epoch := Nat.le_of_not_lt hepoch
    dsimp only
    split
    · exact ⟨hle, fun h => by cases h⟩
    cases userId with
    | some =>
      unfold Coordinator.resetUser
      dsimp only
      split
      · exact ⟨hle, fun _ => rfl⟩
      · exact ⟨hle, fun _ => rfl⟩
    | none =>
      unfold Coordinator.resetAll
      have heq := hretired (c.workGenerations.map Prod.fst ++ c.pendingUsers).eraseDups
        { c with invalidatedThroughAccountEpoch := epoch, currentAccountEpoch := none }
      exact ⟨hle.trans_eq heq.symm, fun _ => heq⟩

/-- **A reset that is carried out** stops what runs for its users. -/
theorem Owned.reset (h : Owned c resets least) (userId : Option Nat) (epoch signOut : Nat) :
    Owned (c.reset userId epoch).1
      (if (c.reset userId epoch).2 then ⟨signOut, userId⟩ :: resets else resets) least := by
  have hepoch := Nat.le_trans h.epoch (reset_epoch c userId epoch).1
  revert hepoch
  unfold Coordinator.reset
  split
  · exact fun _ => h
  dsimp only
  split
  · exact fun hepoch => ⟨hepoch, h.drainIds, h.crawlIds, h.drain, h.crawl⟩
  cases userId with
  | some userId =>
    have hcrawl : ∀ x ∈ c.crawls, (x.key, x.ownerId) ∈
        c.metadataCrawlOwners.filter (fun o => o.1.userId != userId) →
          ∀ r ∈ ⟨signOut, some userId⟩ :: resets, r.covers x.key.userId = true →
            r.signOut ≤ x.era := by
      intro x hx hin r hr hcovers
      obtain ⟨hin, hother⟩ := List.mem_filter.1 hin
      rcases List.mem_cons.1 hr with rfl | hr
      · simp [CarriedOut.covers] at hcovers hother
        exact absurd hcovers.symm hother
      · exact h.crawl x hx hin r hr hcovers
    unfold Coordinator.resetUser
    dsimp only
    split
    · next hcurrent =>
        intro hepoch
        refine ⟨hepoch, h.drainIds, h.crawlIds, ?_, hcrawl⟩
        intro d _ howner
        cases howner
    · next hcurrent =>
        intro hepoch
        refine ⟨hepoch, h.drainIds, h.crawlIds, ?_, hcrawl⟩
        intro d hd howner
        obtain ⟨huser, hera⟩ := h.drain d hd howner
        refine ⟨huser, ?_⟩
        intro r hr hcovers
        rcases List.mem_cons.1 hr with rfl | hr
        · -- the user of the reset is not the current one
          simp [CarriedOut.covers] at hcovers
          exact absurd (hcovers ▸ huser) hcurrent
        · exact hera r hr hcovers
  | none =>
    have hretired : ∀ (users : List Nat) (c' : Coordinator), Owned c' resets 0 →
        Owned (users.foldl Coordinator.retireWork c') resets 0 := by
      intro users
      induction users with
      | nil => exact fun _ h' => h'
      | cons u users ih => exact fun c' h' => ih _ (h'.retireWork u)
    have hall := hretired (c.workGenerations.map Prod.fst ++ c.pendingUsers).eraseDups
      { c with invalidatedThroughAccountEpoch := epoch, currentAccountEpoch := none }
      ⟨Nat.zero_le _, h.drainIds, h.crawlIds, h.drain, h.crawl⟩
    intro hepoch
    refine ⟨hepoch, hall.drainIds, hall.crawlIds, ?_, ?_⟩
    · intro d _ howner
      cases howner
    · intro x _ hin
      cases hin

end Coordinator

/-! ## The invariant -/

/-- The operations of the store that were started before the sign-out cannot write. -/
def StoreFenced (s : Device) (signOut : Nat) : Prop :=
  ∀ op ∈ s.storeOperations, op.era < signOut →
    ∃ n, s.invalidatedThroughGeneration = some n ∧ op.operationGeneration ≤ n

def ClientFenced (s : Device) (signOut generation : Nat) : Prop :=
  ∀ op ∈ s.clientOperations, op.era < signOut → op.operationGeneration < generation

def PurgeFenced (s : Device) (p : Purge) : Prop :=
  match p.stage with
  | .draining retiring =>
    ∀ op ∈ s.storeOperations, op.era < p.signOut → op.operationGeneration ≤ retiring
  | .calling => StoreFenced s p.signOut
  | .remote _ => StoreFenced s p.signOut ∧ ClientFenced s p.signOut s.clientGeneration
  | .resetting _ epoch _ =>
    StoreFenced s p.signOut ∧ ClientFenced s p.signOut epoch ∧ epoch ≤ s.clientGeneration
  | .purging _ => StoreFenced s p.signOut ∧ ClientFenced s p.signOut s.clientGeneration
  | .resuming _ => True
  | .over => True

/-- The operations that were started before the sign-out cannot write. -/
structure Past (s : Device) (signOut : Nat) : Prop where
  le : signOut ≤ s.signOuts
  store : StoreFenced s signOut
  client : ClientFenced s signOut s.clientGeneration

structure Sound (s : Device) : Prop where
  store : ∀ op ∈ s.storeOperations, op.operationGeneration ≤ s.storeGeneration ∧ op.era ≤ s.signOuts
  client : ∀ op ∈ s.clientOperations,
    op.operationGeneration ≤ s.clientGeneration ∧ op.era ≤ s.signOuts
  clears : ∀ k ∈ s.clearAlls, Past s k
  cleared : Past s s.cleared
  purges : ∀ p ∈ s.purges, p.signOut ≤ s.signOuts ∧ PurgeFenced s p
  transitions : ∀ t ∈ s.transitions, t.signOut ≤ s.signOuts ∧
    t.invalidatingAccountEpoch ≤ s.clientGeneration ∧
    ClientFenced s t.signOut t.invalidatingAccountEpoch
  resets : ∀ r ∈ s.resets, r.signOut ≤ s.signOuts ∧
    ClientFenced s r.signOut s.coordinator.invalidatedThroughAccountEpoch
  owned : Owned s.coordinator s.resets s.coordinator.invalidatedThroughAccountEpoch
  writes : NoMailLeft s

/-- The device goes on: generations, the fence and the number of sign-outs grow, and operations
that are new are of the era. -/
structure Later (s s' : Device) : Prop where
  signOuts : s.signOuts ≤ s'.signOuts
  storeGeneration : s.storeGeneration ≤ s'.storeGeneration
  clientGeneration : s.clientGeneration ≤ s'.clientGeneration
  fence : ∀ n, s.invalidatedThroughGeneration = some n →
    ∃ n', s'.invalidatedThroughGeneration = some n' ∧ n ≤ n'
  store : ∀ op' ∈ s'.storeOperations,
    (∃ op ∈ s.storeOperations, op.operationGeneration = op'.operationGeneration ∧
      op.era = op'.era) ∨
    (op'.operationGeneration ≤ s'.storeGeneration ∧ op'.era = s.signOuts)
  client : ∀ op' ∈ s'.clientOperations, op' ∈ s.clientOperations ∨
    (op'.operationGeneration ≤ s'.clientGeneration ∧ op'.era = s.signOuts)

variable {k : Nat}

section Later

variable {s s' : Device}

theorem later_of_eq (hsignOuts : s'.signOuts = s.signOuts)
    (hstoreGeneration : s'.storeGeneration = s.storeGeneration)
    (hclientGeneration : s'.clientGeneration = s.clientGeneration)
    (hfence : s'.invalidatedThroughGeneration = s.invalidatedThroughGeneration)
    (hstore : s'.storeOperations = s.storeOperations)
    (hclient : s'.clientOperations = s.clientOperations) : Later s s' := by
  refine ⟨hsignOuts.ge, hstoreGeneration.ge, hclientGeneration.ge, ?_, ?_, ?_⟩
  · exact fun n hn => ⟨n, hfence.trans hn, Nat.le_refl n⟩
  · exact fun op hop => Or.inl ⟨op, hstore ▸ hop, rfl, rfl⟩
  · exact fun op hop => Or.inl (hclient ▸ hop)

theorem Later.storeFenced (l : Later s s') (hk : k ≤ s.signOuts)
    (h : StoreFenced s k) : StoreFenced s' k := by
  intro op' hop' hera
  rcases l.store op' hop' with ⟨op, hop, hgen, hsame⟩ | ⟨_, hnew⟩
  · obtain ⟨n, hn, hle⟩ := h op hop (hsame ▸ hera)
    obtain ⟨n', hn', hle'⟩ := l.fence n hn
    exact ⟨n', hn', by omega⟩
  · omega

theorem Later.clientFenced (l : Later s s') {g g' : Nat} (hk : k ≤ s.signOuts) (hg : g ≤ g')
    (h : ClientFenced s k g) : ClientFenced s' k g' := by
  intro op hop hera
  rcases l.client op hop with hop | ⟨_, hnew⟩
  · exact Nat.lt_of_lt_of_le (h op hop hera) hg
  · omega

theorem Later.past (l : Later s s') (h : Past s k) : Past s' k :=
  ⟨Nat.le_trans h.le l.signOuts, l.storeFenced h.le h.store,
    l.clientFenced h.le l.clientGeneration h.client⟩

theorem Later.purgeFenced (l : Later s s') {p : Purge} (hp : p.signOut ≤ s.signOuts)
    (h : PurgeFenced s p) : PurgeFenced s' p := by
  unfold PurgeFenced at *
  split
  · next retiring hstage =>
      simp only [hstage] at h
      intro op' hop' hera
      rcases l.store op' hop' with ⟨op, hop, hgen, hsame⟩ | ⟨_, hnew⟩
      · have hle := h op hop (hsame ▸ hera)
        omega
      · omega
  · next hstage =>
      simp only [hstage] at h
      exact l.storeFenced hp h
  · next hstage =>
      simp only [hstage] at h
      exact ⟨l.storeFenced hp h.1, l.clientFenced hp l.clientGeneration h.2⟩
  · next hstage =>
      simp only [hstage] at h
      exact ⟨l.storeFenced hp h.1, l.clientFenced hp (Nat.le_refl _) h.2.1,
        Nat.le_trans h.2.2 l.clientGeneration⟩
  · next hstage =>
      simp only [hstage] at h
      exact ⟨l.storeFenced hp h.1, l.clientFenced hp l.clientGeneration h.2⟩
  · trivial
  · trivial

/-- **What a step has to show**: that the device goes on, and what is new in it. -/
theorem Sound.later (h : Sound s) (l : Later s s')
    (hclears : ∀ k ∈ s'.clearAlls, k ∈ s.clearAlls ∨ Past s' k)
    (hcleared : s'.cleared = s.cleared ∨ Past s' s'.cleared)
    (hpurges : ∀ p ∈ s'.purges, p ∈ s.purges ∨ (p.signOut ≤ s'.signOuts ∧ PurgeFenced s' p))
    (htransitions : ∀ t ∈ s'.transitions, t ∈ s.transitions ∨ (t.signOut ≤ s'.signOuts ∧
      t.invalidatingAccountEpoch ≤ s'.clientGeneration ∧
      ClientFenced s' t.signOut t.invalidatingAccountEpoch))
    (hresets : ∀ r ∈ s'.resets, r ∈ s.resets ∨ (r.signOut ≤ s'.signOuts ∧
      ClientFenced s' r.signOut s'.coordinator.invalidatedThroughAccountEpoch))
    (howned : Owned s'.coordinator s'.resets s.coordinator.invalidatedThroughAccountEpoch)
    (hwrites : NoMailLeft s') : Sound s' := by
  refine ⟨?_, ?_, ?_, ?_, ?_, ?_, ?_, ⟨Nat.le_refl _, howned.drainIds, howned.crawlIds,
    howned.drain, howned.crawl⟩, hwrites⟩
  · intro op' hop'
    rcases l.store op' hop' with ⟨op, hop, hgen, hera⟩ | ⟨hgen, hera⟩
    · obtain ⟨hle, hle'⟩ := h.store op hop
      have hgrows := l.storeGeneration
      have hgrows' := l.signOuts
      omega
    · have hgrows' := l.signOuts
      omega
  · intro op' hop'
    rcases l.client op' hop' with hop | ⟨hgen, hera⟩
    · obtain ⟨hle, hle'⟩ := h.client op' hop
      have hgrows := l.clientGeneration
      have hgrows' := l.signOuts
      omega
    · have hgrows' := l.signOuts
      omega
  · intro k hk
    rcases hclears k hk with hk | hk
    · exact l.past (h.clears k hk)
    · exact hk
  · rcases hcleared with heq | hpast
    · rw [heq]
      exact l.past h.cleared
    · exact hpast
  · intro p hp
    rcases hpurges p hp with hp | hp
    · obtain ⟨hle, hfenced⟩ := h.purges p hp
      exact ⟨Nat.le_trans hle l.signOuts, l.purgeFenced hle hfenced⟩
    · exact hp
  · intro t ht
    rcases htransitions t ht with ht | ht
    · obtain ⟨hle, hle', hfenced⟩ := h.transitions t ht
      exact ⟨Nat.le_trans hle l.signOuts, Nat.le_trans hle' l.clientGeneration,
        l.clientFenced hle (Nat.le_refl _) hfenced⟩
    · exact ht
  · intro r hr
    rcases hresets r hr with hr | hr
    · obtain ⟨hle, hfenced⟩ := h.resets r hr
      exact ⟨Nat.le_trans hle l.signOuts, l.clientFenced hle howned.epoch hfenced⟩
    · exact hr

theorem Sound.quiet (h : Sound s) (l : Later s s') (hclears : s'.clearAlls = s.clearAlls)
    (hcleared : s'.cleared = s.cleared) (hpurges : s'.purges = s.purges)
    (htransitions : s'.transitions = s.transitions) (hresets : s'.resets = s.resets)
    (hcoordinator : s'.coordinator = s.coordinator) (hwrites : s'.writes = s.writes) :
    Sound s' := by
  refine h.later l ?_ (Or.inl hcleared) ?_ ?_ ?_ ?_ ?_
  · exact fun k hk => Or.inl (hclears ▸ hk)
  · exact fun p hp => Or.inl (hpurges ▸ hp)
  · exact fun t ht => Or.inl (htransitions ▸ ht)
  · exact fun r hr => Or.inl (hresets ▸ hr)
  · rw [hcoordinator, hresets]
    exact h.owned
  · intro w hw
    exact h.writes w (hwrites ▸ hw)

end Later

/-! ## Writes -/

variable {s : Device}

theorem Sound.write (h : Sound s) {era : Nat} (hera : s.cleared ≤ era) : Sound (s.write era) := by
  refine h.later (later_of_eq rfl rfl rfl rfl rfl rfl) (fun k hk => Or.inl hk) (Or.inl rfl)
    (fun p hp => Or.inl hp) (fun t ht => Or.inl ht) (fun r hr => Or.inl hr) h.owned ?_
  intro w hw
  rcases List.mem_cons.1 hw with rfl | hw
  · exact hera
  · exact h.writes w hw

theorem Sound.performWrite (h : Sound s) {op : StoreOperation} (hop : op ∈ s.storeOperations) :
    Sound (s.performWrite op) := by
  unfold Device.performWrite
  split
  · exact h
  next hfence =>
    apply h.write
    by_contra hlate
    obtain ⟨n, hn, hle⟩ := h.cleared.store op hop (by omega)
    simp [hn, hle] at hfence

theorem Sound.clientWrite (h : Sound s) {op : ClientOperation} (hop : op ∈ s.clientOperations)
    (hcurrent : s.isCurrent op = true) : Sound (s.write op.era) := by
  apply h.write
  by_contra hlate
  have hlt := h.cleared.client op hop (by omega)
  simp only [Device.isCurrent, Bool.and_eq_true, beq_iff_eq] at hcurrent
  omega

variable {i : Nat}

theorem mem_modify {α : Type} {f : α → α} {xs : List α} {x : α}
    (h : x ∈ xs.modify i f) : ∃ y ∈ xs, x = y ∨ (xs[i]? = some y ∧ x = f y) := by
  obtain ⟨j, hj⟩ := List.getElem?_of_mem h
  rw [List.getElem?_modify] at hj
  obtain ⟨y, hy, rfl⟩ := Option.map_eq_some_iff.1 hj
  refine ⟨y, List.mem_of_getElem? hy, ?_⟩
  by_cases hij : i = j
  · subst hij
    exact Or.inr ⟨hy, if_pos rfl⟩
  · exact Or.inl (if_neg hij)

theorem Sound.setStage (h : Sound s) (i : Nat) (stage : StoreStage) :
    Sound (s.setStage i stage) := by
  refine h.quiet ⟨Nat.le_refl _, Nat.le_refl _, Nat.le_refl _,
    fun n hn => ⟨n, hn, Nat.le_refl n⟩, ?_, fun op hop => Or.inl hop⟩ rfl rfl rfl rfl rfl rfl rfl
  intro op' hop'
  obtain ⟨op, hop, rfl | ⟨_, rfl⟩⟩ := mem_modify hop'
  · exact Or.inl ⟨op', hop, rfl, rfl⟩
  · exact Or.inl ⟨op, hop, rfl, rfl⟩

theorem Sound.persist (h : Sound s) (i : Nat) (canPersist : Bool) :
    Sound (s.persist i canPersist) := by
  unfold Device.persist
  split
  · exact h
  next op hop =>
    split
    · exact h.setStage i _
    · split
      · exact h
      · split
        · exact h.setStage i _
        · exact h.setStage i _
    · exact (h.performWrite (List.mem_of_getElem? hop)).setStage i _

/-! ## The coordinator in the device -/

theorem Sound.coordinator (h : Sound s) {c : Coordinator}
    (hc : Owned c s.resets s.coordinator.invalidatedThroughAccountEpoch) :
    Sound { s with coordinator := c } :=
  h.later (later_of_eq rfl rfl rfl rfl rfl rfl) (fun _ hk => Or.inl hk) (Or.inl rfl)
    (fun _ hp => Or.inl hp) (fun _ ht => Or.inl ht) (fun _ hr => Or.inl hr) hc h.writes

theorem Sound.resetCoordinator (h : Sound s) (userId : Option Nat) {epoch signOut : Nat}
    (hle : signOut ≤ s.signOuts) (hfenced : ClientFenced s signOut epoch) :
    Sound (s.resetCoordinator userId epoch signOut) := by
  refine h.later (later_of_eq rfl rfl rfl rfl rfl rfl) (fun _ hk => Or.inl hk) (Or.inl rfl)
    (fun _ hp => Or.inl hp) (fun _ ht => Or.inl ht) ?_ (h.owned.reset userId epoch signOut)
    h.writes
  intro r hr
  obtain ⟨_, hcarried⟩ := reset_epoch s.coordinator userId epoch
  unfold Device.resetCoordinator at hr ⊢
  dsimp only at hr ⊢
  split at hr
  · next hdone =>
      rcases List.mem_cons.1 hr with rfl | hr
      · rw [hcarried hdone]
        exact Or.inr ⟨hle, hfenced⟩
      · exact Or.inl hr
  · exact Or.inl hr

theorem Sound.transition (h : Sound s) : Sound s.transition := by
  unfold Device.transition
  split
  · exact h
  next t ht =>
    obtain ⟨hle, _, hfenced⟩ := h.transitions t (List.mem_of_getElem? ht)
    have hnext : Sound { s with transitionsDone := s.transitionsDone + 1 } :=
      h.quiet (later_of_eq rfl rfl rfl rfl rfl rfl) rfl rfl rfl rfl rfl rfl rfl
    exact hnext.resetCoordinator t.userId hle hfenced

/-- **A step of the client.** What the coordinator observes for an operation that was started
before a reset is of an epoch that the reset has invalidated. -/
theorem Sound.clientStep (h : Sound s) (i : Nat) (step : ClientStep) : Sound (s.client i step) := by
  unfold Device.client
  split
  · exact h
  next op hop =>
    have hmem := List.mem_of_getElem? hop
    split
    · cases step with
      | identify =>
        dsimp only
        split
        · exact h.quiet (later_of_eq rfl rfl rfl rfl rfl rfl) rfl rfl rfl rfl rfl rfl rfl
        · exact h
      | write =>
        dsimp only
        split
        · next hcurrent => exact h.clientWrite hmem hcurrent
        · exact h
      | observe =>
        apply h.coordinator
        apply h.owned.observe
        intro hepoch r hr _
        by_contra hera
        have hlt := (h.resets r hr).2 op hmem (by omega)
        omega
    · exact h

/-- **A step of a drain.** One that owns its work was started after every reset for its user. -/
theorem Sound.drainStep (h : Sound s) {step : DrainStep} (hreset : DrainsReset s (.drain i step)) :
    Sound (s.drain i step) := by
  unfold Device.drain
  split
  · exact h
  next d hd =>
    split
    · exact h
    next hrunning =>
      have hleave : Sound { s with coordinator := s.coordinator.leaveDrain d.ownerId } :=
        h.coordinator (h.owned.leaveDrain d.ownerId)
      cases step with
      | write =>
        dsimp only
        split
        · next howns =>
            apply h.write
            by_contra hlate
            obtain ⟨r, hr, hcovers, hlt⟩ :=
              hreset d hd (by simpa using hrunning) howns (by omega)
            have howner : s.coordinator.drainOwnerId = some d.ownerId := by
              simp only [Coordinator.ownsWork, Bool.and_eq_true, beq_iff_eq] at howns
              exact howns.1.2
            have hle :=
              (h.owned.drain d (List.mem_of_getElem? hd) howner).2 r hr hcovers
            omega
        · exact hleave
      | fail =>
        dsimp only
        split
        · exact h.coordinator (h.owned.pause d.userId)
        · exact hleave
      | leave => exact hleave

theorem Sound.crawlStep (h : Sound s) (i : Nat) (step : CrawlStep) : Sound (s.crawl i step) := by
  unfold Device.crawl
  split
  · exact h
  next x hx =>
    have hmem := List.mem_of_getElem? hx
    cases step with
    | page => exact h.coordinator (h.owned.crawlPage hmem)
    | finish latest => exact h.coordinator (h.owned.finishCrawl hmem latest)

/-! ## Sign-outs -/

theorem invalidate_fence (s : Device) (g : Nat) :
    ∃ n, (s.invalidate g).invalidatedThroughGeneration = some n ∧ g ≤ n ∧
      ∀ m, s.invalidatedThroughGeneration = some m → m ≤ n := by
  unfold Device.invalidate
  cases s.invalidatedThroughGeneration with
  | none => exact ⟨g, rfl, Nat.le_refl g, fun m hm => by cases hm⟩
  | some m₀ =>
    refine ⟨max m₀ g, rfl, Nat.le_max_right m₀ g, ?_⟩
    intro m hm
    obtain rfl := Option.some.inj hm
    exact Nat.le_max_left m₀ g

section

variable (h : Sound s)
include h

/-- **Another token.** The operations of the store and of the client that there are cannot write
any more, and the reset that is scheduled has a later generation. -/
theorem Sound.retired {s' : Device} (hle : s.signOuts ≤ s'.signOuts)
    (hstoreGeneration : s'.storeGeneration = s.storeGeneration + 1)
    (hclientGeneration : s'.clientGeneration = s.clientGeneration + 1)
    (hfence : s'.invalidatedThroughGeneration =
      (s.invalidate s.storeGeneration).invalidatedThroughGeneration)
    (hstore : s'.storeOperations = s.storeOperations)
    (hclient : s'.clientOperations = s.clientOperations)
    (hclears : ∀ k ∈ s'.clearAlls, k ∈ s.clearAlls ∨ k = s'.signOuts)
    (hcleared : s'.cleared = s.cleared) (hpurges : s'.purges = s.purges)
    (htransitions : ∀ t ∈ s'.transitions, t ∈ s.transitions ∨
      (t.signOut = s'.signOuts ∧ t.invalidatingAccountEpoch = s'.clientGeneration))
    (hresets : s'.resets = s.resets) (hcoordinator : s'.coordinator = s.coordinator)
    (hwrites : s'.writes = s.writes) : Sound s' := by
  obtain ⟨n, hn, hge, hmono⟩ := invalidate_fence s s.storeGeneration
  have hn : s'.invalidatedThroughGeneration = some n := hfence.trans hn
  have hbefore : ClientFenced s' s'.signOuts s'.clientGeneration := by
    intro op hop _
    rw [hclient] at hop
    rw [hclientGeneration]
    exact Nat.lt_succ_of_le (h.client op hop).1
  have hpast : Past s' s'.signOuts := by
    refine ⟨Nat.le_refl _, ?_, hbefore⟩
    intro op hop _
    rw [hstore] at hop
    exact ⟨n, hn, Nat.le_trans (h.store op hop).1 hge⟩
  have l : Later s s' := by
    refine ⟨hle, by omega, by omega, ?_, ?_, ?_⟩
    · exact fun m hm => ⟨n, hn, hmono m hm⟩
    · exact fun op hop => Or.inl ⟨op, hstore ▸ hop, rfl, rfl⟩
    · exact fun op hop => Or.inl (hclient ▸ hop)
  refine h.later l ?_ (Or.inl hcleared) ?_ ?_ ?_ ?_ ?_
  · intro k hk
    rcases hclears k hk with hk | rfl
    · exact Or.inl hk
    · exact Or.inr hpast
  · exact fun p hp => Or.inl (hpurges ▸ hp)
  · intro t ht
    rcases htransitions t ht with ht | ⟨hsignOut, hepoch⟩
    · exact Or.inl ht
    · rw [hsignOut, hepoch]
      exact Or.inr ⟨Nat.le_refl _, Nat.le_refl _, hbefore⟩
  · exact fun r hr => Or.inl (hresets ▸ hr)
  · rw [hcoordinator, hresets]
    exact h.owned
  · intro w hw
    exact h.writes w (hwrites ▸ hw)

theorem Sound.updateSessionToken (token : Option (List Char)) (preserving : Bool) :
    Sound (s.updateSessionToken token preserving) := by
  unfold Device.updateSessionToken
  split
  · exact h
  split
  · refine h.retired (Nat.le_succ _) rfl rfl rfl rfl rfl ?_ rfl rfl ?_ rfl rfl rfl
    · intro k hk
      rcases List.mem_append.1 hk with hk | hk
      · exact Or.inl hk
      · exact Or.inr (List.mem_singleton.1 hk)
    · intro t ht
      rcases List.mem_append.1 ht with ht | ht
      · exact Or.inl ht
      · rw [List.mem_singleton] at ht
        subst ht
        exact Or.inr ⟨rfl, rfl⟩
  · refine h.retired (Nat.le_refl _) rfl rfl rfl rfl rfl (fun _ hk => Or.inl hk) rfl rfl ?_ rfl
      rfl rfl
    intro t ht
    rcases List.mem_append.1 ht with ht | ht
    · exact Or.inl ht
    · rw [List.mem_singleton] at ht
      subst ht
      exact Or.inr ⟨rfl, rfl⟩

theorem Sound.clean (hk : Past s k) :
    Sound { s with cleared := max s.cleared k } := by
  refine h.later (later_of_eq rfl rfl rfl rfl rfl rfl) (fun _ hk => Or.inl hk) (Or.inr ?_)
    (fun _ hp => Or.inl hp) (fun _ ht => Or.inl ht) (fun _ hr => Or.inl hr) h.owned h.writes
  have hboth : Past s (max s.cleared k) := by
    rcases Nat.le_total s.cleared k with hle | hle
    · rw [Nat.max_eq_right hle]
      exact hk
    · rw [Nat.max_eq_left hle]
      exact h.cleared
  exact ⟨hboth.le, hboth.store, hboth.client⟩

theorem Sound.clearAll : Sound s.clearAll := by
  unfold Device.clearAll
  split
  · exact h
  next k hk =>
    have hcleaned := h.clean (h.clears k (List.mem_of_getElem? hk))
    exact hcleaned.quiet (later_of_eq rfl rfl rfl rfl rfl rfl) rfl rfl rfl rfl rfl rfl rfl

theorem Sound.transitionAccountOperations (blocked : Bool) :
    Sound (s.transitionAccountOperations blocked) :=
  h.quiet ⟨Nat.le_refl _, Nat.le_refl _, Nat.le_succ _, fun n hn => ⟨n, hn, Nat.le_refl n⟩,
    fun op hop => Or.inl ⟨op, hop, rfl, rfl⟩, fun _ hop => Or.inl hop⟩ rfl rfl rfl rfl rfl rfl rfl

theorem Sound.signOutRemotely (resumeAfterPurge : Bool) :
    Sound (s.signOutRemotely resumeAfterPurge) := by
  refine h.later ⟨Nat.le_succ _, Nat.le_succ _, Nat.le_refl _,
    fun n hn => ⟨n, hn, Nat.le_refl n⟩, fun op hop => Or.inl ⟨op, hop, rfl, rfl⟩,
    fun _ hop => Or.inl hop⟩ (fun _ hk => Or.inl hk) (Or.inl rfl) ?_ (fun _ ht => Or.inl ht)
    (fun _ hr => Or.inl hr) h.owned h.writes
  intro p hp
  rcases List.mem_append.1 hp with hp | hp
  · exact Or.inl hp
  · rw [List.mem_singleton] at hp
    subst hp
    exact Or.inr ⟨Nat.le_refl _, fun op hop _ => (h.store op hop).1⟩

theorem Sound.setPurge {p : Purge} (hp : s.purges[i]? = some p) {stage : PurgeStage}
    (hstage : PurgeFenced s { p with stage := stage }) : Sound (s.setPurge i stage) := by
  refine h.later (later_of_eq rfl rfl rfl rfl rfl rfl) (fun _ hk => Or.inl hk) (Or.inl rfl) ?_
    (fun _ ht => Or.inl ht) (fun _ hr => Or.inl hr) h.owned h.writes
  intro p' hp'
  obtain ⟨p₀, hp₀, rfl | ⟨hi, rfl⟩⟩ := mem_modify hp'
  · exact Or.inl hp₀
  · rw [hp] at hi
    obtain rfl := Option.some.inj hi
    exact Or.inr ⟨(h.purges p hp₀).1, hstage⟩

/-- **A step of a logout, a disconnect or a deletion**: the store is fenced before the client is
called, and the client is before anything is purged. -/
theorem Sound.purge (i : Nat) (storedUserId : Option Nat) (succeeded : Bool) :
    Sound (s.purge i storedUserId succeeded) := by
  unfold Device.purge
  split
  · exact h
  next p hp =>
    obtain ⟨hle, hfenced⟩ := h.purges p (List.mem_of_getElem? hp)
    unfold PurgeFenced at hfenced
    split
    · next retiring hstage =>
        simp only [hstage] at hfenced
        obtain ⟨n, hn, hge, hmono⟩ := invalidate_fence s retiring
        have hraised : Sound (s.invalidate retiring) := by
          refine h.quiet ⟨Nat.le_refl _, Nat.le_refl _, Nat.le_refl _,
            fun m hm => ⟨n, hn, hmono m hm⟩, fun op hop => Or.inl ⟨op, hop, rfl, rfl⟩,
            fun _ hop => Or.inl hop⟩ rfl rfl rfl rfl rfl rfl rfl
        apply hraised.setPurge (p := p) hp
        intro op hop hera
        exact ⟨n, hn, Nat.le_trans (hfenced op hop hera) hge⟩
    · next hstage =>
        simp only [hstage] at hfenced
        apply (h.transitionAccountOperations true).setPurge (p := p) hp
        exact ⟨hfenced, fun op hop _ => Nat.lt_succ_of_le (h.client op hop).1⟩
    · next userId hstage =>
        simp only [hstage] at hfenced
        have hgone : Sound { s.transitionAccountOperations true with
            currentBackendUserId := none
            cachedRemoteImageUserId := none } :=
          (h.transitionAccountOperations true).quiet
            (later_of_eq rfl rfl rfl rfl rfl rfl) rfl rfl rfl rfl rfl rfl rfl
        apply hgone.setPurge (p := p) hp
        exact ⟨hfenced.1, fun op hop _ => Nat.lt_succ_of_le (h.client op hop).1, Nat.le_refl _⟩
    · next userId epoch _ hstage =>
        simp only [hstage] at hfenced
        apply (h.resetCoordinator userId hle hfenced.2.1).setPurge (p := p) hp
        refine ⟨hfenced.1, ?_⟩
        intro op hop hera
        exact Nat.lt_of_lt_of_le (hfenced.2.1 op hop hera) hfenced.2.2
    · next hstage =>
        simp only [hstage] at hfenced
        have hcleaned := h.clean ⟨hle, hfenced.1, hfenced.2⟩
        dsimp only
        split
        · exact (hcleaned.transitionAccountOperations false).setPurge (p := p) hp trivial
        · exact hcleaned.setPurge (p := p) hp trivial
    · have hunblocked : Sound { s with localMailStoreWritesBlocked := false } :=
        h.quiet (later_of_eq rfl rfl rfl rfl rfl rfl) rfl rfl rfl rfl rfl rfl rfl
      exact hunblocked.setPurge (p := p) hp trivial
    · exact h

end

/-! ## Runs -/

theorem Sound.beginStore (h : Sound s) : Sound (s.step .beginStore) := by
  refine h.quiet ⟨Nat.le_refl _, Nat.le_refl _, Nat.le_refl _,
    fun n hn => ⟨n, hn, Nat.le_refl n⟩, ?_, fun _ hop => Or.inl hop⟩ rfl rfl rfl rfl rfl rfl rfl
  intro op hop
  rcases List.mem_append.1 hop with hop | hop
  · exact Or.inl ⟨op, hop, rfl, rfl⟩
  · rw [List.mem_singleton] at hop
    subst hop
    exact Or.inr ⟨Nat.le_refl _, rfl⟩

theorem Sound.beginClient (h : Sound s) : Sound s.beginClient := by
  unfold Device.beginClient
  split
  · exact h
  refine h.quiet ⟨Nat.le_refl _, Nat.le_refl _, Nat.le_refl _,
    fun n hn => ⟨n, hn, Nat.le_refl n⟩, fun op hop => Or.inl ⟨op, hop, rfl, rfl⟩, ?_⟩
    rfl rfl rfl rfl rfl rfl rfl
  intro op hop
  rcases List.mem_append.1 hop with hop | hop
  · exact Or.inl hop
  · rw [List.mem_singleton] at hop
    subst hop
    exact Or.inr ⟨Nat.le_refl _, rfl⟩

theorem sound_step {e : Event} (h : Sound s) (hreset : DrainsReset s e) : Sound (s.step e) := by
  cases e with
  | updateSessionToken token preserving => exact h.updateSessionToken token preserving
  | clearAll => exact h.clearAll
  | beginStore => exact h.beginStore
  | persist i canPersist => exact h.persist i canPersist
  | changeScope =>
    exact h.quiet ⟨Nat.le_refl _, Nat.le_succ _, Nat.le_refl _,
      fun n hn => ⟨n, hn, Nat.le_refl n⟩, fun op hop => Or.inl ⟨op, hop, rfl, rfl⟩,
      fun _ hop => Or.inl hop⟩ rfl rfl rfl rfl rfl rfl rfl
  | beginClient => exact h.beginClient
  | client i step => exact h.clientStep i step
  | transition => exact h.transition
  | drain => exact h.drainStep hreset
  | crawl i step => exact h.crawlStep i step
  | signOutRemotely resumeAfterPurge => exact h.signOutRemotely resumeAfterPurge
  | purge i storedUserId succeeded => exact h.purge i storedUserId succeeded

theorem sound_launch (sessionToken : Option (List Char)) (restoredUserId : Option Nat) :
    Sound (.launch sessionToken restoredUserId) := by
  have hnone : ∀ (k g : Nat), ClientFenced (.launch sessionToken restoredUserId) k g :=
    fun _ _ op hop => by cases hop
  refine ⟨?_, ?_, ?_, ⟨Nat.le_refl _, ?_, hnone _ _⟩, ?_, ?_, ?_,
    ⟨Nat.le_refl _, ?_, ?_, ?_, ?_⟩, ?_⟩
  all_goals
    intro x hx
    cases hx

theorem drainsReset_of_noMailLeft {e : Event} (h : NoMailLeft (s.step e)) : DrainsReset s e := by
  cases e with
  | drain i step =>
    cases step with
    | write =>
      intro d hd hrunning howns hlate
      have hwritten : s.step (.drain i .write) = s.write d.era := by
        have hd : s.coordinator.drains[i]? = some d := hd
        show s.drain i .write = _
        unfold Device.drain
        simp only [hd, hrunning, howns, if_true, Bool.false_eq_true, if_false]
      rw [hwritten] at h
      have hle : s.cleared ≤ d.era := h ⟨d.era, s.cleared⟩ List.mem_cons_self
      omega
    | fail | leave => trivial
  | updateSessionToken _ _ | clearAll | beginStore | persist _ _ | changeScope | beginClient
  | client _ _ | transition | crawl _ _ | signOutRemotely _ | purge => trivial

/-- **Sign-out leaves no mail**, in the runs in which the drains that go on after the clean-up of
a sign-out have been reset: no operation writes then that was started before it. The store and
the client keep that in any run. -/
theorem no_mail_left (sessionToken : Option (List Char)) (restoredUserId : Option Nat)
    (events : List Event) :
    Throughout Device.step NoMailLeft (.launch sessionToken restoredUserId) events ↔
      Along Device.step DrainsReset (.launch sessionToken restoredUserId) events :=
  throughout_iff_along (fun _ hs => hs.writes) (fun _ _ hs hreset => sound_step hs hreset)
    (fun _ _ _ hnext => drainsReset_of_noMailLeft hnext)
    (sound_launch sessionToken restoredUserId)

/-- A refresh and a drain are under way when the token is cleared, and go on after the reset and
the clean-up; then the account is deleted after another sign-in. -/
example : Along Device.step DrainsReset (.launch (some ['t']) (some 7))
    [.beginStore, .beginClient, .client 0 (.observe 7 .prioritized), .drain 0 .write,
      .persist 0 true, .updateSessionToken none false, .transition, .clearAll,
      .drain 0 .write, .client 0 .write, .persist 0 true, .persist 0 true,
      .updateSessionToken (some ['u']) false, .transition, .beginClient,
      .client 1 (.identify 8), .client 1 .write, .signOutRemotely false,
      .purge 0 none true, .purge 0 none true, .purge 0 none true, .purge 0 none true,
      .purge 0 none true, .client 1 .write] := by
  decide +kernel

/-- A drain is under way when the token is cleared. The clean-up finishes before the reset of
the coordinator, which has been scheduled beside it, and then the response of the drain arrives. -/
theorem drain_writes_after_clearAll :
    ¬ Throughout Device.step NoMailLeft (.launch (some ['t']) (some 7))
      [.beginClient, .client 0 (.observe 7 .prioritized), .updateSessionToken none false,
        .clearAll, .drain 0 .write] := by
  intro h
  have hlast := h.last ⟨0, 1⟩ (by decide +kernel)
  revert hlast
  decide

end ElectronicMail.SignOut
