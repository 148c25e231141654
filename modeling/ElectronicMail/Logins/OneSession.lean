import Mathlib.Data.List.Nodup
import ElectronicMail.Logins.Handoffs

/-!
# One login code, one session

A call writes rows only that it has locked, and what it has checked under its locks still holds
when it commits (`Moves.rows`). Consumed codes stay consumed and a consumed handoff stays consumed
until it is created again, so that no code and no creation is consumed twice (`Moves.quiet`,
`Moves.consume`, `Moves.issue`).
-/

namespace ElectronicMail.Logins

open Foundations

variable {L : Library}

/-! ## Invariants -/

def Phase.created : Phase → Option String
  | .finished (.createMobileOauthHandoff handoffId _ _ _ _) .done => some handoffId
  | _ => none

def Checked (L : Library) (s : State) : Phase → Prop
  | .writing (.createMobileCode code _ _) => s.codes (L.hashToken code) = none
  | .eligible exchange _ => (s.handoffs exchange.handoffId).any (exchange.accepts L) = true
  | .consuming exchange => (s.handoffs exchange.handoffId).any (exchange.accepts L) = true ∧
      (s.codes (exchange.codeHash L)).any (LoginCode.isOpen exchange.now) = true
  | _ => True

/-- Locks are exclusive, locked rows are as they have been checked, and a handoff is of the call
that has created it. -/
structure RowsInv (L : Library) (s : State) : Prop where
  codeLocks : ∀ (i j : Nat) (p q : Phase) hash, s.calls[i]? = some p → s.calls[j]? = some q →
    p.lockedCode L = some hash → q.lockedCode L = some hash → i = j
  handoffLocks : ∀ (i j : Nat) (p q : Phase) id, s.calls[i]? = some p → s.calls[j]? = some q →
    p.lockedHandoff = some id → q.lockedHandoff = some id → i = j
  checked : ∀ (i : Nat) p, s.calls[i]? = some p → Checked L s p
  created : ∀ id row, s.handoffs id = some row →
    ∃ p, s.calls[row.creation]? = some p ∧ p.created = some id

/-- The code of a login is consumed, and its handoff is until it is created again. -/
structure Kept (L : Library) (s : State) (login : Login) : Prop where
  code : ∃ row, s.codes (login.exchange.codeHash L) = some row ∧ row.consumedAt ≠ none
  handoff : ∃ row, s.handoffs login.exchange.handoffId = some row ∧
    (row.creation = login.creation → row.consumedAt ≠ none)
  creation : ∃ p, s.calls[login.creation]? = some p ∧ p.created = some login.exchange.handoffId

structure LoginsInv (L : Library) (s : State) : Prop where
  kept : ∀ login ∈ s.consumptions, Kept L s login
  codes : (s.consumptions.map fun login => login.exchange.codeHash L).Nodup
  creations : (s.consumptions.map Login.creation).Nodup
  consumers : ∀ login ∈ s.consumptions,
    s.calls[login.call]? = some (.issuing login.exchange login.creation) ∨
      s.calls[login.call]? = some (.finished (.exchangeMobileCode login.exchange) .consumed)
  issuing : ∀ (i : Nat) exchange creation, s.calls[i]? = some (.issuing exchange creation) →
    ⟨i, exchange, creation⟩ ∈ s.consumptions
  issued : ∀ login ∈ s.sessions, login ∈ s.consumptions ∧
    s.calls[login.call]? = some (.finished (.exchangeMobileCode login.exchange) .consumed)
  sessions : s.sessions.Nodup

theorem rowsInv_start : RowsInv L State.start where
  codeLocks := by simp [State.start]
  handoffLocks := by simp [State.start]
  checked := by simp [State.start]
  created := by simp [State.start]

theorem loginsInv_start : LoginsInv L State.start where
  kept := by simp [State.start]
  codes := by simp [State.start]
  creations := by simp [State.start]
  consumers := by simp [State.start]
  issuing := by simp [State.start]
  issued := by simp [State.start]
  sessions := by simp [State.start]

/-! ## What a step of a call can do to the rows -/

/-- A call goes from one phase to another. It writes rows that it has locked, and takes free
locks. -/
structure Moves (L : Library) (s t : State) (i : Nat) (old new : Phase) : Prop where
  before : s.calls[i]? = some old
  after : t.calls = s.calls.set i new
  unfinished : old.created = none
  codes : ∀ hash, t.codes hash = s.codes hash ∨ old.lockedCode L = some hash
  handoffs : ∀ id, t.handoffs id = s.handoffs id ∨ old.lockedHandoff = some id
  lockCode : ∀ hash, new.lockedCode L = some hash →
    old.lockedCode L = some hash ∨ s.codeFree L hash = true
  lockHandoff : ∀ id, new.lockedHandoff = some id →
    old.lockedHandoff = some id ∨ s.handoffFree id = true
  checked : Checked L t new
  creations : ∀ id row, t.handoffs id = some row →
    (∃ previous, s.handoffs id = some previous ∧ previous.creation = row.creation) ∨
      (row.creation = i ∧ new.created = some id)
  consumedCodes : ∀ hash row, s.codes hash = some row → row.consumedAt ≠ none →
    ∃ next, t.codes hash = some next ∧ next.consumedAt ≠ none
  consumedHandoffs : ∀ id row, s.handoffs id = some row →
    ∃ next, t.handoffs id = some next ∧
      (next.creation = i ∨
        (next.creation = row.creation ∧ (row.consumedAt ≠ none → next.consumedAt ≠ none)))

section Moves

variable {s t : State} {i : Nat} {old new : Phase}

theorem Moves.calls_self (h : Moves L s t i old new) : t.calls[i]? = some new := by
  rw [h.after]
  exact List.getElem?_set_self (List.getElem?_eq_some_iff.1 h.before).1

theorem Moves.calls_of_ne (h : Moves L s t i old new) {j : Nat} (hne : j ≠ i) :
    t.calls[j]? = s.calls[j]? := by
  rw [h.after]
  exact List.getElem?_set_ne (Ne.symm hne)

theorem locked_ne_of_codeFree {hash : String} (hfree : s.codeFree L hash = true) {j : Nat}
    {p : Phase} (hp : s.calls[j]? = some p) : p.lockedCode L ≠ some hash := by
  have hall := List.all_eq_true.1 hfree p (List.mem_of_getElem? hp)
  exact of_decide_eq_true hall

theorem locked_ne_of_handoffFree {id : String} (hfree : s.handoffFree id = true) {j : Nat}
    {p : Phase} (hp : s.calls[j]? = some p) : p.lockedHandoff ≠ some id := by
  have hall := List.all_eq_true.1 hfree p (List.mem_of_getElem? hp)
  exact of_decide_eq_true hall

section

variable (h : Moves L s t i old new)
include h

variable {q : Phase}

theorem Moves.other_codeLock (hs : RowsInv L s) {j : Nat} (hne : j ≠ i) (hq : s.calls[j]? = some q)
    {hash : String} (hnew : new.lockedCode L = some hash) : q.lockedCode L ≠ some hash := by
  intro hlocked
  rcases h.lockCode hash hnew with hold | hfree
  · exact hne (hs.codeLocks j i q old hash hq h.before hlocked hold)
  · exact locked_ne_of_codeFree hfree hq hlocked

theorem Moves.other_handoffLock (hs : RowsInv L s) {j : Nat} (hne : j ≠ i)
    (hq : s.calls[j]? = some q) {id : String} (hnew : new.lockedHandoff = some id) :
    q.lockedHandoff ≠ some id := by
  intro hlocked
  rcases h.lockHandoff id hnew with hold | hfree
  · exact hne (hs.handoffLocks j i q old id hq h.before hlocked hold)
  · exact locked_ne_of_handoffFree hfree hq hlocked

theorem Moves.checked_other (hs : RowsInv L s) {j : Nat} (hne : j ≠ i) (hq : s.calls[j]? = some q) :
    Checked L t q := by
  have hcodes : ∀ hash, q.lockedCode L = some hash → t.codes hash = s.codes hash := by
    intro hash hlocked
    rcases h.codes hash with hsame | hold
    · exact hsame
    · exact absurd (hs.codeLocks j i q old hash hq h.before hlocked hold) hne
  have hhandoffs : ∀ id, q.lockedHandoff = some id → t.handoffs id = s.handoffs id := by
    intro id hlocked
    rcases h.handoffs id with hsame | hold
    · exact hsame
    · exact absurd (hs.handoffLocks j i q old id hq h.before hlocked hold) hne
  have hchecked := hs.checked j q hq
  cases q with
  | eligible exchange =>
    simp only [Checked] at hchecked ⊢
    rw [hhandoffs exchange.handoffId rfl]
    exact hchecked
  | consuming exchange =>
    simp only [Checked] at hchecked ⊢
    rw [hhandoffs exchange.handoffId rfl, hcodes (exchange.codeHash L) rfl]
    exact hchecked
  | begun _ | scanned | issuing _ _ | finished _ _ => trivial
  | writing operation =>
    cases operation with
    | createMobileCode code =>
      simp only [Checked] at hchecked ⊢
      rw [hcodes (L.hashToken code) rfl]
      exact hchecked
    | createMobileOauthHandoff | consumeMobileOauthHandoff _ _ | exchangeMobileCode _ => trivial

theorem Moves.created {k : Nat} {id : String}
    (hk : ∃ p, s.calls[k]? = some p ∧ p.created = some id) :
    k ≠ i ∧ ∃ p, t.calls[k]? = some p ∧ p.created = some id := by
  obtain ⟨p, hp, hcreated⟩ := hk
  have hne : k ≠ i := by
    rintro rfl
    rw [h.before] at hp
    obtain rfl := Option.some.inj hp
    rw [h.unfinished] at hcreated
    cases hcreated
  exact ⟨hne, p, (h.calls_of_ne hne).trans hp, hcreated⟩

theorem Moves.rows (hs : RowsInv L s) : RowsInv L t := by
  refine ⟨?_, ?_, ?_, ?_⟩
  · intro j k p q hash hp hq hpl hql
    by_cases hj : j = i
    · by_cases hk : k = i
      · rw [hj, hk]
      · subst hj
        rw [h.calls_self] at hp
        obtain rfl := Option.some.inj hp
        rw [h.calls_of_ne hk] at hq
        exact absurd hql (h.other_codeLock hs hk hq hpl)
    · rw [h.calls_of_ne hj] at hp
      by_cases hk : k = i
      · subst hk
        rw [h.calls_self] at hq
        obtain rfl := Option.some.inj hq
        exact absurd hpl (h.other_codeLock hs hj hp hql)
      · rw [h.calls_of_ne hk] at hq
        exact hs.codeLocks j k p q hash hp hq hpl hql
  · intro j k p q id hp hq hpl hql
    by_cases hj : j = i
    · by_cases hk : k = i
      · rw [hj, hk]
      · subst hj
        rw [h.calls_self] at hp
        obtain rfl := Option.some.inj hp
        rw [h.calls_of_ne hk] at hq
        exact absurd hql (h.other_handoffLock hs hk hq hpl)
    · rw [h.calls_of_ne hj] at hp
      by_cases hk : k = i
      · subst hk
        rw [h.calls_self] at hq
        obtain rfl := Option.some.inj hq
        exact absurd hpl (h.other_handoffLock hs hj hp hql)
      · rw [h.calls_of_ne hk] at hq
        exact hs.handoffLocks j k p q id hp hq hpl hql
  · intro j p hp
    by_cases hj : j = i
    · subst hj
      rw [h.calls_self] at hp
      obtain rfl := Option.some.inj hp
      exact h.checked
    · rw [h.calls_of_ne hj] at hp
      exact h.checked_other hs hj hp
  · intro id row hrow
    rcases h.creations id row hrow with ⟨previous, hprevious, hsame⟩ | ⟨hself, hcreated⟩
    · rw [← hsame]
      exact (h.created (hs.created id previous hprevious)).2
    · rw [hself]
      exact ⟨new, h.calls_self, hcreated⟩

end

/-! ## Logins -/

theorem Moves.kept (h : Moves L s t i old new) {login : Login} (hkept : Kept L s login) :
    Kept L t login := by
  obtain ⟨⟨code, hcode, hconsumed⟩, ⟨handoff, hhandoff, hunless⟩, hcreation⟩ := hkept
  obtain ⟨hne, hcreated⟩ := h.created hcreation
  refine ⟨h.consumedCodes _ code hcode hconsumed, ?_, hcreated⟩
  obtain ⟨next, hnext, hafter⟩ := h.consumedHandoffs _ handoff hhandoff
  refine ⟨next, hnext, ?_⟩
  intro hcreation
  rcases hafter with hself | ⟨hsame, hstays⟩
  · exact absurd (hcreation.symm.trans hself) hne
  · exact hstays (hunless (hsame.symm.trans hcreation))

theorem Moves.quiet (h : Moves L s t i old new) (hs : LoginsInv L s)
    (hold : ∀ exchange creation, old ≠ .issuing exchange creation)
    (hconsumed : ∀ exchange, old ≠ .finished (.exchangeMobileCode exchange) .consumed)
    (hnew : ∀ exchange creation, new ≠ .issuing exchange creation)
    (hconsumptions : t.consumptions = s.consumptions) (hsessions : t.sessions = s.sessions) :
    LoginsInv L t := by
  have hother : ∀ login ∈ s.consumptions, login.call ≠ i := by
    rintro login hlogin rfl
    rcases hs.consumers login hlogin with hcall | hcall
    · exact hold _ _ (Option.some.inj (h.before.symm.trans hcall))
    · exact hconsumed _ (Option.some.inj (h.before.symm.trans hcall))
  refine ⟨?_, ?_, ?_, ?_, ?_, ?_, ?_⟩
  · intro login hlogin
    rw [hconsumptions] at hlogin
    exact h.kept (hs.kept login hlogin)
  · rw [hconsumptions]
    exact hs.codes
  · rw [hconsumptions]
    exact hs.creations
  · intro login hlogin
    rw [hconsumptions] at hlogin
    rw [h.calls_of_ne (hother login hlogin)]
    exact hs.consumers login hlogin
  · intro j exchange creation hj
    rw [hconsumptions]
    by_cases hji : j = i
    · subst hji
      rw [h.calls_self] at hj
      exact absurd (Option.some.inj hj) (hnew exchange creation)
    · rw [h.calls_of_ne hji] at hj
      exact hs.issuing j exchange creation hj
  · intro login hlogin
    rw [hsessions] at hlogin
    obtain ⟨hin, hcall⟩ := hs.issued login hlogin
    rw [hconsumptions, h.calls_of_ne (hother login hin)]
    exact ⟨hin, hcall⟩
  · rw [hsessions]
    exact hs.sessions

variable {exchange : Exchange}

theorem Moves.consume {creation : Nat}
    (h : Moves L s t i (.consuming exchange) (.issuing exchange creation)) (hs : LoginsInv L s)
    {code : LoginCode} (hcode : s.codes (exchange.codeHash L) = some code)
    (hunusedCode : code.consumedAt = none) {handoff : Handoff}
    (hhandoff : s.handoffs exchange.handoffId = some handoff)
    (hcreation : handoff.creation = creation) (hunusedHandoff : handoff.consumedAt = none)
    (hkept : Kept L t ⟨i, exchange, creation⟩)
    (hcreated : ∃ p, s.calls[creation]? = some p ∧ p.created = some exchange.handoffId)
    (hconsumptions : t.consumptions = ⟨i, exchange, creation⟩ :: s.consumptions)
    (hsessions : t.sessions = s.sessions) : LoginsInv L t := by
  have hother : ∀ login ∈ s.consumptions, login.call ≠ i := by
    rintro login hlogin rfl
    rcases hs.consumers login hlogin with hcall | hcall
    · cases Option.some.inj (h.before.symm.trans hcall)
    · cases Option.some.inj (h.before.symm.trans hcall)
  refine ⟨?_, ?_, ?_, ?_, ?_, ?_, ?_⟩
  · intro login hlogin
    rw [hconsumptions] at hlogin
    rcases List.mem_cons.1 hlogin with rfl | hlogin
    · exact hkept
    · exact h.kept (hs.kept login hlogin)
  · rw [hconsumptions, List.map_cons, List.nodup_cons]
    refine ⟨?_, hs.codes⟩
    intro hin
    obtain ⟨login, hlogin, hhash⟩ := List.mem_map.1 hin
    obtain ⟨row, hrow, hconsumed⟩ := (hs.kept login hlogin).code
    rw [hhash, hcode] at hrow
    obtain rfl := Option.some.inj hrow
    exact hconsumed hunusedCode
  · rw [hconsumptions, List.map_cons, List.nodup_cons]
    refine ⟨?_, hs.creations⟩
    intro hin
    obtain ⟨login, hlogin, hsame⟩ := List.mem_map.1 hin
    obtain ⟨-, ⟨row, hrow, hconsumed⟩, p, hp, hpcreated⟩ := hs.kept login hlogin
    obtain ⟨q, hq, hqcreated⟩ := hcreated
    -- a creation has one handoff
    rw [hsame] at hp
    obtain rfl := Option.some.inj (hp.symm.trans hq)
    have hid := Option.some.inj (hpcreated.symm.trans hqcreated)
    rw [hid, hhandoff] at hrow
    obtain rfl := Option.some.inj hrow
    exact hconsumed (hcreation.trans hsame.symm) hunusedHandoff
  · intro login hlogin
    rw [hconsumptions] at hlogin
    rcases List.mem_cons.1 hlogin with rfl | hlogin
    · exact .inl h.calls_self
    · rw [h.calls_of_ne (hother login hlogin)]
      exact hs.consumers login hlogin
  · intro j exchange' creation' hj
    rw [hconsumptions]
    by_cases hji : j = i
    · subst hji
      rw [h.calls_self] at hj
      obtain ⟨rfl, rfl⟩ := Phase.issuing.inj (Option.some.inj hj)
      exact List.mem_cons_self ..
    · rw [h.calls_of_ne hji] at hj
      exact List.mem_cons_of_mem _ (hs.issuing j exchange' creation' hj)
  · intro login hlogin
    rw [hsessions] at hlogin
    obtain ⟨hin, hcall⟩ := hs.issued login hlogin
    rw [hconsumptions, h.calls_of_ne (hother login hin)]
    exact ⟨List.mem_cons_of_mem _ hin, hcall⟩
  · rw [hsessions]
    exact hs.sessions

theorem Moves.issue {creation : Nat} (h : Moves L s t i (.issuing exchange creation)
      (.finished (.exchangeMobileCode exchange) .consumed)) (hs : LoginsInv L s)
    (hconsumptions : t.consumptions = s.consumptions) (hsessions : t.sessions = s.sessions ∨
      t.sessions = ⟨i, exchange, creation⟩ :: s.sessions) : LoginsInv L t := by
  have hself : ⟨i, exchange, creation⟩ ∈ s.consumptions := hs.issuing i exchange creation h.before
  have hunissued : ∀ login ∈ s.sessions, login.call ≠ i := by
    rintro login hlogin rfl
    cases Option.some.inj (h.before.symm.trans (hs.issued login hlogin).2)
  have hmine : ∀ login ∈ s.consumptions, login.call = i → login.exchange = exchange := by
    rintro login hlogin rfl
    rcases hs.consumers login hlogin with hcall | hcall
    · exact (Phase.issuing.inj (Option.some.inj (h.before.symm.trans hcall))).1.symm
    · cases Option.some.inj (h.before.symm.trans hcall)
  refine ⟨?_, ?_, ?_, ?_, ?_, ?_, ?_⟩
  · intro login hlogin
    rw [hconsumptions] at hlogin
    exact h.kept (hs.kept login hlogin)
  · rw [hconsumptions]
    exact hs.codes
  · rw [hconsumptions]
    exact hs.creations
  · intro login hlogin
    rw [hconsumptions] at hlogin
    by_cases hcall : login.call = i
    · rw [hmine login hlogin hcall, hcall]
      exact .inr h.calls_self
    · rw [h.calls_of_ne hcall]
      exact hs.consumers login hlogin
  · intro j exchange' creation' hj
    rw [hconsumptions]
    by_cases hji : j = i
    · subst hji
      rw [h.calls_self] at hj
      cases hj
    · rw [h.calls_of_ne hji] at hj
      exact hs.issuing j exchange' creation' hj
  · have hold : ∀ login ∈ s.sessions, login ∈ t.consumptions ∧ t.calls[login.call]? =
        some (.finished (.exchangeMobileCode login.exchange) .consumed) := by
      intro login hlogin
      rw [hconsumptions, h.calls_of_ne (hunissued login hlogin)]
      exact hs.issued login hlogin
    intro login hlogin
    rcases hsessions with hsame | hissued
    · rw [hsame] at hlogin
      exact hold login hlogin
    · rw [hissued] at hlogin
      rcases List.mem_cons.1 hlogin with rfl | hlogin
      · rw [hconsumptions]
        exact ⟨hself, h.calls_self⟩
      · exact hold login hlogin
  · rcases hsessions with hsame | hissued
    · rw [hsame]
      exact hs.sessions
    · rw [hissued, List.nodup_cons]
      exact ⟨fun hin => hunissued _ hin rfl, hs.sessions⟩

end Moves

/-! ## Steps -/

section Steps

variable {s : State} {i : Nat} {old new : Phase}

theorem Moves.go (hbefore : s.calls[i]? = some old) (hunfinished : old.created = none)
    (hlockCode : ∀ hash, new.lockedCode L = some hash →
      old.lockedCode L = some hash ∨ s.codeFree L hash = true)
    (hlockHandoff : ∀ id, new.lockedHandoff = some id →
      old.lockedHandoff = some id ∨ s.handoffFree id = true)
    (hchecked : Checked L s new) : Moves L s (s.go i new) i old new where
  before := hbefore
  after := rfl
  unfinished := hunfinished
  codes := fun _ => .inl rfl
  handoffs := fun _ => .inl rfl
  lockCode := hlockCode
  lockHandoff := hlockHandoff
  checked := hchecked
  creations := fun _ row hrow => .inl ⟨row, hrow, rfl⟩
  consumedCodes := fun _ row hrow hconsumed => ⟨row, hrow, hconsumed⟩
  consumedHandoffs := fun _ row hrow => ⟨row, hrow, .inr ⟨rfl, fun hconsumed => hconsumed⟩⟩

theorem Moves.finish (hbefore : s.calls[i]? = some old) (hunfinished : old.created = none)
    (operation : Operation) (outcome : Outcome) :
    Moves L s (s.finish i operation outcome) i old (.finished operation outcome) := by
  apply Moves.go hbefore hunfinished
  · intro hash hlocked
    cases hlocked
  · intro id hlocked
    cases hlocked
  · trivial

/-- The call goes on without a lock, and every row that it writes is one that it had locked: a
consumed one stays consumed, and a handoff keeps its creation or is one that the call creates. -/
theorem Moves.of_rows {t : State} (hbefore : s.calls[i]? = some old)
    (hafter : t.calls = s.calls.set i new) (hunfinished : old.created = none)
    (hfreeCode : new.lockedCode L = none) (hfreeHandoff : new.lockedHandoff = none)
    (hchecked : Checked L t new)
    (hcodes : ∀ hash, t.codes hash = s.codes hash ∨ (old.lockedCode L = some hash ∧
      ∀ row, s.codes hash = some row → row.consumedAt ≠ none →
        ∃ next, t.codes hash = some next ∧ next.consumedAt ≠ none))
    (hhandoffs : ∀ id, t.handoffs id = s.handoffs id ∨ (old.lockedHandoff = some id ∧
      ∃ next, t.handoffs id = some next ∧ ((next.creation = i ∧ new.created = some id) ∨
        ∃ row, s.handoffs id = some row ∧ row.creation = next.creation ∧
          (row.consumedAt ≠ none → next.consumedAt ≠ none)))) : Moves L s t i old new where
  before := hbefore
  after := hafter
  unfinished := hunfinished
  codes := fun hash => (hcodes hash).imp_right And.left
  handoffs := fun id => (hhandoffs id).imp_right And.left
  lockCode := by
    intro hash hlocked
    rw [hfreeCode] at hlocked
    cases hlocked
  lockHandoff := by
    intro id hlocked
    rw [hfreeHandoff] at hlocked
    cases hlocked
  checked := hchecked
  creations := by
    intro id row hrow
    rcases hhandoffs id with hsame | ⟨-, next, hnext, hkept⟩
    · exact .inl ⟨row, hsame.symm.trans hrow, rfl⟩
    · obtain rfl := Option.some.inj (hnext.symm.trans hrow)
      rcases hkept with hmine | ⟨previous, hprevious, hcreation, -⟩
      · exact .inr hmine
      · exact .inl ⟨previous, hprevious, hcreation⟩
  consumedCodes := by
    intro hash row hrow hconsumed
    rcases hcodes hash with hsame | ⟨-, hkept⟩
    · exact ⟨row, hsame.trans hrow, hconsumed⟩
    · exact hkept row hrow hconsumed
  consumedHandoffs := by
    intro id row hrow
    rcases hhandoffs id with hsame | ⟨-, next, hnext, hkept⟩
    · exact ⟨row, hsame.trans hrow, .inr ⟨rfl, fun hconsumed => hconsumed⟩⟩
    · refine ⟨next, hnext, hkept.imp And.left ?_⟩
      rintro ⟨previous, hprevious, hcreation, hstays⟩
      obtain rfl := Option.some.inj (hprevious.symm.trans hrow)
      exact ⟨hcreation.symm, hstays⟩

theorem Moves.insertCode {code userId : String} {expiresAt : Nat}
    (hbefore : s.calls[i]? = some (.writing (.createMobileCode code userId expiresAt)))
    (hnone : s.codes (L.hashToken code) = none) :
    Moves L s (s.write L i (.createMobileCode code userId expiresAt)) i
      (.writing (.createMobileCode code userId expiresAt))
      (.finished (.createMobileCode code userId expiresAt) .done) := by
  refine Moves.of_rows hbefore rfl rfl rfl rfl trivial ?_ fun _ => .inl rfl
  intro hash
  by_cases heq : hash = L.hashToken code
  · subst heq
    refine .inr ⟨rfl, fun row hrow => ?_⟩
    rw [hnone] at hrow
    cases hrow
  · exact .inl (Function.update_of_ne heq _ _)

theorem Moves.upsertHandoff {handoffId status : String}
    {loginCodeHash exchangeCodeChallenge : Option String} {expiresAt : Nat}
    (hbefore : s.calls[i]? = some (.writing (.createMobileOauthHandoff handoffId loginCodeHash
      exchangeCodeChallenge status expiresAt))) :
    Moves L s
      (s.write L i (.createMobileOauthHandoff handoffId loginCodeHash exchangeCodeChallenge status
        expiresAt)) i
      (.writing (.createMobileOauthHandoff handoffId loginCodeHash exchangeCodeChallenge status
        expiresAt))
      (.finished (.createMobileOauthHandoff handoffId loginCodeHash exchangeCodeChallenge status
        expiresAt) .done) := by
  refine Moves.of_rows hbefore rfl rfl rfl rfl trivial (fun _ => .inl rfl) ?_
  intro id
  by_cases heq : id = handoffId
  · subst heq
    exact .inr ⟨rfl, _, Function.update_self id _ s.handoffs, .inl ⟨rfl, rfl⟩⟩
  · exact .inl (Function.update_of_ne heq _ _)

theorem Moves.consumeHandoff {handoffId : String} {now : Nat} {row : Handoff}
    (hbefore : s.calls[i]? = some (.writing (.consumeMobileOauthHandoff handoffId now)))
    (hrow : s.handoffs handoffId = some row) :
    Moves L s (s.write L i (.consumeMobileOauthHandoff handoffId now)) i
      (.writing (.consumeMobileOauthHandoff handoffId now))
      (.finished (.consumeMobileOauthHandoff handoffId now) .done) := by
  simp only [State.write, hrow]
  refine Moves.of_rows hbefore rfl rfl rfl rfl trivial (fun _ => .inl rfl) ?_
  intro id
  by_cases heq : id = handoffId
  · subst heq
    exact .inr ⟨rfl, _, Function.update_self id _ s.handoffs,
      .inr ⟨row, hrow, rfl, fun _ => Option.some_ne_none _⟩⟩
  · exact .inl (Function.update_of_ne heq _ _)

theorem Moves.consumeBoth {exchange : Exchange} {code : LoginCode} {handoff : Handoff}
    (hbefore : s.calls[i]? = some (.consuming exchange))
    (hcode : s.codes (exchange.codeHash L) = some code)
    (hhandoff : s.handoffs exchange.handoffId = some handoff) :
    Moves L s (s.consume L i exchange) i (.consuming exchange)
      (.issuing exchange handoff.creation) := by
  simp only [State.consume, hcode, hhandoff]
  refine Moves.of_rows hbefore rfl rfl rfl rfl trivial ?_ ?_
  · intro hash
    by_cases heq : hash = exchange.codeHash L
    · subst heq
      exact .inr ⟨rfl, fun _ _ _ =>
        ⟨_, Function.update_self (exchange.codeHash L) _ s.codes, Option.some_ne_none _⟩⟩
    · exact .inl (Function.update_of_ne heq _ _)
  · intro id
    by_cases heq : id = exchange.handoffId
    · subst heq
      exact .inr ⟨rfl, _, Function.update_self exchange.handoffId _ s.handoffs,
        .inr ⟨handoff, hhandoff, rfl, fun _ => Option.some_ne_none _⟩⟩
    · exact .inl (Function.update_of_ne heq _ _)

end Steps

/-! ## Every step -/

def Phase.exchange : Phase → Option Exchange
  | .begun (.exchangeMobileCode exchange) => some exchange
  | .scanned (.exchangeMobileCode exchange) _ _ => some exchange
  | .writing (.exchangeMobileCode exchange) => some exchange
  | .eligible exchange _ => some exchange
  | .consuming exchange => some exchange
  | .issuing exchange _ => some exchange
  | .finished (.exchangeMobileCode exchange) _ => some exchange
  | _ => none

inductive Effect (L : Library) (s t : State) (i : Nat) (old : Phase) : Prop where
  | stays (hsame : t = s)
  | quiet {new : Phase} (hmoves : Moves L s t i old new)
      (hold : ∀ exchange creation, old ≠ .issuing exchange creation)
      (hfinished : ∀ operation outcome, old ≠ .finished operation outcome)
      (hnew : ∀ exchange creation, new ≠ .issuing exchange creation)
      (hconsumptions : t.consumptions = s.consumptions) (hsessions : t.sessions = s.sessions)
      (hrows : old.exchange ≠ none → t.codes = s.codes ∧ t.handoffs = s.handoffs)
  | consume {exchange : Exchange} {code : LoginCode} {handoff : Handoff}
      (hold : old = .consuming exchange)
      (hcode : s.codes (exchange.codeHash L) = some code) (hopen : code.isOpen exchange.now = true)
      (hhandoff : s.handoffs exchange.handoffId = some handoff)
      (haccepts : exchange.accepts L handoff = true) (hafter : t = s.consume L i exchange)
  | issue {exchange : Exchange} {creation : Nat} (access : Bool)
      (hold : old = .issuing exchange creation) (hafter : t = s.issue i exchange creation access)

section Effects

variable {s : State} {i : Nat} {old : Phase}

theorem Effect.finish (hbefore : s.calls[i]? = some old)
    (hold : ∀ exchange creation, old ≠ .issuing exchange creation)
    (hfinished : ∀ operation outcome, old ≠ .finished operation outcome) (operation : Operation)
    (outcome : Outcome) : Effect L s (s.finish i operation outcome) i old := by
  have hunfinished : old.created = none := by
    cases old with
    | finished operation outcome => exact absurd rfl (hfinished operation outcome)
    | begun _ | scanned | writing _ | eligible _ _ | consuming _ | issuing _ _ => rfl
  exact .quiet (Moves.finish hbefore hunfinished operation outcome) hold hfinished
    (fun _ _ => Phase.noConfusion) rfl rfl (fun _ => ⟨rfl, rfl⟩)

theorem Effect.go {new : Phase} (hmoves : Moves L s (s.go i new) i old new)
    (hold : ∀ exchange creation, old ≠ .issuing exchange creation)
    (hfinished : ∀ operation outcome, old ≠ .finished operation outcome)
    (hnew : ∀ exchange creation, new ≠ .issuing exchange creation) :
    Effect L s (s.go i new) i old :=
  .quiet hmoves hold hfinished hnew rfl rfl (fun _ => ⟨rfl, rfl⟩)

variable {operation : Operation}

theorem effect_beginStatement (hbefore : s.calls[i]? = some (.begun operation)) :
    Effect L s (s.beginStatement L i operation) i (.begun operation) := by
  cases operation with
  | createMobileCode code userId expiresAt =>
    simp only [State.beginStatement]
    split
    · next hfree =>
        split
        · exact .finish hbefore (by simp) (by simp) _ _
        next hnone =>
          refine .go (.go hbefore rfl ?_ ?_ ?_) (by simp) (by simp) (by simp)
          · intro hash hlocked
            obtain rfl := Option.some.inj hlocked
            exact .inr hfree
          · intro id hlocked
            cases hlocked
          · simpa [Checked] using hnone
    · exact .stays rfl
  | createMobileOauthHandoff handoffId loginCodeHash challenge status expiresAt =>
    simp only [State.beginStatement]
    split
    · next hfree =>
        refine .go (.go hbefore rfl ?_ ?_ trivial) (by simp) (by simp) (by simp)
        · intro hash hlocked
          cases hlocked
        · intro id hlocked
          obtain rfl := Option.some.inj hlocked
          exact .inr hfree
    · exact .stays rfl
  | consumeMobileOauthHandoff | exchangeMobileCode =>
    refine .go (.go hbefore rfl ?_ ?_ trivial) (by simp) (by simp) (by simp)
    · intro hash hlocked
      cases hlocked
    · intro id hlocked
      cases hlocked

theorem effect_lockScanned (hbefore : s.calls[i]? = some old) (hunfinished : old.created = none)
    (hold : ∀ exchange creation, old ≠ .issuing exchange creation)
    (hfinished : ∀ operation outcome, old ≠ .finished operation outcome) {handoffId : String}
    {scanned : Option Handoff} {condition : Handoff → Bool} {next : Phase}
    (hnext : ∀ exchange creation, next ≠ .issuing exchange creation)
    (hlockCode : next.lockedCode L = none) (hlockHandoff : next.lockedHandoff = some handoffId)
    (hchecked : (s.handoffs handoffId).any condition = true → Checked L s next) :
    Effect L s (s.lockScanned i operation handoffId scanned condition next) i old := by
  unfold State.lockScanned
  split
  · split
    · next hfree =>
        split
        · next hcondition =>
            refine .go (.go hbefore hunfinished ?_ ?_ (hchecked hcondition)) hold hfinished hnext
            · intro hash hlocked
              rw [hlockCode] at hlocked
              cases hlocked
            · intro id hlocked
              rw [hlockHandoff] at hlocked
              obtain rfl := Option.some.inj hlocked
              exact .inr hfree
        · exact .finish hbefore hold hfinished _ _
    · exact .stays rfl
  · exact .finish hbefore hold hfinished _ _

variable {code : Option LoginCode}

theorem effect_scan {handoff : Option Handoff}
    (hbefore : s.calls[i]? = some (.scanned operation handoff code)) :
    Effect L s (s.scan L i handoff code operation) i (.scanned operation handoff code) := by
  cases operation with
  | createMobileCode | createMobileOauthHandoff => exact .stays rfl
  | consumeMobileOauthHandoff =>
    exact effect_lockScanned hbefore rfl (by simp) (by simp) (by simp) rfl rfl
      (fun _ => trivial)
  | exchangeMobileCode =>
    exact effect_lockScanned hbefore rfl (by simp) (by simp) (by simp) rfl rfl
      (fun haccepts => haccepts)

theorem effect_write (hs : RowsInv L s) (hbefore : s.calls[i]? = some (.writing operation)) :
    Effect L s (s.write L i operation) i (.writing operation) := by
  cases operation with
  | createMobileCode =>
    exact .quiet (.insertCode hbefore (hs.checked i _ hbefore)) (by simp) (by simp) (by simp)
      rfl rfl (fun hexchange => absurd rfl hexchange)
  | createMobileOauthHandoff =>
    exact .quiet (.upsertHandoff hbefore) (by simp) (by simp) (by simp) rfl rfl
      (fun hexchange => absurd rfl hexchange)
  | consumeMobileOauthHandoff handoffId now =>
    cases hrow : s.handoffs handoffId with
    | none => exact .stays (by simp [State.write, hrow])
    | some row =>
      refine .quiet (.consumeHandoff hbefore hrow) (by simp) (by simp) (by simp) ?_ ?_
        (fun hexchange => absurd rfl hexchange)
      · simp only [State.write, hrow]
        rfl
      · simp only [State.write, hrow]
        rfl
  | exchangeMobileCode _ => exact .stays rfl

variable {exchange : Exchange}

theorem effect_lockLoginCode (hs : RowsInv L s)
    (hbefore : s.calls[i]? = some (.eligible exchange code)) :
    Effect L s (s.lockLoginCode L i exchange code) i (.eligible exchange code) := by
  unfold State.lockLoginCode
  split
  · split
    · next hfree =>
        split
        · next hopen =>
            refine .go (.go hbefore rfl ?_ ?_ ⟨hs.checked i _ hbefore, hopen⟩) (by simp) (by simp)
              (by simp)
            · intro hash hlocked
              obtain rfl := Option.some.inj hlocked
              exact .inr hfree
            · exact fun id hlocked => .inl hlocked
        · exact .finish hbefore (by simp) (by simp) _ _
    · exact .stays rfl
  · exact .finish hbefore (by simp) (by simp) _ _

theorem effect_consume (hs : RowsInv L s) (hbefore : s.calls[i]? = some (.consuming exchange)) :
    Effect L s (s.consume L i exchange) i (.consuming exchange) := by
  obtain ⟨hhandoff, hcode⟩ := hs.checked i _ hbefore
  obtain ⟨handoff, hhandoff, haccepts⟩ := (Option.any_eq_true _ _).1 hhandoff
  obtain ⟨code, hcode, hopen⟩ := (Option.any_eq_true _ _).1 hcode
  exact .consume rfl hcode hopen hhandoff haccepts rfl

theorem effect_advance (hs : RowsInv L s) (hbefore : s.calls[i]? = some old) (access : Bool) :
    Effect L s (s.advance L i access old) i old := by
  cases old with
  | begun => exact effect_beginStatement hbefore
  | scanned => exact effect_scan hbefore
  | writing => exact effect_write hs hbefore
  | eligible => exact effect_lockLoginCode hs hbefore
  | consuming => exact effect_consume hs hbefore
  | issuing => exact .issue access rfl rfl
  | finished _ _ => exact .stays rfl

theorem effect_lose (hbefore : s.calls[i]? = some old) : Effect L s (s.lose i old) i old := by
  cases old with
  | begun | scanned | writing | eligible | consuming =>
    exact .finish hbefore (by simp) (by simp) _ _
  | issuing => exact .issue false rfl rfl
  | finished _ _ => exact .stays rfl

theorem Effect.inv {t : State} (h : Effect L s t i old) (hbefore : s.calls[i]? = some old)
    (hrows : RowsInv L s) (hlogins : LoginsInv L s) : RowsInv L t ∧ LoginsInv L t := by
  cases h with
  | stays hsame =>
    subst hsame
    exact ⟨hrows, hlogins⟩
  | quiet hmoves hold hfinished hnew hconsumptions hsessions _ =>
    exact ⟨hmoves.rows hrows,
      hmoves.quiet hlogins hold (fun _ => hfinished _ _) hnew hconsumptions hsessions⟩
  | @consume exchange code handoff hold hcode hopen hhandoff haccepts hafter =>
    subst hold hafter
    have hmoves := Moves.consumeBoth hbefore hcode hhandoff
    have hunusedCode : code.consumedAt = none := by
      simp only [LoginCode.isOpen, Bool.and_eq_true, Option.isNone_iff_eq_none] at hopen
      exact hopen.1
    have hunusedHandoff : handoff.consumedAt = none := by
      simp only [Exchange.accepts, Handoff.isOpen, Bool.and_eq_true,
        Option.isNone_iff_eq_none] at haccepts
      exact haccepts.1.1.2.1
    have hcreated := hrows.created _ handoff hhandoff
    have hkept : Kept L (s.consume L i exchange) ⟨i, exchange, handoff.creation⟩ := by
      refine ⟨?_, ?_, (hmoves.created hcreated).2⟩
      · simp only [State.consume, hcode, hhandoff]
        exact ⟨_, Function.update_self (exchange.codeHash L) _ s.codes, Option.some_ne_none _⟩
      · simp only [State.consume, hcode, hhandoff]
        exact ⟨_, Function.update_self exchange.handoffId _ s.handoffs,
          fun _ => Option.some_ne_none _⟩
    refine ⟨hmoves.rows hrows, hmoves.consume hlogins hcode hunusedCode hhandoff rfl
      hunusedHandoff hkept hcreated ?_ ?_⟩
    · simp only [State.consume, hcode, hhandoff]
    · simp only [State.consume, hcode, hhandoff]
      rfl
  | @issue exchange creation access hold hafter =>
    subst hold hafter
    have hmoves : Moves L s (s.issue i exchange creation access) i (.issuing exchange creation)
        (.finished (.exchangeMobileCode exchange) .consumed) := by
      have hends := Moves.finish (L := L) hbefore rfl (.exchangeMobileCode exchange) .consumed
      cases access with
      | false => exact hends
      | true =>
        exact ⟨hends.before, hends.after, rfl, hends.codes, hends.handoffs, hends.lockCode,
          hends.lockHandoff, trivial, hends.creations, hends.consumedCodes,
          hends.consumedHandoffs⟩
    refine ⟨hmoves.rows hrows, hmoves.issue hlogins ?_ ?_⟩
    · cases access <;> rfl
    · cases access with
      | true => exact .inr rfl
      | false => exact .inl rfl

end Effects

/-! ## Runs -/

/-- What a step of an exchange does: it leaves the rows as they are, and may issue a session for
what it has consumed; or it consumes the code and the handoff, which have been open until then and
answer to each other and to the verifier. -/
def Lawful (L : Library) (s t : State) (i : Nat) (exchange : Exchange) : Prop :=
  (t.codes = s.codes ∧ t.handoffs = s.handoffs ∧ t.consumptions = s.consumptions ∧
    (t.sessions = s.sessions ∨ ∃ creation, ⟨i, exchange, creation⟩ ∈ s.consumptions ∧
      t.sessions = ⟨i, exchange, creation⟩ :: s.sessions)) ∨
  ∃ code handoff, s.codes (exchange.codeHash L) = some code ∧
    code.isOpen exchange.now = true ∧
    s.handoffs exchange.handoffId = some handoff ∧ exchange.accepts L handoff = true ∧
    t.codes (exchange.codeHash L) = some { code with consumedAt := some exchange.now } ∧
    t.handoffs exchange.handoffId = some { handoff with consumedAt := some exchange.now } ∧
    t.consumptions = ⟨i, exchange, handoff.creation⟩ :: s.consumptions ∧
    t.sessions = s.sessions

/-- A step of a call that is no exchange consumes no code and issues no session. -/
def Idle (s t : State) : Prop := t.consumptions = s.consumptions ∧ t.sessions = s.sessions

def Conforms (L : Library) (s t : State) (i : Nat) : Prop :=
  ∀ phase, s.calls[i]? = some phase →
    match phase.exchange with
    | some exchange => Lawful L s t i exchange
    | none => Idle s t

def Sound (L : Library) (s : State) : Event → Prop
  | .call operation => Idle s (step L s (.call operation))
  | .advance i access => Conforms L s (step L s (.advance i access)) i
  | .lose i => Conforms L s (step L s (.lose i)) i

/-- A code and a creation of a handoff have one session at most; each is of a call that has
consumed them, and a call that has been refused has consumed nothing. -/
structure OneSession (s : State) : Prop where
  codes : (s.sessions.map fun login => login.exchange.code).Nodup
  creations : (s.sessions.map Login.creation).Nodup
  consumed : ∀ login ∈ s.sessions, login ∈ s.consumptions
  refused : ∀ (i : Nat) (exchange : Exchange),
    s.calls[i]? = some (.finished (.exchangeMobileCode exchange) .refused) →
    ∀ login ∈ s.consumptions, login.call ≠ i

variable {s : State}

theorem Effect.conforms {t : State} {i : Nat} {old : Phase} (h : Effect L s t i old)
    (hbefore : s.calls[i]? = some old) (hlogins : LoginsInv L s) : Conforms L s t i := by
  intro phase hphase
  rw [hbefore] at hphase
  obtain rfl := Option.some.inj hphase
  cases h with
  | stays hsame =>
    subst hsame
    split
    · exact .inl ⟨rfl, rfl, rfl, .inl rfl⟩
    · exact ⟨rfl, rfl⟩
  | quiet hmoves hold hfinished hnew hconsumptions hsessions hrows =>
    split
    · next exchange hexchange =>
        obtain ⟨hcodes, hhandoffs⟩ := hrows (by rw [hexchange]; exact Option.some_ne_none _)
        exact .inl ⟨hcodes, hhandoffs, hconsumptions, .inl hsessions⟩
    · exact ⟨hconsumptions, hsessions⟩
  | @consume exchange code handoff hold hcode hopen hhandoff haccepts hafter =>
    subst hold hafter
    refine .inr ⟨code, handoff, hcode, hopen, hhandoff, haccepts, ?_, ?_, ?_, ?_⟩
    · simp only [State.consume, hcode, hhandoff]
      exact Function.update_self (exchange.codeHash L) _ s.codes
    · simp only [State.consume, hcode, hhandoff]
      exact Function.update_self exchange.handoffId _ s.handoffs
    · simp only [State.consume, hcode, hhandoff]
    · simp only [State.consume, hcode, hhandoff]
      rfl
  | @issue exchange creation access hold hafter =>
    subst hold hafter
    have hin := hlogins.issuing i exchange creation hbefore
    cases access with
    | true => exact .inl ⟨rfl, rfl, rfl, .inr ⟨creation, hin, rfl⟩⟩
    | false => exact .inl ⟨rfl, rfl, rfl, .inl rfl⟩

theorem inv_call (hrows : RowsInv L s) (hlogins : LoginsInv L s) (operation : Operation) :
    RowsInv L (step L s (.call operation)) ∧ LoginsInv L (step L s (.call operation)) := by
  have hcalls : ∀ (j : Nat) (p : Phase), (step L s (.call operation)).calls[j]? = some p →
      s.calls[j]? = some p ∨ p = .begun operation := by
    intro j p hp
    simp only [step, List.getElem?_append] at hp
    split at hp
    · exact .inl hp
    rw [List.getElem?_singleton] at hp
    split at hp
    · exact .inr (Option.some.inj hp).symm
    · cases hp
  have hkeeps : ∀ (j : Nat) (p : Phase), s.calls[j]? = some p →
      (step L s (.call operation)).calls[j]? = some p := by
    intro j p hp
    have hlt := (List.getElem?_eq_some_iff.1 hp).1
    simp only [step]
    rw [List.getElem?_append_left hlt]
    exact hp
  constructor
  · refine ⟨?_, ?_, ?_, ?_⟩
    · intro j k p q hash hp hq hpl hql
      rcases hcalls j p hp with hp | rfl
      · rcases hcalls k q hq with hq | rfl
        · exact hrows.codeLocks j k p q hash hp hq hpl hql
        · cases hql
      · cases hpl
    · intro j k p q id hp hq hpl hql
      rcases hcalls j p hp with hp | rfl
      · rcases hcalls k q hq with hq | rfl
        · exact hrows.handoffLocks j k p q id hp hq hpl hql
        · cases hql
      · cases hpl
    · intro j p hp
      rcases hcalls j p hp with hp | rfl
      · exact hrows.checked j p hp
      · trivial
    · intro id row hrow
      obtain ⟨p, hp, hcreated⟩ := hrows.created id row hrow
      exact ⟨p, hkeeps _ p hp, hcreated⟩
  · refine ⟨?_, hlogins.codes, hlogins.creations, ?_, ?_, ?_, hlogins.sessions⟩
    · intro login hlogin
      obtain ⟨hcode, hhandoff, p, hp, hcreated⟩ := hlogins.kept login hlogin
      exact ⟨hcode, hhandoff, p, hkeeps _ p hp, hcreated⟩
    · intro login hlogin
      rcases hlogins.consumers login hlogin with hcall | hcall
      · exact .inl (hkeeps _ _ hcall)
      · exact .inr (hkeeps _ _ hcall)
    · intro j exchange creation hj
      rcases hcalls j _ hj with hj | hj
      · exact hlogins.issuing j exchange creation hj
      · cases hj
    · intro login hlogin
      obtain ⟨hin, hcall⟩ := hlogins.issued login hlogin
      exact ⟨hin, hkeeps _ _ hcall⟩

theorem inv_step (hrows : RowsInv L s) (hlogins : LoginsInv L s) (event : Event) :
    Sound L s event ∧ RowsInv L (step L s event) ∧ LoginsInv L (step L s event) := by
  cases event with
  | call operation => exact ⟨⟨rfl, rfl⟩, inv_call hrows hlogins operation⟩
  | advance i access =>
    cases hbefore : s.calls[i]? with
    | none =>
      have hsame : step L s (.advance i access) = s := by simp [step, hbefore]
      rw [hsame]
      refine ⟨?_, hrows, hlogins⟩
      intro phase hphase
      rw [hbefore] at hphase
      cases hphase
    | some phase =>
      have hstep : step L s (.advance i access) = s.advance L i access phase := by
        simp [step, hbefore]
      have heffect := effect_advance hrows hbefore access
      rw [← hstep] at heffect
      exact ⟨heffect.conforms hbefore hlogins, heffect.inv hbefore hrows hlogins⟩
  | lose i =>
    cases hbefore : s.calls[i]? with
    | none =>
      have hsame : step L s (.lose i) = s := by simp [step, hbefore]
      rw [hsame]
      refine ⟨?_, hrows, hlogins⟩
      intro phase hphase
      rw [hbefore] at hphase
      cases hphase
    | some phase =>
      have hstep : step L s (.lose i) = s.lose i phase := by simp [step, hbefore]
      have heffect := effect_lose (L := L) hbefore
      rw [← hstep] at heffect
      exact ⟨heffect.conforms hbefore hlogins, heffect.inv hbefore hrows hlogins⟩

theorem LoginsInv.oneSession (h : LoginsInv L s) : OneSession s where
  codes := by
    apply List.Nodup.map_on ?_ h.sessions
    intro a ha b hb hcode
    have hhash : a.exchange.codeHash L = b.exchange.codeHash L := congrArg L.hashToken hcode
    exact List.inj_on_of_nodup_map h.codes (h.issued a ha).1 (h.issued b hb).1 hhash
  creations := by
    apply List.Nodup.map_on ?_ h.sessions
    intro a ha b hb hcreation
    exact List.inj_on_of_nodup_map h.creations (h.issued a ha).1 (h.issued b hb).1 hcreation
  consumed := fun login hlogin => (h.issued login hlogin).1
  refused := by
    rintro i exchange hrefused login hlogin rfl
    rcases h.consumers login hlogin with hcall | hcall
    · cases Option.some.inj (hrefused.symm.trans hcall)
    · cases Option.some.inj (hrefused.symm.trans hcall)

theorem one_session (L : Library) (events : List Event) :
    Throughout (step L) OneSession .start events ∧ Along (step L) (Sound L) .start events := by
  have hany : Along (step L) (fun _ _ => True) .start events :=
    along_of_forall (fun _ _ => trivial) _ _
  have hstart : RowsInv L State.start ∧ LoginsInv L State.start :=
    ⟨rowsInv_start, loginsInv_start⟩
  constructor
  · have hinv : Throughout (step L) (fun s => RowsInv L s ∧ LoginsInv L s) .start events :=
      throughout_of_step (fun s event h _ => (inv_step h.1 h.2 event).2) hstart hany
    exact hinv.mono fun s h => h.2.oneSession
  · exact along_of_step (I := fun s => RowsInv L s ∧ LoginsInv L s)
      (fun s event h _ => inv_step h.1 h.2 event) hstart hany

/-- A login that nothing disturbs has its session. -/
example :
    (after (step ⟨id, id⟩) .start
      [.call (.createMobileCode "code" "user" 10),
        .call (.createMobileOauthHandoff "handoff" (some "code") (some "verifier") "ready" 10),
        .call (.exchangeMobileCode ⟨"code", "handoff", "verifier", 5⟩),
        .advance 0 true, .advance 0 true, .advance 1 true, .advance 1 true,
        .advance 2 true, .advance 2 true, .advance 2 true, .advance 2 true, .advance 2 true]
      ).sessions = [⟨2, ⟨"code", "handoff", "verifier", 5⟩, 1⟩] := by
  decide +kernel

end ElectronicMail.Logins
