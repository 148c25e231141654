import ElectronicMail.OAuth.Calm

/-!
# No connected account holds a killed grant

`advance_careful` goes through the steps of a process once, with the condition
`GrantSystem.spares` on those that can kill a token in use. `Guarded` is the invariant of
a run: a callback whose grant was killed cannot store it, and a killed token is behind
the disconnect guard or the business of an operation in progress. `noneKilled` is the
result, and `identityRun` a run in which a sign-in that fails kills the stored token of
the account.
-/

namespace ElectronicMail.OAuth

open Foundations
open Foundations.Table
open Jobs (JobStatus)

variable {n : Nat}

structure GrantSystem.Guarded (s : GrantSystem n) : Prop where
  sound : s.Sound
  knows : ∀ i, s.ledger.Knows (s.phase i)
  /-- A callback whose grant was killed is stale, or it is withheld. -/
  waiting : ∀ i c, (s.phase i).waits = some c → c.grant ∈ s.ledger.killed →
    s.ledger.Stale c ∨ ((s.phase i).isChecked = false ∧
      (s.ledger.hasActive c.subject = true ∨ ∃ j, (s.phase j).confirmed = some c.subject))
  /-- When the jobs of a subject are closed, its callbacks are stale. -/
  completing : ∀ j r all, s.phase j = .completing r all → ∀ i c, (s.phase i).waits = some c →
    c.subject = r.subject → c.grant ∈ s.ledger.killed → s.ledger.Stale c
  /-- A killed token is shut. -/
  token : ∀ a ∈ s.ledger.accounts, ∀ g, a.token = some g → g ∈ s.ledger.killed →
    s.ledger.isGuarded a.userId = true ∨ ∃ i, s.ledger.Shut (s.phase i) a

theorem GrantSystem.guarded_start (n : Nat) : (GrantSystem.start n).Guarded where
  sound := GrantSystem.sound_start n
  knows := fun _ => trivial
  waiting := fun _ _ hc => by cases hc
  completing := fun _ _ _ h => by cases h
  token := fun _ ha => by cases ha

variable {ph : GrantPhase} {subject : Subject}

/-! ## One step -/

theorem GrantPhase.confirmed_lock (h : ph.confirmed = some subject) : ph.lock = some subject := by
  cases ph with
  | cleanRecording c | recording => exact h
  | _ => cases h

variable {c : Callback}

theorem GrantPhase.waits_confirmed (h : ph.waits = some c) : ph.confirmed = none := by
  cases ph <;> first | rfl | cases h

theorem GrantPhase.checked_lock (h : ph.waits = some c)
    (hchecked : ph.isChecked = true) : ph.lock = some c.subject := by
  cases ph with
  | colliding | linking | upserting c' | reconnecting => cases h; rfl
  | _ => cases hchecked

variable {s : GrantSystem n}

theorem GrantSystem.Guarded.goto (h : s.Guarded) {i : Fin n} {next : Ledger × GrantPhase}
    (hleads : s.ledger.Leads (s.phase i).lock next) (htakes : TakesFree s.isFree (s.phase i) next.2)
    (hknows : next.1.Knows next.2) (hcareful : Careful s i next) : (s.goto i next).Guarded where
  sound := h.sound.goto hleads htakes
  knows := by
    intro j
    by_cases hji : j = i
    · subst hji
      rw [GrantSystem.goto_phase]
      exact hknows
    · rw [GrantSystem.goto_phase_of_ne s hji]
      refine (h.knows j).keep (h.sound.phase j) hleads.1.2 fun subject hj hi => ?_
      exact hji (h.sound.exclusive j i subject hj hi)
  waiting := by
    have hstale : ∀ c, s.ledger.Stale c → next.1.Stale c := fun c hc =>
      Nat.le_trans hc (hcareful.tombstone c.subject)
    intro j c hc hk
    by_cases hji : j = i
    · subst hji
      rw [GrantSystem.goto_phase] at hc ⊢
      obtain ⟨c₀, hc₀, hg, he, hold, hchecked, hactive⟩ := hcareful.mine c hc hk
      have hsubject : c₀.subject = c.subject := by
        unfold Callback.subject
        rw [hg]
      have hiff : s.ledger.Stale c₀ → s.ledger.Stale c := by
        unfold Ledger.Stale
        rw [he, hsubject]
        exact id
      rcases h.waiting j c₀ hc₀ (hg ▸ hold) with hs | ⟨hun, hwithheld⟩
      · exact Or.inl (hstale c (hiff hs))
      by_cases hnext : next.2.isChecked = true
      · rcases hchecked hnext with hch | hs
        · rw [hun] at hch
          cases hch
        · exact Or.inl hs
      · refine Or.inr ⟨by simpa using hnext, ?_⟩
        rw [hsubject] at hwithheld
        rcases hwithheld with ha | ⟨k, hk'⟩
        · exact Or.inl (hactive ha)
        refine Or.inr ⟨k, ?_⟩
        have hki : k ≠ j := by
          rintro rfl
          rw [GrantPhase.waits_confirmed hc₀] at hk'
          cases hk'
        rw [GrantSystem.goto_phase_of_ne s hki]
        exact hk'
    · rw [GrantSystem.goto_phase_of_ne s hji] at hc ⊢
      -- The lock under which a grant is killed is not the one of a callback that is checked.
      have hunchecked : (s.phase i).lock = some c.subject → (s.phase j).isChecked = false := by
        intro hi
        by_contra hne
        have hj := GrantPhase.checked_lock hc (by simpa using hne)
        exact hji (h.sound.exclusive j i c.subject hj hi)
      rcases hcareful.killed j c hji hc hk with hold | ⟨hlock, hwithheld⟩
      · rcases h.waiting j c hc hold with hs | ⟨hun, hwithheld⟩
        · exact Or.inl (hstale c hs)
        · rcases hwithheld with ha | ⟨k, hk'⟩
          · rcases hcareful.active j c hji hc hold ha with ha | hs
            · exact Or.inr ⟨hun, Or.inl ha⟩
            · exact Or.inl hs
          · by_cases hki : k = i
            · subst hki
              rcases hcareful.confirmed j c hji hc hk' with hn | hs | ha
              · refine Or.inr ⟨hun, Or.inr ⟨k, ?_⟩⟩
                rw [GrantSystem.goto_phase]
                exact hn
              · exact Or.inl hs
              · exact Or.inr ⟨hun, Or.inl ha⟩
            · refine Or.inr ⟨hun, Or.inr ⟨k, ?_⟩⟩
              rw [GrantSystem.goto_phase_of_ne s hki]
              exact hk'
      · refine Or.inr ⟨hunchecked hlock, ?_⟩
        rcases hwithheld with ha | hn
        · exact Or.inl ha
        · refine Or.inr ⟨i, ?_⟩
          rw [GrantSystem.goto_phase]
          exact hn
  completing := by
    have hstale : ∀ c, s.ledger.Stale c → next.1.Stale c := fun c hc =>
      Nat.le_trans hc (hcareful.tombstone c.subject)
    intro j r all hj k c hc hsub hk
    by_cases hji : j = i
    · subst hji
      rw [GrantSystem.goto_phase] at hj
      have hkj : k ≠ j := by
        rintro rfl
        rw [GrantSystem.goto_phase, hj] at hc
        cases hc
      rw [GrantSystem.goto_phase_of_ne s hkj] at hc
      exact hcareful.completing r all hj k c hkj hc hsub
    · rw [GrantSystem.goto_phase_of_ne s hji] at hj
      by_cases hki : k = i
      · subst hki
        rw [GrantSystem.goto_phase] at hc
        obtain ⟨c₀, hc₀, hg, he, hold, -, -⟩ := hcareful.mine c hc hk
        have hsubject : c₀.subject = c.subject := by
          unfold Callback.subject
          rw [hg]
        have hs := h.completing j r all hj k c₀ hc₀ (hsubject.trans hsub) (hg ▸ hold)
        refine hstale c ?_
        unfold Ledger.Stale at hs ⊢
        rw [← he, ← hsubject]
        exact hs
      · rw [GrantSystem.goto_phase_of_ne s hki] at hc
        rcases hcareful.killed k c hki hc hk with hold | ⟨hlock, -⟩
        · exact hstale c (h.completing j r all hj k c hc hsub hold)
        have hj' : (s.phase j).lock = some c.subject := by
          rw [hj, hsub]
          rfl
        exact absurd (h.sound.exclusive j i c.subject hj' hlock) hji
  token := by
    intro a' ha' g hg hk
    rcases hcareful.token a' ha' g hg hk with hshut | ⟨a, ha, hu, hs, ht, hold, hkeep⟩
    · refine Or.inr ⟨i, ?_⟩
      rw [GrantSystem.goto_phase]
      exact hshut
    · have hmine : s.ledger.Shut (s.phase i) a →
          ∃ j, (s.goto i next).ledger.Shut ((s.goto i next).phase j) a' := by
        intro hshut
        refine ⟨i, ?_⟩
        rw [GrantSystem.goto_phase]
        exact hkeep hshut
      rcases h.token a ha g ht hold with hguarded | ⟨j, hshut⟩
      · exact Or.inr (hmine (Or.inl hguarded))
      by_cases hji : j = i
      · subst hji
        exact Or.inr (hmine hshut)
      · rcases hshut with hguarded | ⟨op, hop, hou, hos⟩
        · exact Or.inr (hmine (Or.inl hguarded))
        · refine Or.inr ⟨j, Or.inr ⟨op, ?_, hou.trans hu, hos.trans hs⟩⟩
          rw [GrantSystem.goto_phase_of_ne s hji]
          exact hop

section Advance

variable {s : GrantSystem n} {i : Fin n} {w' : Ledger} {ch : Choice} {next : GrantPhase}

theorem Careful.move (hconfirmed : (s.phase i).confirmed = none)
    (hwaits : (s.phase i).Continues next) (hnext : ∀ r all, next ≠ .completing r all)
    (hop : ∀ op, (s.phase i).operates = some op → next.operates = some op) :
    Careful s i (s.ledger, next) :=
  (Ledger.Calm.refl s.ledger).careful hconfirmed hwaits hnext hop

section

variable (c : Callback)

theorem Callback.failed_waits : c.failed.waits = none := by
  unfold Callback.failed
  split <;> rfl

theorem Callback.failed_ne (r : Revocation) (all : Bool) :
    c.failed ≠ .completing r all := by
  unfold Callback.failed
  split <;> nofun

theorem Callback.cleanup_waits : c.cleanup.waits = none := by
  unfold Callback.cleanup
  cases c.user <;> rfl

theorem Callback.cleanup_ne (r : Revocation) (all : Bool) :
    c.cleanup ≠ .completing r all := by
  unfold Callback.cleanup
  cases c.user <;> nofun

theorem Callback.disconnectFailed_waits (jobId : Option Nat) :
    (c.disconnectFailed jobId).waits = none := by
  cases jobId with
  | none => rfl
  | some k => exact c.cleanup_waits

theorem Callback.disconnectFailed_ne (jobId : Option Nat) (r : Revocation)
    (all : Bool) : c.disconnectFailed jobId ≠ .completing r all := by
  cases jobId with
  | none => nofun
  | some k => exact c.cleanup_ne r all

theorem Callback.checked_waits : c.checked.waits = some c := by
  unfold Callback.checked
  cases c.intent with
  | some => rfl
  | none =>
    cases c.user with
    | none => rfl
    | some id => dsimp only; split <;> rfl

theorem Callback.checked_ne (r : Revocation) (all : Bool) :
    c.checked ≠ .completing r all := by
  intro h
  have := c.checked_waits
  rw [h] at this
  cases this

end

/-- What follows a revocation waits for nothing, closes no jobs, and is the operation's
business still. -/
theorem Revocation.after_facts (r : Revocation) :
    (r.resolved.waits = none ∧ r.broken.waits = none ∧ r.retried.waits = none) ∧
    (∀ r' all, r.resolved ≠ .completing r' all ∧ r.broken ≠ .completing r' all ∧
      r.retried ≠ .completing r' all) ∧
    (∀ op, r.owner.asOperation = some op → r.resolved.operates = some op ∧
      r.broken.operates = some op ∧ r.retried.operates = some op) := by
  unfold Revocation.resolved Revocation.broken Revocation.retried
  cases r.owner with
  | callback c =>
    exact ⟨⟨rfl, c.cleanup_waits, rfl⟩, fun r' all => ⟨nofun, c.cleanup_ne r' all, nofun⟩, nofun⟩
  | operation op =>
    exact ⟨⟨rfl, rfl, rfl⟩, fun r' all => ⟨nofun, nofun, nofun⟩, fun op' hop => ⟨hop, hop, hop⟩⟩
  | worker =>
    exact ⟨⟨rfl, rfl, rfl⟩, fun r' all => ⟨nofun, nofun, nofun⟩, nofun⟩

theorem acquire_careful {waiting acquired failed : GrantPhase}
    (hwaiting : Careful s i (s.ledger, waiting)) (hacquired : Careful s i (s.ledger, acquired))
    (hfailed : Careful s i (s.ledger, failed)) :
    Careful s i (acquire s.ledger s.isFree ch subject waiting acquired failed) := by
  unfold acquire
  split
  · split
    · exact hacquired
    · exact hwaiting
  · exact hfailed

theorem GrantSystem.Guarded.not_killed (h : s.Guarded)
    (hc : (s.phase i).waits = some c) (hchecked : (s.phase i).isChecked = true)
    (hfresh : s.ledger.tombstone c.subject < c.epoch) : c.grant ∉ s.ledger.killed := by
  intro hk
  rcases h.waiting i c hc hk with hs | ⟨hun, -⟩
  · exact absurd hs (Nat.not_le.2 hfresh)
  · rw [hchecked] at hun
    cases hun

theorem GrantSystem.Guarded.stale_of_unwithheld (h : s.Guarded)
    (hc : (s.phase i).waits = some c) (hlock : (s.phase i).lock = some c.subject)
    (hactive : s.ledger.hasActive c.subject = false) (hk : c.grant ∈ s.ledger.killed) :
    s.ledger.Stale c := by
  rcases h.waiting i c hc hk with hs | ⟨-, ha | ⟨j, hj⟩⟩
  · exact hs
  · rw [hactive] at ha
    cases ha
  · have hji := h.sound.exclusive j i c.subject (GrantPhase.confirmed_lock hj) hlock
    rw [hji, GrantPhase.waits_confirmed hc] at hj
    cases hj

theorem store_careful {p : GmailAccount → Bool} {users : List AppUser}
    (hgrant : c.grant ∉ s.ledger.killed) (hconfirmed : (s.phase i).confirmed = none)
    (hop : (s.phase i).operates = none)
    (hguard : ∀ a ∈ s.ledger.accounts, p a = false → ∀ g, a.token = some g →
      g ∈ s.ledger.killed → s.ledger.isGuarded a.userId = true → ({ s.ledger with users:= users } : Ledger).isGuarded a.userId = true) :
    Careful s i (({ s.ledger with users := users } : Ledger).putToken p c.grant, .idle) where
  killed := fun _ _ _ _ hk => Or.inl hk
  active := fun _ _ _ _ _ hactive => Or.inl hactive
  confirmed := fun _ _ _ _ hc => by
    rw [hconfirmed] at hc
    cases hc
  tombstone := fun _ => Nat.le_refl _
  mine := nofun
  completing := nofun
  token := fun a' ha' g hg hk => by
    obtain ⟨a, ha, rfl⟩ := mem_updateWhere.1 ha'
    by_cases hp : p a = true
    · rw [if_pos hp] at hg
      cases hg
      exact absurd hk hgrant
    · rw [if_neg hp] at hg ⊢
      refine Or.inr ⟨a, ha, rfl, rfl, hg, hk, ?_⟩
      rintro (hguarded | ⟨op, hop', -⟩)
      · exact Or.inl (hguard a ha (by simpa using hp) g hg hk hguarded)
      · rw [hop] at hop'
        cases hop'

theorem keeps_no_operation (h : ph.operates = none) (op : Operation) (hop : ph.operates = some op) :
    next.operates = some op := by
  rw [h] at hop
  cases hop

theorem link_careful (h : s.Guarded) {owner : Nat} (hph : s.phase i = .linking c owner)
    (hlink : s.ledger.link owner c.grant c.epoch = some w') : Careful s i (w', .idle) := by
  have hwaits : (s.phase i).waits = some c := by rw [hph]; rfl
  have hchecked : (s.phase i).isChecked = true := by rw [hph]; rfl
  have hconfirmed : (s.phase i).confirmed = none := by rw [hph]; rfl
  have hop : (s.phase i).operates = none := by rw [hph]; rfl
  obtain ⟨-, hfresh, -, ⟨rfl, -⟩ | ⟨rfl, -⟩⟩ := Ledger.link_cases hlink
  · exact store_careful (h.not_killed hwaits hchecked hfresh) hconfirmed hop
      fun _ _ _ _ _ _ hguarded => hguarded
  have hgrant := h.not_killed hwaits hchecked hfresh
  refine ⟨fun _ _ _ _ hk => Or.inl hk, fun _ _ _ _ _ hactive => Or.inl hactive,
    fun _ _ _ _ hc => ?_, fun _ => Nat.le_refl _, nofun, nofun, fun a ha g hg hk => ?_⟩
  · rw [hconfirmed] at hc
    cases hc
  rcases List.mem_append.1 ha with ha | ha
  · exact Or.inr ⟨a, ha, rfl, rfl, hg, hk, fun h => h.keep (keeps_no_operation hop)⟩
  · rw [List.mem_singleton.1 ha] at hg
    cases hg
    exact absurd hk hgrant

theorem reconnect_careful (h : s.Guarded) {id : Nat} (hph : s.phase i = .reconnecting c id)
    (hspares : ∀ a ∈ s.ledger.accounts, a.userId = id → a.googleSub ≠ c.subject →
      ∀ g ∈ a.token, g ∉ s.ledger.killed)
    (hreconnect : s.ledger.reconnect id c.grant c.epoch = some w') : Careful s i (w', .idle) := by
  have hok := h.sound.phase i
  rw [hph] at hok
  obtain ⟨rfl, a₀, ha₀, hprimary, hfresh⟩ := Ledger.reconnect_cases hreconnect
  have hsub₀ : a₀.googleSub = c.subject := hok.2.primary_subject hprimary
  refine store_careful (h.not_killed (by rw [hph]; rfl) (by rw [hph]; rfl) (hsub₀ ▸ hfresh))
    (by rw [hph]; rfl) (by rw [hph]; rfl) fun a ha hp g hg hk hguarded => ?_
  by_cases hid : a.userId = id
  · -- The other accounts of the user are linked ones.
    refine absurd hk (hspares a ha hid (fun hsub => ?_) g hg)
    obtain ⟨-, u, hu, huid, husub⟩ := Ledger.isPrimary_iff.1 hprimary
    have : s.ledger.isPrimary id a = true :=
      Ledger.isPrimary_iff.2 ⟨hid, u, hu, huid, husub.trans (hsub₀.trans hsub.symm)⟩
    rw [hp] at this
    cases this
  · obtain ⟨u, hu, huid, hug⟩ := Ledger.isGuarded_iff.1 hguarded
    refine Ledger.isGuarded_iff.2 ⟨_, mem_updateWhere.2 ⟨u, hu, rfl⟩, ?_⟩
    have hne : ¬ u.id = id := fun heq => hid (huid.symm.trans heq)
    rw [if_neg (by simpa using hne)]
    exact ⟨huid, hug⟩

theorem leave_careful {op : Operation} (hcalm : s.ledger.Calm w')
    (hconfirmed : (s.phase i).confirmed = none) (hop : (s.phase i).operates = some op)
    (hwaits : next.waits = none) (hnext : ∀ r all, next ≠ .completing r all)
    (hguard : ∀ a ∈ s.ledger.accounts, a.userId = op.userId → a.googleSub = op.subject →
      ∀ g, a.token = some g → g ∈ s.ledger.killed → w'.isGuarded op.userId = true) :
    Careful s i (w', next) where
  killed := fun _ _ _ _ hk => Or.inl (hcalm.killed ▸ hk)
  active := fun _ c _ _ _ hactive => Or.inl (hcalm.active c.subject hactive)
  confirmed := fun _ _ _ _ hc => by
    rw [hconfirmed] at hc
    cases hc
  tombstone := hcalm.tombstone
  mine := fun c hc => by
    rw [hwaits] at hc
    cases hc
  completing := fun r all heq => absurd heq (hnext r all)
  token := fun a' ha' g hg hk => by
    obtain ⟨a, ha, hu, hs, ht⟩ := hcalm.token a' ha' g hg
    refine Or.inr ⟨a, ha, hu, hs, ht, hcalm.killed ▸ hk, ?_⟩
    rintro (hguarded | ⟨op', hop', hou, hos⟩)
    · exact Or.inl (hcalm.guarded a' ha' (hu ▸ hguarded))
    · rw [hop] at hop'
      cases hop'
      have := hguard a ha hou.symm hos.symm g ht (hcalm.killed ▸ hk)
      rw [hou, hu] at this
      exact Or.inl this

theorem Ledger.tokenKilled_of_mem {w : Ledger} {op : Operation} {a : GmailAccount}
    (ha : a ∈ w.accounts) (hu : a.userId = op.userId) (hs : a.googleSub = op.subject) {g : Grant}
    (hg : a.token = some g) (hk : g ∈ w.killed) : w.tokenKilled op = true := by
  refine List.any_eq_true.2 ⟨a, ha, ?_⟩
  simp [hu, hs, hg, hk]

theorem record_careful (h : s.Guarded)
    (hconfirmed : (s.phase i).confirmed = some subject) (hwaits : next.waits = none)
    (hnext : ∀ r all, next = .completing r all → r.subject = subject)
    (hop : ∀ op, (s.phase i).operates = some op → next.operates = some op) :
    Careful s i (s.ledger.record subject, next) := by
  have hcalm := h.sound.ledger.record_calm subject
  have hstale : ∀ j c, (s.phase j).waits = some c → c.subject = subject →
      (s.ledger.record subject).Stale c := by
    intro j c hc hs
    exact (Ledger.PhaseOk.callbackOk (h.sound.phase j) hc).record_stale hs
  refine ⟨fun _ _ _ _ hk => Or.inl hk, fun _ c _ _ _ hactive => Or.inl hactive,
    fun j c _ hc hcon => ?_, hcalm.tombstone, fun c hc => ?_, fun r all heq j c _ hc hs => ?_,
    fun a ha g hg hk => Or.inr ⟨a, ha, rfl, rfl, hg, hk, fun h => h.keep hop⟩⟩
  · rw [hconfirmed] at hcon
    exact Or.inr (Or.inl (hstale j c hc (Option.some.inj hcon).symm))
  · rw [hwaits] at hc
    cases hc
  · exact hstale j c hc (hs.trans (hnext r all heq))

theorem unrecorded_careful (hconfirmed : (s.phase i).confirmed = some subject)
    (hwithheld : s.withheld i subject = true) (hwaits : next.waits = none)
    (hnext : ∀ r all, next ≠ .completing r all)
    (hop : ∀ op, (s.phase i).operates = some op → next.operates = some op) :
    Careful s i (s.ledger, next) where
  killed := fun _ _ _ _ hk => Or.inl hk
  active := fun _ _ _ _ _ hactive => Or.inl hactive
  confirmed := fun j c hj hc hcon => by
    rw [hconfirmed] at hcon
    have hs : c.subject = subject := (Option.some.inj hcon).symm
    right
    right
    rw [hs]
    exact GrantSystem.withheld_cases hwithheld hj hc hs
  tombstone := fun _ => Nat.le_refl _
  mine := fun c hc => by
    rw [hwaits] at hc
    cases hc
  completing := fun r all heq => absurd heq (hnext r all)
  token := fun a ha g hg hk => Or.inr ⟨a, ha, rfl, rfl, hg, hk, fun h => h.keep hop⟩

/-- An update of jobs that ends those of a subject, whose callbacks are stale or withheld
by another one. -/
theorem jobs_careful {jobs : List RevocationJob} (hconfirmed : (s.phase i).confirmed = none)
    (hwaits : next.waits = none) (hnext : ∀ r all, next ≠ .completing r all)
    (hop : ∀ op, (s.phase i).operates = some op → next.operates = some op)
    (hactive : ∀ j c, j ≠ i → (s.phase j).waits = some c → c.grant ∈ s.ledger.killed →
      s.ledger.hasActive c.subject = true →
      ({ s.ledger with jobs := jobs } : Ledger).hasActive c.subject = true ∨ s.ledger.Stale c) :
    Careful s i ({ s.ledger with jobs := jobs }, next) where
  killed := fun _ _ _ _ hk => Or.inl hk
  active := hactive
  confirmed := fun _ _ _ _ hcon => by
    rw [hconfirmed] at hcon
    cases hcon
  tombstone := fun _ => Nat.le_refl _
  mine := fun c hc => by
    rw [hwaits] at hc
    cases hc
  completing := fun r all heq => absurd heq (hnext r all)
  token := fun a ha g hg hk => Or.inr ⟨a, ha, rfl, rfl, hg, hk, fun h => h.keep hop⟩

def GrantPhase.isCompleting : GrantPhase → Bool
  | .completing _ _ => true
  | _ => false

variable {next : GrantPhase}

theorem ne_completing (h : next.isCompleting = false) (r : Revocation) (all : Bool) :
    next ≠ .completing r all := by
  rintro rfl
  cases h

theorem GrantPhase.Continues.unchecked (h : next.waits = ph.waits)
    (hunchecked : next.isChecked = false) : ph.Continues next := by
  refine .same h fun hchecked => ?_
  rw [hunchecked] at hchecked
  cases hchecked

theorem Ledger.Calm.leave (h : s.ledger.Calm w') (hph : s.phase i = ph)
    (hconfirmed : ph.confirmed = none) (hoperates : ph.operates = none) (hwaits : next.waits = none)
    (hnext : next.isCompleting = false) : Careful s i (w', next) := by
  subst hph
  exact h.careful hconfirmed (.none hwaits) (ne_completing hnext) (keeps_no_operation hoperates)

section Leaving

variable (hph : s.phase i = ph) (hconfirmed : ph.confirmed = none) (hoperates : ph.operates = none)
include hph hconfirmed hoperates

theorem Careful.leave (hwaits : next.waits = none) (hnext : next.isCompleting = false) :
    Careful s i (s.ledger, next) :=
  (Ledger.Calm.refl s.ledger).leave hph hconfirmed hoperates hwaits hnext

theorem Careful.fail (c : Callback) : Careful s i (s.ledger, c.failed) := by
  subst hph
  exact Careful.move hconfirmed (.none c.failed_waits) c.failed_ne (keeps_no_operation hoperates)

theorem Careful.cleanUp (c : Callback) : Careful s i (s.ledger, c.cleanup) := by
  subst hph
  exact Careful.move hconfirmed (.none c.cleanup_waits) c.cleanup_ne (keeps_no_operation hoperates)

end Leaving

theorem Careful.goOn (hph : s.phase i = ph) (hconfirmed : ph.confirmed = none)
    (hoperates : ph.operates = none) (hwaits : next.waits = ph.waits)
    (hunchecked : next.isChecked = false) (hnext : next.isCompleting = false) :
    Careful s i (s.ledger, next) := by
  subst hph
  exact Careful.move hconfirmed (.unchecked hwaits hunchecked) (ne_completing hnext)
    (keeps_no_operation hoperates)

theorem advance_careful (h : s.Guarded) (hspares : s.spares i ch (s.phase i) = true) :
    Careful s i (advance s.ledger s.isFree i ch (s.phase i)) := by
  have hok := h.sound.ledger
  have hphase := h.sound.phase i
  have hknows := h.knows i
  cases hph : s.phase i with
  | idle => exact Careful.leave hph rfl rfl rfl rfl
  | started =>
    dsimp only [advance]
    split
    · refine (s.ledger.issue_calm ch.subject).careful_of_mine (by rw [hph]; rfl)
        (fun c hc hk => ?_) (ne_completing rfl) (keeps_no_operation (by rw [hph]; rfl))
      cases hc
      exact absurd hk (hok.fresh_not_killed ch.subject)
    · exact Careful.leave hph rfl rfl rfl rfl
  | identifying c | lookingUp c =>
    dsimp only [advance]
    split
    · exact Careful.goOn hph rfl rfl rfl rfl rfl
    · exact Careful.leave hph rfl rfl rfl rfl
  | dropping c =>
    simp only [hph, GrantSystem.spares, Bool.or_eq_true, Bool.and_eq_true, Bool.not_eq_true']
      at hspares
    refine request_careful (by rw [hph]; rfl) rfl (ne_completing rfl)
      (keeps_no_operation (by rw [hph]; rfl)) ?_ ?_ hok
    · intro hharm _ j c' hj hc' hs
      rw [hharm] at hspares
      have halone := (hspares.resolve_left (by decide)).2
      simp only [GrantSystem.alone, decide_eq_true_eq] at halone
      exact absurd hs (halone j hj c' (by rw [hc']; rfl))
    · intro hharm a ha hs g hg
      rw [hharm] at hspares
      exact Or.inl (Ledger.exposed_eq_false (hspares.resolve_left (by decide)).1 ha hs hg)
  | locking c =>
    refine acquire_careful ?_ ?_ ?_
    · exact Careful.goOn hph rfl rfl rfl rfl rfl
    · refine Careful.move (by rw [hph]; rfl) ?_ ?_ (keeps_no_operation (by rw [hph]; rfl))
      · rw [hph]
        split <;> exact .unchecked rfl rfl
      · split <;> exact ne_completing rfl
    · exact Careful.leave hph rfl rfl rfl rfl
  | lookingAccount c =>
    dsimp only [advance]
    split
    · refine Careful.move (by rw [hph]; rfl) ?_ (ne_completing rfl)
        (keeps_no_operation (by rw [hph]; rfl))
      rw [hph]
      intro c' hc'
      cases hc'
      exact ⟨c, rfl, rfl, rfl, fun hchecked => by cases hchecked⟩
    · exact Careful.leave hph rfl rfl rfl rfl
  | checkingEpoch c =>
    dsimp only [advance]
    split
    · exact Careful.goOn hph rfl rfl rfl rfl rfl
    · exact Careful.fail hph rfl rfl c
  | checkingPending c =>
    dsimp only [advance]
    split
    · next hpass =>
      simp only [Bool.and_eq_true, Bool.not_eq_true'] at hpass
      refine (Ledger.Calm.refl s.ledger).careful_of_mine (by rw [hph]; rfl) (fun c' hc' hk => ?_)
        c.checked_ne (keeps_no_operation (by rw [hph]; rfl))
      -- Under the lock, without an active job, a callback whose grant was killed is stale.
      rw [c.checked_waits] at hc'
      cases hc'
      refine ⟨c, by rw [hph]; rfl, rfl, rfl, fun _ => Or.inr ?_⟩
      exact h.stale_of_unwithheld (i := i) (by rw [hph]; rfl) (by rw [hph]; rfl) hpass.2 hk
    · exact Careful.fail hph rfl rfl c
  | colliding c =>
    dsimp only [advance]
    split
    · exact Careful.move (by rw [hph]; rfl) (by rw [hph]; exact .same rfl fun _ => rfl)
        (ne_completing rfl) (keeps_no_operation (by rw [hph]; rfl))
    · exact Careful.fail hph rfl rfl c
  | linking c owner =>
    dsimp only [advance]
    unfold stored
    cases hr : (if ch.ok then s.ledger.link owner c.grant c.epoch else none) with
    | none =>
      exact Careful.fail hph rfl rfl c
    | some w' =>
      by_cases hchok : ch.ok = true
      · rw [if_pos hchok] at hr
        exact link_careful h hph hr
      · rw [if_neg hchok] at hr
        cases hr
  | upserting c =>
    dsimp only [advance]
    cases hr : (if ch.ok then s.ledger.upsertUser c.subject c.epoch else none) with
    | none =>
      exact Careful.fail hph rfl rfl c
    | some next =>
      obtain ⟨w', id⟩ := next
      by_cases hchok : ch.ok = true
      · rw [if_pos hchok] at hr
        refine (hok.upsertUser_calm hr).careful (by rw [hph]; rfl) ?_ (ne_completing rfl)
          (keeps_no_operation (by rw [hph]; rfl))
        rw [hph]
        intro c' hc'
        cases hc'
        exact ⟨c, rfl, rfl, rfl, fun _ => rfl⟩
      · rw [if_neg hchok] at hr
        cases hr
  | reconnecting c id =>
    simp only [hph, GrantSystem.spares, Bool.or_eq_true, Bool.not_eq_true', decide_eq_true_eq]
      at hspares
    dsimp only [advance]
    unfold stored
    cases hr : (if ch.ok then s.ledger.reconnect id c.grant c.epoch else none) with
    | none =>
      exact Careful.fail hph rfl rfl c
    | some w' =>
      by_cases hchok : ch.ok = true
      · rw [if_pos hchok] at hr
        refine reconnect_careful h hph (hspares.resolve_left ?_) hr
        rw [hchok]
        decide
      · rw [if_neg hchok] at hr
        cases hr
  | tracking c =>
    dsimp only [advance]
    split
    · refine (s.ledger.enqueue_calm c.subject c.grant).careful (by rw [hph]; rfl) (.none ?_) ?_
        (keeps_no_operation (by rw [hph]; rfl))
      · cases c.user <;> rfl
      · cases c.user <;> exact ne_completing rfl
    · exact Careful.cleanUp hph rfl rfl c
  | droppingStored c id jobId =>
    dsimp only [advance]
    split
    · exact (s.ledger.dropPrimary_calm id).leave hph rfl rfl rfl rfl
    · exact Careful.move (by rw [hph]; rfl) (.none (c.disconnectFailed_waits jobId))
        (c.disconnectFailed_ne jobId) (keeps_no_operation (by rw [hph]; rfl))
  | marking c id jobId =>
    dsimp only [advance]
    split
    · refine (hok.markDisconnected_calm id).careful (by rw [hph]; rfl) (.none ?_) ?_
        (keeps_no_operation (by rw [hph]; rfl))
      · cases jobId <;> rfl
      · cases jobId <;> exact ne_completing rfl
    · exact Careful.move (by rw [hph]; rfl) (.none (c.disconnectFailed_waits jobId))
        (c.disconnectFailed_ne jobId) (keeps_no_operation (by rw [hph]; rfl))
  | cleanRevoking c =>
    rw [hph] at hknows
    simp only [hph, GrantSystem.spares, Bool.or_eq_true, Bool.and_eq_true] at hspares
    refine request_careful (by rw [hph]; rfl) (by split <;> rfl)
      (by split <;> exact ne_completing rfl) (keeps_no_operation (by rw [hph]; rfl)) ?_ ?_ hok
    · intro hharm hp j c' hj hc' hs
      rw [hharm] at hspares
      refine ⟨by rw [hph, hs]; rfl, ?_⟩
      rcases (hspares.resolve_left (by decide)).2 with hanswered | hwithheld
      · right
        have hne : ¬ s.ledger.outcome c.grant ch = .retry := by
          unfold Ledger.outcome
          simp only [hp, hanswered, Bool.and_self, if_true]
          split <;> decide
        rw [if_neg hne, hs]
        rfl
      · left
        rw [hs]
        exact GrantSystem.withheld_cases hwithheld hj hc' hs
    · intro hharm a ha hs g hg
      rw [hharm] at hspares
      have hguard := (hspares.resolve_left (by decide)).1
      left
      cases huser : c.user with
      | none =>
        rw [huser] at hguard
        have hexposed : s.ledger.exposed c.subject = false := by simpa using hguard
        exact Ledger.exposed_eq_false hexposed ha hs hg
      | some id =>
        rw [huser] at hguard
        rw [hknows a ha hs id huser]
        exact hguard
  | cleanRecording c =>
    simp only [hph, GrantSystem.spares, Bool.or_eq_true] at hspares
    dsimp only [advance]
    by_cases hchok : ch.ok = true
    · rw [if_pos hchok]
      exact record_careful h (by rw [hph]; rfl) rfl
        (fun r all heq => absurd heq (ne_completing rfl r all))
        (keeps_no_operation (by rw [hph]; rfl))
    · rw [if_neg hchok]
      exact unrecorded_careful (by rw [hph]; rfl) (hspares.resolve_left hchok) rfl
        (ne_completing rfl) (keeps_no_operation (by rw [hph]; rfl))
  | outer c =>
    refine acquire_careful ?_ ?_ ?_
    · exact Careful.leave hph rfl rfl rfl rfl
    · exact Careful.cleanUp hph rfl rfl c
    · exact Careful.leave hph rfl rfl rfl rfl
  | queueing c =>
    dsimp only [advance]
    split
    · exact (s.ledger.enqueue_calm c.subject c.grant).leave hph rfl rfl rfl rfl
    · exact Careful.move (by rw [hph]; rfl) (.none (by split <;> rfl))
        (by split <;> exact ne_completing rfl) (keeps_no_operation (by rw [hph]; rfl))
  | checkingJob r =>
    have hfacts := r.after_facts
    dsimp only [advance]
    refine Careful.move (by rw [hph]; rfl) (.none ?_) ?_ (keeps_no_operation (by rw [hph]; rfl))
    · split
      · unfold Revocation.check
        repeat' split
        all_goals first | exact hfacts.1.1 | exact hfacts.1.2.1 | rfl
      · exact hfacts.1.2.1
    · intro r' all
      split
      · unfold Revocation.check
        repeat' split
        all_goals first
          | exact (hfacts.2.1 r' all).1
          | exact (hfacts.2.1 r' all).2.1
          | exact ne_completing rfl r' all
      · exact (hfacts.2.1 r' all).2.1
  | revoking r =>
    have hfacts := r.after_facts
    rw [hph] at hphase hknows
    simp only [hph, GrantSystem.spares, Bool.or_eq_true, Bool.and_eq_true] at hspares
    have hown := hphase.2.2
    unfold Ledger.OwnerOk at hown
    have hop : ∀ op, r.owner.asOperation = some op →
        (advance s.ledger s.isFree i ch (.revoking r)).2.operates = some op := by
      intro op howner
      dsimp only [advance]
      cases s.ledger.outcome r.grant ch with
      | retry => exact (hfacts.2.2 op howner).2.2
      | projectRevoked | credentialInvalid => exact howner
    refine request_careful (by rw [hph]; rfl) ?_ ?_ (by rw [hph]; exact hop) ?_ ?_ hok
    · cases s.ledger.outcome r.grant ch with
      | retry => exact hfacts.1.2.2
      | projectRevoked | credentialInvalid => rfl
    · intro r' all
      cases s.ledger.outcome r.grant ch with
      | retry => exact (hfacts.2.1 r' all).2.2
      | projectRevoked | credentialInvalid => exact ne_completing rfl r' all
    · intro hharm hp j c' hj hc' hs
      rw [hharm] at hspares
      rw [hphase.1] at hs
      refine ⟨by rw [hph, hs]; rfl, ?_⟩
      rcases (hspares.resolve_left (by decide)).2 with hanswered | hwithheld
      · right
        rw [hs]
        cases houtcome : s.ledger.outcome r.grant ch with
        | retry =>
          unfold Ledger.outcome at houtcome
          simp only [hp, hanswered, Bool.and_self, if_true] at houtcome
          split at houtcome <;> cases houtcome
        | projectRevoked | credentialInvalid => rfl
      · left
        rw [hs]
        exact GrantSystem.withheld_cases hwithheld hj hc' hs
    · intro hharm a ha hs g hg
      rw [hharm] at hspares
      have hguard := (hspares.resolve_left (by decide)).1
      rw [hphase.1] at hs
      have hknown : s.ledger.RevokerKnown r.owner := hknows
      cases howner : r.owner with
      | callback c =>
        rw [howner] at hguard hown hknown
        dsimp only at hguard hown
        left
        have huser := hknown a ha (hs.trans hown.2.1)
        rw [huser] at hguard
        exact hguard
      | operation op =>
        rw [howner] at hown hknown
        dsimp only at hown
        right
        refine ⟨op, hop op (by rw [howner]; rfl), ?_, hown.2.symm.trans hs.symm⟩
        exact (hknown a ha (hs.trans hown.2)).symm
      | worker =>
        rw [howner] at hguard
        dsimp only at hguard
        exact Or.inl (Ledger.exposed_eq_false (by simpa using hguard) ha hs hg)
  | recording r all =>
    have hfacts := r.after_facts
    simp only [hph, GrantSystem.spares, Bool.or_eq_true] at hspares
    dsimp only [advance]
    by_cases hchok : ch.ok = true
    · rw [if_pos hchok]
      refine record_careful h (by rw [hph]; rfl) rfl (fun r' all' heq => ?_)
        (by rw [hph]; exact fun op hop => hop)
      cases heq
      rfl
    · rw [if_neg hchok]
      exact unrecorded_careful (by rw [hph]; rfl) (hspares.resolve_left hchok) hfacts.1.2.1
        (fun r' all' => (hfacts.2.1 r' all').2.1)
        (by rw [hph]; exact fun op hop => (hfacts.2.2 op hop).2.1)
  | completing r all =>
    have hfacts := r.after_facts
    rw [hph] at hphase
    dsimp only [advance]
    split
    · -- The callbacks of the subject are stale, and those of others keep their jobs.
      have hupdate : ∀ p : RevocationJob → Bool,
          (∀ job ∈ s.ledger.jobs, p job = true → job.subjectHash = r.subject) →
          Careful s i ({ s.ledger with
            jobs := updateWhere p (RevocationJob.close .succeeded) s.ledger.jobs },
            r.resolved) := by
        intro p hp
        refine jobs_careful (by rw [hph]; rfl) hfacts.1.1 (fun r' all' => (hfacts.2.1 r' all').1)
          (by rw [hph]; exact fun op hop => (hfacts.2.2 op hop).1) fun j c _ hc hk hactive => ?_
        by_cases hs : c.subject = r.subject
        · exact Or.inr (h.completing i r all hph j c hc hs hk)
        obtain ⟨job, hjob, ha, hsub⟩ := Ledger.hasActive_iff.1 hactive
        refine Or.inl (Ledger.hasActive_iff.2 ⟨_, mem_updateWhere.2 ⟨job, hjob, rfl⟩, ?_⟩)
        have hne : ¬ p job = true := fun hpjob => hs (hsub.symm.trans (hp job hjob hpjob))
        rw [if_neg hne]
        exact ⟨ha, hsub⟩
      cases all with
      | true =>
        refine hupdate _ fun job _ hp => ?_
        simp only [Bool.and_eq_true, decide_eq_true_eq] at hp
        exact hp.2
      | false =>
        refine hupdate _ fun job hjob hp => ?_
        simp only [Bool.and_eq_true, decide_eq_true_eq] at hp
        rw [← hok.job_subject job hjob, hphase.2.1.2 job hjob hp.2, hphase.1]
    · exact Careful.move (by rw [hph]; rfl) (.none hfacts.1.2.1)
        (fun r' all' => (hfacts.2.1 r' all').2.1)
        (by rw [hph]; exact fun op hop => (hfacts.2.2 op hop).2.1)
  | opLocking op | workLocking r =>
    refine acquire_careful ?_ ?_ ?_ <;>
      exact Careful.leave hph rfl rfl rfl rfl
  | opRecording op =>
    dsimp only [advance]
    split
    · exact (hok.record_calm op.subject).leave hph rfl rfl rfl rfl
    · exact Careful.leave hph rfl rfl rfl rfl
  | preparing op =>
    dsimp only [advance]
    split
    · exact Careful.leave hph rfl rfl rfl rfl
    split
    · refine Careful.move (by rw [hph]; rfl) (.none ?_) ?_
        (keeps_no_operation (by rw [hph]; rfl))
      · cases (s.ledger.primaryTokens op.userId).head? <;> rfl
      · cases (s.ledger.primaryTokens op.userId).head? <;> exact ne_completing rfl
    · exact Careful.leave hph rfl rfl rfl rfl
  | opEnqueuing op g =>
    dsimp only [advance]
    split
    · exact (s.ledger.enqueue_calm op.subject g).leave hph rfl rfl rfl rfl
    · exact Careful.leave hph rfl rfl rfl rfl
  | closing op =>
    simp only [hph, GrantSystem.spares, Bool.or_eq_true, Bool.not_eq_true'] at hspares
    dsimp only [advance]
    by_cases hchok : ch.ok = true
    · rw [if_pos hchok]
      refine leave_careful (hok.markDisconnected_calm op.userId) (by rw [hph]; rfl)
        (by rw [hph]; rfl) rfl (ne_completing rfl) fun a ha hu _ _ _ _ => ?_
      exact Ledger.markDisconnected_isGuarded (hu ▸ hok.owner a ha)
    · rw [if_neg hchok]
      refine leave_careful (.refl s.ledger) (by rw [hph]; rfl) (by rw [hph]; rfl) rfl
        (ne_completing rfl) fun a ha hu hs g hg hk => ?_
      rcases hspares with (hspares | hspares) | hspares
      · exact absurd hspares hchok
      · exact hspares
      · rw [Ledger.tokenKilled_of_mem ha hu hs hg hk] at hspares
        cases hspares
  | guarding op =>
    simp only [hph, GrantSystem.spares, Bool.or_eq_true, Bool.not_eq_true'] at hspares
    dsimp only [advance]
    by_cases hchok : ch.ok = true
    · rw [if_pos hchok]
      refine leave_careful (hok.guardFor_calm op) (by rw [hph]; rfl)
        (by rw [hph]; rfl) rfl (ne_completing rfl) fun a ha hu _ _ _ _ => ?_
      exact Ledger.guardFor_isGuarded (hu ▸ hok.owner a ha)
    · rw [if_neg hchok]
      refine leave_careful (.refl s.ledger) (by rw [hph]; rfl) (by rw [hph]; rfl) rfl
        (ne_completing rfl) fun a ha hu hs g hg hk => ?_
      rcases hspares with (hspares | hspares) | hspares
      · exact absurd hspares hchok
      · exact hspares
      · rw [Ledger.tokenKilled_of_mem ha hu hs hg hk] at hspares
        cases hspares
  | removing op =>
    dsimp only [advance]
    split
    · cases op.kind with
      | disconnect | dataDeletion =>
        exact (s.ledger.dropPrimary_calm op.userId).leave hph rfl rfl rfl rfl
      | accountDeletion =>
        exact (hok.deleteUser_calm op.userId).leave hph rfl rfl rfl rfl
    · exact Careful.leave hph rfl rfl rfl rfl
  | purging op =>
    dsimp only [advance]
    split
    · exact (hok.requestDeletion_calm op.userId).leave hph rfl rfl rfl rfl
    · exact Careful.leave hph rfl rfl rfl rfl
  | failing r =>
    rw [hph] at hphase
    simp only [hph, GrantSystem.spares, Bool.or_eq_true, Bool.not_eq_true', decide_eq_true_eq]
      at hspares
    dsimp only [advance]
    by_cases hchok : ch.ok = true
    · rw [if_pos hchok]
      refine jobs_careful (by rw [hph]; rfl) rfl (ne_completing rfl)
        (keeps_no_operation (by rw [hph]; rfl)) fun j c hj hc _ hactive => Or.inl ?_
      obtain ⟨job, hjob, ha, hsub⟩ := Ledger.hasActive_iff.1 hactive
      -- A job other than the one that fails stays active.
      have hother : ∀ job ∈ s.ledger.jobs, job.isActive = true → job.subjectHash = c.subject →
          ¬ job.isOwned r.jobId i = true →
          (s.ledger.failJob r.jobId i r.attemptCount).hasActive c.subject = true := by
        intro job hjob ha hsub howned
        refine Ledger.hasActive_iff.2 ⟨_, mem_updateWhere.2 ⟨job, hjob, rfl⟩, ?_⟩
        rw [if_neg howned]
        exact ⟨ha, hsub⟩
      by_cases howned : job.isOwned r.jobId i = true
      · rcases hspares with ((hspares | hspares) | hspares) | hspares
        · rw [hchok] at hspares
          cases hspares
        · refine Ledger.hasActive_iff.2 ⟨_, mem_updateWhere.2 ⟨job, hjob, rfl⟩, ?_⟩
          rw [if_pos howned]
          refine ⟨?_, hsub⟩
          simp [RevocationJob.isActive, RevocationJob.close, failedStatus,
            Nat.not_le.2 hspares, JobStatus.isActive]
        · simp only [GrantSystem.alone, decide_eq_true_eq] at hspares
          refine absurd ?_ (hspares j hj c (by rw [hc]; rfl))
          rw [← hsub, ← hok.job_subject job hjob,
            hphase.2.1.2 job hjob (RevocationJob.isOwned_id howned), hphase.1]
        · obtain ⟨job', hjob', hp⟩ := List.any_eq_true.1 hspares
          simp only [Bool.and_eq_true, decide_eq_true_eq, Bool.not_eq_true',
            decide_eq_false_iff_not] at hp
          refine hother job' hjob' hp.1.1 ?_ fun howned' => hp.2 ?_
          · rw [hp.1.2, ← hsub, ← hok.job_subject job hjob,
              hphase.2.1.2 job hjob (RevocationJob.isOwned_id howned), hphase.1]
          · exact RevocationJob.isOwned_id howned'
      · exact hother job hjob ha hsub howned
    · rw [if_neg hchok]
      exact Careful.leave hph rfl rfl rfl rfl
  | completingJob r =>
    rw [hph] at hphase
    dsimp only [advance]
    rw [hphase.2.completeJob_eq]
    split <;> exact Careful.leave hph rfl rfl rfl rfl

end Advance

/-! ## Runs -/

section Start

variable {s : GrantSystem n} {i : Fin n}

section

variable (hidle : s.phase i = .idle)
include hidle

theorem start_careful {next : Ledger × GrantPhase}
    (hcalm : s.ledger.Calm next.1) (hwaits : next.2.waits = none)
    (hnext : ∀ r all, next.2 ≠ .completing r all) : Careful s i next :=
  hcalm.careful (by rw [hidle]; rfl) (.none hwaits) hnext (by rw [hidle]; nofun)

theorem openSession_careful (intent : Option Nat) : Careful s i (openSession s.ledger intent) :=
  start_careful hidle { Ledger.Calm.refl s.ledger with } rfl nofun

theorem openOperation_careful (kind : OperationKind) (userId : Nat) :
    Careful s i (openOperation s.ledger kind userId) := by
  unfold openOperation
  cases s.ledger.user userId <;> exact start_careful hidle (.refl s.ledger) rfl nofun

theorem openClaim_careful (worker jobId : Nat) : Careful s i (openClaim s.ledger worker jobId) := by
  unfold openClaim
  cases s.ledger.jobs.find? fun job => job.isActive && job.id = jobId with
  | none => exact start_careful hidle (.refl s.ledger) rfl nofun
  | some job => exact start_careful hidle (s.ledger.claim_calm jobId worker) rfl nofun

end

end Start

theorem openOperation_knows (w : Ledger) (kind : OperationKind) (userId : Nat) :
    (openOperation w kind userId).1.Knows (openOperation w kind userId).2 := by
  unfold openOperation
  cases w.user userId <;> trivial

theorem openClaim_knows (w : Ledger) (worker jobId : Nat) :
    (openClaim w worker jobId).1.Knows (openClaim w worker jobId).2 := by
  unfold openClaim
  cases w.jobs.find? fun job => job.isActive && job.id = jobId with
  | none => trivial
  | some job => exact ⟨_, rfl⟩

theorem GrantSystem.Guarded.expire (h : s.Guarded) (g : Grant) :
    ({ s with ledger := s.ledger.expire g } : GrantSystem n).Guarded where
  sound := h.sound.expire g
  knows := fun i =>
    (h.knows i).keep (h.sound.phase i) (h.sound.ledger.expire_good g).2 nofun
  waiting := h.waiting
  completing := h.completing
  token := h.token

theorem grantStep_guarded (s : GrantSystem n) (l : GrantStep n) (h : s.Guarded)
    (hs : Spares s l) : (grantStep s l).Guarded := by
  cases l with
  | startSession i intent =>
    dsimp only [grantStep]
    split
    · next hidle =>
      refine h.goto ?_ (openSession_takes intent) trivial (openSession_careful hidle intent)
      rw [hidle]
      exact openSession_leads h.sound.ledger intent
    · exact h
  | startOperation i kind userId =>
    dsimp only [grantStep]
    split
    · next hidle =>
      refine h.goto ?_ (openOperation_takes kind userId) (openOperation_knows _ kind userId)
        (openOperation_careful hidle kind userId)
      rw [hidle]
      exact openOperation_leads h.sound.ledger kind userId
    · exact h
  | claim i jobId =>
    dsimp only [grantStep]
    split
    · next hidle =>
      refine h.goto ?_ (openClaim_takes i jobId) (openClaim_knows _ i jobId)
        (openClaim_careful hidle i jobId)
      rw [hidle]
      exact openClaim_leads h.sound.ledger i jobId
    · exact h
  | advance i ch =>
    exact h.goto (advance_leads h.sound.ledger (h.sound.phase i))
      (advance_takes (h.sound.phase i))
      (advance_knows h.sound.ledger (h.sound.phase i) (h.knows i)) (advance_careful h hs)
  | expire g => exact h.expire g

theorem GrantPhase.operates_of_isQuiet (h : ph.isQuiet = true) : ph.operates = none := by
  cases ph <;> first | rfl | cases h

theorem GrantSystem.Guarded.noneKilled (h : s.Guarded) : s.NoneKilled := by
  intro hquiet a ha hguard g hg hk
  rcases h.token a ha g hg hk with hguarded | ⟨i, hguarded | ⟨op, hop, -⟩⟩
  · rw [hguard] at hguarded
    cases hguarded
  · rw [hguard] at hguarded
    cases hguarded
  · rw [GrantPhase.operates_of_isQuiet (hquiet i)] at hop
    cases hop

/-- **A connected account holds no killed grant.** In every run of any number of callbacks,
operations and workers whose steps kill no token in use, a stored token that is not behind
the disconnect guard is not one that a revocation has killed, whenever no operation is in
progress. -/
theorem none_killed (n : Nat) (steps : List (GrantStep n))
    (hs : Along grantStep Spares (GrantSystem.start n) steps) :
    Throughout grantStep GrantSystem.NoneKilled (GrantSystem.start n) steps :=
  (throughout_of_step grantStep_guarded (GrantSystem.guarded_start n) hs).mono
    fun _ h => h.noneKilled

/-- A sign-in that connects the account of a user, and a second one that stores its grant
once the user has disconnected. -/
def reconnectRun : List (GrantStep 2) :=
  .startSession 0 none :: .advance 0 { subject := "google-sub" } ::
    List.replicate 8 (.advance 0 {}) ++
  .startOperation 0 .disconnect 0 :: List.replicate 10 (.advance 0 {}) ++
  .startSession 1 none :: .advance 1 { subject := "google-sub" } ::
    List.replicate 8 (.advance 1 {})

theorem none_killed_reconnectRun :
    Throughout grantStep GrantSystem.NoneKilled (GrantSystem.start 2) reconnectRun :=
  none_killed 2 reconnectRun (by decide +kernel)

/-- A sign-in that connects the account of a user, and a second one of the same subject
whose identity lookup fails. -/
def identityRun : List (GrantStep 2) :=
  .startSession 0 none :: .advance 0 { subject := "google-sub" } ::
    List.replicate 8 (.advance 0 {}) ++
  .startSession 1 none :: .advance 1 { subject := "google-sub" } ::
    [.advance 1 { ok := false }, .advance 1 {}]

/-- The revocation of the new grant kills the stored token of the connected account. -/
theorem identityRun_kills :
    ¬ Throughout grantStep GrantSystem.NoneKilled (GrantSystem.start 2) identityRun := by
  intro h
  have hquiet : ∀ i,
      ((after grantStep (GrantSystem.start 2) identityRun).phase i).isQuiet = true := by
    decide +kernel
  have hstored : ⟨"google-sub", 0, some ⟨0, "google-sub"⟩⟩ ∈
      (after grantStep (GrantSystem.start 2) identityRun).ledger.accounts := by
    decide +kernel
  exact h.last hquiet _ hstored (by decide +kernel) ⟨0, "google-sub"⟩ rfl (by decide +kernel)

end ElectronicMail.OAuth
