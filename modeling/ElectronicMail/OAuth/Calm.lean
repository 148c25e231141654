import ElectronicMail.OAuth.Guarding

/-!
# Steps that kill no token in use

`Calm` is what most steps are for the callbacks that wait and for the stored tokens: they
kill nothing, end no job that withholds a callback, and open no guard. `Careful` is what
every step has to be, and `advance_careful` says that the steps which `spares` allows are.
-/

namespace ElectronicMail.OAuth

open Foundations.Table

/-! ## Calm steps -/

/-- The session of the callback is not newer than the tombstone of the subject. -/
def Ledger.Stale (w : Ledger) (c : Callback) : Prop := c.epoch ≤ w.tombstone c.subject

/-- The step kills nothing, keeps jobs active and guards closed, and stores no token. -/
structure Ledger.Calm (w w' : Ledger) : Prop where
  killed : w'.killed = w.killed
  active : ∀ subject, w.hasActive subject = true → w'.hasActive subject = true
  tombstone : ∀ subject, w.tombstone subject ≤ w'.tombstone subject
  token : ∀ a' ∈ w'.accounts, ∀ g, a'.token = some g → ∃ a ∈ w.accounts, a.userId = a'.userId ∧
    a.googleSub = a'.googleSub ∧ a.token = some g
  guarded : ∀ a' ∈ w'.accounts, w.isGuarded a'.userId = true → w'.isGuarded a'.userId = true

variable {subject : Subject} {id : Nat} {g : Grant}

section Ledger

variable {w w' : Ledger}

theorem Ledger.hasActive_iff :
    w.hasActive subject = true ↔ ∃ j ∈ w.jobs, j.isActive = true ∧ j.subjectHash = subject := by
  simp [Ledger.hasActive]

theorem Ledger.isGuarded_iff :
    w.isGuarded id = true ↔ ∃ u ∈ w.users, u.id = id ∧ u.isGuarded = true := by
  simp [Ledger.isGuarded]

theorem Ledger.Calm.refl (w : Ledger) : w.Calm w where
  killed := rfl
  active := fun _ => id
  tombstone := fun _ => Nat.le_refl _
  token := fun a ha _ hg => ⟨a, ha, rfl, rfl, hg⟩
  guarded := fun _ _ => id

theorem Ledger.issue_calm (w : Ledger) (subject : Subject) : w.Calm (w.issue subject) :=
  { Ledger.Calm.refl w with }

theorem Ledger.Ok.record_calm (h : w.Ok) (subject : Subject) : w.Calm (w.record subject) := by
  have hgood : w.Good none (w.record subject) := h.record subject
  exact { Ledger.Calm.refl w with tombstone := hgood.2.tombstone }

theorem Ledger.CallbackOk.record_stale {c : Callback} (hc : w.CallbackOk c)
    (hs : c.subject = subject) : (w.record subject).Stale c := by
  subst hs
  unfold Ledger.Stale
  rw [Ledger.record_tombstone]
  exact hc.2.1.le

theorem Ledger.enqueue_calm (w : Ledger) (subject : Subject) (g : Grant) :
    w.Calm (w.enqueue subject g).1 := by
  rcases w.enqueue_cases subject g with ⟨j, -, -, -, -, heq⟩ | heq
  · rw [heq]
    exact Ledger.Calm.refl w
  · rw [heq]
    refine { Ledger.Calm.refl w with active := fun other hactive => ?_ }
    obtain ⟨j, hj, ha, hs⟩ := Ledger.hasActive_iff.1 hactive
    exact Ledger.hasActive_iff.2 ⟨j, List.mem_append_left _ hj, ha, hs⟩

theorem Ledger.claim_calm (w : Ledger) (id worker : Nat) : w.Calm (w.claim id worker) := by
  refine { Ledger.Calm.refl w with active := fun other hactive => ?_ }
  obtain ⟨j, hj, ha, hs⟩ := Ledger.hasActive_iff.1 hactive
  refine Ledger.hasActive_iff.2 ⟨_, mem_updateWhere.2 ⟨j, hj, rfl⟩, ?_⟩
  split
  · exact ⟨rfl, hs⟩
  · exact ⟨ha, hs⟩

/-- `complete_job` finds the job of a revocation over. -/
theorem Ledger.JobOver.completeJob_eq (hover : w.JobOver id) (worker : Nat) :
    w.completeJob id worker = w := by
  have hnone : updateWhere (RevocationJob.isOwned id worker) (RevocationJob.close .succeeded)
      w.jobs = w.jobs := by
    refine updateWhere_eq_self fun j hj => ?_
    by_contra hne
    have howned : j.isOwned id worker = true := by simpa using hne
    have hactive := RevocationJob.isOwned_isActive howned
    simp only [RevocationJob.isOwned, Bool.and_eq_true, decide_eq_true_eq] at howned
    rw [hover.2 j hj howned.1.1] at hactive
    cases hactive
  unfold Ledger.completeJob
  rw [hnone]

variable {close : AppUser → AppUser}

theorem Ledger.Ok.closeGuard_calm (h : w.Ok) (id : Nat) (wasClosed : AppUser → Bool)
    (hf : ∀ u, (close u).id = u.id ∧ (close u).googleSub = u.googleSub)
    (hclose : ∀ u, (close u).isGuarded = true) : w.Calm (w.closeGuard id wasClosed close) := by
  obtain ⟨-, haccounts, hjobs, hkilled⟩ := w.closeGuard_eq id wasClosed close
  have hgood : w.Good none (w.closeGuard id wasClosed close) := h.closeGuard id wasClosed hf
  refine ⟨hkilled, fun subject hactive => ?_, hgood.2.tombstone, fun a ha g hg => ?_,
    fun a ha hguarded => ?_⟩
  · rw [Ledger.hasActive_iff, hjobs]
    exact Ledger.hasActive_iff.1 hactive
  · rw [haccounts] at ha
    exact ⟨a, ha, rfl, rfl, hg⟩
  · obtain ⟨u, hu, hid, hug⟩ := Ledger.isGuarded_iff.1 hguarded
    unfold Ledger.closeGuard
    cases huser : w.user id with
    | none => exact hguarded
    | some =>
      refine Ledger.isGuarded_iff.2 ⟨_, mem_updateWhere.2 ⟨u, hu, rfl⟩, ?_⟩
      split
      · exact ⟨(hf u).1.trans hid, hclose u⟩
      · exact ⟨hid, hug⟩

theorem Ledger.Ok.markDisconnected_calm (h : w.Ok) (id : Nat) : w.Calm (w.markDisconnected id) :=
  h.closeGuard_calm id _ (fun _ => ⟨rfl, rfl⟩) fun _ => rfl

theorem Ledger.Ok.requestDeletion_calm (h : w.Ok) (id : Nat) : w.Calm (w.requestDeletion id) :=
  h.closeGuard_calm id _ (fun _ => ⟨rfl, rfl⟩) fun u => by simp [AppUser.isGuarded]

theorem Ledger.Ok.guardFor_calm (h : w.Ok) (op : Operation) : w.Calm (w.guardFor op) := by
  unfold Ledger.guardFor
  cases op.kind with
  | disconnect | dataDeletion => exact h.markDisconnected_calm op.userId
  | accountDeletion => exact h.requestDeletion_calm op.userId

theorem Ledger.closeGuard_isGuarded (hu : ∃ u ∈ w.users, u.id = id) (wasClosed : AppUser → Bool)
    (hclose : ∀ u, (close u).id = u.id ∧ (close u).isGuarded = true) :
    (w.closeGuard id wasClosed close).isGuarded id = true := by
  obtain ⟨u, hu, hid⟩ := hu
  unfold Ledger.closeGuard
  cases huser : w.user id with
  | none =>
    have := List.find?_eq_none.1 huser u hu
    simp [hid] at this
  | some =>
    refine Ledger.isGuarded_iff.2 ⟨_, mem_updateWhere.2 ⟨u, hu, rfl⟩, ?_⟩
    rw [if_pos (by simpa using hid)]
    exact ⟨(hclose u).1.trans hid, (hclose u).2⟩

theorem Ledger.markDisconnected_isGuarded (hu : ∃ u ∈ w.users, u.id = id) :
    (w.markDisconnected id).isGuarded id = true :=
  Ledger.closeGuard_isGuarded hu _ fun _ => ⟨rfl, rfl⟩

theorem Ledger.guardFor_isGuarded {op : Operation} (hu : ∃ u ∈ w.users, u.id = op.userId) :
    (w.guardFor op).isGuarded op.userId = true := by
  unfold Ledger.guardFor
  cases op.kind with
  | disconnect | dataDeletion => exact Ledger.markDisconnected_isGuarded hu
  | accountDeletion =>
    exact Ledger.closeGuard_isGuarded hu _ fun u => ⟨rfl, by simp [AppUser.isGuarded]⟩

theorem Ledger.dropPrimary_calm (w : Ledger) (id : Nat) : w.Calm (w.dropPrimary id) := by
  refine ⟨rfl, fun _ h => h, fun _ => Nat.le_refl _, fun a' ha' g hg => ?_, fun _ _ h => h⟩
  obtain ⟨a, ha, rfl⟩ := mem_updateWhere.1 ha'
  refine ⟨a, ha, ?_⟩
  by_cases hp : w.isPrimary id a = true
  · rw [if_pos hp] at hg
    cases hg
  · rw [if_neg hp] at hg ⊢
    exact ⟨rfl, rfl, hg⟩

theorem Ledger.Ok.deleteUser_calm (h : w.Ok) (id : Nat) : w.Calm (w.deleteUser id) := by
  have hgood : w.Good none (w.deleteUser id) := h.deleteUser id
  have htombstone := hgood.2.tombstone
  unfold Ledger.deleteUser at htombstone ⊢
  cases huser : w.user id with
  | none => exact Ledger.Calm.refl w
  | some =>
    rw [huser] at htombstone
    refine ⟨rfl, fun _ h => h, htombstone, fun a ha g hg => ?_, fun a ha hguarded => ?_⟩
    · exact ⟨a, (List.mem_filter.1 ha).1, rfl, rfl, hg⟩
    · obtain ⟨u, hu, hid, hug⟩ := Ledger.isGuarded_iff.1 hguarded
      refine Ledger.isGuarded_iff.2 ⟨u, List.mem_filter.2 ⟨hu, ?_⟩, hid, hug⟩
      rw [hid]
      exact (List.mem_filter.1 ha).2

theorem Ledger.Ok.upsertUser_calm (h : w.Ok) {epoch : Nat}
    (hupsert : w.upsertUser subject epoch = some (w', id)) : w.Calm w' := by
  have hgood := h.upsertUser hupsert
  obtain ⟨rfl, -⟩ | ⟨rfl, -, -⟩ := Ledger.upsertUser_cases hupsert
  · exact Ledger.Calm.refl w'
  refine ⟨rfl, fun _ h => h, hgood.2.tombstone, fun a ha g hg => ?_, fun a ha hguarded => ?_⟩
  · rcases List.mem_append.1 ha with ha | ha
    · exact ⟨a, ha, rfl, rfl, hg⟩
    · rw [List.mem_singleton.1 ha] at hg
      cases hg
  · obtain ⟨u, hu, hid, hug⟩ := Ledger.isGuarded_iff.1 hguarded
    exact Ledger.isGuarded_iff.2 ⟨u, List.mem_append_left _ hu, hid, hug⟩

/-! ### Requests to Google -/

theorem Ledger.killed_request {h : Grant} {ch : Choice} (hk : h ∈ (w.request g ch).killed) :
    h ∈ w.killed ∨ (w.harmless g ch = false ∧ ch.processed = true ∧ h.subject = g.subject) := by
  unfold Ledger.request at hk
  by_cases hp : ch.processed = true
  · rw [if_pos hp] at hk
    rcases Ledger.mem_killed_revoke.1 hk with hk | ⟨hd, -, hs⟩
    · exact Or.inl hk
    · exact Or.inr ⟨by simp [Ledger.harmless, hp, hd], hp, hs⟩
  · rw [if_neg hp] at hk
    exact Or.inl hk

section

variable (w : Ledger) (g : Grant) (ch : Choice)

theorem Ledger.request_isGuarded (id : Nat) :
    (w.request g ch).isGuarded id = w.isGuarded id := by
  rw [w.request_eq]
  rfl

theorem Ledger.request_hasActive (subject : Subject) :
    (w.request g ch).hasActive subject = w.hasActive subject := by
  rw [w.request_eq]
  rfl

theorem Ledger.request_accounts :
    (w.request g ch).accounts = w.accounts := by
  rw [w.request_eq]

end

theorem Ledger.exposed_eq_false (h : w.exposed subject = false)
    {a : GmailAccount} (ha : a ∈ w.accounts) (hs : a.googleSub = subject)
    (ht : a.token = some g) : w.isGuarded a.userId = true := by
  by_contra hg
  have : w.exposed subject = true := by
    refine List.any_eq_true.2 ⟨a, ha, ?_⟩
    simpa [hs, ht] using hg
  rw [h] at this
  cases this

end Ledger

/-! ## Careful steps -/

/-- A killed token of the account is not in use: the guard is closed, or the process is in
an operation that will close it. -/
def Ledger.Shut (w : Ledger) (ph : GrantPhase) (a : GmailAccount) : Prop :=
  w.isGuarded a.userId = true ∨
    ∃ op, ph.operates = some op ∧ op.userId = a.userId ∧ op.subject = a.googleSub

variable {n : Nat}

/-- What a step of process `i` does to the other callbacks and to the stored tokens. -/
structure Careful (s : GrantSystem n) (i : Fin n) (next : Ledger × GrantPhase) : Prop where
  /-- A grant of another callback is killed under the lock, and the callback withheld. -/
  killed : ∀ j c, j ≠ i → (s.phase j).waits = some c → c.grant ∈ next.1.killed →
    c.grant ∈ s.ledger.killed ∨ ((s.phase i).lock = some c.subject ∧
      (next.1.hasActive c.subject = true ∨ next.2.confirmed = some c.subject))
  /-- A job goes on withholding the callbacks, until they are stale. -/
  active : ∀ j c, j ≠ i → (s.phase j).waits = some c → c.grant ∈ s.ledger.killed →
    s.ledger.hasActive c.subject = true → next.1.hasActive c.subject = true ∨ next.1.Stale c
  /-- And so does the lock. -/
  confirmed : ∀ j c, j ≠ i → (s.phase j).waits = some c →
    (s.phase i).confirmed = some c.subject →
    next.2.confirmed = some c.subject ∨ next.1.Stale c ∨ next.1.hasActive c.subject = true
  tombstone : ∀ subject, s.ledger.tombstone subject ≤ next.1.tombstone subject
  /-- The process goes on with the grant it had, and stores it only if its session is not
  stale or the grant not killed. -/
  mine : ∀ c, next.2.waits = some c → c.grant ∈ next.1.killed → ∃ c₀,
    (s.phase i).waits = some c₀ ∧ c₀.grant = c.grant ∧ c₀.epoch = c.epoch ∧
      c.grant ∈ s.ledger.killed ∧
      (next.2.isChecked = true → (s.phase i).isChecked = true ∨ next.1.Stale c) ∧
      (s.ledger.hasActive c.subject = true → next.1.hasActive c.subject = true)
  /-- The jobs of a subject are closed when all callbacks that wait are stale. -/
  completing : ∀ r all, next.2 = .completing r all → ∀ j c, j ≠ i →
    (s.phase j).waits = some c → c.subject = r.subject → next.1.Stale c
  /-- A killed token is shut, or was before. -/
  token : ∀ a' ∈ next.1.accounts, ∀ g, a'.token = some g → g ∈ next.1.killed →
    next.1.Shut next.2 a' ∨ ∃ a ∈ s.ledger.accounts, a.userId = a'.userId ∧
      a.googleSub = a'.googleSub ∧ a.token = some g ∧ g ∈ s.ledger.killed ∧
      (s.ledger.Shut (s.phase i) a → next.1.Shut next.2 a')

section Careful

variable {s : GrantSystem n} {i : Fin n} {w' : Ledger} {next : GrantPhase}

/-- The process goes on with the callback it was in, if it is still in one. -/
def GrantPhase.Continues (ph next : GrantPhase) : Prop :=
  ∀ c, next.waits = some c → ∃ c₀, ph.waits = some c₀ ∧ c₀.grant = c.grant ∧ c₀.epoch = c.epoch ∧
    (next.isChecked = true → ph.isChecked = true)

theorem GrantPhase.Continues.none {ph next : GrantPhase} (h : next.waits = none) :
    ph.Continues next := by
  intro c hc
  rw [h] at hc
  cases hc

theorem GrantPhase.Continues.same {ph next : GrantPhase} (h : next.waits = ph.waits)
    (hchecked : next.isChecked = true → ph.isChecked = true) : ph.Continues next :=
  fun c hc => ⟨c, h ▸ hc, rfl, rfl, hchecked⟩

theorem Ledger.Shut.keep {w : Ledger} {a : GmailAccount} (h : w.Shut (s.phase i) a)
    (hop : ∀ op, (s.phase i).operates = some op → next.operates = some op) : w.Shut next a :=
  h.imp_right fun ⟨op, hop', hou⟩ => ⟨op, hop op hop', hou⟩

theorem Ledger.Calm.careful_of_mine (h : s.ledger.Calm w')
    (hconfirmed : (s.phase i).confirmed = none)
    (hmine : ∀ c, next.waits = some c → c.grant ∈ s.ledger.killed → ∃ c₀,
      (s.phase i).waits = some c₀ ∧ c₀.grant = c.grant ∧ c₀.epoch = c.epoch ∧
        (next.isChecked = true → (s.phase i).isChecked = true ∨ w'.Stale c))
    (hnext : ∀ r all, next ≠ .completing r all)
    (hop : ∀ op, (s.phase i).operates = some op → next.operates = some op) :
    Careful s i (w', next) where
  killed := fun j c _ _ hk => Or.inl (h.killed ▸ hk)
  active := fun j c _ _ _ hactive => Or.inl (h.active c.subject hactive)
  confirmed := fun j c _ _ hc => by
    rw [hconfirmed] at hc
    cases hc
  tombstone := h.tombstone
  mine := fun c hc hk => by
    have hold : c.grant ∈ s.ledger.killed := h.killed ▸ hk
    obtain ⟨c₀, hc₀, hg, he, hchecked⟩ := hmine c hc hold
    exact ⟨c₀, hc₀, hg, he, hold, hchecked, h.active c.subject⟩
  completing := fun r all heq => absurd heq (hnext r all)
  token := fun a' ha' g hg hk => by
    obtain ⟨a, ha, hu, hs, ht⟩ := h.token a' ha' g hg
    refine Or.inr ⟨a, ha, hu, hs, ht, h.killed ▸ hk, ?_⟩
    rintro (hguarded | ⟨op, hop', hou, hos⟩)
    · exact Or.inl (h.guarded a' ha' (hu ▸ hguarded))
    · exact Or.inr ⟨op, hop op hop', hou.trans hu, hos.trans hs⟩

theorem Ledger.Calm.careful (h : s.ledger.Calm w') (hconfirmed : (s.phase i).confirmed = none)
    (hwaits : (s.phase i).Continues next) (hnext : ∀ r all, next ≠ .completing r all)
    (hop : ∀ op, (s.phase i).operates = some op → next.operates = some op) :
    Careful s i (w', next) := by
  refine h.careful_of_mine hconfirmed (fun c hc _ => ?_) hnext hop
  obtain ⟨c₀, hc₀, hg, he, hchecked⟩ := hwaits c hc
  exact ⟨c₀, hc₀, hg, he, fun hnext => Or.inl (hchecked hnext)⟩

/-! ### Requests to Google -/

theorem GrantSystem.withheld_cases (h : s.withheld i subject = true)
    {j : Fin n} {c : Callback} (hj : j ≠ i) (hc : (s.phase j).waits = some c)
    (hs : c.subject = subject) : s.ledger.hasActive subject = true := by
  simp only [GrantSystem.withheld, Bool.or_eq_true, GrantSystem.alone, decide_eq_true_eq] at h
  rcases h with h | h
  · exact h
  · exact absurd hs (h j hj c (by rw [hc]; rfl))

/-- A request whose answer does not arrive, or does and leads to `next`. The grants that
it kills are those of callbacks that are withheld, and tokens that are shut. -/
theorem request_careful {ch : Choice} (hconfirmed : (s.phase i).confirmed = none)
    (hwaits : next.waits = none) (hnext : ∀ r all, next ≠ .completing r all)
    (hop : ∀ op, (s.phase i).operates = some op → next.operates = some op)
    (hkilled : s.ledger.harmless g ch = false → ch.processed = true →
      ∀ j c, j ≠ i → (s.phase j).waits = some c → c.subject = g.subject →
      (s.phase i).lock = some c.subject ∧
        (s.ledger.hasActive c.subject = true ∨ next.confirmed = some c.subject))
    (htoken : s.ledger.harmless g ch = false → ∀ a ∈ s.ledger.accounts, a.googleSub = g.subject →
      ∀ h, a.token = some h → s.ledger.Shut next a) (hok : s.ledger.Ok) :
    Careful s i (s.ledger.request g ch, next) where
  killed := fun j c hj hc hk => by
    rcases Ledger.killed_request hk with hk | ⟨hharm, hp, hs⟩
    · exact Or.inl hk
    right
    dsimp only
    rw [Ledger.request_hasActive]
    exact hkilled hharm hp j c hj hc hs
  active := fun j c _ _ _ hactive => by
    left
    dsimp only
    rw [Ledger.request_hasActive]
    exact hactive
  confirmed := fun j c _ _ hc => by
    rw [hconfirmed] at hc
    cases hc
  tombstone := fun subject => by
    dsimp only
    rw [Ledger.request_eq]
  mine := fun c hc => by
    rw [hwaits] at hc
    cases hc
  completing := fun r all heq => absurd heq (hnext r all)
  token := fun a ha h ht hk => by
    dsimp only at ha hk ⊢
    rw [Ledger.request_accounts] at ha
    have hshut : s.ledger.Shut next a → (s.ledger.request g ch).Shut next a := by
      rintro (hguarded | hop)
      · left
        rw [Ledger.request_isGuarded]
        exact hguarded
      · exact Or.inr hop
    rcases Ledger.killed_request hk with hk | ⟨hharm, -, hs⟩
    · refine Or.inr ⟨a, ha, rfl, rfl, ht, hk, ?_⟩
      exact fun h => hshut (h.keep hop)
    · have hsub := hok.token_subject a ha h ht
      exact Or.inl (hshut (htoken hharm a ha (hsub.symm.trans hs) h ht))

end Careful

end ElectronicMail.OAuth
