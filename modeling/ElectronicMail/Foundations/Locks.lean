import Mathlib.Data.List.Nodup
import Mathlib.Data.Prod.Lex

/-!
# A lock manager and its wait-for graph

Owners run programs of lock actions over one or more connections. A request that
conflicts with a lock held by another session, or with an earlier waiting request of
another session, joins the queue; a session that already holds a lock in the requested
mode, or exclusively, has the request granted at once. A waiting owner does nothing
until its request can be granted. An owner may crash at any moment.

A program is `Ordered` when every request that could wait is for a key of higher rank
than all the keys its owner holds; keys that are only ever shared need no rank. For
owners with ordered programs no reachable wait-for graph has a cycle
(`waitsFor_acyclic`). The rules `Keeps` build ordered programs from parts that give
back what they take.
-/

namespace ElectronicMail.Foundations.Locks

universe u v w

inductive Mode where
  | shared
  | exclusive
  deriving DecidableEq

def Mode.conflicts : Mode → Mode → Bool
  | .shared, .shared => false
  | _, _ => true

structure Hold (C : Type v) (K : Type w) where
  connection : C
  key : K
  mode : Mode
  deriving DecidableEq

inductive Action (C : Type v) (K : Type w) where
  | acquire (hold : Hold C K)
  | release (hold : Hold C K)

variable {ι : Type u} {C : Type v} {K : Type w}

/-- The locks that are held, the waiting requests in the order of their arrival, and
what is left of every program. -/
structure State (ι : Type u) (C : Type v) (K : Type w) where
  held : List (ι × Hold C K)
  queue : List (ι × Hold C K)
  program : ι → List (Action C K)

/-- A request of one session and a lock or request of another one on the same key, in
modes that conflict. -/
def Blocks (request other : ι × Hold C K) : Prop :=
  ¬ (other.1 = request.1 ∧ other.2.connection = request.2.connection) ∧
    other.2.key = request.2.key ∧ other.2.mode.conflicts request.2.mode = true

def Reentrant (holds : List (Hold C K)) (hold : Hold C K) : Prop :=
  ∃ h ∈ holds, h.connection = hold.connection ∧ h.key = hold.key ∧
    (h.mode = hold.mode ∨ h.mode = .exclusive)

section Holds

variable [DecidableEq ι]

def holdsOf (held : List (ι × Hold C K)) (i : ι) : List (Hold C K) :=
  (held.filter fun p => decide (p.1 = i)).map Prod.snd

variable {held : List (ι × Hold C K)} {i j : ι} {hold : Hold C K}

@[simp] theorem holdsOf_cons_self : holdsOf ((i, hold) :: held) i = hold :: holdsOf held i := by
  simp [holdsOf]

theorem holdsOf_cons_of_ne (h : i ≠ j) : holdsOf ((i, hold) :: held) j = holdsOf held j := by
  simp [holdsOf, h]

theorem mem_holdsOf : hold ∈ holdsOf held i ↔ (i, hold) ∈ held := by
  simp [holdsOf]

theorem holdsOf_crash_of_ne (hne : j ≠ i) :
    holdsOf (held.filter fun p => decide (p.1 ≠ i)) j = holdsOf held j := by
  unfold holdsOf
  rw [List.filter_filter]
  congr 1
  apply List.filter_congr
  intro p _
  by_cases h : p.1 = j
  · simp [h, hne]
  · simp [h]

variable [DecidableEq C] [DecidableEq K]

theorem holdsOf_erase_self : holdsOf (held.erase (i, hold)) i = (holdsOf held i).erase hold := by
  induction held with
  | nil => rfl
  | cons p held ih =>
    obtain ⟨k, h⟩ := p
    by_cases he : (k, h) = (i, hold)
    · obtain ⟨rfl, rfl⟩ := Prod.mk.inj he
      rw [List.erase_cons_head, holdsOf_cons_self, List.erase_cons_head]
    rw [List.erase_cons_tail (by simpa using he)]
    by_cases hk : k = i
    · subst hk
      have hne : ¬ h = hold := fun e => he (by rw [e])
      rw [holdsOf_cons_self, holdsOf_cons_self, ih, List.erase_cons_tail (by simpa using hne)]
    · rw [holdsOf_cons_of_ne hk, holdsOf_cons_of_ne hk, ih]

theorem holdsOf_erase_of_ne (hne : i ≠ j) : holdsOf (held.erase (i, hold)) j = holdsOf held j := by
  induction held with
  | nil => rfl
  | cons p held ih =>
    obtain ⟨k, h⟩ := p
    by_cases he : (k, h) = (i, hold)
    · obtain ⟨rfl, rfl⟩ := Prod.mk.inj he
      rw [List.erase_cons_head, holdsOf_cons_of_ne hne]
    · rw [List.erase_cons_tail (by simpa using he)]
      by_cases hk : k = j
      · subst hk
        rw [holdsOf_cons_self, holdsOf_cons_self, ih]
      · rw [holdsOf_cons_of_ne hk, holdsOf_cons_of_ne hk, ih]

end Holds

section Decidable

variable [DecidableEq ι] [DecidableEq C] [DecidableEq K]

instance (request other : ι × Hold C K) : Decidable (Blocks request other) :=
  inferInstanceAs (Decidable (¬ (_ ∧ _) ∧ _ ∧ _))

instance (holds : List (Hold C K)) (hold : Hold C K) : Decidable (Reentrant holds hold) :=
  inferInstanceAs (Decidable (∃ h ∈ holds, _ ∧ _ ∧ (_ ∨ _)))

def State.ahead (s : State ι C K) (request : ι × Hold C K) : List (ι × Hold C K) :=
  s.queue.takeWhile fun p => decide (p ≠ request)

/-- A request is granted when nothing held and nothing waiting before it blocks it, or
when its session has the lock already. -/
def State.Grantable (s : State ι C K) (request : ι × Hold C K) : Prop :=
  Reentrant (holdsOf s.held request.1) request.2 ∨
    ∀ other ∈ s.held ++ s.ahead request, ¬ Blocks request other

instance (s : State ι C K) (request : ι × Hold C K) : Decidable (s.Grantable request) :=
  inferInstanceAs (Decidable (_ ∨ _))

inductive Event (ι : Type u) where
  | run (i : ι)
  | crash (i : ι)

def State.setProgram (s : State ι C K) (i : ι) (rest : List (Action C K)) : ι → List (Action C K) :=
  fun j => if j = i then rest else s.program j

def step (s : State ι C K) : Event ι → State ι C K
  | .run i =>
    match s.program i with
    | [] => s
    | .acquire hold :: rest =>
      if s.Grantable (i, hold) then
        { held := (i, hold) :: s.held
          queue := s.queue.erase (i, hold)
          program := s.setProgram i rest }
      else if (i, hold) ∈ s.queue then s
      else { s with queue := s.queue ++ [(i, hold)] }
    | .release hold :: rest =>
      { s with held := s.held.erase (i, hold), program := s.setProgram i rest }
  | .crash i =>
    { held := s.held.filter fun p => decide (p.1 ≠ i)
      queue := s.queue.filter fun p => decide (p.1 ≠ i)
      program := s.setProgram i [] }

def start (program : ι → List (Action C K)) : State ι C K := ⟨[], [], program⟩

/-- **The wait-for graph.** An owner waits for those whose locks or earlier requests
block its request. -/
def State.WaitsFor (s : State ι C K) (i j : ι) : Prop :=
  ∃ request ∈ s.queue, request.1 = i ∧
    ∃ other ∈ s.held ++ s.ahead request, Blocks request other ∧ other.1 = j

instance (s : State ι C K) (i j : ι) : Decidable (s.WaitsFor i j) :=
  inferInstanceAs (Decidable (∃ request ∈ s.queue, _ ∧ ∃ other ∈ _, _ ∧ _))

/-! ## Ordered programs -/

variable (rank : K → Nat) (shareOnly : K → Prop)

/-- A request that respects the order: it cannot wait, or its key is above every key
held. -/
def Admissible (holds : List (Hold C K)) (hold : Hold C K) : Prop :=
  (shareOnly hold.key → hold.mode = .shared) ∧
    (Reentrant holds hold ∨ shareOnly hold.key ∨
      ∀ h ∈ holds, shareOnly h.key ∨ rank h.key < rank hold.key)

def Ordered : List (Hold C K) → List (Action C K) → Prop
  | _, [] => True
  | holds, .acquire hold :: rest =>
    Admissible rank shareOnly holds hold ∧ Ordered (hold :: holds) rest
  | holds, .release hold :: rest => Ordered (holds.erase hold) rest

/-- A part of a program that respects the order and gives back what it takes. -/
def Keeps (holds : List (Hold C K)) (part : List (Action C K)) : Prop :=
  ∀ rest, Ordered rank shareOnly holds rest → Ordered rank shareOnly holds (part ++ rest)

section Rules

variable {rank shareOnly} {holds : List (Hold C K)}

theorem Keeps.nil : Keeps rank shareOnly holds [] := fun _ h => h

variable {part : List (Action C K)}

theorem Keeps.append {part' : List (Action C K)} (h : Keeps rank shareOnly holds part)
    (h' : Keeps rank shareOnly holds part') : Keeps rank shareOnly holds (part ++ part') := by
  intro rest hrest
  rw [List.append_assoc]
  exact h _ (h' rest hrest)

theorem Keeps.flatten {parts : List (List (Action C K))}
    (h : ∀ part ∈ parts, Keeps rank shareOnly holds part) :
    Keeps rank shareOnly holds parts.flatten := by
  induction parts with
  | nil => exact Keeps.nil
  | cons part parts ih =>
    rw [List.flatten_cons]
    exact (h part List.mem_cons_self).append (ih fun p hp => h p (List.mem_cons_of_mem _ hp))

theorem Keeps.bracket {hold : Hold C K} (hadmissible : Admissible rank shareOnly holds hold)
    (h : Keeps rank shareOnly (hold :: holds) part) :
    Keeps rank shareOnly holds (.acquire hold :: part ++ [.release hold]) := by
  intro rest hrest
  refine ⟨hadmissible, ?_⟩
  show Ordered rank shareOnly (hold :: holds) ((part ++ [.release hold]) ++ rest)
  rw [List.append_assoc]
  apply h
  show Ordered rank shareOnly ((hold :: holds).erase hold) rest
  rw [List.erase_cons_head]
  exact hrest

theorem Keeps.ordered (h : Keeps rank shareOnly holds part) :
    Ordered rank shareOnly holds part := by
  have := h [] trivial
  rwa [List.append_nil] at this

end Rules

/-! ## Runs of ordered programs -/

structure Disciplined (s : State ι C K) : Prop where
  /-- Every program goes on in order. -/
  ordered : ∀ i, Ordered rank shareOnly (holdsOf s.held i) (s.program i)
  /-- A waiting request is the next action of its owner. -/
  next : ∀ p ∈ s.queue, ∃ rest, s.program p.1 = .acquire p.2 :: rest
  /-- No request waits twice. -/
  nodup : s.queue.Nodup
  /-- No waiting request could be granted as a held lock. -/
  waits : ∀ p ∈ s.queue, ¬ Reentrant (holdsOf s.held p.1) p.2
  /-- A key that is only shared is held in that mode, -/
  shared : ∀ p ∈ s.held, shareOnly p.2.key → p.2.mode = .shared
  /-- and no one waits for it. -/
  ranked : ∀ p ∈ s.queue, ¬ shareOnly p.2.key

section Run

variable {rank shareOnly}

theorem Disciplined.start {program : ι → List (Action C K)}
    (h : ∀ i, Ordered rank shareOnly [] (program i)) :
    Disciplined rank shareOnly (start program) where
  ordered := h
  next := List.forall_mem_nil _
  nodup := List.nodup_nil
  waits := List.forall_mem_nil _
  shared := List.forall_mem_nil _
  ranked := List.forall_mem_nil _

variable {s : State ι C K}

section

variable (h : Disciplined rank shareOnly s)
include h

variable {hold : Hold C K} {rest : List (Action C K)}

variable {i : ι}

section

variable (hprogram : s.program i = .acquire hold :: rest)
include hprogram

/-- Another owner's request is not touched by a step of `i`. -/
theorem Disciplined.other {p : ι × Hold C K}
    (hp : p ∈ s.queue) (hne : p ≠ (i, hold)) : p.1 ≠ i := by
  rintro rfl
  obtain ⟨rest', hnext⟩ := h.next p hp
  rw [hprogram] at hnext
  obtain ⟨hhold, -⟩ := List.cons.inj hnext
  obtain rfl := Action.acquire.inj hhold
  exact hne rfl

theorem Disciplined.acquired :
    Disciplined rank shareOnly
      { held := (i, hold) :: s.held
        queue := s.queue.erase (i, hold)
        program := s.setProgram i rest } := by
  have hadmissible := h.ordered i
  rw [hprogram] at hadmissible
  have hqueue : ∀ p ∈ s.queue.erase (i, hold), p ∈ s.queue ∧ p.1 ≠ i := by
    intro p hp
    have hmem := List.mem_of_mem_erase hp
    refine ⟨hmem, h.other hprogram hmem ?_⟩
    rintro rfl
    exact h.nodup.not_mem_erase hp
  refine ⟨?_, ?_, h.nodup.erase _, ?_, ?_, fun p hp => h.ranked p (hqueue p hp).1⟩
  · intro j
    by_cases hj : j = i
    · subst hj
      simp only [State.setProgram, if_true, holdsOf_cons_self]
      exact hadmissible.2
    · simp only [State.setProgram, if_neg hj, holdsOf_cons_of_ne (Ne.symm hj)]
      exact h.ordered j
  · intro p hp
    obtain ⟨hmem, hne⟩ := hqueue p hp
    simp only [State.setProgram, if_neg hne]
    exact h.next p hmem
  · intro p hp
    obtain ⟨hmem, hne⟩ := hqueue p hp
    rw [holdsOf_cons_of_ne (Ne.symm hne)]
    exact h.waits p hmem
  · intro p hp
    rcases List.mem_cons.1 hp with rfl | hp
    · exact hadmissible.1.1
    · exact h.shared p hp

theorem Disciplined.queued (hgrantable : ¬ s.Grantable (i, hold)) (hnew : (i, hold) ∉ s.queue) :
    Disciplined rank shareOnly { s with queue := s.queue ++ [(i, hold)] } := by
  have hadmissible := h.ordered i
  rw [hprogram] at hadmissible
  refine ⟨h.ordered, ?_, ?_, ?_, h.shared, ?_⟩
  · intro p hp
    rcases List.mem_append.1 hp with hp | hp
    · exact h.next p hp
    · obtain rfl := List.mem_singleton.1 hp
      exact ⟨rest, hprogram⟩
  · exact h.nodup.append (List.nodup_singleton _) (by simpa [List.disjoint_singleton] using hnew)
  · intro p hp
    rcases List.mem_append.1 hp with hp | hp
    · exact h.waits p hp
    · obtain rfl := List.mem_singleton.1 hp
      exact fun hreentrant => hgrantable (Or.inl hreentrant)
  · intro p hp hshare
    rcases List.mem_append.1 hp with hp | hp
    · exact h.ranked p hp hshare
    -- nothing on the key conflicts with a shared request
    obtain rfl := List.mem_singleton.1 hp
    refine hgrantable (Or.inr ?_)
    rintro other hother ⟨-, hkey, hconflict⟩
    rcases List.mem_append.1 hother with hheld | hahead
    · have homode := h.shared other hheld (hkey ▸ hshare)
      rw [homode, hadmissible.1.1 hshare] at hconflict
      cases hconflict
    · exact h.ranked other ((List.takeWhile_sublist _).subset hahead) (hkey ▸ hshare)

end

theorem Disciplined.released (hprogram : s.program i = .release hold :: rest) :
    Disciplined rank shareOnly
      { s with held := s.held.erase (i, hold), program := s.setProgram i rest } := by
  have hordered := h.ordered i
  rw [hprogram] at hordered
  -- an owner that releases a lock is not waiting
  have hqueue : ∀ p ∈ s.queue, p.1 ≠ i := by
    rintro p hp rfl
    obtain ⟨rest', hnext⟩ := h.next p hp
    rw [hprogram] at hnext
    cases (List.cons.inj hnext).1
  refine ⟨?_, ?_, h.nodup, ?_, ?_, h.ranked⟩
  · intro j
    by_cases hj : j = i
    · subst hj
      simp only [State.setProgram, if_true, holdsOf_erase_self]
      exact hordered
    · simp only [State.setProgram, if_neg hj, holdsOf_erase_of_ne (Ne.symm hj)]
      exact h.ordered j
  · intro p hp
    simp only [State.setProgram, if_neg (hqueue p hp)]
    exact h.next p hp
  · intro p hp
    rw [holdsOf_erase_of_ne (Ne.symm (hqueue p hp))]
    exact h.waits p hp
  · intro p hp
    exact h.shared p (List.mem_of_mem_erase hp)

theorem Disciplined.crashed (i : ι) : Disciplined rank shareOnly (step s (.crash i)) := by
  have hqueue : ∀ p ∈ s.queue.filter fun p => decide (p.1 ≠ i), p ∈ s.queue ∧ p.1 ≠ i := by
    intro p hp
    have hmem := List.mem_filter.1 hp
    exact ⟨hmem.1, of_decide_eq_true hmem.2⟩
  refine ⟨?_, ?_, h.nodup.filter _, ?_, ?_, fun p hp => h.ranked p (hqueue p hp).1⟩
  · intro j
    by_cases hj : j = i
    · subst hj
      simp only [step, State.setProgram, if_true]
      trivial
    · simp only [step, State.setProgram, if_neg hj, holdsOf_crash_of_ne hj]
      exact h.ordered j
  · intro p hp
    obtain ⟨hmem, hne⟩ := hqueue p hp
    simp only [step, State.setProgram, if_neg hne]
    exact h.next p hmem
  · intro p hp
    obtain ⟨hmem, hne⟩ := hqueue p hp
    simp only [step, holdsOf_crash_of_ne hne]
    exact h.waits p hmem
  · intro p hp
    exact h.shared p (List.mem_filter.1 hp).1

/-- **The step lemma.** -/
theorem Disciplined.step (event : Event ι) : Disciplined rank shareOnly (step s event) := by
  cases event with
  | run i =>
    cases hprogram : s.program i with
    | nil =>
      simp only [Locks.step, hprogram]
      exact h
    | cons action rest =>
      cases action with
      | acquire hold =>
        simp only [Locks.step, hprogram]
        split
        · exact h.acquired hprogram
        rename_i hgrantable
        split
        · exact h
        · rename_i hnew
          exact h.queued hprogram hgrantable hnew
      | release =>
        simp only [Locks.step, hprogram]
        exact h.released hprogram
  | crash i => exact h.crashed i

end

/-! ## No cycle -/

/-- Where an owner stands: the rank of the key it waits for, then how much of the
queue is behind its request. -/
def level (rank : K → Nat) (s : State ι C K) (i : ι) : Nat ×ₗ Nat :=
  match s.queue.find? fun p => decide (p.1 = i) with
  | none => toLex (0, 0)
  | some p => toLex (rank p.2.key, (s.queue.dropWhile fun q => decide (q ≠ p)).length)

theorem Disciplined.unique (h : Disciplined rank shareOnly s) {p q : ι × Hold C K}
    (hp : p ∈ s.queue) (hq : q ∈ s.queue) (howner : p.1 = q.1) : p = q := by
  obtain ⟨rest, hnext⟩ := h.next p hp
  obtain ⟨rest', hnext'⟩ := h.next q hq
  rw [howner, hnext'] at hnext
  exact Prod.ext howner (Action.acquire.inj (List.cons.inj hnext).1).symm

theorem Disciplined.level_eq (h : Disciplined rank shareOnly s) {p : ι × Hold C K}
    (hp : p ∈ s.queue) :
    level rank s p.1 =
      toLex (rank p.2.key, (s.queue.dropWhile fun q => decide (q ≠ p)).length) := by
  unfold level
  cases hfind : s.queue.find? fun q => decide (q.1 = p.1) with
  | none =>
    rw [List.find?_eq_none] at hfind
    exact absurd (decide_eq_true rfl) (hfind p hp)
  | some q =>
    have hq := List.mem_of_find?_eq_some hfind
    have howner : q.1 = p.1 := of_decide_eq_true (by simpa using List.find?_some hfind)
    rw [h.unique hq hp howner]

theorem length_dropWhile_lt {α : Type u} [DecidableEq α] {l : List α} (hl : l.Nodup) {p q : α}
    (hp : p ∈ l) (hq : q ∈ l.takeWhile fun x => decide (x ≠ p)) :
    (l.dropWhile fun x => decide (x ≠ p)).length <
      (l.dropWhile fun x => decide (x ≠ q)).length := by
  induction l with
  | nil => cases hp
  | cons a l ih =>
    by_cases ha : a = p
    · subst ha
      simp at hq
    rw [List.takeWhile_cons_of_pos (by simpa using ha)] at hq
    rw [List.dropWhile_cons_of_pos (by simpa using ha)]
    have hpl : p ∈ l := (List.mem_cons.1 hp).resolve_left (Ne.symm ha)
    by_cases hqa : a = q
    · subst hqa
      rw [List.dropWhile_cons_of_neg (by simp), List.length_cons]
      exact Nat.lt_succ_of_le (List.dropWhile_sublist _).length_le
    · rw [List.dropWhile_cons_of_pos (by simpa using hqa)]
      exact ih (List.nodup_cons.1 hl).2 hpl ((List.mem_cons.1 hq).resolve_left (Ne.symm hqa))

/-- **Waiting goes up.** An owner that is waited for and waits itself is at a higher
level. -/
theorem Disciplined.level_lt (h : Disciplined rank shareOnly s) {i j : ι}
    (hwaits : s.WaitsFor i j) (hj : ∃ q ∈ s.queue, q.1 = j) : level rank s i < level rank s j := by
  obtain ⟨p, hp, rfl, other, hother, ⟨-, hkey, -⟩, rfl⟩ := hwaits
  obtain ⟨q, hq, howner⟩ := hj
  rw [h.level_eq hp, ← howner, h.level_eq hq]
  rcases List.mem_append.1 hother with hheld | hahead
  · -- a held lock: its owner waits for a key of higher rank
    apply Prod.Lex.toLex_lt_toLex.2
    left
    obtain ⟨rest, hnext⟩ := h.next q hq
    have hordered := h.ordered q.1
    rw [hnext] at hordered
    have hhold : other.2 ∈ holdsOf s.held q.1 := by
      rw [mem_holdsOf, howner]
      exact hheld
    rcases hordered.1.2 with hreentrant | hshare | hrank
    · exact absurd hreentrant (h.waits q hq)
    · exact absurd hshare (h.ranked q hq)
    · rcases hrank other.2 hhold with hshare | hlt
      · exact absurd (hkey ▸ hshare) (h.ranked p hp)
      · rwa [hkey] at hlt
  · -- an earlier request: the same key, nearer to the front
    apply Prod.Lex.toLex_lt_toLex.2
    right
    have hmem : other ∈ s.queue := (List.takeWhile_sublist _).subset hahead
    obtain rfl := h.unique hq hmem howner
    exact ⟨by rw [hkey], length_dropWhile_lt h.nodup hp hahead⟩

/-- **No deadlock.** In a state of a run of ordered programs no owner waits, directly
or through others, for itself. -/
theorem Disciplined.waitsFor_acyclic (h : Disciplined rank shareOnly s) (i : ι) :
    ¬ Relation.TransGen s.WaitsFor i i := by
  have hrises : ∀ j k, Relation.TransGen s.WaitsFor j k → (∃ q ∈ s.queue, q.1 = k) →
      level rank s j < level rank s k := by
    intro j k hpath hk
    induction hpath using Relation.TransGen.head_induction_on with
    | single hedge => exact h.level_lt hedge hk
    | head hedge hpath ih =>
      -- the next owner waits as well, since an edge leaves it
      refine lt_trans (h.level_lt hedge ?_) ih
      obtain ⟨l, ⟨q, hq, howner, -⟩, -⟩ := Relation.TransGen.head'_iff.1 hpath
      exact ⟨q, hq, howner⟩
  intro hcycle
  obtain ⟨l, ⟨q, hq, howner, -⟩, -⟩ := Relation.TransGen.head'_iff.1 hcycle
  exact lt_irrefl _ (hrises i i hcycle ⟨q, hq, howner⟩)

end Run

end Decidable

end ElectronicMail.Foundations.Locks
