import Mathlib.Data.Rat.Floor
import ElectronicMail.Foundations.Run
import ElectronicMail.Foundations.SlidingWindow

/-!
# The limits of a process

`_consume` counts the calls of one rule and identity in a sliding window, and from time to time
`_cleanup` drops the keys whose calls have all left the window. The calls are made one after
another, under the lock, at the readings of a clock that does not go back; a reading is a number of
seconds, and differences of readings are exact.

`consume_slides` is what the limiter promises about every sequence of calls. `Tracks` is the
invariant: for every key the deque is the end of the times admitted, what is missing has left the
window, and there are no more than the maximum.
-/

namespace ElectronicMail.RateLimit

open Foundations

/-! ## The limiter -/

structure Key where
  rule : String
  identity : String
  deriving DecidableEq

/-- `_events`, where a key that is not there has the empty deque, and `_last_cleanup`. -/
structure Limiter where
  events : Key → List ℚ
  lastCleanup : ℚ

/-- `__init__`. -/
def Limiter.new : Limiter := ⟨fun _ => [], 0⟩

/-- A call of `_consume`, with what the clock reads. -/
structure Call where
  key : Key
  now : ℚ

/-- `(True, 0)`, `(False, retry_after)`, or the `IndexError` of an empty deque. -/
inductive Reply where
  | admitted
  | refused (retryAfter : Int)
  | failed
  deriving DecidableEq

/-- `int(x)`. -/
def truncate (x : ℚ) : Int := if 0 ≤ x then ⌊x⌋ else ⌈x⌉

def cleanup (cutoff : ℚ) (events : Key → List ℚ) : Key → List ℚ := fun key =>
  match (events key).getLast? with
  | none => []
  | some last => if last ≤ cutoff then [] else events key

variable {r : Int} {before calls : List Call}

section Limits

-- The maximum of each rule and `window_seconds`, which the rules have in common.
variable (maximum : String → Nat) (window : Int)

/-- The deque of the key after the `while` of `_consume`. -/
def current (limiter : Limiter) (call : Call) : List ℚ :=
  evict (call.now - window) (limiter.events call.key)

def appended (limiter : Limiter) (call : Call) : Key → List ℚ :=
  Function.update limiter.events call.key (current window limiter call ++ [call.now])

def consume (limiter : Limiter) (call : Call) : Limiter × Reply :=
  let events := current window limiter call
  if maximum call.key.rule ≤ events.length then
    let reply := match events with
      | [] => .failed
      | first :: _ => .refused (max 1 (truncate (window - (call.now - first)) + 1))
    (⟨Function.update limiter.events call.key events, limiter.lastCleanup⟩, reply)
  else
    let admitted := appended window limiter call
    if 300 < call.now - limiter.lastCleanup then
      (⟨cleanup (call.now - window) admitted, call.now⟩, .admitted)
    else (⟨admitted, limiter.lastCleanup⟩, .admitted)

/-! ## Sequences of calls -/

def limiterAfter (calls : List Call) : Limiter :=
  after (fun limiter call => (consume maximum window limiter call).1) .new calls

def reply (calls : List Call) (call : Call) : Reply :=
  (consume maximum window (limiterAfter maximum window calls) call).2

/-- The times at which calls of a key were admitted, from a limiter on. -/
def admittedFrom (key : Key) : Limiter → List Call → List ℚ
  | _, [] => []
  | limiter, call :: calls =>
    let next := consume maximum window limiter call
    let rest := admittedFrom key next.1 calls
    if call.key = key ∧ next.2 = .admitted then call.now :: rest else rest

def admittedTimes (key : Key) (calls : List Call) : List ℚ :=
  admittedFrom maximum window key .new calls

/-- In every half-open interval as long as the window, a key has at most the maximum of its rule
admitted. -/
def Limited (calls : List Call) : Prop :=
  ∀ key (t : ℚ),
    ((admittedTimes maximum window key calls).filter fun x => t ≤ x ∧ x < t + window).length ≤
        maximum key.rule ∧
      ((admittedTimes maximum window key calls).filter fun x => t < x ∧ x ≤ t + window).length ≤
        maximum key.rule

/-- A call is refused only if the maximum was admitted within the preceding window. -/
def RefusedWhenFull (calls : List Call) : Prop :=
  ∀ before call later r, calls = before ++ call :: later →
    reply maximum window before call = .refused r →
      maximum call.key.rule ≤ ((admittedTimes maximum window call.key before).filter fun x =>
          call.now - window < x ∧ x ≤ call.now).length

/-- A call `retry_after` seconds after a refusal, or later, is admitted, if there was none of its
key in between. -/
def RetryAdmitted (calls : List Call) : Prop :=
  ∀ before call between again later r, calls = before ++ call :: (between ++ again :: later) →
    reply maximum window before call = .refused r →
      again.key = call.key → (∀ other ∈ between, other.key ≠ call.key) →
        call.now + r ≤ again.now →
          reply maximum window (before ++ call :: between) again = .admitted

/-! ## One call -/

variable {maximum window}

variable (maximum window) in
/-- What a call does. A full deque is left as it is; otherwise the call is added, and a key that a
cleanup empties has had its last call before the window. -/
theorem consume_cases (limiter : Limiter) (call : Call) :
    (maximum call.key.rule ≤ (current window limiter call).length ∧
      (consume maximum window limiter call).2 ≠ .admitted ∧
      (consume maximum window limiter call).1.events =
        Function.update limiter.events call.key (current window limiter call)) ∨
    ((current window limiter call).length < maximum call.key.rule ∧
      (consume maximum window limiter call).2 = .admitted ∧
      ∀ key, (consume maximum window limiter call).1.events key = appended window limiter call key ∨
        ((consume maximum window limiter call).1.events key = [] ∧
          ∀ last ∈ (appended window limiter call key).getLast?, last ≤ call.now - window)) := by
  unfold consume
  by_cases hfull : maximum call.key.rule ≤ (current window limiter call).length
  · left
    rw [if_pos hfull]
    refine ⟨hfull, ?_, rfl⟩
    cases current window limiter call <;> simp
  · right
    rw [if_neg hfull]
    refine ⟨not_le.1 hfull, ?_, fun key => ?_⟩
    · dsimp only
      split <;> rfl
    dsimp only
    split
    · show cleanup _ _ key = _ ∨ cleanup _ _ key = _ ∧ _
      unfold cleanup
      cases hlast : (appended window limiter call key).getLast? with
      | none => exact Or.inl (List.getLast?_eq_none_iff.1 hlast).symm
      | some last =>
        by_cases hle : last ≤ call.now - window
        · right
          simp [hle]
        · exact Or.inl (if_neg hle)
    · exact Or.inl rfl

variable {call : Call}

theorem consume_refused {limiter : Limiter}
    (h : (consume maximum window limiter call).2 = .refused r) :
    maximum call.key.rule ≤ (current window limiter call).length ∧
      ∃ first rest, current window limiter call = first :: rest ∧
        r = max 1 (truncate (window - (call.now - first)) + 1) := by
  unfold consume at h
  by_cases hfull : maximum call.key.rule ≤ (current window limiter call).length
  · rw [if_pos hfull] at h
    refine ⟨hfull, ?_⟩
    cases hcurrent : current window limiter call with
    | nil => simp [hcurrent] at h
    | cons first rest =>
      simp only [hcurrent, Reply.refused.injEq] at h
      exact ⟨first, rest, rfl, h.symm⟩
  · rw [if_neg hfull] at h
    dsimp only at h
    split at h <;> cases h

/-! ## What the limiter keeps -/

variable (maximum window) in
/-- The deques are the ends of the logs of times admitted, up to the window before `now`. -/
structure Tracks (limiter : Limiter) (log : Key → List ℚ) (now : ℚ) : Prop where
  window : ∀ key, Window (window : ℚ) now (log key) (limiter.events key)
  bounded : ∀ key, (limiter.events key).length ≤ maximum key.rule

def logged (log : Key → List ℚ) (call : Call) (reply : Reply) (key : Key) : List ℚ :=
  if call.key = key ∧ reply = .admitted then log key ++ [call.now] else log key

section Step

variable {limiter : Limiter} {log : Key → List ℚ} {now : ℚ} {call : Call}

theorem Tracks.new (now : ℚ) : Tracks maximum window .new (fun _ => []) now :=
  ⟨fun _ => Window.nil, fun _ => Nat.zero_le _⟩

variable (window) in
theorem length_current_le (limiter : Limiter) (call : Call) :
    (current window limiter call).length ≤ (limiter.events call.key).length :=
  length_evict_le _ _

theorem Tracks.step (h : Tracks maximum window limiter log call.now) :
    Tracks maximum window (consume maximum window limiter call).1
      (logged log call (consume maximum window limiter call).2) call.now := by
  have hevicted := (h.window call.key).evict
  rcases consume_cases maximum window limiter call with
    ⟨-, hreply, hevents⟩ | ⟨hroom, hreply, hevents⟩
  · have hlog : logged log call (consume maximum window limiter call).2 = log := by
      funext key
      simp [logged, hreply]
    rw [hlog]
    constructor
    · intro key
      rw [hevents]
      by_cases hkey : key = call.key
      · subst hkey
        rw [Function.update_self]
        exact hevicted
      · rw [Function.update_of_ne hkey]
        exact h.window key
    · intro key
      rw [hevents]
      by_cases hkey : key = call.key
      · subst hkey
        rw [Function.update_self]
        exact (length_current_le window limiter call).trans (h.bounded call.key)
      · rw [Function.update_of_ne hkey]
        exact h.bounded key
  · -- The deques before a cleanup are tracked, and a cleanup drops what has left the window.
    have hkept (key : Key) : Window (window : ℚ) call.now
        (logged log call (consume maximum window limiter call).2 key)
        (appended window limiter call key) := by
      unfold appended
      by_cases hkey : key = call.key
      · subst hkey
        rw [Function.update_self, hreply, logged, if_pos ⟨rfl, rfl⟩]
        exact hevicted.push
      · rw [Function.update_of_ne hkey, logged, if_neg fun heq => hkey heq.1.symm]
        exact h.window key
    constructor
    · intro key
      rcases hevents key with hsame | ⟨hempty, hlast⟩
      · rw [hsame]
        exact hkept key
      · rw [hempty]
        exact (hkept key).clear hlast
    · intro key
      rcases hevents key with hsame | ⟨hempty, -⟩
      · rw [hsame, appended]
        by_cases hkey : key = call.key
        · subst hkey
          rw [Function.update_self, List.length_append, List.length_singleton]
          exact hroom
        · rw [Function.update_of_ne hkey]
          exact h.bounded key
      · rw [hempty]
        exact Nat.zero_le _

end Step

/-! ## Sequences -/

theorem admittedFrom_append_singleton (key : Key) (limiter : Limiter) (calls : List Call)
    (call : Call) :
    admittedFrom maximum window key limiter (calls ++ [call]) =
      logged (fun key => admittedFrom maximum window key limiter calls) call
        (consume maximum window
          (after (fun limiter call => (consume maximum window limiter call).1) limiter calls)
          call).2 key := by
  induction calls generalizing limiter with
  | nil =>
    by_cases h : call.key = key ∧ (consume maximum window limiter call).2 = .admitted
    · simp [admittedFrom, logged, after, h]
    · simp [admittedFrom, logged, after, h]
  | cons c calls ih =>
    rw [List.cons_append, admittedFrom, ih]
    simp only [logged, admittedFrom, after]
    split <;> split <;> simp

theorem limiterAfter_append_singleton (calls : List Call) (call : Call) :
    limiterAfter maximum window (calls ++ [call]) =
      (consume maximum window (limiterAfter maximum window calls) call).1 :=
  after_append ..

variable (maximum window) in
theorem admittedTimes_append_singleton (calls : List Call) (call : Call) :
    (fun key => admittedTimes maximum window key (calls ++ [call])) =
      logged (fun key => admittedTimes maximum window key calls) call
        (reply maximum window calls call) :=
  funext fun key => admittedFrom_append_singleton key .new calls call

/-- The calls so far come in the order of the clock, up to `now`. -/
structure Ordered (calls : List Call) (now : ℚ) : Prop where
  sorted : calls.Pairwise fun call call' => call.now ≤ call'.now
  past : ∀ call ∈ calls, call.now ≤ now

theorem Ordered.of_append {later : List Call}
    (h : (before ++ call :: later).Pairwise fun call call' => call.now ≤ call'.now) :
    Ordered before call.now := by
  obtain ⟨hbefore, -, hcross⟩ := List.pairwise_append.1 h
  exact ⟨hbefore, fun c hc => hcross c hc call List.mem_cons_self⟩

variable (maximum window) in
theorem tracks_calls {now : ℚ} (h : Ordered calls now) :
    Tracks maximum window (limiterAfter maximum window calls)
      (fun key => admittedTimes maximum window key calls) now := by
  induction calls using List.reverseRecOn generalizing now with
  | nil => exact Tracks.new now
  | append_singleton calls call ih =>
    have hbefore := ih (Ordered.of_append h.sorted)
    rw [limiterAfter_append_singleton, admittedTimes_append_singleton]
    have hstep := hbefore.step
    have hnow := h.past call (List.mem_append_right calls (List.mem_singleton_self call))
    exact ⟨fun key => (hstep.window key).mono hnow, hstep.bounded⟩

/-! ## The limit -/

theorem count_admitted_le
    (hcalls : calls.Pairwise fun call call' => call.now ≤ call'.now) (key : Key) {p : ℚ → Bool}
    (hp : ∀ t t', p t = true → p t' = true → t' - window < t) :
    ((admittedTimes maximum window key calls).filter p).length ≤ maximum key.rule := by
  induction calls using List.reverseRecOn with
  | nil => exact Nat.zero_le _
  | append_singleton calls call ih =>
    have hordered := Ordered.of_append hcalls
    have hlog := ih hordered.sorted
    have happend := congrFun (admittedTimes_append_singleton maximum window calls call) key
    simp only [logged] at happend
    rw [happend]
    split
    · next hadmitted =>
      obtain ⟨rfl, hreply⟩ := hadmitted
      have htracks := tracks_calls maximum window hordered
      refine (htracks.window call.key).evict.count_push_le hp hlog ?_
      rcases consume_cases maximum window
        (limiterAfter maximum window calls) call with ⟨-, hno, -⟩ | ⟨hroom, -⟩
      · exact absurd hreply hno
      · exact hroom
    · exact hlog

theorem refused_when_full {later : List Call}
    (hcalls : (before ++ call :: later).Pairwise fun call call' => call.now ≤ call'.now)
    (h : reply maximum window before call = .refused r) :
    maximum call.key.rule ≤ ((admittedTimes maximum window call.key before).filter fun x =>
        call.now - window < x ∧ x ≤ call.now).length := by
  have htracks := tracks_calls maximum window (Ordered.of_append hcalls)
  exact (consume_refused h).1.trans (htracks.window call.key).length_evict_le

/-! ## After a refusal -/

variable (maximum window) in
theorem events_of_others {key : Key} (limiter : Limiter)
    (hothers : ∀ other ∈ calls, other.key ≠ key) :
    let limiter' := after (fun limiter call => (consume maximum window limiter call).1) limiter calls
    limiter'.events key = limiter.events key ∨ limiter'.events key = [] := by
  induction calls generalizing limiter with
  | nil => exact Or.inl rfl
  | cons call calls ih =>
    have hkey := (hothers call List.mem_cons_self).symm
    have hnext : (consume maximum window limiter call).1.events key = limiter.events key ∨
        (consume maximum window limiter call).1.events key = [] := by
      rcases consume_cases maximum window limiter call with
        ⟨-, -, hevents⟩ | ⟨-, -, hevents⟩
      · left
        rw [hevents, Function.update_of_ne hkey]
      · rcases hevents key with hsame | ⟨hempty, -⟩
        · left
          rw [hsame, appended, Function.update_of_ne hkey]
        · exact Or.inr hempty
    rcases ih (consume maximum window limiter call).1
      fun other hother => hothers other (List.mem_cons_of_mem call hother) with hlater | hlater
    · rcases hnext with hsame | hempty
      · exact Or.inl (hlater.trans hsame)
      · exact Or.inr (hlater.trans hempty)
    · exact Or.inr hlater

/-- The oldest entry of a full deque has left the window after `retry_after`. -/
theorem le_of_retry {first now later : ℚ}
    (hr : r = max 1 (truncate (window - (now - first)) + 1)) (hfirst : now - window < first)
    (hlater : now + r ≤ later) : first ≤ later - window := by
  have hpos : (0 : ℚ) ≤ window - (now - first) := by linarith
  have hfloor : truncate (window - (now - first)) = ⌊(window : ℚ) - (now - first)⌋ := if_pos hpos
  have hwait : (⌊(window : ℚ) - (now - first)⌋ + 1 : ℚ) ≤ r := by
    rw [hfloor] at hr
    have : ⌊(window : ℚ) - (now - first)⌋ + 1 ≤ r := hr ▸ le_max_right _ _
    exact_mod_cast this
  have hlt := Int.lt_floor_add_one ((window : ℚ) - (now - first))
  linarith

/-- After `retry_after`, and no other call of the key, a call is admitted. -/
theorem retry_admitted {between : List Call} {again : Call} (hcalls : Ordered before call.now)
    (h : reply maximum window before call = .refused r) (hkey : again.key = call.key)
    (hothers : ∀ other ∈ between, other.key ≠ call.key) (hwait : call.now + r ≤ again.now) :
    reply maximum window (before ++ call :: between) again = .admitted := by
  obtain ⟨hfull, first, rest, hcurrent, hr⟩ := consume_refused h
  have htracks := tracks_calls maximum window hcalls
  have hevicted := (htracks.window call.key).evicted_in_window
  have hbounded := length_current_le window (limiterAfter maximum window before) call
  have hmax := htracks.bounded call.key
  have hfirst : call.now - window < first := by
    refine (hevicted first ?_).1
    show first ∈ current window (limiterAfter maximum window before) call
    rw [hcurrent]
    exact List.mem_cons_self
  -- The deque after the refusal is the full one, until a cleanup drops it.
  have hafter : (consume maximum window (limiterAfter maximum window before) call).1.events
      call.key = first :: rest := by
    rcases consume_cases maximum window
      (limiterAfter maximum window before) call with ⟨-, -, hevents⟩ | ⟨hroom, -⟩
    · rw [hevents, Function.update_self, hcurrent]
    · omega
  have hlater : limiterAfter maximum window (before ++ call :: between) =
      after (fun limiter call => (consume maximum window limiter call).1)
        (consume maximum window (limiterAfter maximum window before) call).1 between :=
    after_append ..
  have hroom : (current window (limiterAfter maximum window (before ++ call :: between))
      again).length < maximum again.key.rule := by
    rw [hcurrent, List.length_cons] at hfull hbounded
    unfold current
    rw [hkey, hlater]
    rcases events_of_others maximum window
      (consume maximum window (limiterAfter maximum window before) call).1 hothers with
      hsame | hempty
    · rw [hsame, hafter, evict_cons_of_le (le_of_retry hr hfirst hwait)]
      have hrest := length_evict_le (again.now - window) rest
      omega
    · rw [hempty]
      show 0 < _
      omega
  rcases consume_cases maximum window
    (limiterAfter maximum window (before ++ call :: between)) again with ⟨hfull', -⟩ | ⟨-, hadmit, -⟩
  · omega
  · exact hadmit

/-- **The sliding window.** For every sequence of calls at times that do not go back, whatever the
maximum of each rule: no interval as long as the window has more than the maximum of a key, a
refusal finds the maximum in the preceding window, and waiting for `retry_after` is enough. -/
theorem consume_slides (maximum : String → Nat) (window : Int) {calls : List Call}
    (hcalls : calls.Pairwise fun call call' => call.now ≤ call'.now) :
    Limited maximum window calls ∧ RefusedWhenFull maximum window calls ∧
      RetryAdmitted maximum window calls := by
  refine ⟨fun key t => ⟨?_, ?_⟩, ?_, ?_⟩
  · refine count_admitted_le hcalls key ?_
    intro x y hx hy
    simp only [decide_eq_true_eq] at hx hy
    linarith [hx.1, hy.2]
  · refine count_admitted_le hcalls key ?_
    intro x y hx hy
    simp only [decide_eq_true_eq] at hx hy
    linarith [hx.1, hy.2]
  · rintro before call later r rfl hrefused
    exact refused_when_full hcalls hrefused
  · rintro before call between again later r rfl hrefused hkey hothers hwait
    exact retry_admitted (Ordered.of_append hcalls) hrefused hkey hothers hwait

end Limits

/-- Four calls of one key, of which the second is refused and the last comes when its wait is
over. -/
def fourCalls : List Call :=
  [⟨⟨"oauth", "network"⟩, 10⟩, ⟨⟨"oauth", "network"⟩, 21 / 2⟩, ⟨⟨"mailbox-sync", "network"⟩, 400⟩,
    ⟨⟨"oauth", "network"⟩, 401⟩]

theorem fourCalls_slides :
    reply (fun _ => 1) 60 (fourCalls.take 1) ⟨⟨"oauth", "network"⟩, 21 / 2⟩ = .refused 60 ∧
      reply (fun _ => 1) 60 (fourCalls.take 3) ⟨⟨"oauth", "network"⟩, 401⟩ = .admitted ∧
      Limited (fun _ => 1) 60 fourCalls ∧ RefusedWhenFull (fun _ => 1) 60 fourCalls ∧
      RetryAdmitted (fun _ => 1) 60 fourCalls :=
  ⟨by decide +kernel, by decide +kernel,
    consume_slides (fun _ => 1) 60 (by decide +kernel)⟩

end ElectronicMail.RateLimit
