import ElectronicMail.Foundations.Run
import ElectronicMail.Foundations.Table

/-!
# Push notifications for new mail

A session registers a device, `queue_new_mail` writes one delivery and one job for every new message
and device, and workers send what is pending. A worker loads its delivery twice, the second time
under the shared lock of the user, which a disconnection of the user waits for. Everything else may
come in between: a device is registered again by another session or another user, a token moves, a
worker stops anywhere and its job is run again.
-/

namespace ElectronicMail.Push

open Foundations Foundations.Table

inductive Platform where
  | macos
  | ios
  deriving DecidableEq

inductive PushEnvironment where
  | sandbox
  | production
  deriving DecidableEq

/-- `UNIQUE (platform, environment, token_hash)`, with the token for its hash. -/
structure Address where
  platform : Platform
  environment : PushEnvironment
  token : String
  deriving DecidableEq

structure PushDevice where
  id : String
  userId : String
  sessionId : String
  address : Address
  enabled : Bool
  updatedAt : Nat

inductive DeliveryStatus where
  | pending
  | sent
  | skipped
  | invalidToken
  deriving DecidableEq

structure PushDelivery where
  id : Nat
  userId : String
  gmailAccountId : String
  deviceId : String
  sessionId : String
  messageId : String
  status : DeliveryStatus
  createdAt : Nat
  deriving DecidableEq

/-- `UNIQUE (gmail_account_id, message_id, device_id)`. -/
def PushDelivery.key (p : PushDelivery) : String × String × String :=
  (p.gmailAccountId, p.messageId, p.deviceId)

def PushDevice.registration (d : PushDevice) : String × String × String × Address :=
  (d.id, d.userId, d.sessionId, d.address)

/-- `queued` lists the deliveries that a job was inserted for, and `registered` every registration
there has been. -/
structure Tables where
  devices : List PushDevice
  deliveries : List PushDelivery
  nextId : Nat
  queued : List Nat
  registered : List (String × String × String × Address)

structure AppSession where
  userId : String
  revoked : Bool
  expiresAt : Nat

/-- What the rest of the program writes. `readyUser` is the user of an account that is ready, and
`labels` are those of a stored message of an account. -/
structure Surroundings where
  configured : Bool
  now : Nat
  sessions : String → Option AppSession
  accessEnabled : String → Bool
  readyUser : String → Option String
  labels : String → String → Option (List String)

/-! ## Registrations -/

/-- `register_device`. A row that is deleted takes its deliveries with it. -/
def registerDevice (t : Tables) (d : PushDevice) : Tables :=
  let moved (e : PushDevice) : Bool := e.address == d.address && e.id != d.id
  { t with
    devices := (t.devices.filter fun e => e.address != d.address && e.id != d.id) ++ [d]
    deliveries := t.deliveries.filter fun p => !t.devices.any fun e => moved e && e.id == p.deviceId
    registered := d.registration :: t.registered }

def deleteDevice (t : Tables) (id userId sessionId : String) : Tables :=
  let gone (e : PushDevice) : Bool := e.id == id && e.userId == userId && e.sessionId == sessionId
  { t with
    devices := t.devices.filter fun e => !gone e
    deliveries := t.deliveries.filter fun p => !t.devices.any fun e => gone e && e.id == p.deviceId }

/-- `delete_user_mail_data`, as far as the deliveries. -/
def purge (t : Tables) (userId : String) : Tables :=
  { t with deliveries := t.deliveries.filter fun p => p.userId != userId }

/-! ## Queueing -/

/-- A new message; `age` is how many microseconds old it is, if its date can be read. -/
structure NewMail where
  messageId : String
  gmailThreadId : String
  labelIds : List String
  age : Option Int

def hiddenLabels : List String := ["SENT", "DRAFT", "SPAM", "TRASH"]

/-- The labels that a message must have, and those that it must not have. -/
def notifies (labelIds : List String) : Bool :=
  labelIds.contains "INBOX" && labelIds.contains "UNREAD" &&
    !hiddenLabels.any fun label => labelIds.contains label

def eligibleNewMail (m : NewMail) : Bool :=
  notifies m.labelIds && m.gmailThreadId != "" &&
    m.age.any fun age => decide (-60000000 ≤ age ∧ age ≤ 900000000)

def Surroundings.sessionActive (w : Surroundings) (sessionId userId : String) : Bool :=
  (w.sessions sessionId).any fun session =>
    session.userId == userId && !session.revoked && decide (w.now < session.expiresAt)

def newDelivery (id now : Nat) (userId gmailAccountId : String) (entry : NewMail × PushDevice) :
    PushDelivery :=
  ⟨id, userId, gmailAccountId, entry.2.id, entry.2.sessionId, entry.1.messageId, .pending, now⟩

/-- `INSERT … ON CONFLICT DO NOTHING RETURNING id`, and the job of an inserted row. -/
def insertDelivery (now : Nat) (userId gmailAccountId : String) (t : Tables)
    (entry : NewMail × PushDevice) : Tables :=
  if t.deliveries.any fun q =>
      q.key == (newDelivery t.nextId now userId gmailAccountId entry).key then
    { t with nextId := t.nextId + 1 }
  else
    { t with
      deliveries := t.deliveries ++ [newDelivery t.nextId now userId gmailAccountId entry]
      queued := t.nextId :: t.queued
      nextId := t.nextId + 1 }

def queueNewMail (w : Surroundings) (userId gmailAccountId : String) (messages : List NewMail)
    (t : Tables) : Tables :=
  let devices := t.devices.filter fun d =>
    d.userId == userId && d.enabled && w.sessionActive d.sessionId d.userId
  ((messages.filter eligibleNewMail).product devices).foldl
    (insertDelivery w.now userId gmailAccountId) t

/-! ## Delivering -/

structure LoadedDelivery where
  delivery : PushDelivery
  address : Address

/-- The conditions of `load_delivery` on other tables than those of the devices. -/
def Surroundings.allows (w : Surroundings) (p : PushDelivery) : Bool :=
  w.sessionActive p.sessionId p.userId && w.accessEnabled p.userId &&
    w.readyUser p.gmailAccountId == some p.userId && decide (w.now < p.createdAt + 900) &&
    (w.labels p.gmailAccountId p.messageId).any notifies

/-- The query of `load_delivery`. -/
def loadDelivery (w : Surroundings) (disconnected : String → Bool) (t : Tables) (id : Nat)
    (userId : String) : Option LoadedDelivery := do
  let p ← t.deliveries.find? fun p => p.id == id && p.userId == userId && p.status == .pending
  let d ← t.devices.find? fun d =>
    d.id == p.deviceId && d.userId == p.userId && d.sessionId == p.sessionId && d.enabled
  if !disconnected userId && w.allows p then some ⟨p, d.address⟩ else none

/-- `finish_delivery`. A token that the device has got since the delivery was queued stays. -/
def finishDelivery (t : Tables) (id : Nat) (userId : String) (status : DeliveryStatus) : Tables :=
  let mine (p : PushDelivery) : Bool := p.id == id && p.userId == userId && p.status == .pending
  let rejected (d : PushDevice) (p : PushDelivery) : Bool :=
    d.id == p.deviceId && d.sessionId == p.sessionId && decide (d.updatedAt ≤ p.createdAt)
  { t with
    deliveries := updateWhere mine (fun p => { p with status := status }) t.deliveries
    devices := updateWhere
      (fun d => status == .invalidToken && t.deliveries.any fun p => mine p && rejected d p)
      (fun d => { d with enabled := false }) t.devices }

/-! ## Workers -/

/-- Where a worker is in `deliver_push_notification`. -/
inductive Worker where
  | idle
  /-- The first load has returned a row. -/
  | loaded (id : Nat) (userId : String)
  /-- It holds the shared lock, and is at its second load. -/
  | locked (id : Nat) (userId : String)
  /-- Its request is under way. -/
  | sending (row : LoadedDelivery)
  /-- It is at `finish_delivery`. -/
  | finishing (id : Nat) (userId : String) (status : DeliveryStatus)

def Worker.holds : Worker → Option String
  | .locked _ userId => some userId
  | .sending row => some row.delivery.userId
  | _ => none

/-- `requests` are the requests to the push service that have been started. -/
structure PushSystem where
  around : Surroundings
  disconnected : String → Bool
  tables : Tables
  workers : List Worker
  requests : List LoadedDelivery

def PushSystem.start (w : Surroundings) : PushSystem :=
  ⟨w, fun _ => false, ⟨[], [], 0, [], []⟩, [], []⟩

inductive PushLabel where
  /-- The rest of the program commits something. -/
  | elsewhere (w : Surroundings)
  | registers (d : PushDevice)
  | deletes (id userId sessionId : String)
  | queues (userId gmailAccountId : String) (messages : List NewMail)
  /-- A worker takes the job of a delivery, for the first time or again. -/
  | begins (id : Nat) (userId : String)
  | locks (k : Nat)
  | loads (k : Nat)
  /-- The push service has accepted the notification, or rejected the token. -/
  | answers (k : Nat) (accepted : Bool)
  | finishes (k : Nat)
  /-- A worker raises, or is killed. -/
  | stops (k : Nat)
  /-- `auth_google_disconnect`, once the exclusive lock of the user is granted. -/
  | disconnects (userId : String) (deleteData : Bool)
  | reconnects (userId : String)

namespace PushSystem

def put (s : PushSystem) (k : Nat) (worker : Worker) : PushSystem :=
  { s with workers := s.workers.set k worker }

def load (s : PushSystem) : Nat → String → Option LoadedDelivery :=
  loadDelivery s.around s.disconnected s.tables

/-- `deliver_push_notification` up to its lock. -/
def begun (s : PushSystem) (id : Nat) (userId : String) : Worker :=
  if s.around.configured && (s.load id userId).isSome then .loaded id userId
  else .finishing id userId .skipped

def step (s : PushSystem) : PushLabel → PushSystem
  | .elsewhere w => { s with around := w }
  | .registers d =>
    { s with tables := registerDevice s.tables { d with updatedAt := s.around.now } }
  | .deletes id userId sessionId =>
    { s with tables := deleteDevice s.tables id userId sessionId }
  | .queues userId gmailAccountId messages =>
    if s.around.configured && !s.disconnected userId then
      { s with tables := queueNewMail s.around userId gmailAccountId messages s.tables }
    else s
  | .begins id userId => { s with workers := s.workers ++ [s.begun id userId] }
  | .locks k =>
    match s.workers[k]? with
    | some (.loaded id userId) =>
      -- The guard is read once the lock is held.
      s.put k (if s.disconnected userId then .idle else .locked id userId)
    | _ => s
  | .loads k =>
    match s.workers[k]? with
    | some (.locked id userId) =>
      match s.load id userId with
      | none => s.put k (.finishing id userId .skipped)
      | some row => { s.put k (.sending row) with requests := row :: s.requests }
    | _ => s
  | .answers k accepted =>
    match s.workers[k]? with
    | some (.sending row) =>
      s.put k (.finishing row.delivery.id row.delivery.userId
        (if accepted then .sent else .invalidToken))
    | _ => s
  | .finishes k =>
    match s.workers[k]? with
    | some (.finishing id userId status) =>
      { s.put k .idle with tables := finishDelivery s.tables id userId status }
    | _ => s
  | .stops k => s.put k .idle
  | .disconnects userId deleteData =>
    if s.workers.any fun worker => worker.holds == some userId then s
    else
      { s with
        disconnected := Function.update s.disconnected userId true
        tables := if deleteData then purge s.tables userId else s.tables }
  | .reconnects userId => { s with disconnected := Function.update s.disconnected userId false }

end PushSystem

/-! ## The tables -/

structure Tables.Sound (t : Tables) : Prop where
  addresses : (t.devices.map PushDevice.address).Nodup
  keys : (t.deliveries.map PushDelivery.key).Nodup
  ids : (t.deliveries.map PushDelivery.id).Nodup
  jobs : t.queued.Nodup
  posted : ∀ p ∈ t.deliveries, p.id ∈ t.queued
  below : ∀ j ∈ t.queued, j < t.nextId
  known : ∀ d ∈ t.devices, d.registration ∈ t.registered

/-- A delivery that is not pending: its number is taken, and its row stays as it is. -/
def Tables.Settled (t : Tables) (p : PushDelivery) : Prop :=
  p.id < t.nextId ∧ ∀ q ∈ t.deliveries, q.id = p.id → q = p

/-- The address of a request has been registered for the device by the user and the session that the
delivery was queued for, and a job was queued with the delivery. -/
def Tables.Licensed (t : Tables) (row : LoadedDelivery) : Prop :=
  (row.delivery.deviceId, row.delivery.userId, row.delivery.sessionId, row.address) ∈
    t.registered ∧ row.delivery.id ∈ t.queued

structure Tables.Leads (t t' : Tables) : Prop where
  sound : t'.Sound
  queued : t.queued ⊆ t'.queued
  registered : t.registered ⊆ t'.registered
  settled : ∀ p : PushDelivery, p.status ≠ .pending → t.Settled p → t'.Settled p

section Leads

variable {t t' : Tables}

theorem Tables.Leads.refl (h : t.Sound) : t.Leads t :=
  ⟨h, fun _ => id, fun _ => id, fun _ _ => id⟩

theorem Tables.Leads.trans {t'' : Tables} (h : t.Leads t') (h' : t'.Leads t'') : t.Leads t'' :=
  ⟨h'.sound, fun _ hj => h'.queued (h.queued hj), fun _ hd => h'.registered (h.registered hd),
    fun p hp hs => h'.settled p hp (h.settled p hp hs)⟩

theorem Tables.Licensed.later {row : LoadedDelivery} (h : t.Licensed row) (hleads : t.Leads t') :
    t'.Licensed row := by
  exact ⟨hleads.registered h.1, hleads.queued h.2⟩

/-- Rows are deleted. -/
theorem Tables.Sound.shrink (h : t.Sound) {devices : List PushDevice}
    {deliveries : List PushDelivery} (hdevices : devices.Sublist t.devices)
    (hdeliveries : deliveries.Sublist t.deliveries) :
    t.Leads { t with devices := devices, deliveries := deliveries } where
  sound :=
    { h with
      addresses := h.addresses.sublist (hdevices.map _)
      keys := h.keys.sublist (hdeliveries.map _)
      ids := h.ids.sublist (hdeliveries.map _)
      posted := fun p hp => h.posted p (hdeliveries.subset hp)
      known := fun d hd => h.known d (hdevices.subset hd) }
  queued := fun _ => id
  registered := fun _ => id
  settled := fun _ _ hs => ⟨hs.1, fun q hq => hs.2 q (hdeliveries.subset hq)⟩

theorem leads_registerDevice (h : t.Sound) (d : PushDevice) : t.Leads (registerDevice t d) := by
  have hshrunk := h.shrink (List.filter_sublist (p := fun e : PushDevice =>
    e.address != d.address && e.id != d.id)) (List.filter_sublist (p := fun p : PushDelivery =>
    !t.devices.any fun e => (e.address == d.address && e.id != d.id) && e.id == p.deviceId))
  refine ⟨{ hshrunk.sound with addresses := ?_, known := ?_ }, fun _ hj => hj,
    fun _ => List.mem_cons_of_mem _, hshrunk.settled⟩
  · rw [registerDevice, List.map_append, List.nodup_append]
    refine ⟨hshrunk.sound.addresses, List.nodup_singleton _, ?_⟩
    rintro a ha b hb rfl
    obtain ⟨e, he, heq⟩ := List.mem_map.1 ha
    have hkept := (List.mem_filter.1 he).2
    simp [heq.trans (List.mem_singleton.1 hb)] at hkept
  · intro e he
    rcases List.mem_append.1 he with he | he
    · exact List.mem_cons_of_mem _ (hshrunk.sound.known e he)
    · rw [List.mem_singleton.1 he]
      exact List.mem_cons_self

theorem leads_insertDelivery (h : t.Sound) (now : Nat) (userId gmailAccountId : String)
    (entry : NewMail × PushDevice) : t.Leads (insertDelivery now userId gmailAccountId t entry) := by
  have hfresh : t.nextId ∉ t.queued := fun hj => Nat.lt_irrefl _ (h.below _ hj)
  unfold insertDelivery
  split
  · refine ⟨{ h with below := ?_ }, fun _ => id, fun _ => id, fun _ _ hs => ?_⟩
    · exact fun j hj => Nat.lt_succ_of_lt (h.below j hj)
    · exact ⟨Nat.lt_succ_of_lt hs.1, hs.2⟩
  · rename_i hkey
    refine ⟨{ h with keys := ?_, ids := ?_, jobs := ?_, posted := ?_, below := ?_ },
      fun _ => List.mem_cons_of_mem _, fun _ => id, fun p _ hs => ?_⟩
    · rw [List.map_append, List.nodup_append]
      refine ⟨h.keys, List.nodup_singleton _, ?_⟩
      rintro a ha b hb rfl
      obtain ⟨q, hq, heq⟩ := List.mem_map.1 ha
      exact hkey (List.any_eq_true.2 ⟨q, hq, beq_iff_eq.2 (heq.trans (List.mem_singleton.1 hb))⟩)
    · rw [List.map_append, List.nodup_append]
      refine ⟨h.ids, List.nodup_singleton _, ?_⟩
      rintro a ha b hb rfl
      obtain ⟨q, hq, heq⟩ := List.mem_map.1 ha
      have hid : q.id = t.nextId := heq.trans (List.mem_singleton.1 hb)
      exact hfresh (hid ▸ h.posted q hq)
    · exact List.nodup_cons.2 ⟨hfresh, h.jobs⟩
    · intro p hp
      rcases List.mem_append.1 hp with hp | hp
      · exact List.mem_cons_of_mem _ (h.posted p hp)
      · rw [List.mem_singleton.1 hp]
        exact List.mem_cons_self
    · intro j hj
      rcases List.mem_cons.1 hj with rfl | hj
      · exact Nat.lt_succ_self _
      · exact Nat.lt_succ_of_lt (h.below j hj)
    · refine ⟨Nat.lt_succ_of_lt hs.1, fun q hq hid => ?_⟩
      rcases List.mem_append.1 hq with hq | hq
      · exact hs.2 q hq hid
      · rw [List.mem_singleton.1 hq] at hid
        exact absurd hid (Nat.ne_of_gt hs.1)

theorem leads_insertDeliveries (now : Nat) (userId gmailAccountId : String)
    (entries : List (NewMail × PushDevice)) (h : t.Sound) :
    t.Leads (entries.foldl (insertDelivery now userId gmailAccountId) t) := by
  induction entries generalizing t with
  | nil => exact .refl h
  | cons entry entries ih =>
    have hone := leads_insertDelivery h now userId gmailAccountId entry
    exact hone.trans (ih hone.sound)

theorem leads_finishDelivery (h : t.Sound) (id : Nat) (userId : String) (status : DeliveryStatus) :
    t.Leads (finishDelivery t id userId status) := by
  have hdevices {β : Type} {f : PushDevice → β} (hf : ∀ d, f { d with enabled := false } = f d) :
      (finishDelivery t id userId status).devices.map f = t.devices.map f :=
    map_updateWhere fun d _ _ => hf d
  have hdeliveries {β : Type} {f : PushDelivery → β}
      (hf : ∀ p, f { p with status := status } = f p) :
      (finishDelivery t id userId status).deliveries.map f = t.deliveries.map f :=
    map_updateWhere fun p _ _ => hf p
  refine ⟨⟨?_, ?_, ?_, h.jobs, ?_, h.below, ?_⟩, fun _ hj => hj, fun _ hd => hd,
    fun q hq hs => ⟨hs.1, ?_⟩⟩
  · rw [hdevices fun _ => rfl]
    exact h.addresses
  · rw [hdeliveries fun _ => rfl]
    exact h.keys
  · rw [hdeliveries fun _ => rfl]
    exact h.ids
  · exact forall_updateWhere h.posted fun _ _ _ hp => hp
  · exact forall_updateWhere h.known fun _ _ _ hd => hd
  · refine forall_updateWhere hs.2 fun r hr hmine hrow hid => ?_
    rw [hrow hid] at hmine
    simp [hq] at hmine

end Leads

/-! ## Runs -/

def PushSystem.Drained (s : PushSystem) : Prop :=
  ∀ worker ∈ s.workers, ∀ userId, worker.holds = some userId → s.disconnected userId = false

section Runs

variable {s : PushSystem}

theorem licensed_of_load {id : Nat} {userId : String} {row : LoadedDelivery}
    (h : s.tables.Sound) (hload : s.load id userId = some row) :
    s.tables.Licensed row ∧ row.delivery.userId = userId := by
  obtain ⟨p, hp, hload⟩ := Option.bind_eq_some_iff.1 hload
  obtain ⟨d, hd, hload⟩ := Option.bind_eq_some_iff.1 hload
  have hmine := List.find?_some hp
  have hdevice := List.find?_some hd
  simp only [Bool.and_eq_true, beq_iff_eq] at hmine hdevice
  have hknown := h.known d (List.mem_of_find?_eq_some hd)
  rw [PushDevice.registration, hdevice.1.1.1, hdevice.1.1.2, hdevice.1.2] at hknown
  split at hload
  · cases hload
    exact ⟨⟨hknown, h.posted p (List.mem_of_find?_eq_some hp)⟩, hmine.1.2⟩
  · cases hload

/-- The tables after a step. -/
theorem leads_step (h : s.tables.Sound) (l : PushLabel) : s.tables.Leads (s.step l).tables := by
  cases l with
  | registers d => exact leads_registerDevice h _
  | deletes id userId sessionId => exact h.shrink List.filter_sublist List.filter_sublist
  | queues userId gmailAccountId messages =>
    simp only [PushSystem.step]
    split
    · exact leads_insertDeliveries _ _ _ _ h
    · exact .refl h
  | finishes k =>
    simp only [PushSystem.step]
    split
    · exact leads_finishDelivery h _ _ _
    · exact .refl h
  | disconnects userId deleteData =>
    simp only [PushSystem.step]
    split
    · exact .refl h
    · cases deleteData with
      | false => exact .refl h
      | true => exact h.shrink (List.Sublist.refl _) List.filter_sublist
  | loads k =>
    simp only [PushSystem.step]
    repeat' split
    all_goals exact .refl h
  | locks k | answers k accepted =>
    simp only [PushSystem.step]
    split <;> exact .refl h
  | elsewhere | begins | stops | reconnects => exact .refl h

theorem requests_step (h : s.tables.Sound) (l : PushLabel) :
    ∀ row ∈ (s.step l).requests, row ∈ s.requests ∨ s.tables.Licensed row := by
  intro row hrow
  cases l with
  | loads k =>
    simp only [PushSystem.step] at hrow
    split at hrow
    · split at hrow
      · exact .inl hrow
      · rename_i hload
        rcases List.mem_cons.1 hrow with rfl | hrow
        · exact .inr (licensed_of_load h hload).1
        · exact .inl hrow
    · exact .inl hrow
  | queues | locks | answers | finishes | disconnects =>
    simp only [PushSystem.step] at hrow
    split at hrow <;> exact .inl hrow
  | elsewhere | registers | deletes | begins | stops | reconnects => exact .inl hrow

theorem drained_put (h : s.Drained) (k : Nat) {worker : Worker}
    (hworker : ∀ userId, worker.holds = some userId → s.disconnected userId = false) :
    (s.put k worker).Drained := by
  intro w hw
  rcases List.mem_or_eq_of_mem_set hw with hw | rfl
  · exact h w hw
  · exact hworker

theorem drained_step (htables : s.tables.Sound) (h : s.Drained) (l : PushLabel) :
    (s.step l).Drained := by
  cases l with
  | elsewhere | registers | deletes => exact h
  | queues userId gmailAccountId messages =>
    simp only [PushSystem.step]
    split <;> exact h
  | begins id userId =>
    intro worker hworker
    rcases List.mem_append.1 hworker with hworker | hworker
    · exact h worker hworker
    · rw [List.mem_singleton.1 hworker, PushSystem.begun]
      split <;> exact nofun
  | locks k =>
    simp only [PushSystem.step]
    split
    · refine drained_put h k fun userId hholds => ?_
      split at hholds
      · cases hholds
      · cases hholds
        rename_i hconnected
        exact Bool.eq_false_iff.2 hconnected
    · exact h
  | loads k =>
    simp only [PushSystem.step]
    split
    · rename_i id userId hk
      have hopen := h _ (List.mem_of_getElem? hk) userId rfl
      split
      · exact drained_put h k nofun
      · rename_i row hload
        refine drained_put h k fun other hother => ?_
        rw [← Option.some.inj hother, (licensed_of_load htables hload).2]
        exact hopen
    · exact h
  | answers k accepted =>
    simp only [PushSystem.step]
    split
    · exact drained_put h k nofun
    · exact h
  | finishes k =>
    simp only [PushSystem.step]
    split
    · exact drained_put h k nofun
    · exact h
  | stops k => exact drained_put h k nofun
  | disconnects userId deleteData =>
    simp only [PushSystem.step]
    split
    · exact h
    · rename_i hnobody
      intro worker hworker other hother
      have hne : other ≠ userId := by
        rintro rfl
        exact hnobody (List.any_eq_true.2 ⟨worker, hworker, beq_iff_eq.2 hother⟩)
      exact (Function.update_of_ne hne _ _).trans (h worker hworker other hother)
  | reconnects userId =>
    intro worker hworker other hother
    by_cases heq : other = userId
    · rw [heq]
      exact Function.update_self ..
    · exact (Function.update_of_ne heq _ _).trans (h worker hworker other hother)

def PushSystem.Inv (s : PushSystem) : Prop :=
  s.tables.Sound ∧ s.Drained ∧ ∀ row ∈ s.requests, s.tables.Licensed row

theorem inv_step (s : PushSystem) (l : PushLabel) (h : s.Inv) : (s.step l).Inv := by
  obtain ⟨htables, hdrained, hrequests⟩ := h
  have hleads := leads_step htables l
  refine ⟨hleads.sound, drained_step htables hdrained l, fun row hrow => ?_⟩
  rcases requests_step htables l row hrow with hold | hnew
  · exact (hrequests row hold).later hleads
  · exact hnew.later hleads

theorem inv_start (w : Surroundings) : (PushSystem.start w).Inv :=
  ⟨⟨.nil, .nil, .nil, .nil, nofun, nofun, nofun⟩, nofun, nofun⟩

/-- **One notification for a message and a device.** An address is registered for one device, and
a message has one delivery for a device, which was queued with one job. -/
theorem notified_once (w : Surroundings) (ls : List PushLabel) :
    Throughout PushSystem.step (fun s =>
      (s.tables.devices.map PushDevice.address).Nodup ∧
        (s.tables.deliveries.map PushDelivery.key).Nodup ∧
        ∀ p ∈ s.tables.deliveries, s.tables.queued.count p.id = 1) (.start w) ls := by
  have hinv := throughout_of_step (fun s l h _ => inv_step s l h) (inv_start w)
    (along_of_forall (fun _ _ => trivial) (PushSystem.start w) ls)
  refine hinv.mono fun s h => ⟨h.1.addresses, h.1.keys, fun p hp => ?_⟩
  exact List.count_eq_one_of_mem h.1.jobs (h.1.posted p hp)

/-- **Requests are licensed and drained.** A request goes to an address that the user and the
session of the delivery have registered for its device, and none is under way while the user is
disconnected. -/
theorem requests_licensed (w : Surroundings) (ls : List PushLabel) :
    Throughout PushSystem.step (fun s =>
      (∀ row ∈ s.requests, s.tables.Licensed row) ∧
        ∀ row, .sending row ∈ s.workers → s.disconnected row.delivery.userId = false)
      (.start w) ls := by
  have hinv := throughout_of_step (fun s l h _ => inv_step s l h) (inv_start w)
    (along_of_forall (fun _ _ => trivial) (PushSystem.start w) ls)
  exact hinv.mono fun s h => ⟨h.2.2, fun row hrow => h.2.1 _ hrow _ rfl⟩

/-- **A settled delivery stays settled.** Its row is never written again, and no worker finds it. -/
theorem settled_for_good (w : Surroundings) (ls ms : List PushLabel) (p : PushDelivery)
    (hp : p ∈ (after PushSystem.step (.start w) ls).tables.deliveries)
    (hsettled : p.status ≠ .pending) :
    let s := after PushSystem.step (.start w) (ls ++ ms)
    (∀ q ∈ s.tables.deliveries, q.id = p.id → q = p) ∧ ∀ userId, s.load p.id userId = none := by
  have hinv := after_of_step inv_step (inv_start w) ls
  have hstart : (after PushSystem.step (.start w) ls).tables.Settled p :=
    ⟨hinv.1.below _ (hinv.1.posted p hp), fun q hq hid => row_unique _ hinv.1.ids hq hp hid⟩
  have hlater := after_of_step (I := fun s : PushSystem => s.Inv ∧ s.tables.Settled p)
    (fun s l h => ⟨inv_step s l h.1, (leads_step h.1.1 l).settled p hsettled h.2⟩)
    ⟨hinv, hstart⟩ ms
  rw [← after_append] at hlater
  refine ⟨hlater.2.2, fun userId => ?_⟩
  refine Option.bind_eq_none_iff.2 fun q hq => ?_
  have hmine := List.find?_some hq
  simp only [Bool.and_eq_true, beq_iff_eq] at hmine
  rw [hlater.2.2 q (List.mem_of_find?_eq_some hq) hmine.1.1] at hmine
  exact absurd hmine.2 hsettled

def oneMessage : Surroundings :=
  ⟨true, 10, fun _ => some ⟨"u", false, 20⟩, fun _ => true, fun _ => some "u",
    fun _ _ => some ["INBOX", "UNREAD"]⟩

def oneDelivery : List PushLabel :=
  [.registers ⟨"d", "u", "s", ⟨.ios, .production, "t"⟩, true, 0⟩,
    .queues "u" "a" [⟨"m", "t", ["INBOX", "UNREAD"], some 0⟩],
    .begins 0 "u", .locks 0, .loads 0, .answers 0 true, .finishes 0]

theorem delivered_for_good :
    (after PushSystem.step (.start oneMessage) (oneDelivery ++ [.begins 0 "u"])).load 0 "u" =
      none := by
  have hp : (⟨0, "u", "a", "d", "s", "m", .sent, 10⟩ : PushDelivery) ∈
      (after PushSystem.step (.start oneMessage) oneDelivery).tables.deliveries := by
    decide +kernel
  exact (settled_for_good oneMessage oneDelivery [.begins 0 "u"] _ hp nofun).2 "u"

end Runs

end ElectronicMail.Push
