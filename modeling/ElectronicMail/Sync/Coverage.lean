import ElectronicMail.Sync.Workers

/-!
# What is covered of the messages that exist

What every interleaving keeps about the messages that exist in Gmail: the
authoritative cursor and every start id of a delta in flight are covered by the
stored rows (`Fresh`), a scan owes only what its cursor still has to list
(`ScanCovers`), and a worker that holds a history window or a page owes the
messages of it that it has not fetched yet (`PhaseOk`).

A step of one worker evolves the world in a way that keeps all of this for the
others (`Evolves`); `PhaseOk.evolves` and `SharedOk.evolves` say so once for every
step.
-/

namespace ElectronicMail.Sync

/-! ## Rows against the mailbox -/

/-- The stored row of the message is as new as its events up to `x`. -/
def StoredUpTo (w : World) (m : MessageId) (x : Nat) : Prop :=
  ∃ row, w.db.messages m = some row ∧ ∃ h, row.historyId = some h ∧
    ∀ e ∈ w.mailbox, e.messageId = m → e.historyId ≤ x → e.historyId ≤ h

/-- The stored rows cover the history up to `x`. -/
def Fresh (w : World) (x : Nat) : Prop :=
  ∀ m, Alive w.mailbox m → Has w.mailbox x m → StoredUpTo w m x

/-- The fetched record is as new as the events of its message up to `x`. -/
def RecordUpTo (g : Mailbox) (r : Record) (x : Nat) : Prop :=
  ∃ h, r.historyId = some h ∧ ∀ e ∈ g, e.messageId = r.messageId → e.historyId ≤ x → e.historyId ≤ h

/-- The message had these labels after its event `h`. -/
def Genuine (g : Mailbox) (m : MessageId) (h : Nat) (labels : List String) : Prop :=
  ∃ e ∈ g, e.messageId = m ∧ e.historyId = h ∧ e.change.labels = some labels

def Known (g : Mailbox) (m : MessageId) : Prop := ∃ e ∈ g, e.messageId = m

structure RowsOk (w : World) : Prop where
  known : ∀ m row, w.db.messages m = some row → Known w.mailbox m
  genuine : ∀ m row h, w.db.messages m = some row → row.historyId = some h →
    Genuine w.mailbox m h row.labels
  age : ∀ m row, w.db.messages m = some row → row.updatedAt ≤ w.db.now

def RecordsOk (g : Mailbox) (records : List Record) : Prop :=
  ∀ r ∈ records, Known g r.messageId ∧ ∀ h, r.historyId = some h → Genuine g r.messageId h r.labels

/-! ## What a step can do to what others rely on -/

structure Scan.Same (s s' : Scan) : Prop where
  startedAt : s.startedAt = s'.startedAt
  generation : s.generation = s'.generation
  baseline : s.baseline = s'.baseline

/-- A step keeps the rows of live messages, lets rows only get younger, and does not
take the seen entries of the scan that stays active. -/
structure Evolves (w w' : World) : Prop where
  grows : Grows w.mailbox w'.mailbox
  rows : ∀ m row, Alive w'.mailbox m → w.db.messages m = some row →
    ∃ row', w'.db.messages m = some row' ∧ row.Le row'
  young : ∀ m row', w'.db.messages m = some row' →
    w.db.messages m = some row' ∨ w.db.now < row'.updatedAt
  now : w.db.now ≤ w'.db.now
  scan : ∀ s', w'.db.state.reconcile = some s' →
    (∃ s, w.db.state.reconcile = some s ∧ s.Same s' ∧
      ∀ m, (s'.generation, m) ∈ w.db.seen → (s'.generation, m) ∈ w'.db.seen) ∨
    w.db.now < s'.startedAt
  published : w.published ≤ w'.published
  purged : ∀ m ∈ w.purged, m ∈ w'.purged

variable {g' : Mailbox} {m : MessageId}

theorem Known.grows {g : Mailbox} (hg : Grows g g') (h : Known g m) : Known g' m := by
  obtain ⟨e, he, hm⟩ := h
  exact ⟨e, hg.mem e he, hm⟩

theorem Genuine.grows {g : Mailbox} (hg : Grows g g') {h : Nat} {labels : List String}
    (hgen : Genuine g m h labels) : Genuine g' m h labels := by
  obtain ⟨e, he, hrest⟩ := hgen
  exact ⟨e, hg.mem e he, hrest⟩

theorem RecordsOk.grows {g : Mailbox} (hg : Grows g g') {records : List Record}
    (h : RecordsOk g records) : RecordsOk g' records := by
  intro r hr
  obtain ⟨hknown, hgenuine⟩ := h r hr
  exact ⟨hknown.grows hg, fun x hx => (hgenuine x hx).grows hg⟩

theorem RecordUpTo.grows {g : Mailbox} (hg : Grows g g') {r : Record} {x : Nat}
    (hx : x ≤ currentHistoryId g) (h : RecordUpTo g r x) : RecordUpTo g' r x := by
  obtain ⟨h, hr, hall⟩ := h
  refine ⟨h, hr, ?_⟩
  intro e he hm hle
  exact hall e (hg.mem_of_le he (Nat.le_trans hle hx)) hm hle

variable {w w' : World}

theorem StoredUpTo.evolves (hev : Evolves w w') {x : Nat} (hx : x ≤ currentHistoryId w.mailbox)
    (halive : Alive w'.mailbox m) (h : StoredUpTo w m x) : StoredUpTo w' m x := by
  obtain ⟨row, hrow, h, hid, hall⟩ := h
  obtain ⟨row', hrow', hle⟩ := hev.rows m row halive hrow
  obtain ⟨h', hid', hhh⟩ := hle h hid
  refine ⟨row', hrow', h', hid', ?_⟩
  intro e he hm hle
  have hold := hall e (hev.grows.mem_of_le he (Nat.le_trans hle hx)) hm hle
  exact Nat.le_trans hold hhh

theorem Fresh.evolves (hev : Evolves w w') {x : Nat} (hx : x ≤ currentHistoryId w.mailbox)
    (h : Fresh w x) : Fresh w' x := by
  intro m halive hhas
  have hold := hev.grows.has hhas hx
  exact (h m (hev.grows.alive_of_has hold halive) hold).evolves hev hx halive

theorem StoredUpTo.of_not_hasIn {s x : Nat} (h : StoredUpTo w m s)
    (hnot : ¬ HasIn w.mailbox s x m) : StoredUpTo w m x := by
  obtain ⟨row, hrow, h, hid, hall⟩ := h
  refine ⟨row, hrow, h, hid, ?_⟩
  intro e he hm hx
  apply hall e he hm
  by_contra hs
  exact hnot ⟨e, he, hm, by omega, hx⟩

/-! ## What the workers hold -/

structure ScanOk (w : World) (scan : Scan) : Prop where
  started : scan.startedAt ≤ w.db.now
  baseline : scan.baseline ≤ currentHistoryId w.mailbox
  same : ∀ s, w.db.state.reconcile = some s → s.startedAt = scan.startedAt → s.Same scan

/-- The window of a final step: it reaches past every row stored before the scan
began. -/
structure FinalOk (w : World) (scan : Scan) (latest : Nat) : Prop where
  scanOk : ScanOk w scan
  reached : latest ≤ currentHistoryId w.mailbox
  old : ∀ m row, w.db.messages m = some row → row.updatedAt ≤ scan.startedAt →
    Has w.mailbox latest m

def Purpose.Ok (w : World) : Purpose → Prop
  | .imported => True
  | .delta latest => latest ≤ currentHistoryId w.mailbox
  | .page scan _ _ => ScanOk w scan
  | .final scan latest => FinalOk w scan latest

def Purpose.upTo : Purpose → Nat
  | .imported => 0
  | .delta latest => latest
  | .page scan _ _ => scan.baseline
  | .final _ latest => latest

def Purpose.Owes (listing : Listing) (w : World) : Purpose → MessageId → Prop
  | .imported, _ => False
  | .delta latest, m => Has w.mailbox latest m ∧ ¬ StoredUpTo w m latest
  | .page scan cursor next, m =>
    Has w.mailbox scan.baseline m ∧ listing.todo scan.startedAt cursor m = true ∧
      listing.left scan.startedAt next m = false
  | .final scan latest, m => HasIn w.mailbox scan.baseline latest m

def PhaseOk (listing : Listing) (w : World) : Phase → Prop
  | .starting _ baseline _ => baseline ≤ currentHistoryId w.mailbox
  | .scanning scan => ScanOk w scan
  | .listingDelta start => start ≤ currentHistoryId w.mailbox ∧ Fresh w start
  | .deleting purpose deleted changed =>
    purpose.Ok w ∧ (∀ m ∈ deleted, ¬ Alive w.mailbox m ∧ Known w.mailbox m) ∧
      ∀ m, Alive w.mailbox m → purpose.Owes listing w m → m ∈ changed
  | .hydrating purpose pending records =>
    purpose.Ok w ∧ RecordsOk w.mailbox records ∧
      ∀ m, Alive w.mailbox m → purpose.Owes listing w m →
        m ∈ pending ∨ ∃ r ∈ records, r.messageId = m ∧ RecordUpTo w.mailbox r purpose.upTo
  | .publishing latest => latest ≤ currentHistoryId w.mailbox ∧ Fresh w latest
  | .recordingPage scan cursor next ids =>
    ScanOk w scan ∧ ∀ m, Alive w.mailbox m → (Purpose.page scan cursor next).Owes listing w m →
      m ∈ ids ∧ StoredUpTo w m scan.baseline
  | .recordingSeen scan latest ids =>
    FinalOk w scan latest ∧ ∀ m, Alive w.mailbox m →
      HasIn w.mailbox scan.baseline latest m → m ∈ ids ∧ StoredUpTo w m latest
  | .finalizing scan latest =>
    FinalOk w scan latest ∧ ∀ s, w.db.state.reconcile = some s →
      s.startedAt = scan.startedAt → ∀ m, Alive w.mailbox m →
        HasIn w.mailbox scan.baseline latest m →
          (scan.generation, m) ∈ w.db.seen ∧ StoredUpTo w m latest
  | _ => True

theorem ScanOk.evolves (hev : Evolves w w') {scan : Scan} (h : ScanOk w scan) : ScanOk w' scan where
  started := Nat.le_trans h.started hev.now
  baseline := Nat.le_trans h.baseline hev.grows.current
  same s' hs' hstarted := by
    rcases hev.scan s' hs' with ⟨s, hs, hsame, -⟩ | hnew
    · have hold := h.same s hs (hsame.startedAt.trans hstarted)
      exact ⟨hstarted, hsame.generation.symm.trans hold.generation,
        hsame.baseline.symm.trans hold.baseline⟩
    · have := h.started
      omega

theorem FinalOk.evolves (hev : Evolves w w') {scan : Scan} {latest : Nat}
    (h : FinalOk w scan latest) : FinalOk w' scan latest where
  scanOk := h.scanOk.evolves hev
  reached := Nat.le_trans h.reached hev.grows.current
  old m row' hrow' hage := by
    rcases hev.young m row' hrow' with hrow | hnew
    · exact (h.old m row' hrow hage).grows hev.grows
    · have := h.scanOk.started
      omega

theorem Purpose.Ok.evolves (hev : Evolves w w') {purpose : Purpose} (h : purpose.Ok w) :
    purpose.Ok w' := by
  cases purpose with
  | imported => trivial
  | delta => exact Nat.le_trans h hev.grows.current
  | page => exact ScanOk.evolves hev h
  | final => exact FinalOk.evolves hev h

theorem Purpose.Ok.upTo_le {purpose : Purpose} (h : purpose.Ok w) :
    purpose.upTo ≤ currentHistoryId w.mailbox := by
  cases purpose with
  | imported => exact Nat.zero_le _
  | delta => exact h
  | page => exact h.baseline
  | final => exact h.reached

theorem HasIn.evolved (hev : Evolves w w') {s x : Nat} (hx : x ≤ currentHistoryId w.mailbox)
    (halive : Alive w'.mailbox m) (h : HasIn w'.mailbox s x m) :
    Alive w.mailbox m ∧ HasIn w.mailbox s x m := by
  have hin := hev.grows.hasIn h hx
  exact ⟨hev.grows.alive_of_has hin.has halive, hin⟩

section Owing

variable {listing : Listing}

theorem Purpose.Owes.evolved {w w' : World} (hev : Evolves w w') {purpose : Purpose}
    (hok : purpose.Ok w) {m : MessageId} (halive : Alive w'.mailbox m)
    (h : purpose.Owes listing w' m) : Alive w.mailbox m ∧ purpose.Owes listing w m := by
  cases purpose with
  | imported => exact h.elim
  | delta =>
    have hhas := hev.grows.has h.1 hok
    exact ⟨hev.grows.alive_of_has hhas halive, hhas,
      fun hstored => h.2 (hstored.evolves hev hok halive)⟩
  | page =>
    have hhas := hev.grows.has h.1 hok.baseline
    exact ⟨hev.grows.alive_of_has hhas halive, hhas, h.2⟩
  | final => exact HasIn.evolved hev hok.reached halive h

theorem PhaseOk.evolves {w w' : World} (hev : Evolves w w') {phase : Phase}
    (h : PhaseOk listing w phase) : PhaseOk listing w' phase := by
  cases phase with
  | idle | choosing | resetting => trivial
  | starting => exact Nat.le_trans h hev.grows.current
  | scanning => exact ScanOk.evolves hev h
  | listingDelta | publishing => exact ⟨Nat.le_trans h.1 hev.grows.current, h.2.evolves hev h.1⟩
  | deleting =>
    obtain ⟨hok, hdeleted, hchanged⟩ := h
    refine ⟨hok.evolves hev, ?_, ?_⟩
    · intro m hm
      obtain ⟨hdead, e, he, rfl⟩ := hdeleted m hm
      exact ⟨fun halive => hdead (hev.grows.alive e he halive), e, hev.grows.mem e he, rfl⟩
    · intro m halive howes
      obtain ⟨halive₀, howes₀⟩ := howes.evolved hev hok halive
      exact hchanged m halive₀ howes₀
  | hydrating =>
    obtain ⟨hok, hrecords, hpending⟩ := h
    refine ⟨hok.evolves hev, hrecords.grows hev.grows, ?_⟩
    intro m halive howes
    obtain ⟨halive₀, howes₀⟩ := howes.evolved hev hok halive
    rcases hpending m halive₀ howes₀ with hm | ⟨r, hr, hm, hupTo⟩
    · exact Or.inl hm
    · exact Or.inr ⟨r, hr, hm, hupTo.grows hev.grows hok.upTo_le⟩
  | recordingPage scan cursor next ids =>
    obtain ⟨hok, hids⟩ := h
    refine ⟨hok.evolves hev, ?_⟩
    intro m halive howes
    obtain ⟨halive₀, howes₀⟩ :=
      howes.evolved hev (show (Purpose.page scan cursor next).Ok w from hok) halive
    obtain ⟨hm, hstored⟩ := hids m halive₀ howes₀
    exact ⟨hm, hstored.evolves hev hok.baseline halive⟩
  | recordingSeen =>
    obtain ⟨hok, hids⟩ := h
    refine ⟨hok.evolves hev, ?_⟩
    intro m halive hin
    obtain ⟨halive₀, hin₀⟩ := hin.evolved hev hok.reached halive
    obtain ⟨hm, hstored⟩ := hids m halive₀ hin₀
    exact ⟨hm, hstored.evolves hev hok.reached halive⟩
  | finalizing scan =>
    obtain ⟨hok, hseen⟩ := h
    refine ⟨hok.evolves hev, ?_⟩
    intro s' hs' hstarted m halive hin
    obtain ⟨halive₀, hin₀⟩ := hin.evolved hev hok.reached halive
    rcases hev.scan s' hs' with ⟨s, hs, hsame, hkeeps⟩ | hnew
    · obtain ⟨hm, hstored⟩ :=
        hseen s hs (hsame.startedAt.trans hstarted) m halive₀ hin₀
      have hgeneration : s'.generation = scan.generation :=
        ((hok.evolves hev).scanOk.same s' hs' hstarted).generation
      rw [← hgeneration] at hm ⊢
      exact ⟨hkeeps m hm, hstored.evolves hev hok.reached halive⟩
    · have := hok.scanOk.started
      omega

end Owing

/-! ## What the tables hold -/

/-- The active scan has covered everything that its cursor does not list any more. -/
structure ScanCovers (listing : Listing) (w : World) (s : Scan) : Prop where
  started : s.startedAt ≤ w.db.now
  baseline : s.baseline ≤ currentHistoryId w.mailbox
  covered : ∀ m, Alive w.mailbox m → Has w.mailbox s.baseline m →
    listing.left s.startedAt s.cursor m = true ∨
      ((s.generation, m) ∈ w.db.seen ∧ StoredUpTo w m s.baseline)

structure SharedOk (listing : Listing) (w : World) : Prop where
  wellFormed : WellFormed w.mailbox
  rows : RowsOk w
  reached : w.published ≤ currentHistoryId w.mailbox
  cursor : ∀ c, w.db.state.authoritativeCursor = some c → c ≤ w.published ∧ Fresh w c
  scan : ∀ s, w.db.state.reconcile = some s → ScanCovers listing w s

structure LiveInv (listing : Listing) (w : World) : Prop where
  shared : SharedOk listing w
  phases : ∀ i, PhaseOk listing w (w.phase i)

structure StepOk (listing : Listing) (w w' : World) (phase : Phase) : Prop where
  evolves : Evolves w w'
  shared : SharedOk listing w'
  phase : PhaseOk listing w' phase

theorem Scan.Same.refl (s : Scan) : s.Same s := ⟨rfl, rfl, rfl⟩

theorem Evolves.refl (hw : WellFormed w.mailbox) : Evolves w w where
  grows := Grows.refl hw
  rows _ row _ h := ⟨row, h, Row.Le.refl row⟩
  young _ _ h := Or.inl h
  now := Nat.le_refl _
  scan s hs := Or.inl ⟨s, hs, Scan.Same.refl s, fun _ h => h⟩
  published := Nat.le_refl _
  purged _ h := h

theorem ScanCovers.scanOk {listing : Listing} {s : Scan} (h : ScanCovers listing w s)
    (hs : w.db.state.reconcile = some s) : ScanOk w s where
  started := h.started
  baseline := h.baseline
  same s' hs' _ := by
    cases hs.symm.trans hs'
    exact Scan.Same.refl s

section Steps

variable {listing : Listing} {w w' : World}

theorem ScanCovers.evolves (hev : Evolves w w') {s : Scan}
    (hs' : w'.db.state.reconcile = some s) (h : ScanCovers listing w s) :
    ScanCovers listing w' s where
  started := Nat.le_trans h.started hev.now
  baseline := Nat.le_trans h.baseline hev.grows.current
  covered m halive hhas := by
    have hhas₀ := hev.grows.has hhas h.baseline
    rcases h.covered m (hev.grows.alive_of_has hhas₀ halive) hhas₀ with hleft | ⟨hseen, hstored⟩
    · exact Or.inl hleft
    rcases hev.scan s hs' with ⟨-, -, -, hkeeps⟩ | hnew
    · exact Or.inr ⟨hkeeps m hseen, hstored.evolves hev h.baseline halive⟩
    · have := h.started
      omega

theorem SharedOk.evolves (hs : SharedOk listing w) (hev : Evolves w w') (hrows : RowsOk w')
    (hreached : w'.published ≤ currentHistoryId w'.mailbox)
    (hcursor : ∀ c, w'.db.state.authoritativeCursor = some c →
      w.db.state.authoritativeCursor = some c ∨ (c ≤ w'.published ∧ Fresh w' c))
    (hscan : ∀ s, w'.db.state.reconcile = some s →
      w.db.state.reconcile = some s ∨ ScanCovers listing w' s) : SharedOk listing w' where
  wellFormed := hev.grows.wellFormed
  rows := hrows
  reached := hreached
  cursor c hc := by
    rcases hcursor c hc with hold | hnew
    · obtain ⟨hle, hfresh⟩ := hs.cursor c hold
      exact ⟨Nat.le_trans hle hev.published, hfresh.evolves hev (Nat.le_trans hle hs.reached)⟩
    · exact hnew
  scan s hs' := by
    rcases hscan s hs' with hold | hnew
    · exact (hs.scan s hold).evolves hev hs'
    · exact hnew

theorem RowsOk.of_subset (h : RowsOk w) (hg : Grows w.mailbox w'.mailbox)
    (hnow : w.db.now ≤ w'.db.now)
    (hsub : ∀ m row, w'.db.messages m = some row → w.db.messages m = some row) : RowsOk w' where
  known m row hrow := (h.known m row (hsub m row hrow)).grows hg
  genuine m row x hrow hx := (h.genuine m row x (hsub m row hrow) hx).grows hg
  age m row hrow := Nat.le_trans (h.age m row (hsub m row hrow)) hnow

theorem StepOk.read (hs : SharedOk listing w) {phase : Phase} (h : PhaseOk listing w phase) :
    StepOk listing w w phase :=
  ⟨Evolves.refl hs.wellFormed, hs, h⟩

end Steps

end ElectronicMail.Sync
