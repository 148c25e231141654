import ElectronicMail.Backup.Archive

/-!
# Archives are read back, and nothing else is

What `encrypt` writes, `decrypt` reads back, whatever the chunks are (`roundTrips`); a file that no
encryption under the key has produced is refused before a plaintext file stays or the standard
output gets a byte (`refuses`). What a failed call leaves at its output is the third part of
`backup_holds_iff`.
-/

namespace ElectronicMail.Backup

open Foundations
open Foundations.Aead (Bytes Cipher Encryption)
open Foundations.ExclusiveFile

/-! ## Layout -/

@[simp]
theorem length_magic : magic.length = 27 := rfl

variable {file : Bytes} {layout : Layout}

theorem append_of_encryptedLayout (h : encryptedLayout file = some layout) :
    file = layout.header ++
        ((file.drop layout.header.length).take layout.ciphertextBytes ++ layout.tag) ∧
      layout.header = magic ++ layout.nonce ∧
      layout.ciphertextBytes ≤ (file.drop layout.header.length).length := by
  unfold encryptedLayout at h
  split at h
  · cases h
  next hsize =>
    split at h
    · cases h
    next hmagic =>
      rw [ne_eq, not_not] at hmagic
      obtain rfl := Option.some.inj h
      have hlong : 27 + 12 + 16 ≤ file.length := by
        simp only [length_magic, nonceBytes, tagBytes] at hsize
        omega
      have hheader : (file.take magic.length ++ (file.drop magic.length).take nonceBytes).length
          = 39 := by
        simp only [List.length_append, List.length_take, List.length_drop, length_magic, nonceBytes]
        omega
      have hprefix : file.take magic.length ++ (file.drop magic.length).take nonceBytes =
          file.take 39 := by
        rw [length_magic, nonceBytes, ← List.take_add]
      have htag : (file.drop (file.length - tagBytes)).take tagBytes =
          (file.drop 39).drop (file.length - 39 - 16) := by
        rw [List.drop_drop, List.take_of_length_le]
        · congr 1
          simp only [tagBytes]
          omega
        · rw [List.length_drop]
          omega
      refine ⟨?_, ?_, ?_⟩
      · simp only [hheader]
        rw [htag, hprefix]
        simp only [tagBytes]
        rw [List.take_append_drop, List.take_append_drop]
      · simp only
        rw [hmagic]
      · simp only [hheader, List.length_drop]
        omega

theorem encryptedLayout_archiveOf (L : Library) (key : Bytes) (nonce : Nonce)
    (plaintext : Bytes) :
    encryptedLayout (archiveOf (encryptionOf L key nonce plaintext)) =
      some
        { header := magic ++ nonce.1
          nonce := nonce.1
          tag := (encryptionOf L key nonce plaintext).tag
          ciphertextBytes := plaintext.length } := by
  obtain ⟨nonce, hnonce⟩ := nonce
  have htag : (encryptionOf L key ⟨nonce, hnonce⟩ plaintext).tag.length = tagBytes :=
    (L.gcm.length_tag _ _ _ _).trans L.tagBytes_gcm
  have hciphertext : (encryptionOf L key ⟨nonce, hnonce⟩ plaintext).ciphertext.length =
      plaintext.length := Cipher.length_mask _ _
  have hfile : archiveOf (encryptionOf L key ⟨nonce, hnonce⟩ plaintext) =
      magic ++ (nonce ++ ((encryptionOf L key ⟨nonce, hnonce⟩ plaintext).ciphertext ++
        (encryptionOf L key ⟨nonce, hnonce⟩ plaintext).tag)) := by
    show (magic ++ nonce) ++ _ = _
    rw [List.append_assoc]
  generalize (encryptionOf L key ⟨nonce, hnonce⟩ plaintext).tag = tag at *
  generalize (encryptionOf L key ⟨nonce, hnonce⟩ plaintext).ciphertext = ciphertext at *
  have hlength : (magic ++ (nonce ++ (ciphertext ++ tag))).length =
      27 + (12 + (plaintext.length + 16)) := by
    simp only [List.length_append, length_magic, hnonce, hciphertext, htag, nonceBytes, tagBytes]
  have hmagic : (magic ++ (nonce ++ (ciphertext ++ tag))).take magic.length = magic :=
    List.take_left
  have hrest : (magic ++ (nonce ++ (ciphertext ++ tag))).drop magic.length =
      nonce ++ (ciphertext ++ tag) := List.drop_left
  have hnonceTaken : (nonce ++ (ciphertext ++ tag)).take nonceBytes = nonce := by
    rw [← hnonce]
    exact List.take_left
  have htagTaken : ((magic ++ (nonce ++ (ciphertext ++ tag))).drop
      (27 + (12 + (plaintext.length + 16)) - tagBytes)).take tagBytes = tag := by
    have hsplit : magic ++ (nonce ++ (ciphertext ++ tag)) =
        (magic ++ nonce ++ ciphertext) ++ tag := by
      simp only [List.append_assoc]
    have hoffset : 27 + (12 + (plaintext.length + 16)) - tagBytes =
        (magic ++ nonce ++ ciphertext).length := by
      simp only [List.length_append, length_magic, hnonce, hciphertext, nonceBytes, tagBytes]
      omega
    rw [hsplit, hoffset, List.drop_left, ← htag, List.take_length]
  unfold encryptedLayout
  rw [hfile, hlength, if_neg (by simp only [length_magic, nonceBytes, tagBytes]; omega), hmagic,
    if_neg (by simp), hrest, hnonceTaken, htagTaken]
  simp only [List.length_append, length_magic, hnonce, nonceBytes, tagBytes, Option.some.injEq,
    Layout.mk.injEq, true_and]
  omega

/-! ## What the passes write -/

theorem output_flatMap_pass_write (pieces : List Bytes) :
    output (pieces.flatMap fun chunk => [.pass, Action.write chunk]) = (pieces.flatten, true) := by
  induction pieces with
  | nil => rfl
  | cons chunk pieces ih =>
    rw [List.flatMap_cons, List.cons_append, List.cons_append, List.nil_append]
    simp only [output, ih, List.flatten_cons]

theorem output_flatMap_pass {β : Type} (pieces : List β) (actions : β → List (Action UInt8))
    (h : ∀ piece ∈ pieces, output (actions piece) = ([], true)) :
    output (pieces.flatMap actions) = ([], true) := by
  induction pieces with
  | nil => rfl
  | cons piece pieces ih =>
    rw [List.flatMap_cons, output_append, h piece (List.mem_cons_self ..),
      ih fun other hother => h other (List.mem_cons_of_mem _ hother)]
    rfl

theorem output_map_pass {β : Type} (pieces : List β) :
    output (pieces.map fun _ => (.pass : Action UInt8)) = ([], true) := by
  rw [List.map_eq_flatMap]
  apply output_flatMap_pass
  intro piece _
  rfl

theorem output_encryptStream (L : Library) (key : Bytes) (nonce : Nonce) (pieces : List Bytes) :
    output (encryptStream L key nonce pieces) =
      (archiveOf (encryptionOf L key nonce pieces.flatten), true) := by
  obtain ⟨houtputs, hcontext⟩ := Cipher.updates_encrypt (c := L.gcm)
    ⟨key, nonce.1, magic ++ nonce.1, []⟩ pieces
  unfold encryptStream
  simp only [List.cons_append, output, output_append, output_flatMap_pass_write]
  simp only [if_true, houtputs, hcontext, List.append_nil, List.nil_append]
  rfl

/-- A pass over a file with a layout: the plaintext goes to the destination, and the tag decides
whether the pass fails. -/
theorem output_decryptPass (L : Library) (log : List Encryption) (key : Bytes)
    (hlayout : encryptedLayout file = some layout) (ready : Nat → Nat) (destination : Bool) :
    output (decryptPass L log key layout ready file destination) = (if destination then
        L.gcm.mask key layout.nonce 0 ((file.drop layout.header.length).take layout.ciphertextBytes)
      else [],
      Cipher.accepts log
        ⟨key, layout.nonce, layout.header,
          (file.drop layout.header.length).take layout.ciphertextBytes⟩ layout.tag) := by
  obtain ⟨-, -, henough⟩ := append_of_encryptedLayout hlayout
  obtain ⟨hflatten, hread⟩ := Streams.chunksUpTo_spec (show 0 < chunkBytes by decide) ready
    (file.drop layout.header.length) layout.ciphertextBytes henough
  unfold decryptPass
  generalize Streams.chunksUpTo chunkBytes ready (file.drop layout.header.length)
    layout.ciphertextBytes = read at hflatten hread
  obtain ⟨houtputs, hcontext⟩ := Cipher.updates_decrypt (c := L.gcm)
    ⟨key, layout.nonce, layout.header, []⟩ read.1
  simp only [hread, if_true, hcontext, hflatten, Aead.Context.pass, List.nil_append]
  simp only [List.cons_append, output, output_append]
  have hpass : output ((Cipher.updates L.gcm.decrypt
        ⟨key, layout.nonce, layout.header, []⟩ read.1).1.flatMap
          fun plaintext => .pass :: writeTo destination plaintext) =
      (if destination then
        L.gcm.mask key layout.nonce 0 ((file.drop layout.header.length).take layout.ciphertextBytes)
      else [], true) := by
    cases destination with
    | true =>
      simp only [writeTo, if_true]
      rw [output_flatMap_pass_write, houtputs, hflatten]
      rfl
    | false =>
      apply output_flatMap_pass
      intro piece _
      rfl
  rw [hpass, if_pos rfl]
  cases Cipher.accepts log ⟨key, layout.nonce, layout.header,
      (file.drop layout.header.length).take layout.ciphertextBytes⟩ layout.tag with
  | true => cases destination <;> simp [writeTo, output]
  | false => simp [output]

/-! ## Round trips -/

/-- Every call that returns has written the content, and a call whose input can be used returns
with its output when nothing disturbs it. -/
def Writes (call : Call UInt8) (usable : Bool) (content : Bytes) : Prop :=
  (∀ occupied events,
    (after (step call) (State.start call occupied) events).phase = .returned →
      (after (step call) (State.start call occupied) events).written = content) ∧
  (usable = true → ∃ steps, after (step call) (State.start call false) (undisturbed steps) =
    { entry := some .self, written := content, phase := .returned, harmed := false })

theorem writes_of_output {call : Call UInt8} {usable : Bool} {content : Bytes}
    (houtput : output call.work = (content, true))
    (hchecks : usable = true → ∀ check ∈ call.checks, check.passes none) :
    Writes call usable content := by
  constructor
  · intro occupied events hreturned
    have hwritten := output_of_returned hreturned
    rw [houtput] at hwritten
    exact (congrArg Prod.fst hwritten).symm
  · intro husable
    obtain ⟨steps, hsteps⟩ := returns_undisturbed (hchecks husable) (by rw [houtput])
    refine ⟨steps, ?_⟩
    rw [hsteps, houtput]

def InputPath.usable (input : InputPath) : Bool :=
  input.isFile && !input.isSymlink && !input.isOutput

theorem passes_validatePaths {input : InputPath} (h : input.usable = true) :
    ∀ check ∈ validatePaths input, check.passes none := by
  simp only [InputPath.usable, Bool.and_eq_true] at h
  simp [validatePaths, Check.passes, h.1.1, h.1.2, h.2]

/-- What the two commands that encrypt write, the two that decrypt read back. -/
def RoundTrips (L : Library) : Prop :=
  ∀ (key : Bytes) (nonce : Nonce) (plaintext : Bytes),
    (∀ (input : InputPath) (ready : Nat → Nat),
      Writes (encrypt L input key nonce ready plaintext) input.usable
        (archiveOf (encryptionOf L key nonce plaintext))) ∧
    (∀ ready : Nat → Nat,
      Writes (encryptStdin L key nonce ready plaintext) true
        (archiveOf (encryptionOf L key nonce plaintext))) ∧
    ∀ log, encryptionOf L key nonce plaintext ∈ log →
      (∀ (input : InputPath) (ready : Nat → Nat),
        Writes (decrypt L log input key ready (archiveOf (encryptionOf L key nonce plaintext)))
          input.usable plaintext) ∧
      ∀ (expectedSha256 : Option (List Char)) (copying first second : Nat → Nat),
        expectedSha256.all
            (L.hexdigest (archiveOf (encryptionOf L key nonce plaintext)) == ·) = true →
        output (decryptStdout L log true key expectedSha256 copying first second
          (archiveOf (encryptionOf L key nonce plaintext))) = (plaintext, true)

variable {log : List Encryption}

theorem output_decryptPass_archiveOf (L : Library) {key : Bytes} {nonce : Nonce} {plaintext : Bytes}
    (hlog : encryptionOf L key nonce plaintext ∈ log) (ready : Nat → Nat) (destination : Bool) :
    output (decryptPass L log key
        { header := magic ++ nonce.1
          nonce := nonce.1
          tag := (encryptionOf L key nonce plaintext).tag
          ciphertextBytes := plaintext.length } ready
        (archiveOf (encryptionOf L key nonce plaintext)) destination) =
      (if destination then plaintext else [], true) := by
  rw [output_decryptPass L log key (encryptedLayout_archiveOf L key nonce plaintext)]
  have hciphertext : ((archiveOf (encryptionOf L key nonce plaintext)).drop
      (magic ++ nonce.1).length).take plaintext.length =
      L.gcm.mask key nonce.1 0 plaintext := by
    have hdrop : (archiveOf (encryptionOf L key nonce plaintext)).drop (magic ++ nonce.1).length =
        L.gcm.mask key nonce.1 0 plaintext ++ (encryptionOf L key nonce plaintext).tag :=
      List.drop_left
    have hlength : (L.gcm.mask key nonce.1 0 plaintext).length = plaintext.length :=
      Cipher.length_mask 0 plaintext
    rw [hdrop, ← hlength]
    exact List.take_left
  have haccepts : Cipher.accepts log
      ⟨key, nonce.1, magic ++ nonce.1, L.gcm.mask key nonce.1 0 plaintext⟩
      (encryptionOf L key nonce plaintext).tag = true := decide_eq_true hlog
  simp only [hciphertext, haccepts, Cipher.mask_mask]

theorem roundTrips (L : Library) : RoundTrips L := by
  intro key nonce plaintext
  refine ⟨?_, ?_, ?_⟩
  · intro input ready
    apply writes_of_output
    · rw [encrypt, output_encryptStream, Streams.flatten_chunks (by decide)]
    intro husable check hcheck
    rcases List.mem_append.1 hcheck with hcheck | hcheck
    · exact passes_validatePaths husable check hcheck
    · simp only [List.mem_cons, List.not_mem_nil, or_false, or_self] at hcheck
      rw [hcheck]
      rfl
  · intro ready
    apply writes_of_output
    · rw [encryptStdin, output_encryptStream, Streams.flatten_chunks (by decide)]
    · simp [encryptStdin, Check.passes]
  · intro log hlog
    have hlayout := encryptedLayout_archiveOf L key nonce plaintext
    constructor
    · intro input ready
      apply writes_of_output
      · simp only [decrypt, hlayout, output_append, output_decryptPass_archiveOf L hlog, if_true]
        simp [output]
      intro husable check hcheck
      simp only [decrypt, hlayout, Option.isSome_some] at hcheck
      rcases List.mem_append.1 hcheck with hcheck | hcheck
      · exact passes_validatePaths husable check hcheck
      · simp only [List.mem_cons, List.not_mem_nil, or_false, or_self] at hcheck
        rw [hcheck]
        rfl
    · intro expectedSha256 copying first second hexpected
      have hwellFormed : expectedSha256.all isSha256 = true := by
        cases expectedSha256 with
        | none => rfl
        | some =>
          have hdigest := eq_of_beq hexpected
          rw [Option.all_some, ← hdigest]
          exact L.isSha256_hexdigest _
      simp only [decryptStdout, Streams.flatten_chunks (show 0 < chunkBytes by decide), hlayout,
        hwellFormed, hexpected, require, if_true, output_append, List.cons_append, output_map_pass, output,
        output_decryptPass_archiveOf L hlog]
      simp

/-! ## Refusals -/

/-- A file that no encryption under the key has produced leaves no plaintext behind: `decrypt` does
not return, and `decrypt-stdout` has written nothing wherever it ends or is broken off. -/
def Refuses (L : Library) : Prop :=
  ∀ (log : List Encryption) (key file : Bytes), ¬ Produced log key file →
    (∀ (input : InputPath) (ready : Nat → Nat) (occupied : Bool) (events : List Event),
      (after (step (decrypt L log input key ready file))
        (State.start (decrypt L log input key ready file) occupied) events).phase ≠ .returned) ∧
    ∀ (isRegular : Bool) (expectedSha256 : Option (List Char)) (copying first second : Nat → Nat)
      (n : Nat),
      (output ((decryptStdout L log isRegular key expectedSha256 copying first second file).take
        n)).1 = []

theorem produced_of_accepts {key : Bytes} (hlayout : encryptedLayout file = some layout)
    (h : Cipher.accepts log
      ⟨key, layout.nonce, layout.header,
        (file.drop layout.header.length).take layout.ciphertextBytes⟩ layout.tag = true) :
    Produced log key file := by
  obtain ⟨hfile, hheader, -⟩ := append_of_encryptedLayout hlayout
  exact ⟨_, of_decide_eq_true h, rfl, hheader, hfile⟩

variable {first rest : List (Action UInt8)}

theorem output_append_of_fails (h : output first = ([], false)) :
    output (first ++ rest) = ([], false) := by
  rw [output_append, h]
  rfl

theorem output_append_silent (hfirst : (output first).1 = []) (hrest : (output rest).1 = []) :
    (output (first ++ rest)).1 = [] := by
  rw [output_append]
  split
  · rw [hfirst, hrest]
    rfl
  · exact hfirst

theorem refuses (L : Library) : Refuses L := by
  intro log key file hproduced
  have hrejects : ∀ layout, encryptedLayout file = some layout →
      ∀ (ready : Nat → Nat) (destination : Bool),
        (output (decryptPass L log key layout ready file destination)).2 = false := by
    intro layout hlayout ready destination
    rw [output_decryptPass L log key hlayout]
    rw [Bool.eq_false_iff]
    intro haccepts
    exact hproduced (produced_of_accepts hlayout haccepts)
  constructor
  · intro input ready occupied events
    cases hlayout : encryptedLayout file with
    | none =>
      apply not_returned_of_check
      simp [decrypt, hlayout]
    | some layout =>
      intro hreturned
      have hwork := congrArg Prod.snd (output_of_returned hreturned)
      simp only [decrypt, hlayout, output_append, hrejects layout hlayout] at hwork
      rw [if_neg (by simp), hrejects layout hlayout] at hwork
      cases hwork
  · intro isRegular expectedSha256 copying first second n
    have hsilent : (output (decryptStdout L log isRegular key expectedSha256 copying first second
        file)).1 = [] := by
      unfold decryptStdout
      simp only [Streams.flatten_chunks (show 0 < chunkBytes by decide)]
      have hrequire : ∀ condition, (output (require condition)).1 = [] := by
        intro condition
        cases condition <;> rfl
      refine output_append_silent (output_append_silent (output_append_silent (output_append_silent
        (hrequire _) (hrequire _)) ?_) (hrequire _)) ?_
      · rw [output_map_pass]
      split
      · rfl
      · next layout hlayout =>
          have hfirst : output (decryptPass L log key layout first file false) = ([], false) := by
            have hrejected := hrejects layout hlayout first false
            rw [output_decryptPass L log key hlayout] at hrejected ⊢
            exact Prod.ext rfl hrejected
          rw [List.cons_append, List.cons_append, output, List.append_assoc,
            output_append_of_fails hfirst]
    exact List.prefix_nil.1 (hsilent ▸ output_take_prefix _ n)

/-! ## Calls and other processes -/

inductive Command where
  | encrypt (input : InputPath) (nonce : Nonce) (ready : Nat → Nat) (source : Bytes)
  | encryptStdin (nonce : Nonce) (ready : Nat → Nat) (source : Bytes)
  | decrypt (log : List Encryption) (input : InputPath) (ready : Nat → Nat) (file : Bytes)

def Command.call (L : Library) (key : Bytes) : Command → Call UInt8
  | .encrypt input nonce ready source => Backup.encrypt L input key nonce ready source
  | .encryptStdin nonce ready source => Backup.encryptStdin L key nonce ready source
  | .decrypt log input ready file => Backup.decrypt L log input key ready file

/-- Archives are read back, other files are refused, and the command leaves no file of its own and
removes none of another process throughout the run. -/
def Holds (L : Library) (command : Command) (key : Bytes) (occupied : Bool)
    (events : List Event) : Prop :=
  RoundTrips L ∧ Refuses L ∧
    Throughout (step (command.call L key)) Clean (State.start (command.call L key) occupied) events

theorem backup_holds_iff (L : Library) (command : Command) (key : Bytes) (occupied : Bool)
    (events : List Event) :
    Holds L command key occupied events ↔
      Along (step (command.call L key)) Spares (State.start (command.call L key) occupied)
        events := by
  rw [← throughout_clean_iff]
  constructor
  · rintro ⟨-, -, hclean⟩
    exact hclean
  · intro hclean
    exact ⟨roundTrips L, refuses L, hclean⟩

def constantLibrary : Library where
  gcm :=
    { keystream := fun _ _ _ => 0
      tag := fun _ _ _ _ => List.replicate tagBytes 0
      tagBytes := tagBytes
      length_tag := fun _ _ _ _ => List.length_replicate }
  tagBytes_gcm := rfl
  hexdigest := fun _ => List.replicate 64 '0'
  isSha256_hexdigest := fun _ => by decide

/-- Another process puts a file at the path once `encrypt-stdin` has seen that there is none. The
exclusive open fails, and the file is removed. -/
theorem other_file_removed :
    ¬ ∀ (L : Library) (command : Command) (key : Bytes) (occupied : Bool) (events : List Event),
      Holds L command key occupied events := by
  intro h
  have hclean := (h constantLibrary
    (.encryptStdin ⟨List.replicate nonceBytes 0, List.length_replicate⟩ (fun _ => 1) []) []
    false (undisturbed 2 ++ .placed :: undisturbed 2)).2.2.last
  exact not_clean_of_placed (by simp [Command.call, Backup.encryptStdin, Check.passes]) hclean

end ElectronicMail.Backup
