import Mathlib.Data.List.Basic

/-!
# An ideal streaming cipher with authentication

Plaintext is masked with a keystream as it comes, in chunks of any size, and a tag is computed over
the whole. The tag is ideal: it is accepted for what has been encrypted with the key and for nothing
else, so that the decryptor is given the log of all encryptions.
-/

namespace ElectronicMail.Foundations.Aead

abbrev Bytes := List UInt8

/-- Keystream by key, nonce and position, and tags by key, nonce, associated data and
ciphertext. -/
structure Cipher where
  keystream : Bytes → Bytes → Nat → UInt8
  tag : Bytes → Bytes → Bytes → Bytes → Bytes
  tagBytes : Nat
  length_tag : ∀ key nonce header ciphertext, (tag key nonce header ciphertext).length = tagBytes

structure Encryption where
  key : Bytes
  nonce : Bytes
  header : Bytes
  ciphertext : Bytes
  tag : Bytes
  deriving DecidableEq

/-- An encryptor or a decryptor, with the ciphertext that has passed it. -/
structure Context where
  key : Bytes
  nonce : Bytes
  header : Bytes
  ciphertext : Bytes

def Context.pass (context : Context) (ciphertext : Bytes) : Context :=
  { context with ciphertext := context.ciphertext ++ ciphertext }

namespace Cipher

variable (c : Cipher)

def mask (key nonce : Bytes) : Nat → Bytes → Bytes
  | _, [] => []
  | position, byte :: bytes =>
    (byte ^^^ c.keystream key nonce position) :: mask key nonce (position + 1) bytes

/-- `encryptor.update`. -/
def encrypt (context : Context) (chunk : Bytes) : Context × Bytes :=
  let masked := c.mask context.key context.nonce context.ciphertext.length chunk
  (context.pass masked, masked)

/-- `decryptor.update`. -/
def decrypt (context : Context) (chunk : Bytes) : Context × Bytes :=
  (context.pass chunk, c.mask context.key context.nonce context.ciphertext.length chunk)

/-- `encryptor.tag`. -/
def tagOf (context : Context) : Bytes :=
  c.tag context.key context.nonce context.header context.ciphertext

def finalized (context : Context) : Encryption where
  key := context.key
  nonce := context.nonce
  header := context.header
  ciphertext := context.ciphertext
  tag := c.tagOf context

/-- `decryptor.finalize`: whether the tag is accepted. -/
def accepts (log : List Encryption) (context : Context) (tag : Bytes) : Bool :=
  decide (⟨context.key, context.nonce, context.header, context.ciphertext, tag⟩ ∈ log)

def encryption (key nonce header plaintext : Bytes) : Encryption :=
  c.finalized ⟨key, nonce, header, c.mask key nonce 0 plaintext⟩

/-! ## Masks -/

variable {c} {key nonce : Bytes}

@[simp]
theorem length_mask (position : Nat) (bytes : Bytes) :
    (c.mask key nonce position bytes).length = bytes.length := by
  induction bytes generalizing position with
  | nil => rfl
  | cons byte bytes ih => simp [mask, ih]

theorem mask_append (position : Nat) (first rest : Bytes) :
    c.mask key nonce position (first ++ rest) =
      c.mask key nonce position first ++ c.mask key nonce (position + first.length) rest := by
  induction first generalizing position with
  | nil => rfl
  | cons byte first ih =>
    simp only [List.cons_append, mask, ih, List.length_cons]
    congr 3
    omega

@[simp]
theorem mask_mask (position : Nat) (bytes : Bytes) :
    c.mask key nonce position (c.mask key nonce position bytes) = bytes := by
  induction bytes generalizing position with
  | nil => rfl
  | cons byte bytes ih => simp [mask, ih, UInt8.xor_assoc]

/-! ## Chunks -/

/-- The outputs of `update` for chunks, and the context after them. -/
def updates (update : Context → Bytes → Context × Bytes) :
    Context → List Bytes → List Bytes × Context
  | context, [] => ([], context)
  | context, chunk :: rest =>
    let next := update context chunk
    let after := updates update next.1 rest
    (next.2 :: after.1, after.2)

theorem updates_encrypt (context : Context) (pieces : List Bytes) :
    (updates c.encrypt context pieces).1.flatten =
        c.mask context.key context.nonce context.ciphertext.length pieces.flatten ∧
      (updates c.encrypt context pieces).2 =
        context.pass
          (c.mask context.key context.nonce context.ciphertext.length pieces.flatten) := by
  induction pieces generalizing context with
  | nil => simp [updates, mask, Context.pass]
  | cons chunk pieces ih =>
    obtain ⟨houtputs, hcontext⟩ := ih (c.encrypt context chunk).1
    simp only [updates, List.flatten_cons, mask_append]
    rw [houtputs, hcontext]
    simp [encrypt, Context.pass]

theorem updates_decrypt (context : Context) (pieces : List Bytes) :
    (updates c.decrypt context pieces).1.flatten =
        c.mask context.key context.nonce context.ciphertext.length pieces.flatten ∧
      (updates c.decrypt context pieces).2 = context.pass pieces.flatten := by
  induction pieces generalizing context with
  | nil => simp [updates, mask, Context.pass]
  | cons chunk pieces ih =>
    obtain ⟨houtputs, hcontext⟩ := ih (c.decrypt context chunk).1
    simp only [updates, List.flatten_cons, mask_append]
    rw [houtputs, hcontext]
    simp [decrypt, Context.pass]

end Cipher

end ElectronicMail.Foundations.Aead
