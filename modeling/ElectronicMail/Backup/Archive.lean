import ElectronicMail.Foundations.Aead
import ElectronicMail.Foundations.ExclusiveFile
import ElectronicMail.Foundations.Streams

/-!
# Encrypted backups

An archive is the magic bytes and the nonce, the ciphertext, and the tag. `encrypt` and
`encrypt-stdin` write it, `decrypt` writes the plaintext to a file and removes the file when the
tag is wrong, and `decrypt-stdout` reads a copy of the archive twice, the first time for the tag
only.
-/

namespace ElectronicMail.Backup

open Foundations
open Foundations.Aead (Bytes Cipher Encryption)
open Foundations.ExclusiveFile (Action Call Check)

def magic : Bytes :=
  [69, 76, 69, 67, 84, 82, 79, 78, 73, 67, 45, 77, 65, 73, 76, 45, 80, 71, 45, 66, 65, 67, 75, 85,
    80, 0, 1]

def nonceBytes : Nat := 12

def tagBytes : Nat := 16

def chunkBytes : Nat := 1024 * 1024

/-- `os.urandom(NONCE_BYTES)`. -/
abbrev Nonce := { bytes : Bytes // bytes.length = nonceBytes }

def isLowerHex (c : Char) : Bool := ('0' ≤ c && c ≤ '9') || ('a' ≤ c && c ≤ 'f')

/-- `SHA256_PATTERN.fullmatch`. -/
def isSha256 (text : List Char) : Bool := text.length == 64 && text.all isLowerHex

structure Library where
  gcm : Cipher
  tagBytes_gcm : gcm.tagBytes = tagBytes
  hexdigest : Bytes → List Char
  isSha256_hexdigest : ∀ bytes, isSha256 (hexdigest bytes) = true

structure InputPath where
  isFile : Bool
  isSymlink : Bool
  isOutput : Bool

def validatePaths (input : InputPath) : List Check :=
  [.holds (input.isFile && !input.isSymlink), .holds (!input.isOutput), .absent]

section Commands

variable (L : Library)

/-! ## Encryption -/

/-- The body of `_encrypt_stream`, for the chunks that the source is read in. -/
def encryptStream (key : Bytes) (nonce : Nonce) (pieces : List Bytes) : List (Action UInt8) :=
  let header := magic ++ nonce.1
  let encrypted := Cipher.updates L.gcm.encrypt ⟨key, nonce.1, header, []⟩ pieces
  .write header :: encrypted.1.flatMap (fun chunk => [.pass, .write chunk]) ++
    [.pass, .write [], .write (L.gcm.tagOf encrypted.2), .pass, .pass]

def encrypt (input : InputPath) (key : Bytes) (nonce : Nonce) (ready : Nat → Nat)
    (source : Bytes) : Call UInt8 where
  checks := validatePaths input ++ [.holds true, .holds true]
  work := encryptStream L key nonce (Streams.chunks chunkBytes ready source)

def encryptStdin (key : Bytes) (nonce : Nonce) (ready : Nat → Nat) (source : Bytes) :
    Call UInt8 where
  checks := [.absent, .holds true]
  work := encryptStream L key nonce (Streams.chunks chunkBytes ready source)

/-! ## Decryption -/

structure Layout where
  header : Bytes
  nonce : Bytes
  tag : Bytes
  ciphertextBytes : Nat

/-- `_encrypted_layout`, of a file that is read whole. -/
def encryptedLayout (file : Bytes) : Option Layout :=
  if file.length < magic.length + nonceBytes + tagBytes then none
  else if file.take magic.length ≠ magic then none
  else
    let nonce := (file.drop magic.length).take nonceBytes
    let header := file.take magic.length ++ nonce
    some
      { header := header
        nonce := nonce
        tag := (file.drop (file.length - tagBytes)).take tagBytes
        ciphertextBytes := file.length - header.length - tagBytes }

def writeTo (destination : Bool) (plaintext : Bytes) : List (Action UInt8) :=
  if destination then [.write plaintext] else []

def decryptPass (log : List Encryption) (key : Bytes) (layout : Layout) (ready : Nat → Nat)
    (file : Bytes) (destination : Bool) : List (Action UInt8) :=
  let read := Streams.chunksUpTo chunkBytes ready (file.drop layout.header.length)
    layout.ciphertextBytes
  let decrypted := Cipher.updates L.gcm.decrypt ⟨key, layout.nonce, layout.header, []⟩ read.1
  .pass :: decrypted.1.flatMap (fun plaintext => .pass :: writeTo destination plaintext) ++
    if read.2 then
      if Cipher.accepts log decrypted.2 layout.tag then writeTo destination [] else [.fail]
    else [.pass, .fail]

def decrypt (log : List Encryption) (input : InputPath) (key : Bytes) (ready : Nat → Nat)
    (file : Bytes) : Call UInt8 where
  checks := validatePaths input ++ [.holds true, .holds true, .holds (encryptedLayout file).isSome]
  work :=
    match encryptedLayout file with
    | none => []
    | some layout => decryptPass L log key layout ready file true ++ [.pass, .pass]

def require (condition : Bool) : List (Action UInt8) := if condition then [.pass] else [.fail]

/-- `decrypt_stdout`; `writes` go to the standard output. -/
def decryptStdout (log : List Encryption) (isRegular : Bool) (key : Bytes)
    (expectedSha256 : Option (List Char)) (copying first second : Nat → Nat) (file : Bytes) :
    List (Action UInt8) :=
  let pieces := Streams.chunks chunkBytes copying file
  let snapshot := pieces.flatten
  require (expectedSha256.all isSha256) ++ require isRegular ++ pieces.map (fun _ => .pass) ++
    .pass :: require (expectedSha256.all (L.hexdigest snapshot == ·)) ++
    match encryptedLayout snapshot with
    | none => [.fail]
    | some layout =>
      .pass :: decryptPass L log key layout first snapshot false ++
        decryptPass L log key layout second snapshot true ++ [.pass]

/-! ## Archives -/

/-- The encryption that is logged when a plaintext has been encrypted. -/
def encryptionOf (key : Bytes) (nonce : Nonce) (plaintext : Bytes) : Encryption :=
  L.gcm.encryption key nonce.1 (magic ++ nonce.1) plaintext

def archiveOf (encryption : Encryption) : Bytes :=
  encryption.header ++ (encryption.ciphertext ++ encryption.tag)

def Produced (log : List Encryption) (key file : Bytes) : Prop :=
  ∃ encryption ∈ log, encryption.key = key ∧ encryption.header = magic ++ encryption.nonce ∧
    file = archiveOf encryption

end Commands

end ElectronicMail.Backup
