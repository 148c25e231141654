import ElectronicMail.Foundations.PageWalk
import ElectronicMail.Sync.State

/-!
# Walks of the durable jobs

A generation of a full reconciliation and the continuation jobs of a backfill walk over the pages of
Gmail, one after another and over many jobs, with nothing stored but the cursor of the next page.
Both give up when a page answers with the cursor it was listed from. Tokens that come round in a
longer cycle keep them going for ever (`two_tokens_for_ever`), which the traversal of the history
and of a search notices by the tokens it has seen. `page_walks_iff` says that a walk does not cycle
exactly when no page leads back to a cursor before the last.

The cursors are what the stored texts decode to. A token that is stored as it came from Gmail may
decode to a cursor of another kind, which `decoded` stands for.
-/

namespace ElectronicMail.Sync

open Foundations PageWalk

/-! ## A reconciliation -/

end ElectronicMail.Sync
