import ElectronicMail.Jobs.RetryBudget
import ElectronicMail.Sends.AtMostOnce
import ElectronicMail.Messages.LabelMerge
import ElectronicMail.Actions.WorkerCycle
import ElectronicMail.Sync.Cursor
import ElectronicMail.Progress.Bounds
import ElectronicMail.Progress.Complete
import ElectronicMail.Listing.Exactness
import ElectronicMail.Drafts.NoDeadlock
import ElectronicMail.Drafts.Lifecycle
import ElectronicMail.Drafts.Acknowledged
import ElectronicMail.Jobs.WakeUp
import ElectronicMail.Accounts.Deletion
import ElectronicMail.OAuth.NoneForgotten
import ElectronicMail.OAuth.NoneKilled
import ElectronicMail.Matters.LatestRebuild
import ElectronicMail.Matters.Consent
import ElectronicMail.Matters.Separation
import ElectronicMail.Matters.Locking
import ElectronicMail.Matters.Projection
import ElectronicMail.Matters.Organized
import ElectronicMail.Matters.Promotion
import ElectronicMail.Matters.ActionOnce
import ElectronicMail.Matters.Todos
import ElectronicMail.Offline.ActionOrder
import ElectronicMail.Offline.PagesKept
import ElectronicMail.Attachments.BoundedDownloads
import ElectronicMail.SignOut.NoMailLeft
import ElectronicMail.Reader.LabelsConverge
import ElectronicMail.Mailbox.ExactChain
import ElectronicMail.Events.Delivered
import ElectronicMail.Messages.MailboxRevision
import ElectronicMail.Mailbox.CombinedChain
import ElectronicMail.Backup.RoundTrip
import ElectronicMail.Logins.OneSession
import ElectronicMail.Corrections.InOrder
import ElectronicMail.Client.Affinity
import ElectronicMail.Actions.Rollback
import ElectronicMail.RateLimit.Limiter
import ElectronicMail.Sync.DeltaSync
import ElectronicMail.Sync.StalePages
import ElectronicMail.Sync.PageWalks
import ElectronicMail.Matters.GoalsKept
import ElectronicMail.Matters.MergedWork
import ElectronicMail.Matters.DecisionReplay
import ElectronicMail.Matters.RfcAncestors
import ElectronicMail.Sanitizer.Allowlist
import ElectronicMail.SessionToken.LastIntent
import ElectronicMail.Mailbox.Accumulator
import ElectronicMail.Accounts.AccountThread
import ElectronicMail.Reader.PaginatedThread
import ElectronicMail.Accounts.ForwardToggle
import ElectronicMail.Mailbox.ReadMarks
import ElectronicMail.Search.SearchKeys
import ElectronicMail.Client.ProgressMerge
import ElectronicMail.Reader.ChronologicalOrder
import ElectronicMail.Offline.ComposerRecovery
import ElectronicMail.Attachments.ImageDimensions
import ElectronicMail.Push.Notifications
import ElectronicMail.Groups.InboxProjection
