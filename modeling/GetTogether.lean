import GetTogether.World.Writes
import GetTogether.World.Copies
import GetTogether.NotificationVC
import GetTogether.World.Sentinel
import GetTogether.InvitingMemberVC
import GetTogether.World.Mirror
import GetTogether.World.Readable
import GetTogether.Roster.Intent
import GetTogether.World.LostUpdates
import GetTogether.Session
import GetTogether.Session.Rules
import GetTogether.Roster.Agreement
import GetTogether.Session.Indexes
import GetTogether.Roster.Edits
import GetTogether.Roster.Interruption
import GetTogether.Device
import GetTogether.Device.Rows
import GetTogether.Device.Rules
import GetTogether.Device.Accounts
import GetTogether.Device.Profile
import GetTogether.World.Organisers
import GetTogether.World.Switching
import GetTogether.SignIn
import GetTogether.SignIn.Records
import GetTogether.Civil.Calendar
import GetTogether.Civil.Format
import GetTogether.DateFormatter
import GetTogether.CommentVC
import GetTogether.EventAlertVC
import GetTogether.Dates.Zones
import GetTogether.Dates.Order
import GetTogether.Reminders
import GetTogether.Reminders.Marks
import GetTogether.Reminders.Copies
import GetTogether.AppDelegate
import GetTogether.Badge
import GetTogether.EventScreen
import GetTogether.EventScreen.Loads
import GetTogether.MainTable
import GetTogether.CommentTable
import GetTogether.Rows
import GetTogether.Recipients
import GetTogether.World.Recipients
import GetTogether.Selection
import GetTogether.Selection.Edit
import GetTogether.Selection.Creation
import GetTogether.Uploading
import GetTogether.Comments.Notifications
import GetTogether.Comments.Age
import GetTogether.Comments.CellPool
import GetTogether.Comments.Labels
import GetTogether.EventForm
import GetTogether.LocationSearchVC
import GetTogether.World.Invitees
import GetTogether.Reminders.Firing
import GetTogether.Comments.Composer
import GetTogether.Selection.Identity
import GetTogether.World.Consent
import GetTogether.Feed
import GetTogether.Feed.Bare
import GetTogether.Realtime.Ledger
import GetTogether.Feed.Keys
import GetTogether.Feed.Told
import GetTogether.Feed.Threads
import GetTogether.Realtime.Changes
import GetTogether.Feed.Rules
import GetTogether.Feed.Addressed
import GetTogether.Realtime.Commute
import GetTogether.Feed.Serial
import GetTogether.Feed.Progress
import GetTogether.Feed.Searching
import GetTogether.Feed.Listings
import GetTogether.Feed.Published
import GetTogether.LocationVC
import GetTogether.Feed.References
import GetTogether.ImageCache
import GetTogether.Roster.Exclusive
import GetTogether.World.Exclusive
import GetTogether.World.Interruption
