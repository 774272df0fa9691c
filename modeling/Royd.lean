import Royd.Lib.Runs
import Royd.Lib.IntervalCount
import Royd.Core.Python
import Royd.Sla.Calendar
import Royd.Sla.CalendarTheorems
import Royd.Models.Db
import Royd.Services.Files
import Royd.Services.Catalog
import Royd.Services.Routing
import Royd.Services.Events
import Royd.Services.Requests
import Royd.Services.Sweep
import Royd.Services.Report
import Royd.Services.Students
import Royd.Api.Requests
import Royd.Api.Steps
import Royd.Services.EventsTheorems
import Royd.Services.RequestsTheorems
import Royd.Api.RequestsTheorems
import Royd.Services.CatalogTheorems
import Royd.Lifecycle.Life
import Royd.Lifecycle.Runs
import Royd.Lifecycle.States
import Royd.Lifecycle.History
import Royd.Lifecycle.SlaBudget
import Royd.Concurrent.Handlers
import Royd.Concurrent.Answers
import Royd.Concurrent.Submissions
import Royd.Concurrent.Registry
import Royd.Concurrent.Filings
import Royd.Concurrent.ExactlyOnce
import Royd.Lib.ExpiringStore
import Royd.Lib.Programs
import Royd.Auth.Server
import Royd.Auth.Security
import Royd.Auth.Endpoints
import Royd.Auth.Ledger
import Royd.Auth.Discipline
import Royd.Auth.Wf
import Royd.Auth.Interleaving
import Royd.Auth.DeadSessions
import Royd.Auth.SpentOnce
import Royd.Auth.Atomic
import Royd.Auth.PasswordChange
import Royd.Auth.IdleTimeout
import Royd.Auth.Rotation
import Royd.Auth.Tabs
import Royd.Auth.Administrators
import Royd.Api.Users
import Royd.Directory.Edits
import Royd.Directory.Profiles
import Royd.Directory.Owners
import Royd.Directory.Organisation
import Royd.Directory.Names
import Royd.Services.Webhooks
import Royd.Api.Deeds
import Royd.Lifecycle.Notices
import Royd.Lifecycle.Acts
import Royd.Lifecycle.Replay
import Royd.Api.Clients
import Royd.Lifecycle.Entitled
import Royd.Lib.Outcomes
import Royd.Api.Views
import Royd.Services.Alike
import Royd.Api.Alike
import Royd.Lifecycle.InternalNotes
import Royd.Api.Replies
import Royd.Lifecycle.Isolation
import Royd.Concurrent.Rotations
import Royd.Lifecycle.Catalogue
import Royd.Lib.Tables
import Royd.Services.Outbox
import Royd.Concurrent.Deliveries
import Royd.Lib.Columns
import Royd.Migrations.SplitProfiles
import Royd.Lib.Decimal
import Royd.Services.Stats
import Royd.Lifecycle.Reports
import Royd.Lib.Pools
import Royd.Auth.LoginBudget
import Royd.Auth.OneTimeCodes
import Royd.Lib.Numerals
import Royd.Services.TrackingNo
import Royd.Concurrent.TrackingNumbers
import Royd.Services.Reseeding
import Royd.Sla.WorkingTime
import Royd.Services.RoutingTheorems
import Royd.Lib.Balance
import Royd.Directory.Loads
import Royd.Lib.Grouping
import Royd.Lifecycle.Figures
import Royd.Lib.Batches
import Royd.Lifecycle.Sweeps
import Royd.Lib.Paths
import Royd.Services.Storage
import Royd.Services.StoredNames
import Royd.Api.Storing
import Royd.Api.FailedAnswers
import Royd.Lib.Ledgers
import Royd.Lifecycle.FileRows
import Royd.Lifecycle.StoredFiles
import Royd.Directory.FacultyCodes
import Royd.Auth.Totp
import Royd.Lib.Base32
import Royd.Auth.TotpTheorems
import Royd.Lib.Buckets
import Royd.Middleware.RateLimit
import Royd.Concurrent.Backlog
import Royd.Directory.Addresses
import Royd.Auth.Sightings
import Royd.Auth.SocketAccess
import Royd.Auth.Footprints
import Royd.Lib.Streams
import Royd.Realtime.Sockets
import Royd.Realtime.Fanout
import Royd.Realtime.NotificationSocket
import Royd.Lifecycle.Schedulers
import Royd.Lib.Transcripts
import Royd.Auth.Provenance
import Royd.Lifecycle.AuditTrail
import Royd.Lib.Upserts
import Royd.Seed.ServiceCatalog
import Royd.Seed.Seeding
import Royd.Seed.Histories
import Royd.Lib.Paging
import Royd.Lifecycle.Lists
import Royd.Screens.RequestProgress
import Royd.Screens.RequestActions
import Royd.Screens.ServiceDialog
import Royd.Lifecycle.Signatures
import Royd.Auth.Accountability
import Royd.Lib.TaggedCaches
import Royd.Screens.QueryCache
