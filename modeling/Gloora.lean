import Gloora.Lib.Runs
import Gloora.Lib.Keyed
import Gloora.Lib.Tally
import Gloora.Lib.Matching
import Gloora.Lib.PyText
import Gloora.Lib.JsText
import Gloora.Lib.Connections
import Gloora.Lib.Scanning
import Gloora.Lib.Calendar
import Gloora.Lib.Moments
import Gloora.Lib.Threads
import Gloora.Lib.Transactions
import Gloora.Lib.Updates
import Gloora.Lib.Schedules
import Gloora.Lib.Journals
import Gloora.Lib.Rounding
import Gloora.Lib.Sorting
import Gloora.Lib.LetterCase
import Gloora.Lib.Stamps
import Gloora.Lib.Base64
import Gloora.Lib.Words
import Gloora.Lib.Like
import Gloora.Lib.Globs
import Gloora.Lib.Paths
import Gloora.Lib.Numerals
import Gloora.Lib.Related
import Gloora.Lib.Instants
import Gloora.Lib.Draining
import Gloora.Schema
import Gloora.Web
import Gloora.Auth
import Gloora.Owner
import Gloora.Booking
import Gloora.BookSlotPage
import Gloora.Server
import Gloora.Effects
import Gloora.BookingSpec
import Gloora.Play
import Gloora.Statements
import Gloora.History
import Gloora.Ownership
import Gloora.Access
import Gloora.Payments
import Gloora.Capacity
import Gloora.Overlap
import Gloora.Coherence
import Gloora.Availability
import Gloora.Prices
import Gloora.Programs
import Gloora.Refinement
import Gloora.ProgramEffects
import Gloora.Interleavings
import Gloora.SalonRows
import Gloora.Ratings
import Gloora.Toggling
import Gloora.Registration
import Gloora.Atomicity
import Gloora.Passkeys
import Gloora.Recording
import Gloora.Closing
import Gloora.Timely
import Gloora.Sessions
import Gloora.ResetFlow
import Gloora.Picking
import Gloora.PageEvents
import Gloora.Selection
import Gloora.SlotStatus
import Gloora.WorkingDay
import Gloora.Accounts
import Gloora.Logins
import Gloora.Deletion
import Gloora.Settlement
import Gloora.Chargeable
import Gloora.ServiceTags
import Gloora.HalfHours
import Gloora.TimeFields
import Gloora.Admission
import Gloora.Ranking
import Gloora.Recommend
import Gloora.Backups
import Gloora.Uploads
import Gloora.Midnight
import Gloora.Search
import Gloora.Instants
import Gloora.Liveness
import Gloora.Integrity
import Gloora.Survival
import Gloora.SqliteText
import Gloora.PatternCompare
import Gloora.LikeFunc
import Gloora.Redirects
import Gloora.ServedFiles
import Gloora.Rehashing
import Gloora.Security
import Gloora.Cookies
