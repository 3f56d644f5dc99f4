import Doenerstag.Api.AccountEdits
import Doenerstag.Api.AccountHistory
import Doenerstag.Api.AnonymousView
import Doenerstag.Api.Authenticate
import Doenerstag.Api.Availability
import Doenerstag.Api.AvailabilityEdits
import Doenerstag.Api.AvailabilityRules
import Doenerstag.Api.Browser
import Doenerstag.Api.CleanupLogins
import Doenerstag.Api.ClosedOrders
import Doenerstag.Api.Credentials
import Doenerstag.Api.DeadCookies
import Doenerstag.Api.DeletedCategory
import Doenerstag.Api.DeletedRestaurant
import Doenerstag.Api.DrawAnnounced
import Doenerstag.Api.DrawnJobs
import Doenerstag.Api.DrawnMark
import Doenerstag.Api.EmailAddresses
import Doenerstag.Api.ErrorAnswers
import Doenerstag.Api.EventText
import Doenerstag.Api.FailedReset
import Doenerstag.Api.Fields
import Doenerstag.Api.IdleTimeout
import Doenerstag.Api.Immutable
import Doenerstag.Api.JobClaims
import Doenerstag.Api.JobRequests
import Doenerstag.Api.LateAnswers
import Doenerstag.Api.Login
import Doenerstag.Api.LoginBound
import Doenerstag.Api.LoginReplies
import Doenerstag.Api.LoginWindows
import Doenerstag.Api.MenuItemEdits
import Doenerstag.Api.MenuItems
import Doenerstag.Api.MenuOrder
import Doenerstag.Api.MoneyRange
import Doenerstag.Api.OneSession
import Doenerstag.Api.OrderBody
import Doenerstag.Api.OrderEvents
import Doenerstag.Api.OrderExpired
import Doenerstag.Api.OrderItems
import Doenerstag.Api.OrderJobs
import Doenerstag.Api.OrderReads
import Doenerstag.Api.Orders
import Doenerstag.Api.PasswordOwners
import Doenerstag.Api.PasswordReset
import Doenerstag.Api.RateLimit
import Doenerstag.Api.RawPatch
import Doenerstag.Api.Recovery
import Doenerstag.Api.ResetOnce
import Doenerstag.Api.ResetRequests
import Doenerstag.Api.RetryAfter
import Doenerstag.Api.StoredValues
import Doenerstag.Api.Summary
import Doenerstag.Api.SummaryLines
import Doenerstag.Api.SummaryTotals
import Doenerstag.Api.TokenLife
import Doenerstag.Api.Tokens
import Doenerstag.Api.UserAgents
import Doenerstag.Api.Users
import Doenerstag.Auth.Generate
import Doenerstag.Auth.Phc
import Doenerstag.Config.ByteSizes
import Doenerstag.Config.QuotedScalars
import Doenerstag.Config.Retired
import Doenerstag.Config.Settings
import Doenerstag.Config.Units
import Doenerstag.Config.WriteFile
import Doenerstag.Config.Writer
import Doenerstag.Db.Availability
import Doenerstag.Db.AvailabilityFilters
import Doenerstag.Db.Cleanup
import Doenerstag.Db.CleanupDryRun
import Doenerstag.Db.CleanupFixpoint
import Doenerstag.Db.CleanupRun
import Doenerstag.Db.CleanupWanted
import Doenerstag.Db.CopyName
import Doenerstag.Db.Delete
import Doenerstag.Db.Deletion
import Doenerstag.Db.DeletionImpact
import Doenerstag.Db.Errors
import Doenerstag.Db.Images
import Doenerstag.Db.LateItems
import Doenerstag.Db.LinkRows
import Doenerstag.Db.MenuFilter
import Doenerstag.Db.MenuItems
import Doenerstag.Db.MenuListed
import Doenerstag.Db.MenuSnapshots
import Doenerstag.Db.OneMenu
import Doenerstag.Db.OpeningHours
import Doenerstag.Db.OrderDraw
import Doenerstag.Db.OrderFrame
import Doenerstag.Db.OrderItems
import Doenerstag.Db.OrderList
import Doenerstag.Db.OrderRestaurant
import Doenerstag.Db.OrderStatement
import Doenerstag.Db.Orders
import Doenerstag.Db.Queries
import Doenerstag.Db.ReplacedSets
import Doenerstag.Db.Restaurants
import Doenerstag.Db.Schema
import Doenerstag.Db.Sessions
import Doenerstag.Db.Users
import Doenerstag.Frontend.CategoryMoves
import Doenerstag.Frontend.ItemDialog
import Doenerstag.Frontend.MenuItemSaved
import Doenerstag.Frontend.Money
import Doenerstag.Frontend.OpeningHours
import Doenerstag.Frontend.OrderDialog
import Doenerstag.Frontend.OrderMenu
import Doenerstag.Frontend.OrderPage
import Doenerstag.Frontend.Password
import Doenerstag.Frontend.ReturnPaths
import Doenerstag.Frontend.Router
import Doenerstag.Frontend.Routes
import Doenerstag.Frontend.TypedAmounts
import Doenerstag.Go
import Doenerstag.Go.Durations
import Doenerstag.Go.Floats
import Doenerstag.Go.Http
import Doenerstag.Go.Strings
import Doenerstag.Image.Scale
import Doenerstag.Install.Prompt
import Doenerstag.Install.Provision
import Doenerstag.Lib.Binary64
import Doenerstag.Lib.CrashDisk
import Doenerstag.Lib.Failure
import Doenerstag.Lib.FisherYates
import Doenerstag.Lib.FixedWindow
import Doenerstag.Lib.GroupFold
import Doenerstag.Lib.Interleaving
import Doenerstag.Lib.LookFirst
import Doenerstag.Lib.Overlap
import Doenerstag.Lib.Prog
import Doenerstag.Lib.ReadCommitted
import Doenerstag.Lib.Tables
import Doenerstag.Lib.Transition
import Doenerstag.Lib.TwoRuns
import Doenerstag.Lib.Utf16
import Doenerstag.Lib.Wrapped
import Doenerstag.Logging.Redact
import Doenerstag.Mail.Compose
import Doenerstag.Model.Availability
import Doenerstag.Model.Order
import Doenerstag.Sse.ClosedChannel
import Doenerstag.Sse.Delivery
import Doenerstag.Sse.Hub
import Doenerstag.Sse.HubRuns
import Doenerstag.Sse.Stranded
import Doenerstag.Sse.Streams
import Doenerstag.Transfer.UndeclaredCategories
