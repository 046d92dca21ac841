import Admc.Lib.Except
import Admc.Lib.Sort
import Admc.Lib.Mask
import Admc.Lib.Path
import Admc.Security.Descriptor
import Admc.Security.Order
import Admc.Security.Match
import Admc.Config
import Admc.Security.Rights
import Admc.Security.Edit
import Admc.Security.Table
import Admc.Security.Masks
import Admc.Security.Exclusive
import Admc.Security.Unrelated
import Admc.Security.Frame
import Admc.Security.NullDacl
import Admc.Security.Postconditions
import Admc.Interface.Server
import Admc.Interface.Attribute
import Admc.Interface.Descriptor
import Admc.Interface.Gpo
import Admc.Text
import Admc.TimeSpan
import Admc.Interface.Deletion
import Admc.Interface.Naming
import Admc.Lib.Move
import Admc.Lib.MoveAll
import Admc.Lib.DistinguishedName
import Admc.Policy.Gplink
import Admc.Policy.RoundTrip
import Admc.Policy.Links
import Admc.Policy.DragDrop
import Admc.Lib.Forest
import Admc.Lib.StackLoop
import Admc.Query.Tree
import Admc.Query.Move
import Admc.Query.Keeps
import Admc.Query.Storage
import Admc.Query.Reload
import Admc.Interface.Protection
import Admc.Properties.AttributesTab
import Admc.Properties.Dialog
import Admc.Interface.Flags
import Admc.Policy.LinkOps
import Admc.Policy.FailedReads
import Admc.Policy.Coherence
import Admc.Policy.Refresh
import Admc.Console.MoveAndRename
import Admc.Security.Permissions
import Admc.Security.CommonPermissions
import Admc.Interface.CheckBoxes
import Admc.Interface.Encoding
import Admc.Properties.PendingEdits
import Admc.Properties.LostUpdates
import Admc.Lib.Chunks
import Admc.Schedule
import Admc.Console.TreeState
import Admc.Lib.Run
import Admc.Console.History
import Admc.Lib.SearchFilter
import Admc.Interface.SearchCondition
import Admc.Console.AppliedChanges
import Admc.Console.DeletedRows
import Admc.Kerberos.Client
import Admc.Kerberos.SelectedCache
import Admc.Kerberos.OwnCaches
import Admc.Console.TreeRestore
import Admc.Console.ChildRows
import Admc.ScheduleDialog
import Admc.ScheduleEdit
import Admc.Properties.Membership
import Admc.Properties.PasswordSettings
import Admc.Properties.PasswordIntervals
import Admc.Interface.Stores
import Admc.Interface.GpoAdd
import Admc.CreateObject
import Admc.Console.ServerMove
import Admc.Lib.Calendar
import Admc.Schema
import Admc.DatetimeDialog
import Admc.Lib.DepthFirst
import Admc.Config.Load
import Admc.Config.Kept
import Admc.Config.Reload
import Admc.Interface.ReadBack
import Admc.Lib.KeepFirst
import Admc.Policy.GpoCase
import Admc.Policy.Inherited
import Admc.Policy.Precedence
import Admc.Interface.ObjectName
import Admc.Lib.Ancestry
import Admc.Console.RestoreQueue
import Admc.Interface.NestedFilter
import Admc.Query.Names
import Admc.Query.Operations
import Admc.Octet
import Admc.Config.Guid
import Admc.Lib.Guarded
import Admc.Config.Access
import Admc.Config.Walk
import Admc.Interface.Hosts
import Admc.Interface.GptWalk
import Admc.Security.SdText
import Admc.Interface.GptSecurity
import Admc.RenameObject
import Admc.Console.SiteCleanup
import Admc.Kerberos.FailedKinit
import Admc.Properties.PermissionsWidgets
import Admc.Properties.SecurityTab
import Admc.Properties.ShownEdits
import Admc.Properties.OptionalAttributes
import Admc.Properties.SiteLinksTable
import Admc.Query.Copy
import Admc.Properties.PasswordRounds
import Admc.Interface.GptIni
import Admc.DatetimeRoundTrip
import Admc.CountryManager
import Admc.AttributeDialogs
import Admc.Properties.MultiAccountOptions
import Admc.Properties.LoadedEdits
import Admc.Properties.UpnMultiEdit
import Admc.Properties.LogonComputersDialog
import Admc.TimeSpanFormat
import Admc.Security.SidBytes
import Admc.Properties.UpnUnique
import Admc.Properties.PsoApplied
import Admc.Properties.ChoiceLists
import Admc.Filter.SelectBase
import Admc.Filter.ConsoleFilter
import Admc.Lib.FixedPoint
import Admc.Config.InheritChain
import Admc.Lib.NetworkBits
import Admc.SubnetDialog
import Admc.Lib.AnswerLoop
import Admc.Lib.Ownership
import Admc.Interface.PagedSearch
import Admc.Interface.PageCookies
import Admc.Security.TaskRights
import Admc.Properties.DelegatedTasks
import Admc.Lib.LetterCodes
import Admc.Security.SidParse
import Admc.Security.Sddl
import Admc.Security.SddlTokens
import Admc.Security.SddlRoundTrip
import Admc.Security.SddlNormal
import Admc.Security.SddlView
import Admc.Policy.PolicyResults
import Admc.Policy.PolicyResultsRuns
import Admc.Console.FsmoRoles
import Admc.Properties.AttributesFilter
import Admc.Filter.SearchWindow
import Admc.Filter.FindPolicy
import Admc.Filter.FetchFilter
import Admc.Console.Connection
import Admc.Console.ConnectionOptions
import Admc.Kerberos.LostPassword
