import AmuleRemote.Lib.BigEndian
import AmuleRemote.Lib.Utf8
import AmuleRemote.Lib.Lines
import AmuleRemote.Lib.Update
import AmuleRemote.Lib.Run
import AmuleRemote.Lib.Trace
import AmuleRemote.Lib.TwoRuns
import AmuleRemote.Lib.Provenance
import AmuleRemote.Lib.Logged
import AmuleRemote.Lib.LiveRecords
import AmuleRemote.Lib.StableSort
import AmuleRemote.Lib.Regex
import AmuleRemote.Lib.Glob
import AmuleRemote.Qt
import AmuleRemote.Model
import AmuleRemote.Ec.Codes
import AmuleRemote.Ec.Tag
import AmuleRemote.Ec.Codec
import AmuleRemote.Ec.Wire
import AmuleRemote.Ec.Truncation
import AmuleRemote.Ec.Resources
import AmuleRemote.Ec.CodecRoundTrip
import AmuleRemote.Ec.Lengths
import AmuleRemote.Ec.Strict
import AmuleRemote.Ec.Reencode
import AmuleRemote.Ec.World
import AmuleRemote.Ec.Client
import AmuleRemote.Ec.Frames
import AmuleRemote.Ec.LargeCount
import AmuleRemote.Ec.Queries
import AmuleRemote.Ec.SourceHistory
import AmuleRemote.Ec.Worker
import AmuleRemote.Ec.WorkerRules
import AmuleRemote.Ec.Outcome
import AmuleRemote.Ec.Connecting
import AmuleRemote.Ec.Status
import AmuleRemote.Ec.Consistency
import AmuleRemote.Ec.Pairing
import AmuleRemote.Ec.Numbering
import AmuleRemote.Ec.Replica
import AmuleRemote.Ec.SlotEffect
import AmuleRemote.Ec.Polling
import AmuleRemote.Ec.Refreshing
import AmuleRemote.Ec.SearchGrace
import AmuleRemote.Ec.Survival
import AmuleRemote.Ec.Alignment
import AmuleRemote.Ec.TwoRuns
import AmuleRemote.Ec.UnknownTags
import AmuleRemote.Ec.Course
import AmuleRemote.Ec.SlotCourse
import AmuleRemote.Ec.Dialogue
import AmuleRemote.Ec.StatusPath
import AmuleRemote.Ec.Orders
import AmuleRemote.Ec.Blocks
import AmuleRemote.Ec.Sent
import AmuleRemote.Ec.Secrecy
import AmuleRemote.Ec.Listings
import AmuleRemote.Ec.Answers
import AmuleRemote.App.Downloads
import AmuleRemote.App.Clearing
import AmuleRemote.App.Retention
import AmuleRemote.App.RowSelection
import AmuleRemote.App.DownloadTable
import AmuleRemote.App.Snapshots
import AmuleRemote.App.LastReport
import AmuleRemote.App.SourcePanel
import AmuleRemote.App.SourceOrder
import AmuleRemote.App.PreferencesPanel
import AmuleRemote.App.EditedPrefs
import AmuleRemote.App.ReadBack
import AmuleRemote.App.Settings
import AmuleRemote.App.SearchPanel
import AmuleRemote.App.SavedSearches
import AmuleRemote.App.FilterProxy
import AmuleRemote.App.Anchoring
import AmuleRemote.App.GlobFilter
import AmuleRemote.App.Labels
import AmuleRemote.App.SortKeys
import AmuleRemote.App.SpeedGraph
import AmuleRemote.App.System
import AmuleRemote.App.Applying
import AmuleRemote.App.Searching
import AmuleRemote.App.Commanded
import AmuleRemote.App.Tables
import AmuleRemote.App.Reordering
import AmuleRemote.App.SearchForm
import AmuleRemote.App.Presets
import AmuleRemote.App.SpeedPanel
import AmuleRemote.App.Menus
import AmuleRemote.App.LastLogin
import AmuleRemote.App.Picks
