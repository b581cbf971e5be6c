import DispatcharrPvr.AdoptionMigration.Runs
import DispatcharrPvr.ApiKeyRecovery.Agreement
import DispatcharrPvr.BoundedParallel
import DispatcharrPvr.ChannelLineupChange
import DispatcharrPvr.ChannelRenumbering.Reuse
import DispatcharrPvr.ConnectionReport
import DispatcharrPvr.EnsureAuthenticated.Storm
import DispatcharrPvr.EpgProgramMatch
import DispatcharrPvr.GuideCaches.Coherence
import DispatcharrPvr.InProgressRecording.Finished
import DispatcharrPvr.InProgressRecording.Runs
import DispatcharrPvr.JsonResponse
import DispatcharrPvr.LiveTimeshift.FirstAvailable
import DispatcharrPvr.LiveTimeshift.Runs
import DispatcharrPvr.LiveTimeshift.SegmentServer
import DispatcharrPvr.LiveTimeshift.TailWait
import DispatcharrPvr.ManagedRecurringRule.TagAlgebra
import DispatcharrPvr.PaddingPush.Sync
import DispatcharrPvr.RecordingEdl.SecondRun
import DispatcharrPvr.RecordingEpgLinks.Runs
import DispatcharrPvr.RecordingStream.Runs
import DispatcharrPvr.RecordingVisibility
import DispatcharrPvr.RecurringRuleEdit.Exact
import DispatcharrPvr.RecurringRuleJson
import DispatcharrPvr.RecurringRuleOperation
import DispatcharrPvr.RecurringRuleUtil.DisplayTimes
import DispatcharrPvr.RecurringRuleUtil.RoundTrip
import DispatcharrPvr.RedirectPolicy.Credentials
import DispatcharrPvr.SeriesRuleEdit.Frame
import DispatcharrPvr.SeriesRuleMatching
import DispatcharrPvr.SeriesRuleTextMatch.Bounded
import DispatcharrPvr.SeriesRuleTextMatch.Plain
import DispatcharrPvr.SeriesRuleTextMatch.Unsupported
import DispatcharrPvr.ServerOffsetCrossCheck.Order
import DispatcharrPvr.ServerOffsetCrossCheck.Tracker
import DispatcharrPvr.StreamSeek
import DispatcharrPvr.TimeZoneUtil.DstRules
import DispatcharrPvr.TimerCaches.Fresh
import DispatcharrPvr.TimeshiftBuffer.ConnectionSlots
import DispatcharrPvr.TimeshiftBuffer.ManifestCache
import DispatcharrPvr.TimeshiftBuffer.RangeResponses
import DispatcharrPvr.TimeshiftBuffer.Reaper.Fair
import DispatcharrPvr.TimeshiftBuffer.StaleTokens
import DispatcharrPvr.UnicodeText.StripFold
import DispatcharrPvr.UpdateTimer.Unchanged
import DispatcharrPvr.UrlEncode
import DispatcharrPvr.WebSocket.Reassembly
import DispatcharrPvr.XmlTvParser
