import DeviceMessaging.EffectPool
import DeviceMessaging.Plugins
import DeviceMessaging.SinglePlacement
import DeviceMessaging.NoPhantom
import DeviceMessaging.Durability
import DeviceMessaging.TerminalOutcome
import DeviceMessaging.CalmStep
import DeviceMessaging.RedisIndexes
import DeviceMessaging.Untouched
import DeviceMessaging.Accounted
import DeviceMessaging.AccountedWrites
import DeviceMessaging.CalmMoves
import DeviceMessaging.CalmIncoming
import DeviceMessaging.CalmRequests
import DeviceMessaging.Serial
import DeviceMessaging.ExitReferences
import DeviceMessaging.LateCallbacks
import DeviceMessaging.StatusQueue
import DeviceMessaging.PluginIsolation
import DeviceMessaging.Provenance
import DeviceMessaging.CorrelationIds
import DeviceMessaging.ProperPrograms
import DeviceMessaging.ProperRuns
import DeviceMessaging.LiveIndex
import DeviceMessaging.JsNumbers
import DeviceMessaging.ReadyOrder
import DeviceMessaging.Reach
import DeviceMessaging.Debts
import DeviceMessaging.CrashConsistency
import DeviceMessaging.Admission
import DeviceMessaging.ConcurrencyCap
import DeviceMessaging.BoundedRetry
import DeviceMessaging.WebhookStore
import DeviceMessaging.WebhookDelivery
import DeviceMessaging.WebhookHistory
import DeviceMessaging.WebhookRuns
import DeviceMessaging.WebhookTurns
import DeviceMessaging.WebhookOutcomes
import DeviceMessaging.WebhookNotifications
import DeviceMessaging.EffectObserve
import DeviceMessaging.Tally
import DeviceMessaging.RetryBudget
import DeviceMessaging.RetryBudgetPrograms
import DeviceMessaging.RetryBudgetRuns
import DeviceMessaging.DecimalText
import DeviceMessaging.JsNumberText
import DeviceMessaging.StoredFields
import DeviceMessaging.StoredRoundTrip
import DeviceMessaging.ByteSlices
import DeviceMessaging.CalinDecode
import DeviceMessaging.CalinFrames
import DeviceMessaging.CalinReadings
import DeviceMessaging.CivilCalendar
import DeviceMessaging.CalinEncode
import DeviceMessaging.CalinWire
import DeviceMessaging.VendorText
import DeviceMessaging.MeterDates
import DeviceMessaging.ChirpstackIncoming
import DeviceMessaging.PairJoin
import DeviceMessaging.ChirpstackCorrelation
import DeviceMessaging.ChirpstackPairs
import DeviceMessaging.ChirpstackCredit
import DeviceMessaging.CalinPolls
import DeviceMessaging.SilentPolls
import DeviceMessaging.StaleRetries
import DeviceMessaging.EffectRecord
import DeviceMessaging.SpacedGrants
import DeviceMessaging.SpacingAdmission
import DeviceMessaging.SpacingLedger
import DeviceMessaging.AgeCap
import DeviceMessaging.OtherMembers
import DeviceMessaging.StageDrain
import DeviceMessaging.DueMembers
import DeviceMessaging.HandlerWork
import DeviceMessaging.BcdFields
import DeviceMessaging.QueueTraffic
import DeviceMessaging.WorkLedger
import DeviceMessaging.MeterReferences
import DeviceMessaging.GatewaySelection
import DeviceMessaging.InFlightSends
import DeviceMessaging.WebhookBodies
import DeviceMessaging.PluginEntries
import DeviceMessaging.CancelFinal
import DeviceMessaging.SendTokens
import DeviceMessaging.HeldSends
import DeviceMessaging.HeldSendRuns
import DeviceMessaging.FlowBoard
import DeviceMessaging.EffectCommands
import DeviceMessaging.HandlerCommands
import DeviceMessaging.DeliveryFlow
import DeviceMessaging.CalinClient
import DeviceMessaging.CalinClientRuns
import DeviceMessaging.CalinClientAlone
import DeviceMessaging.DrainGuard
import DeviceMessaging.EffectJoin
import DeviceMessaging.Composition
import DeviceMessaging.DepthFirst
import DeviceMessaging.ObjectHeap
import DeviceMessaging.DeepFreeze
import DeviceMessaging.RetryRow
import DeviceMessaging.RetryDue
import DeviceMessaging.EndedEvents
import DeviceMessaging.InHand
import DeviceMessaging.SilentLoss
import DeviceMessaging.AppliedEvents
import DeviceMessaging.EventAims
import DeviceMessaging.EventRuns
import DeviceMessaging.DrainByName
import DeviceMessaging.DrainTurns
