import Rynmesh.ExchangeReceipts
import Rynmesh.ExchangeTimeouts
import Rynmesh.ExchangeDisputes
import Rynmesh.ExchangeClocks
import Rynmesh.ExchangeSettlement
import Rynmesh.FriendInvitesSafety
import Rynmesh.DeviceErasureSafety
import Rynmesh.OrderIndexSafety
import Rynmesh.AskRunsSafety
import Rynmesh.ExchangeReserve
import Rynmesh.ExchangeAmount
import Rynmesh.CreditLedgerDedupe
import Rynmesh.TaskBalanceAccounting
import Rynmesh.TaskBalanceMigration
import Rynmesh.SyncValuesIdempotent
import Rynmesh.StreamHandoff
import Rynmesh.TaskOrdersKept
import Rynmesh.PairingCompaction
import Rynmesh.EigenTrustSybils
import Rynmesh.ChatRequestFaults
import Rynmesh.FriendRequestsSafety
import Rynmesh.FriendFeedRuns
import Rynmesh.AskContextSafety
import Rynmesh.AIAccessRevocation
import Rynmesh.NodeAuthSafety
import Rynmesh.ApiRoundTripSafety
import Rynmesh.OwnerRemovals
import Rynmesh.ReadingForgotten
import Rynmesh.ManifestSafety
import Rynmesh.IdentitySafety
import Rynmesh.RecommenderSlate
import Rynmesh.ModelDownloadResume
import Rynmesh.GgufInspection
import Rynmesh.LocalSearchSnippets
import Rynmesh.RejectionBudget
import Rynmesh.RefusalCounts
import Rynmesh.CanonicalJson
import Rynmesh.TransitStreams
