import MobileCore.LabelledRuns
import MobileCore.LayeredMachines
import MobileCore.LastWrite
import MobileCore.ItemRuns
import MobileCore.BigEndian
import MobileCore.OnesComplement
import MobileCore.PacketRules
import MobileCore.CircularBuffer
import MobileCore.BoundedQueue
import MobileCore.ConditionWaits
import MobileCore.ByteCursor
import MobileCore.ByteStreams
import MobileCore.TlvMessages
import MobileCore.TlvDecodeLoops
import MobileCore.TlvCompatibility
import MobileCore.FrameTransport
import MobileCore.SpscRing
import MobileCore.FastPath
import MobileCore.FastPathDelivery
import MobileCore.MbufOwnership
import MobileCore.SocketPath
import MobileCore.SocketWaits
import MobileCore.ThreadPool
import MobileCore.LostWakeups
import MobileCore.PacketCounters
import MobileCore.SocketAccounting
import MobileCore.PacketAccounting
import MobileCore.RulePrecedence
import MobileCore.DemoRules
import MobileCore.PlaneAgreement
import MobileCore.ForwardingActions
import MobileCore.LatencyPercentiles
import MobileCore.CppText
import MobileCore.ConnectionKeys
import MobileCore.CaptureStreams
import MobileCore.DiameterAvps
import MobileCore.CaptureFrames
import MobileCore.CaptureFile
import MobileCore.CaptureAnalysis
import MobileCore.SimplifiedAka
import MobileCore.WireJson
import MobileCore.FlatObjects
import MobileCore.PfcpMessages
import MobileCore.EstablishmentRequests
import MobileCore.ProcedureCompletion
import MobileCore.UserPlaneSessions
import MobileCore.SessionManagement
import MobileCore.AccessManagement
import MobileCore.HttpConnections
import MobileCore.HttpMessages
import MobileCore.FunctionRepository
import MobileCore.ServerRobustness
import MobileCore.RegistrationAuthentication
import MobileCore.AddressAllocation
import MobileCore.ContextIdentity
import MobileCore.SplitTables
import MobileCore.ShardedStore
import MobileCore.StoreOperations
import MobileCore.MobilityManagement
import MobileCore.AttachAuthentication
import MobileCore.BearerLists
import MobileCore.DefaultBearers
import MobileCore.EpsIdentities
import MobileCore.S1apCodec
import MobileCore.S1Link
import MobileCore.HandoverTunnels
import MobileCore.ContextCorrespondence
import MobileCore.Shutdown
import MobileCore.PacketGateways
import MobileCore.SessionOwnership
import MobileCore.InDialogInvites
import MobileCore.CallSessionControl
import MobileCore.CxRegistration
import MobileCore.HoldRequests
import MobileCore.DialogAgreement
import MobileCore.ReleaseDelivery
import MobileCore.CallBarring
import MobileCore.SessionAcceptance
import MobileCore.OriginatorIdentity
import MobileCore.FailedAttempts
import MobileCore.OutstandingInvites
import MobileCore.Acknowledgements
import MobileCore.BinaryFloats
import MobileCore.SasStub
import MobileCore.DomainProxy
import MobileCore.RecordOwnership
import MobileCore.SpectrumTransitions
import MobileCore.GrantOwnership
import MobileCore.SasStream
import MobileCore.LiveRegistrations
import MobileCore.CbsdAgent
import MobileCore.TransmitRights
import MobileCore.Discovery
import MobileCore.AddressPool
import MobileCore.CallLegs
import MobileCore.SessionChanges
import MobileCore.ReInviteDelivery
import MobileCore.ReInviteRouting
import MobileCore.SimEvents
import MobileCore.KpiWindows
import MobileCore.EventIdentity
import MobileCore.Ringing
import MobileCore.UplinkFraming
import MobileCore.SharedUplink
import MobileCore.SipUplink
import MobileCore.PayloadUplink
import MobileCore.EventStore
import MobileCore.LineScanner
import MobileCore.LogTailing
import MobileCore.TextFiles
import MobileCore.PythonJson
import MobileCore.EventLog
import MobileCore.EventTailing
import MobileCore.RegistryPolling
import MobileCore.ScenarioControl
import MobileCore.Visualiser
import MobileCore.RecentEvents
import MobileCore.SubscriptionIdentifiers
import MobileCore.NestedObjects
import MobileCore.ScenarioFiles
import MobileCore.SipCapture
import MobileCore.LinkAgreement
import MobileCore.EvolvedPacketCore
import MobileCore.AttachCompletion
import MobileCore.KpiDelivery
import MobileCore.ScenarioPool
import MobileCore.Backpressure
import MobileCore.AttachBatches
import MobileCore.Benchmark
import MobileCore.BenchmarkCompletion
