import SecureSync.Handshake.Exchanges
import SecureSync.Properties.Bookkeeping
import SecureSync.Properties.CausalCommit
import SecureSync.Properties.ChannelAuthenticity
import SecureSync.Properties.CommittedPushes
import SecureSync.Properties.ConcurrentSaves
import SecureSync.Properties.ConfirmedFlood
import SecureSync.Properties.ConflictAgreement
import SecureSync.Properties.Containment
import SecureSync.Properties.CrashSafety
import SecureSync.Properties.Debouncing
import SecureSync.Properties.DeltaPlans
import SecureSync.Properties.Direction
import SecureSync.Properties.DirectionSymmetry
import SecureSync.Properties.Disclosure
import SecureSync.Properties.DiscoveredPeers
import SecureSync.Properties.EarlyFrames
import SecureSync.Properties.Encodings
import SecureSync.Properties.EngineState
import SecureSync.Properties.FailedPull
import SecureSync.Properties.FailedResponder
import SecureSync.Properties.FileNotifications
import SecureSync.Properties.FinalMessage
import SecureSync.Properties.FrameLoss
import SecureSync.Properties.GlobalLimit
import SecureSync.Properties.HalfOpen
import SecureSync.Properties.HandshakeAgreement
import SecureSync.Properties.HandshakeCodecs
import SecureSync.Properties.HonestHandshake
import SecureSync.Properties.IdentityCrashes
import SecureSync.Properties.InProcessDelivery
import SecureSync.Properties.InboundConnections
import SecureSync.Properties.KeyAgreement
import SecureSync.Properties.MessageLimit
import SecureSync.Properties.NonceReuse
import SecureSync.Properties.OpenEffects
import SecureSync.Properties.OrphanFiles
import SecureSync.Properties.OverlappingWrites
import SecureSync.Properties.PathFlavours
import SecureSync.Properties.PeerPolls
import SecureSync.Properties.PinOnce
import SecureSync.Properties.PullTransfer
import SecureSync.Properties.PushDelivery
import SecureSync.Properties.ReaderBuffer
import SecureSync.Properties.ReceiverLoop
import SecureSync.Properties.RecordedVersions
import SecureSync.Properties.RejectMessage
import SecureSync.Properties.RepeatedChanges
import SecureSync.Properties.RepeatedSync
import SecureSync.Properties.ReplayWindow
import SecureSync.Properties.ReplayedHello
import SecureSync.Properties.RequestReply
import SecureSync.Properties.ResponderCommit
import SecureSync.Properties.Rollback
import SecureSync.Properties.RoundTrip
import SecureSync.Properties.SasAgreement
import SecureSync.Properties.SasRendering
import SecureSync.Properties.ServedManifest
import SecureSync.Properties.SessionAcquisition
import SecureSync.Properties.SessionExpiry
import SecureSync.Properties.SharedAssembly
import SecureSync.Properties.SourceLimit
import SecureSync.Properties.Spellings
import SecureSync.Properties.StoreInvariants
import SecureSync.Properties.StoredManifests
import SecureSync.Properties.StoredRecords
import SecureSync.Properties.StreamedFile
import SecureSync.Properties.StrictPackets
import SecureSync.Properties.TranscriptChain
import SecureSync.Properties.TrustedPeers
import SecureSync.Properties.VersionLattice
import SecureSync.Properties.WatcherThreads
