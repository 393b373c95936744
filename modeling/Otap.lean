import Otap.Lib.Run
import Otap.Lib.Ring
import Otap.Lib.BitPlane
import Otap.Lib.Bytes
import Otap.Lib.Utf8
import Otap.Lib.UniqueIndex
import Otap.Lib.Merkle
import Otap.Lib.GoLib
import Otap.Lib.KV
import Otap.Lib.Memory
import Otap.Lib.Interference
import Otap.Flr.Models
import Otap.Flr.Merkle
import Otap.Flr.Crypto
import Otap.Flr.Registry
import Otap.Flr.SchemaStore
import Otap.Flr.SchemaIndex
import Otap.Flr.Commitment
import Otap.Flr.Lifecycle
import Otap.Flr.LeaseStates
import Otap.Flr.CommitmentHistory
import Otap.Flr.DoubleAllocation
import Otap.Flr.CurrentToken
import Otap.Bitweave.Index
import Otap.Bitweave.Refinement
import Otap.Rtl.RobBitweave
import Otap.Rtl.RobDelivery
import Otap.D3.ReplayCache
import Otap.Modq.Ring
import Otap.Modq.Slots
import Otap.Modq.Calls
import Otap.Modq.Protocol
import Otap.D3.Agreement
import Otap.Lib.GoTime
import Otap.Flr.Federation
import Otap.Flr.AuditLog
import Otap.Flr.AuditRange
import Otap.Bitweave.Avx512
import Otap.D3.Session
import Otap.D3.Freshness
import Otap.Lib.Winding
import Otap.Optics.Polarization
import Otap.Optics.PmdInvariance
import Otap.Csr.RegisterFile
import Otap.Csr.Independence
import Otap.Rtl.CsrBlock
import Otap.Flr.SchemaEngine
import Otap.Flr.SchemaRevocation
import Otap.Client.FlrClient
import Otap.Flr.SchemaApi
import Otap.Client.Interop
import Otap.Client.Reprogramming
import Otap.Flr.PeerSync
import Otap.Flr.InvalidityProofs
import Otap.Lib.GoSlice
import Otap.Bitweave.Buffered
import Otap.Bitweave.Adapter
import Otap.Flr.WavelengthIdentity
import Otap.Lib.Footprint
import Otap.Modq.Bounds
import Otap.Lib.Layout
import Otap.Schema.Codec
import Otap.Chronos.Drift
import Otap.Bitweave.Correspondence
import Otap.Flr.SchemaMerkle
import Otap.Lib.JsonText
import Otap.Flr.SignedMessages
import Otap.Flr.BadgerStore
import Otap.Flr.StoreMaps
import Otap.Flr.StoreRefinement
import Otap.Obg.SoftDriver
import Otap.Obg.Delivery
import Otap.Obg.Replay
import Otap.D3.Checksum
import Otap.D3.Encodings
import Otap.Flr.SchemaCanonical
import Otap.Flr.MerkleOrder
import Otap.Flr.ConflictDetection
import Otap.Flr.ExpirySweep
import Otap.Flr.LayoutValidation
import Otap.Flr.Membership
import Otap.Bitweave.Pool
import Otap.Chronos.Layered
import Otap.Chronos.Ramp
import Otap.D3.DiskErrors
import Otap.Bitweave.Lens
import Otap.Bitweave.LeaseConflicts
import Otap.Flr.OperatorApi
import Otap.Flr.TokenApi
import Otap.Flr.MerkleAudit
import Otap.Flr.RateLimit
import Otap.Chronos.Attribution
import Otap.Flr.UpdateStream
import Otap.Obg.HonestTransmission
import Otap.Lib.XorShift
import Otap.Optics.Channel
import Otap.Optics.RotationAction
import Otap.Optics.WindingExact
import Otap.Flr.RoutingTable
import Otap.Flr.ProofAliasing
import Otap.Lib.Commuting
import Otap.Lib.Stream
import Otap.D3.Transport
import Otap.Bitweave.Combine
import Otap.Chronos.Coherence
import Otap.Chronos.FiberChannel
import Otap.Flr.Gossip
import Otap.Chronos.Holographic
import Otap.Chronos.PdlSweep
import Otap.Flr.GossipRound
import Otap.Obg.ExactOptics
