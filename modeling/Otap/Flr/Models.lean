import Otap.Lib.GoLib

/-!
# Registry data types

The types of `flr/internal/models` that the lease engine reads and writes. A Go string is its bytes, a
pointer that may be nil is an `Option`, and an instant is a number of nanoseconds: every clock reading
of the registry goes through `UTC()`, which drops the monotonic part.

A `Band` stays the number it is in the source, since `String` sends every unknown value to one name while
JSON keeps the values apart. `Lease.ParentHash` is never set or read and is left out.
-/

namespace Otap.Flr

open Otap.Lib

/-! ## Wavelengths -/

abbrev Band := Int32

def bandCBand : Band := 1
def bandLBand : Band := 2
def bandSBand : Band := 3

/-- `Band.String`. -/
def bandString (b : Band) : Bytes :=
  if b = bandCBand then ascii "C_BAND"
  else if b = bandLBand then ascii "L_BAND"
  else if b = bandSBand then ascii "S_BAND"
  else ascii "UNSPECIFIED"

structure Wavelength where
  lambdaNm : Float64
  channelNum : Int32
  band : Band
  gridGHz : Float64
  deriving DecidableEq

/-- `Wavelength.ToKey`: `"%.2f:%d:%s:%.1f"`. -/
def Wavelength.toKey (w : Wavelength) : Bytes :=
  w.lambdaNm.formatFixed 2 ++ ascii ":" ++ decimalInt w.channelNum.toInt ++ ascii ":" ++
    bandString w.band ++ ascii ":" ++ w.gridGHz.formatFixed 1

-- 1550.12 nm on channel 33 of the 50 GHz grid
example : (Wavelength.mk ⟨0x4098387ae147ae14⟩ 33 bandCBand ⟨0x4049000000000000⟩).toKey
    = ascii "1550.12:33:C_BAND:50.0" := by decide

/-! ## Leases and tokens -/

inductive LeaseStatus where
  | unspecified
  | active
  | expired
  | revoked
  | pending
  deriving DecidableEq

/-- `LeaseStatus.String`. -/
def LeaseStatus.string : LeaseStatus → String
  | active => "ACTIVE"
  | expired => "EXPIRED"
  | revoked => "REVOKED"
  | pending => "PENDING"
  | unspecified => "UNSPECIFIED"

structure Lease where
  id : Bytes
  wavelength : Option Wavelength
  endpointID : Bytes
  operatorID : Bytes
  status : LeaseStatus
  startTime : Time
  endTime : Time
  createdAt : Time
  updatedAt : Time
  tokenHash : Bytes
  deriving DecidableEq

structure LeaseToken where
  version : Int32
  leaseID : Bytes
  operatorID : Bytes
  wavelength : Option Wavelength
  endpointID : Bytes
  startTime : Time
  endTime : Time
  nonce : Bytes
  signature : Bytes
  issuedAt : Time
  deriving DecidableEq

/-! ## Merkle trees and commitments -/

/-- A `*MerkleNode`. -/
inductive MerkleNode where
  | nil
  | node (hash : Bytes) (left right : MerkleNode) (leaseID : Bytes) (isLeaf : Bool)

/-- The `Hash` field; the source never reads it through a nil pointer. -/
def MerkleNode.hash : MerkleNode → Bytes
  | nil => []
  | node hash _ _ _ _ => hash

structure MerkleCommitment where
  operatorID : Bytes
  rootHash : Bytes
  timestamp : Time
  signature : Bytes
  leaseCount : Int32
  blockHeight : Int64
  deriving DecidableEq

/-! ## Operators -/

inductive OperatorStatus where
  | unspecified
  | active
  | inactive
  | suspended
  deriving DecidableEq

structure Operator where
  id : Bytes
  name : Bytes
  publicKey : Bytes
  endpoint : Bytes
  status : OperatorStatus
  joinedAt : Time
  lastSeen : Time
  deriving DecidableEq

/-! ## Endpoints -/

inductive EndpointStatus where
  | unspecified
  | active
  | inactive
  | suspended
  deriving DecidableEq

structure GeoCoordinates where
  lat : Float64
  long : Float64
  deriving DecidableEq

structure Endpoint where
  id : Bytes
  nodeID : Bytes
  operatorID : Bytes
  address : Bytes
  awgPort : Int32
  coordinates : Option GeoCoordinates
  status : EndpointStatus
  createdAt : Time
  deriving DecidableEq

/-! ## Violations and the audit log -/

abbrev InvalidityType := Int32

def invalidityDoubleAllocation : InvalidityType := 1
def invalidityExpiredLease : InvalidityType := 2
def invalidityInvalidSignature : InvalidityType := 3
def invalidityUnauthorizedOp : InvalidityType := 4

/-- `InvalidityType.String`. -/
def invalidityTypeString (t : InvalidityType) : Bytes :=
  if t = invalidityDoubleAllocation then ascii "DOUBLE_ALLOCATION"
  else if t = invalidityExpiredLease then ascii "EXPIRED_LEASE"
  else if t = invalidityInvalidSignature then ascii "INVALID_SIGNATURE"
  else if t = invalidityUnauthorizedOp then ascii "UNAUTHORIZED_OPERATION"
  else ascii "UNSPECIFIED"

structure ProofOfInvalidity where
  type : InvalidityType
  leaseA : Option Lease
  leaseB : Option Lease
  commitment : Option MerkleCommitment
  merkleProof : List Bytes
  timestamp : Time
  deriving DecidableEq

/-- A nil byte slice is `none`. -/
structure AuditLogEntry where
  timestamp : Time
  operation : Bytes
  operatorID : Bytes
  leaseID : Bytes
  details : Option Bytes
  hash : Option Bytes
  prevHash : Option Bytes
  deriving DecidableEq

end Otap.Flr
