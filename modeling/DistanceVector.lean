import DistanceVector.Encoding.Packet
import DistanceVector.Encoding.Params
import DistanceVector.Json.Spelling
import DistanceVector.Router.Ageing
import DistanceVector.Router.Receiving
import DistanceVector.Router.Snapshot
import DistanceVector.OrderedMap.Lemmas
import DistanceVector.Proofs.Moves
import DistanceVector.Proofs.Operations
import DistanceVector.Proofs.SingleOwner
import DistanceVector.Proofs.Names
import DistanceVector.Proofs.KernelLog
import DistanceVector.Proofs.Coherence
import DistanceVector.Proofs.Gate
import DistanceVector.Proofs.Standing
import DistanceVector.Proofs.Announcements
import DistanceVector.Proofs.Overtaking
import DistanceVector.Proofs.Contents
import DistanceVector.Proofs.Faultless
import DistanceVector.Proofs.Naming
import DistanceVector.Proofs.Supply
import DistanceVector.Proofs.Loss
import DistanceVector.Proofs.Upkeep
import DistanceVector.Proofs.Recoding
import DistanceVector.Proofs.Reading
import DistanceVector.Proofs.Documents
import DistanceVector.Proofs.Sweep
import DistanceVector.Proofs.Eviction
import DistanceVector.Proofs.Agreement
import DistanceVector.Proofs.Leftovers
import DistanceVector.Proofs.Isolation
import DistanceVector.Proofs.Rejection
import DistanceVector.Proofs.Choice
import DistanceVector.Proofs.NeighbourLoss
import DistanceVector.Proofs.Selection
import DistanceVector.Proofs.Strays
import DistanceVector.Proofs.Settling
import DistanceVector.Proofs.Repetition
import DistanceVector.Proofs.Exchange
import DistanceVector.Proofs.Takeover
import DistanceVector.Proofs.Recording
import DistanceVector.Proofs.Relocation
import DistanceVector.Proofs.Freshness
import DistanceVector.Proofs.Requests
import DistanceVector.Proofs.Stability
