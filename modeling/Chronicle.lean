import Chronicle.Arena
import Chronicle.CommandLine.Command
import Chronicle.Land.Held
import Chronicle.Land.Task
import Chronicle.Ledger
import Chronicle.Main
import Chronicle.Packet.Wire
import Chronicle.Proofs.Acknowledgment
import Chronicle.Proofs.Addressing
import Chronicle.Proofs.Arena
import Chronicle.Proofs.Clients
import Chronicle.Proofs.CompleteWrites
import Chronicle.Proofs.Cut
import Chronicle.Proofs.Delivery
import Chronicle.Proofs.Departure
import Chronicle.Proofs.Dispatch
import Chronicle.Proofs.ErrorLine
import Chronicle.Proofs.Eviction
import Chronicle.Proofs.Execution
import Chronicle.Proofs.Figures
import Chronicle.Proofs.Fingerprint
import Chronicle.Proofs.FinishingOrder
import Chronicle.Proofs.Isolation
import Chronicle.Proofs.Loadable
import Chronicle.Proofs.MetadataLine
import Chronicle.Proofs.Playback
import Chronicle.Proofs.Readback
import Chronicle.Proofs.Refusal
import Chronicle.Proofs.Replies
import Chronicle.Proofs.Roster
import Chronicle.Proofs.Strictness
import Chronicle.Proofs.Throughput
import Chronicle.Proofs.Timing
import Chronicle.Proofs.Wire
import Chronicle.Replay
import Chronicle.Storage.LineFile
import Chronicle.Storage.Memory
import Chronicle.Transport.Service
