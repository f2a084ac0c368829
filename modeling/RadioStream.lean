import RadioStream.Device
import RadioStream.Session.Stats
import RadioStream.Proofs.Device.Separation
import RadioStream.Proofs.Loopback.RoundTrip
import RadioStream.Proofs.Module.WindDown
import RadioStream.Proofs.Module.Failures
import RadioStream.Proofs.Reception.Aligned
import RadioStream.Proofs.Reception.Separation
import RadioStream.Proofs.Session.Monotone
import RadioStream.Proofs.Transmission.Deadline
import RadioStream.Proofs.Transmission.Flush
import RadioStream.Proofs.Transmission.Together
import RadioStream.Proofs.Device.Renewal
import RadioStream.Proofs.Queue.Readiness
import RadioStream.Proofs.Transmission.Quiescence
import RadioStream.Proofs.Binary.Rounding
import RadioStream.Proofs.Queue.Leftover
import RadioStream.Proofs.Queue.Operations
import RadioStream.Proofs.Reception.Spacing
import RadioStream.Proofs.Transmission.Space
import RadioStream.Proofs.Reception.Requested
import RadioStream.Proofs.Reception.Newest
import RadioStream.Proofs.Transmission.Acceptance
import RadioStream.Proofs.Transmission.Underrun
import RadioStream.Proofs.Iq.RoundTrip
import RadioStream.Proofs.Module.Turns
import RadioStream.Proofs.StreamConfig.Validation
import RadioStream.Proofs.Queue.Extraction
import RadioStream.Proofs.Board.History
import RadioStream.Proofs.Transmission.Shape
import RadioStream.Proofs.Transmission.Waiting
