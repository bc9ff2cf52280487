import OneShot.Scenario.Report
import OneShot.Wire.Session
import OneShot.Text.Hex
import OneShot.Proofs.Wire.Frames
import OneShot.Proofs.Completion.Compound
import OneShot.Proofs.Completion.Order
import OneShot.Proofs.Completion.Decision
import OneShot.Proofs.Failure.History
import OneShot.Proofs.Failure.Interleaved
import OneShot.Proofs.Body.Signals
import OneShot.Proofs.Body.Failing
import OneShot.Proofs.Body.Flush
import OneShot.Proofs.Body.Panics
import OneShot.Proofs.Wire.Bounds
import OneShot.Proofs.Wire.Resetting
import OneShot.Proofs.Wire.RoundTrip
import OneShot.Proofs.Body.Frozen
import OneShot.Proofs.Completion.Replay
import OneShot.Proofs.Completion.Gates
import OneShot.Proofs.Body.Exhaustion
import OneShot.Proofs.Completion.Aborting
import OneShot.Proofs.Completion.Adapters
import OneShot.Proofs.Failure.Effects
import OneShot.Proofs.Failure.Listing
import OneShot.Proofs.Failure.Sources
import OneShot.Proofs.Wire.HeaderCodec
import OneShot.Proofs.Wire.Grants
import OneShot.Proofs.Completion.Overtaking
import OneShot.Proofs.Completion.Precedence
import OneShot.Proofs.Body.Listeners
