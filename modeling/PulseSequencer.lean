import PulseSequencer.Bench
import PulseSequencer.Calibration
import PulseSequencer.ChannelSet
import PulseSequencer.Complex
import PulseSequencer.Decimal.Binary
import PulseSequencer.Decimal.Notation
import PulseSequencer.Decimal.Shortest
import PulseSequencer.Demo
import PulseSequencer.Device.Basic
import PulseSequencer.Device.Channel
import PulseSequencer.Device.Trigger
import PulseSequencer.Error
import PulseSequencer.Grid
import PulseSequencer.Handle
import PulseSequencer.Main
import PulseSequencer.Outcome
import PulseSequencer.Registry
import PulseSequencer.Scalar
import PulseSequencer.Script.Error
import PulseSequencer.Script.Session
import PulseSequencer.Sequence.Basic
import PulseSequencer.Sequence.Compile
import PulseSequencer.Sequence.Hardware
import PulseSequencer.Slice.Basic
import PulseSequencer.Slice.Edit
import PulseSequencer.Slice.Flatten
import PulseSequencer.Slice.Path
import PulseSequencer.Snapshot
import PulseSequencer.Stopwatch
import PulseSequencer.Table
import PulseSequencer.Text.Hidden
import PulseSequencer.Text.Name
import PulseSequencer.Text.Quoted
import PulseSequencer.Waveform.Basic
import PulseSequencer.Waveform.Combine
import PulseSequencer.Waveform.Sample
import PulseSequencer.Waveform.Text
import PulseSequencer.Waveform.Value
import PulseSequencer.Proofs.Device.Channel
import PulseSequencer.Proofs.Device.Trigger
import PulseSequencer.Proofs.Outcome
import PulseSequencer.Proofs.Registry
import PulseSequencer.Proofs.Registry.Bindings
import PulseSequencer.Proofs.Registry.History
import PulseSequencer.Proofs.Registry.InPlace
import PulseSequencer.Proofs.Scalar.Exact
import PulseSequencer.Proofs.Scalar.Machine
import PulseSequencer.Proofs.Scalar.Laws
import PulseSequencer.Proofs.Scalar.Ordering
import PulseSequencer.Proofs.Grid
import PulseSequencer.Proofs.Sequence.Coherence
import PulseSequencer.Proofs.Sequence.Compilation
import PulseSequencer.Proofs.Sequence.Hardware
import PulseSequencer.Proofs.Sequence.Incremental
import PulseSequencer.Proofs.Sequence.Loading
import PulseSequencer.Proofs.Sequence.Names
import PulseSequencer.Proofs.Sequence.Placement
import PulseSequencer.Proofs.Sequence.Run
import PulseSequencer.Proofs.Sequence.Timeline
import PulseSequencer.Proofs.Slice.Coherence
import PulseSequencer.Proofs.Slice.Flattening
import PulseSequencer.Proofs.Slice.Freshness
import PulseSequencer.Proofs.Slice.Layout
import PulseSequencer.Proofs.Slice.Level
import PulseSequencer.Proofs.Slice.Names
import PulseSequencer.Proofs.Slice.Renewal
import PulseSequencer.Proofs.Slice.Repetition
import PulseSequencer.Proofs.Slice.Run
import PulseSequencer.Proofs.Slice.Stock
import PulseSequencer.Proofs.Slice.Tree
import PulseSequencer.Proofs.Waveform.Concat
import PulseSequencer.Proofs.Waveform.Sampling
import PulseSequencer.Proofs.Waveform.Allocation
import PulseSequencer.Proofs.Text.Lines
import PulseSequencer.Proofs.Decimal.Notation
import PulseSequencer.Proofs.Waveform.Preorder
import PulseSequencer.Proofs.Waveform.Text
import PulseSequencer.Proofs.Waveform.Normalization
import PulseSequencer.Proofs.Waveform.Modulation
import PulseSequencer.Proofs.Sequence.Repetition
import PulseSequencer.Proofs.Sequence.Calls
import PulseSequencer.Proofs.Sequence.Retry
import PulseSequencer.Proofs.Sequence.Programming
import PulseSequencer.Proofs.Sequence.Phases
import PulseSequencer.Proofs.Sequence.Strobes
import PulseSequencer.Proofs.Sequence.Setup
import PulseSequencer.Proofs.Sequence.Readiness
import PulseSequencer.Proofs.Sequence.Removal
import PulseSequencer.Proofs.Sequence.Failure
import PulseSequencer.Proofs.Sequence.Overlap
import PulseSequencer.Proofs.Sequence.Publication
import PulseSequencer.Proofs.Sequence.Buffers
import PulseSequencer.Proofs.Sequence.Preview
import PulseSequencer.Proofs.Sequence.Rendering
import PulseSequencer.Proofs.Sequence.Drift
import PulseSequencer.Proofs.Slice.Path
import PulseSequencer.Proofs.Sequence.Paths
import PulseSequencer.Proofs.Sequence.InPlace
import PulseSequencer.Proofs.Waveform.Tree
import PulseSequencer.Proofs.Waveform.Scale
import PulseSequencer.Proofs.Waveform.Spread
import PulseSequencer.Proofs.Slice.Arrangement
import PulseSequencer.Proofs.Slice.Drift
import PulseSequencer.Proofs.Slice.Alongside
import PulseSequencer.Proofs.Slice.Disclosure
import PulseSequencer.Proofs.Slice.Edits
import PulseSequencer.Proofs.Slice.Overrun
import PulseSequencer.Proofs.Sequence.Recompilation
import PulseSequencer.Proofs.Sequence.Offsets
