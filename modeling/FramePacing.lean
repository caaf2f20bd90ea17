import FramePacing.Host
import FramePacing.Proofs.Bench.FreshStart
import FramePacing.Proofs.Bench.Making
import FramePacing.Proofs.Bench.Measured
import FramePacing.Proofs.Bench.Rejected
import FramePacing.Proofs.Bench.Warnings
import FramePacing.Proofs.Cadence.Frames
import FramePacing.Proofs.Display.Lossless
import FramePacing.Proofs.Display.Rates
import FramePacing.Proofs.Host.Registration
import FramePacing.Proofs.Log.Timestamps
import FramePacing.Proofs.Session.Bounded
import FramePacing.Proofs.Session.InStep
import FramePacing.Proofs.Session.Latest
import FramePacing.Proofs.Session.Proper
import FramePacing.Proofs.Session.Schedule
import FramePacing.Proofs.Settings.Known
import FramePacing.Proofs.Settings.RoundTrip
import FramePacing.Proofs.Statistics.Averages
import FramePacing.Proofs.Statistics.Presence
import FramePacing.Proofs.Window.Ring
import FramePacing.Session.Recorder
