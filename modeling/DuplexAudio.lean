import DuplexAudio.Bench.EngineBench
import DuplexAudio.Bench.StreamBench
import DuplexAudio.Bench.Transcript
import DuplexAudio.Memory.CacheLine
import DuplexAudio.Proofs.Pairing.Rule
import DuplexAudio.Proofs.Memory.Coherence
import DuplexAudio.Proofs.Engine.Lifecycle
import DuplexAudio.Proofs.Engine.FaultLatch
import DuplexAudio.Proofs.Stream.Silence
import DuplexAudio.Proofs.Stream.Rounds
import DuplexAudio.Proofs.Engine.Running
import DuplexAudio.Proofs.Engine.Quiescence
import DuplexAudio.Proofs.Engine.WakeUp
import DuplexAudio.Proofs.Engine.StopRace
import DuplexAudio.Proofs.Engine.Strikes
import DuplexAudio.Proofs.Engine.Recovery
import DuplexAudio.Proofs.Link.Programmable
import DuplexAudio.Proofs.Pairing.Conservation
import DuplexAudio.Proofs.Pairing.Losses
import DuplexAudio.Proofs.Stream.Accounts
import DuplexAudio.Proofs.Link.Registers
import DuplexAudio.Proofs.Engine.Halted
import DuplexAudio.Proofs.Engine.CodecFailures
import DuplexAudio.Proofs.Engine.Repetition
import DuplexAudio.Proofs.Stream.Reentry
import DuplexAudio.Proofs.Stream.OneBlock
import DuplexAudio.Proofs.Engine.Ownership
import DuplexAudio.Proofs.Engine.Reports
import DuplexAudio.Proofs.Stream.Renewal
import DuplexAudio.Proofs.Mix.Volume
import DuplexAudio.Proofs.Tone.Range
import DuplexAudio.Proofs.Mix.Settings
import DuplexAudio.Proofs.Codec.Programmed
import DuplexAudio.Proofs.Codec.LockTime
import DuplexAudio.Proofs.Codec.CaptureMute
import DuplexAudio.Proofs.Codec.MuteFlag
import DuplexAudio.Proofs.Link.Bookkeeping
import DuplexAudio.Proofs.Signal.Saturation
import DuplexAudio.Proofs.Signal.Envelope
import DuplexAudio.Proofs.Memory.Lines
import DuplexAudio.Proofs.Memory.Views
