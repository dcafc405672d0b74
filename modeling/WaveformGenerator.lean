import WaveformGenerator.Artifact.Playable
import WaveformGenerator.Artifact.ReadBack
import WaveformGenerator.Cut.LogRun
import WaveformGenerator.FinitePlayback.Lead
import WaveformGenerator.FinitePlayback.Progress
import WaveformGenerator.Host.Dd008Handshake
import WaveformGenerator.Media.HostHold
import WaveformGenerator.Player.FifoRun
import WaveformGenerator.Playlist.Bookkeeping
import WaveformGenerator.Playlist.ResultFifo
import WaveformGenerator.Source.Generated
import WaveformGenerator.Tx.Disconnects
import WaveformGenerator.Tx.Publication
import WaveformGenerator.Usb.Ep0Interrupts
import WaveformGenerator.UsbAudio.MissedIntervals
import WaveformGenerator.UsbAudio.PlayCredit
import WaveformGenerator.UsbAudio.ScheduledStart
import WaveformGenerator.SignalLab.Det
import WaveformGenerator.SignalLab.LiveControl
import WaveformGenerator.SignalLab.LiveTimeline
import WaveformGenerator.Common.Attenuation
import WaveformGenerator.Cut.Spelling
import WaveformGenerator.PlaylistFile.Line
import WaveformGenerator.PlaylistFile.Parser
import WaveformGenerator.Host.CutSpelling
import WaveformGenerator.Host.PlaylistAgreement
import WaveformGenerator.Host.StageWav
import WaveformGenerator.Lib.Riff
import WaveformGenerator.Host.CutGlobal
import WaveformGenerator.Host.CutGrammar
import WaveformGenerator.Artifact.Scan
import WaveformGenerator.Artifact.Accepted
import WaveformGenerator.Dd008.ChunkedSend
import WaveformGenerator.Dd008.Bursts
import WaveformGenerator.UsbAudio.Attribution
import WaveformGenerator.UsbAudio.PhysicalBus
import WaveformGenerator.SignalLab.Fade
import WaveformGenerator.SignalLab.FadeAdmission
import WaveformGenerator.SignalLab.FadeRun
import WaveformGenerator.SignalLab.Json
import WaveformGenerator.SignalLab.JsonGrammar
import WaveformGenerator.SignalLab.JsonScalars
import WaveformGenerator.SignalLab.JsonTable
import WaveformGenerator.SignalLab.JsonReading
import WaveformGenerator.SignalLab.JsonPlaces
import WaveformGenerator.SignalLab.JsonDocument
import WaveformGenerator.SignalLab.JsonExact
import WaveformGenerator.Source.WrittenFrames
import WaveformGenerator.Host.Seams
import WaveformGenerator.Host.CompareCapture
import WaveformGenerator.Host.CompareExact
import WaveformGenerator.Host.SplitCapture
import WaveformGenerator.Host.BoardReset
import WaveformGenerator.ChannelSim.LaneOutputs
import WaveformGenerator.ChannelSim.LaneStreams
import WaveformGenerator.Host.ItemLines
import WaveformGenerator.Host.ItemsHeld
import WaveformGenerator.PlaylistFile.Grammar
import WaveformGenerator.PlaylistFile.LineGrammar
import WaveformGenerator.Tx.CommandParser
import WaveformGenerator.Common.SerialCrc32
import WaveformGenerator.Common.Uint64Text
import WaveformGenerator.LiveProtocol.Uint64
import WaveformGenerator.Common.Gain
import WaveformGenerator.Common.GainRounding
import WaveformGenerator.Cut.PlayMap
import WaveformGenerator.Host.GainAgreement
import WaveformGenerator.Common.OperationTiming
import WaveformGenerator.Common.TimingTotals
import WaveformGenerator.Player.CardSource
import WaveformGenerator.Player.LoopedReads
import WaveformGenerator.SignalLab.Sweeps
import WaveformGenerator.Tx.CommandFraming
import WaveformGenerator.LiveProtocol.Parser
import WaveformGenerator.LiveProtocol.Names
import WaveformGenerator.LiveProtocol.Sequencing
import WaveformGenerator.Lib.Splice
import WaveformGenerator.SignalLab.SampleSlip
import WaveformGenerator.SignalLab.SlipSchedule
import WaveformGenerator.SignalLab.SlipRun
import WaveformGenerator.Host.SampleSlip
import WaveformGenerator.Host.SlipAgreement
import WaveformGenerator.Lib.StableOrder
import WaveformGenerator.SignalLab.SlipStream
import WaveformGenerator.Dd008.ChannelClose
import WaveformGenerator.Dd008.Rehandshake
