import RivermaxDevKit.Apps.Destinations
import RivermaxDevKit.Apps.WorkDistribution
import RivermaxDevKit.Core.Flow
import RivermaxDevKit.Core.GenericSendStream
import RivermaxDevKit.Core.ReceiveFlows
import RivermaxDevKit.Ipmx.ChunkConsumer
import RivermaxDevKit.Ipmx.FrameClasses
import RivermaxDevKit.Ipmx.Report
import RivermaxDevKit.Ipmx.ReportParser
import RivermaxDevKit.Ipmx.ReportRoundTrip
import RivermaxDevKit.Ipmx.SharedMessageHandler
import RivermaxDevKit.Ipmx.StreamSender
import RivermaxDevKit.Ipmx.StreamTimelineTracker
import RivermaxDevKit.Ipmx.Timing
import RivermaxDevKit.Ipmx.TrackerPrinting
import RivermaxDevKit.Ipmx.TrackerThreads
import RivermaxDevKit.Ipo.AppReceiveStream
import RivermaxDevKit.Ipo.ChunkGeometry
import RivermaxDevKit.Ipo.Definitions
import RivermaxDevKit.Ipo.Lossless
import RivermaxDevKit.Ipo.Moves
import RivermaxDevKit.Ipo.Ordering
import RivermaxDevKit.Ipo.PathOrder
import RivermaxDevKit.Ipo.PathStatistics
import RivermaxDevKit.Ipo.Readiness
import RivermaxDevKit.Ipo.Representation
import RivermaxDevKit.Ipo.SlotMapping
import RivermaxDevKit.Latency.CommitRing
import RivermaxDevKit.Latency.FrameClient
import RivermaxDevKit.Latency.FrameExchange
import RivermaxDevKit.Latency.FrameLossless
import RivermaxDevKit.Latency.FrameReply
import RivermaxDevKit.Latency.MediaRx
import RivermaxDevKit.Latency.MediaTx
import RivermaxDevKit.Latency.Schedule
import RivermaxDevKit.Lib.BitRank
import RivermaxDevKit.Lib.ByteStore
import RivermaxDevKit.Lib.Custody
import RivermaxDevKit.Lib.Holdings
import RivermaxDevKit.Lib.MixedNumber
import RivermaxDevKit.Lib.Observation
import RivermaxDevKit.Lib.Playback
import RivermaxDevKit.Lib.Reader
import RivermaxDevKit.Lib.Region
import RivermaxDevKit.Lib.Resequencing
import RivermaxDevKit.Lib.RoundRobin
import RivermaxDevKit.Lib.SerialNumber
import RivermaxDevKit.Lib.SlotArray
import RivermaxDevKit.Lib.StopAndWait
import RivermaxDevKit.Lib.Sweep
import RivermaxDevKit.Lib.TextSearch
import RivermaxDevKit.Lib.WrapCounter
import RivermaxDevKit.Media.FileFrameProvider
import RivermaxDevKit.Media.FileSending
import RivermaxDevKit.Media.FileStreaming
import RivermaxDevKit.Media.FramePool
import RivermaxDevKit.Media.Settings
import RivermaxDevKit.Media.SettingsParsing
import RivermaxDevKit.Media.Tiling
import RivermaxDevKit.Memory.FileLoader
import RivermaxDevKit.Memory.Layout
import RivermaxDevKit.Memory.Partition
import RivermaxDevKit.Memory.Registration
import RivermaxDevKit.Receivers.Consumption
import RivermaxDevKit.Rtp.BufferWriter
import RivermaxDevKit.Rtp.DropCount
import RivermaxDevKit.Rtp.FrameStart
import RivermaxDevKit.Rtp.GeneratorStates
import RivermaxDevKit.Rtp.GeneratorsAgree
import RivermaxDevKit.Rtp.Header
import RivermaxDevKit.Rtp.HeaderParsers
import RivermaxDevKit.Rtp.HeaderReads
import RivermaxDevKit.Rtp.PayloadWriter
import RivermaxDevKit.Rtp.ReceiveStream
import RivermaxDevKit.Rtp.SendTime
import RivermaxDevKit.Rtp.VideoSendStream
import RivermaxDevKit.Senders.ChecksumWriter
import RivermaxDevKit.Senders.FieldSending
import RivermaxDevKit.Senders.GenericSender
import RivermaxDevKit.Senders.GenericSending
import RivermaxDevKit.Senders.MediaSender
import RivermaxDevKit.Senders.SdpFields
import RivermaxDevKit.Services.Affinity
import RivermaxDevKit.Services.AffinityRequests
import RivermaxDevKit.Services.Definitions
import RivermaxDevKit.Services.LinuxAffinity
import RivermaxDevKit.Services.Rational
import RivermaxDevKit.Services.RationalArithmetic
import RivermaxDevKit.Services.RationalEquality
import RivermaxDevKit.Services.StaticRcu
import RivermaxDevKit.Services.Time
import RivermaxDevKit.Services.WindowsAffinity
import RivermaxDevKit.Transport.PacketStream
import RivermaxDevKit.Transport.RedundantPaths
import RivermaxDevKit.Transport.SinglePath
