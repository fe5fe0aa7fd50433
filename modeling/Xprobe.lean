import Xprobe.Correlator.Conservation
import Xprobe.Cli.HostCollectors
import Xprobe.Cupti.ConcurrentEnqueue
import Xprobe.Cli.Replay
import Xprobe.Correlator.SelfPairs
import Xprobe.Collector.Identity
import Xprobe.Correlator.InputOrder
import Xprobe.Cli.Prefilter
import Xprobe.Cupti.Instrumentation
import Xprobe.Core.RuntimeAddress
import Xprobe.Cli.ClockAlignment
import Xprobe.Cli.SyscallAggregate
import Xprobe.Cli.CaptureLimit
import Xprobe.Cupti.Lossless
import Xprobe.Cli.TraceHints
import Xprobe.Correlator.CallTrees
import Xprobe.Correlator.Spans
import Xprobe.Correlator.Percentiles
import Xprobe.Collector.Flattening
import Xprobe.Cli.Accumulation
import Xprobe.Cli.AggregateGroups
import Xprobe.Cupti.NameFields
import Xprobe.Cupti.ApiCallbacks
import Xprobe.Cli.IntervalUnion
import Xprobe.Core.SelectorText
import Xprobe.Core.Usdt
import Xprobe.Cli.Deliveries
import Xprobe.Cli.TraceAnalysis
