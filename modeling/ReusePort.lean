import ReusePort.Lts
import ReusePort.Calls
import ReusePort.Fnv
import ReusePort.Endian
import ReusePort.Bpf.Extended
import ReusePort.Core.Cid
import ReusePort.Core.QuicGrammar
import ReusePort.Core.Balance
import ReusePort.Core.Limit
import ReusePort.Core.Close
import ReusePort.Core.Delivery
import ReusePort.Core.WakeUp
import ReusePort.Core.QuicServe
import ReusePort.Core.Vectored
import ReusePort.Core.Registry
import ReusePort.Core.ListenerSocket
import ReusePort.Core.RuntimeDrop
import ReusePort.Core.Startup
import ReusePort.Platform.Bind
import ReusePort.Platform.Ebpf
import ReusePort.Platform.Probe
import ReusePort.Platform.QuicBind
import ReusePort.Platform.Fallback
import ReusePort.Platform.OriginalDst
import ReusePort.Runtime.AsyncStd
import ReusePort.Core.Affinity
import ReusePort.Core.Drain
import ReusePort.Core.NativeWindDown
import ReusePort.Core.PolledReceive
import ReusePort.Core.PolledStalls
import ReusePort.Core.RoutedDrain
import ReusePort.Core.ServerRuntime
import ReusePort.Core.SpawnTask
import ReusePort.Runtime.TokioSettles
import ReusePort.Coherence
import ReusePort.Core.WeakMemory
import ReusePort.Platform.BindReturns
import ReusePort.Core.CloseCalls
