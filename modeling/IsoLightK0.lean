import IsoLightK0.Registry.Teardown
import IsoLightK0.Registry.History
import IsoLightK0.Registry.Nesting
import IsoLightK0.Registry.Digest
import IsoLightK0.Syscall.Relay
import IsoLightK0.Syscall.StatusReport
import IsoLightK0.Syscall.AttachAudit
import IsoLightK0.Ipc.Rendezvous
import IsoLightK0.Ipc.Issue
import IsoLightK0.Tls.AirGap
import IsoLightK0.Keystore.Lifecycle
import IsoLightK0.Sign.Session
import IsoLightK0.Sign.Erasure
import IsoLightK0.Tls.Synchrony
import IsoLightK0.Mmu.WriteXorExecute
import IsoLightK0.Aarch64.Spawn
import IsoLightK0.Bus.EchoQueue
import IsoLightK0.Syscall.Enumerate
import IsoLightK0.Syscall.WriteTiers
import IsoLightK0.Boot.MemoryMapTags
import IsoLightK0.Boot.Kaslr
import IsoLightK0.Boot.KernelStart
import IsoLightK0.Memory.AllocatorRun
import IsoLightK0.Process.SegmentFlags
import IsoLightK0.Process.LoaderChecks
import IsoLightK0.Tls.ExpandLabel
import IsoLightK0.Registry.Reopen
import IsoLightK0.Capability.Space
import IsoLightK0.Entropy.Stuck
import IsoLightK0.Entropy.Jitter
import IsoLightK0.Entropy.Retry
import IsoLightK0.Crypto.RoundTrip
import IsoLightK0.Ipc.KernelCalls
import IsoLightK0.Process.Isolation
