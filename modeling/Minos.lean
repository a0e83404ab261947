import Minos.Lib.BitField
import Minos.Lib.Radix
import Minos.Lib.Remap
import Minos.Mmu.Pagetable
import Minos.Mmu.Mapping
import Minos.Mmu.Supply
import Minos.Mmu.CreateSpec
import Minos.Mmu.GuestMapping
import Minos.Mmu.BlockOverlap
import Minos.Mmu.RootIndex
import Minos.Mmu.HostMapping
import Minos.Mmu.DestroySpec
import Minos.Mmu.Unmap
import Minos.Mmu.GuestUnmap
import Minos.Mmu.Undo
import Minos.Lib.ByteMem
import Minos.Virtio.Mmio
import Minos.Lib.Run
import Minos.Virtio.Window
import Minos.Virtio.Ring
import Minos.Virtio.Backend
import Minos.Virtio.Confine
import Minos.Virtio.Queues
import Minos.Virt.MmioRead
import Minos.Lib.Bitmap
import Minos.Mm.Accounting
import Minos.Sched.GlobalRun
import Minos.Virq.Delivery
import Minos.Core.Event
import Minos.Core.Mutex
import Minos.Core.Queue
import Minos.Lib.DList
import Minos.Lib.PackedWord
import Minos.Mm.Layout
import Minos.Sched.Lists
import Minos.Sched.LocalClass
import Minos.Sched.WakeUp
import Minos.Virq.Distributor
import Minos.Virq.GiccTrap
import Minos.Virq.Release
import Minos.Virt.VcpuPower
import Minos.Virt.Vmcs
import Minos.Virtio.EventIdx
import Minos.Virtio.NetTx
import Minos.Mm.PageRuns
import Minos.Core.SmpCall
import Minos.Core.TaskTable
import Minos.Core.Timer
import Minos.Core.TimerCover
import Minos.Core.TimerFire
import Minos.Lib.ContextSwitch
import Minos.Virt.Isolation
import Minos.Virt.VmTable
import Minos.Virt.CreateFail
import Minos.Virt.Lifecycle
import Minos.Core.CreateTask
import Minos.Core.Mbox
import Minos.Core.QueueRing
import Minos.Core.Sem
import Minos.Lib.Intervals
import Minos.Mm.Regions
import Minos.Virt.Mailbox
import Minos.Virt.PowerCycles
import Minos.Virtio.BlkRequests
import Minos.Virtio.Status
import Minos.Virtio.Descs
import Minos.Virtio.DeviceLoops
import Minos.Virtio.UsedRing
import Minos.Mvm.BootImage
import Minos.Virq.Injection
import Minos.Core.EventWake
import Minos.Core.Flag
import Minos.Mm.BootSections
import Minos.Mm.PageBlock
import Minos.Mmu.BlockAlign
import Minos.Mm.FailedAlloc
import Minos.Core.Softirq
import Minos.Lib.Cycle
import Minos.Mm.SimpleAlloc
import Minos.Mmu.FailedMapping
import Minos.Of.Cells
import Minos.Of.NodeTree
import Minos.Virq.BcmPending
import Minos.Virq.HwMask
import Minos.Virt.MailboxQuery
import Minos.Virt.VcpuAffinity
import Minos.Virt.Vrtc
import Minos.Virt.Vwdt
import Minos.Core.FindBit
import Minos.Core.NumString
import Minos.Mm.Bootmem
import Minos.Mm.SlabRuns
import Minos.Mmu.ManyTables
import Minos.Virt.Shmem
import Minos.Core.Atomic
import Minos.Core.SpinLock
import Minos.Virtio.BlockIfRuns
import Minos.Virt.HvmWindows
import Minos.Core.Irq
import Minos.Core.IrqTables
import Minos.Core.IrqLines
import Minos.Virtio.BlkDevice
import Minos.Of.Fdt
