import Acrn.Lib.BitField
import Acrn.Lib.BlockLoop
import Acrn.Page
import Acrn.Entry
import Acrn.Pagetable
import Acrn.Walk
import Acrn.TableStep
import Acrn.TablePool
import Acrn.Translate
import Acrn.Ept
import Acrn.Spans
import Acrn.AddSpec
import Acrn.Mapping
import Acrn.ModifySpec
import Acrn.Remapping
import Acrn.EptMap
import Acrn.Lib.Ownership
import Acrn.Vdev
import Acrn.BarSpec
import Acrn.BarInit
import Acrn.Vpci
import Acrn.VbarWindows
import Acrn.Lib.Transition
import Acrn.Virq
import Acrn.ExceptionMerge
import Acrn.Vectoring
import Acrn.Vcpu
import Acrn.VirtualCr
import Acrn.Vmsr
import Acrn.VcpuRun
import Acrn.ControlRegs
import Acrn.LongMode
import Acrn.CrReadBack
import Acrn.CacheDisable
import Acrn.MsrBitmap
import Acrn.Tsc
import Acrn.TscDeadline
import Acrn.Schedule
import Acrn.IcrAccess
import Acrn.IntrRemap
import Acrn.Lib.RegAccess
import Acrn.ConfigSpace
import Acrn.Vmsi
import Acrn.PtCfg
import Acrn.CfgPorts
import Acrn.IntxMask
import Acrn.MsrPolicy
import Acrn.VcpuLoop
import Acrn.PauseVcpu
import Acrn.VmLock
import Acrn.EptFlush
import Acrn.ResetEvents
import Acrn.SchedInit
import Acrn.PcpuStart
import Acrn.EptView
import Acrn.EptViolation
import Acrn.E820
import Acrn.E820Init
import Acrn.LowMemory
import Acrn.GuestMemory
import Acrn.Lib.RangeEdit
import Acrn.HostPaging
import Acrn.Sanitized
import Acrn.Lib.Tiling
import Acrn.EptWalk
import Acrn.Lib.ByteCopy
import Acrn.GuestCopy
import Acrn.Lib.RingBuffer
import Acrn.Vuart
import Acrn.RegCache
import Acrn.ExitRegs
import Acrn.RipAdvance
import Acrn.EventInjection
import Acrn.Lib.DoorbellQueue
import Acrn.Vtd
import Acrn.DmarTables
import Acrn.Lib.ByteMem
import Acrn.Trampoline
import Acrn.Lib.SortedTable
import Acrn.Vcpuid
import Acrn.VcpuidLookup
import Acrn.Lib.LinkedWalk
import Acrn.MsiDiscovery
import Acrn.PortIo
import Acrn.Lib.Regions
import Acrn.GuestBoot
import Acrn.Vacpi
import Acrn.Lib.PieceWriter
import Acrn.Printf
import Acrn.Snprintf
import Acrn.Lib.Numeral
import Acrn.PrintNumber
import Acrn.Lib.MemString
import Acrn.Shell
import Acrn.ShellLine
import Acrn.VuartConnect
import Acrn.SpinLock
import Acrn.StringCopy
import Acrn.StringNumber
import Acrn.BootModule
import Acrn.Vrtc
import Acrn.SharedEpt
import Acrn.DmarCalls
import Acrn.AssignedDevices
import Acrn.VmCpus
import Acrn.HostState
import Acrn.Teardown
import Acrn.LaunchVms
import Acrn.Separation
import Acrn.DmaWalk
import Acrn.Lib.IndexedWindow
import Acrn.PciPorts
import Acrn.Lib.Driver
import Acrn.DmarRegs
import Acrn.DmarBringUp
import Acrn.ArchSwitch
import Acrn.VmxVmrun
import Acrn.IdtFrames
import Acrn.ExtContext
