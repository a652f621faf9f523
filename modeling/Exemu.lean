import Exemu.Jit.Coherence
import Exemu.Os.HostPath
import Exemu.Os.Ownership
import Exemu.Os.Handles
import Exemu.Memory.Refinement
import Exemu.Os.Semaphore
import Exemu.Os.WaitAll
import Exemu.Os.AutoReset
import Exemu.Os.Delivery
import Exemu.Os.Zeroed
import Exemu.Os.Tls
import Exemu.Os.Deletion
import Exemu.Os.Informed
import Exemu.Os.Directory
import Exemu.Os.Rebase
import Exemu.Os.ProcAddress
import Exemu.Os.Contracts
import Exemu.Os.Playback
import Exemu.Os.GdiCalls
import Exemu.Os.Views
import Exemu.Os.Arena
import Exemu.Cpu.BitTest
import Exemu.Cpu.Strings
import Exemu.Gui.Protocol
import Exemu.Os.Transfer
import Exemu.Os.Lifecycle
import Exemu.Os.Afd
import Exemu.Os.Routing
import Exemu.Cpu.DoubleShift
import Exemu.Cpu.Multiply
import Exemu.Cpu.XsaveFrame
import Exemu.Cpu.Operand
import Exemu.Loader.Exports
import Exemu.Cpu.Half
import Exemu.Cpu.Examine
import Exemu.Cpu.Fistp
import Exemu.Loader.UnwindBounds
import Exemu.Os.CaseMap
import Exemu.Os.Geometry
import Exemu.Os.WindowLong
import Exemu.Os.Callbacks
import Exemu.Os.WindowText
import Exemu.Loader.ResourceTree
import Exemu.Gui.Shape
import Exemu.Os.Query
import Exemu.Os.LogFont
import Exemu.Core.Watch
import Exemu.Jit.Bitmask
import Exemu.Jit.MovImm
import Exemu.Cpu.Prefetch
import Exemu.Os.CodePage
import Exemu.Jit.Budget
import Exemu.Cpu.Conditions
