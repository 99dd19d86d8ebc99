import Aspawn.Lib.Transition
import Aspawn.Lib.Program
import Aspawn.Lib.RoundUp
import Aspawn.Lib.Pages
import Aspawn.Lib.Buffer
import Aspawn.Lib.Components
import Aspawn.Lib.Loading
import Aspawn.Lib.PartialWrites
import Aspawn.Errno
import Aspawn.CachedStack
import Aspawn.ReserveStackProperties
import Aspawn.ReserveCacheProperties
import Aspawn.StackSession
import Aspawn.StackSessionProperties
import Aspawn.StackLayoutProperties
import Aspawn.StackLeakProperties
import Aspawn.AddressSpace
import Aspawn.AddressSpaceProperties
import Aspawn.FindExe
import Aspawn.FindExeProperties
import Aspawn.Execvep
import Aspawn.ExecvepProperties
import Aspawn.FindExeLimits
import Aspawn.SyscallWrappers
import Aspawn.SyscallWrappersProperties
import Aspawn.Perr
import Aspawn.PerrProperties
import Aspawn.Priority
import Aspawn.PriorityProperties
import Aspawn.Signal
import Aspawn.Spawn.Code
import Aspawn.Spawn.Protocol
import Aspawn.Spawn.ProtocolProperties
import Aspawn.Spawn.System
import Aspawn.Spawn.SystemSteps
import Aspawn.Spawn.PathAgreement
import Aspawn.Spawn.StackAlignment
import Aspawn.Spawn.SystemNumbering
import Aspawn.Spawn.SystemThreads
import Aspawn.Spawn.SystemProperties
import Aspawn.Spawn.HandlerProperties
import Aspawn.Spawn.PipeOwnership
import Aspawn.Spawn.TransactionProperties
import Aspawn.Spawn.HupProperties
import Aspawn.Spawn.DescriptorLimit
import Aspawn.Spawn.WriteEnds
import Aspawn.Spawn.StackReuseProperties
import Aspawn.Spawn.SigsetProperties
import Aspawn.Spawn.CallDiscipline
import Aspawn.Spawn.StackPointers
import Aspawn.Spawn.Machine
import Aspawn.Spawn.MachineProperties
import Aspawn.Spawn.ProcessTree
import Aspawn.Spawn.ProcessTreeProperties
import Aspawn.Spawn.ProcessTreeSteps
import Aspawn.Spawn.ProcessTreeRefinement
import Aspawn.Spawn.WaitFreedom
import Aspawn.Spawn.Quiescence
import Aspawn.Spawn.CloneFlag
import Aspawn.Lib.Memory
import Aspawn.MemoryRoutines
import Aspawn.Spawn.SharedMemory
import Aspawn.Lib.Refinement
import Aspawn.Spawn.CodeInMemory
import Aspawn.Spawn.CodeInMemoryProperties
import Aspawn.StackInMemory
import Aspawn.Footprint
