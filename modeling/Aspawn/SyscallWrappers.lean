import Aspawn.CachedStack
import Aspawn.Lib.Loading

/-! The wrappers of `syscall/syscall.c` and `syscall/signal.c` down to the argument registers:
`INTERNAL_SYSCALL` of `syscall/make_syscall.h` with the registers that each wrapper loads. -/

set_option autoImplicit false

namespace Aspawn.Registers

open Loading

/-! ## `syscall/make_syscall.h` -/

inductive Register where
  | rdi
  | rsi
  | rdx
  | r10
  | r8
  | r9
  deriving DecidableEq, Repr

abbrev RegisterFile := Register → UInt64

def argumentRegisters : List Register := [.rdi, .rsi, .rdx, .r10, .r8, .r9]

inductive SystemCall where
  | openat
  | close
  | dup
  | dup3
  | pipe2
  | epollCreate1
  | epollCtl
  | epollPwait
  | chdir
  | fchdir
  | write
  | read
  | mmap
  | munmap
  | mremap
  | setresuid
  | setresgid
  | setgroups
  | getpid
  | schedSetparam
  | schedGetparam
  | schedSetscheduler
  | schedGetscheduler
  | getpriority
  | setpriority
  | prlimit64
  | exit
  | execve
  | execveat
  | rtSigaction
  | rtSigprocmask
  deriving DecidableEq, Repr

/-- An argument by its C type: `int`, `unsigned` and `pid_t` have 32 bits, pointers, `size_t` and
`long` fill the register. -/
inductive Argument where
  | int (value : UInt32)
  | long (value : UInt64)
  deriving DecidableEq, Repr

instance : Coe UInt32 Argument := ⟨.int⟩
instance : Coe UInt64 Argument := ⟨.long⟩

/-- What the register holds then. Above an `int` it holds what was left there. -/
def Argument.content (leftover : UInt64) : Argument → UInt64
  | .int value => leftover &&& 0xffffffff00000000 ||| value.toUInt64
  | .long value => value

def contents (args : List Argument) (file : RegisterFile) : List UInt64 :=
  List.zipWith (fun register arg => arg.content (file register)) argumentRegisters args

inductive Width where
  | int
  | long
  deriving DecidableEq, Repr

def Argument.width : Argument → Width
  | .int _ => .int
  | .long _ => .long

/-- The kernel takes an `int` from the lower half of its register. -/
def Width.read : Width → UInt64 → Argument
  | .int, content => .int content.toUInt32
  | .long, content => .long content

/-- The parameters that the kernel reads, as wide as in the prototypes of the system calls, but
`who`, which the wrappers take as a `long`. -/
def SystemCall.parameters : SystemCall → List Width
  | .getpid => []
  | .close | .dup | .epollCreate1 | .fchdir | .schedGetscheduler | .exit => [.int]
  | .chdir => [.long]
  | .pipe2 => [.long, .int]
  | .munmap | .setgroups => [.long, .long]
  | .schedSetparam | .schedGetparam | .getpriority => [.int, .long]
  | .dup3 | .setresuid | .setresgid => [.int, .int, .int]
  | .write | .read => [.int, .long, .long]
  | .schedSetscheduler => [.int, .int, .long]
  | .setpriority => [.int, .long, .int]
  | .execve => [.long, .long, .long]
  | .openat => [.int, .long, .int, .int]
  | .epollCtl => [.int, .int, .int, .long]
  | .prlimit64 => [.int, .int, .long, .long]
  | .rtSigaction | .rtSigprocmask => [.int, .long, .long, .long]
  | .mremap => [.long, .long, .long, .int, .long]
  | .execveat => [.int, .long, .long, .long, .int]
  | .epollPwait => [.int, .long, .int, .int, .long, .long]
  | .mmap => [.long, .long, .int, .int, .int, .long]

/-- The number of argument registers that the kernel reads. -/
def SystemCall.arity (number : SystemCall) : Nat := number.parameters.length

/-- What the `syscall` instruction hands to the kernel. -/
structure Trap where
  number : SystemCall
  registers : RegisterFile

/-- Every trap is answered by the raw content of the result register. -/
abbrev TrapCalls : Signature where
  Request := Trap
  Response _ := UInt64

/-- `internal_syscall0` to `internal_syscall6`: load the arguments, leave the other argument
registers as they are. -/
def internalSyscall (number : SystemCall) (args : List Argument) (file : RegisterFile) :
    Program TrapCalls UInt64 :=
  Program.perform (S := TrapCalls)
    { number, registers := load argumentRegisters (contents args file) file }

def internalSyscall0 (number : SystemCall) : RegisterFile → Program TrapCalls UInt64 :=
  internalSyscall number []

def internalSyscall1 (number : SystemCall) (arg1 : Argument) :
    RegisterFile → Program TrapCalls UInt64 :=
  internalSyscall number [arg1]

def internalSyscall2 (number : SystemCall) (arg1 arg2 : Argument) :
    RegisterFile → Program TrapCalls UInt64 :=
  internalSyscall number [arg1, arg2]

def internalSyscall3 (number : SystemCall) (arg1 arg2 arg3 : Argument) :
    RegisterFile → Program TrapCalls UInt64 :=
  internalSyscall number [arg1, arg2, arg3]

def internalSyscall4 (number : SystemCall) (arg1 arg2 arg3 arg4 : Argument) :
    RegisterFile → Program TrapCalls UInt64 :=
  internalSyscall number [arg1, arg2, arg3, arg4]

def internalSyscall5 (number : SystemCall) (arg1 arg2 arg3 arg4 arg5 : Argument) :
    RegisterFile → Program TrapCalls UInt64 :=
  internalSyscall number [arg1, arg2, arg3, arg4, arg5]

def internalSyscall6 (number : SystemCall) (arg1 arg2 arg3 arg4 arg5 arg6 : Argument) :
    RegisterFile → Program TrapCalls UInt64 :=
  internalSyscall number [arg1, arg2, arg3, arg4, arg5, arg6]

/-! ## Results -/

/-- A `long` result returned as `int`, `pid_t` included. -/
def int (result : UInt64) : Int := result.toUInt32.toInt32.toInt

/-- A `long` result returned as `ssize_t`. -/
def ssize (result : UInt64) : Int := result.toInt64.toInt

/-! ## `syscall/syscall.c` -/

def psysOpenat (dirfd : UInt32) (pathname : UInt64) (flags mode : UInt32) (file : RegisterFile) :
    Program TrapCalls Int :=
  int <$> internalSyscall4 .openat dirfd pathname flags mode file

def psysClose (fd : UInt32) (file : RegisterFile) : Program TrapCalls Int :=
  int <$> internalSyscall1 .close fd file

def psysDup (oldfd : UInt32) (file : RegisterFile) : Program TrapCalls Int :=
  int <$> internalSyscall1 .dup oldfd file

def psysDup3 (oldfd newfd flags : UInt32) (file : RegisterFile) : Program TrapCalls Int :=
  int <$> internalSyscall3 .dup3 oldfd newfd flags file

def psysPipe2 (pipefd : UInt64) (flag : UInt32) (file : RegisterFile) : Program TrapCalls Int :=
  int <$> internalSyscall2 .pipe2 pipefd flag file

def psysEpollCreate1 (flags : UInt32) (file : RegisterFile) : Program TrapCalls Int :=
  int <$> internalSyscall1 .epollCreate1 flags file

def psysEpollCtl (epfd op fd : UInt32) (event : UInt64) (file : RegisterFile) :
    Program TrapCalls Int :=
  int <$> internalSyscall4 .epollCtl epfd op fd event file

def psysEpollPwait (epfd : UInt32) (events : UInt64) (maxevents timeout : UInt32)
    (sigmask : UInt64) (file : RegisterFile) : Program TrapCalls Int :=
  int <$> internalSyscall5 .epollPwait epfd events maxevents timeout
    sigmask file

def psysChdir (path : UInt64) (file : RegisterFile) : Program TrapCalls Int :=
  int <$> internalSyscall1 .chdir path file

def psysFchdir (fd : UInt32) (file : RegisterFile) : Program TrapCalls Int :=
  int <$> internalSyscall1 .fchdir fd file

def psysWrite (fd : UInt32) (buf count : UInt64) (file : RegisterFile) : Program TrapCalls Int :=
  ssize <$> internalSyscall3 .write fd buf count file

def psysRead (fd : UInt32) (buf count : UInt64) (file : RegisterFile) : Program TrapCalls Int :=
  ssize <$> internalSyscall3 .read fd buf count file

/-- Without `SYS_mmap2`, as on x86-64. -/
def psysMmap (addr len : UInt64) (prot flags fd : UInt32) (off : UInt64) (file : RegisterFile) :
    Program TrapCalls (Except Int UInt64) :=
  if off &&& (psysGetPagesz - 1) ≠ 0 then
    .done (.error EINVAL)
  else
    checkMapError <$> internalSyscall6 .mmap addr len prot flags fd
      off file

def psysMunmap (addr len : UInt64) (file : RegisterFile) : Program TrapCalls Int :=
  int <$> internalSyscall2 .munmap addr len file

def psysMremap (oldAddr oldLen newLen : UInt64) (flags : UInt32) (newAddr : UInt64)
    (file : RegisterFile) : Program TrapCalls (Except Int UInt64) :=
  checkMapError <$> internalSyscall5 .mremap oldAddr oldLen newLen flags newAddr file

def psysSetresuid (ruid euid suid : UInt32) (file : RegisterFile) : Program TrapCalls Int :=
  int <$> internalSyscall3 .setresuid ruid euid suid file

def psysSetresgid (rgid egid sgid : UInt32) (file : RegisterFile) : Program TrapCalls Int :=
  int <$> internalSyscall3 .setresgid rgid egid sgid file

def psysSetgroups (size list : UInt64) (file : RegisterFile) : Program TrapCalls Int :=
  int <$> internalSyscall2 .setgroups size list file

def psysGetpid (file : RegisterFile) : Program TrapCalls Int :=
  int <$> internalSyscall0 .getpid file

def psysSchedSetparam (pid : UInt32) (param : UInt64) (file : RegisterFile) :
    Program TrapCalls Int :=
  int <$> internalSyscall2 .schedSetparam pid param file

def psysSchedGetparam (pid : UInt32) (param : UInt64) (file : RegisterFile) :
    Program TrapCalls Int :=
  int <$> internalSyscall2 .schedGetparam pid param file

def psysSchedSetscheduler (pid policy : UInt32) (param : UInt64) (file : RegisterFile) :
    Program TrapCalls Int :=
  int <$> internalSyscall3 .schedSetscheduler pid policy param file

def psysSchedGetscheduler (pid : UInt32) (file : RegisterFile) : Program TrapCalls Int :=
  int <$> internalSyscall1 .schedGetscheduler pid file

def psysGetpriority (which : UInt32) (who : UInt64) (file : RegisterFile) :
    Program TrapCalls Int :=
  int <$> internalSyscall2 .getpriority which who file

def psysSetpriority (which : UInt32) (who : UInt64) (unice : UInt32) (file : RegisterFile) :
    Program TrapCalls Int :=
  int <$> internalSyscall3 .setpriority which who unice file

/-- `pid` is always 0, the calling process. -/
def psysPrlimit (resource : UInt32) (newLimit oldLimit : UInt64) (file : RegisterFile) :
    Program TrapCalls Int :=
  int <$> internalSyscall4 .prlimit64 (.int 0) resource newLimit oldLimit file

/-- The code after the call is `__builtin_unreachable`. -/
def psysExit (status : UInt32) (file : RegisterFile) : Program TrapCalls Unit :=
  (fun _ => ()) <$> internalSyscall1 .exit status file

def psysExecve (pathname argv envp : UInt64) (file : RegisterFile) : Program TrapCalls Int :=
  int <$> internalSyscall3 .execve pathname argv envp file

def psysExecveat (dirfd : UInt32) (pathname argv envp : UInt64) (flags : UInt32)
    (file : RegisterFile) : Program TrapCalls Int :=
  int <$> internalSyscall5 .execveat dirfd pathname argv envp flags file

/-! ## `syscall/signal.c` -/

def NSIG : UInt64 := 64 + 1
def UCHAR_WIDTH : UInt64 := 8
def ULONG_WIDTH : UInt64 := 8 * UCHAR_WIDTH

def alignDown (base size : UInt64) : UInt64 := base &&& -size
def alignUp (base size : UInt64) : UInt64 := alignDown (base + size - 1) size

def NSIG_WORDS : UInt64 := alignUp (NSIG - 1) ULONG_WIDTH / ULONG_WIDTH
def NSIG_BYTES : UInt64 := NSIG_WORDS * (ULONG_WIDTH / UCHAR_WIDTH)

/-- `act` is the address of the wrapper's local `struct psys_kernel_sigaction`. -/
def psysSigClearHandler (signum : UInt32) (act : UInt64) (file : RegisterFile) :
    Program TrapCalls Int :=
  int <$> internalSyscall4 .rtSigaction signum act (.long 0) NSIG_BYTES file

def psysSigprocmask (how : UInt32) (set oldset : UInt64) (file : RegisterFile) :
    Program TrapCalls Int :=
  int <$> internalSyscall4 .rtSigprocmask how set oldset NSIG_BYTES file

/-- What a wrapper returns: an integer, or a pointer with `*errno_v` on failure. -/
inductive PsysResult where
  | int (value : Int)
  | pointer (result : Except Int UInt64)
  | unreachable

/-! ## All wrappers -/

inductive PsysCall where
  | openat (dirfd : UInt32) (pathname : UInt64) (flags mode : UInt32)
  | close (fd : UInt32)
  | dup (oldfd : UInt32)
  | dup3 (oldfd newfd flags : UInt32)
  | pipe2 (pipefd : UInt64) (flag : UInt32)
  | epollCreate1 (flags : UInt32)
  | epollCtl (epfd op fd : UInt32) (event : UInt64)
  | epollPwait (epfd : UInt32) (events : UInt64) (maxevents timeout : UInt32) (sigmask : UInt64)
  | chdir (path : UInt64)
  | fchdir (fd : UInt32)
  | write (fd : UInt32) (buf count : UInt64)
  | read (fd : UInt32) (buf count : UInt64)
  | mmap (addr len : UInt64) (prot flags fd : UInt32) (off : UInt64)
  | munmap (addr len : UInt64)
  | mremap (oldAddr oldLen newLen : UInt64) (flags : UInt32) (newAddr : UInt64)
  | setresuid (ruid euid suid : UInt32)
  | setresgid (rgid egid sgid : UInt32)
  | setgroups (size list : UInt64)
  | getpid
  | schedSetparam (pid : UInt32) (param : UInt64)
  | schedGetparam (pid : UInt32) (param : UInt64)
  | schedSetscheduler (pid policy : UInt32) (param : UInt64)
  | schedGetscheduler (pid : UInt32)
  | getpriority (which : UInt32) (who : UInt64)
  | setpriority (which : UInt32) (who : UInt64) (unice : UInt32)
  | prlimit (resource : UInt32) (newLimit oldLimit : UInt64)
  | exit (status : UInt32)
  | execve (pathname argv envp : UInt64)
  | execveat (dirfd : UInt32) (pathname argv envp : UInt64) (flags : UInt32)
  | sigClearHandler (signum : UInt32) (act : UInt64)
  | sigprocmask (how : UInt32) (set oldset : UInt64)

namespace PsysCall

/-- The wrapper's body, run with this content of the argument registers. -/
def perform (call : PsysCall) (file : RegisterFile) : Program TrapCalls PsysResult :=
  match call with
  | .openat dirfd pathname flags mode => .int <$> psysOpenat dirfd pathname flags mode file
  | .close fd => .int <$> psysClose fd file
  | .dup oldfd => .int <$> psysDup oldfd file
  | .dup3 oldfd newfd flags => .int <$> psysDup3 oldfd newfd flags file
  | .pipe2 pipefd flag => .int <$> psysPipe2 pipefd flag file
  | .epollCreate1 flags => .int <$> psysEpollCreate1 flags file
  | .epollCtl epfd op fd event => .int <$> psysEpollCtl epfd op fd event file
  | .epollPwait epfd events maxevents timeout sigmask =>
      .int <$> psysEpollPwait epfd events maxevents timeout sigmask file
  | .chdir path => .int <$> psysChdir path file
  | .fchdir fd => .int <$> psysFchdir fd file
  | .write fd buf count => .int <$> psysWrite fd buf count file
  | .read fd buf count => .int <$> psysRead fd buf count file
  | .mmap addr len prot flags fd off => .pointer <$> psysMmap addr len prot flags fd off file
  | .munmap addr len => .int <$> psysMunmap addr len file
  | .mremap oldAddr oldLen newLen flags newAddr =>
      .pointer <$> psysMremap oldAddr oldLen newLen flags newAddr file
  | .setresuid ruid euid suid => .int <$> psysSetresuid ruid euid suid file
  | .setresgid rgid egid sgid => .int <$> psysSetresgid rgid egid sgid file
  | .setgroups size list => .int <$> psysSetgroups size list file
  | .getpid => .int <$> psysGetpid file
  | .schedSetparam pid param => .int <$> psysSchedSetparam pid param file
  | .schedGetparam pid param => .int <$> psysSchedGetparam pid param file
  | .schedSetscheduler pid policy param => .int <$> psysSchedSetscheduler pid policy param file
  | .schedGetscheduler pid => .int <$> psysSchedGetscheduler pid file
  | .getpriority which who => .int <$> psysGetpriority which who file
  | .setpriority which who unice => .int <$> psysSetpriority which who unice file
  | .prlimit resource newLimit oldLimit => .int <$> psysPrlimit resource newLimit oldLimit file
  | .exit status => (fun _ => .unreachable) <$> psysExit status file
  | .execve pathname argv envp => .int <$> psysExecve pathname argv envp file
  | .execveat dirfd pathname argv envp flags =>
      .int <$> psysExecveat dirfd pathname argv envp flags file
  | .sigClearHandler signum act => .int <$> psysSigClearHandler signum act file
  | .sigprocmask how set oldset => .int <$> psysSigprocmask how set oldset file

/-- The system call and the arguments that it has to find in its registers. -/
def required : PsysCall → SystemCall × List Argument
  | .openat dirfd pathname flags mode =>
      (.openat, [dirfd, pathname, flags, mode])
  | .close fd => (.close, [fd])
  | .dup oldfd => (.dup, [oldfd])
  | .dup3 oldfd newfd flags => (.dup3, [oldfd, newfd, flags])
  | .pipe2 pipefd flag => (.pipe2, [pipefd, flag])
  | .epollCreate1 flags => (.epollCreate1, [flags])
  | .epollCtl epfd op fd event => (.epollCtl, [epfd, op, fd, event])
  | .epollPwait epfd events maxevents timeout sigmask =>
      (.epollPwait, [epfd, events, maxevents, timeout, sigmask, .long 8])
  | .chdir path => (.chdir, [path])
  | .fchdir fd => (.fchdir, [fd])
  | .write fd buf count => (.write, [fd, buf, count])
  | .read fd buf count => (.read, [fd, buf, count])
  | .mmap addr len prot flags fd off =>
      (.mmap, [addr, len, prot, flags, fd, off])
  | .munmap addr len => (.munmap, [addr, len])
  | .mremap oldAddr oldLen newLen flags newAddr =>
      (.mremap, [oldAddr, oldLen, newLen, flags, newAddr])
  | .setresuid ruid euid suid => (.setresuid, [ruid, euid, suid])
  | .setresgid rgid egid sgid => (.setresgid, [rgid, egid, sgid])
  | .setgroups size list => (.setgroups, [size, list])
  | .getpid => (.getpid, [])
  | .schedSetparam pid param => (.schedSetparam, [pid, param])
  | .schedGetparam pid param => (.schedGetparam, [pid, param])
  | .schedSetscheduler pid policy param =>
      (.schedSetscheduler, [pid, policy, param])
  | .schedGetscheduler pid => (.schedGetscheduler, [pid])
  | .getpriority which who => (.getpriority, [which, who])
  | .setpriority which who unice => (.setpriority, [which, who, unice])
  | .prlimit resource newLimit oldLimit =>
      (.prlimit64, [.int 0, resource, newLimit, oldLimit])
  | .exit status => (.exit, [status])
  | .execve pathname argv envp => (.execve, [pathname, argv, envp])
  | .execveat dirfd pathname argv envp flags =>
      (.execveat, [dirfd, pathname, argv, envp, flags])
  | .sigClearHandler signum act => (.rtSigaction, [signum, act, .long 0, .long 8])
  | .sigprocmask how set oldset => (.rtSigprocmask, [how, set, oldset, .long 8])

/-- `psys_mmap` refuses an offset inside a page without a system call. -/
def refused : PsysCall → Bool
  | .mmap _ _ _ _ _ off => off &&& (psysGetPagesz - 1) ≠ 0
  | _ => false

def isEpollPwait : PsysCall → Bool
  | .epollPwait .. => true
  | _ => false

/-- `psys_epoll_pwait` with a signal mask other than NULL. -/
def masked : PsysCall → Bool
  | .epollPwait _ _ _ _ sigmask => sigmask ≠ 0
  | _ => false

end PsysCall

/-! ## The kernel's side -/

/-- The system call and what the kernel reads of the argument registers. -/
def Trap.observed (trap : Trap) : SystemCall × List Argument :=
  (trap.number, List.zipWith Width.read trap.number.parameters
    (Loading.read argumentRegisters trap.number.arity trap.registers))

/-- What the kernel observes of a wrapper's call, if there is a system call. -/
def PsysCall.observed (call : PsysCall) (file : RegisterFile) :
    Option (SystemCall × List Argument) :=
  match call.perform file with
  | .done _ => none
  | .call trap _ => some trap.observed

/-- A kernel that reads no more than each call's arguments. `epoll_pwait` ignores the set size if
there is no set, and rejects a set of any size other than 8 bytes. -/
structure Kernel (State : Type) where
  answer : SystemCall × List Argument → State → UInt64 × State
  epollPwait_null : ∀ epfd events maxevents timeout (sigsetsize other : UInt64) state,
    answer (.epollPwait, [epfd, events, maxevents, timeout, .long 0, sigsetsize]) state =
      answer (.epollPwait, [epfd, events, maxevents, timeout, .long 0, other]) state
  epollPwait_rejects : ∀ epfd events maxevents timeout (sigmask sigsetsize : UInt64) state,
    sigmask ≠ 0 → sigsetsize ≠ 8 →
      answer (.epollPwait, [epfd, events, maxevents, timeout, sigmask, sigsetsize]) state =
        (-22, state)

def Kernel.enter {State : Type} (kernel : Kernel State) (state : State) (trap : Trap) :
    Option (UInt64 × State) :=
  some (kernel.answer trap.observed state)

/-- The wrapper's result and the kernel's state after a call. -/
def Kernel.effect {State : Type} (kernel : Kernel State) (call : PsysCall)
    (file : RegisterFile) (state : State) : Option (PsysResult × State) :=
  Program.execute kernel.enter (call.perform file) state

end Aspawn.Registers
