import Aspawn.CachedStack
import Aspawn.Signal

/-! `aspawn.c` with `signal/signal.c`, `create_pipe/create_pipe.c`,
`clone_internal/clone_internal.c`, `syscall/signal.c` and the two clone wrappers, as
programs over the system calls and shared variables they use. The build is the one
for x86-64 with `SYS_clone3` and without `NDEBUG`. -/

set_option autoImplicit false

namespace Aspawn

/-! ## The interface -/

/-- A `struct aspawn_child_args *`: the cached stack it points into, and its address. -/
structure ArgsPtr where
  block : Nat
  addr : UInt64
  deriving DecidableEq, Repr

/-- `struct aspawn_child_args`; `fn` and `arg` are opaque pointers. -/
structure ChildArgs where
  pipefd : Nat × Nat
  fn : Nat
  arg : Nat
  oldSigset : SigsetT
  deriving DecidableEq

inductive CancelState where
  | enable
  | disable
  deriving DecidableEq, Repr

inductive MaskHow where
  | block
  | setmask
  deriving DecidableEq, Repr

/-- The function a cloned child starts with. -/
inductive ChildEntry where
  | aspawnChild
  | aspawnChildClearSighand
  deriving DecidableEq, Repr

/-- `struct psys_clone_args`; the fields that `clone_clear_sighand_internal` sets to zero
are left out. -/
structure PsysCloneArgs where
  flags : UInt64
  exitSignal : UInt64
  stack : UInt64
  stackSize : UInt64
  deriving DecidableEq, Repr

/-- System calls, and the loads and stores that other threads and processes can see. -/
inductive SysRequest where
  | setcancelstate (state : CancelState)
  /-- `oldset` is what the object holds that receives the old mask, or NULL. -/
  | sigprocmask (how : MaskHow) (set : SigsetT) (oldset : Option SigsetT)
  | pipe2 (flags : UInt32)
  | loadStack (block : Nat)
  | storeArgs (ptr : ArgsPtr) (args : ChildArgs)
  | loadArgs (ptr : ArgsPtr)
  | loadFlag
  | storeFlag (value : Bool)
  | clone (fn : ChildEntry) (stack flags : UInt64) (arg : ArgsPtr)
  | clone3 (clArgs : PsysCloneArgs) (fn : ChildEntry) (arg : ArgsPtr)
  | storePid (pid : Int)
  | close (fd : Nat)
  | rtSigaction (signum : Nat) (act : Disposition)
  deriving DecidableEq

abbrev SysRequest.Response : SysRequest → Type
  | .setcancelstate _ => CancelState
  | .sigprocmask _ _ _ => Int × Option SigsetT
  | .pipe2 _ => Except Int (Nat × Nat)
  | .loadStack _ => StackT
  | .loadArgs _ => ChildArgs
  | .loadFlag => Bool
  | .clone _ _ _ _ => Int
  | .clone3 _ _ _ => Int
  | .close _ => Int
  | .rtSigaction _ _ => Int
  | .storeArgs _ _ => Unit
  | .storeFlag _ => Unit
  | .storePid _ => Unit

abbrev SysCalls : Signature where
  Request := SysRequest
  Response := SysRequest.Response

abbrev sysCall (request : SysRequest) : Program SysCalls request.Response :=
  @Program.perform SysCalls request

def O_CLOEXEC : UInt32 := 0x80000
def CLONE_VM : UInt64 := 0x100
def CLONE_CLEAR_SIGHAND : UInt64 := 0x100000000
def SIGCHLD : UInt64 := 17
def STACK_GROWS_DOWN : Bool := true
def HAS_CLONE_CLEAR_SIGHAND_INTERNAL : Bool := true
def NDEBUG : Bool := false

/-! ## Signals -/

def psysSigprocmask (how : MaskHow) (set : SigsetT) (oldset : Option SigsetT) :
    Program SysCalls (Int × Option SigsetT) :=
  sysCall (.sigprocmask how set oldset)

def sigBlockall (oldset : SigsetT) : Program SysCalls (Int × Option SigsetT) :=
  psysSigprocmask .block pureSigfillset (some oldset)

def sigSetmask (set : SigsetT) : Program SysCalls Int := do
  let (result, _) ← psysSigprocmask .setmask set none
  return result

def psysSigClearHandler (signum : Nat) : Program SysCalls Int :=
  sysCall (.rtSigaction signum .dfl)

def NSIG : Nat := 65

/-- The loop of `psys_sig_clearall_handler` from `sig` on, with `left` passes to go. -/
def clearHandlersFrom : Nat → Nat → Program SysCalls Unit
  | 0, _ => return ()
  | left + 1, sig => do
      let _ ← psysSigClearHandler sig
      clearHandlersFrom left (sig + 1)

def psysSigClearallHandler : Program SysCalls Unit := clearHandlersFrom (NSIG - 1) 1

/-! ## Pipe and clone -/

def createCloexecPipe : Program SysCalls (Except Int (Nat × Nat)) :=
  sysCall (.pipe2 O_CLOEXEC)

def psysClose (fd : Nat) : Program SysCalls Int := sysCall (.close fd)

/-- The macro `STACK`. -/
def stackTop (addr len : UInt64) : UInt64 := addr + if STACK_GROWS_DOWN then len else 0

def cloneInternal (fn : ChildEntry) (arg : ArgsPtr) (stack : StackT) : Program SysCalls Int :=
  sysCall (.clone fn (stackTop stack.addr stack.size) (CLONE_VM ||| SIGCHLD) arg)

def cloneClearSighandInternal (fn : ChildEntry) (arg : ArgsPtr) (stack : StackT) :
    Program SysCalls Int :=
  sysCall (.clone3
    { flags := CLONE_VM ||| CLONE_CLEAR_SIGHAND
      exitSignal := SIGCHLD
      stack := stack.addr
      stackSize := stack.size } fn arg)

/-! ## The child -/

/-- How the child's start-up code ends: in the user's `aspawn_fn`, or in `perr`. -/
inductive ChildStart where
  | fn (fn arg writeEndFd : Nat) (oldSigset : SigsetT)
  | perr (exitStatus errnoV : Int)
  deriving DecidableEq

def loadArgs (ptr : ArgsPtr) : Program SysCalls ChildArgs := sysCall (.loadArgs ptr)

def aspawnChild (args : ArgsPtr) : Program SysCalls ChildStart := do
  let ret ← psysClose (← loadArgs args).pipefd.1
  if !NDEBUG && ret < 0 then
    return .perr 1 (-ret)
  else
    let args ← loadArgs args
    return .fn args.fn args.arg args.pipefd.2 args.oldSigset

def aspawnChildClearSighand (args : ArgsPtr) : Program SysCalls ChildStart := do
  psysSigClearallHandler
  aspawnChild args

def ChildEntry.program : ChildEntry → ArgsPtr → Program SysCalls ChildStart
  | .aspawnChild => Aspawn.aspawnChild
  | .aspawnChildClearSighand => Aspawn.aspawnChildClearSighand

/-! ## The parent -/

def loadStack (block : Nat) : Program SysCalls StackT := sysCall (.loadStack block)
def storeArgs (ptr : ArgsPtr) (args : ChildArgs) : Program SysCalls Unit :=
  sysCall (.storeArgs ptr args)
def loadFlag : Program SysCalls Bool := sysCall .loadFlag
def storeFlag (value : Bool) : Program SysCalls Unit := sysCall (.storeFlag value)
def storePid (pid : Int) : Program SysCalls Unit := sysCall (.storePid pid)

/-- The `switch` on the flag `does_not_have_clone_clear_sighand_internal`. -/
def cloneChild (args : ArgsPtr) (stack : StackT) : Program SysCalls Int :=
  if !HAS_CLONE_CLEAR_SIGHAND_INTERNAL then
    cloneInternal .aspawnChildClearSighand args stack
  else do
    if ← loadFlag then
      cloneInternal .aspawnChildClearSighand args stack
    else
      let newPid ← cloneClearSighandInternal .aspawnChild args stack
      if newPid ≠ -ENOSYS ∧ newPid ≠ -EINVAL then
        return newPid
      else
        storeFlag true
        cloneInternal .aspawnChildClearSighand args stack

/-- What `aspawn_impl` does once it knows `new_pid`. -/
def finishImpl (pipefd : Nat × Nat) (newPid : Int) : Program SysCalls Int := do
  let result ←
    if newPid ≥ 0 then do
      storePid newPid
      pure (pipefd.1 : Int)
    else do
      let _ ← psysClose pipefd.1
      pure newPid
  let _ ← psysClose pipefd.2
  return result

/-- `cachedStack` names the `Stack_t` that the parameter points to; `*pid` is written
through `storePid`. -/
def aspawnImpl (cachedStack fn arg : Nat) (oldSigset : SigsetT) : Program SysCalls Int := do
  match ← createCloexecPipe with
  | .error result => return result
  | .ok pipefd =>
      let (args, stack) :=
        allocateObjOnStack STACK_GROWS_DOWN (← loadStack cachedStack) sizeofAspawnChildArgs
      let args : ArgsPtr := { block := cachedStack, addr := args }
      storeArgs args { pipefd, fn, arg, oldSigset }
      finishImpl pipefd (← cloneChild args stack)

/-- `oldset` is what the uninitialised local variable holds. -/
def aspawn (cachedStack fn arg : Nat) (oldset : SigsetT) : Program SysCalls Int := do
  let oldstate ← sysCall (.setcancelstate .disable)
  let (result, blocked) ← sigBlockall oldset
  let oldset := blocked.getD oldset
  let result ←
    if result = 0 then do
      let result ← aspawnImpl cachedStack fn arg oldset
      let _ ← sigSetmask oldset
      pure result
    else
      pure result
  let _ ← sysCall (.setcancelstate oldstate)
  return result

def aspawnRec (cachedStack fn arg : Nat) (oldSigset : SigsetT) : Program SysCalls Int :=
  aspawnImpl cachedStack fn arg oldSigset

end Aspawn
