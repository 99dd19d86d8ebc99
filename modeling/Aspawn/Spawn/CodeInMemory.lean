import Aspawn.Lib.Refinement
import Aspawn.Spawn.SharedMemory
import Aspawn.SyscallWrappers

/-! `aspawn.c` and what it calls once more, with the local variables and `*args` as bytes in
memory and every system call by the registers that it is made with. -/

set_option autoImplicit false

namespace Aspawn

namespace InMemory

open Loading Registers

/-! ## The interface -/

/-- What a thread works on; the registers are those that arguments are passed in. -/
structure Thread where
  memory : Memory UInt8
  registers : RegisterFile

/-- A system call, or a variable that other threads see. -/
inductive Ask where
  | setcancelstate (state : CancelState)
  | loadStack (block : Nat)
  | loadFlag
  | storeFlag (value : Bool)
  | storePid (pid : Int)
  | trap (trap : Trap)
  /-- The child goes on with `fn(arg)`, which `psys_clone` keeps in registers of their own. -/
  | clone (fn : ChildEntry) (arg : UInt64) (registers : RegisterFile)
  | clone3 (fn : ChildEntry) (arg : UInt64) (registers : RegisterFile)

abbrev Ask.Response : Ask → Type
  | .setcancelstate _ => CancelState
  | .loadStack _ => StackT
  | .loadFlag => Bool
  | .storeFlag _ | .storePid _ => Unit
  | .trap _ | .clone _ _ _ | .clone3 _ _ _ => UInt64

abbrev Asks : Signature where
  Request := Ask
  Response := Ask.Response

abbrev Code := StateT Thread (Program (Asks.sharing Thread))

/-- Between an `ask` and its answer everyone else goes on, and the kernel too may store to
memory. -/
def ask (request : Ask) : Code request.Response := fun thread => .call (request, thread) .done

def modifyMemory (f : Memory UInt8 → Memory UInt8) : Code Unit :=
  modify fun thread => { thread with memory := f thread.memory }

def loadInt (addr : UInt64) : Code UInt32 := do
  return UInt32.ofNat (LittleEndian.decode ((← get).memory.read addr 4))

def loadWord (addr : UInt64) : Code UInt64 := do
  return UInt64.ofNat (LittleEndian.decode ((← get).memory.read addr 8))

/-- The traps of a wrapper. -/
def trapping {α : Type} : Program TrapCalls α → Code α
  | .done value => return value
  | .call trap next => fun thread =>
      .call (.trap trap, thread) fun answer => trapping (next answer.1) answer.2

/-- Run a wrapper with what the registers hold. -/
def wrapper {α : Type} (code : RegisterFile → Program TrapCalls α) : Code α :=
  fun thread => trapping (code thread.registers) thread

/-- The addresses of local variables. -/
structure Locals where
  /-- of `sig_blockall` -/
  set : UInt64
  /-- of `aspawn` -/
  oldset : UInt64
  /-- of `aspawn_impl` -/
  pipefd : UInt64
  /-- of `clone_clear_sighand_internal` -/
  clArgs : UInt64

/-! ## Signals -/

def SIG_BLOCK : UInt32 := 0
def SIG_SETMASK : UInt32 := 2

def sigBlockall (locals : Locals) (oldset : UInt64) : Code Int := do
  modifyMemory (pureSigfillset · locals.set)
  wrapper (Registers.psysSigprocmask SIG_BLOCK locals.set oldset)

def sigSetmask (set : UInt64) : Code Int := wrapper (Registers.psysSigprocmask SIG_SETMASK set 0)

/-- `act` is the address of the local variable. -/
def psysSigClearHandler (act : UInt64) (signum : UInt32) : Code Int := do
  modifyMemory (clearedSigaction · act)
  wrapper (Registers.psysSigClearHandler signum act)

/-- The loop of `psys_sig_clearall_handler` from `sig` on, with `left` passes to go. -/
def clearHandlersFrom (act : UInt64) : Nat → UInt32 → Code Unit
  | 0, _ => return ()
  | left + 1, sig => do
      let _ ← psysSigClearHandler act sig
      clearHandlersFrom act left (sig + 1)

def psysSigClearallHandler (act : UInt64) : Code Unit :=
  clearHandlersFrom act (Aspawn.NSIG - 1) 1

/-! ## Pipe and clone -/

def createCloexecPipe (pipefd : UInt64) : Code Int := wrapper (Registers.psysPipe2 pipefd O_CLOEXEC)

/-- The parent's side. -/
def psysClone (fn : ChildEntry) (stack : UInt64) (flags : UInt32)
    (arg parentTid tls childTid : UInt64) : Code Int := do
  let file := (← get).registers
  let registers :=
    load argumentRegisters (contents [flags, stack, parentTid, childTid, tls] file) file
  return int (← ask (.clone fn arg registers))

/-- The parent's side. -/
def psysClone3 (clArgs size : UInt64) (fn : ChildEntry) (arg : UInt64) : Code Int := do
  let file := (← get).registers
  let registers := load argumentRegisters (contents [clArgs, size] file) file
  return int (← ask (.clone3 fn arg registers))

def cloneInternal (fn : ChildEntry) (arg : UInt64) (stack : StackT) : Code Int :=
  psysClone fn (stackTop stack.addr stack.size) (CLONE_VM ||| SIGCHLD).toUInt32 arg 0 0 0

/-- `sizeof(struct psys_clone_args)` -/
def sizeofPsysCloneArgs : UInt64 := 10 * 8

def cloneClearSighandInternal (locals : Locals) (fn : ChildEntry) (arg : UInt64)
    (stack : StackT) : Code Int := do
  let clArgs := [
    CLONE_VM ||| CLONE_CLEAR_SIGHAND,
    -- pidfd, child_tid, parent_tid
    0, 0, 0,
    SIGCHLD,
    stack.addr,
    stack.size,
    -- tls, set_tid, set_tid_size
    0, 0, 0]
  modifyMemory (·.write locals.clArgs (LittleEndian.encodeWords clArgs))
  psysClone3 locals.clArgs sizeofPsysCloneArgs fn arg

/-! ## The child -/

/-- How the child's start-up code ends. -/
inductive Start where
  | fn (fn arg : UInt64) (writeEndFd : UInt32) (oldSigset : UInt64)
  | perr (exitStatus errnoV : Int)
  deriving DecidableEq

def aspawnChild (args : UInt64) : Code Start := do
  let ret ← wrapper (Registers.psysClose (← loadInt args))
  if !NDEBUG && ret < 0 then
    return .perr 1 (-ret)
  else
    return .fn (← loadWord (args + 8)) (← loadWord (args + 16)) (← loadInt (args + 4)) (args + 24)

def aspawnChildClearSighand (act args : UInt64) : Code Start := do
  psysSigClearallHandler act
  aspawnChild args

/-- `act` is the address of a local variable on the child's stack. -/
def startCode (entry : ChildEntry) (act args : UInt64) : Code Start :=
  match entry with
  | .aspawnChild => aspawnChild args
  | .aspawnChildClearSighand => aspawnChildClearSighand act args

/-! ## The parent -/

/-- The `switch` on the flag `does_not_have_clone_clear_sighand_internal`. -/
def cloneChild (locals : Locals) (args : UInt64) (stack : StackT) : Code Int :=
  if !HAS_CLONE_CLEAR_SIGHAND_INTERNAL then
    cloneInternal .aspawnChildClearSighand args stack
  else do
    if ← ask .loadFlag then
      cloneInternal .aspawnChildClearSighand args stack
    else
      let newPid ← cloneClearSighandInternal locals .aspawnChild args stack
      if newPid ≠ -ENOSYS ∧ newPid ≠ -EINVAL then
        return newPid
      else
        ask (.storeFlag true)
        cloneInternal .aspawnChildClearSighand args stack

/-- What `aspawn_impl` does once it knows `new_pid`. -/
def finishImpl (locals : Locals) (newPid : Int) : Code Int := do
  let result ←
    if newPid ≥ 0 then do
      ask (.storePid newPid)
      let readEnd ← loadInt locals.pipefd
      pure readEnd.toInt32.toInt
    else do
      let _ ← wrapper (Registers.psysClose (← loadInt locals.pipefd))
      pure newPid
  let _ ← wrapper (Registers.psysClose (← loadInt (locals.pipefd + 4)))
  return result

/-- `fn`, `arg` and `oldSigset` are pointers. -/
def aspawnImpl (locals : Locals) (cachedStack : Nat) (fn arg oldSigset : UInt64) :
    Code Int := do
  let result ← createCloexecPipe locals.pipefd
  if result < 0 then
    return result
  else
    let (args, stack) :=
      allocateObjOnStack STACK_GROWS_DOWN (← ask (.loadStack cachedStack)) sizeofAspawnChildArgs
    let readEnd ← loadInt locals.pipefd
    let writeEnd ← loadInt (locals.pipefd + 4)
    modifyMemory (storeChildArgs · args (readEnd.toNat, writeEnd.toNat) fn.toNat arg.toNat
      oldSigset)
    let newPid ← cloneChild locals args stack
    finishImpl locals newPid

def aspawn (locals : Locals) (cachedStack : Nat) (fn arg : UInt64) : Code Int := do
  let oldstate ← ask (.setcancelstate .disable)
  let result ← sigBlockall locals locals.oldset
  let result ←
    if result = 0 then do
      let result ← aspawnImpl locals cachedStack fn arg locals.oldset
      let _ ← sigSetmask locals.oldset
      pure result
    else
      pure result
  let _ ← ask (.setcancelstate oldstate)
  return result

def aspawnRec (locals : Locals) (cachedStack : Nat) (fn arg oldSigset : UInt64) : Code Int :=
  aspawnImpl locals cachedStack fn arg oldSigset

/-! ## What the environment finds and leaves -/

/-- The arguments in `rdi` and so on, as the kernel reads an `int`. -/
def Trap.arg (trap : Trap) (register : Register) : UInt32 := (trap.registers register).toUInt32

/-- The kernel's constant. -/
def MaskHow.code : MaskHow → UInt32
  | .block => SIG_BLOCK
  | .setmask => SIG_SETMASK

/-- The object at the address, unless that is NULL. -/
def sigsetAt (memory : Memory UInt8) (set : UInt64) : Option SigsetT :=
  if set = 0 then none else some (loadSigset memory set)

def PsysCloneArgs.words (args : PsysCloneArgs) : List UInt64 :=
  [args.flags, 0, 0, 0, args.exitSignal, args.stack, args.stackSize, 0, 0, 0]

/-- The request that the kernel reads from the registers and from memory. -/
def Trap.Requests (trap : Trap) (memory : Memory UInt8) (request : SysRequest) : Prop :=
  match trap.number, request with
  | .rtSigprocmask, .sigprocmask how set oldset =>
      Trap.arg trap .rdi = MaskHow.code how ∧ trap.registers .rsi ≠ 0 ∧
        Sigmask.read set =
          BitVec.ofNat 64 (LittleEndian.decode (memory.read (trap.registers .rsi) 8)) ∧
        oldset = sigsetAt memory (trap.registers .rdx) ∧ trap.registers .r10 = 8
  | .pipe2, .pipe2 flags => Trap.arg trap .rsi = flags
  | .close, .close fd => (Trap.arg trap .rdi).toNat = fd
  | .rtSigaction, .rtSigaction signum act =>
      (Trap.arg trap .rdi).toNat = signum ∧ trap.registers .rsi ≠ 0 ∧
        (loadKernelSigaction memory (trap.registers .rsi)).disposition = act ∧
        trap.registers .rdx = 0 ∧ trap.registers .r10 = 8
  | _, _ => False

/-- The start function's argument points to what was placed. -/
def Points (placed : Option ChildArgs) (memory : Memory UInt8) (arg : UInt64) (ptr : ArgsPtr) :
    Prop :=
  ptr.addr = arg ∧ ∃ args, placed = some args ∧ memory.read arg 152 = args.encode

def Ask.Requests (placed : Option ChildArgs) : Ask → Thread → SysRequest → Prop
  | .setcancelstate state, _, .setcancelstate other => other = state
  | .loadStack block, _, .loadStack other => other = block
  | .loadFlag, _, .loadFlag => True
  | .storeFlag value, _, .storeFlag other => other = value
  | .storePid pid, _, .storePid other => other = pid
  | .trap made, thread, request => Trap.Requests made thread.memory request
  | .clone fn arg registers, thread, .clone entry stack flags ptr =>
      entry = fn ∧ (registers .rdi).toUInt32.toUInt64 = flags ∧ registers .rsi = stack ∧
        registers .rdx = 0 ∧ registers .r10 = 0 ∧ registers .r8 = 0 ∧
        Points placed thread.memory arg ptr
  | .clone3 fn arg registers, thread, .clone3 clArgs entry ptr =>
      entry = fn ∧ registers .rsi = sizeofPsysCloneArgs ∧
        LittleEndian.readWords thread.memory (registers .rdi) 10 = PsysCloneArgs.words clArgs ∧
        Points placed thread.memory arg ptr
  | _, _, _ => False

/-- The descriptors that `pipe2` has stored. -/
def pipefdAt (memory : Memory UInt8) (pipefd : UInt64) : Nat × Nat :=
  (LittleEndian.decode (memory.read pipefd 4), LittleEndian.decode (memory.read (pipefd + 4) 4))

def Ask.Answers : (ask : Ask) → ask.Response → Thread → (request : SysRequest) →
    request.Response → Prop
  | .setcancelstate _, old, _, .setcancelstate _, response => response = old
  | .loadStack _, stack, _, .loadStack _, response => response = stack
  | .loadFlag, flag, _, .loadFlag, response => response = flag
  | .storeFlag _, _, _, .storeFlag _, _ | .storePid _, _, _, .storePid _, _ => True
  | .trap made, result, later, .sigprocmask _ _ _, response =>
      response = (int result, sigsetAt later.memory (made.registers .rdx))
  | .trap made, result, later, .pipe2 _, response =>
      response = if int result < 0 then .error (int result)
        else .ok (pipefdAt later.memory (made.registers .rdi))
  | .trap _, result, _, .close _, response => response = int result
  | .trap _, result, _, .rtSigaction _ _, response => response = int result
  | .clone _ _ _, result, _, .clone _ _ _ _, response => response = int result
  | .clone3 _ _ _, result, _, .clone3 _ _ _, response => response = int result
  | _, _, _, _, _ => False

/-- Storing and loading `*args` concerns memory only. -/
def Settles (thread : Thread) : (request : SysRequest) → request.Response → Prop
  | .storeArgs ptr args, _ => thread.memory.read ptr.addr 152 = args.encode
  | .loadArgs ptr, args => loadChildArgs thread.memory ptr.addr = args
  | _, _ => False

/-- The arguments that a call has placed. -/
def placedAfter (placed : Option ChildArgs) : (request : SysRequest) → request.Response →
    Option ChildArgs
  | .storeArgs _ args, _ => some args
  | _, _ => placed

/-- Where a call keeps what it needs: the object that `old_sigset` points to, `pipefd`, and
the place of `*args`. -/
structure Frame extends Locals where
  args : UInt64
  oldSigset : UInt64
  given : set ≠ 0 ∧ oldSigset ≠ 0
  set_apart : ∀ place, Memory.Covers oldSigset 128 place → ¬ Memory.Covers set 128 place
  pipefd_apart : ∀ place, Memory.Covers oldSigset 128 place → ¬ Memory.Covers pipefd 8 place
  args_apart : ∀ place, Memory.Covers args 152 place → ¬ Memory.Covers oldSigset 128 place ∧
    ¬ Memory.Covers pipefd 8 place ∧ ¬ Memory.Covers clArgs 80 place
  clArgs_apart : ∀ place, Memory.Covers clArgs 80 place → ¬ Memory.Covers oldSigset 128 place ∧
    ¬ Memory.Covers pipefd 8 place

/-- What the kernel stores to on request. -/
def Ask.Stores (ask : Ask) (place : UInt64) : Prop :=
  match ask with
  | .trap made =>
      (made.number = .rtSigprocmask ∧ Memory.Covers (made.registers .rdx) 8 place) ∨
        (made.number = .pipe2 ∧ Memory.Covers (made.registers .rdi) 8 place)
  | _ => False

/-- No child has been made that may use the arguments. -/
def Ask.childless : (ask : Ask) → ask.Response → Prop
  | .loadFlag, _ | .storeFlag _, _ => True
  | .clone3 _ _ _, result => int result < 0
  | _, _ => False

def Ask.foundStack : (ask : Ask) → ask.Response → Option StackT
  | .loadStack _, stack => some stack
  | _, _ => none

/-- The descriptors of a pipe that was made. -/
def Ask.foundPipe : (ask : Ask) → ask.Response → Thread → Option (Nat × Nat)
  | .trap made, result, later =>
      if made.number = .pipe2 ∧ 0 ≤ int result then
        some (pipefdAt later.memory (made.registers .rdi))
      else none
  | _, _, _ => none

/-- What the call counts on: apart from what the kernel stores on request, its local variables
are left alone, and so are the arguments while there is no child; `Stack_t` is the one that
the arguments are to be placed on; and descriptors are not negative. -/
structure Frame.Lawful (frame : Frame) (ask : Ask) (before : Thread) (answer : ask.Response)
    (later : Thread) : Prop where
  locals : ∀ place,
    Memory.Covers frame.oldSigset 128 place ∨ Memory.Covers frame.pipefd 8 place →
    ¬ ask.Stores place → later.memory place = before.memory place
  arguments : ask.childless answer → ∀ place, Memory.Covers frame.args 152 place →
    later.memory place = before.memory place
  stack : ∀ stack, ask.foundStack answer = some stack → argsAddr stack = frame.args
  descriptors : ∀ pipefd, ask.foundPipe answer later = some pipefd → pipefd.1 < 2 ^ 31

/-- The code in memory against the code of the system, in an environment that answers so. -/
def coupling (lawful : (ask : Ask) → Thread → ask.Response → Thread → Prop) :
    Coupling Asks SysCalls Thread (Option ChildArgs) where
  lawful := lawful
  asks := fun placed ask thread request => ask.Requests placed thread request
  answers := fun ask _ answer later request response => ask.Answers answer later request response
  settles := Settles
  after := placedAfter

end InMemory

end Aspawn
