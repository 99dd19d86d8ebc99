import Aspawn.Lib.Transition
import Aspawn.Spawn.Protocol
import Mathlib.Logic.Function.Basic

/-! The system around the spawn code: a root process with any number of threads that
call `aspawn`, the processes cloned by these calls, which may call `aspawn_rec`, and
the part of the kernel that they work on. Processes, calls and pipes are numbered in the
order in which they are made. Process 0 is the root; every other process has a single
thread, number 0. -/

set_option autoImplicit false

namespace Aspawn

structure TaskId where
  proc : Nat
  thread : Nat
  deriving DecidableEq, Repr

/-- The only thread of a cloned process. -/
def mainTask (proc : Nat) : TaskId where
  proc := proc
  thread := 0

/-! ## Descriptors -/

inductive FileRef where
  | readEnd (pipe : Nat)
  | writeEnd (pipe : Nat)
  | other (file : Nat)
  deriving DecidableEq, Repr

def FileRef.pipe : FileRef → Option Nat
  | .readEnd pipe | .writeEnd pipe => some pipe
  | .other _ => none

structure FdEntry where
  file : FileRef
  cloexec : Bool
  deriving DecidableEq, Repr

abbrev FdTable := Nat → Option FdEntry

namespace FdTable

def empty : FdTable := fun _ => none

def afterExec (table : FdTable) : FdTable :=
  fun fd => (table fd).filter fun entry => !entry.cloexec

/-- Some descriptor refers to this file. -/
def Holds (table : FdTable) (file : FileRef) : Prop :=
  ∃ fd entry, table fd = some entry ∧ entry.file = file

end FdTable

/-! ## The state -/

inductive Phase where
  | unborn
  /-- Born and neither past a successful `execve` nor exited. -/
  | live
  | execed
  | exited
  deriving DecidableEq, Repr

/-- What a thread is doing. -/
inductive Control where
  | absent
  /-- The root's own code, or the user's function in a child. -/
  | user
  | inCall (call : Nat) (rest : Program SysCalls Int)
  /-- A child before it enters the user's function. -/
  | starting (progress : ChildProgress) (rest : Program SysCalls ChildStart)

def Control.isPresent : Control → Bool
  | .absent => false
  | _ => true

def Control.isStarting : Control → Bool
  | .starting _ _ => true
  | _ => false

theorem Control.of_isStarting {control : Control} (starting : control.isStarting) :
    ∃ progress rest, control = .starting progress rest := by
  cases control with
  | starting progress rest => exact ⟨progress, rest, rfl⟩
  | _ => cases starting

/-- The call that is about to return, and its result. -/
def Control.returning : Control → Option (Nat × Int)
  | .inCall call (.done result) => some (call, result)
  | _ => none

theorem Control.of_returning {control : Control} {call : Nat} {result : Int}
    (returning : control.returning = some (call, result)) :
    control = .inCall call (.done result) := by
  unfold Control.returning at returning
  split at returning
  · cases returning
    rfl
  · cases returning

structure Birth where
  call : Nat
  /-- The argument of the child's start function. -/
  args : ArgsPtr
  stackPointer : UInt64
  exitSignal : UInt64
  /-- The write ends given to the process or inherited by it, with the calls they are of. -/
  inherited : List (Nat × Nat)
  /-- The calls whose write end was open in the parent at the time. -/
  windows : List Nat

structure CallRecord where
  caller : TaskId
  kind : CallKind
  block : Nat
  /-- `*cached_stack` at the time of the call. -/
  stack : StackT
  start : Progress
  progress : Progress
  returned : Option Int

structure System where
  control : TaskId → Control
  phase : Nat → Phase
  fds : Nat → FdTable
  actions : Nat → SigTable
  pending : Nat → Signal → Bool
  mask : TaskId → Sigmask
  cancel : TaskId → CancelState
  birth : Nat → Option Birth
  /-- The `Stack_t` variables of the callers. -/
  cachedStacks : Nat → StackT
  /-- The `aspawn_child_args` last placed on each cached stack. -/
  args : Nat → ChildArgs
  /-- `does_not_have_clone_clear_sighand_internal` -/
  flag : Bool
  calls : Nat → Option CallRecord
  /-- The pipe that a call has made. -/
  pipeOf : Nat → Option Nat
  /-- The handlers that signals have invoked, with the process they ran in. -/
  handled : List (Nat × Nat)
  nextProc : Nat
  nextPipe : Nat
  nextCall : Nat

namespace System

/-- A root process before its first call. -/
structure Initial (system : System) : Prop where
  nextCall : system.nextCall = 0
  nextProc : system.nextProc = 1
  calls : ∀ call, system.calls call = none
  pipeOf : ∀ call, system.pipeOf call = none
  root : system.phase 0 = .live
  others : ∀ proc, proc ≠ 0 → system.phase proc = .unborn ∧ system.fds proc = .empty
  birth : ∀ proc, system.birth proc = none
  threads : ∀ task, system.control task = if task.proc = 0 then .user else .absent
  pipes : ∀ fd entry pipe, system.fds 0 fd = some entry → entry.file.pipe = some pipe →
    pipe < system.nextPipe
  handled : system.handled = []

/-- Every `Stack_t` as `reserve_stack(stack, 0, 0)` leaves it, each mapped at its own place. -/
def reservedStacks (block : Nat) : StackT where
  addr := 0x7f0000000000 + UInt64.ofNat (block * 0x100000)
  size := 36864

/-- The root process with its standard streams open, no signal blocked and no thread canceled. -/
def boot (actions : SigTable) (cachedStacks : Nat → StackT) : System where
  control task := if task.proc = 0 then .user else .absent
  phase proc := if proc = 0 then .live else .unborn
  fds proc fd := if proc = 0 ∧ fd < 3 then some { file := .other fd, cloexec := false } else none
  actions _ := actions
  pending _ _ := false
  mask _ := .ofBits 0
  cancel _ := .enable
  birth _ := none
  cachedStacks := cachedStacks
  args _ := { pipefd := (0, 0), fn := 0, arg := 0, oldSigset := 0 }
  flag := false
  calls _ := none
  pipeOf _ := none
  handled := []
  nextProc := 1
  nextPipe := 0
  nextCall := 0

theorem boot_initial {actions : SigTable} {cachedStacks : Nat → StackT} :
    (boot actions cachedStacks).Initial where
  nextCall := rfl
  nextProc := rfl
  calls _ := rfl
  pipeOf _ := rfl
  root := rfl
  others _ child := ⟨if_neg child, funext fun _ => if_neg fun root => child root.1⟩
  birth _ := rfl
  threads _ := rfl
  pipes fd entry pipe held isPipe := by
    obtain ⟨_, stream⟩ := Option.ite_none_right_eq_some.mp held
    cases stream
    cases isPipe
  handled := rfl

/-! ## The kernel -/

/-- How the kernel decides a request that may fail. -/
inductive Choice where
  | ok
  | fail (errno : Errno)
  | fds (read write : Nat)

def inheritedOf (system : System) (proc : Nat) : List (Nat × Nat) :=
  match system.birth proc with
  | none => []
  | some birth => birth.inherited

/-- The calls of a process whose write end is open. -/
def openWindows (system : System) (proc : Nat) : List Nat :=
  (List.range system.nextCall).filter fun call =>
    match system.calls call with
    | none => false
    | some record => record.caller.proc = proc && record.progress.writeOpen

/-- The write end of a call, as the new child is given it. -/
def givenWriteEnd (system : System) (call : Nat) : List (Nat × Nat) :=
  match system.calls call with
  | none => []
  | some record =>
      match record.progress.pipefd with
      | none => []
      | some pipefd => [(call, pipefd.2)]

/-- `clone` without `CLONE_FILES` and `CLONE_SIGHAND`. -/
def spawn (system : System) (task : TaskId) (call : Nat) (entry : ChildEntry)
    (ptr : ArgsPtr) (stackPointer exitSignal : UInt64) (clearSighand : Bool) : System :=
  let child := system.nextProc
  let actions := system.actions task.proc
  { system with
    nextProc := child + 1
    phase := Function.update system.phase child .live
    fds := Function.update system.fds child (system.fds task.proc)
    actions := Function.update system.actions child
      (if clearSighand then actions.clearHandlers else actions)
    pending := Function.update system.pending child fun _ => false
    mask := Function.update system.mask (mainTask child) (system.mask task)
    birth := Function.update system.birth child (some {
      call
      args := ptr
      stackPointer
      exitSignal
      inherited := system.givenWriteEnd call ++ system.inheritedOf task.proc
      windows := system.openWindows task.proc })
    control := Function.update system.control (mainTask child)
      (.starting entry.progress (entry.program ptr)) }

/-- Install one entry, or remove it. -/
def setFd (system : System) (proc : Nat) (fd : Nat) (entry : Option FdEntry) : System :=
  { system with
    fds := Function.update system.fds proc (Function.update (system.fds proc) fd entry) }

/-- A pipe at the descriptors `read` and `write`. -/
def openPipe (system : System) (proc : Nat) (call : Nat) (read write : Nat)
    (cloexec : Bool) : System :=
  let pipe := system.nextPipe
  let opened := (system.setFd proc read (some { file := .readEnd pipe, cloexec })).setFd proc
    write (some { file := .writeEnd pipe, cloexec })
  { opened with
    nextPipe := pipe + 1
    pipeOf := Function.update system.pipeOf call (some pipe) }

/-- The answer to a request that a thread makes on behalf of a call, and its effect.
`none` where the kernel could not answer so. -/
def handle (system : System) (task : TaskId) (call : Nat) (choice : Choice) :
    (request : SysRequest) → Option (request.Response × System)
  | .setcancelstate state =>
      some (system.cancel task,
        { system with cancel := Function.update system.cancel task state })
  | .sigprocmask how set oldset =>
      match choice with
      | .ok => some ((0, oldset.map (system.mask task).write), { system with
          mask := Function.update system.mask task (how.apply set (system.mask task)) })
      -- restoring a mask that the kernel wrote itself does not fail
      | .fail errno => if how = .block then some ((-errno.value, oldset), system) else none
      | .fds _ _ => none
  | .pipe2 flags =>
      match choice with
      | .ok => none
      | .fail errno => some (.error (-errno.value), system)
      | .fds read write =>
          if read ≠ write ∧ system.fds task.proc read = none ∧
              system.fds task.proc write = none then
            some (.ok (read, write),
              system.openPipe task.proc call read write (flags &&& O_CLOEXEC ≠ 0))
          else none
  | .loadStack block => some (system.cachedStacks block, system)
  | .storeArgs ptr args =>
      some ((), { system with args := Function.update system.args ptr.block args })
  | .loadArgs ptr => some (system.args ptr.block, system)
  | .loadFlag => some (system.flag, system)
  | .storeFlag flag => some ((), { system with flag })
  | .clone fn stack flags ptr =>
      match choice with
      | .ok =>
          if flags &&& ~~~0xff = CLONE_VM then
            some (system.nextProc,
              system.spawn task call fn ptr stack (flags &&& 0xff) false)
          else none
      | .fail errno => some (-errno.value, system)
      | .fds _ _ => none
  | .clone3 clArgs fn ptr =>
      match choice with
      | .ok =>
          if clArgs.flags &&& ~~~CLONE_CLEAR_SIGHAND = CLONE_VM then
            some (system.nextProc,
              system.spawn task call fn ptr (clArgs.stack + clArgs.stackSize)
                clArgs.exitSignal (clArgs.flags &&& CLONE_CLEAR_SIGHAND ≠ 0))
          else none
      | .fail errno => some (-errno.value, system)
      | .fds _ _ => none
  -- the variable is part of the call's progress
  | .storePid _ => some ((), system)
  | .close fd =>
      match system.fds task.proc fd, choice with
      | none, .ok => some (-EBADF, system)
      -- the descriptor is released even if closing reports an error
      | some _, .ok => some (0, system.setFd task.proc fd none)
      | some _, .fail errno => some (-errno.value, system.setFd task.proc fd none)
      | _, _ => none
  | .rtSigaction signum act =>
      if inside : 0 < signum ∧ signum - 1 < 64 then
        let signal : Signal := ⟨signum - 1, inside.2⟩
        if signal = SIGKILL ∨ signal = SIGSTOP then some (-EINVAL, system)
        else some (0, { system with
          actions := Function.update system.actions task.proc
            ((system.actions task.proc).set signal act) })
      else some (-EINVAL, system)

/-! ## Steps -/

/-- What user code does between calls, and a child in the user's function. -/
inductive UserOp where
  | close (fd : Nat)
  | open (fd file : Nat) (cloexec : Bool)
  | dup (old new : Nat) (cloexec : Bool)
  | setMask (mask : Sigmask)
  | setAction (signal : Signal) (disposition : Disposition)
  | setCancel (state : CancelState)
  | setStack (block : Nat) (stack : StackT)

inductive Action where
  /-- The next request of a thread inside a call, or of a starting child. -/
  | code (task : TaskId) (choice : Choice)
  | aspawn (task : TaskId) (block fn arg : Nat) (pid : Int) (oldset : SigsetT)
  | aspawnRec (proc : Nat) (block fn arg : Nat) (pid : Int) (oldSigset : SigsetT)
  | finish (task : TaskId)
  /-- A starting child enters the user's function, or exits from `perr`. -/
  | enter (proc : Nat)
  | user (task : TaskId) (op : UserOp)
  | execve (proc : Nat)
  | exit (proc : Nat)
  | raise (proc : Nat) (signal : Signal)
  | deliver (task : TaskId) (signal : Signal)

/-- A thread goes through its code while the kernel decides so. -/
def Action.codes (task : TaskId) (choices : List Choice) : List Action :=
  choices.map (.code task)

def userStep (system : System) (task : TaskId) : UserOp → Option System
  | .close fd => some (system.setFd task.proc fd none)
  | .open fd file cloexec =>
      if system.fds task.proc fd = none then
        some (system.setFd task.proc fd (some { file := .other file, cloexec }))
      else none
  | .dup old new cloexec =>
      match system.fds task.proc old with
      | none => none
      | some entry => some (system.setFd task.proc new (some { entry with cloexec }))
  | .setMask mask =>
      some { system with mask := Function.update system.mask task mask }
  | .setAction signal disposition =>
      some { system with
        actions := Function.update system.actions task.proc
          ((system.actions task.proc).set signal disposition) }
  | .setCancel state =>
      some { system with cancel := Function.update system.cancel task state }
  | .setStack block stack =>
      some { system with cachedStacks := Function.update system.cachedStacks block stack }

/-- Start the code of a call in a thread. -/
def startCall (system : System) (task : TaskId) (kind : CallKind) (block : Nat) (pid : Int)
    (code : Program SysCalls Int) : System :=
  let start := Progress.start (system.cancel task) (system.mask task) pid
  { system with
    nextCall := system.nextCall + 1
    calls := Function.update system.calls system.nextCall (some {
      caller := task
      kind
      block
      stack := system.cachedStacks block
      start
      progress := start
      returned := none })
    control := Function.update system.control task (.inCall system.nextCall code) }

/-- The process is gone for good, with the given remaining descriptors. -/
def leave (system : System) (proc : Nat) (phase : Phase) (table : FdTable) : System :=
  { system with
    phase := Function.update system.phase proc phase
    fds := Function.update system.fds proc table
    control := Function.update system.control (mainTask proc) .absent }

def setControl (system : System) (task : TaskId) (control : Control) : System :=
  { system with control := Function.update system.control task control }

def setCall (system : System) (call : Nat) (record : CallRecord) : System :=
  { system with calls := Function.update system.calls call (some record) }

def step (system : System) : Action → Option System
  | .code task choice =>
      match system.control task with
      | .inCall call (.call request next) =>
          match system.calls call, system.handle task call choice request with
          | some record, some (response, after) =>
              let progress := (callProtocol record.kind record.block).after record.progress
                request response
              some ((after.setCall call { record with progress }).setControl task
                (.inCall call (next response)))
          | _, _ => none
      | .starting progress (.call request next) =>
          match system.birth task.proc with
          | none => none
          | some birth =>
              match system.handle task birth.call choice request with
              | none => none
              | some (response, after) =>
                  let progress := (childProtocol birth.args).after progress request response
                  some (after.setControl task (.starting progress (next response)))
      | _ => none
  | .aspawn task block fn arg pid oldset =>
      match system.control task with
      | .user =>
          if task.proc = 0 then
            some (system.startCall task .aspawn block pid (Aspawn.aspawn block fn arg oldset))
          else none
      | _ => none
  | .aspawnRec proc block fn arg pid oldSigset =>
      match system.control (mainTask proc) with
      | .user =>
          if proc ≠ 0 then
            some (system.startCall (mainTask proc) .aspawnRec block pid
              (Aspawn.aspawnRec block fn arg oldSigset))
          else none
      | _ => none
  | .finish task =>
      match system.control task with
      | .inCall call (.done result) =>
          match system.calls call with
          | none => none
          | some record =>
              some ((system.setCall call { record with returned := some result }).setControl
                task .user)
      | _ => none
  | .enter proc =>
      match system.control (mainTask proc) with
      | .starting _ (.done (.fn _ _ _ _)) => some (system.setControl (mainTask proc) .user)
      | .starting _ (.done (.perr _ _)) => some (system.leave proc .exited .empty)
      | _ => none
  | .user task op =>
      match system.control task with
      | .user => system.userStep task op
      | _ => none
  | .execve proc =>
      match system.control (mainTask proc) with
      | .user =>
          if proc ≠ 0 then some (system.leave proc .execed (system.fds proc).afterExec)
          else none
      | _ => none
  | .exit proc =>
      if proc ≠ 0 ∧ system.phase proc = .live then
        some (system.leave proc .exited .empty)
      else none
  | .raise proc signal =>
      some { system with
        pending := Function.update system.pending proc
          (Function.update (system.pending proc) signal true) }
  | .deliver task signal =>
      if (system.control task).isPresent ∧ system.pending task.proc signal ∧
          ¬ (system.mask task).blocks signal then
        some { system with
          pending := Function.update system.pending task.proc
            (Function.update (system.pending task.proc) signal false)
          handled :=
            match (system.actions task.proc).get signal with
            | .handler function => (task.proc, function) :: system.handled
            | _ => system.handled }
      else none

end System

end Aspawn
