import Aspawn.Spawn.SystemSteps

/-! The two ways in which `aspawn_impl` makes a child, compared by the state in which the
child enters the user's function. On the fast path the kernel clears the handlers
(`clone_clear_sighand_internal` with `aspawn_child`), on the fallback path the child does
(`clone_internal` with `aspawn_child_clear_sighand`). -/

set_option autoImplicit false

namespace Aspawn

namespace SigTable

/-- `SIG_DFL` for the signal numbers from `signum` on, `count` of them. -/
def reset (table : SigTable) (signum count : Nat) : SigTable where
  get signal := if signum ≤ signal.val + 1 ∧ signal.val + 1 < signum + count then .dfl
    else table.get signal
  kill := by rw [table.kill, ite_self]
  stop := by rw [table.stop, ite_self]

variable {table : SigTable}

@[simp] theorem reset_zero {signum : Nat} : table.reset signum 0 = table := by
  ext signal
  simp only [reset]
  rw [if_neg (by omega)]

theorem reset_reset {signum count : Nat} :
    (table.reset signum 1).reset (signum + 1) count = table.reset signum (count + 1) := by
  ext signal
  simp only [reset]
  split
  · rw [if_pos (by omega)]
  · split
    · rw [if_pos (by omega)]
    · rw [if_neg (by omega)]

@[simp] theorem reset_all : table.reset 1 64 = default := by
  ext signal
  exact if_pos (by omega)

theorem set_dfl (table : SigTable) (signal : Signal) :
    table.set signal .dfl = table.reset (signal.val + 1) 1 := by
  ext other
  simp only [reset, set]
  by_cases same : other = signal
  · cases same
    rw [if_pos (by omega : signal.val + 1 ≤ signal.val + 1 ∧
      signal.val + 1 < signal.val + 1 + 1)]
    by_cases kill : signal = SIGKILL
    · rw [kill, table.kill, ite_self]
    · by_cases stop : signal = SIGSTOP
      · rw [stop, table.stop, ite_self]
      · rw [if_pos ⟨rfl, kill, stop⟩]
  · have apart : ¬ (signal.val + 1 ≤ other.val + 1 ∧ other.val + 1 < signal.val + 1 + 1) :=
      fun both => same (Fin.ext (by omega))
    rw [if_neg apart, if_neg (fun both => same both.1)]

theorem set_unsettable {signal : Signal} {disposition : Disposition}
    (unsettable : signal = SIGKILL ∨ signal = SIGSTOP) :
    table.set signal disposition = table := by
  ext other
  refine if_neg fun changed => ?_
  cases unsettable with
  | inl kill => exact changed.2.1 (changed.1.trans kill)
  | inr stop => exact changed.2.2 (changed.1.trans stop)

theorem reset_outside {signum : Nat} (outside : ¬ (0 < signum ∧ signum - 1 < 64)) :
    table.reset signum 1 = table := by
  ext signal
  exact if_neg (by omega)

/-- The kernel leaves ignored signals ignored. -/
theorem clearHandlers_eq_default_iff :
    table.clearHandlers = default ↔ ∀ signal, table.get signal ≠ .ign := by
  constructor
  · intro cleared signal ignored
    have kept : table.clearHandlers.get signal = .ign := by
      simp only [clearHandlers, ignored]
      rfl
    rw [cleared] at kept
    cases kept
  · intro noIgnored
    ext signal
    simp only [clearHandlers, default]
    cases disposition : table.get signal with
    | dfl => rfl
    | ign => exact absurd disposition (noIgnored signal)
    | handler function => rfl

end SigTable

namespace System

/-! ## The entry of the user's function -/

/-- What the user's function finds. -/
structure Entry where
  actions : SigTable
  mask : Sigmask
  stackPointer : UInt64
  exitSignal : UInt64
  fds : FdTable
  /-- The function with its arguments. -/
  start : ChildStart

/-- A thread that runs alone. The kernel puts a pipe at the given descriptors, decides on
`clone3` as told and refuses nothing else. -/
def alone (task : TaskId) (call : Nat) (pipefd : Nat × Nat) (clone3 : Choice)
    (system : System) (request : SysRequest) : Option (request.Response × System) :=
  let choice :=
    match request with
    | .pipe2 _ => .fds pipefd.1 pipefd.2
    | .clone3 _ _ _ => clone3
    | _ => .ok
  system.handle task call choice request

/-- The new child goes from its start to the user's function. -/
def enterChild (system : System) (child call : Nat) (pipefd : Nat × Nat) (clone3 : Choice) :
    Option Entry :=
  match system.control (mainTask child), system.birth child with
  | .starting _ code, some birth =>
      match code.execute (alone (mainTask child) call pipefd clone3) system with
      | some (.fn fn arg writeEndFd oldSigset, entered) => some {
          actions := entered.actions child
          mask := entered.mask (mainTask child)
          stackPointer := birth.stackPointer
          exitSignal := birth.exitSignal
          fds := entered.fds child
          start := .fn fn arg writeEndFd oldSigset }
      | _ => none
  | _, _ => none

/-- How the child of a call enters the user's function. -/
def childEntry (system : System) (task : TaskId) (call block fn arg : Nat)
    (oldSigset : SigsetT) (pipefd : Nat × Nat) (clone3 : Choice) : Option Entry := do
  let (_, spawned) ←
    (aspawnImpl block fn arg oldSigset).execute (alone task call pipefd clone3) system
  spawned.enterChild system.nextProc call pipefd clone3

/-- What the kernel gives to a call is new: two descriptors for the pipe, and a process. -/
structure Fresh (system : System) (task : TaskId) (pipefd : Nat × Nat) : Prop where
  distinct : pipefd.1 ≠ pipefd.2
  readFree : system.fds task.proc pipefd.1 = none
  writeFree : system.fds task.proc pipefd.2 = none
  caller : task.proc ≠ system.nextProc

section

variable {system : System} {task : TaskId} {call block fn arg fd : Nat}
  {oldSigset : SigsetT} {pipefd : Nat × Nat} {clone3 : Choice} {stackPointer exitSignal : UInt64}

/-! ## The parent -/

theorem Fresh.withFlag (fresh : system.Fresh task pipefd) (flag : Bool) :
    { system with flag }.Fresh task pipefd where
  distinct := fresh.distinct
  readFree := fresh.readFree
  writeFree := fresh.writeFree
  caller := fresh.caller

theorem alone_pipe2 (fresh : system.Fresh task pipefd) :
    alone task call pipefd clone3 system (.pipe2 O_CLOEXEC) =
      some (.ok pipefd, system.openPipe task.proc call pipefd.1 pipefd.2 true) :=
  if_pos ⟨fresh.distinct, fresh.readFree, fresh.writeFree⟩

theorem alone_close {entry : FdEntry} (held : system.fds task.proc fd = some entry) :
    alone task call pipefd clone3 system (.close fd) =
      some (0, system.setFd task.proc fd none) := by
  simp only [alone, handle, held]

/-- The state in which `aspawn_impl` clones: its pipe is open and its arguments are placed. -/
def placed (system : System) (task : TaskId) (call block : Nat) (args : ChildArgs) : System :=
  { system.openPipe task.proc call args.pipefd.1 args.pipefd.2 true with
    args := Function.update system.args block args }

/-- `aspawn_impl` up to the `switch`. -/
theorem execute_aspawnImpl (fresh : system.Fresh task pipefd) :
    (aspawnImpl block fn arg oldSigset).execute (alone task call pipefd clone3) system =
      (cloneChild
        { block, addr := (allocateObjOnStack STACK_GROWS_DOWN (system.cachedStacks block)
          sizeofAspawnChildArgs).1 }
        (allocateObjOnStack STACK_GROWS_DOWN (system.cachedStacks block)
          sizeofAspawnChildArgs).2 >>= finishImpl pipefd).execute
        (alone task call pipefd clone3)
        (system.placed task call block { pipefd, fn, arg, oldSigset }) := by
  unfold aspawnImpl
  refine (Program.execute_call (alone_pipe2 fresh)).trans ?_
  refine (Program.execute_call rfl).trans ?_
  exact Program.execute_call rfl

theorem execute_finishImpl {ends : Nat × Nat} {entry : FdEntry} {newPid : Int}
    (born : 0 ≤ newPid) (held : system.fds task.proc ends.2 = some entry) :
    (finishImpl ends newPid).execute (alone task call pipefd clone3) system =
      some ((ends.1 : Int), system.setFd task.proc ends.2 none) := by
  unfold finishImpl
  rw [if_pos born]
  refine (Program.execute_call rfl).trans ?_
  exact Program.execute_call (alone_close held)

theorem alone_clone {entry : ChildEntry} {ptr : ArgsPtr} :
    alone task call pipefd clone3 system
        (.clone entry stackPointer (CLONE_VM ||| SIGCHLD) ptr) =
      some ((system.nextProc : Int),
        system.spawn task call entry ptr stackPointer SIGCHLD false) := by
  have vm : (CLONE_VM ||| SIGCHLD) &&& ~~~0xff = CLONE_VM := by decide
  have exitSignal : (CLONE_VM ||| SIGCHLD) &&& 0xff = SIGCHLD := by decide
  simp only [alone, handle, if_pos vm, exitSignal]

theorem alone_clone3 {entry : ChildEntry} {ptr : ArgsPtr} {stack stackSize : UInt64} :
    alone task call pipefd .ok system
        (.clone3 {
          flags := CLONE_VM ||| CLONE_CLEAR_SIGHAND
          exitSignal := SIGCHLD
          stack := stack
          stackSize := stackSize } entry ptr) =
      some ((system.nextProc : Int),
        system.spawn task call entry ptr (stack + stackSize) SIGCHLD true) := by
  have vm : (CLONE_VM ||| CLONE_CLEAR_SIGHAND) &&& ~~~CLONE_CLEAR_SIGHAND = CLONE_VM := by
    decide
  have clears : (CLONE_VM ||| CLONE_CLEAR_SIGHAND) &&& CLONE_CLEAR_SIGHAND ≠ 0 := by decide
  simp only [alone, handle, if_pos vm, decide_eq_true clears]

/-- The fast path, with a kernel that has `clone3`. -/
theorem execute_cloneChild_clone3 {ptr : ArgsPtr} {stack : StackT}
    {next : Int → Program SysCalls Int} (unset : system.flag = false) :
    (cloneChild ptr stack >>= next).execute (alone task call pipefd .ok) system =
      (next system.nextProc).execute (alone task call pipefd .ok)
        (system.spawn task call .aspawnChild ptr (stackTop stack.addr stack.size) SIGCHLD
          true) := by
  have born : (system.nextProc : Int) ≠ -ENOSYS ∧ (system.nextProc : Int) ≠ -EINVAL := by
    unfold ENOSYS EINVAL
    omega
  unfold cloneChild
  rw [if_neg (by decide), Program.bind_assoc]
  refine (Program.execute_perform rfl).trans ?_
  rw [unset, if_neg (by decide), Program.bind_assoc]
  refine (Program.execute_perform alone_clone3).trans ?_
  rw [if_pos born]
  rfl

/-- The fallback path, when an earlier call has set the flag. -/
theorem execute_cloneChild_set {ptr : ArgsPtr} {stack : StackT}
    {next : Int → Program SysCalls Int} (set : system.flag = true) :
    (cloneChild ptr stack >>= next).execute (alone task call pipefd clone3) system =
      (next system.nextProc).execute (alone task call pipefd clone3)
        (system.spawn task call .aspawnChildClearSighand ptr (stackTop stack.addr stack.size)
          SIGCHLD false) := by
  refine (Program.execute_perform rfl).trans ?_
  rw [set]
  exact Program.execute_perform alone_clone

/-- The fallback path, when `clone3` turns out to be missing. -/
theorem execute_cloneChild_missing {ptr : ArgsPtr} {stack : StackT} {errno : Errno}
    {next : Int → Program SysCalls Int} (unset : system.flag = false)
    (missing : errno.value = ENOSYS ∨ errno.value = EINVAL) :
    (cloneChild ptr stack >>= next).execute (alone task call pipefd (.fail errno)) system =
      (next system.nextProc).execute (alone task call pipefd (.fail errno))
        ({ system with flag := true }.spawn task call .aspawnChildClearSighand ptr
          (stackTop stack.addr stack.size) SIGCHLD false) := by
  have errors : ¬ (-errno.value ≠ -ENOSYS ∧ -errno.value ≠ -EINVAL) := by
    omega
  unfold cloneChild
  rw [if_neg (by decide), Program.bind_assoc]
  refine (Program.execute_perform rfl).trans ?_
  rw [unset, if_neg (by decide), Program.bind_assoc]
  refine (Program.execute_perform rfl).trans ?_
  rw [if_neg errors, Program.bind_assoc]
  refine (Program.execute_perform rfl).trans ?_
  exact Program.execute_perform alone_clone

/-! ## The child -/

theorem alone_rtSigaction (signum : Nat) (system : System) :
    ∃ result, alone task call pipefd clone3 system (.rtSigaction signum .dfl) =
      some (result, { system with
        actions := Function.update system.actions task.proc
          ((system.actions task.proc).reset signum 1) }) := by
  by_cases inside : 0 < signum ∧ signum - 1 < 64
  · have number : (⟨signum - 1, inside.2⟩ : Signal).val + 1 = signum :=
      Nat.sub_add_cancel inside.1
    have same := (system.actions task.proc).set_dfl ⟨signum - 1, inside.2⟩
    rw [number] at same
    simp only [alone, handle, dif_pos inside]
    split
    · rename_i unsettable
      rw [SigTable.set_unsettable unsettable] at same
      exact ⟨_, by rw [← same, Function.update_eq_self]⟩
    · exact ⟨_, by rw [same]⟩
  · simp only [alone, handle, dif_neg inside]
    exact ⟨_, by rw [SigTable.reset_outside inside, Function.update_eq_self]⟩

theorem execute_clearHandlersFrom (left signum : Nat) (system : System) :
    (clearHandlersFrom left signum).execute (alone task call pipefd clone3) system =
      some ((), { system with
        actions := Function.update system.actions task.proc
          ((system.actions task.proc).reset signum left) }) := by
  induction left generalizing signum system with
  | zero => simp [clearHandlersFrom]
  | succ left ih =>
      obtain ⟨result, handled⟩ := alone_rtSigaction signum system
      refine (Program.execute_call handled).trans ((ih _ _).trans ?_)
      simp only [Function.update_self, Function.update_idem, SigTable.reset_reset]

theorem execute_aspawnChild {ptr : ArgsPtr} {entry : FdEntry}
    (held : system.fds task.proc (system.args ptr.block).pipefd.1 = some entry) :
    (aspawnChild ptr).execute (alone task call pipefd clone3) system =
      some (.fn (system.args ptr.block).fn (system.args ptr.block).arg
        (system.args ptr.block).pipefd.2 (system.args ptr.block).oldSigset,
        system.setFd task.proc (system.args ptr.block).pipefd.1 none) := by
  unfold aspawnChild
  refine (Program.execute_call rfl).trans ?_
  refine (Program.execute_call (alone_close held)).trans ?_
  exact Program.execute_call rfl

/-- The dispositions a child comes to the user's function with, from those it starts with. -/
def actionsAtFn (actions : SigTable) : ChildEntry → SigTable
  | .aspawnChild => actions
  | .aspawnChildClearSighand => .default

theorem execute_program {ptr : ArgsPtr} {entry : FdEntry} (fn : ChildEntry)
    (held : system.fds task.proc (system.args ptr.block).pipefd.1 = some entry) :
    (fn.program ptr).execute (alone task call pipefd clone3) system =
      some (.fn (system.args ptr.block).fn (system.args ptr.block).arg
        (system.args ptr.block).pipefd.2 (system.args ptr.block).oldSigset,
        { system.setFd task.proc (system.args ptr.block).pipefd.1 none with
          actions := Function.update system.actions task.proc
            (actionsAtFn (system.actions task.proc) fn) }) := by
  cases fn with
  | aspawnChild =>
      refine (execute_aspawnChild held).trans ?_
      simp only [actionsAtFn, Function.update_eq_self]
      rfl
  | aspawnChildClearSighand =>
      refine (Program.execute_bind _ _ _).trans ?_
      rw [psysSigClearallHandler, execute_clearHandlersFrom]
      have reset : (system.actions task.proc).reset 1 (NSIG - 1) = .default :=
        SigTable.reset_all
      rw [reset]
      exact execute_aspawnChild held

/-! ## From the call to the child's user function -/

/-- The state once `aspawn_impl` has cloned and closed its write end. -/
def spawned (system : System) (task : TaskId) (call block : Nat) (args : ChildArgs)
    (addr stackPointer exitSignal : UInt64) (entry : ChildEntry) (clearSighand : Bool) :
    System :=
  ((system.placed task call block args).spawn task call entry { block, addr } stackPointer
    exitSignal clearSighand).setFd task.proc args.pipefd.2 none

theorem placed_readEnd {args : ChildArgs} (distinct : args.pipefd.1 ≠ args.pipefd.2) :
    (system.placed task call block args).fds task.proc args.pipefd.1 =
      some { file := .readEnd system.nextPipe, cloexec := true } := by
  simp [placed, openPipe, setFd, distinct]

theorem placed_writeEnd {args : ChildArgs} :
    (system.placed task call block args).fds task.proc args.pipefd.2 =
      some { file := .writeEnd system.nextPipe, cloexec := true } := by
  simp [placed, openPipe, setFd]

/-- A child that finds its arguments and holds the read end they name. -/
theorem enterChild_of_starting {child : Nat} {progress : ChildProgress} {entry : ChildEntry}
    {ptr : ArgsPtr} {birth : Birth} {args : ChildArgs} {readEnd : FdEntry}
    (starting : system.control (mainTask child) = .starting progress (entry.program ptr))
    (born : system.birth child = some birth) (readArgs : system.args ptr.block = args)
    (held : system.fds child args.pipefd.1 = some readEnd) :
    system.enterChild child call pipefd clone3 = some {
      actions := actionsAtFn (system.actions child) entry
      mask := system.mask (mainTask child)
      stackPointer := birth.stackPointer
      exitSignal := birth.exitSignal
      fds := Function.update (system.fds child) args.pipefd.1 none
      start := .fn args.fn args.arg args.pipefd.2 args.oldSigset } := by
  cases readArgs
  simp only [enterChild, starting, born]
  have executed : (entry.program ptr).execute (alone (mainTask child) call pipefd clone3)
      system = _ := execute_program entry held
  rw [executed]
  simp only [mainTask, setFd, Function.update_self]

theorem enterChild_spawned {args : ChildArgs} {addr : UInt64} (entry : ChildEntry)
    (clearSighand : Bool) (distinct : args.pipefd.1 ≠ args.pipefd.2)
    (caller : task.proc ≠ system.nextProc) :
    (system.spawned task call block args addr stackPointer exitSignal entry
      clearSighand).enterChild system.nextProc call pipefd clone3 = some {
        actions := actionsAtFn (if clearSighand then (system.actions task.proc).clearHandlers
          else system.actions task.proc) entry
        mask := system.mask task
        stackPointer
        exitSignal
        fds := Function.update ((system.placed task call block args).fds task.proc)
          args.pipefd.1 none
        start := .fn args.fn args.arg args.pipefd.2 args.oldSigset } := by
  have fds : (system.spawned task call block args addr stackPointer exitSignal entry
      clearSighand).fds system.nextProc = (system.placed task call block args).fds task.proc :=
    (Function.update_of_ne caller.symm _ _).trans (Function.update_self _ _ _)
  have actions : (system.spawned task call block args addr stackPointer exitSignal entry
      clearSighand).actions system.nextProc =
      if clearSighand then (system.actions task.proc).clearHandlers
        else system.actions task.proc :=
    Function.update_self _ _ _
  have mask : (system.spawned task call block args addr stackPointer exitSignal entry
      clearSighand).mask (mainTask system.nextProc) = system.mask task :=
    Function.update_self _ _ _
  refine (enterChild_of_starting (Function.update_self _ _ _) (Function.update_self _ _ _)
    (Function.update_self _ _ _) ((congrFun fds _).trans (placed_readEnd distinct))).trans ?_
  rw [fds, actions, mask]

/-! ## The two paths -/

/-- `aspawn_impl` once its clone has succeeded. -/
theorem execute_finishImpl_spawn (args : ChildArgs) {addr : UInt64}
    {entry : ChildEntry} {clearSighand : Bool} (caller : task.proc ≠ system.nextProc) :
    (finishImpl args.pipefd system.nextProc).execute (alone task call pipefd clone3)
        ((system.placed task call block args).spawn task call entry { block, addr } stackPointer
          exitSignal clearSighand) =
      some ((args.pipefd.1 : Int), system.spawned task call block args addr stackPointer
        exitSignal entry clearSighand) := by
  have held : ((system.placed task call block args).spawn task call entry { block, addr }
      stackPointer exitSignal clearSighand).fds task.proc args.pipefd.2 = _ :=
    (congrFun (Function.update_of_ne caller _ _) _).trans placed_writeEnd
  exact execute_finishImpl (Int.natCast_nonneg _) held

/-- The entry in the child of a call, up to the dispositions. -/
def entryWith (system : System) (task : TaskId) (call block : Nat) (args : ChildArgs)
    (actions : SigTable) : Entry :=
  let stack := (allocateObjOnStack STACK_GROWS_DOWN (system.cachedStacks block)
    sizeofAspawnChildArgs).2
  { actions
    mask := system.mask task
    stackPointer := stackTop stack.addr stack.size
    exitSignal := SIGCHLD
    fds := Function.update ((system.placed task call block args).fds task.proc)
      args.pipefd.1 none
    start := .fn args.fn args.arg args.pipefd.2 args.oldSigset }

theorem childEntry_of_cloned (fresh : system.Fresh task pipefd) (entry : ChildEntry)
    (clearSighand flag : Bool)
    (cloned : ∀ (ptr : ArgsPtr) (stack : StackT) (next : Int → Program SysCalls Int),
      (cloneChild ptr stack >>= next).execute (alone task call pipefd clone3)
          (system.placed task call block { pipefd, fn, arg, oldSigset }) =
        (next system.nextProc).execute (alone task call pipefd clone3)
          (({ system with flag }.placed task call block { pipefd, fn, arg, oldSigset }).spawn
            task call entry ptr (stackTop stack.addr stack.size) SIGCHLD clearSighand)) :
    system.childEntry task call block fn arg oldSigset pipefd clone3 =
      some (system.entryWith task call block { pipefd, fn, arg, oldSigset }
        (actionsAtFn (if clearSighand then (system.actions task.proc).clearHandlers
          else system.actions task.proc) entry)) := by
  unfold childEntry
  have caller := (fresh.withFlag flag).caller
  rw [execute_aspawnImpl fresh, cloned,
    execute_finishImpl_spawn { pipefd, fn, arg, oldSigset } caller]
  exact enterChild_spawned entry clearSighand fresh.distinct caller

theorem childEntry_clone3 (fresh : system.Fresh task pipefd) (unset : system.flag = false) :
    system.childEntry task call block fn arg oldSigset pipefd .ok =
      some (system.entryWith task call block { pipefd, fn, arg, oldSigset }
        (system.actions task.proc).clearHandlers) :=
  childEntry_of_cloned fresh .aspawnChild true system.flag
    fun _ _ _ => execute_cloneChild_clone3 unset

theorem childEntry_set (fresh : system.Fresh task pipefd) (set : system.flag = true) :
    system.childEntry task call block fn arg oldSigset pipefd clone3 =
      some (system.entryWith task call block { pipefd, fn, arg, oldSigset } .default) :=
  childEntry_of_cloned fresh .aspawnChildClearSighand false
    system.flag fun _ _ _ => execute_cloneChild_set set

theorem childEntry_missing (fresh : system.Fresh task pipefd) (unset : system.flag = false)
    {errno : Errno} (missing : errno.value = ENOSYS ∨ errno.value = EINVAL) :
    system.childEntry task call block fn arg oldSigset pipefd (.fail errno) =
      some (system.entryWith task call block { pipefd, fn, arg, oldSigset } .default) :=
  childEntry_of_cloned fresh .aspawnChildClearSighand false true
    fun _ _ _ => execute_cloneChild_missing unset missing

theorem entryWith_flag {args : ChildArgs} {actions : SigTable} (flag : Bool) :
    { system with flag }.entryWith task call block args actions =
      system.entryWith task call block args actions := rfl

/-- The child's entry does not depend on the path if no signal is ignored by the caller, and
depends on it otherwise, through the dispositions only. -/
theorem paths_agree_iff (fresh : system.Fresh task pipefd) :
    ∃ fast fallback : Entry,
      { system with flag := false }.childEntry task call block fn arg oldSigset pipefd .ok =
        some fast ∧
      (∀ clone3, { system with flag := true }.childEntry task call block fn arg oldSigset
        pipefd clone3 = some fallback) ∧
      (∀ errno : Errno, errno.value = ENOSYS ∨ errno.value = EINVAL →
        { system with flag := false }.childEntry task call block fn arg oldSigset pipefd
          (.fail errno) = some fallback) ∧
      fast = { fallback with actions := fast.actions } ∧
      (fast = fallback ↔ ∀ signal, (system.actions task.proc).get signal ≠ .ign) := by
  refine ⟨system.entryWith task call block { pipefd, fn, arg, oldSigset }
    (system.actions task.proc).clearHandlers,
    system.entryWith task call block { pipefd, fn, arg, oldSigset } .default,
    ?_, fun clone3 => ?_, fun errno missing => ?_, rfl, ?_⟩
  · rw [childEntry_clone3 (fresh.withFlag false) rfl, entryWith_flag]
  · rw [childEntry_set (fresh.withFlag true) rfl, entryWith_flag]
  · rw [childEntry_missing (fresh.withFlag false) rfl missing, entryWith_flag]
  rw [← SigTable.clearHandlers_eq_default_iff]
  constructor
  · exact fun same => congrArg Entry.actions same
  · exact fun same => congrArg _ same

theorem boot_fresh (actions : SigTable) (cachedStacks : Nat → StackT) :
    (boot actions cachedStacks).Fresh (mainTask 0) (3, 4) where
  distinct := by decide
  readFree := rfl
  writeFree := rfl
  caller := Nat.zero_ne_one

/-- `SIGHUP` has a handler, and `SIGPIPE` what is given. -/
def hangupCaught (pipe : Disposition) : SigTable where
  get signal := if signal = SIGHUP then .handler 7 else if signal = SIGPIPE then pipe else .dfl
  kill := rfl
  stop := rfl

/-- A root process that has caught `SIGHUP` and blocked `SIGINT` and `SIGQUIT`. -/
def catching (pipe : Disposition) : System :=
  { boot (hangupCaught pipe) reservedStacks with mask := fun _ => .ofBits 6 }

theorem catching_fresh {pipe : Disposition} : (catching pipe).Fresh (mainTask 0) (3, 4) where
  distinct := by decide
  readFree := rfl
  writeFree := rfl
  caller := Nat.zero_ne_one

/-- With two handlers and a mask, both paths come to the same entry. -/
theorem paths_agree_iff_catching :
    ∃ fast fallback : Entry,
      { catching (.handler 8) with flag := false }.childEntry (mainTask 0) 0 0 100 200 6 (3, 4)
        .ok = some fast ∧
      { catching (.handler 8) with flag := true }.childEntry (mainTask 0) 0 0 100 200 6 (3, 4)
        .ok = some fallback ∧
      fast = fallback ∧ fast.actions = .default ∧ fast.mask = .ofBits 6 ∧
      fast.stackPointer = 0x7f0000008f68 ∧
      fast.fds 2 = some { file := .other 2, cloexec := false } ∧
      fast.fds 4 = some { file := .writeEnd 0, cloexec := true } := by
  obtain ⟨fast, fallback, entered, set, _, _, same⟩ :=
    @paths_agree_iff (catching (.handler 8)) (mainTask 0) 0 0 100 200 6 (3, 4) catching_fresh
  have noneIgnored : ∀ signal, ((catching (.handler 8)).actions 0).get signal ≠ .ign := by
    decide
  have agree := same.mpr noneIgnored
  have fell : { catching (.handler 8) with flag := true }.childEntry (mainTask 0) 0 0 100 200 6
      (3, 4) .ok = some _ := childEntry_set (catching_fresh.withFlag true) rfl
  cases (set .ok).symm.trans fell
  subst agree
  exact ⟨_, _, entered, set .ok, rfl, rfl, rfl, by decide, rfl, rfl⟩

/-- The handler is cleared on both paths, and the ignored signal on one. -/
theorem ignored_signal_depends_on_path :
    ∃ fast fallback : Entry,
      { catching .ign with flag := false }.childEntry (mainTask 0) 0 0 100 200 6 (3, 4) .ok =
        some fast ∧
      { catching .ign with flag := true }.childEntry (mainTask 0) 0 0 100 200 6 (3, 4) .ok =
        some fallback ∧
      fast.actions.get 0 = .dfl ∧ fallback.actions.get 0 = .dfl ∧
      fast.actions.get 12 = .ign ∧ fallback.actions.get 12 = .dfl :=
  ⟨_, _, childEntry_clone3 (catching_fresh.withFlag false) rfl,
    childEntry_set (catching_fresh.withFlag true) rfl, rfl, rfl, rfl, rfl⟩

end

end System

end Aspawn
