import Aspawn.Spawn.System

/-! What the library is for, without its code: a call either makes one process, to run one
function, or reports an error, and a process starts in the function that it was made for. -/

set_option autoImplicit false

namespace Aspawn

/-- What a caller wants a process for. -/
structure Job where
  fn : Nat
  arg : Nat
  oldSigset : SigsetT
  deriving DecidableEq

def ChildArgs.job (args : ChildArgs) : Job where
  fn := args.fn
  arg := args.arg
  oldSigset := args.oldSigset

/-- A call as its caller sees it. -/
structure SpawnCall where
  caller : TaskId
  job : Job
  /-- `*pid` before the call. -/
  pid : Int
  /-- The process that it has made, and the ends of the pipe between the two. -/
  child : Option (Nat × (Nat × Nat))
  returned : Option Int

/-- The call may return `result` and leave `pid` in `*pid`. -/
def SpawnCall.Answers (call : SpawnCall) (result pid : Int) : Prop :=
  match call.child with
  | some (proc, pipefd) => result = pipefd.1 ∧ pid = proc
  | none => result < 0 ∧ pid = call.pid

instance decidableAnswers :
    (call : SpawnCall) → (result pid : Int) → Decidable (call.Answers result pid)
  | { child := some _, .. }, _, _ => inferInstanceAs (Decidable (_ ∧ _))
  | { child := none, .. }, _, _ => inferInstanceAs (Decidable (_ ∧ _))

inductive ProcessState where
  | absent
  /-- Made by a call and not yet in its function. -/
  | made (call : Nat)
  | running
  | gone
  deriving DecidableEq, Repr

structure ProcessTree where
  calls : Nat → Option SpawnCall
  processes : Nat → ProcessState

inductive SpawnEvent where
  | called (call : Nat) (caller : TaskId) (job : Job) (pid : Int)
  | made (call proc : Nat) (pipefd : Nat × Nat)
  | returned (call : Nat) (result pid : Int)
  | entered (proc : Nat) (job : Job) (writeEndFd : Nat)
  | execed (proc : Nat)
  | exited (proc : Nat)
  deriving DecidableEq

namespace SpawnEvent

def makesFor (call : Nat) : SpawnEvent → Bool
  | .made other _ _ => other = call
  | _ => false

def makes (proc : Nat) : SpawnEvent → Bool
  | .made _ other _ => other = proc
  | _ => false

def returns (call : Nat) : SpawnEvent → Bool
  | .returned other _ _ => other = call
  | _ => false

def enters (proc : Nat) : SpawnEvent → Bool
  | .entered other _ _ => other = proc
  | _ => false

end SpawnEvent

namespace ProcessTree

/-- One process that has made no call. -/
def start : ProcessTree where
  calls _ := none
  processes proc := if proc = 0 then .running else .absent

def setCall (tree : ProcessTree) (call : Nat) (spawning : SpawnCall) : ProcessTree :=
  { tree with calls := Function.update tree.calls call (some spawning) }

def setProcess (tree : ProcessTree) (proc : Nat) (state : ProcessState) : ProcessTree :=
  { tree with processes := Function.update tree.processes proc state }

def step (tree : ProcessTree) : SpawnEvent → Option ProcessTree
  | .called call caller job pid =>
      if (tree.calls call).isNone ∧ tree.processes caller.proc = .running then
        some (tree.setCall call { caller, job, pid, child := none, returned := none })
      else none
  | .made call proc pipefd =>
      match tree.calls call with
      | none => none
      | some spawning =>
          if spawning.child.isNone ∧ spawning.returned.isNone ∧
              tree.processes spawning.caller.proc = .running ∧
              tree.processes proc = .absent then
            some ((tree.setCall call { spawning with child := some (proc, pipefd) }).setProcess
              proc (.made call))
          else none
  | .returned call result pid =>
      match tree.calls call with
      | none => none
      | some spawning =>
          if spawning.returned.isNone ∧ spawning.Answers result pid then
            some (tree.setCall call { spawning with returned := some result })
          else none
  | .entered proc job writeEndFd =>
      match tree.processes proc with
      | .made call =>
          match tree.calls call with
          | none => none
          | some spawning =>
              if job = spawning.job ∧
                  spawning.child.map (fun made => (made.1, made.2.2)) = some (proc, writeEndFd)
                  then
                some (tree.setProcess proc .running)
              else none
      | _ => none
  | .execed proc =>
      if tree.processes proc = .running then some (tree.setProcess proc .gone) else none
  | .exited proc =>
      match tree.processes proc with
      | .made _ | .running => some (tree.setProcess proc .gone)
      | _ => none

end ProcessTree

/-! ## Observing the system -/

namespace System

def pipefdOf (system : System) (call : Nat) : Option (Nat × Nat) :=
  match system.calls call with
  | none => none
  | some record => record.progress.pipefd

/-- What a step shows of calls and processes. -/
def observe (system : System) (action : Action) (next : System) : List SpawnEvent :=
  match action with
  | .code task _ =>
      match system.control task with
      | .inCall call _ =>
          if next.nextProc = system.nextProc then []
          else
            match system.pipefdOf call with
            | none => []
            | some pipefd => [.made call system.nextProc pipefd]
      | _ => []
  | .aspawn task _ fn arg pid oldset =>
      -- the job takes the mask of the caller
      [.called system.nextCall task
        { fn, arg, oldSigset := (system.mask task).write oldset } pid]
  | .aspawnRec proc _ fn arg pid oldSigset =>
      [.called system.nextCall (mainTask proc) { fn, arg, oldSigset } pid]
  | .finish task =>
      match system.control task with
      | .inCall call (.done result) =>
          match system.calls call with
          | none => []
          | some record => [.returned call result record.progress.pid]
      | _ => []
  | .enter proc =>
      match system.control (mainTask proc) with
      | .starting _ (.done (.fn fn arg writeEndFd oldSigset)) =>
          [.entered proc { fn, arg, oldSigset } writeEndFd]
      | _ => [.exited proc]
  | .execve proc => [.execed proc]
  | .exit proc => [.exited proc]
  | .user _ _ | .raise _ _ | .deliver _ _ => []

end System

end Aspawn
