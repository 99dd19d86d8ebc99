import Aspawn.Spawn.Code

/-! The discipline of the spawn code: which requests a call of `aspawn` or `aspawn_rec`
and a starting child may make, given what they have done so far. -/

set_option autoImplicit false

namespace Aspawn

/-- The mask after `rt_sigprocmask` succeeded. -/
def MaskHow.apply : MaskHow → SigsetT → Sigmask → Sigmask
  | .block, set, mask => .ofBits (mask.bits ||| Sigmask.read set)
  | .setmask, set, _ => .ofBits (Sigmask.read set)

inductive CallKind where
  | aspawn
  | aspawnRec
  deriving DecidableEq, Repr

/-- What a call has done so far, and the state of its thread. -/
structure Progress where
  cancel : CancelState
  mask : Sigmask
  /-- The variable behind the parameter `pid`. -/
  pid : Int
  pipefd : Option (Nat × Nat)
  readOpen : Bool
  writeOpen : Bool
  args : Option ChildArgs
  clone3Result : Option Int
  cloneResult : Option Int
  child : Option Int
  deriving DecidableEq

namespace Progress

def start (cancel : CancelState) (mask : Sigmask) (pid : Int) : Progress where
  cancel := cancel
  mask := mask
  pid := pid
  pipefd := none
  readOpen := false
  writeOpen := false
  args := none
  clone3Result := none
  cloneResult := none
  child := none

/-- The call has exactly one pipe, both ends open, its arguments placed and no child; a
call of `aspawn` has blocked all signals. -/
structure MayClone (kind : CallKind) (progress : Progress) : Prop where
  placed : progress.args.isSome
  pipe : progress.pipefd = progress.args.map ChildArgs.pipefd
  readOpen : progress.readOpen
  writeOpen : progress.writeOpen
  childless : progress.child = none
  masked : kind = .aspawn → progress.mask = .full

/-- The descriptor is an end of the call's pipe that the call has not closed. -/
def Holds (progress : Progress) (fd : Nat) : Prop :=
  ∃ pipefd, progress.pipefd = some pipefd ∧
    (fd = pipefd.1 ∧ progress.readOpen ∨ fd = pipefd.2 ∧ progress.writeOpen)

def cloned (progress : Progress) (result : Int) : Progress :=
  { progress with child := if 0 < result then some result else progress.child }

def closed (progress : Progress) (fd : Nat) : Progress :=
  match progress.pipefd with
  | none => progress
  | some pipefd => { progress with
      readOpen := progress.readOpen && fd ≠ pipefd.1
      writeOpen := progress.writeOpen && fd ≠ pipefd.2 }

/-- How a call leaves things when it returns. -/
structure Finished (start final : Progress) (result : Int) : Prop where
  cancel : final.cancel = start.cancel
  mask : final.mask = start.mask
  writeClosed : final.writeOpen = false
  success : 0 ≤ result → ∃ pipefd pid, final.pipefd = some pipefd ∧ result = pipefd.1 ∧
    final.readOpen ∧ final.child = some pid ∧ final.pid = pid
  failure : result < 0 →
    IsError result ∧ final.child = none ∧ final.readOpen = false ∧ final.pid = start.pid
  refused : ∀ refusal, final.clone3Result = some refusal →
    refusal = -ENOSYS ∨ refusal = -EINVAL →
    ∃ cloned, final.cloneResult = some cloned ∧ (result < 0 → result = cloned)

end Progress

/-- The parent's side. -/
def callProtocol (kind : CallKind) (block : Nat) : Protocol SysCalls Progress where
  permits progress
    | .setcancelstate _ | .sigprocmask _ _ _ | .loadFlag | .storeFlag _ => True
    | .loadStack other => other = block
    | .pipe2 flags => flags = O_CLOEXEC ∧ progress.pipefd = none
    | .storeArgs ptr args => ptr.block = block ∧ progress.pipefd = some args.pipefd ∧
        progress.readOpen ∧ progress.writeOpen ∧ progress.child = none
    | .clone fn _ flags ptr => progress.MayClone kind ∧ ptr.block = block ∧
        fn = .aspawnChildClearSighand ∧ flags = CLONE_VM ||| SIGCHLD
    | .clone3 clArgs _ ptr => progress.MayClone kind ∧ ptr.block = block ∧
        clArgs.flags = CLONE_VM ||| CLONE_CLEAR_SIGHAND
    | .storePid pid => progress.child = some pid
    | .close fd => progress.Holds fd
    | .loadArgs _ | .rtSigaction _ _ => False
  answers progress
    | .setcancelstate _, old => old = progress.cancel
    | .sigprocmask how _ oldset, (result, written) =>
        (IsError result ∧ how = .block ∧ written = oldset) ∨
          (result = 0 ∧ written = oldset.map progress.mask.write)
    | .pipe2 _, .error result => IsError result
    | .pipe2 _, .ok pipefd => pipefd.1 ≠ pipefd.2
    | .clone _ _ _ _, result | .clone3 _ _ _, result => 0 < result ∨ IsError result
    | _, _ => True
  after progress
    | .setcancelstate state, _ => { progress with cancel := state }
    | .sigprocmask how set _, (result, _) =>
        if result = 0 then { progress with mask := how.apply set progress.mask } else progress
    | .pipe2 _, .ok pipefd => { progress with
        pipefd := some pipefd, readOpen := true, writeOpen := true }
    | .storeArgs _ args, _ => { progress with args := some args }
    | .clone _ _ _ _, result =>
        { progress with cloneResult := some result }.cloned result
    | .clone3 _ _ _, result =>
        { progress with clone3Result := some result }.cloned result
    | .storePid pid, _ => { progress with pid }
    | .close fd, _ => progress.closed fd
    | _, _ => progress

/-- What a starting child has read and which signals it has cleared. -/
structure ChildProgress where
  loaded : Option ChildArgs
  cleared : Signal → Bool

/-- The state in which a child starts with the given function. -/
def ChildEntry.progress : ChildEntry → ChildProgress
  | .aspawnChild => { loaded := none, cleared := fun _ => true }
  | .aspawnChildClearSighand => { loaded := none, cleared := fun _ => false }

/-- The child's side, up to the user's function. -/
def childProtocol (args : ArgsPtr) : Protocol SysCalls ChildProgress where
  permits progress
    | .loadArgs ptr => ptr = args
    | .close fd => ∃ args, progress.loaded = some args ∧ fd = args.pipefd.1
    | .rtSigaction _ act => act = .dfl
    | _ => False
  answers _ _ _ := True
  after progress
    | .loadArgs _, args => { progress with loaded := some args }
    | .rtSigaction signum _, _ => { progress with
        cleared := fun signal => progress.cleared signal || signal.val + 1 = signum }
    | _, _ => progress

/-- How a child enters the user's function: with every handler cleared. -/
def ChildProgress.Ready (progress : ChildProgress) : ChildStart → Prop
  | .fn fn arg writeEndFd oldSigset =>
      (∃ readEndFd, progress.loaded =
        some { pipefd := (readEndFd, writeEndFd), fn, arg, oldSigset }) ∧
        ∀ signal, progress.cleared signal
  | .perr _ _ => True

end Aspawn
