import Aspawn.Spawn.ProtocolProperties
import Aspawn.Spawn.System

/-! What one step of the system can do, said once: by which action it happens, under
which conditions, and which parts of the state it changes. -/

set_option autoImplicit false

namespace Aspawn

namespace System

variable {system next after : System} {task : TaskId} {call proc : Nat}

@[simp] theorem setControl_self {control : Control} :
    (system.setControl task control).control task = control :=
  Function.update_self ..

theorem setControl_of_ne {control : Control} {other : TaskId} (distinct : other ≠ task) :
    (system.setControl task control).control other = system.control other :=
  Function.update_of_ne distinct ..

/-- A thread that is not where an update puts one was there before. -/
theorem control_of_update {control : TaskId → Control} {other : TaskId} {new found : Control}
    (different : new ≠ found) (running : Function.update control task new other = found) :
    control other = found := by
  by_cases same : other = task
  · cases same
    exact absurd ((Function.update_self ..).symm.trans running) different
  · exact (Function.update_of_ne same ..).symm.trans running

@[simp] theorem setCall_self {record : CallRecord} :
    (system.setCall call record).calls call = some record :=
  Function.update_self ..

theorem setCall_of_ne {record : CallRecord} {other : Nat} (distinct : other ≠ call) :
    (system.setCall call record).calls other = system.calls other :=
  Function.update_of_ne distinct ..

theorem setFd_fds {fd : Nat} {entry : Option FdEntry} (other number : Nat) :
    (system.setFd proc fd entry).fds other number =
      if other = proc ∧ number = fd then entry else system.fds other number := by
  by_cases same : other = proc
  · cases same
    simp [setFd, Function.update_apply]
  · simp [setFd, same]

theorem openPipe_fds {read write : Nat} {cloexec : Bool} (other number : Nat) :
    (system.openPipe proc call read write cloexec).fds other number =
      if other = proc ∧ number = write then
        some { file := .writeEnd system.nextPipe, cloexec }
      else if other = proc ∧ number = read then
        some { file := .readEnd system.nextPipe, cloexec }
      else system.fds other number := by
  simp only [openPipe, setFd_fds]

theorem spawn_fds {entry : ChildEntry} {ptr : ArgsPtr} {stackPointer exitSignal : UInt64}
    {clearSighand : Bool} (other : Nat) :
    (system.spawn task call entry ptr stackPointer exitSignal clearSighand).fds other =
      if other = system.nextProc then system.fds task.proc else system.fds other := by
  simp [spawn, Function.update_apply]

/-! ## The kinds of steps -/

/-- The kind of call that an action starts, and its `Stack_t`. -/
def Action.starts : Action → Option (CallKind × Nat)
  | .aspawn _ block _ _ _ _ => some (.aspawn, block)
  | .aspawnRec _ block _ _ _ _ => some (.aspawnRec, block)
  | _ => none

inductive Stepped (system : System) : Action → System → Prop where
  | call {task choice call request next record response after} :
      system.control task = .inCall call (.call request next) →
      system.calls call = some record →
      system.handle task call choice request = some (response, after) →
      Stepped system (.code task choice)
        ((after.setCall call { record with
            progress := (callProtocol record.kind record.block).after record.progress
              request response }).setControl task (.inCall call (next response)))
  | starting {task choice progress request next birth response after} :
      system.control task = .starting progress (.call request next) →
      system.birth task.proc = some birth →
      system.handle task birth.call choice request = some (response, after) →
      Stepped system (.code task choice) (after.setControl task
        (.starting ((childProtocol birth.args).after progress request response)
          (next response)))
  | started {action task kind block pid code} :
      system.control task = .user → action.starts = some (kind, block) →
      (kind = .aspawn ↔ task.proc = 0) →
      (∀ progress : Progress, progress.Fresh →
        (callProtocol kind block).Conforms progress.Finished progress code) →
      Stepped system action (system.startCall task kind block pid code)
  | finish {task call result record} :
      system.control task = .inCall call (.done result) →
      system.calls call = some record →
      Stepped system (.finish task)
        ((system.setCall call { record with returned := some result }).setControl task .user)
  | enter {proc progress fn arg writeEndFd oldSigset} :
      system.control (mainTask proc) =
        .starting progress (.done (.fn fn arg writeEndFd oldSigset)) →
      Stepped system (.enter proc) (system.setControl (mainTask proc) .user)
  | user {task op next} :
      system.control task = .user → system.userStep task op = some next →
      Stepped system (.user task op) next
  | left {action proc phase table} :
      (proc ≠ 0 ∧ system.phase proc = .live ∨ (system.control (mainTask proc)).isPresent) →
      (proc ≠ 0 ∨ ∃ progress rest, system.control (mainTask proc) = .starting progress rest) →
      (phase = .execed ∧ table = (system.fds proc).afterExec ∨
        phase = .exited ∧ table = .empty) →
      Stepped system action (system.leave proc phase table)
  | raise {proc signal} :
      Stepped system (.raise proc signal) { system with
        pending := Function.update system.pending proc
          (Function.update (system.pending proc) signal true) }
  | deliver {task signal} :
      (system.control task).isPresent → ¬ (system.mask task).blocks signal →
      Stepped system (.deliver task signal) { system with
        pending := Function.update system.pending task.proc
          (Function.update (system.pending task.proc) signal false)
        handled :=
          match (system.actions task.proc).get signal with
          | .handler function => (task.proc, function) :: system.handled
          | _ => system.handled }

theorem stepped_of_step {action : Action} (stepped : system.step action = some next) :
    system.Stepped action next := by
  cases action with
  | code task choice =>
      simp only [step] at stepped
      split at stepped
      · split at stepped
        · rename_i control _ _ _ _ _ known handled
          cases stepped
          exact .call control known handled
        · cases stepped
      · split at stepped
        · cases stepped
        · split at stepped
          · cases stepped
          · rename_i control _ _ born _ _ _ handled
            cases stepped
            exact .starting control born handled
      · cases stepped
  | aspawn task block fn arg pid oldset =>
      simp only [step] at stepped
      split at stepped
      · split at stepped
        · rename_i control root
          cases stepped
          exact .started control rfl (by simp [root]) fun _ fresh => aspawn_conforms fresh
        · cases stepped
      · cases stepped
  | aspawnRec proc block fn arg pid oldSigset =>
      simp only [step] at stepped
      split at stepped
      · split at stepped
        · rename_i control child
          cases stepped
          exact .started control rfl (by simp [mainTask, child])
            fun _ fresh => aspawnRec_conforms fresh
        · cases stepped
      · cases stepped
  | finish task =>
      simp only [step] at stepped
      split at stepped
      · split at stepped
        · cases stepped
        · rename_i control _ _ known
          cases stepped
          exact .finish control known
      · cases stepped
  | enter proc =>
      simp only [step] at stepped
      split at stepped
      · rename_i control
        cases stepped
        exact .enter control
      · rename_i control
        cases stepped
        exact .left (.inr (by rw [control]; rfl)) (.inr ⟨_, _, control⟩) (.inr ⟨rfl, rfl⟩)
      · cases stepped
  | user task op =>
      simp only [step] at stepped
      split at stepped
      · rename_i control
        exact .user control stepped
      · cases stepped
  | execve proc =>
      simp only [step] at stepped
      split at stepped
      · split at stepped
        · rename_i control child
          cases stepped
          exact .left (.inr (by rw [control]; rfl)) (.inl child) (.inl ⟨rfl, rfl⟩)
        · cases stepped
      · cases stepped
  | exit proc =>
      simp only [step] at stepped
      split at stepped
      · rename_i alive
        cases stepped
        exact .left (.inl alive) (.inl alive.1) (.inr ⟨rfl, rfl⟩)
      · cases stepped
  | raise proc signal =>
      cases Option.some.inj stepped
      exact .raise
  | deliver task signal =>
      simp only [step] at stepped
      split at stepped
      · rename_i enabled
        cases stepped
        exact .deliver enabled.1 enabled.2.2
      · cases stepped

/-- User code changes descriptors, signals, cancellation and its `Stack_t` variables. -/
theorem userStep_frame {op : UserOp} (stepped : system.userStep task op = some next) :
    next.control = system.control ∧ next.phase = system.phase ∧ next.birth = system.birth ∧
      next.calls = system.calls ∧ next.pipeOf = system.pipeOf ∧ next.args = system.args := by
  cases op with
  | «open» fd file cloexec =>
      simp only [userStep] at stepped
      split at stepped <;> cases stepped
      exact ⟨rfl, rfl, rfl, rfl, rfl, rfl⟩
  | dup old new cloexec =>
      simp only [userStep] at stepped
      split at stepped <;> cases stepped
      exact ⟨rfl, rfl, rfl, rfl, rfl, rfl⟩
  | _ =>
      cases stepped
      exact ⟨rfl, rfl, rfl, rfl, rfl, rfl⟩

/-! ## What a permitted request does -/

/-- The effects of the requests of a call, on its progress and on the system. -/
inductive CallEffect (system : System) (task : TaskId) (call : Nat) (kind : CallKind)
    (block : Nat) (progress : Progress) : Progress → System → Prop where
  | thread {cancel mask} :
      CallEffect system task call kind block progress { progress with cancel, mask }
        { system with
          cancel := Function.update system.cancel task cancel
          mask := Function.update system.mask task mask }
  | shared {flag pid clone3Result cloneResult} :
      CallEffect system task call kind block progress
        { progress with pid, clone3Result, cloneResult } { system with flag }
  | placed {args : ChildArgs} :
      progress.pipefd = some args.pipefd → progress.child = none →
      CallEffect system task call kind block progress { progress with args := some args }
        { system with args := Function.update system.args block args }
  | piped {read write} :
      progress.pipefd = none → read ≠ write → system.fds task.proc read = none →
      system.fds task.proc write = none →
      CallEffect system task call kind block progress
        { progress with pipefd := some (read, write), readOpen := true, writeOpen := true }
        (system.openPipe task.proc call read write true)
  | closed {fd} :
      progress.Holds fd →
      CallEffect system task call kind block progress (progress.closed fd)
        (system.setFd task.proc fd none)
  | cloned {clone3Result cloneResult entry ptr stackPointer exitSignal clearSighand} :
      progress.MayClone kind → ptr.block = block →
      (clearSighand = false → entry = .aspawnChildClearSighand) →
      CallEffect system task call kind block progress
        { progress with clone3Result, cloneResult, child := some (system.nextProc : Int) }
        (system.spawn task call entry ptr stackPointer exitSignal clearSighand)

@[simp] theorem setFd_none {fd : Nat} (absent : system.fds proc fd = none) :
    system.setFd proc fd none = system := by
  unfold setFd
  rw [← absent, Function.update_eq_self, Function.update_eq_self]

theorem CallEffect.unchanged {kind : CallKind} {block : Nat} {progress : Progress} :
    CallEffect system task call kind block progress progress system :=
  .shared

theorem CallEffect.calls {kind : CallKind} {block : Nat} {before progress : Progress}
    (effect : CallEffect system task call kind block before progress after) :
    after.calls = system.calls := by
  cases effect <;> rfl

theorem CallEffect.cachedStacks {kind : CallKind} {block : Nat} {before progress : Progress}
    (effect : CallEffect system task call kind block before progress after) :
    after.cachedStacks = system.cachedStacks := by
  cases effect <;> rfl

/-- A request starts no call. -/
theorem CallEffect.inCall {kind : CallKind} {block number : Nat} {before progress : Progress}
    {other : TaskId} {rest : Program SysCalls Int}
    (effect : CallEffect system task call kind block before progress after)
    (running : after.control other = .inCall number rest) :
    system.control other = .inCall number rest := by
  cases effect with
  | cloned =>
      simp only [System.spawn, Function.update_apply] at running
      split at running
      · cases running
      · exact running
  | _ => exact running

/-- A request of a call lets no child start but a new one. -/
theorem CallEffect.starting {kind : CallKind} {block : Nat} {before progress : Progress}
    {other : TaskId} {child : ChildProgress} {rest : Program SysCalls ChildStart}
    (effect : CallEffect system task call kind block before progress after)
    (running : after.control other = .starting child rest) :
    system.control other = .starting child rest ∨ child.loaded = none := by
  cases effect with
  | @cloned _ _ entry =>
      simp only [System.spawn, Function.update_apply] at running
      split at running
      · cases running
        cases entry <;> exact .inr rfl
      · exact .inl running
  | _ => exact .inl running

theorem callEffect_of_handle {kind : CallKind} {block : Nat} {progress : Progress}
    {choice : Choice} {request : SysRequest} {response : request.Response}
    (cancel : system.cancel task = progress.cancel) (mask : system.mask task = progress.mask)
    (procs : 0 < system.nextProc)
    (permitted : (callProtocol kind block).permits progress request)
    (handled : system.handle task call choice request = some (response, after)) :
    (callProtocol kind block).answers progress request response ∧
      CallEffect system task call kind block progress
        ((callProtocol kind block).after progress request response) after := by
  have failing (errno : Errno) : ¬ 0 < -errno.value := by
    have positive := errno.positive
    omega
  cases request with
  | setcancelstate state =>
      cases handled
      have effect : CallEffect system task call kind block progress
          { progress with cancel := state, mask := progress.mask }
          { system with
            cancel := Function.update system.cancel task state
            mask := Function.update system.mask task progress.mask } := .thread
      rw [← mask, Function.update_eq_self, mask] at effect
      exact ⟨cancel, effect⟩
  | sigprocmask how set oldset =>
      simp only [handle] at handled
      split at handled
      · cases handled
        have effect : CallEffect system task call kind block progress
            { progress with cancel := progress.cancel, mask := how.apply set progress.mask }
            { system with
              cancel := Function.update system.cancel task progress.cancel
              mask := Function.update system.mask task (how.apply set progress.mask) } :=
          .thread
        rw [← cancel, Function.update_eq_self, cancel, ← mask] at effect
        refine ⟨.inr ⟨rfl, ?_⟩, ?_⟩
        · rw [mask]
        · simpa only [callProtocol, if_true, mask] using effect
      · split at handled
        · rename_i errno blocking
          cases handled
          have kept : (callProtocol kind block).after progress (.sigprocmask how set oldset)
              (-errno.value, oldset) = progress := if_neg (IsError.negative ⟨errno, rfl⟩).ne
          refine ⟨.inl ⟨⟨errno, rfl⟩, blocking, rfl⟩, ?_⟩
          rw [kept]
          exact .unchanged
        · cases handled
      · cases handled
  | pipe2 flags =>
      obtain ⟨rfl, none⟩ := permitted
      simp only [handle] at handled
      split at handled
      · cases handled
      · rename_i errno
        cases handled
        exact ⟨⟨errno, rfl⟩, .unchanged⟩
      · split at handled
        · rename_i read write free
          cases handled
          exact ⟨free.1, .piped none free.1 free.2.1 free.2.2⟩
        · cases handled
  | loadStack other =>
      cases handled
      exact ⟨trivial, .unchanged⟩
  | storeArgs ptr args =>
      obtain ⟨rfl, pipe, _, _, childless⟩ := permitted
      cases handled
      exact ⟨trivial, .placed pipe childless⟩
  | loadArgs ptr => exact permitted.elim
  | loadFlag =>
      cases handled
      exact ⟨trivial, .unchanged⟩
  | storeFlag value =>
      cases handled
      exact ⟨trivial, .shared⟩
  | clone fn stack flags ptr =>
      obtain ⟨mayClone, same, rfl, rfl⟩ := permitted
      simp only [handle] at handled
      split at handled
      · split at handled
        · cases handled
          have positive : (0 : Int) < system.nextProc := by exact_mod_cast procs
          refine ⟨.inl positive, ?_⟩
          simp only [callProtocol, Progress.cloned, if_pos positive]
          exact .cloned mayClone same fun _ => rfl
        · cases handled
      · rename_i errno
        cases handled
        refine ⟨.inr ⟨errno, rfl⟩, ?_⟩
        simp only [callProtocol, Progress.cloned, if_neg (failing errno)]
        exact .shared
      · cases handled
  | clone3 clArgs fn ptr =>
      obtain ⟨mayClone, same, flags⟩ := permitted
      simp only [handle] at handled
      split at handled
      · split at handled
        · cases handled
          have positive : (0 : Int) < system.nextProc := by exact_mod_cast procs
          refine ⟨.inl positive, ?_⟩
          simp only [callProtocol, Progress.cloned, if_pos positive]
          refine .cloned mayClone same fun kept => ?_
          rw [flags] at kept
          exact absurd kept (by decide)
        · cases handled
      · rename_i errno
        cases handled
        refine ⟨.inr ⟨errno, rfl⟩, ?_⟩
        simp only [callProtocol, Progress.cloned, if_neg (failing errno)]
        exact .shared
      · cases handled
  | storePid pid =>
      cases handled
      exact ⟨trivial, .shared⟩
  | close fd =>
      simp only [handle] at handled
      split at handled
      · rename_i absent
        cases handled
        have effect : CallEffect system task call kind block progress (progress.closed fd)
            (system.setFd task.proc fd none) := .closed permitted
        rw [setFd_none absent] at effect
        exact ⟨trivial, effect⟩
      · cases handled
        exact ⟨trivial, .closed permitted⟩
      · cases handled
        exact ⟨trivial, .closed permitted⟩
      · cases handled
  | rtSigaction signum act => exact permitted.elim

/-- The effects of the requests of a starting child. -/
inductive ChildEffect (system : System) (proc : Nat) (ptr : ArgsPtr)
    (progress : ChildProgress) : SysRequest → ChildProgress → System → Prop where
  | loaded :
      ChildEffect system proc ptr progress (.loadArgs ptr)
        { progress with loaded := some (system.args ptr.block) } system
  | closed {args} :
      progress.loaded = some args →
      ChildEffect system proc ptr progress (.close args.pipefd.1) progress
        (system.setFd proc args.pipefd.1 none)
  | cleared {signum table} :
      (∀ signal, (table.get signal).isHandler →
        ((system.actions proc).get signal).isHandler ∧ signal.val + 1 ≠ signum) →
      ChildEffect system proc ptr progress (.rtSigaction signum .dfl)
        { progress with
          cleared := fun signal => progress.cleared signal || signal.val + 1 = signum }
        { system with actions := Function.update system.actions proc table }

theorem childEffect_of_handle {ptr : ArgsPtr} {progress : ChildProgress} {choice : Choice}
    {request : SysRequest} {response : request.Response}
    (permitted : (childProtocol ptr).permits progress request)
    (handled : system.handle task call choice request = some (response, after)) :
    ChildEffect system task.proc ptr progress request
      ((childProtocol ptr).after progress request response) after := by
  cases request with
  | loadArgs other =>
      cases permitted
      cases handled
      exact .loaded
  | close fd =>
      obtain ⟨args, loaded, rfl⟩ := permitted
      simp only [handle] at handled
      split at handled
      · rename_i absent
        cases handled
        have effect : ChildEffect system task.proc ptr progress (.close args.pipefd.1) progress
            (system.setFd task.proc args.pipefd.1 none) := .closed loaded
        rw [setFd_none absent] at effect
        exact effect
      · cases handled
        exact .closed loaded
      · cases handled
        exact .closed loaded
      · cases handled
  | rtSigaction signum act =>
      cases permitted
      have kept (refused : ∀ signal : Signal,
          ((system.actions task.proc).get signal).isHandler → signal.val + 1 ≠ signum) :
          ChildEffect system task.proc ptr progress (.rtSigaction signum .dfl)
            { progress with
              cleared := fun signal => progress.cleared signal || signal.val + 1 = signum }
            system := by
        have effect : ChildEffect system task.proc ptr progress (.rtSigaction signum .dfl) _ _ :=
          .cleared fun signal handler => ⟨handler, refused signal handler⟩
        rw [Function.update_eq_self] at effect
        exact effect
      simp only [handle] at handled
      split at handled
      · rename_i inside
        split at handled
        · rename_i fixed
          cases handled
          refine kept fun signal handler same => ?_
          have blockable := SigTable.not_kill_of_isHandler handler
          have here : (⟨signum - 1, inside.2⟩ : Signal) = signal := Fin.ext (by simp; omega)
          rw [here] at fixed
          exact fixed.elim blockable.1 blockable.2
        · cases handled
          refine .cleared fun signal handler => ?_
          obtain ⟨before, other⟩ := SigTable.isHandler_of_set (by decide) handler
          exact ⟨before, fun same => other (Fin.ext (by simp; omega))⟩
      · rename_i outside
        cases handled
        refine kept fun signal _ same => outside ?_
        have bound := signal.isLt
        omega
  | _ => exact permitted.elim

end System

end Aspawn
