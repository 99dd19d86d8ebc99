import Aspawn.Spawn.TransactionProperties

/-! Who may hold the write end of a call's pipe when all calls are made by the root
process: the root itself during the call, and every child that is cloned meanwhile. -/

set_option autoImplicit false

namespace Aspawn

open Transition

namespace System

variable {system next after start : System} {task : TaskId} {call proc : Nat}

/-- The read end of the call's pipe reports HUP. -/
def Hup (system : System) (call : Nat) : Prop :=
  ∃ pipe, system.pipeOf call = some pipe ∧
    ∀ proc, ¬ (system.fds proc).Holds (.writeEnd pipe)

/-- A child calls `aspawn_rec` or duplicates a descriptor. -/
def Action.nestsOrDups : Action → Bool
  | .aspawnRec _ _ _ _ _ _ => true
  | .user task (.dup _ _ _) => task.proc ≠ 0
  | _ => false

/-- The process that holds a write end is the root in the call of the pipe, or was cloned
while the write end was open there. -/
def MayHold (system : System) (proc call : Nat) : Prop :=
  proc = 0 ∧ (∃ task record, system.InFlight task call record) ∨
    ∃ birth, system.birth proc = some birth ∧ call ∈ birth.windows

theorem MayHold.mono (may : system.MayHold proc call)
    (inFlight : ∀ task record, system.InFlight task call record →
      ∃ record, after.InFlight task call record)
    (birth : ∀ birth, system.birth proc = some birth → after.birth proc = some birth) :
    after.MayHold proc call := by
  rcases may with ⟨root, task, record, running⟩ | ⟨found, born, window⟩
  · obtain ⟨record, running⟩ := inFlight task record running
    exact .inl ⟨root, task, record, running⟩
  · exact .inr ⟨found, birth found born, window⟩

structure HoldersKnown (system : System) : Prop where
  flat : ∀ task call rest, system.control task = .inCall call rest → task.proc = 0
  holder : ∀ proc call pipe fd entry, system.pipeOf call = some pipe →
    system.fds proc fd = some entry → entry.file = .writeEnd pipe →
    entry.cloexec = true ∧ system.phase proc = .live ∧ system.MayHold proc call

namespace HoldersKnown

theorem of_initial (initial : system.Initial) : system.HoldersKnown where
  flat task call rest running := by
    rw [initial.threads] at running
    split at running <;> cases running
  holder proc call pipe fd entry made := by
    rw [initial.pipeOf] at made
    cases made

/-- Calls that are in flight stay so, and no write end of theirs appears. -/
theorem frame (known : system.HoldersKnown)
    (flat : ∀ task call rest, after.control task = .inCall call rest → task.proc = 0)
    (running : ∀ task call rest, system.control task = .inCall call rest →
      ∃ rest, after.control task = .inCall call rest)
    (calls : ∀ call record, system.calls call = some record →
      ∃ record, after.calls call = some record)
    (fds : ∀ proc fd entry call pipe, system.pipeOf call = some pipe →
      after.fds proc fd = some entry → entry.file = .writeEnd pipe →
      system.fds proc fd = some entry ∧ after.phase proc = system.phase proc)
    (birth : after.birth = system.birth) (pipeOf : after.pipeOf = system.pipeOf) :
    after.HoldersKnown where
  flat := flat
  holder proc call pipe fd entry made held isWrite := by
    rw [pipeOf] at made
    obtain ⟨held, phase⟩ := fds proc fd entry call pipe made held isWrite
    obtain ⟨cloexec, live, may⟩ := known.holder proc call pipe fd entry made held isWrite
    refine ⟨cloexec, phase.trans live, may.mono (fun task record inFlight => ?_) ?_⟩
    · obtain ⟨rest, inCall⟩ := inFlight.running
      obtain ⟨record, kept⟩ := calls call record inFlight.known
      exact ⟨record, running task call rest inCall, kept⟩
    · rw [birth]
      exact fun _ born => born

theorem setControl {control : Control} (known : system.HoldersKnown)
    (before : ∀ call rest, system.control task ≠ .inCall call rest)
    (later : ∀ call rest, control ≠ .inCall call rest) :
    (system.setControl task control).HoldersKnown := by
  refine known.frame (fun other call rest inCall => ?_) (fun other call rest inCall => ?_)
    (fun _ record found => ⟨record, found⟩) (fun _ _ _ _ _ _ held _ => ⟨held, rfl⟩) rfl rfl
  · exact known.flat other call rest (control_of_update (later call rest) inCall)
  · have distinct : other ≠ task := by
      rintro rfl
      exact before call rest inCall
    exact ⟨rest, (setControl_of_ne distinct).trans inCall⟩

theorem removeFd {fd : Nat} (known : system.HoldersKnown) :
    (system.setFd proc fd none).HoldersKnown := by
  refine known.frame known.flat (fun _ _ rest inCall => ⟨rest, inCall⟩)
    (fun _ record found => ⟨record, found⟩) (fun other number entry _ _ _ held _ => ?_) rfl rfl
  rw [setFd_fds] at held
  split at held
  · cases held
  · exact ⟨held, rfl⟩

theorem advance {record : CallRecord} {rest remaining : Program SysCalls Int}
    {progress : Progress} (known : system.HoldersKnown)
    (running : system.control task = .inCall call rest) :
    ((system.setCall call { record with progress }).setControl task
      (.inCall call remaining)).HoldersKnown := by
  refine known.frame (fun other number rest' inCall => ?_) (fun other number rest' inCall => ?_)
    (fun number found present => ?_) (fun _ _ _ _ _ _ held _ => ⟨held, rfl⟩) rfl rfl
  · by_cases same : other = task
    · cases same
      exact known.flat task call rest running
    · exact known.flat other number rest' ((setControl_of_ne same).symm.trans inCall)
  · by_cases same : other = task
    · cases same
      cases running.symm.trans inCall
      exact ⟨remaining, setControl_self⟩
    · exact ⟨rest', (setControl_of_ne same).trans inCall⟩
  · by_cases same : number = call
    · cases same
      exact ⟨_, setCall_self⟩
    · exact ⟨found, (setCall_of_ne same).trans present⟩

theorem openPipe {record : CallRecord} {read write : Nat} (known : system.HoldersKnown)
    (numbered : system.Numbered) (inFlight : system.InFlight task call record) :
    (system.openPipe task.proc call read write true).HoldersKnown where
  flat := known.flat
  holder proc number pipe fd entry made held isWrite := by
    obtain ⟨rest, running⟩ := inFlight.running
    have root := known.flat task call rest running
    rw [openPipe_fds] at held
    by_cases own : number = call
    · cases own
      have newest : (system.openPipe task.proc call read write true).pipeOf call =
          some system.nextPipe := Function.update_self ..
      cases newest.symm.trans made
      split at held
      · rename_i here
        cases held
        cases here.1
        exact ⟨rfl, root ▸ numbered.root.2.1, .inl ⟨root, task, record, { inFlight with }⟩⟩
      · split at held
        · cases held
          cases isWrite
        · exact absurd (numbered.files proc fd entry _ held (by rw [isWrite]; rfl))
            (Nat.lt_irrefl _)
    · have made : system.pipeOf number = some pipe :=
        (Function.update_of_ne own ..).symm.trans made
      have older := numbered.pipes number pipe made
      split at held
      · cases held
        cases isWrite
        exact absurd older (Nat.lt_irrefl _)
      · split at held
        · cases held
          cases isWrite
        · obtain ⟨cloexec, live, may⟩ := known.holder proc number pipe fd entry made held isWrite
          exact ⟨cloexec, live, may.mono
            (fun _ record inFlight => ⟨record, { inFlight with }⟩) fun _ born => born⟩

/-- The new process holds what its parent held, whose write ends were those of calls in
flight. -/
theorem spawn {entry : ChildEntry} {ptr : ArgsPtr} {stackPointer exitSignal : UInt64}
    {clearSighand : Bool} {record : CallRecord} (known : system.HoldersKnown)
    (wellFormed : system.WellFormed) (calls : system.CallsOwn)
    (inFlight : system.InFlight task call record) :
    (system.spawn task call entry ptr stackPointer exitSignal clearSighand).HoldersKnown := by
  obtain ⟨numbered, threaded, _⟩ := wellFormed
  have later {other : TaskId} {number : Nat} {found : CallRecord}
      (inFlight : system.InFlight other number found) :
      (system.spawn task call entry ptr stackPointer exitSignal clearSighand).InFlight other
        number found := by
    obtain ⟨rest, running⟩ := inFlight.running
    have older : other ≠ mainTask system.nextProc := by
      rintro rfl
      exact Nat.lt_irrefl _ (numbered.live_lt (inFlight.live threaded))
    exact ⟨⟨rest, (Function.update_of_ne older ..).trans running⟩, inFlight.known⟩
  obtain ⟨rest, running⟩ := inFlight.running
  have root := known.flat task call rest running
  constructor
  · intro other number rest inCall
    simp only [System.spawn, Function.update_apply] at inCall
    split at inCall
    · cases inCall
    · exact known.flat other number rest inCall
  · intro proc number pipe fd found made held isWrite
    rw [spawn_fds] at held
    by_cases new : proc = system.nextProc
    · cases new
      rw [if_pos rfl] at held
      obtain ⟨cloexec, _, may⟩ := known.holder task.proc number pipe fd found made held isWrite
      refine ⟨cloexec, Function.update_self .., .inr ⟨_, Function.update_self .., ?_⟩⟩
      rcases may with ⟨_, parent, held', inFlight'⟩ | ⟨birth, born, _⟩
      · obtain ⟨_, runs⟩ := inFlight'.runs threaded
        obtain ⟨_, running'⟩ := inFlight'.running
        have parentRoot := known.flat parent number _ running'
        have ends := ((calls.owns parent number held' inFlight').table pipe made fd found).mp
          ⟨by rw [parentRoot, ← root]; exact held, by rw [isWrite]; rfl⟩
        have writeOpen := Progress.writeOpen_of_ends ends isWrite
        simp only [openWindows, List.mem_filter, List.mem_range]
        refine ⟨numbered.call_lt inFlight'.known, ?_⟩
        simp [inFlight'.known, runs.caller, parentRoot, root, writeOpen]
      · exact absurd root (numbered.born_ne_root born)
    · rw [if_neg new] at held
      obtain ⟨cloexec, live, may⟩ := known.holder proc number pipe fd found made held isWrite
      exact ⟨cloexec, (Function.update_of_ne new ..).trans live, may.mono
        (fun _ record inFlight => ⟨record, later inFlight⟩)
        fun _ born => (Function.update_of_ne new ..).trans born⟩

theorem callStep {rest remaining : Program SysCalls Int} {record : CallRecord}
    {progress : Progress} (known : system.HoldersKnown) (considerate : system.Considerate)
    (running : system.control task = .inCall call rest)
    (runs : system.Runs task call rest record)
    (effect : CallEffect system task call record.kind record.block record.progress progress
      after) :
    ((after.setCall call { record with progress }).setControl task
      (.inCall call remaining)).HoldersKnown := by
  obtain ⟨wellFormed, calls⟩ := considerate
  have inFlight : system.InFlight task call record := ⟨⟨rest, running⟩, runs.known⟩
  have step : after.HoldersKnown := by
    cases effect with
    | thread | shared | placed =>
        exact known.frame known.flat (fun _ _ rest inCall => ⟨rest, inCall⟩)
          (fun _ record found => ⟨record, found⟩) (fun _ _ _ _ _ _ held _ => ⟨held, rfl⟩)
          rfl rfl
    | piped => exact known.openPipe wellFormed.numbered inFlight
    | closed => exact known.removeFd
    | cloned => exact known.spawn wellFormed calls inFlight
  have still : ∃ rest, after.control task = .inCall call rest := by
    cases effect with
    | cloned =>
        have older : task ≠ mainTask system.nextProc := by
          rintro rfl
          exact Nat.lt_irrefl _
            (wellFormed.numbered.live_lt (inFlight.live wellFormed.threaded))
        exact ⟨rest, (Function.update_of_ne older ..).trans running⟩
    | _ => exact ⟨rest, running⟩
  obtain ⟨rest, running⟩ := still
  exact step.advance running

theorem startingStep {ptr : ArgsPtr} {before progress : ChildProgress}
    {rest remaining : Program SysCalls ChildStart} {request : SysRequest}
    (known : system.HoldersKnown) (running : system.control (mainTask proc) = .starting before rest)
    (effect : ChildEffect system proc ptr before request progress after) :
    (after.setControl (mainTask proc) (.starting progress remaining)).HoldersKnown := by
  have outside (call : Nat) (rest : Program SysCalls Int) :
      system.control (mainTask proc) ≠ .inCall call rest := by
    rw [running]
    exact fun same => nomatch same
  cases effect with
  | loaded => exact known.setControl outside fun _ _ same => nomatch same
  | closed => exact known.removeFd.setControl outside fun _ _ same => nomatch same
  | @cleared _ table =>
      have changed : ({ system with
          actions := Function.update system.actions proc table } : System).HoldersKnown :=
        known.frame known.flat (fun _ _ rest inCall => ⟨rest, inCall⟩)
          (fun _ record found => ⟨record, found⟩) (fun _ _ _ _ _ _ held _ => ⟨held, rfl⟩)
          rfl rfl
      exact changed.setControl outside fun _ _ same => nomatch same

theorem startCall {block : Nat} {kind : CallKind} {pid : Int} {code : Program SysCalls Int}
    (known : system.HoldersKnown) (numbered : system.Numbered)
    (user : system.control task = .user) (root : task.proc = 0) :
    (system.startCall task kind block pid code).HoldersKnown := by
  refine known.frame (fun other call rest inCall => ?_) (fun other call rest inCall => ?_)
    (fun call record found => ?_) (fun _ _ _ _ _ _ held _ => ⟨held, rfl⟩) rfl rfl
  · simp only [System.startCall, Function.update_apply] at inCall
    split at inCall
    · rename_i same
      exact same ▸ root
    · exact known.flat other call rest inCall
  · have distinct : other ≠ task := by
      rintro rfl
      cases user.symm.trans inCall
    exact ⟨rest, (Function.update_of_ne distinct ..).trans inCall⟩
  · have earlier := numbered.call_lt found
    exact ⟨record, (Function.update_of_ne earlier.ne ..).trans found⟩

theorem finish {record : CallRecord} {result : Int} (known : system.HoldersKnown)
    (considerate : system.Considerate)
    (running : system.control task = .inCall call (.done result))
    (runs : system.Runs task call (.done result) record) :
    ((system.setCall call { record with returned := some result }).setControl task
      .user).HoldersKnown where
  flat other number rest inCall := by
    have before := control_of_update (fun same => Control.noConfusion same) inCall
    exact known.flat other number rest before
  holder proc number pipe fd entry made held isWrite := by
    obtain ⟨wellFormed, calls⟩ := considerate
    obtain ⟨cloexec, live, may⟩ := known.holder proc number pipe fd entry made held isWrite
    refine ⟨cloexec, live, ?_⟩
    rcases may with ⟨root, other, found, inFlight⟩ | ⟨birth, born, window⟩
    · obtain ⟨rest, inCall⟩ := inFlight.running
      have distinct : number ≠ call := by
        rintro rfl
        cases runs.known.symm.trans inFlight.known
        have finished : record.start.Finished record.progress result := runs.conforms
        have otherRoot := known.flat other number rest inCall
        have ends := ((calls.owns other number record inFlight).table pipe made fd entry).mp
          ⟨by rw [otherRoot, ← root]; exact held, by rw [isWrite]; rfl⟩
        cases finished.writeClosed.symm.trans (Progress.writeOpen_of_ends ends isWrite)
      have different : other ≠ task := by
        rintro rfl
        cases running.symm.trans inCall
        exact distinct rfl
      exact .inl ⟨root, other, found, ⟨rest, (setControl_of_ne different).trans inCall⟩,
        (setCall_of_ne distinct).trans inFlight.known⟩
    · exact .inr ⟨birth, born, window⟩

theorem userStep {op : UserOp} (known : system.HoldersKnown)
    (considerate : system.Considerate)
    (allowed : system.LeavesCallsAlone (.user task op))
    (simple : (Action.user task op).nestsOrDups = false)
    (stepped : system.userStep task op = some next) : next.HoldersKnown := by
  cases op with
  | close fd =>
      cases stepped
      exact known.removeFd
  | «open» fd file cloexec =>
      simp only [System.userStep] at stepped
      split at stepped
      · cases stepped
        refine known.frame known.flat (fun _ _ rest inCall => ⟨rest, inCall⟩)
          (fun _ record found => ⟨record, found⟩)
          (fun other number entry _ _ _ held isWrite => ?_) rfl rfl
        rw [setFd_fds] at held
        split at held
        · cases held
          cases isWrite
        · exact ⟨held, rfl⟩
      · cases stepped
  | dup old new cloexec =>
      have root : task.proc = 0 := by simpa [Action.nestsOrDups] using simple
      simp only [System.userStep] at stepped
      split at stepped
      · cases stepped
      · rename_i copied source
        cases stepped
        refine known.frame known.flat (fun _ _ rest inCall => ⟨rest, inCall⟩)
          (fun _ record found => ⟨record, found⟩)
          (fun other number entry call pipe made held isWrite => ?_) rfl rfl
        rw [setFd_fds] at held
        split at held
        · rename_i here
          cases held
          -- the root has no write end to duplicate but those of calls in flight
          obtain ⟨_, _, may⟩ := known.holder task.proc call pipe old copied made source isWrite
          rcases may with ⟨_, other, record, inFlight⟩ | ⟨_, born, _⟩
          · obtain ⟨rest, inCall⟩ := inFlight.running
            have same : other.proc = task.proc := (known.flat _ _ _ inCall).trans root.symm
            have owns := considerate.calls.owns other call record inFlight
            have ends := (owns.table pipe made old copied).mp
              ⟨by rw [same]; exact source, by rw [isWrite]; rfl⟩
            have untouched := (allowed task _ rfl other call record inFlight).2 same old
              (Progress.holds_iff.mpr ⟨_, ends⟩)
            simp [UserOp.touches] at untouched
          · exact absurd root (considerate.wellFormed.numbered.born_ne_root born)
        · exact ⟨held, rfl⟩
  | setMask | setAction | setCancel | setStack =>
      cases stepped
      exact known.frame known.flat (fun _ _ rest inCall => ⟨rest, inCall⟩)
        (fun _ record found => ⟨record, found⟩) (fun _ _ _ _ _ _ held _ => ⟨held, rfl⟩) rfl rfl

/-- A process that is gone holds no write end: it has lost every descriptor that is
closed at `execve`. -/
theorem leave {phase : Phase} {table : FdTable} (known : system.HoldersKnown)
    (leaves : phase = .execed ∧ table = (system.fds proc).afterExec ∨
      phase = .exited ∧ table = .empty)
    (child : proc ≠ 0) : (system.leave proc phase table).HoldersKnown := by
  refine known.frame (fun other call rest inCall => ?_) (fun other call rest inCall => ?_)
    (fun _ record found => ⟨record, found⟩)
    (fun other number entry call pipe made held isWrite => ?_) rfl rfl
  · simp only [System.leave, Function.update_apply] at inCall
    split at inCall
    · cases inCall
    · exact known.flat other call rest inCall
  · have distinct : other ≠ mainTask proc := by
      rintro rfl
      exact child (known.flat _ call rest inCall)
    exact ⟨rest, (Function.update_of_ne distinct ..).trans inCall⟩
  · by_cases same : other = proc
    · cases same
      simp only [System.leave, Function.update_self] at held
      rcases leaves with ⟨_, rfl⟩ | ⟨_, rfl⟩
      · obtain ⟨held, kept⟩ := Option.filter_eq_some_iff.mp held
        obtain ⟨cloexec, _⟩ := known.holder proc call pipe number entry made held isWrite
        simp [cloexec] at kept
      · cases held
    · simp only [System.leave, Function.update_of_ne same] at held ⊢
      exact ⟨held, trivial⟩

theorem of_change {action : Action} (known : system.HoldersKnown)
    (considerate : system.Considerate) (allowed : system.LeavesCallsAlone action)
    (simple : action.nestsOrDups = false) (change : system.Change action next) :
    next.HoldersKnown := by
  cases change with
  | call running runs effect => exact known.callStep considerate running runs effect
  | starting running _ effect => exact known.startingStep running effect
  | started user starts side =>
      refine known.startCall considerate.wellFormed.numbered user (side.mp ?_)
      cases action with
      | aspawn =>
          cases starts
          rfl
      | aspawnRec => cases simple
      | _ => cases starts
  | finish running runs => exact known.finish considerate running runs
  | enter running =>
      exact known.setControl (by rw [running]; exact fun _ _ same => nomatch same)
        fun _ _ same => nomatch same
  | user user stepped => exact known.userStep considerate allowed simple stepped
  | left child _ leaves => exact known.leave leaves child
  | raise | deliver =>
      exact known.frame known.flat (fun _ _ rest inCall => ⟨rest, inCall⟩)
        (fun _ record found => ⟨record, found⟩) (fun _ _ _ _ _ _ held _ => ⟨held, rfl⟩) rfl rfl

end HoldersKnown

theorem holdersKnown_of_reaches (initial : start.Initial)
    (reached : Reaches step (fun system action =>
      system.LeavesCallsAlone action ∧ action.nestsOrDups = false) start system) :
    system.Considerate ∧ system.HoldersKnown := by
  refine reached.invariant (fun state => state.Considerate ∧ state.HoldersKnown)
    ⟨⟨.of_initial initial, .of_initial initial⟩, .of_initial initial⟩ ?_
  intro state next action ⟨considerate, known⟩ ⟨allowed, simple⟩ stepped
  have change := considerate.wellFormed.change stepped
  exact ⟨considerate.of_change allowed change, known.of_change considerate allowed simple change⟩

/-- The children that were cloned by other calls while the write end of `call` was open in
the calling process. -/
def ClonedMeanwhile (system : System) (call proc : Nat) : Prop :=
  ∃ birth, system.birth proc = some birth ∧ birth.call ≠ call ∧ call ∈ birth.windows

/-- Once a call has returned and its child is done, only live children of other calls that
were cloned meanwhile hold the write end of its pipe, and without them the returned
descriptor reports HUP. -/
theorem holders_after_child {child : Nat} {record : CallRecord} {result : Int}
    (initial : start.Initial)
    (reached : Reaches step (fun system action =>
      system.LeavesCallsAlone action ∧ action.nestsOrDups = false) start system)
    (known : system.calls call = some record) (returned : record.returned = some result)
    (isChild : system.IsChildOf call child)
    (finished : system.phase child = .execed ∨ system.phase child = .exited) :
    (∀ proc pipe, system.pipeOf call = some pipe →
      (system.fds proc).Holds (.writeEnd pipe) →
        system.phase proc = .live ∧ system.ClonedMeanwhile call proc) ∧
      ((∀ proc, system.ClonedMeanwhile call proc → system.phase proc ≠ .live) →
        system.Hup call) := by
  obtain ⟨considerate, holders⟩ := holdersKnown_of_reaches initial reached
  obtain ⟨wellFormed, calls⟩ := considerate
  have only : ∀ proc pipe, system.pipeOf call = some pipe →
      (system.fds proc).Holds (.writeEnd pipe) →
        system.phase proc = .live ∧ system.ClonedMeanwhile call proc := by
    intro proc pipe made ⟨fd, entry, held, isWrite⟩
    obtain ⟨_, live, may⟩ := holders.holder proc call pipe fd entry made held isWrite
    refine ⟨live, ?_⟩
    rcases may with ⟨_, task, found, inFlight⟩ | ⟨birth, born, window⟩
    · obtain ⟨_, runs⟩ := inFlight.runs wellFormed.threaded
      cases known.symm.trans runs.known
      cases returned.symm.trans runs.unreturned
    · refine ⟨birth, born, ?_, window⟩
      rintro rfl
      have childIs := (wellFormed.lineage.isChildOf_iff known).mp isChild
      have procIs := (wellFormed.lineage.isChildOf_iff known).mp ⟨birth, born, rfl⟩
      cases Int.ofNat_inj.mp (Option.some.inj (childIs.symm.trans procIs))
      rw [live] at finished
      rcases finished with execed | exited
      · cases execed
      · cases exited
  refine ⟨only, fun gone => ?_⟩
  obtain ⟨birth, born, rfl⟩ := isChild
  obtain ⟨found, args, of⟩ := wellFormed.lineage.born child birth born
  obtain ⟨pipe, made⟩ := wellFormed.lineage.piped _ _ _ of.known of.pipe
  refine ⟨pipe, made, fun proc holds => ?_⟩
  obtain ⟨live, meanwhile⟩ := only proc pipe made holds
  exact gone proc meanwhile live

/-- While thread 0 has its pipe open, thread 1 clones a child. The child of thread 0 is
past `execve` when that other child is still at its start. -/
def overlappingCalls : List Action :=
  let other : TaskId := { proc := 0, thread := 1 }
  List.flatten [
    [.aspawn (mainTask 0) 0 100 200 0 0, .aspawn other 1 101 201 0 0],
    Action.codes (mainTask 0) [.ok, .ok, .fds 3 4],
    Action.codes other [.ok, .ok, .fds 5 6, .ok, .ok, .ok, .ok],
    Action.codes (mainTask 0) (List.replicate 8 .ok), [.finish (mainTask 0)],
    Action.codes (mainTask 2) (List.replicate 3 .ok), [.enter 2, .execve 2]]

theorem overlappingCalls_plain : ∀ action ∈ overlappingCalls,
    action.isUser = false ∧ action.nestsOrDups = false := by
  decide

theorem overlappingCalls_reaches :
    ∃ system record, run step (boot .default reservedStacks) overlappingCalls =
      some system ∧ system.calls 0 = some record ∧ record.returned = some 3 ∧
      system.IsChildOf 0 2 ∧ system.phase 2 = .execed ∧ system.pipeOf 0 = some 0 ∧
      system.fds 1 4 = some { file := .writeEnd 0, cloexec := true } := by
  have completes : ((run step (boot .default reservedStacks) overlappingCalls).bind
      fun system => (system.calls 0).map fun record =>
        (record.returned, (system.birth 2).map Birth.call, system.phase 2, system.pipeOf 0,
          system.fds 1 4)) =
      some (some 3, some 0, .execed, some 0, some { file := .writeEnd 0, cloexec := true }) := by
    decide +kernel
  obtain ⟨system, performed, projected⟩ := Option.bind_eq_some_iff.mp completes
  obtain ⟨record, known, values⟩ := Option.map_eq_some_iff.mp projected
  simp only [Prod.mk.injEq] at values
  obtain ⟨returned, birth, phase, made, held⟩ := values
  obtain ⟨found, born, of⟩ := Option.map_eq_some_iff.mp birth
  exact ⟨system, record, performed, known, returned, ⟨found, born, of⟩, phase, made, held⟩

/-- The read end of a call whose child is done does not report HUP while a child that was
cloned meanwhile lives. -/
theorem hup_delayed_by_other_child :
    ∃ system record, run step (boot .default reservedStacks) overlappingCalls =
      some system ∧
      (∀ action ∈ overlappingCalls, action.isUser = false ∧ action.nestsOrDups = false) ∧
      system.calls 0 = some record ∧ record.returned = some 3 ∧ system.IsChildOf 0 2 ∧
      system.phase 2 = .execed ∧ ¬ system.Hup 0 := by
  obtain ⟨system, record, performed, known, returned, isChild, phase, made, held⟩ :=
    overlappingCalls_reaches
  refine ⟨system, record, performed, overlappingCalls_plain, known, returned, isChild, phase, ?_⟩
  rintro ⟨pipe, made', closed⟩
  cases made.symm.trans made'
  exact closed 1 ⟨4, _, held, rfl⟩

theorem holders_after_child_overlapping :
    ∃ system, run step (boot .default reservedStacks) overlappingCalls =
      some system ∧
      (∀ proc pipe, system.pipeOf 0 = some pipe →
        (system.fds proc).Holds (.writeEnd pipe) →
          system.phase proc = .live ∧ system.ClonedMeanwhile 0 proc) ∧
        ((∀ proc, system.ClonedMeanwhile 0 proc → system.phase proc ≠ .live) →
          system.Hup 0) := by
  obtain ⟨system, record, performed, known, returned, isChild, phase, _⟩ :=
    overlappingCalls_reaches
  refine ⟨system, performed, holders_after_child boot_initial (.of_run performed ?_) known
    returned isChild (.inl phase)⟩
  exact .of_forall fun action member _ =>
    ⟨leavesCallsAlone_of_not_isUser (overlappingCalls_plain action member).1,
      (overlappingCalls_plain action member).2⟩

end System

end Aspawn
