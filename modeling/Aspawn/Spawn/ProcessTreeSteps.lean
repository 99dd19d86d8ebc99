import Aspawn.Spawn.CallDiscipline
import Aspawn.Spawn.ProcessTreeProperties
import Aspawn.Spawn.SigsetProperties

/-! What each step of the system is in the process tree. -/

set_option autoImplicit false

namespace Aspawn

open Protocol Transition

/-! ## What a call hands to its child -/

/-- The call only stores the arguments of its job. -/
def jobRules (job : Option Job) (kind : CallKind) (block : Nat) : Protocol SysCalls Progress where
  permits _
    | .storeArgs _ args => job = some args.job
    | _ => True
  answers := (callProtocol kind block).answers
  after := (callProtocol kind block).after

theorem jobRules_plain {job : Option Job} {kind : CallKind} {block : Nat} (progress : Progress)
    (request : SysRequest) (plain : request.plain) :
    (jobRules job kind block).permits progress request := by
  cases request with
  | storeArgs => cases plain
  | _ => trivial

theorem admitsChild_jobRules {kind : CallKind} {block fn arg : Nat} {oldSigset : SigsetT}
    {stack : StackT} :
    AdmitsChild (jobRules (some { fn, arg, oldSigset }) kind block) block stack fn arg
      oldSigset where
  store _ _ := rfl
  cloned _ _ := conforms_cloneChild (fun _ _ flag => by rcases flag with rfl | rfl <;> trivial)
    (fun _ => trivial) fun _ => trivial

/-- The job of a call of `aspawn`: its thread's mask on what `oldset` holds. -/
theorem aspawn_conforms_job {kind : CallKind} {block fn arg : Nat} {oldset : SigsetT}
    {progress : Progress} :
    (jobRules (some { fn, arg, oldSigset := progress.mask.write oldset }) kind block).Conforms
      (fun _ _ => True) progress (aspawn block fn arg oldset) := by
  refine conforms_aspawn jobRules_plain fun oldstate blocked answered after stack _ => ?_
  rcases answered with ⟨error, _⟩ | ⟨_, rfl⟩
  · exact absurd error.negative (by decide)
  · exact admitsChild_jobRules

theorem aspawnRec_conforms_job {kind : CallKind} {block fn arg : Nat} {oldSigset : SigsetT}
    {progress : Progress} :
    (jobRules (some { fn, arg, oldSigset }) kind block).Conforms (fun _ _ => True) progress
      (aspawnRec block fn arg oldSigset) :=
  conforms_aspawnImpl jobRules_plain fun _ _ _ => admitsChild_jobRules

/-! ## The tree of a system -/

/-- The tree shows the call as it is. -/
structure CallRecord.Shown (record : CallRecord) (call : SpawnCall) : Prop where
  caller : call.caller = record.caller
  pid : call.pid = record.start.pid
  returned : call.returned = record.returned
  child : record.progress.child = call.child.map fun made => (made.1 : Int)
  pipefd : ∀ made, call.child = some made → record.progress.pipefd = some made.2
  job : ∀ args, record.progress.args = some args → args.job = call.job

namespace System

variable {system next after : System} {task : TaskId} {call proc : Nat} {record : CallRecord}
  {tree : ProcessTree} {action : Action}

def processState (system : System) (proc : Nat) : ProcessState :=
  match system.phase proc with
  | .unborn => .absent
  | .live =>
      match system.birth proc with
      | none => .running
      | some birth =>
          if (system.control (mainTask proc)).isStarting then .made birth.call else .running
  | .execed | .exited => .gone

theorem processState_eq_absent :
    system.processState proc = .absent ↔ system.phase proc = .unborn := by
  unfold processState
  cases system.phase proc with
  | live =>
      cases system.birth proc with
      | none => simp
      | some birth => cases (system.control (mainTask proc)).isStarting <;> simp
  | unborn | execed | exited => simp

/-- The tree is what an observer knows of the system. -/
structure Represents (system : System) (tree : ProcessTree) : Prop where
  unknown : ∀ call, system.calls call = none → tree.calls call = none
  known : ∀ call record, system.calls call = some record →
    ∃ spawning, tree.calls call = some spawning ∧ record.Shown spawning
  processes : ∀ proc, tree.processes proc = system.processState proc

theorem processState_eq (phase : next.phase proc = system.phase proc)
    (birth : next.birth proc = system.birth proc)
    (starting : (next.control (mainTask proc)).isStarting =
      (system.control (mainTask proc)).isStarting) :
    next.processState proc = system.processState proc := by
  rw [processState, processState, phase, birth, starting]

theorem isStarting_setControl {control : Control}
    (same : control.isStarting = (system.control task).isStarting) (other : TaskId) :
    ((system.setControl task control).control other).isStarting =
      (system.control other).isStarting := by
  by_cases here : other = task
  · cases here
    rw [setControl_self, same]
  · rw [setControl_of_ne here]

/-- A process whose thread is in user code or in a call runs. -/
theorem processState_of_control {control : Control} (wellFormed : system.WellFormed)
    (running : system.control task = control) (present : control.isPresent)
    (started : control.isStarting = false) : system.processState task.proc = .running := by
  have live := wellFormed.live_of_control running present
  unfold processState
  rw [live]
  cases born : system.birth task.proc with
  | none => rfl
  | some birth =>
      have child := wellFormed.numbered.born_ne_root born
      have main := (wellFormed.threaded.present task (running ▸ present)).2 child
      have running : system.control (mainTask task.proc) = control := main ▸ running
      simp only [running, started, Bool.false_eq_true, if_false]

theorem processState_of_starting {progress : ChildProgress} {rest : Program SysCalls ChildStart}
    {birth : Birth} (live : system.phase proc = .live)
    (running : system.control (mainTask proc) = .starting progress rest)
    (born : system.birth proc = some birth) : system.processState proc = .made birth.call := by
  unfold processState
  simp only [live, born, running, Control.isStarting, if_true]

namespace Represents

theorem of_initial (initial : system.Initial) : system.Represents .start where
  unknown _ _ := rfl
  known call record known := by
    rw [initial.calls] at known
    cases known
  processes proc := by
    unfold processState
    by_cases root : proc = 0
    · cases root
      simp only [initial.root, initial.birth, ProcessTree.start, if_true]
    · simp only [(initial.others proc root).1, ProcessTree.start, if_neg root]

theorem frame (represents : system.Represents tree) (calls : next.calls = system.calls)
    (processes : ∀ proc, next.processState proc = system.processState proc) :
    next.Represents tree where
  unknown := calls ▸ represents.unknown
  known := calls ▸ represents.known
  processes proc := (represents.processes proc).trans (processes proc).symm

/-- A call changes, and the tree with it. -/
theorem setCall {spawning : SpawnCall} (represents : system.Represents tree)
    (calls : next.calls = Function.update system.calls call (some record))
    (processes : ∀ proc, next.processState proc = system.processState proc)
    (shown : record.Shown spawning) : next.Represents (tree.setCall call spawning) where
  unknown other absent := by
    by_cases same : other = call
    · cases same
      rw [calls, Function.update_self] at absent
      cases absent
    · rw [calls, Function.update_of_ne same] at absent
      exact (Function.update_of_ne same ..).trans (represents.unknown other absent)
  known other found present := by
    by_cases same : other = call
    · cases same
      rw [calls, Function.update_self] at present
      cases present
      exact ⟨spawning, Function.update_self .., shown⟩
    · rw [calls, Function.update_of_ne same] at present
      obtain ⟨found, known, shown⟩ := represents.known other found present
      exact ⟨found, (Function.update_of_ne same ..).trans known, shown⟩
  processes proc := (represents.processes proc).trans (processes proc).symm

/-- A process changes, and the tree with it. -/
theorem setProcess {state : ProcessState} (represents : system.Represents tree)
    (calls : next.calls = system.calls) (changed : next.processState proc = state)
    (others : ∀ other, other ≠ proc → next.processState other = system.processState other) :
    next.Represents (tree.setProcess proc state) where
  unknown := calls ▸ represents.unknown
  known := calls ▸ represents.known
  processes other := by
    by_cases same : other = proc
    · cases same
      exact (Function.update_self ..).trans changed.symm
    · exact (Function.update_of_ne same ..).trans
        ((represents.processes other).trans (others other same).symm)

end Represents

/-! ## One step -/

/-- The rules of each call that the tree knows. -/
def rulesOfJobs (tree : ProcessTree) (call : Nat) (record : CallRecord) :
    Protocol SysCalls Progress :=
  jobRules ((tree.calls call).map SpawnCall.job) record.kind record.block

theorem lasting_rulesOfJobs : Lasting (rulesOfJobs tree) where
  stays _ _ _ _ := rfl
  after _ _ := rfl

/-- What an observer sees of a step is a run of the tree, in which the jobs of earlier calls
stay and a new call has the job that its code carries out. -/
structure Matched (system : System) (action : Action) (next : System) (tree later : ProcessTree) :
    Prop where
  seen : run ProcessTree.step tree (system.observe action next) = some later
  represents : next.Represents later
  jobs : ∀ call record, system.calls call = some record →
    (later.calls call).map SpawnCall.job = (tree.calls call).map SpawnCall.job
  starts : system.StartsTo (rulesOfJobs later) action

theorem startsTo_of_not_starts {rules : Nat → CallRecord → Protocol SysCalls Progress}
    (starts : action.starts = none) : system.StartsTo rules action where
  aspawn _ _ _ _ _ _ same := by
    cases same
    cases starts
  aspawnRec _ _ _ _ _ _ same := by
    cases same
    cases starts

/-- Nothing is seen of the step. -/
theorem Represents.unseen (represents : next.Represents tree)
    (seen : system.observe action next = []) (starts : action.starts = none) :
    system.Matched action next tree tree where
  seen := by rw [seen]; rfl
  represents := represents
  jobs _ _ _ := rfl
  starts := startsTo_of_not_starts starts

namespace Represents

variable {choice : Choice} {progress : Progress} {rest remaining : Program SysCalls Int}

/-- A request that makes no process. -/
theorem requestStep {spawning : SpawnCall} (represents : system.Represents tree)
    (running : system.control task = .inCall call rest)
    (known : tree.calls call = some spawning) (calls : after.calls = system.calls)
    (phase : after.phase = system.phase) (birth : after.birth = system.birth)
    (control : after.control = system.control) (nextProc : after.nextProc = system.nextProc)
    (shown : ({ record with progress } : CallRecord).Shown spawning) :
    system.Matched (.code task choice) ((after.setCall call { record with progress }).setControl
      task (.inCall call remaining)) tree tree := by
  have kept : tree.setCall call spawning = tree := by
    rw [ProcessTree.setCall, ← known, Function.update_eq_self]
  refine unseen ?_ ?_ rfl
  · rw [← kept]
    refine represents.setCall (congrArg (Function.update · call _) calls) (fun proc => ?_) shown
    refine processState_eq (congrFun phase proc) (congrFun birth proc) ?_
    rw [isStarting_setControl]
    · exact congrArg (fun control : TaskId → Control => (control (mainTask proc)).isStarting)
        control
    · have same : (after.setCall call { record with progress }).control task =
        .inCall call rest := (congrFun control task).trans running
      rw [same]
      rfl
  · simp only [observe, running]
    exact if_pos nextProc

/-- A request that makes a process. -/
theorem cloneStep {entry : ChildEntry} {ptr : ArgsPtr} {stackPointer exitSignal : UInt64}
    {clearSighand : Bool} {pipefd : Nat × Nat} {spawning : SpawnCall}
    (represents : system.Represents tree) (wellFormed : system.WellFormed)
    (running : system.control task = .inCall call rest)
    (runs : system.Runs task call rest record) (known : tree.calls call = some spawning)
    (childless : record.progress.child = none) (pipe : record.progress.pipefd = some pipefd)
    (shown : record.Shown spawning) (child : progress.child = some (system.nextProc : Int))
    (opened : progress.pipefd = record.progress.pipefd)
    (args : progress.args = record.progress.args) :
    ∃ later, system.Matched (.code task choice)
      (((system.spawn task call entry ptr stackPointer exitSignal clearSighand).setCall call
        { record with progress }).setControl task (.inCall call remaining)) tree later := by
  have live := wellFormed.live_of_control running rfl
  have unborn := (wellFormed.numbered.unborn system.nextProc le_rfl).1
  have older : task ≠ mainTask system.nextProc := by
    rintro rfl
    exact absurd (wellFormed.numbered.live_lt live) (Nat.lt_irrefl _)
  have noChild : spawning.child = none := by
    have same := shown.child
    rw [childless] at same
    exact Option.map_eq_none_iff.mp same.symm
  have grown : ({ record with progress } : CallRecord).Shown
      { spawning with child := some (system.nextProc, pipefd) } :=
    { shown with
      child := child
      pipefd := fun made same => by
        cases same
        exact opened.trans pipe
      job := fun placed same => shown.job placed (args ▸ same) }
  have updated : (system.setCall call { record with progress }).Represents
      (tree.setCall call { spawning with child := some (system.nextProc, pipefd) }) :=
    represents.setCall rfl (fun _ => rfl) grown
  refine ⟨(tree.setCall call { spawning with child := some (system.nextProc, pipefd) }).setProcess
    system.nextProc (.made call), ?_, ?_, ?_, startsTo_of_not_starts rfl⟩
  · have seen : system.observe (.code task choice) (((system.spawn task call entry ptr
        stackPointer exitSignal clearSighand).setCall call { record with progress }).setControl
          task (.inCall call remaining)) = [.made call system.nextProc pipefd] := by
      simp only [observe, running, pipefdOf, runs.known, pipe]
      exact if_neg (Nat.succ_ne_self system.nextProc)
    have parent : tree.processes spawning.caller.proc = .running := by
      rw [shown.caller, runs.caller, represents.processes]
      exact processState_of_control wellFormed running rfl rfl
    have absent : tree.processes system.nextProc = .absent := by
      rw [represents.processes, processState, unborn]
    have unreturned : spawning.returned = none := shown.returned.trans runs.unreturned
    rw [seen]
    refine run_single ?_
    simp only [ProcessTree.step, known, noChild, unreturned, parent, absent, Option.isNone_none,
      and_self, if_true]
  · refine updated.setProcess rfl ?_ fun other distinct => ?_
    · have started : (((system.spawn task call entry ptr stackPointer exitSignal
          clearSighand).setCall call { record with progress }).setControl task
            (.inCall call remaining)).control (mainTask system.nextProc) =
          .starting entry.progress (entry.program ptr) :=
        (setControl_of_ne older.symm).trans (Function.update_self ..)
      exact processState_of_starting (Function.update_self ..) started (Function.update_self ..)
    · refine processState_eq (Function.update_of_ne distinct ..)
        (Function.update_of_ne distinct ..) ?_
      rw [isStarting_setControl]
      · refine congrArg Control.isStarting (Function.update_of_ne ?_ ..)
        exact fun same => distinct (congrArg TaskId.proc same)
      · have same : ((system.spawn task call entry ptr stackPointer exitSignal
            clearSighand).setCall call { record with progress }).control task =
            .inCall call rest := (Function.update_of_ne older ..).trans running
        rw [same]
        rfl
  · intro other found _
    by_cases same : other = call
    · cases same
      simp only [ProcessTree.setProcess, ProcessTree.setCall, Function.update_self, known,
        Option.map_some]
    · simp only [ProcessTree.setProcess, ProcessTree.setCall, Function.update_of_ne same]

theorem callStep (represents : system.Represents tree) (wellFormed : system.WellFormed)
    (running : system.control task = .inCall call rest)
    (runs : system.Runs task call rest record)
    (effect : CallEffect system task call record.kind record.block record.progress progress
      after)
    (jobs : ∀ args, progress.args = some args → record.progress.args ≠ some args →
      (tree.calls call).map SpawnCall.job = some args.job) :
    ∃ later, system.Matched (.code task choice)
      ((after.setCall call { record with progress }).setControl task (.inCall call remaining))
      tree later := by
  obtain ⟨spawning, known, shown⟩ := represents.known call record runs.known
  have same := shown.child
  cases effect with
  | thread | shared =>
      exact ⟨tree, represents.requestStep running known rfl rfl rfl rfl rfl { shown with }⟩
  | @placed args pipe childless =>
      refine ⟨tree, represents.requestStep running known rfl rfl rfl rfl rfl
        { shown with job := fun args' placed => ?_ }⟩
      by_cases before : record.progress.args = some args'
      · exact shown.job args' before
      · have job := jobs args' placed before
        rw [known] at job
        exact (Option.some.inj job).symm
  | piped none =>
      refine ⟨tree, represents.requestStep running known rfl rfl rfl rfl rfl
        { shown with pipefd := fun made has => ?_ }⟩
      cases none.symm.trans (shown.pipefd made has)
  | closed =>
      refine ⟨tree, represents.requestStep running known rfl rfl rfl rfl rfl { shown with
        child := Progress.closed_child.trans same
        pipefd := fun made has => Progress.closed_pipefd.trans (shown.pipefd made has)
        job := fun args placed => shown.job args (Progress.closed_args ▸ placed) }⟩
  | cloned mayClone =>
      obtain ⟨args, placed⟩ := Option.isSome_iff_exists.mp mayClone.placed
      have pipe := mayClone.pipe
      rw [placed] at pipe
      exact represents.cloneStep wellFormed running runs known mayClone.childless pipe shown rfl
        rfl rfl

theorem startingStep {birth : Birth} {before : ChildProgress} {later : ChildProgress}
    {rest remaining : Program SysCalls ChildStart} {request : SysRequest}
    (represents : system.Represents tree)
    (running : system.control (mainTask proc) = .starting before rest)
    (effect : ChildEffect system proc birth.args before request later after) :
    system.Matched (.code (mainTask proc) choice)
      (after.setControl (mainTask proc) (.starting later remaining)) tree tree := by
  have seen : system.observe (.code (mainTask proc) choice)
      (after.setControl (mainTask proc) (.starting later remaining)) = [] := by
    simp only [observe, running]
  have starting (other : Nat) : ((system.setControl (mainTask proc)
      (.starting later remaining)).control (mainTask other)).isStarting =
        (system.control (mainTask other)).isStarting := by
    refine isStarting_setControl ?_ _
    rw [running]
    rfl
  refine unseen ?_ seen rfl
  cases effect <;> exact represents.frame rfl fun other => processState_eq rfl rfl (starting other)

theorem startedStep {kind : CallKind} {block : Nat} {pid : Int} {code : Program SysCalls Int}
    {job : Job} (represents : system.Represents tree) (wellFormed : system.WellFormed)
    (user : system.control task = .user)
    (seen : system.observe action (system.startCall task kind block pid code) =
      [.called system.nextCall task job pid])
    (starts : ∀ rules : Nat → CallRecord → Protocol SysCalls Progress,
      (∀ record, rules system.nextCall record = jobRules (some job) record.kind record.block) →
      system.StartsTo rules action) :
    ∃ later, system.Matched action (system.startCall task kind block pid code) tree later := by
  have uncalled := (wellFormed.numbered.uncalled system.nextCall le_rfl).1
  have new := represents.unknown system.nextCall uncalled
  have running : tree.processes task.proc = .running := by
    rw [represents.processes]
    exact processState_of_control wellFormed user rfl rfl
  have starting : Control.isStarting (.inCall system.nextCall code) =
      (system.control task).isStarting := by
    rw [user]
    rfl
  refine ⟨tree.setCall system.nextCall { caller := task, job, pid, child := none, returned := none },
    ?_, ?_, ?_, starts _ fun record => ?_⟩
  · rw [seen]
    refine run_single ?_
    simp only [ProcessTree.step, new, running, Option.isNone_none, and_self, if_true]
  · refine represents.setCall rfl
      (fun proc => processState_eq rfl rfl (isStarting_setControl starting _)) ?_
    exact { caller := rfl, pid := rfl, returned := rfl, child := rfl
            pipefd := fun _ same => by cases same
            job := fun _ same => by cases same }
  · intro other found present
    have distinct : other ≠ system.nextCall := (wellFormed.numbered.call_lt present).ne
    simp only [ProcessTree.setCall, Function.update_of_ne distinct]
  · simp only [rulesOfJobs, ProcessTree.setCall, Function.update_self, Option.map_some]

theorem answers {result : Int} {spawning : SpawnCall} (shown : record.Shown spawning)
    (finished : record.start.Finished record.progress result) :
    spawning.Answers result record.progress.pid := by
  have same := shown.child
  unfold SpawnCall.Answers
  cases made : spawning.child with
  | none =>
      rw [made] at same
      have negative : result < 0 := by
        by_contra positive
        obtain ⟨_, _, _, _, _, child, _⟩ := finished.success (by omega)
        cases same.symm.trans child
      exact ⟨negative, (finished.failure negative).2.2.2.trans shown.pid.symm⟩
  | some child =>
      rw [made] at same
      have positive : 0 ≤ result := by
        by_contra negative
        cases (finished.failure (by omega)).2.1.symm.trans same
      obtain ⟨pipefd, pid, opened, returns, _, made', stored⟩ := finished.success positive
      cases opened.symm.trans (shown.pipefd child made)
      cases made'.symm.trans same
      exact ⟨returns, stored⟩

theorem finishStep {result : Int} (represents : system.Represents tree)
    (running : system.control task = .inCall call (.done result))
    (runs : system.Runs task call (.done result) record) :
    ∃ later, system.Matched (.finish task) ((system.setCall call
      { record with returned := some result }).setControl task .user) tree later := by
  obtain ⟨spawning, known, shown⟩ := represents.known call record runs.known
  have unreturned : spawning.returned = none := shown.returned.trans runs.unreturned
  have starting : Control.isStarting .user =
      ((system.setCall call { record with returned := some result }).control task).isStarting :=
    (congrArg Control.isStarting running).symm
  refine ⟨tree.setCall call { spawning with returned := some result }, ?_, ?_, ?_,
    startsTo_of_not_starts rfl⟩
  · simp only [observe, running, runs.known]
    refine run_single ?_
    simp only [ProcessTree.step, known, unreturned, Option.isNone_none, answers shown runs.conforms,
      and_self, if_true]
  · exact represents.setCall rfl
      (fun proc => processState_eq rfl rfl (isStarting_setControl starting _))
      { shown with returned := rfl }
  · intro other found _
    by_cases same : other = call
    · cases same
      simp only [ProcessTree.setCall, Function.update_self, known, Option.map_some]
    · simp only [ProcessTree.setCall, Function.update_of_ne same]

theorem enterStep {progress : ChildProgress} {fn arg writeEndFd : Nat} {oldSigset : SigsetT}
    (represents : system.Represents tree) (awaited : system.HupAwaited)
    (entering : system.control (mainTask proc) =
      .starting progress (.done (.fn fn arg writeEndFd oldSigset)))
    (ready : progress.Ready (.fn fn arg writeEndFd oldSigset)) :
    system.Matched (.enter proc) (system.setControl (mainTask proc) .user) tree
      (tree.setProcess proc .running) := by
  have wellFormed := awaited.considerate.wellFormed
  have live : system.phase proc = .live := wellFormed.live_of_control entering rfl
  obtain ⟨⟨readEndFd, loaded⟩, _⟩ := ready
  obtain ⟨birth, record, born, of⟩ := awaited.kept.loaded proc progress _ _ entering loaded
  obtain ⟨spawning, known, shown⟩ := represents.known birth.call record of.known
  have made : tree.processes proc = .made birth.call := by
    rw [represents.processes]
    exact processState_of_starting live entering born
  have child : spawning.child = some (proc, (readEndFd, writeEndFd)) := by
    obtain ⟨⟨other, pipefd⟩, has, same⟩ := Option.map_eq_some_iff.mp (shown.child.symm.trans of.child)
    cases Int.ofNat_inj.mp same
    cases of.pipe.symm.trans (shown.pipefd _ has)
    exact has
  refine ⟨?_, ?_, fun _ _ _ => rfl, startsTo_of_not_starts rfl⟩
  · simp only [observe, entering]
    refine run_single ?_
    simp only [ProcessTree.step, made, known, ← shown.job _ of.placed, ChildArgs.job, child,
      Option.map_some, and_self, if_true]
  · have entered : (system.setControl (mainTask proc) .user).control (mainTask proc) = .user :=
      setControl_self
    refine represents.setProcess rfl ?_ fun other distinct => processState_eq rfl rfl ?_
    · unfold processState
      rw [entered]
      simp only [System.setControl, live, born, Control.isStarting, Bool.false_eq_true, if_false]
    · rw [setControl_of_ne fun same => distinct (congrArg TaskId.proc same)]

theorem leftStep {phase : Phase} {table : FdTable} {event : SpawnEvent}
    (represents : system.Represents tree)
    (leaves : phase = .execed ∨ phase = .exited)
    (seen : system.observe action (system.leave proc phase table) = [event])
    (stepped : tree.step event = some (tree.setProcess proc .gone))
    (starts : action.starts = none) :
    system.Matched action (system.leave proc phase table) tree (tree.setProcess proc .gone) := by
  refine ⟨?_, ?_, fun _ _ _ => rfl, startsTo_of_not_starts starts⟩
  · rw [seen]
    exact run_single stepped
  · refine represents.setProcess rfl ?_ fun other distinct => ?_
    · have gone : (system.leave proc phase table).phase proc = phase := Function.update_self ..
      rcases leaves with rfl | rfl <;> simp only [processState, gone]
    · refine processState_eq (Function.update_of_ne distinct ..) rfl ?_
      refine congrArg Control.isStarting (Function.update_of_ne ?_ ..)
      exact fun same => distinct (congrArg TaskId.proc same)

end Represents

end System

end Aspawn
