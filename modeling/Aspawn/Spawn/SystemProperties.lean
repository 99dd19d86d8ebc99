import Aspawn.Spawn.SystemThreads

/-! Every reachable state is well formed: identifiers are fresh, threads keep to their
protocols, and every cloned process is the one child of its call. -/

set_option autoImplicit false

namespace Aspawn

namespace System

variable {system next after : System} {task : TaskId} {call proc : Nat}

/-! ## Parents and children -/

/-- A process was cloned by a call, with what that call had placed on the stack. -/
structure BornOf (system : System) (proc : Nat) (birth : Birth) (record : CallRecord)
    (args : ChildArgs) : Prop where
  known : system.calls birth.call = some record
  child : record.progress.child = some (proc : Int)
  older : record.caller.proc < proc
  block : birth.args.block = record.block
  placed : record.progress.args = some args
  pipe : record.progress.pipefd = some args.pipefd
  inherited : birth.inherited =
    (birth.call, args.pipefd.2) :: system.inheritedOf record.caller.proc

/-- Every cloned process has the call that cloned it, which has no other child; every call
that has descriptors has a pipe. -/
structure Lineage (system : System) : Prop where
  born : ∀ proc birth, system.birth proc = some birth →
    ∃ record args, system.BornOf proc birth record args
  child : ∀ call record pid, system.calls call = some record →
    record.progress.child = some pid →
    ∃ (proc : Nat) (birth : Birth), pid = proc ∧ system.birth proc = some birth ∧
      birth.call = call
  piped : ∀ call record pipefd, system.calls call = some record →
    record.progress.pipefd = some pipefd → ∃ pipe, system.pipeOf call = some pipe

/-- A call that has its child does not change it any more. -/
theorem CallEffect.settled {kind : CallKind} {block : Nat} {before progress : Progress}
    {pid : Int} {pipefd : Nat × Nat}
    (effect : CallEffect system task call kind block before progress after)
    (child : before.child = some pid) (pipe : before.pipefd = some pipefd) :
    progress.child = some pid ∧ progress.args = before.args ∧
      progress.pipefd = some pipefd := by
  cases effect with
  | thread => exact ⟨child, rfl, pipe⟩
  | shared => exact ⟨child, rfl, pipe⟩
  | placed _ childless =>
      rw [childless] at child
      cases child
  | piped none =>
      rw [none] at pipe
      cases pipe
  | closed => simp [Progress.closed, child, pipe]
  | cloned mayClone =>
      rw [mayClone.childless] at child
      cases child

namespace Lineage

theorem of_initial (initial : system.Initial) : system.Lineage where
  born proc birth born := by
    rw [initial.birth] at born
    cases born
  child call record pid known := by
    rw [initial.calls] at known
    cases known
  piped call record pipefd known := by
    rw [initial.calls] at known
    cases known

theorem frame (lineage : system.Lineage) (birth : after.birth = system.birth)
    (calls : after.calls = system.calls) (pipeOf : after.pipeOf = system.pipeOf) :
    after.Lineage where
  born proc found born := by
    rw [birth] at born
    obtain ⟨record, args, of⟩ := lineage.born proc found born
    refine ⟨record, args, { of with known := calls ▸ of.known, inherited := ?_ }⟩
    rw [of.inherited, inheritedOf, inheritedOf, birth]
  child := by
    rw [birth, calls]
    exact lineage.child
  piped := by
    rw [calls, pipeOf]
    exact lineage.piped

theorem advance {record : CallRecord} {rest : Program SysCalls Int} {control : Control}
    {progress : Progress} (lineage : system.Lineage)
    (runs : system.Runs task call rest record) (birth : after.birth = system.birth)
    (calls : after.calls = system.calls)
    (child : progress.child = record.progress.child)
    (settled : ∀ pid pipefd, record.progress.child = some pid →
      record.progress.pipefd = some pipefd →
      progress.args = record.progress.args ∧ progress.pipefd = some pipefd)
    (pipeOf : ∀ number pipe, number ≠ call → system.pipeOf number = some pipe →
      after.pipeOf number = some pipe)
    (own : ∀ pipefd, progress.pipefd = some pipefd → ∃ pipe, after.pipeOf call = some pipe) :
    ((after.setCall call { record with progress }).setControl task control).Lineage where
  born proc found born := by
    have born : after.birth proc = some found := born
    rw [birth] at born
    obtain ⟨parent, args, of⟩ := lineage.born proc found born
    have inherited : ((after.setCall call { record with progress }).setControl task
        control).inheritedOf parent.caller.proc = system.inheritedOf parent.caller.proc := by
      simp only [inheritedOf, System.setControl, System.setCall, birth]
    by_cases same : found.call = call
    · have parentIs : record = parent :=
        Option.some.inj (runs.known.symm.trans (same ▸ of.known))
      cases parentIs
      obtain ⟨placed, pipe⟩ := settled _ _ of.child of.pipe
      refine ⟨{ record with progress }, args, ?_, child.trans of.child, of.older, of.block,
        placed.trans of.placed, pipe, of.inherited.trans (by rw [inherited])⟩
      rw [same]
      exact setCall_self
    · exact ⟨parent, args, { of with
        known := (setCall_of_ne same).trans (calls ▸ of.known)
        inherited := of.inherited.trans (by rw [inherited]) }⟩
  child number found pid known has := by
    simp only [System.setControl, System.setCall, birth] at known ⊢
    by_cases same : number = call
    · cases same
      rw [Function.update_self] at known
      cases known
      exact lineage.child call record pid runs.known (child ▸ has)
    · rw [Function.update_of_ne same, calls] at known
      exact lineage.child number found pid known has
  piped number found pipefd known has := by
    by_cases same : number = call
    · cases same
      have known : some { record with progress } = some found := setCall_self.symm.trans known
      cases known
      exact own pipefd has
    · have known : after.calls number = some found := (setCall_of_ne same).symm.trans known
      rw [calls] at known
      obtain ⟨pipe, made⟩ := lineage.piped number found pipefd known has
      exact ⟨pipe, pipeOf number pipe same made⟩

theorem spawn {record : CallRecord} {rest : Program SysCalls Int} {control : Control}
    {clone3Result cloneResult : Option Int} {entry : ChildEntry} {ptr : ArgsPtr}
    {stackPointer exitSignal : UInt64} {clearSighand : Bool} (lineage : system.Lineage)
    (numbered : system.Numbered) (runs : system.Runs task call rest record)
    (live : system.phase task.proc = .live) (mayClone : record.progress.MayClone record.kind)
    (block : ptr.block = record.block) :
    (((system.spawn task call entry ptr stackPointer exitSignal clearSighand).setCall call
      { record with progress := { record.progress with
          clone3Result, cloneResult, child := some (system.nextProc : Int) } }).setControl task
      control).Lineage := by
  obtain ⟨args, placed⟩ := Option.isSome_iff_exists.mp mayClone.placed
  have pipe : record.progress.pipefd = some args.pipefd := by rw [mayClone.pipe, placed]; rfl
  have older : task.proc < system.nextProc := numbered.live_lt live
  have kept (parent : Nat) (old : parent < system.nextProc) :
      (((system.spawn task call entry ptr stackPointer exitSignal clearSighand).setCall call
        { record with progress := { record.progress with
            clone3Result, cloneResult, child := some (system.nextProc : Int) } }).setControl task
        control).inheritedOf parent = system.inheritedOf parent := by
    simp only [inheritedOf, System.setControl, System.setCall, System.spawn,
      Function.update_of_ne old.ne]
  constructor
  · intro proc birth born
    by_cases new : proc = system.nextProc
    · cases new
      simp only [System.setControl, System.setCall, System.spawn, Function.update_self] at born
      cases born
      refine ⟨_, args, setCall_self, rfl, runs.caller ▸ older, block, placed, pipe, ?_⟩
      rw [kept _ (runs.caller ▸ older), runs.caller]
      simp only [givenWriteEnd, runs.known, pipe, List.singleton_append]
    · simp only [System.setControl, System.setCall, System.spawn,
        Function.update_of_ne new] at born
      obtain ⟨parent, given, of⟩ := lineage.born proc birth born
      have other : birth.call ≠ call := by
        rintro same
        cases runs.known.symm.trans (same ▸ of.known)
        have childless := mayClone.childless
        rw [of.child] at childless
        cases childless
      refine ⟨parent, given, { of with
        known := (setCall_of_ne other).trans of.known
        inherited := of.inherited.trans ?_ }⟩
      rw [kept _ (of.older.trans (numbered.born_lt born))]
  · intro number found pid known has
    by_cases same : number = call
    · cases same
      cases setCall_self.symm.trans known
      cases has
      exact ⟨system.nextProc, _, rfl, Function.update_self .., rfl⟩
    · have known : system.calls number = some found := (setCall_of_ne same).symm.trans known
      obtain ⟨proc, birth, rfl, born, of⟩ := lineage.child number found pid known has
      refine ⟨proc, birth, rfl, ?_, of⟩
      simpa [System.setControl, System.setCall, System.spawn, (numbered.born_lt born).ne]
        using born
  · intro number found pipefd known has
    by_cases same : number = call
    · cases same
      exact lineage.piped call record _ runs.known pipe
    · exact lineage.piped number found pipefd ((setCall_of_ne same).symm.trans known) has

theorem startCall {kind : CallKind} {block : Nat} {pid : Int} {code : Program SysCalls Int}
    (lineage : system.Lineage) (numbered : system.Numbered) :
    (system.startCall task kind block pid code).Lineage where
  born proc birth born := by
    obtain ⟨record, args, of⟩ := lineage.born proc birth born
    refine ⟨record, args, { of with known := ?_ }⟩
    have earlier := numbered.call_lt of.known
    simpa [System.startCall, earlier.ne] using of.known
  child number record pid known has := by
    simp only [System.startCall, Function.update_apply] at known
    split at known
    · cases known
      cases has
    · exact lineage.child number record pid known has
  piped number record pipefd known has := by
    simp only [System.startCall, Function.update_apply] at known
    split at known
    · cases known
      cases has
    · exact lineage.piped number record pipefd known has

theorem finish {record : CallRecord} {rest : Program SysCalls Int} {result : Option Int}
    {control : Control} (lineage : system.Lineage) (runs : system.Runs task call rest record) :
    ((system.setCall call { record with returned := result }).setControl task
      control).Lineage where
  born proc birth born := by
    obtain ⟨parent, args, of⟩ := lineage.born proc birth born
    by_cases same : birth.call = call
    · cases runs.known.symm.trans (same ▸ of.known)
      exact ⟨{ record with returned := result }, args,
        { of with known := by rw [same]; exact setCall_self }⟩
    · exact ⟨parent, args, { of with known := (setCall_of_ne same).trans of.known }⟩
  child number found pid known has := by
    by_cases same : number = call
    · cases same
      cases setCall_self.symm.trans known
      exact lineage.child call record pid runs.known has
    · exact lineage.child number found pid ((setCall_of_ne same).symm.trans known) has
  piped number found pipefd known has := by
    by_cases same : number = call
    · cases same
      cases setCall_self.symm.trans known
      exact lineage.piped call record pipefd runs.known has
    · exact lineage.piped number found pipefd ((setCall_of_ne same).symm.trans known) has

theorem userStep {op : UserOp} (lineage : system.Lineage)
    (stepped : system.userStep task op = some next) : next.Lineage := by
  obtain ⟨_, _, birth, calls, pipeOf, _⟩ := userStep_frame stepped
  exact lineage.frame birth calls pipeOf

end Lineage

/-! ## Every step keeps the system well formed -/

structure WellFormed (system : System) : Prop where
  numbered : system.Numbered
  threaded : system.Threaded
  lineage : system.Lineage

/-- What a step does to a well-formed system. -/
inductive Change (system : System) : Action → System → Prop where
  | call {task choice call rest remaining record progress after} :
      system.control task = .inCall call rest →
      system.Runs task call rest record →
      CallEffect system task call record.kind record.block record.progress progress after →
      (callProtocol record.kind record.block).Conforms record.start.Finished progress
        remaining →
      Change system (.code task choice)
        ((after.setCall call { record with progress }).setControl task
          (.inCall call remaining))
  | starting {proc choice birth before progress request next remaining after} :
      system.control (mainTask proc) = .starting before (.call request next) →
      system.birth proc = some birth →
      ChildEffect system proc birth.args before request progress after →
      (childProtocol birth.args).Conforms ChildProgress.Ready progress remaining →
      Change system (.code (mainTask proc) choice)
        (after.setControl (mainTask proc) (.starting progress remaining))
  | started {action task kind block pid code} :
      system.control task = .user → action.starts = some (kind, block) →
      (kind = .aspawn ↔ task.proc = 0) →
      (∀ progress : Progress, progress.Fresh →
        (callProtocol kind block).Conforms progress.Finished progress code) →
      Change system action (system.startCall task kind block pid code)
  | finish {task call result record} :
      system.control task = .inCall call (.done result) →
      system.Runs task call (.done result) record →
      Change system (.finish task)
        ((system.setCall call { record with returned := some result }).setControl task .user)
  | enter {proc progress fn arg writeEndFd oldSigset} :
      system.control (mainTask proc) =
        .starting progress (.done (.fn fn arg writeEndFd oldSigset)) →
      progress.Ready (.fn fn arg writeEndFd oldSigset) →
      Change system (.enter proc) (system.setControl (mainTask proc) .user)
  | user {task op next} :
      system.control task = .user → system.userStep task op = some next →
      Change system (.user task op) next
  | left {action proc phase table} :
      proc ≠ 0 → system.phase proc = .live →
      (phase = .execed ∧ table = (system.fds proc).afterExec ∨
        phase = .exited ∧ table = .empty) →
      Change system action (system.leave proc phase table)
  | raise {proc signal} :
      Change system (.raise proc signal) { system with
        pending := Function.update system.pending proc
          (Function.update (system.pending proc) signal true) }
  | deliver {task signal} :
      (system.control task).isPresent → ¬ (system.mask task).blocks signal →
      Change system (.deliver task signal) { system with
        pending := Function.update system.pending task.proc
          (Function.update (system.pending task.proc) signal false)
        handled :=
          match (system.actions task.proc).get signal with
          | .handler function => (task.proc, function) :: system.handled
          | _ => system.handled }

namespace WellFormed

theorem of_initial (initial : system.Initial) : system.WellFormed :=
  ⟨.of_initial initial, .of_initial initial, .of_initial initial⟩

theorem live_of_control {control : Control} (wellFormed : system.WellFormed)
    (running : system.control task = control) (present : control.isPresent) :
    system.phase task.proc = .live :=
  (wellFormed.threaded.present task (running ▸ present)).1

theorem change {action : Action} (wellFormed : system.WellFormed)
    (stepped : system.step action = some next) : system.Change action next := by
  cases stepped_of_step stepped with
  | call running known handled =>
      obtain ⟨record, runs⟩ := wellFormed.threaded.inCall _ _ _ running
      cases known.symm.trans runs.known
      obtain ⟨answered, effect⟩ := callEffect_of_handle runs.cancel runs.mask
        wellFormed.numbered.root.1 runs.conforms.1 handled
      exact .call running runs effect (runs.conforms.2 _ answered)
  | @starting task _ _ _ _ _ _ _ running born handled =>
      obtain ⟨birth, bornAs, conforms⟩ := wellFormed.threaded.starting _ _ _ running
      cases born.symm.trans bornAs
      have child := wellFormed.numbered.born_ne_root born
      have main := (wellFormed.threaded.present task (by rw [running]; rfl)).2 child
      rw [main] at running ⊢
      exact .starting running born (childEffect_of_handle conforms.1 handled)
        (conforms.2 _ trivial)
  | started user starts side conforms => exact .started user starts side conforms
  | finish running known =>
      obtain ⟨record, runs⟩ := wellFormed.threaded.inCall _ _ _ running
      cases known.symm.trans runs.known
      exact .finish running runs
  | enter running =>
      obtain ⟨birth, _, conforms⟩ := wellFormed.threaded.starting _ _ _ running
      exact .enter running conforms
  | user running stepped => exact .user running stepped
  | @left _ proc _ _ alive child leaves =>
      have child : proc ≠ 0 := by
        rcases child with child | ⟨progress, rest, running⟩
        · exact child
        · obtain ⟨birth, born, _⟩ := wellFormed.threaded.starting _ _ _ running
          exact wellFormed.numbered.born_ne_root born
      refine .left child ?_ leaves
      rcases alive with alive | present
      · exact alive.2
      · exact (wellFormed.threaded.present (mainTask proc) present).1
  | raise => exact .raise
  | deliver present unblocked => exact .deliver present unblocked

theorem callStep {rest remaining : Program SysCalls Int} {record : CallRecord}
    {progress : Progress} (wellFormed : system.WellFormed)
    (running : system.control task = .inCall call rest)
    (runs : system.Runs task call rest record)
    (effect : CallEffect system task call record.kind record.block record.progress progress
      after)
    (conforms : (callProtocol record.kind record.block).Conforms record.start.Finished progress
      remaining) :
    ((after.setCall call { record with progress }).setControl task
      (.inCall call remaining)).WellFormed := by
  have live := wellFormed.live_of_control running rfl
  obtain ⟨numbered, threaded, lineage⟩ := wellFormed
  have started := numbered.call_lt runs.known
  have settled : ∀ pid pipefd, record.progress.child = some pid →
      record.progress.pipefd = some pipefd → _ := fun _ _ => effect.settled
  have numbers := numbered.callEffect (numbered.live_lt live) started effect
  cases effect with
  | thread =>
      refine ⟨(numbers.setCall started).setControl, ?_, ?_⟩
      · exact threaded.advance running runs rfl rfl rfl rfl
          (fun other distinct =>
            ⟨Function.update_of_ne distinct .., Function.update_of_ne distinct ..⟩)
          (Function.update_self ..) (Function.update_self ..) conforms
      · exact lineage.advance runs rfl rfl rfl (fun _ _ child pipe => (settled _ _ child pipe).2)
          (fun _ _ _ made => made) fun pipefd has => lineage.piped _ _ _ runs.known has
  | piped =>
      refine ⟨(numbers.setCall started).setControl, ?_, ?_⟩
      · exact threaded.advance running runs rfl rfl rfl rfl (fun _ _ => ⟨rfl, rfl⟩)
          runs.cancel runs.mask conforms
      · exact lineage.advance runs rfl rfl rfl (fun _ _ child pipe => (settled _ _ child pipe).2)
          (fun _ _ distinct made => (Function.update_of_ne distinct ..).trans made)
          fun _ _ => ⟨_, Function.update_self ..⟩
  | shared | placed =>
      refine ⟨(numbers.setCall started).setControl, ?_, ?_⟩
      · exact threaded.advance running runs rfl rfl rfl rfl (fun _ _ => ⟨rfl, rfl⟩)
          runs.cancel runs.mask conforms
      · exact lineage.advance runs rfl rfl rfl (fun _ _ child pipe => (settled _ _ child pipe).2)
          (fun _ _ _ made => made) fun pipefd has => lineage.piped _ _ _ runs.known has
  | closed =>
      refine ⟨(numbers.setCall started).setControl, ?_, ?_⟩
      · exact threaded.advance running runs rfl rfl rfl rfl (fun _ _ => ⟨rfl, rfl⟩)
          (runs.cancel.trans Progress.closed_cancel.symm)
          (runs.mask.trans Progress.closed_mask.symm) conforms
      · exact lineage.advance runs rfl rfl (by simp)
          (fun _ _ child pipe => (settled _ _ child pipe).2) (fun _ _ _ made => made)
          fun pipefd has => lineage.piped _ _ _ runs.known (Progress.closed_pipefd ▸ has)
  | @cloned _ _ entry ptr stackPointer exitSignal clearSighand mayClone block =>
      refine ⟨(numbers.setCall started).setControl, ?_,
        lineage.spawn numbered runs live mayClone block⟩
      have older : task ≠ mainTask system.nextProc := by
        rintro rfl
        exact absurd (numbered.live_lt live) (Nat.lt_irrefl _)
      have runs' : (system.spawn task call entry ptr stackPointer exitSignal
          clearSighand).Runs task call rest record :=
        { runs with mask := (Function.update_of_ne older ..).trans runs.mask }
      exact (threaded.spawn numbered).advance ((Function.update_of_ne older ..).trans running)
        runs' rfl rfl rfl rfl (fun _ _ => ⟨rfl, rfl⟩) runs'.cancel runs'.mask conforms

theorem startingStep {birth : Birth} {before progress : ChildProgress}
    {rest remaining : Program SysCalls ChildStart} {request : SysRequest}
    (wellFormed : system.WellFormed)
    (running : system.control (mainTask proc) = .starting before rest)
    (born : system.birth proc = some birth)
    (effect : ChildEffect system proc birth.args before request progress after)
    (conforms : (childProtocol birth.args).Conforms ChildProgress.Ready progress remaining) :
    (after.setControl (mainTask proc) (.starting progress remaining)).WellFormed := by
  have live := wellFormed.live_of_control running rfl
  obtain ⟨numbered, threaded, lineage⟩ := wellFormed
  have numbers := numbered.childEffect (numbered.live_lt live) effect
  have present : (system.control (mainTask proc)).isPresent := by rw [running]; rfl
  have threads : (system.setControl (mainTask proc) (.starting progress remaining)).Threaded :=
    threaded.setControl present (fun _ _ same => nomatch same)
      fun _ _ same => by cases same; exact ⟨birth, born, conforms⟩
  cases effect with
  | loaded => exact ⟨numbers.setControl, threads, lineage.frame rfl rfl rfl⟩
  | closed | cleared =>
      exact ⟨numbers.setControl, threads.frame rfl rfl rfl rfl fun _ _ => ⟨rfl, rfl⟩,
        lineage.frame rfl rfl rfl⟩

theorem of_change {action : Action} (wellFormed : system.WellFormed)
    (change : system.Change action next) : next.WellFormed := by
  cases change with
  | call running runs effect conforms => exact wellFormed.callStep running runs effect conforms
  | starting running born effect conforms =>
      exact wellFormed.startingStep running born effect conforms
  | started user starts side conforms =>
      obtain ⟨numbered, threaded, lineage⟩ := wellFormed
      exact ⟨numbered.startCall, threaded.startCall numbered user side conforms,
        lineage.startCall numbered⟩
  | finish running runs =>
      obtain ⟨numbered, threaded, lineage⟩ := wellFormed
      exact ⟨(numbered.setCall (numbered.call_lt runs.known)).setControl,
        threaded.finish running runs, lineage.finish runs⟩
  | enter running ready =>
      obtain ⟨numbered, threaded, lineage⟩ := wellFormed
      refine ⟨numbered.setControl, ?_, lineage.frame rfl rfl rfl⟩
      exact threaded.setControl (by rw [running]; rfl) (fun _ _ same => nomatch same)
        fun _ _ same => nomatch same
  | user user stepped =>
      have live := wellFormed.live_of_control user rfl
      obtain ⟨numbered, threaded, lineage⟩ := wellFormed
      exact ⟨numbered.userStep (numbered.live_lt live) stepped, threaded.userStep user stepped,
        lineage.userStep stepped⟩
  | left child live leaves =>
      obtain ⟨numbered, threaded, lineage⟩ := wellFormed
      refine ⟨numbered.leave (numbered.live_lt live) child ?_, threaded.leave child,
        lineage.frame rfl rfl rfl⟩
      intro fd entry held
      rcases leaves with ⟨_, rfl⟩ | ⟨_, rfl⟩
      · exact (Option.filter_eq_some_iff.mp held).1
      · cases held
  | raise | deliver =>
      obtain ⟨numbered, threaded, lineage⟩ := wellFormed
      exact ⟨{ numbered with }, threaded.frame rfl rfl rfl rfl fun _ _ => ⟨rfl, rfl⟩,
        lineage.frame rfl rfl rfl⟩

theorem of_step {action : Action} (wellFormed : system.WellFormed)
    (stepped : system.step action = some next) : next.WellFormed :=
  wellFormed.of_change (wellFormed.change stepped)

end WellFormed

/-! ## What lasts -/

/-- A call's record only changes in its progress and its result, and once it has a child
the descriptors and the arguments stay. -/
theorem Change.record_kept {action : Action} {record : CallRecord}
    (change : system.Change action next) (numbered : system.Numbered)
    (known : system.calls call = some record) :
    ∃ progress returned, next.calls call = some { record with progress, returned } ∧
      ∀ pid pipefd, record.progress.child = some pid → record.progress.pipefd = some pipefd →
        progress.child = some pid ∧ progress.args = record.progress.args ∧
          progress.pipefd = some pipefd := by
  have update (other : Nat) (found : CallRecord) (calls : Nat → Option CallRecord)
      (same : calls = system.calls) (progress : Progress) (returned : Option Int)
      (present : system.calls other = some found)
      (settled : ∀ pid pipefd, found.progress.child = some pid →
        found.progress.pipefd = some pipefd → progress.child = some pid ∧
          progress.args = found.progress.args ∧ progress.pipefd = some pipefd) :
      ∃ progress' returned', Function.update calls other
          (some { found with progress, returned }) call =
        some { record with progress := progress', returned := returned' } ∧
        ∀ pid pipefd, record.progress.child = some pid →
          record.progress.pipefd = some pipefd → progress'.child = some pid ∧
            progress'.args = record.progress.args ∧ progress'.pipefd = some pipefd := by
    by_cases here : call = other
    · cases here
      cases known.symm.trans present
      exact ⟨progress, returned, Function.update_self .., settled⟩
    · refine ⟨record.progress, record.returned, ?_, fun _ _ child pipe => ⟨child, rfl, pipe⟩⟩
      rw [Function.update_of_ne here, same, known]
  have unchanged (calls : Nat → Option CallRecord)
      (same : calls call = system.calls call) :
      ∃ progress returned, calls call = some { record with progress, returned } ∧
        ∀ pid pipefd, record.progress.child = some pid →
          record.progress.pipefd = some pipefd → progress.child = some pid ∧
            progress.args = record.progress.args ∧ progress.pipefd = some pipefd :=
    ⟨_, _, same.trans known, fun _ _ child pipe => ⟨child, rfl, pipe⟩⟩
  cases change with
  | call running runs effect =>
      exact update _ _ _ effect.calls _ _ runs.known fun _ _ => effect.settled
  | starting running born effect => cases effect <;> exact unchanged _ rfl
  | started =>
      have earlier := numbered.call_lt known
      exact unchanged _ (Function.update_of_ne earlier.ne ..)
  | finish running runs =>
      exact update _ _ _ rfl _ _ runs.known fun _ _ child pipe => ⟨child, rfl, pipe⟩
  | user _ stepped =>
      obtain ⟨_, _, _, calls, _⟩ := userStep_frame stepped
      exact unchanged _ (by rw [calls])
  | enter | left | raise | deliver => exact unchanged _ rfl

def IsChildOf (system : System) (call proc : Nat) : Prop :=
  ∃ birth, system.birth proc = some birth ∧ birth.call = call

theorem Lineage.isChildOf_iff {record : CallRecord} {proc : Nat} (lineage : system.Lineage)
    (known : system.calls call = some record) :
    system.IsChildOf call proc ↔ record.progress.child = some (proc : Int) := by
  constructor
  · rintro ⟨birth, born, rfl⟩
    obtain ⟨found, _, of⟩ := lineage.born proc birth born
    cases known.symm.trans of.known
    exact of.child
  · intro child
    obtain ⟨found, birth, same, born, of⟩ := lineage.child call record proc known child
    cases Int.ofNat_inj.mp same
    exact ⟨birth, born, of⟩

end System

end Aspawn
