import Aspawn.Spawn.ProcessTreeSteps

/-! In every run whose callers wait for HUP the system does, seen from outside, what the
process tree does. -/

set_option autoImplicit false

namespace Aspawn

open Protocol Transition

namespace System

variable {system next : System} {tree : ProcessTree} {action : Action}

/-- The invariants under which the system does what the tree does. -/
structure Follows (system : System) (tree : ProcessTree) : Prop where
  awaited : system.HupAwaited
  keeps : system.KeepsTo (rulesOfJobs tree)
  represents : system.Represents tree

namespace Follows

theorem of_initial (initial : system.Initial) : system.Follows .start :=
  ⟨.of_initial initial, .of_initial initial, .of_initial initial⟩

theorem matched (follows : system.Follows tree) (stepped : system.step action = some next) :
    ∃ later, system.Matched action next tree later := by
  obtain ⟨awaited, keeps, represents⟩ := follows
  have wellFormed := awaited.considerate.wellFormed
  have runs {task : TaskId} {call : Nat} {rest : Program SysCalls Int} {record : CallRecord}
      (running : system.control task = .inCall call rest)
      (present : system.calls call = some record) : system.Runs task call rest record := by
    obtain ⟨found, runs⟩ := wellFormed.threaded.inCall _ _ _ running
    cases present.symm.trans runs.known
    exact runs
  have running (proc : Nat) (user : system.control (mainTask proc) = .user) :
      tree.processes proc = .running := by
    rw [represents.processes]
    exact processState_of_control wellFormed user rfl rfl
  have leaves {proc : Nat} {action : Action} {phase : Phase} {table : FdTable}
      (live : system.phase proc = .live) (left : phase = .execed ∨ phase = .exited)
      (seen : system.observe action (system.leave proc phase table) = [.exited proc])
      (starts : action.starts = none) :
      ∃ later, system.Matched action (system.leave proc phase table) tree later := by
    refine ⟨_, represents.leftStep left seen ?_ starts⟩
    have state := represents.processes proc
    simp only [processState, live] at state
    simp only [ProcessTree.step, state]
    cases system.birth proc with
    | none => rfl
    | some birth => cases (system.control (mainTask proc)).isStarting <;> rfl
  cases action with
  | code task choice =>
      simp only [step] at stepped
      split at stepped
      · rename_i call request more control
        split at stepped
        · rename_i record response later present handled
          cases stepped
          have runs := runs control present
          have effect := (callEffect_of_handle runs.cancel runs.mask
            wellFormed.numbered.root.1 runs.conforms.1 handled).2
          refine represents.callStep wellFormed control runs effect fun args placed new => ?_
          rcases args_of_after record.kind record.block placed with before | ⟨ptr, rfl⟩
          · exact absurd before new
          · exact keeps.permits control present
        · cases stepped
      · rename_i progress request more control
        split at stepped
        · cases stepped
        · rename_i birth born
          split at stepped
          · cases stepped
          · rename_i response later handled
            cases stepped
            obtain ⟨found, bornAs, conforms⟩ := wellFormed.threaded.starting _ _ _ control
            cases born.symm.trans bornAs
            have child := wellFormed.numbered.born_ne_root born
            have main := (wellFormed.threaded.present task (by rw [control]; rfl)).2 child
            rw [main] at control ⊢
            exact ⟨tree, represents.startingStep control
              (childEffect_of_handle conforms.1 handled)⟩
      · cases stepped
  | aspawn task block fn arg pid oldset =>
      simp only [step] at stepped
      split at stepped <;> [skip; cases stepped]
      rename_i user
      split at stepped <;> cases stepped
      refine represents.startedStep wellFormed user rfl fun rules same => ⟨?_, ?_⟩
      · intro task block fn arg pid oldset starting
        cases starting
        rw [same]
        exact aspawn_conforms_job
      · intro proc block fn arg pid oldSigset starting
        cases starting
  | aspawnRec proc block fn arg pid oldSigset =>
      simp only [step] at stepped
      split at stepped <;> [skip; cases stepped]
      rename_i user
      split at stepped <;> cases stepped
      refine represents.startedStep wellFormed user rfl fun rules same => ⟨?_, ?_⟩
      · intro task block fn arg pid oldset starting
        cases starting
      · intro proc block fn arg pid oldSigset starting
        cases starting
        rw [same]
        exact aspawnRec_conforms_job
  | finish task =>
      simp only [step] at stepped
      split at stepped <;> [skip; cases stepped]
      rename_i call result control
      split at stepped
      · cases stepped
      · rename_i record present
        cases stepped
        exact represents.finishStep control (runs control present)
  | enter proc =>
      simp only [step] at stepped
      split at stepped
      · rename_i control
        cases stepped
        obtain ⟨_, _, conforms⟩ := wellFormed.threaded.starting _ _ _ control
        exact ⟨_, represents.enterStep awaited control conforms⟩
      · rename_i control
        cases stepped
        refine leaves (wellFormed.live_of_control control rfl) (.inr rfl) ?_ rfl
        simp only [observe, control]
      · cases stepped
  | user task op =>
      simp only [step] at stepped
      split at stepped <;> [skip; cases stepped]
      obtain ⟨control, phase, birth, calls, _⟩ := userStep_frame stepped
      refine ⟨tree, Represents.unseen (represents.frame calls fun proc => ?_) rfl rfl⟩
      exact processState_eq (congrFun phase proc) (congrFun birth proc) (by rw [control])
  | execve proc =>
      simp only [step] at stepped
      split at stepped <;> [skip; cases stepped]
      rename_i user
      split at stepped <;> cases stepped
      refine ⟨_, represents.leftStep (.inl rfl) rfl ?_ rfl⟩
      exact if_pos (running proc user)
  | exit proc =>
      simp only [step] at stepped
      split at stepped
      · rename_i alive
        cases stepped
        exact leaves alive.2 (.inr rfl) rfl rfl
      · cases stepped
  | raise proc signal =>
      cases stepped
      exact ⟨tree, Represents.unseen (represents.frame rfl fun _ => rfl) rfl rfl⟩
  | deliver task signal =>
      simp only [step] at stepped
      split at stepped <;> cases stepped
      exact ⟨tree, Represents.unseen (represents.frame rfl fun _ => rfl) rfl rfl⟩

theorem of_step (follows : system.Follows tree) (waits : system.WaitsForHup action)
    (stepped : system.step action = some next) :
    ∃ later, run ProcessTree.step tree (system.observe action next) = some later ∧
      next.Follows later := by
  obtain ⟨later, matched⟩ := follows.matched stepped
  have keeps : system.KeepsTo (rulesOfJobs later) := follows.keeps.congr fun call record known => by
    rw [rulesOfJobs, rulesOfJobs, matched.jobs call record known]
  exact ⟨later, matched.seen, follows.awaited.of_step waits stepped,
    keeps.of_step lasting_rulesOfJobs follows.awaited.considerate.wellFormed matched.starts
      (fun _ _ _ _ _ _ _ _ _ _ _ answered => answered) stepped, matched.represents⟩

end Follows

theorem follows_of_run {start final : System} {actions : List Action} (initial : start.Initial)
    (permitted : Along step WaitsForHup start actions)
    (performed : run step start actions = some final) :
    ∃ tree, run ProcessTree.step .start (trace step observe start actions) = some tree ∧
      final.Follows tree :=
  run_trace Follows.of_step (Follows.of_initial initial) permitted performed

/-- What an observer sees of a run whose callers wait for HUP is a run of the process tree:
each call makes at most one process, returns once, with that process and its end of the
pipe or with an error, and each process enters the function of the call that made it, with
the argument, the signal set and the other end of the pipe that belong to it. -/
theorem runs_as_processTree {start final : System} {actions : List Action}
    (initial : start.Initial) (permitted : Along step WaitsForHup start actions)
    (performed : run step start actions = some final) :
    ∃ tree, run ProcessTree.step .start (trace step observe start actions) = some tree ∧
      final.Represents tree := by
  obtain ⟨tree, seen, follows⟩ := follows_of_run initial permitted performed
  exact ⟨tree, seen, follows.represents⟩

/-- Two threads of the root call at the same time, and no `Stack_t` is used twice. -/
theorem overlappingCalls_waits :
    Along step WaitsForHup (boot .default reservedStacks) overlappingCalls := by
  have quiet : ∀ action ∈ overlappingCalls.tail.tail,
      action.isUser = false ∧ action.starts = none := by
    decide
  refine ⟨waitsForHup_of_code rfl ?_, fun next stepped => ⟨waitsForHup_of_code rfl ?_, ?_⟩⟩
  · intro kind block _ call record known
    cases known
  · intro kind block starts call record known same
    cases starts
    cases stepped
    simp only [startCall, Function.update_apply] at known
    split at known
    · cases known
      cases same
    · cases known
  · exact fun _ _ => .of_forall fun action member _ =>
      waitsForHup_of_code (quiet action member).1 (reusesAfterHup_of_not_starts (quiet action member).2)

theorem runs_as_processTree_overlapping :
    ∃ final tree, run step (boot .default reservedStacks) overlappingCalls =
        some final ∧
      trace step observe (boot .default reservedStacks) overlappingCalls =
        [.called 0 (mainTask 0) { fn := 100, arg := 200, oldSigset := 0 } 0,
          .called 1 { proc := 0, thread := 1 } { fn := 101, arg := 201, oldSigset := 0 } 0,
          .made 1 1 (5, 6), .made 0 2 (3, 4), .returned 0 3 2,
          .entered 2 { fn := 100, arg := 200, oldSigset := 0 } 4, .execed 2] ∧
      run ProcessTree.step .start (trace step observe (boot .default reservedStacks)
        overlappingCalls) = some tree ∧ final.Represents tree := by
  have completes : (run step (boot .default reservedStacks) overlappingCalls).isSome := by
    decide +kernel
  obtain ⟨final, performed⟩ := Option.isSome_iff_exists.mp completes
  obtain ⟨tree, seen, represents⟩ :=
    runs_as_processTree boot_initial overlappingCalls_waits performed
  exact ⟨final, tree, performed, by decide +kernel, seen, represents⟩

/-- No process is lost or made twice: a call that has returned has made exactly one process
if its result is a descriptor and none if it is an error, and every process was made by one
call and enters its function at most once. -/
theorem spawns_exactly_once {start final : System} {actions : List Action}
    (initial : start.Initial) (permitted : Along step WaitsForHup start actions)
    (performed : run step start actions = some final) :
    (∀ call record result, final.calls call = some record → record.returned = some result →
      (trace step observe start actions).countP (SpawnEvent.returns call) = 1 ∧
      (trace step observe start actions).countP (SpawnEvent.makesFor call) =
        if 0 ≤ result then 1 else 0) ∧
    (∀ call record, final.calls call = some record → record.returned = none →
      (trace step observe start actions).countP (SpawnEvent.returns call) = 0 ∧
      (trace step observe start actions).countP (SpawnEvent.makesFor call) ≤ 1) ∧
    ∀ proc, proc ≠ 0 →
      (trace step observe start actions).countP (SpawnEvent.makes proc) =
        (if final.phase proc = .unborn then 0 else 1) ∧
      (trace step observe start actions).countP (SpawnEvent.enters proc) ≤
        (trace step observe start actions).countP (SpawnEvent.makes proc) := by
  obtain ⟨tree, seen, follows⟩ := follows_of_run initial permitted performed
  have represents := follows.represents
  refine ⟨fun call record result known returned => ?_, fun call record known unreturned => ?_,
    fun proc child => ?_⟩
  · obtain ⟨spawning, inTree, shown⟩ := represents.known call record known
    have finished := follows.awaited.considerate.wellFormed.threaded.returned call record result
      known returned
    have has := shown.child
    rw [ProcessTree.countP_returns seen, ProcessTree.countP_makesFor seen,
      ProcessTree.returnedFrom, ProcessTree.madeFor, inTree]
    refine ⟨by simp only [shown.returned, returned, Option.isSome_some, if_true], ?_⟩
    by_cases positive : 0 ≤ result
    · obtain ⟨_, _, _, _, _, child, _⟩ := finished.success positive
      rw [child] at has
      obtain ⟨made, same, _⟩ := Option.map_eq_some_iff.mp has.symm
      simp only [same, Option.isSome_some, if_true, if_pos positive]
    · have childless := (finished.failure (by omega)).2.1
      rw [childless] at has
      have same := Option.map_eq_none_iff.mp has.symm
      simp only [same, Option.isSome_none, Bool.false_eq_true, if_false, if_neg positive]
  · obtain ⟨spawning, inTree, shown⟩ := represents.known call record known
    rw [ProcessTree.countP_returns seen, ProcessTree.countP_makesFor seen,
      ProcessTree.returnedFrom, ProcessTree.madeFor, inTree]
    refine ⟨by simp only [shown.returned, unreturned, Option.isSome_none, Bool.false_eq_true,
      if_false], ?_⟩
    dsimp only
    split <;> omega
  · rw [ProcessTree.countP_makes seen child]
    refine ⟨?_, (ProcessTree.countP_enters seen).trans ProcessTree.enteredAs_le_madeAs⟩
    rw [ProcessTree.madeAs, represents.processes]
    exact if_congr processState_eq_absent rfl rfl

theorem spawns_exactly_once_overlapping :
    ∃ final record, run step (boot .default reservedStacks) overlappingCalls =
        some final ∧ final.calls 0 = some record ∧ record.returned = some 3 ∧
      (trace step observe (boot .default reservedStacks) overlappingCalls).countP
        (SpawnEvent.returns 0) = 1 ∧
      (trace step observe (boot .default reservedStacks) overlappingCalls).countP
        (SpawnEvent.makesFor 0) = 1 := by
  obtain ⟨final, record, performed, known, returned, _⟩ := overlappingCalls_reaches
  obtain ⟨answered, _⟩ := spawns_exactly_once boot_initial overlappingCalls_waits performed
  exact ⟨final, record, performed, known, returned, answered 0 record 3 known returned⟩

end System

end Aspawn
