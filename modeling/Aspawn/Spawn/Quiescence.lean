import Aspawn.Spawn.TransactionProperties
import Aspawn.Spawn.WaitFreedom

/-! What is left of the calls when every thread of the root is in user code and every child
is done: no descriptor of the library outside the root, and HUP on every pipe. -/

set_option autoImplicit false

namespace Aspawn

open Transition

namespace System

variable {system next start : System} {task : TaskId} {call proc fd : Nat} {action : Action}
  {entry : FdEntry}

/-! ## Where descriptors come from -/

/-- Where a descriptor that is open after a step comes from. -/
inductive EntryFrom (system : System) (action : Action) (next : System) (proc fd : Nat)
    (entry : FdEntry) : Prop where
  | kept :
      system.fds proc fd = some entry →
      (next.phase proc = system.phase proc ∨ entry.cloexec = false) →
      EntryFrom system action next proc fd entry
  /-- A new child has a copy of its parent's table. -/
  | copied {task : TaskId} :
      proc = system.nextProc → next.phase proc = .live → system.fds task.proc fd = some entry →
      EntryFrom system action next proc fd entry
  | opened {task : TaskId} {call : Nat} {record : CallRecord} :
      proc = task.proc → next.phase proc = .live → entry.cloexec = true →
      entry.file.pipe = some system.nextPipe → next.pipeOf call = some system.nextPipe →
      next.InFlight task call record →
      EntryFrom system action next proc fd entry
  | user {file cloexec} :
      entry = { file := .other file, cloexec } →
      EntryFrom system action next proc fd entry
  | dup {task old cloexec found} :
      action = .user task (.dup old fd cloexec) → proc = task.proc →
      next.phase proc = system.phase proc → system.fds proc old = some found →
      entry = { found with cloexec } →
      EntryFrom system action next proc fd entry

theorem entryFrom_of_setFd {installed : Option FdEntry} {other number : Nat}
    (held : (system.setFd other number installed).fds proc fd = some entry) :
    system.fds proc fd = some entry ∨ proc = other ∧ fd = number ∧ installed = some entry := by
  rw [setFd_fds] at held
  split at held
  · rename_i here
    exact .inr ⟨here.1, here.2, held⟩
  · exact .inl held

theorem entryFrom_of_change (wellFormed : system.WellFormed) (change : system.Change action next)
    (held : next.fds proc fd = some entry) : system.EntryFrom action next proc fd entry := by
  cases change with
  | @call task _ number rest remaining record progress after running runs effect =>
      have live : system.phase task.proc = .live := wellFormed.live_of_control running rfl
      have there : after.fds proc fd = some entry := held
      cases effect with
      | thread | shared | placed => exact .kept there (.inl rfl)
      | @piped read write =>
          rw [openPipe_fds] at there
          have inFlight : (((system.openPipe task.proc number read write true).setCall number
              { record with progress := { record.progress with
                  pipefd := some (read, write), readOpen := true, writeOpen := true } }).setControl
                task (.inCall number remaining)).InFlight task number _ :=
            ⟨⟨_, setControl_self⟩, setCall_self⟩
          split at there
          · rename_i here
            cases there
            exact .opened here.1 (here.1 ▸ live) rfl rfl (Function.update_self ..) inFlight
          · split at there
            · rename_i here
              cases there
              exact .opened here.1 (here.1 ▸ live) rfl rfl (Function.update_self ..) inFlight
            · exact .kept there (.inl rfl)
      | closed =>
          rcases entryFrom_of_setFd there with before | ⟨_, _, none⟩
          · exact .kept before (.inl rfl)
          · cases none
      | cloned =>
          rw [spawn_fds] at there
          split at there
          · rename_i new
            cases new
            exact .copied rfl (Function.update_self ..) there
          · rename_i old
            exact .kept there (.inl (Function.update_of_ne old ..))
  | starting _ _ effect =>
      cases effect with
      | closed =>
          rcases entryFrom_of_setFd held with before | ⟨_, _, none⟩
          · exact .kept before (.inl rfl)
          · cases none
      | _ => exact .kept held (.inl rfl)
  | @user task op next _ performed =>
      obtain ⟨_, phase, _⟩ := userStep_frame performed
      cases op with
      | close number =>
          cases performed
          rcases entryFrom_of_setFd held with before | ⟨_, _, none⟩
          · exact .kept before (.inl rfl)
          · cases none
      | «open» number file cloexec =>
          simp only [userStep] at performed
          split at performed <;> cases performed
          rcases entryFrom_of_setFd held with before | ⟨_, _, same⟩
          · exact .kept before (.inl rfl)
          · cases same
            exact .user rfl
      | dup old number cloexec =>
          simp only [userStep] at performed
          split at performed
          · cases performed
          · rename_i found present
            cases performed
            rcases entryFrom_of_setFd held with before | ⟨rfl, rfl, same⟩
            · exact .kept before (.inl rfl)
            · cases same
              exact .dup rfl rfl rfl present rfl
      | _ =>
          cases performed
          exact .kept held (.inl rfl)
  | @left _ gone phase table _ _ leaves =>
      by_cases same : proc = gone
      · cases same
        have held : table fd = some entry := by
          have own : (system.leave proc phase table).fds proc = table := Function.update_self ..
          rw [own] at held
          exact held
        rcases leaves with ⟨_, rfl⟩ | ⟨_, rfl⟩
        · obtain ⟨before, kept⟩ := Option.filter_eq_some_iff.mp held
          exact .kept before (.inr (by simpa using kept))
        · cases held
      · refine .kept ?_ (.inl (Function.update_of_ne same ..))
        have other : (system.leave gone phase table).fds proc = system.fds proc :=
          Function.update_of_ne same ..
        rw [← other]
        exact held
  | started | finish | enter | raise | deliver => exact .kept held (.inl rfl)

theorem pipeOf_of_change {pipe : Nat} (change : system.Change action next)
    (made : next.pipeOf call = some pipe) :
    system.pipeOf call = some pipe ∨ pipe = system.nextPipe := by
  cases change with
  | @call _ _ number _ _ _ _ _ _ _ effect =>
      cases effect with
      | @piped read write =>
          have made : Function.update system.pipeOf number (some system.nextPipe) call =
            some pipe := made
          by_cases same : call = number
          · cases same
            cases (Function.update_self ..).symm.trans made
            exact .inr rfl
          · exact .inl ((Function.update_of_ne same ..).symm.trans made)
      | _ => exact .inl made
  | starting _ _ effect => cases effect <;> exact .inl made
  | user _ performed =>
      obtain ⟨_, _, _, _, pipeOf, _⟩ := userStep_frame performed
      exact .inl (pipeOf ▸ made)
  | started | finish | enter | left | raise | deliver => exact .inl made

/-- A call of the root is in flight until it is done. -/
theorem inFlight_kept {record : CallRecord} (wellFormed : system.WellFormed)
    (change : system.Change action next) (inFlight : system.InFlight task call record)
    (root : task.proc = 0) :
    (∃ result, system.Runs task call (.done result) record) ∨
      ∃ later, next.InFlight task call later := by
  obtain ⟨rest, running⟩ := inFlight.running
  obtain ⟨progress, returned, known, _⟩ := change.record_kept wellFormed.numbered inFlight.known
  have stays (control : ∃ rest, next.control task = .inCall call rest) :
      (∃ result, system.Runs task call (.done result) record) ∨
        ∃ later, next.InFlight task call later :=
    .inr ⟨_, control, known⟩
  have elsewhere {other : TaskId} {control : Control} (distinct : task ≠ other) :
      Function.update system.control other control task = .inCall call rest :=
    (Function.update_of_ne distinct ..).trans running
  have starting {other : TaskId} {progress : ChildProgress} {rest : Program SysCalls ChildStart}
      (here : system.control other = .starting progress rest) : task ≠ other := by
    rintro rfl
    cases running.symm.trans here
  have child {proc : Nat} (isChild : proc ≠ 0) : task ≠ mainTask proc := fun same =>
    isChild ((congrArg TaskId.proc same).symm.trans root)
  cases change with
  | @call other _ number _ remaining _ _ after here _ effect =>
      by_cases same : task = other
      · cases same
        cases running.symm.trans here
        exact stays ⟨remaining, setControl_self⟩
      · refine stays ⟨rest, (setControl_of_ne same).trans ?_⟩
        cases effect with
        | cloned =>
            refine elsewhere (child fun new => ?_)
            exact absurd wellFormed.numbered.root.1 (new ▸ Nat.lt_irrefl 0)
        | _ => exact running
  | starting here _ effect =>
      refine stays ⟨rest, (setControl_of_ne (starting here)).trans ?_⟩
      cases effect <;> exact running
  | @started _ other _ _ _ _ user =>
      refine stays ⟨rest, elsewhere fun same => ?_⟩
      cases same
      cases running.symm.trans user
  | @finish other _ _ _ here runs =>
      by_cases same : task = other
      · cases same
        cases running.symm.trans here
        cases inFlight.known.symm.trans runs.known
        exact .inl ⟨_, runs⟩
      · exact stays ⟨rest, elsewhere same⟩
  | enter here => exact stays ⟨rest, elsewhere (starting here)⟩
  | user _ performed => exact stays ⟨rest, (userStep_frame performed).1 ▸ running⟩
  | left isChild => exact stays ⟨rest, elsewhere (child isChild)⟩
  | raise | deliver => exact stays ⟨rest, running⟩

/-! ## Descriptors of the library -/

/-- Nobody duplicates an end of a pipe of a call without close-on-exec. -/
def KeepsCloexec (system : System) (action : Action) : Prop :=
  ∀ task old new, action = .user task (.dup old new false) → ∀ entry call pipe,
    system.fds task.proc old = some entry → system.pipeOf call = some pipe →
    entry.file.pipe ≠ some pipe

/-- Ends of the pipes of calls are close-on-exec and open in live processes only, and write
ends in the root only during the call. -/
structure EndsTied (system : System) : Prop where
  closing : ∀ call pipe proc fd entry, system.pipeOf call = some pipe →
    system.fds proc fd = some entry → entry.file.pipe = some pipe →
    entry.cloexec = true ∧ system.phase proc = .live
  root : ∀ call pipe fd entry, system.pipeOf call = some pipe → system.fds 0 fd = some entry →
    entry.file = .writeEnd pipe → ∃ task record, task.proc = 0 ∧ system.InFlight task call record

namespace EndsTied

theorem of_initial (initial : system.Initial) : system.EndsTied where
  closing call pipe proc fd entry made := by
    rw [initial.pipeOf] at made
    cases made
  root call pipe fd entry made := by
    rw [initial.pipeOf] at made
    cases made

/-- A call that is done holds no write end. -/
theorem not_done {record : CallRecord} {pipe : Nat} {result : Int}
    (considerate : system.Considerate) (inFlight : system.InFlight task call record)
    (runs : system.Runs task call (.done result) record) (made : system.pipeOf call = some pipe)
    (held : system.fds task.proc fd = some entry) : entry.file ≠ .writeEnd pipe := by
  intro isWrite
  have finished : record.start.Finished record.progress result := runs.conforms
  have owns := considerate.calls.owns task call record inFlight
  have ends := (owns.table pipe made fd entry).mp ⟨held, by rw [isWrite]; rfl⟩
  cases finished.writeClosed.symm.trans (Progress.writeOpen_of_ends ends isWrite)

theorem of_change (tied : system.EndsTied) (considerate : system.Considerate)
    (alone : system.LeavesCallsAlone action) (cloexec : system.KeepsCloexec action)
    (change : system.Change action next) : next.EndsTied := by
  have numbered := considerate.wellFormed.numbered
  have later := considerate.wellFormed.of_change change
  -- a descriptor that was there before is of a pipe that was there before
  have old {call pipe proc fd : Nat} {entry : FdEntry} (made : next.pipeOf call = some pipe)
      (held : system.fds proc fd = some entry) (ofPipe : entry.file.pipe = some pipe) :
      system.pipeOf call = some pipe := by
    rcases pipeOf_of_change change made with before | rfl
    · exact before
    · exact absurd (numbered.files proc fd entry _ held ofPipe) (Nat.lt_irrefl _)
  constructor
  · intro call pipe proc fd entry made held ofPipe
    cases entryFrom_of_change considerate.wellFormed change held with
    | kept before same =>
        obtain ⟨closing, live⟩ := tied.closing call pipe proc fd entry (old made before ofPipe)
          before ofPipe
        rcases same with same | isOpen
        · exact ⟨closing, same.trans live⟩
        · cases closing.symm.trans isOpen
    | copied _ live before =>
        exact ⟨(tied.closing call pipe _ fd entry (old made before ofPipe) before ofPipe).1, live⟩
    | opened _ live closing => exact ⟨closing, live⟩
    | user same =>
        cases same
        cases ofPipe
    | @dup task number isClosing found performed here same before copy =>
        cases copy
        cases here
        have madeBefore := old made before ofPipe
        have live := (tied.closing call pipe _ number found madeBefore before ofPipe).2
        refine ⟨?_, same.trans live⟩
        cases isClosing with
        | true => rfl
        | false => exact absurd ofPipe (cloexec task number fd performed found call pipe before
            madeBefore)
  · intro call pipe fd entry made held isWrite
    have ofPipe : entry.file.pipe = some pipe := by rw [isWrite]; rfl
    cases entryFrom_of_change considerate.wellFormed change held with
    | kept before =>
        have madeBefore := old made before ofPipe
        obtain ⟨task, record, root, inFlight⟩ :=
          tied.root call pipe fd entry madeBefore before isWrite
        rcases inFlight_kept considerate.wellFormed change inFlight root with
          ⟨result, runs⟩ | ⟨record, kept⟩
        · exact absurd isWrite (not_done considerate inFlight runs madeBefore (root ▸ before))
        · exact ⟨task, record, root, kept⟩
    | copied new => exact absurd numbered.root.1 (new ▸ Nat.lt_irrefl 0)
    | @opened task other record here _ _ newest madeNow inFlight =>
        cases ofPipe.symm.trans newest
        cases later.numbered.separate call other _ made madeNow
        exact ⟨task, record, here.symm, inFlight⟩
    | user same =>
        cases same
        cases isWrite
    | @dup task number _ found performed here _ before copy =>
        cases copy
        have madeBefore := old made before ofPipe
        obtain ⟨caller, record, root, inFlight⟩ :=
          tied.root call pipe number found madeBefore before isWrite
        have owns := considerate.calls.owns caller call record inFlight
        have ends := (owns.table pipe madeBefore number found).mp ⟨root ▸ before, ofPipe⟩
        have touched := (alone task _ performed caller call record inFlight).2
          (root.trans here) number (Progress.holds_iff.mpr ⟨found, ends⟩)
        simp [UserOp.touches] at touched

end EndsTied

/-! ## Runs -/

/-- What is asked of user code: it leaves the calls in flight alone, and duplicates no end of
their pipes without close-on-exec. -/
def KeepsEnds (system : System) (action : Action) : Prop :=
  system.LeavesCallsAlone action ∧ system.KeepsCloexec action

theorem keepsEnds_of_not_isUser (code : action.isUser = false) : system.KeepsEnds action := by
  refine ⟨leavesCallsAlone_of_not_isUser code, fun task old new same => ?_⟩
  cases same
  cases code

theorem endsTied_of_reaches (initial : start.Initial)
    (reached : Reaches step KeepsEnds start system) : system.Considerate ∧ system.EndsTied := by
  refine reached.invariant (fun state => state.Considerate ∧ state.EndsTied)
    ⟨⟨.of_initial initial, .of_initial initial⟩, .of_initial initial⟩ ?_
  intro state next action ⟨considerate, tied⟩ ⟨alone, cloexec⟩ stepped
  have change := considerate.wellFormed.change stepped
  exact ⟨considerate.of_change alone change, tied.of_change considerate alone cloexec change⟩

/-- Every thread of the root is in user code, and no other process is before its `execve` or
exit. -/
structure Quiescent (system : System) : Prop where
  idle : ∀ task call rest, task.proc = 0 → system.control task ≠ .inCall call rest
  alone : ∀ proc, proc ≠ 0 → system.phase proc ≠ .live

theorem EndsTied.hup_of_quiescent {pipe : Nat} (tied : system.EndsTied)
    (quiescent : system.Quiescent) (made : system.pipeOf call = some pipe) : system.Hup call := by
  refine ⟨pipe, made, fun proc ⟨fd, entry, held, isWrite⟩ => ?_⟩
  have live := (tied.closing call pipe proc fd entry made held (by rw [isWrite]; rfl)).2
  have root : proc = 0 := by
    by_contra child
    exact quiescent.alone proc child live
  cases root
  obtain ⟨task, record, root, ⟨rest, running⟩, _⟩ := tied.root call pipe fd entry made held isWrite
  exact quiescent.idle task call rest root running

/-- No program that a child executes, however deep the spawn tree, finds an end of a pipe of
the library among its descriptors; and once the system is quiescent, every pipe that was
ever made reports HUP. -/
theorem ends_tied_to_processes (initial : start.Initial)
    (reached : Reaches step KeepsEnds start system) :
    (∀ call pipe proc fd entry, system.pipeOf call = some pipe →
      system.fds proc fd = some entry → entry.file.pipe = some pipe →
      entry.cloexec = true ∧ system.phase proc = .live) ∧
    (system.Quiescent → ∀ call pipe, system.pipeOf call = some pipe → system.Hup call) := by
  obtain ⟨considerate, tied⟩ := endsTied_of_reaches initial reached
  exact ⟨tied.closing, fun quiescent call pipe => tied.hup_of_quiescent quiescent⟩

theorem quiescent_of_over (wellFormed : system.WellFormed)
    (returned : ∀ call record, system.calls call = some record → record.returned ≠ none)
    (gone : ∀ proc, proc ≠ 0 → proc < system.nextProc → system.phase proc ≠ .live) :
    system.Quiescent where
  idle task call rest _ running := by
    obtain ⟨record, runs⟩ := wellFormed.threaded.inCall _ _ _ running
    exact returned call record runs.known runs.unreturned
  alone proc child live := gone proc child (wellFormed.numbered.live_lt live) live

theorem ends_tied_to_processes_once :
    ∃ system, run step (boot .default reservedStacks) firstUseOver = some system ∧
      system.Quiescent ∧ system.Hup 0 := by
  have completes : ((run step (boot .default reservedStacks) firstUseOver).map
      fun system => (system.nextCall, system.nextProc, (system.calls 0).map CallRecord.returned,
        system.phase 1, system.pipeOf 0)) = some (1, 2, some (some 3), .execed, some 0) := by
    decide +kernel
  obtain ⟨system, performed, values⟩ := Option.map_eq_some_iff.mp completes
  simp only [Prod.mk.injEq] at values
  obtain ⟨nextCall, nextProc, returned, phase, made⟩ := values
  have code : ∀ action ∈ firstUseOver, action.isUser = false := by decide
  have reached : Reaches step KeepsEnds (boot .default reservedStacks) system :=
    .of_run performed (.of_forall fun action member _ => keepsEnds_of_not_isUser (code action member))
  have wellFormed := (endsTied_of_reaches boot_initial reached).1.wellFormed
  have quiescent : system.Quiescent := by
    refine quiescent_of_over wellFormed (fun call record known => ?_) fun proc child below live => ?_
    · have bound := wellFormed.numbered.call_lt known
      obtain rfl : call = 0 := by omega
      rw [known] at returned
      rw [Option.some.inj returned]
      exact Option.some_ne_none 3
    · obtain rfl : proc = 1 := by omega
      cases phase.symm.trans live
  exact ⟨system, performed, quiescent,
    (ends_tied_to_processes boot_initial reached).2 quiescent 0 0 made⟩

/-! ## Getting there -/

/-- No step of user code, and no new call. -/
def Unprompted (_ : System) (action : Action) : Prop :=
  action.isUser = false ∧ action.starts = none

/-- The calls of the root up to `bound` can be brought to their ends. -/
theorem idles_to (wellFormed : system.WellFormed) (bound : Nat) :
    ∃ final, Reaches step Unprompted system final ∧ final.WellFormed ∧
      final.nextCall = system.nextCall ∧
      ∀ task call rest, task.proc = 0 → call < bound → final.control task ≠ .inCall call rest := by
  induction bound with
  | zero => exact ⟨system, .refl, wellFormed, rfl, fun _ _ _ _ none => absurd none (Nat.not_lt_zero _)⟩
  | succ bound ih =>
      obtain ⟨middle, reached, wellFormed, nextCall, idle⟩ := ih
      by_cases busy : ∃ task rest, task.proc = 0 ∧ middle.control task = .inCall bound rest
      · obtain ⟨task, rest, root, running⟩ := busy
        obtain ⟨choices, _, _, final, _, performed, _, _, user, same, others⟩ :=
          finishes_alone wellFormed running
        have alone : Reaches step Unprompted middle final := by
          refine .of_run performed (.of_forall fun action member _ => ?_)
          rcases List.mem_append.mp member with code | finish
          · obtain ⟨choice, _, rfl⟩ := List.mem_map.mp code
            exact ⟨rfl, rfl⟩
          · cases List.mem_singleton.mp finish
            exact ⟨rfl, rfl⟩
        refine ⟨final, reached.trans alone,
          alone.invariant WellFormed wellFormed fun wellFormed _ => wellFormed.of_step,
          same.trans nextCall, fun other call rest' isRoot below running' => ?_⟩
        by_cases here : other = task
        · cases here
          cases user.symm.trans running'
        · rw [others other isRoot here] at running'
          by_cases last : call = bound
          · cases last
            obtain ⟨_, runs⟩ := wellFormed.threaded.inCall _ _ _ running
            obtain ⟨_, otherRuns⟩ := wellFormed.threaded.inCall _ _ _ running'
            cases runs.known.symm.trans otherRuns.known
            exact here (otherRuns.caller.symm.trans runs.caller)
          · exact idle other call rest' isRoot (by omega) running'
      · refine ⟨middle, reached, wellFormed, nextCall, fun task call rest root below running => ?_⟩
        by_cases last : call = bound
        · cases last
          exact busy ⟨task, rest, root, running⟩
        · exact idle task call rest root (by omega) running

/-- Children up to `bound` can exit while the root is in user code. -/
theorem exits_to (wellFormed : system.WellFormed)
    (idle : ∀ task call rest, task.proc = 0 → system.control task ≠ .inCall call rest)
    (bound : Nat) :
    ∃ final, Reaches step Unprompted system final ∧ final.WellFormed ∧
      final.nextProc = system.nextProc ∧
      (∀ task call rest, task.proc = 0 → final.control task ≠ .inCall call rest) ∧
      ∀ proc, proc ≠ 0 → proc < bound → final.phase proc ≠ .live := by
  induction bound with
  | zero =>
      exact ⟨system, .refl, wellFormed, rfl, idle, fun _ _ none => absurd none (Nat.not_lt_zero _)⟩
  | succ bound ih =>
      obtain ⟨middle, reached, wellFormed, nextProc, idle, gone⟩ := ih
      by_cases busy : bound ≠ 0 ∧ middle.phase bound = .live
      · have stepped : middle.step (.exit bound) = some (middle.leave bound .exited .empty) :=
          if_pos busy
        refine ⟨_, reached.tail ⟨rfl, rfl⟩ stepped, wellFormed.of_step stepped,
          nextProc, fun task call rest root running => ?_, fun proc child below live => ?_⟩
        · exact idle task call rest root
            (control_of_update (fun same => Control.noConfusion same) running)
        · by_cases last : proc = bound
          · cases last
            cases (Function.update_self ..).symm.trans live
          · exact gone proc child (by omega) ((Function.update_of_ne last ..).symm.trans live)
      · refine ⟨middle, reached, wellFormed, nextProc, idle, fun proc child below live => ?_⟩
        by_cases last : proc = bound
        · cases last
          exact busy ⟨child, live⟩
        · exact gone proc child (by omega) live

/-- Nothing is ever stuck: in every state that is reached the calls of the root can run to
their ends and the children exit, without a step of user code, and then every pipe that was
ever made reports HUP. -/
theorem always_reclaimable (initial : start.Initial)
    (reached : Reaches step KeepsEnds start system) :
    ∃ final, Reaches step Unprompted system final ∧ final.Quiescent ∧
      ∀ call pipe, final.pipeOf call = some pipe → final.Hup call := by
  have wellFormed := (endsTied_of_reaches initial reached).1.wellFormed
  obtain ⟨middle, first, wellFormed, nextCall, idle⟩ := idles_to wellFormed system.nextCall
  have idle : ∀ task call rest, task.proc = 0 → middle.control task ≠ .inCall call rest := by
    intro task call rest root running
    obtain ⟨_, runs⟩ := wellFormed.threaded.inCall _ _ _ running
    exact idle task call rest root (nextCall ▸ wellFormed.numbered.call_lt runs.known) running
  obtain ⟨final, second, wellFormed, nextProc, idle, gone⟩ := exits_to wellFormed idle middle.nextProc
  have quiescent : final.Quiescent := ⟨idle, fun proc child live =>
    gone proc child (nextProc ▸ wellFormed.numbered.live_lt live) live⟩
  have later : Reaches step KeepsEnds start final :=
    reached.trans ((first.trans second).mono fun quiet => keepsEnds_of_not_isUser quiet.1)
  exact ⟨final, first.trans second, quiescent,
    fun call pipe => (endsTied_of_reaches initial later).2.hup_of_quiescent quiescent⟩

theorem always_reclaimable_overlapping :
    ∃ system final, run step (boot .default reservedStacks) overlappingCalls =
        some system ∧ Reaches step Unprompted system final ∧ final.Quiescent ∧
      ∀ call pipe, final.pipeOf call = some pipe → final.Hup call := by
  obtain ⟨system, _, performed, _⟩ := overlappingCalls_reaches
  have reached : Reaches step KeepsEnds (boot .default reservedStacks) system :=
    .of_run performed (.of_forall fun action member _ =>
      keepsEnds_of_not_isUser (overlappingCalls_plain action member).1)
  obtain ⟨final, later⟩ := always_reclaimable boot_initial reached
  exact ⟨system, final, performed, later⟩

end System

end Aspawn
