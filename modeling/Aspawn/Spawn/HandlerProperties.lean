import Aspawn.Spawn.SystemProperties

/-! The handlers of the root process do not run in its descendants. A child that still
has them is clearing them with every signal blocked. -/

set_option autoImplicit false

namespace Aspawn

open Transition

namespace System

variable {system next after : System} {task : TaskId} {call proc : Nat}

/-- An `aspawn_fn` installs a handler. -/
def Action.installsHandler : Action → Bool
  | .user task (.setAction _ disposition) => task.proc ≠ 0 && disposition.isHandler
  | _ => false

/-- A process still has to clear a handler, and blocks the signal until then. -/
def Clearing (system : System) (proc : Nat) (signal : Signal) : Prop :=
  ∃ progress rest, system.control (mainTask proc) = .starting progress rest ∧
    progress.cleared signal = false ∧ (system.mask (mainTask proc)).blocks signal

structure HandlersGuarded (system : System) : Prop where
  clearing : ∀ proc, proc ≠ 0 → system.phase proc = .live →
    ∀ signal, ((system.actions proc).get signal).isHandler → system.Clearing proc signal
  handled : ∀ entry ∈ system.handled, entry.1 = 0

namespace HandlersGuarded

theorem of_initial (initial : system.Initial) : system.HandlersGuarded where
  clearing proc child live := by
    rw [(initial.others proc child).1] at live
    cases live
  handled entry invoked := by
    rw [initial.handled] at invoked
    cases invoked

/-- Once a child has started it has no handler left. -/
theorem no_handler (guarded : system.HandlersGuarded) (threaded : system.Threaded)
    (present : (system.control task).isPresent)
    (started : ∀ progress rest, system.control task ≠ .starting progress rest)
    (child : task.proc ≠ 0) (signal : Signal) :
    ¬ ((system.actions task.proc).get signal).isHandler := by
  intro handler
  obtain ⟨live, main⟩ := threaded.present task present
  obtain ⟨progress, rest, running, _⟩ := guarded.clearing task.proc child live signal handler
  rw [← main child] at running
  exact started progress rest running

theorem frame (guarded : system.HandlersGuarded) (threaded : system.Threaded)
    (present : (system.control task).isPresent)
    (started : ∀ progress rest, system.control task ≠ .starting progress rest)
    (phase : after.phase = system.phase) (actions : after.actions = system.actions)
    (handled : after.handled = system.handled)
    (others : ∀ other, other ≠ task →
      after.control other = system.control other ∧ after.mask other = system.mask other) :
    after.HandlersGuarded where
  clearing proc child live signal handler := by
    rw [phase] at live
    rw [actions] at handler
    have distinct : mainTask proc ≠ task := by
      rintro rfl
      exact guarded.no_handler threaded present started child signal handler
    obtain ⟨sameControl, sameMask⟩ := others _ distinct
    rw [Clearing, sameControl, sameMask]
    exact guarded.clearing proc child live signal handler
  handled := by
    rw [handled]
    exact guarded.handled

theorem spawn {entry : ChildEntry} {ptr : ArgsPtr} {stackPointer exitSignal : UInt64}
    {clearSighand : Bool} {rest : Program SysCalls Int} {record : CallRecord}
    (guarded : system.HandlersGuarded) (threaded : system.Threaded)
    (running : system.control task = .inCall call rest)
    (runs : system.Runs task call rest record) (mayClone : record.progress.MayClone record.kind)
    (fallback : clearSighand = false → entry = .aspawnChildClearSighand) :
    (system.spawn task call entry ptr stackPointer exitSignal clearSighand).HandlersGuarded where
  clearing proc child live signal handler := by
    by_cases new : proc = system.nextProc
    · cases new
      simp only [System.spawn, Function.update_self] at handler
      cases clearSighand with
      | true => exact absurd handler SigTable.not_isHandler_clearHandlers
      | false =>
          cases fallback rfl
          -- only a call of `aspawn` can be the parent here, and it blocks all signals
          have root : task.proc = 0 := by
            by_contra nested
            exact guarded.no_handler threaded (by rw [running]; rfl)
              (by rw [running]; intro _ _ same; cases same) nested signal handler
          have full : system.mask task = .full :=
            runs.mask.trans (mayClone.masked (runs.kind.mpr root))
          refine ⟨_, _, Function.update_self .., rfl, ?_⟩
          simp only [System.spawn, Function.update_self, full]
          exact Sigmask.full_blocks (SigTable.not_kill_of_isHandler handler)
    · have distinct : mainTask proc ≠ mainTask system.nextProc := fun same =>
        new (congrArg TaskId.proc same)
      simp only [System.spawn, Function.update_of_ne new] at live handler
      simpa [Clearing, System.spawn, distinct] using
        guarded.clearing proc child live signal handler
  handled := guarded.handled

theorem callStep {rest remaining : Program SysCalls Int} {record : CallRecord}
    {progress : Progress} (guarded : system.HandlersGuarded) (wellFormed : system.WellFormed)
    (running : system.control task = .inCall call rest)
    (runs : system.Runs task call rest record)
    (effect : CallEffect system task call record.kind record.block record.progress progress
      after) :
    ((after.setCall call { record with progress }).setControl task
      (.inCall call remaining)).HandlersGuarded := by
  have present : (system.control task).isPresent := by rw [running]; rfl
  have started (progress : ChildProgress) (rest : Program SysCalls ChildStart) :
      system.control task ≠ .starting progress rest := by
    rw [running]
    exact fun same => nomatch same
  have threaded := wellFormed.threaded
  cases effect with
  | thread =>
      exact guarded.frame threaded present started rfl rfl rfl fun other distinct =>
        ⟨setControl_of_ne distinct, Function.update_of_ne distinct ..⟩
  | shared | placed | piped | closed =>
      exact guarded.frame threaded present started rfl rfl rfl fun other distinct =>
        ⟨setControl_of_ne distinct, rfl⟩
  | @cloned _ _ entry ptr stackPointer exitSignal clearSighand mayClone _ fallback =>
      have born := wellFormed.numbered.live_lt (threaded.present task present).1
      have older : task ≠ mainTask system.nextProc := by
        rintro rfl
        exact born.ne rfl
      have same : (system.spawn task call entry ptr stackPointer exitSignal
          clearSighand).control task = system.control task := Function.update_of_ne older ..
      have spawned : (system.spawn task call entry ptr stackPointer exitSignal
          clearSighand).HandlersGuarded :=
        guarded.spawn threaded running runs mayClone fallback
      exact spawned.frame (threaded.spawn wellFormed.numbered) (same ▸ present)
        (same ▸ started) rfl rfl rfl fun other distinct => ⟨setControl_of_ne distinct, rfl⟩

theorem startingStep {ptr : ArgsPtr} {before progress : ChildProgress}
    {rest remaining : Program SysCalls ChildStart} {request : SysRequest}
    (guarded : system.HandlersGuarded)
    (running : system.control (mainTask proc) = .starting before rest)
    (effect : ChildEffect system proc ptr before request progress after) :
    (after.setControl (mainTask proc) (.starting progress remaining)).HandlersGuarded := by
  have elsewhere (other : Nat) (distinct : other ≠ proc) : mainTask other ≠ mainTask proc :=
    fun same => distinct (congrArg TaskId.proc same)
  -- the other processes are as they were, and the starting one has cleared no less
  have still (signal : Signal) (handler : ((system.actions proc).get signal).isHandler)
      (child : proc ≠ 0) (live : system.phase proc = .live) :
      before.cleared signal = false ∧ (system.mask (mainTask proc)).blocks signal := by
    obtain ⟨_, _, same, uncleared, blocked⟩ := guarded.clearing proc child live signal handler
    cases running.symm.trans same
    exact ⟨uncleared, blocked⟩
  cases effect with
  | loaded | closed =>
      refine ⟨fun other child live signal handler => ?_, guarded.handled⟩
      by_cases same : other = proc
      · cases same
        obtain ⟨uncleared, blocked⟩ := still signal handler child live
        exact ⟨_, _, setControl_self, uncleared, blocked⟩
      · rw [Clearing, setControl_of_ne (elsewhere other same)]
        exact guarded.clearing other child live signal handler
  | cleared fewer =>
      refine ⟨fun other child live signal handler => ?_, guarded.handled⟩
      by_cases same : other = proc
      · cases same
        simp only [System.setControl, Function.update_self] at handler
        obtain ⟨before, other⟩ := fewer signal handler
        obtain ⟨uncleared, blocked⟩ := still signal before child live
        exact ⟨_, _, setControl_self, by simp [uncleared, other], blocked⟩
      · rw [Clearing, setControl_of_ne (elsewhere other same)]
        simp only [System.setControl, Function.update_of_ne same] at handler
        exact guarded.clearing other child live signal handler

theorem userStep {op : UserOp} (guarded : system.HandlersGuarded)
    (wellFormed : system.WellFormed) (user : system.control task = .user)
    (allowed : ¬ (Action.user task op).installsHandler)
    (stepped : system.userStep task op = some next) : next.HandlersGuarded := by
  have present : (system.control task).isPresent := by rw [user]; rfl
  have started (progress : ChildProgress) (rest : Program SysCalls ChildStart) :
      system.control task ≠ .starting progress rest := by
    rw [user]
    exact fun same => nomatch same
  have threaded := wellFormed.threaded
  cases op with
  | close fd =>
      cases stepped
      exact guarded.frame threaded present started rfl rfl rfl fun _ _ => ⟨rfl, rfl⟩
  | «open» fd file cloexec =>
      simp only [System.userStep] at stepped
      split at stepped
      · cases stepped
        exact guarded.frame threaded present started rfl rfl rfl fun _ _ => ⟨rfl, rfl⟩
      · cases stepped
  | dup old new cloexec =>
      simp only [System.userStep] at stepped
      split at stepped
      · cases stepped
      · cases stepped
        exact guarded.frame threaded present started rfl rfl rfl fun _ _ => ⟨rfl, rfl⟩
  | setMask mask =>
      cases stepped
      exact guarded.frame threaded present started rfl rfl rfl fun other distinct =>
        ⟨rfl, Function.update_of_ne distinct ..⟩
  | setAction signal disposition =>
      cases stepped
      refine ⟨fun proc child live other handler => ?_, guarded.handled⟩
      by_cases same : proc = task.proc
      · cases same
        simp only [Function.update_self] at handler
        have harmless : ¬ disposition.isHandler := by simpa [Action.installsHandler, child]
          using allowed
        exact absurd (SigTable.isHandler_of_set harmless handler).1
          (guarded.no_handler threaded present started child other)
      · simp only [Function.update_of_ne same] at handler
        exact guarded.clearing proc child live other handler
  | setCancel state =>
      cases stepped
      exact guarded.frame threaded present started rfl rfl rfl fun _ _ => ⟨rfl, rfl⟩
  | setStack block stack =>
      cases stepped
      exact guarded.frame threaded present started rfl rfl rfl fun _ _ => ⟨rfl, rfl⟩

theorem deliver {signal : Signal} (guarded : system.HandlersGuarded)
    (wellFormed : system.WellFormed) (present : (system.control task).isPresent)
    (unblocked : ¬ (system.mask task).blocks signal) :
    ({ system with
        pending := Function.update system.pending task.proc
          (Function.update (system.pending task.proc) signal false)
        handled :=
          match (system.actions task.proc).get signal with
          | .handler function => (task.proc, function) :: system.handled
          | _ => system.handled } : System).HandlersGuarded where
  clearing := guarded.clearing
  handled entry invoked := by
    split at invoked
    · rename_i function handler
      rcases List.mem_cons.mp invoked with rfl | earlier
      · by_contra child
        obtain ⟨live, main⟩ := wellFormed.threaded.present task present
        obtain ⟨_, _, _, _, blocked⟩ := guarded.clearing task.proc child live signal
          (by rw [handler]; rfl)
        rw [← main child] at blocked
        exact unblocked blocked
      · exact guarded.handled entry earlier
    · exact guarded.handled entry invoked

theorem of_change {action : Action} (guarded : system.HandlersGuarded)
    (wellFormed : system.WellFormed) (allowed : ¬ action.installsHandler)
    (change : system.Change action next) : next.HandlersGuarded := by
  have threaded := wellFormed.threaded
  cases change with
  | call running runs effect => exact guarded.callStep wellFormed running runs effect
  | starting running _ effect => exact guarded.startingStep running effect
  | started user =>
      exact guarded.frame threaded (by rw [user]; rfl)
        (by rw [user]; exact fun _ _ same => nomatch same) rfl rfl rfl fun other distinct =>
          ⟨Function.update_of_ne distinct .., rfl⟩
  | finish running =>
      exact guarded.frame threaded (by rw [running]; rfl)
        (by rw [running]; exact fun _ _ same => nomatch same) rfl rfl rfl fun other distinct =>
          ⟨setControl_of_ne distinct, rfl⟩
  | @enter proc _ _ _ _ _ running ready =>
      refine ⟨fun other child live signal handler => ?_, guarded.handled⟩
      have distinct : mainTask other ≠ mainTask proc := by
        intro same
        obtain ⟨_, _, starting, uncleared, _⟩ := guarded.clearing other child live signal handler
        rw [same] at starting
        cases running.symm.trans starting
        rw [ready.2 signal] at uncleared
        cases uncleared
      rw [Clearing, setControl_of_ne distinct]
      exact guarded.clearing other child live signal handler
  | user user stepped => exact guarded.userStep wellFormed user allowed stepped
  | @left _ proc _ _ _ _ leaves =>
      refine ⟨fun other child live signal handler => ?_, guarded.handled⟩
      have distinct : other ≠ proc := by
        rintro rfl
        simp only [System.leave, Function.update_self] at live
        rcases leaves with ⟨rfl, _⟩ | ⟨rfl, _⟩ <;> cases live
      have elsewhere : mainTask other ≠ mainTask proc := fun same =>
        distinct (congrArg TaskId.proc same)
      simp only [System.leave, Function.update_of_ne distinct] at live handler
      simpa [Clearing, System.leave, elsewhere] using
        guarded.clearing other child live signal handler
  | raise => exact ⟨guarded.clearing, guarded.handled⟩
  | deliver present unblocked => exact guarded.deliver wellFormed present unblocked

end HandlersGuarded

/-- Whatever signals arrive, and however calls are nested, a handler is only ever invoked
in the root process. -/
theorem handlers_run_in_root {start : System} (initial : start.Initial)
    (reached : Reaches step (fun _ action => ¬ action.installsHandler) start system) :
    ∀ proc function, (proc, function) ∈ system.handled → proc = 0 := by
  have both : system.WellFormed ∧ system.HandlersGuarded := by
    refine reached.invariant (fun state => state.WellFormed ∧ state.HandlersGuarded)
      ⟨.of_initial initial, .of_initial initial⟩ ?_
    intro state next action ⟨wellFormed, guarded⟩ allowed stepped
    have change := wellFormed.change stepped
    exact ⟨wellFormed.of_change change, guarded.of_change wellFormed allowed change⟩
  exact fun proc function invoked => both.2.handled (proc, function) invoked

/-- `SIGHUP` has a handler, every other signal its default action. -/
def hangupHandled : SigTable where
  get signal := if signal = SIGHUP then .handler 7 else .dfl
  kill := rfl
  stop := rfl

/-- A call that falls back to `clone`, with `SIGHUP` sent to both processes while the
child still clears its handlers. -/
def hangupDuringFallback : List Action :=
  let parent : List Choice := [.ok, .ok, .fds 3 4, .ok, .ok, .ok, .fail .nosys, .ok, .ok]
  List.flatten [
    [.aspawn (mainTask 0) 0 100 200 0 0], Action.codes (mainTask 0) parent,
    [.raise 1 SIGHUP, .raise 0 SIGHUP],
    Action.codes (mainTask 1) (List.replicate 67 .ok), [.enter 1],
    Action.codes (mainTask 0) (List.replicate 4 .ok),
    [.finish (mainTask 0), .deliver (mainTask 0) SIGHUP]]

theorem handlers_run_in_root_hangup :
    ∃ system, run step (boot hangupHandled reservedStacks) hangupDuringFallback =
      some system ∧ ∀ proc function, (proc, function) ∈ system.handled → proc = 0 := by
  have completes : (run step (boot hangupHandled reservedStacks)
      hangupDuringFallback).isSome = true := by
    decide +kernel
  obtain ⟨system, performed⟩ := Option.isSome_iff_exists.mp completes
  have harmless : ∀ action ∈ hangupDuringFallback, ¬ action.installsHandler := by decide
  exact ⟨system, performed, handlers_run_in_root boot_initial
    (.of_run performed (.of_forall fun action member _ => harmless action member))⟩

end System

end Aspawn
