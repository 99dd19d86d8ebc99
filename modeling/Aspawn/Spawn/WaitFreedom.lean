import Aspawn.Spawn.CallDiscipline
import Aspawn.Spawn.StackReuseProperties

/-! Calls and starting children get done in a bounded number of their own steps, whatever
the other threads and processes do, and never wait for them. -/

set_option autoImplicit false

namespace Aspawn

open Transition

/-! ## How many requests the code makes -/

theorem sysCall_within {α : Type} {request : SysRequest}
    {next : request.Response → Program SysCalls α} {count : Nat}
    (later : ∀ response, (next response).Within count) :
    (sysCall request >>= next).Within (count + 1) :=
  later

theorem cloneChild_within {args : ArgsPtr} {stack : StackT} :
    (cloneChild args stack).Within 4 := by
  unfold cloneChild
  rw [if_neg (by decide)]
  refine sysCall_within fun flag => ?_
  cases flag with
  | true => exact fun _ => trivial
  | false =>
      refine sysCall_within fun newPid => ?_
      split
      · trivial
      · exact sysCall_within fun _ => fun _ => trivial

theorem finishImpl_within {pipefd : Nat × Nat} {newPid : Int} :
    (finishImpl pipefd newPid).Within 2 := by
  unfold finishImpl
  split
  · exact sysCall_within fun _ => sysCall_within fun _ => trivial
  · exact sysCall_within fun _ => sysCall_within fun _ => trivial

theorem aspawnImpl_within {block fn arg : Nat} {oldSigset : SigsetT} :
    (aspawnImpl block fn arg oldSigset).Within 9 := by
  unfold aspawnImpl
  refine sysCall_within fun pipe => ?_
  cases pipe with
  | error result => trivial
  | ok pipefd =>
      refine sysCall_within fun stack => sysCall_within fun _ => ?_
      exact Program.within_bind cloneChild_within fun _ => finishImpl_within

theorem aspawn_within {block fn arg : Nat} {oldset : SigsetT} :
    (aspawn block fn arg oldset).Within 13 := by
  unfold aspawn
  refine sysCall_within fun oldstate => sysCall_within fun response => ?_
  obtain ⟨result, blocked⟩ := response
  dsimp only
  split
  · have rest (result : Int) : (sigSetmask (blocked.getD oldset) >>= fun _ => do
        let _ ← sysCall (.setcancelstate oldstate)
        return result).Within 2 :=
      sysCall_within fun _ => sysCall_within fun _ => trivial
    exact Program.within_bind aspawnImpl_within rest
  · exact sysCall_within fun _ => trivial

theorem clearHandlersFrom_within (left sig : Nat) : (clearHandlersFrom left sig).Within left := by
  induction left generalizing sig with
  | zero => trivial
  | succ left ih => exact sysCall_within fun _ => ih (sig + 1)

theorem aspawnChild_within {args : ArgsPtr} : (aspawnChild args).Within 3 := by
  unfold aspawnChild
  refine sysCall_within fun loaded => sysCall_within fun ret => ?_
  split
  · trivial
  · exact sysCall_within fun _ => trivial

theorem childEntry_within {entry : ChildEntry} {args : ArgsPtr} :
    (entry.program args).Within 67 := by
  cases entry with
  | aspawnChild => exact aspawnChild_within.mono (by decide)
  | aspawnChildClearSighand =>
      exact Program.within_bind (clearHandlersFrom_within 64 1) fun _ => aspawnChild_within

/-- The requests that a call makes at most. -/
def CallKind.requests : CallKind → Nat
  | .aspawn => 13
  | .aspawnRec => 9

namespace System

variable {system next after start before entered : System} {task : TaskId} {call proc : Nat}
  {action : Action} {choice : Choice} {bound : Nat}

/-! ## Own steps -/

/-- The action is a step of this thread's code. -/
def Action.isCodeOf (task : TaskId) : Action → Bool
  | .code other _ => other = task
  | _ => false

/-- A step of the code inside a call goes on after one request. -/
theorem request_of_inCall {rest : Program SysCalls Int}
    (stepped : system.step (.code task choice) = some next)
    (inCall : next.control task = .inCall call rest) :
    ∃ request, ∃ more : request.Response → Program SysCalls Int, ∃ response,
      system.control task = .inCall call (.call request more) ∧ rest = more response := by
  simp only [step] at stepped
  split at stepped
  · split at stepped <;> cases stepped
    cases setControl_self.symm.trans inCall
    exact ⟨_, _, _, ‹_›, rfl⟩
  · split at stepped
    · cases stepped
    · split at stepped <;> cases stepped
      cases setControl_self.symm.trans inCall
  · cases stepped

theorem request_of_starting {progress : ChildProgress} {rest : Program SysCalls ChildStart}
    (stepped : system.step (.code task choice) = some next)
    (starting : next.control task = .starting progress rest) :
    ∃ request, ∃ more : request.Response → Program SysCalls ChildStart, ∃ before response,
      system.control task = .starting before (.call request more) ∧ rest = more response := by
  simp only [step] at stepped
  split at stepped
  · split at stepped <;> cases stepped
    cases setControl_self.symm.trans starting
  · split at stepped
    · cases stepped
    · split at stepped <;> cases stepped
      cases setControl_self.symm.trans starting
      exact ⟨_, _, _, _, ‹_›, rfl⟩
  · cases stepped

/-- As long as the thread is in the call, what it has spent and what it has left are within
the bound. -/
def CallWithin (task : TaskId) (call bound : Nat) (system : System) (spent : Nat) : Prop :=
  system.WellFormed ∧ (∃ record, system.calls call = some record) ∧
    ∀ rest, system.control task = .inCall call rest →
      ∃ left, spent + left = bound ∧ rest.Within left

/-- As long as the child is starting, what it has spent and what it has left are within the
bound. -/
def StartWithin (proc bound : Nat) (system : System) (spent : Nat) : Prop :=
  system.WellFormed ∧ (∃ birth, system.birth proc = some birth) ∧
    ∀ progress rest, system.control (mainTask proc) = .starting progress rest →
      ∃ left, spent + left = bound ∧ rest.Within left

theorem code_of_isCodeOf (own : action.isCodeOf task) : ∃ choice, action = .code task choice := by
  cases action with
  | code other choice =>
      cases of_decide_eq_true own
      exact ⟨choice, rfl⟩
  | _ => cases own

theorem spend {α : Type} {request : SysRequest} {more : request.Response → Program SysCalls α}
    {spent left : Nat} (within : (Program.call request more : Program SysCalls α).Within left)
    (counted : spent + left = bound) (response : request.Response) :
    ∃ left, spent + 1 + left = bound ∧ (more response).Within left := by
  cases left with
  | zero => exact within.elim
  | succ left => exact ⟨left, by omega, within response⟩

theorem CallWithin.of_step {spent : Nat} (within : CallWithin task call bound system spent)
    (stepped : system.step action = some next) :
    CallWithin task call bound next (spent + if action.isCodeOf task then 1 else 0) := by
  obtain ⟨wellFormed, ⟨record, known⟩, within⟩ := within
  have change := wellFormed.change stepped
  obtain ⟨progress, returned, later, _⟩ := change.record_kept wellFormed.numbered known
  refine ⟨wellFormed.of_step stepped, ⟨_, later⟩, fun rest inCall => ?_⟩
  by_cases own : action.isCodeOf task
  · obtain ⟨choice, rfl⟩ := code_of_isCodeOf own
    obtain ⟨request, more, response, running, rfl⟩ := request_of_inCall stepped inCall
    obtain ⟨left, counted, before⟩ := within _ running
    rw [if_pos own]
    exact spend before counted response
  · rw [if_neg own]
    cases cameFrom_of_step wellFormed stepped inCall later with
    | same running => exact within rest running
    | request code =>
        rw [code] at own
        exact absurd (decide_eq_true rfl) own
    | started new => exact absurd (wellFormed.numbered.call_lt known) (by omega)

/-- A child is starting where it was, unless it makes the step itself. -/
theorem starting_kept {birth : Birth} {progress : ChildProgress}
    {rest : Program SysCalls ChildStart} (wellFormed : system.WellFormed)
    (stepped : system.step action = some next) (born : system.birth proc = some birth)
    (other : ¬ action.isCodeOf (mainTask proc))
    (starting : next.control (mainTask proc) = .starting progress rest) :
    system.control (mainTask proc) = .starting progress rest := by
  cases wellFormed.change stepped with
  | call _ _ effect =>
      have there := control_of_update (fun same => Control.noConfusion same) starting
      cases effect with
      | cloned =>
          have older : mainTask proc ≠ mainTask system.nextProc := fun same =>
            (wellFormed.numbered.born_lt born).ne (congrArg TaskId.proc same)
          exact (Function.update_of_ne older ..).symm.trans there
      | _ => exact there
  | @starting child _ _ _ _ _ _ _ _ _ _ effect =>
      have distinct : mainTask proc ≠ mainTask child := fun same =>
        other (decide_eq_true same.symm)
      have there := (setControl_of_ne distinct).symm.trans starting
      cases effect <;> exact there
  | started | finish | enter | left =>
      exact control_of_update (fun same => Control.noConfusion same) starting
  | user _ performed => exact (userStep_frame performed).1 ▸ starting
  | raise | deliver => exact starting

theorem StartWithin.of_step {spent : Nat} (within : StartWithin proc bound system spent)
    (stepped : system.step action = some next) :
    StartWithin proc bound next (spent + if action.isCodeOf (mainTask proc) then 1 else 0) := by
  obtain ⟨wellFormed, ⟨birth, born⟩, within⟩ := within
  have change := wellFormed.change stepped
  refine ⟨wellFormed.of_step stepped, ⟨birth, change.birth_kept wellFormed.numbered born⟩,
    fun progress rest starting => ?_⟩
  by_cases own : action.isCodeOf (mainTask proc)
  · obtain ⟨choice, rfl⟩ := code_of_isCodeOf own
    obtain ⟨request, more, before, response, running, rfl⟩ := request_of_starting stepped starting
    obtain ⟨left, counted, within⟩ := within _ _ running
    rw [if_pos own]
    exact spend within counted response
  · rw [if_neg own]
    exact within progress rest (starting_kept wellFormed stepped born own starting)

/-! ## The kernel always answers -/

/-- No request waits for another thread. -/
theorem handle_enabled (request : SysRequest) :
    ∃ choice, ∃ response : request.Response, ∃ after,
      system.handle task call choice request = some (response, after) := by
  cases request with
  | pipe2 => exact ⟨.fail .nosys, _, _, rfl⟩
  | clone => exact ⟨.fail .nosys, _, _, rfl⟩
  | clone3 => exact ⟨.fail .nosys, _, _, rfl⟩
  | close fd =>
      cases held : system.fds task.proc fd with
      | none => exact ⟨.ok, -EBADF, system, by simp only [handle, held]⟩
      | some entry => exact ⟨.ok, 0, _, by simp only [handle, held]; rfl⟩
  | rtSigaction signum act =>
      by_cases inside : 0 < signum ∧ signum - 1 < 64
      · by_cases fixed : (⟨signum - 1, inside.2⟩ : Signal) = SIGKILL ∨
          (⟨signum - 1, inside.2⟩ : Signal) = SIGSTOP
        · exact ⟨.ok, -EINVAL, system, by simp only [handle, dif_pos inside, if_pos fixed]⟩
        · exact ⟨.ok, 0, _, by simp only [handle, dif_pos inside, if_neg fixed]; rfl⟩
      · exact ⟨.ok, -EINVAL, system, by simp only [handle, dif_neg inside]⟩
  | _ => exact ⟨.ok, _, _, rfl⟩

/-- A request of a call starts no other call and moves no other thread of the root. -/
theorem CallEffect.elsewhere {kind : CallKind} {block : Nat} {before progress : Progress}
    {after : System} (effect : CallEffect system task call kind block before progress after)
    (numbered : system.Numbered) {other : TaskId} (root : other.proc = 0) :
    after.nextCall = system.nextCall ∧ after.control other = system.control other := by
  cases effect with
  | cloned =>
      refine ⟨rfl, Function.update_of_ne (fun same => ?_) ..⟩
      have new : system.nextProc = 0 := (congrArg TaskId.proc same).symm.trans root
      exact absurd numbered.root.1 (new ▸ Nat.lt_irrefl 0)
  | _ => exact ⟨rfl, rfl⟩

/-- Nothing has happened to the other threads of the root, and no call has started. -/
def LeavesOthers (system final : System) (task : TaskId) : Prop :=
  final.nextCall = system.nextCall ∧
    ∀ other, other.proc = 0 → other ≠ task → final.control other = system.control other

/-- A thread in a call can get it done alone. -/
theorem finishes_alone {rest : Program SysCalls Int} (wellFormed : system.WellFormed)
    (inCall : system.control task = .inCall call rest) :
    ∃ choices : List Choice, ∃ record result final,
      (∀ left, rest.Within left → choices.length ≤ left) ∧
      run step system (Action.codes task choices ++ [.finish task]) = some final ∧
      final.calls call = some record ∧ record.returned = some result ∧
      final.control task = .user ∧ LeavesOthers system final task := by
  induction rest generalizing system with
  | done result =>
      obtain ⟨record, runs⟩ := wellFormed.threaded.inCall _ _ _ inCall
      have finished : system.step (.finish task) = some ((system.setCall call
          { record with returned := some result }).setControl task .user) := by
        simp only [step, inCall, runs.known]
      exact ⟨[], _, result, _, fun left _ => Nat.zero_le left, run_single finished, setCall_self,
        rfl, setControl_self, rfl, fun other _ distinct => setControl_of_ne distinct⟩
  | call request next ih =>
      obtain ⟨record, runs⟩ := wellFormed.threaded.inCall _ _ _ inCall
      obtain ⟨choice, response, after, handled⟩ := @handle_enabled system task call request
      have stepped : system.step (.code task choice) = some ((after.setCall call { record with
          progress := (callProtocol record.kind record.block).after record.progress request
            response }).setControl task (.inCall call (next response))) := by
        simp only [step, inCall, runs.known, handled]
      have effect := (callEffect_of_handle runs.cancel runs.mask wellFormed.numbered.root.1
        runs.conforms.1 handled).2
      obtain ⟨choices, record, result, final, short, performed, known, returned, user,
        nextCall, others⟩ := ih response (wellFormed.of_step stepped) setControl_self
      refine ⟨choice :: choices, record, result, final, fun left within => ?_, ?_, known, returned,
        user, nextCall.trans ?_, fun other root distinct => ?_⟩
      · cases left with
        | zero => exact within.elim
        | succ left => exact Nat.succ_le_succ (short left (within response))
      · rw [← performed]
        exact run_cons_some stepped
      · have here : (mainTask 0).proc = 0 := rfl
        exact (effect.elsewhere wellFormed.numbered here).1
      · exact (others other root distinct).trans
          ((setControl_of_ne distinct).trans (effect.elsewhere wellFormed.numbered root).2)

/-- A starting child can get to its function, or exit, alone. -/
theorem enters_alone {progress : ChildProgress} {rest : Program SysCalls ChildStart} {left : Nat}
    (wellFormed : system.WellFormed)
    (starting : system.control (mainTask proc) = .starting progress rest)
    (within : rest.Within left) :
    ∃ choices : List Choice, ∃ final, choices.length ≤ left ∧
      run step system (Action.codes (mainTask proc) choices ++ [.enter proc]) = some final ∧
      (final.control (mainTask proc) = .user ∨ final.phase proc = .exited) := by
  induction rest generalizing system left progress with
  | done value =>
      cases value with
      | fn fn arg writeEndFd oldSigset =>
          have entered : system.step (.enter proc) =
              some (system.setControl (mainTask proc) .user) := by
            simp only [step, starting]
          exact ⟨[], _, Nat.zero_le left, run_single entered, .inl setControl_self⟩
      | perr exitStatus errnoV =>
          have exited : system.step (.enter proc) = some (system.leave proc .exited .empty) := by
            simp only [step, starting]
          exact ⟨[], _, Nat.zero_le left, run_single exited, .inr (Function.update_self ..)⟩
  | call request next ih =>
      cases left with
      | zero => exact within.elim
      | succ left =>
          obtain ⟨birth, born, _⟩ := wellFormed.threaded.starting _ _ _ starting
          obtain ⟨choice, response, after, handled⟩ :=
            @handle_enabled system (mainTask proc) birth.call request
          have stepped : system.step (.code (mainTask proc) choice) = some (after.setControl
              (mainTask proc) (.starting ((childProtocol birth.args).after progress request
                response) (next response))) := by
            simp only [step, starting, born, handled]
          obtain ⟨choices, final, short, performed, entered⟩ :=
            ih response (wellFormed.of_step stepped) setControl_self (within response)
          refine ⟨choice :: choices, final, Nat.succ_le_succ short, ?_, entered⟩
          rw [← performed]
          exact run_cons_some stepped

/-! ## Runs -/

theorem wellFormed_of_reaches {allowed : System → Action → Prop} (initial : start.Initial)
    (reached : Reaches step allowed start system) : system.WellFormed :=
  reached.invariant WellFormed (.of_initial initial) fun wellFormed _ => wellFormed.of_step

/-- The code of a call that starts is within its bound. -/
theorem callWithin_of_starts {kind : CallKind} {block : Nat} (wellFormed : before.WellFormed)
    (starts : action.starts = some (kind, block)) (called : before.step action = some entered) :
    CallWithin task before.nextCall kind.requests entered 0 := by
  have fresh {stepping : TaskId} {pid : Int} {code : Program SysCalls Int}
      (within : code.Within kind.requests)
      (advanced : entered = before.startCall stepping kind block pid code) :
      (∃ record, entered.calls before.nextCall = some record) ∧
        ∀ rest, entered.control task = .inCall before.nextCall rest →
          ∃ left, 0 + left = kind.requests ∧ rest.Within left := by
    cases advanced
    refine ⟨⟨_, Function.update_self ..⟩, fun rest inCall => ⟨kind.requests, Nat.zero_add _, ?_⟩⟩
    by_cases same : task = stepping
    · cases same
      cases (Function.update_self ..).symm.trans inCall
      exact within
    · have earlier := (Function.update_of_ne same ..).symm.trans inCall
      obtain ⟨_, runs⟩ := wellFormed.threaded.inCall _ _ _ earlier
      exact absurd (wellFormed.numbered.call_lt runs.known) (Nat.lt_irrefl _)
  refine ⟨wellFormed.of_step called, ?_⟩
  cases action with
  | aspawn =>
      cases starts
      simp only [step] at called
      split at called <;> [skip; cases called]
      split at called <;> cases called
      exact fresh aspawn_within rfl
  | aspawnRec =>
      cases starts
      simp only [step] at called
      split at called <;> [skip; cases called]
      split at called <;> cases called
      exact fresh aspawnImpl_within rfl
  | _ => cases starts

/-- The code of a child that is born is within its bound. -/
theorem startWithin_of_born {birth : Birth} (wellFormed : before.WellFormed)
    (made : before.step action = some entered) (unborn : before.birth proc = none)
    (born : entered.birth proc = some birth) : StartWithin proc 67 entered 0 := by
  refine ⟨wellFormed.of_step made, ⟨birth, born⟩, fun progress rest starting => ?_⟩
  have absent (same : entered.birth = before.birth) : False := by
    rw [same, unborn] at born
    cases born
  cases wellFormed.change made with
  | @call task _ _ _ _ _ _ _ running _ effect =>
      cases effect with
      | @cloned _ _ entry ptr stackPointer exitSignal clearSighand =>
          have born : (before.spawn task _ entry ptr stackPointer exitSignal
            clearSighand).birth proc = some birth := born
          by_cases new : proc = before.nextProc
          · cases new
            have there := control_of_update (fun same => Control.noConfusion same) starting
            cases (Function.update_self ..).symm.trans there
            exact ⟨67, rfl, childEntry_within⟩
          · cases unborn.symm.trans ((Function.update_of_ne new ..).symm.trans born)
      | _ => exact (absent rfl).elim
  | starting _ _ effect => cases effect <;> exact (absent rfl).elim
  | user _ performed => exact (absent (userStep_frame performed).2.2.1).elim
  | started | finish | enter | left | raise | deliver => exact (absent rfl).elim

/-- However its steps are interleaved with those of other threads and processes, a call
makes at most 13 of its own, or 9 for `aspawn_rec`, and at any time it can return without
a step of anyone else. -/
theorem calls_wait_free {allowed : System → Action → Prop} {kind : CallKind} {block : Nat}
    {actions : List Action} {after : System} {rest : Program SysCalls Int}
    (initial : start.Initial) (earlier : Reaches step allowed start before)
    (starts : action.starts = some (kind, block)) (called : before.step action = some entered)
    (performed : run step entered actions = some after)
    (inCall : after.control task = .inCall before.nextCall rest) :
    ∃ choices : List Choice, ∃ record result final,
      actions.countP (Action.isCodeOf task) + choices.length ≤ kind.requests ∧
      run step after (Action.codes task choices ++ [.finish task]) = some final ∧
      final.calls before.nextCall = some record ∧ record.returned = some result := by
  have started : CallWithin task before.nextCall kind.requests entered 0 :=
    callWithin_of_starts (wellFormed_of_reaches initial earlier) starts called
  obtain ⟨wellFormed, _, within⟩ :=
    counted_of_run (CallWithin task before.nextCall kind.requests) performed started .of_step
  obtain ⟨left, counted, within⟩ := within rest inCall
  obtain ⟨choices, record, result, final, short, done, known, returned, _⟩ :=
    finishes_alone wellFormed inCall
  have few := short left within
  exact ⟨choices, record, result, final, by omega, done, known, returned⟩

theorem calls_wait_free_meanwhile :
    ∃ entered after final record result, ∃ choices : List Choice,
      (boot .default reservedStacks).step (.aspawn (mainTask 0) 0 100 200 0 0) =
        some entered ∧
      run step entered flagSetMeanwhile = some after ∧
      flagSetMeanwhile.countP (Action.isCodeOf (mainTask 0)) + choices.length ≤ 13 ∧
      run step after (Action.codes (mainTask 0) choices ++ [.finish (mainTask 0)]) = some final ∧
      final.calls 0 = some record ∧ record.returned = some result := by
  have completes : ((run step (boot .default reservedStacks)
      (.aspawn (mainTask 0) 0 100 200 0 0 :: flagSetMeanwhile)).bind fun after =>
        (after.control (mainTask 0)).returning) = some (0, 3) := by
    decide +kernel
  obtain ⟨after, performed, returning⟩ := Option.bind_eq_some_iff.mp completes
  obtain ⟨entered, called, later⟩ := run_cons_iff.mp performed
  obtain ⟨choices, record, result, final, done⟩ :=
    calls_wait_free boot_initial
      (.refl : Reaches step (fun _ _ => True) _ _) rfl called later
      (Control.of_returning returning)
  exact ⟨entered, after, final, record, result, choices, called, later, done⟩

/-- A child makes at most 67 requests before it is in its function, and at any time it can
get there, or exit, without a step of anyone else. -/
theorem children_wait_free {allowed : System → Action → Prop} {birth : Birth}
    {actions : List Action} {after : System} {progress : ChildProgress}
    {rest : Program SysCalls ChildStart} (initial : start.Initial)
    (earlier : Reaches step allowed start before) (made : before.step action = some entered)
    (unborn : before.birth proc = none) (born : entered.birth proc = some birth)
    (performed : run step entered actions = some after)
    (starting : after.control (mainTask proc) = .starting progress rest) :
    ∃ choices : List Choice, ∃ final,
      actions.countP (Action.isCodeOf (mainTask proc)) + choices.length ≤ 67 ∧
      run step after (Action.codes (mainTask proc) choices ++ [.enter proc]) = some final ∧
      (final.control (mainTask proc) = .user ∨ final.phase proc = .exited) := by
  have started := startWithin_of_born (wellFormed_of_reaches initial earlier) made unborn born
  obtain ⟨wellFormed, _, within⟩ :=
    counted_of_run (StartWithin proc 67) performed started .of_step
  obtain ⟨left, counted, within⟩ := within progress rest starting
  obtain ⟨choices, final, short, done⟩ := enters_alone wellFormed starting within
  exact ⟨choices, final, by omega, done⟩

/-- A call of the root up to where it makes its child. -/
def beforeClone : List Action :=
  .aspawn (mainTask 0) 0 100 200 0 0 ::
    Action.codes (mainTask 0) [.ok, .ok, .fds 3 4, .ok, .ok, .ok]

/-- The child has read its arguments when its parent goes on. -/
def afterClone : List Action :=
  .code (mainTask 1) .ok :: Action.codes (mainTask 0) [.ok, .ok, .ok]

theorem children_wait_free_halfway :
    ∃ before entered after final, ∃ choices : List Choice,
      run step (boot .default reservedStacks) beforeClone = some before ∧
      before.step (.code (mainTask 0) .ok) = some entered ∧
      run step entered afterClone = some after ∧
      afterClone.countP (Action.isCodeOf (mainTask 1)) + choices.length ≤ 67 ∧
      run step after (Action.codes (mainTask 1) choices ++ [.enter 1]) = some final ∧
      (final.control (mainTask 1) = .user ∨ final.phase 1 = .exited) := by
  have completes : ((run step (boot .default reservedStacks) beforeClone).bind
      fun before => (before.step (.code (mainTask 0) .ok)).bind fun entered =>
        (run step entered afterClone).map fun after =>
          ((before.birth 1).isNone, (entered.birth 1).isSome,
            (after.control (mainTask 1)).isStarting)) = some (true, true, true) := by
    decide +kernel
  obtain ⟨before, earlier, completes⟩ := Option.bind_eq_some_iff.mp completes
  obtain ⟨entered, made, completes⟩ := Option.bind_eq_some_iff.mp completes
  obtain ⟨after, performed, values⟩ := Option.map_eq_some_iff.mp completes
  simp only [Prod.mk.injEq, Option.isNone_iff_eq_none, Option.isSome_iff_exists] at values
  obtain ⟨unborn, ⟨birth, born⟩, starting⟩ := values
  obtain ⟨progress, rest, starting⟩ := Control.of_isStarting starting
  have reached : Reaches step (fun _ _ => True) _ before :=
    .of_run earlier (.of_forall fun _ _ _ => trivial)
  obtain ⟨choices, final, done⟩ :=
    children_wait_free boot_initial reached made unborn born performed starting
  exact ⟨before, entered, after, final, choices, earlier, made, performed, done⟩

end System

end Aspawn
