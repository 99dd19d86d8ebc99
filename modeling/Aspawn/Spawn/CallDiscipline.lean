import Aspawn.Spawn.TransactionProperties

/-! Further rules that the code of each call keeps to, beside the protocol of all calls:
they may depend on which call it is and on what it was started with. -/

set_option autoImplicit false

namespace Aspawn

open Protocol

/-! ## What the code of a call asks for -/

/-- Where the arguments are, as this system's stacks grow. -/
def argsAddr (stack : StackT) : UInt64 := (placeChildArgs STACK_GROWS_DOWN stack).1

def childStackT (stack : StackT) : StackT := (placeChildArgs STACK_GROWS_DOWN stack).2

/-- A request that is not made on behalf of the child. -/
def SysRequest.plain : SysRequest → Bool
  | .storeArgs _ _ | .loadFlag | .storeFlag _ | .clone _ _ _ _ | .clone3 _ _ _ => false
  | _ => true

section Code

variable {α : Type} {rules : Protocol SysCalls Progress} {block fn arg : Nat} {stack : StackT}
  {oldSigset : SigsetT} {progress : Progress} {final : Progress → α → Prop}

theorem conforms_sysCall {request : SysRequest} {next : request.Response → Program SysCalls α}
    (permitted : rules.permits progress request)
    (rest : ∀ response, rules.answers progress request response →
      rules.Conforms final (rules.after progress request response) (next response)) :
    rules.Conforms final progress (sysCall request >>= next) :=
  conforms_call.mpr ⟨permitted, rest⟩

theorem conforms_plain {request : SysRequest} {next : request.Response → Program SysCalls α}
    (plain : ∀ progress request, SysRequest.plain request → rules.permits progress request)
    (isPlain : request.plain) (rest : ∀ response progress,
      rules.Conforms final progress (next response)) :
    rules.Conforms final progress (sysCall request >>= next) :=
  conforms_sysCall (plain progress request isPlain) fun response _ => rest response _

/-- `cloneChild` keeps to rules that permit each of its requests at any stage. -/
theorem conforms_cloneChild {next : Int → Program SysCalls α} {args : ArgsPtr}
    (flag : ∀ progress request, request = .loadFlag ∨ request = .storeFlag true →
      rules.permits progress request)
    (clone : ∀ progress, rules.permits progress (.clone .aspawnChildClearSighand
      (stackTop stack.addr stack.size) (CLONE_VM ||| SIGCHLD) args))
    (clone3 : ∀ progress, rules.permits progress (.clone3
      { flags := CLONE_VM ||| CLONE_CLEAR_SIGHAND
        exitSignal := SIGCHLD
        stack := stack.addr
        stackSize := stack.size } .aspawnChild args))
    (rest : ∀ progress newPid, rules.Conforms final progress (next newPid)) :
    rules.Conforms final progress (cloneChild args stack >>= next) := by
  have cloneRest (progress : Progress) : rules.Conforms final progress
      (cloneInternal .aspawnChildClearSighand args stack >>= next) :=
    conforms_sysCall (clone progress) fun newPid _ => rest _ newPid
  unfold cloneChild
  rw [if_neg (by decide), Program.bind_assoc]
  refine conforms_sysCall (flag _ _ (.inl rfl)) fun set _ => ?_
  cases set with
  | true => exact cloneRest _
  | false =>
      rw [if_neg (by decide), Program.bind_assoc]
      refine conforms_sysCall (clone3 _) fun newPid _ => ?_
      split
      · exact rest _ newPid
      · rw [Program.bind_assoc]
        exact conforms_sysCall (flag _ _ (.inr rfl)) fun _ _ => cloneRest _

/-- The rules permit what a call does on behalf of a child, once it has found `stack`. -/
structure AdmitsChild (rules : Protocol SysCalls Progress) (block : Nat) (stack : StackT)
    (fn arg : Nat) (oldSigset : SigsetT) : Prop where
  store : ∀ progress pipefd, rules.permits progress (.storeArgs
    { block, addr := argsAddr stack } { pipefd, fn, arg, oldSigset })
  cloned : ∀ progress, ∀ next : Int → Program SysCalls Int,
    (∀ progress newPid, rules.Conforms (fun _ _ => True) progress (next newPid)) →
    rules.Conforms (fun _ _ => True) progress
      (cloneChild { block, addr := argsAddr stack } (childStackT stack) >>= next)

variable (plain : ∀ progress request, SysRequest.plain request → rules.permits progress request)

include plain

theorem conforms_finishImpl {pipefd : Nat × Nat} {newPid : Int} :
    rules.Conforms (fun _ _ => True) progress (finishImpl pipefd newPid) := by
  unfold finishImpl
  split
  · refine conforms_plain plain rfl fun _ after => ?_
    exact conforms_plain plain rfl fun _ _ => trivial
  · refine conforms_plain plain rfl fun _ after => ?_
    exact conforms_plain plain rfl fun _ _ => trivial

/-- `aspawn_impl` keeps to rules that only speak of its child. -/
theorem conforms_aspawnImpl (admits : ∀ progress stack,
      rules.answers progress (.loadStack block) stack →
      AdmitsChild rules block stack fn arg oldSigset) :
    rules.Conforms (fun _ _ => True) progress (aspawnImpl block fn arg oldSigset) := by
  unfold aspawnImpl
  refine conforms_plain plain rfl fun pipe after => ?_
  cases pipe with
  | error result => trivial
  | ok pipefd =>
      refine conforms_sysCall (plain _ _ rfl) fun found answered => ?_
      have child := admits after found answered
      refine conforms_sysCall (child.store _ pipefd) fun _ _ => ?_
      exact child.cloned _ _ fun _ _ => conforms_finishImpl plain

/-- `aspawn` stores what it finds in `oldset` after it has blocked all signals. -/
theorem conforms_aspawn {oldset : SigsetT} (admits : ∀ oldstate blocked,
      rules.answers (rules.after progress (.setcancelstate .disable) oldstate)
        (.sigprocmask .block pureSigfillset (some oldset)) (0, blocked) →
      ∀ after stack, rules.answers after (.loadStack block) stack →
        AdmitsChild rules block stack fn arg (blocked.getD oldset)) :
    rules.Conforms (fun _ _ => True) progress (aspawn block fn arg oldset) := by
  unfold aspawn
  refine conforms_sysCall (plain _ _ rfl) fun oldstate _ => ?_
  refine conforms_sysCall (plain _ _ rfl) fun response answered => ?_
  obtain ⟨result, blocked⟩ := response
  have restored (progress : Progress) (result : Int) :
      rules.Conforms (fun _ _ => True) progress
        (sysCall (.setcancelstate oldstate) >>= fun _ => (return result)) :=
    conforms_plain plain rfl fun _ _ => trivial
  dsimp only
  split
  · rename_i zero
    cases zero
    rw [conforms_bind]
    refine (conforms_aspawnImpl plain (admits oldstate blocked answered)).mono fun _ => ?_
    exact conforms_plain plain rfl fun _ after => restored after _
  · exact restored _ _

end Code

namespace System

variable {system next after : System} {task : TaskId} {call : Nat} {record : CallRecord}
  {rest : Program SysCalls Int} {action : Action}

/-- Where a thread inside a call comes from: it was there before, it has made the step,
or the call is new. -/
inductive CameFrom (system : System) (action : Action) (task : TaskId) (call : Nat)
    (rest : Program SysCalls Int) (record : CallRecord) : Prop where
  | same {returned} :
      system.control task = .inCall call rest →
      system.calls call = some { record with returned } →
      CameFrom system action task call rest record
  | request {choice before request response} {more : request.Response → Program SysCalls Int}
      {after : System} :
      action = .code task choice →
      system.control task = .inCall call (.call request more) →
      system.calls call = some before →
      system.handle task call choice request = some (response, after) →
      rest = more response →
      record = { before with
        progress := (callProtocol before.kind before.block).after before.progress request
          response } →
      CameFrom system action task call rest record
  | started {kind block} :
      call = system.nextCall → action.starts = some (kind, block) →
      CameFrom system action task call rest record

theorem cameFrom_of_step (wellFormed : system.WellFormed)
    (stepped : system.step action = some next) (inCall : next.control task = .inCall call rest)
    (known : next.calls call = some record) : system.CameFrom action task call rest record := by
  have stays (control : system.control task = .inCall call rest)
      (calls : system.calls call = some record) :
      system.CameFrom action task call rest record :=
    .same control calls
  cases stepped_of_step stepped with
  | @call stepping _ number _ _ before _ _ running present handled =>
      obtain ⟨found, runs⟩ := wellFormed.threaded.inCall _ _ _ running
      cases present.symm.trans runs.known
      obtain ⟨_, effect⟩ := callEffect_of_handle runs.cancel runs.mask
        wellFormed.numbered.root.1 runs.conforms.1 handled
      by_cases same : task = stepping
      · cases same
        cases setControl_self.symm.trans inCall
        cases setCall_self.symm.trans known
        exact .request rfl running present handled rfl rfl
      · have earlier := effect.inCall ((setControl_of_ne same).symm.trans inCall)
        have distinct : call ≠ number := by
          rintro rfl
          obtain ⟨_, otherRuns⟩ := wellFormed.threaded.inCall _ _ _ earlier
          cases present.symm.trans otherRuns.known
          exact same (otherRuns.caller.symm.trans runs.caller)
        exact stays earlier (effect.calls ▸ (setCall_of_ne distinct).symm.trans known)
  | starting running born handled =>
      obtain ⟨_, bornAs, conforms⟩ := wellFormed.threaded.starting _ _ _ running
      cases born.symm.trans bornAs
      have earlier := control_of_update (fun same => Control.noConfusion same) inCall
      cases childEffect_of_handle conforms.1 handled <;> exact stays earlier known
  | @started _ stepping kind block _ _ user starts =>
      by_cases same : task = stepping
      · cases same
        cases (Function.update_self ..).symm.trans inCall
        exact .started rfl starts
      · have earlier : system.control task = .inCall call rest :=
          (Function.update_of_ne same ..).symm.trans inCall
        obtain ⟨_, runs⟩ := wellFormed.threaded.inCall _ _ _ earlier
        have old := wellFormed.numbered.call_lt runs.known
        exact stays earlier ((Function.update_of_ne old.ne ..).symm.trans known)
  | @finish _ number _ _ running present =>
      have earlier := control_of_update (fun same => Control.noConfusion same) inCall
      by_cases same : call = number
      · cases same
        cases setCall_self.symm.trans known
        exact .same earlier present
      · exact stays earlier ((setCall_of_ne same).symm.trans known)
  | user _ performed =>
      obtain ⟨control, _, _, calls, _, _⟩ := userStep_frame performed
      exact stays (control ▸ inCall) (calls ▸ known)
  | enter | left =>
      exact stays (control_of_update (fun same => Control.noConfusion same) inCall) known
  | raise | deliver => exact stays inCall known

/-- Where the progress of a call comes from. -/
inductive ProgressFrom (system : System) (action : Action) (call : Nat) (record : CallRecord) :
    Prop where
  | same {before} :
      system.calls call = some before → record.progress = before.progress →
      ProgressFrom system action call record
  | request {task choice before request response} {more : request.Response → Program SysCalls Int}
      {after : System} :
      action = .code task choice →
      system.control task = .inCall call (.call request more) →
      system.calls call = some before →
      system.handle task call choice request = some (response, after) →
      record.progress = (callProtocol before.kind before.block).after before.progress request
        response →
      ProgressFrom system action call record
  | started {cancel mask pid} :
      call = system.nextCall → record.progress = .start cancel mask pid →
      ProgressFrom system action call record

theorem progressFrom_of_step (wellFormed : system.WellFormed)
    (stepped : system.step action = some next) (known : next.calls call = some record) :
    system.ProgressFrom action call record := by
  cases stepped_of_step stepped with
  | @call stepping _ number request _ before response _ running present handled =>
      obtain ⟨found, runs⟩ := wellFormed.threaded.inCall _ _ _ running
      cases present.symm.trans runs.known
      obtain ⟨_, effect⟩ := callEffect_of_handle runs.cancel runs.mask
        wellFormed.numbered.root.1 runs.conforms.1 handled
      by_cases same : call = number
      · cases same
        cases setCall_self.symm.trans known
        exact .request rfl running present handled rfl
      · exact .same (effect.calls ▸ (setCall_of_ne same).symm.trans known) rfl
  | starting running born handled =>
      obtain ⟨_, bornAs, conforms⟩ := wellFormed.threaded.starting _ _ _ running
      cases born.symm.trans bornAs
      cases childEffect_of_handle conforms.1 handled <;> exact .same known rfl
  | @started _ stepping _ _ _ _ _ starts =>
      by_cases new : call = system.nextCall
      · cases new
        cases (Function.update_self ..).symm.trans known
        exact .started rfl rfl
      · exact .same ((Function.update_of_ne new ..).symm.trans known) rfl
  | @finish _ number _ _ _ present =>
      by_cases same : call = number
      · cases same
        cases setCall_self.symm.trans known
        exact .same present rfl
      · exact .same ((setCall_of_ne same).symm.trans known) rfl
  | user _ performed =>
      obtain ⟨_, _, _, calls, _, _⟩ := userStep_frame performed
      exact .same (calls ▸ known) rfl
  | enter | left | raise | deliver => exact .same known rfl

/-! ## Rules -/

/-- The rules of a call depend on what does not change in it, and follow the stages of the
protocol of all calls. -/
structure Lasting (rules : Nat → CallRecord → Protocol SysCalls Progress) : Prop where
  stays : ∀ call record progress returned,
    rules call { record with progress, returned } = rules call record
  after : ∀ call record, (rules call record).after = (callProtocol record.kind record.block).after

/-- Every call in flight keeps to its rules. -/
def KeepsTo (rules : Nat → CallRecord → Protocol SysCalls Progress) (system : System) : Prop :=
  ∀ task call rest record, system.control task = .inCall call rest →
    system.calls call = some record →
    (rules call record).Conforms (fun _ _ => True) record.progress rest

/-- The record of a call that starts now. -/
def newCall (system : System) (task : TaskId) (kind : CallKind) (block : Nat) (pid : Int) :
    CallRecord :=
  let start := Progress.start (system.cancel task) (system.mask task) pid
  { caller := task, kind, block, stack := system.cachedStacks block, start, progress := start
    returned := none }

/-- The code of a call that the action starts keeps to the rules of this call. -/
structure StartsTo (rules : Nat → CallRecord → Protocol SysCalls Progress) (system : System)
    (action : Action) : Prop where
  aspawn : ∀ task block fn arg pid oldset, action = .aspawn task block fn arg pid oldset →
    (rules system.nextCall (system.newCall task .aspawn block pid)).Conforms (fun _ _ => True)
      (system.newCall task .aspawn block pid).progress (Aspawn.aspawn block fn arg oldset)
  aspawnRec : ∀ proc block fn arg pid oldSigset,
    action = .aspawnRec proc block fn arg pid oldSigset →
    (rules system.nextCall (system.newCall (mainTask proc) .aspawnRec block pid)).Conforms
      (fun _ _ => True) (system.newCall (mainTask proc) .aspawnRec block pid).progress
      (Aspawn.aspawnRec block fn arg oldSigset)

variable {rules : Nat → CallRecord → Protocol SysCalls Progress}

namespace KeepsTo

theorem of_initial (initial : system.Initial) : system.KeepsTo rules := by
  intro task call rest record _ known
  rw [initial.calls] at known
  cases known

theorem of_started {kind : CallKind} {block : Nat} (starts : system.StartsTo rules action)
    (stepped : system.step action = some next) (starting : action.starts = some (kind, block))
    (isNew : call = system.nextCall) (earlier : system.control task ≠ .inCall call rest)
    (inCall : next.control task = .inCall call rest) (known : next.calls call = some record) :
    (rules call record).Conforms (fun _ _ => True) record.progress rest := by
  have fresh {stepping : TaskId} {kind : CallKind} {block : Nat} {pid : Int}
      {code : Program SysCalls Int}
      (conforms : (rules system.nextCall (system.newCall stepping kind block pid)).Conforms
        (fun _ _ => True) (system.newCall stepping kind block pid).progress code)
      (advanced : next = system.startCall stepping kind block pid code) :
      (rules call record).Conforms (fun _ _ => True) record.progress rest := by
    cases advanced
    cases isNew
    cases (Function.update_self ..).symm.trans known
    by_cases same : task = stepping
    · cases same
      cases (Function.update_self ..).symm.trans inCall
      exact conforms
    · exact absurd ((Function.update_of_ne same ..).symm.trans inCall) earlier
  cases action with
  | aspawn stepping block fn arg pid oldset =>
      simp only [step] at stepped
      split at stepped <;> [skip; cases stepped]
      split at stepped <;> cases stepped
      exact fresh (starts.aspawn stepping block fn arg pid oldset rfl) rfl
  | aspawnRec proc block fn arg pid oldSigset =>
      simp only [step] at stepped
      split at stepped <;> [skip; cases stepped]
      split at stepped <;> cases stepped
      exact fresh (starts.aspawnRec proc block fn arg pid oldSigset rfl) rfl
  | _ => cases starting

/-- Calls keep to their rules as long as every answer is one that the rules expect. -/
theorem of_step (keeps : system.KeepsTo rules) (lasting : Lasting rules)
    (wellFormed : system.WellFormed) (starts : system.StartsTo rules action)
    (answered : ∀ task choice call request record (response : request.Response) after,
      action = .code task choice →
      system.handle task call choice request = some (response, after) →
      (∃ more, system.control task = .inCall call (.call request more)) →
      system.calls call = some record →
      (callProtocol record.kind record.block).answers record.progress request response →
      (rules call record).answers record.progress request response)
    (stepped : system.step action = some next) : next.KeepsTo rules := by
  intro task call rest record inCall known
  cases cameFrom_of_step wellFormed stepped inCall known with
  | @same returned earlier present =>
      have conforms := keeps task call rest _ earlier present
      rw [lasting.stays call record record.progress returned] at conforms
      exact conforms
  | @request choice before request response more after code running present handled result
      advanced =>
      obtain ⟨_, runs⟩ := wellFormed.threaded.inCall _ _ _ running
      cases present.symm.trans runs.known
      have ofProtocol := (callEffect_of_handle runs.cancel runs.mask
        wellFormed.numbered.root.1 runs.conforms.1 handled).1
      have conforms := (keeps task call _ before running present).2 response
        (answered task choice call request before response after code handled ⟨more, running⟩
          present ofProtocol)
      rw [lasting.after] at conforms
      rw [result, advanced, lasting.stays call before]
      exact conforms
  | started isNew starting =>
      refine of_started starts stepped starting isNew (fun earlier => ?_) inCall known
      obtain ⟨_, runs⟩ := wellFormed.threaded.inCall _ _ _ earlier
      exact absurd (wellFormed.numbered.call_lt runs.known) (by omega)

theorem congr {other : Nat → CallRecord → Protocol SysCalls Progress} (keeps : system.KeepsTo rules)
    (same : ∀ call record, system.calls call = some record → other call record = rules call record) :
    system.KeepsTo other := by
  intro task call rest record running known
  rw [same call record known]
  exact keeps task call rest record running known

/-- What a call asks for is permitted by its rules. -/
theorem permits {request : SysRequest} {more : request.Response → Program SysCalls Int}
    (keeps : system.KeepsTo rules) (running : system.control task = .inCall call (.call request more))
    (known : system.calls call = some record) :
    (rules call record).permits record.progress request :=
  (keeps task call _ record running known).1

end KeepsTo

end System

end Aspawn
