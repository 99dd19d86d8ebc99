import Aspawn.Spawn.CallDiscipline

/-! Where each call places the arguments and on which stack it starts its child: both
belong to the `Stack_t` as the call found it, whatever happens meanwhile. -/

set_option autoImplicit false

namespace Aspawn

open Protocol Transition

/-- The call finds this `Stack_t`, and places the arguments and the child on it. -/
def stackRules (stack : StackT) (kind : CallKind) (block : Nat) :
    Protocol SysCalls Progress where
  permits _
    | .storeArgs ptr _ => ptr.addr = argsAddr stack
    | .clone _ top _ arg =>
        top = stackTop (childStackT stack).addr (childStackT stack).size ∧
          arg.addr = argsAddr stack
    | .clone3 clArgs _ arg =>
        clArgs.stack = (childStackT stack).addr ∧ clArgs.stackSize = (childStackT stack).size ∧
          arg.addr = argsAddr stack
    | _ => True
  answers progress
    | .loadStack _, found => found = stack
    | request, response => (callProtocol kind block).answers progress request response
  after := (callProtocol kind block).after

theorem stackRules_plain {stack : StackT} {kind : CallKind} {block : Nat} (progress : Progress)
    (request : SysRequest) (plain : request.plain) :
    (stackRules stack kind block).permits progress request := by
  cases request with
  | storeArgs | clone | clone3 => cases plain
  | _ => trivial

theorem admitsChild_stackRules {stack : StackT} {kind : CallKind} {block fn arg : Nat}
    {oldSigset : SigsetT} :
    AdmitsChild (stackRules stack kind block) block stack fn arg oldSigset where
  store _ _ := rfl
  cloned _ _ := conforms_cloneChild (fun _ _ flag => by rcases flag with rfl | rfl <;> trivial)
    (fun _ => ⟨rfl, rfl⟩) fun _ => ⟨rfl, rfl, rfl⟩

namespace System

variable {system next after start : System} {task : TaskId} {call proc : Nat}

/-- The process that a request makes, with what `clone` or `clone3` was given. -/
theorem birth_of_handle {choice : Choice} {request : SysRequest} {response : request.Response}
    (handled : system.handle task call choice request = some (response, after)) :
    after.birth = system.birth ∨
      ∃ birth, after.birth = Function.update system.birth system.nextProc (some birth) ∧
        birth.call = call ∧
        ((∃ fn flags, request = .clone fn birth.stackPointer flags birth.args) ∨
          ∃ clArgs fn, request = .clone3 clArgs fn birth.args ∧
            birth.stackPointer = clArgs.stack + clArgs.stackSize) := by
  cases request with
  | sigprocmask how set oldset =>
      simp only [handle] at handled
      split at handled
      · cases handled
        exact .inl rfl
      · split at handled <;> cases handled
        exact .inl rfl
      · cases handled
  | pipe2 flags =>
      simp only [handle] at handled
      split at handled
      · cases handled
      · cases handled
        exact .inl rfl
      · split at handled <;> cases handled
        exact .inl rfl
  | clone fn stack flags ptr =>
      simp only [handle] at handled
      split at handled
      · split at handled <;> cases handled
        exact .inr ⟨_, rfl, rfl, .inl ⟨fn, flags, rfl⟩⟩
      · cases handled
        exact .inl rfl
      · cases handled
  | clone3 clArgs fn ptr =>
      simp only [handle] at handled
      split at handled
      · split at handled <;> cases handled
        exact .inr ⟨_, rfl, rfl, .inr ⟨clArgs, fn, rfl, rfl⟩⟩
      · cases handled
        exact .inl rfl
      · cases handled
  | close fd =>
      simp only [handle] at handled
      split at handled <;> cases handled <;> exact .inl rfl
  | rtSigaction signum act =>
      simp only [handle] at handled
      split at handled
      · split at handled <;> cases handled <;> exact .inl rfl
      · cases handled
        exact .inl rfl
  | _ =>
      cases handled
      exact .inl rfl

/-- A process was there before the step, or a call makes it with `clone` or `clone3`. -/
theorem born_cases {action : Action} {birth : Birth} (wellFormed : system.WellFormed)
    (stepped : system.step action = some next) (born : next.birth proc = some birth) :
    system.birth proc = some birth ∨
      ∃ task request record, ∃ more : request.Response → Program SysCalls Int,
        system.control task = .inCall birth.call (.call request more) ∧
        system.calls birth.call = some record ∧
        ((∃ fn flags, request = .clone fn birth.stackPointer flags birth.args) ∨
          ∃ clArgs fn, request = .clone3 clArgs fn birth.args ∧
            birth.stackPointer = clArgs.stack + clArgs.stackSize) := by
  cases stepped_of_step stepped with
  | @call task _ number request more record _ later running present handled =>
      have born : later.birth proc = some birth := born
      rcases birth_of_handle handled with same | ⟨child, grown, ofCall, made⟩
      · exact .inl (same ▸ born)
      · rw [grown] at born
        by_cases new : proc = system.nextProc
        · cases new
          cases (Function.update_self ..).symm.trans born
          cases ofCall
          exact .inr ⟨task, request, record, more, running, present, made⟩
        · exact .inl ((Function.update_of_ne new ..).symm.trans born)
  | starting running bornAs handled =>
      obtain ⟨_, bornAgain, conforms⟩ := wellFormed.threaded.starting _ _ _ running
      cases bornAs.symm.trans bornAgain
      cases childEffect_of_handle conforms.1 handled <;> exact .inl born
  | user _ performed =>
      obtain ⟨_, _, birth, _⟩ := userStep_frame performed
      exact .inl (birth ▸ born)
  | _ => exact .inl born

def rulesOfStack (_ : Nat) (record : CallRecord) : Protocol SysCalls Progress :=
  stackRules record.stack record.kind record.block

theorem lasting_rulesOfStack : Lasting rulesOfStack where
  stays _ _ _ _ := rfl
  after _ _ := rfl

theorem startsTo_rulesOfStack {action : Action} : system.StartsTo rulesOfStack action where
  aspawn _ _ _ _ _ _ _ := conforms_aspawn stackRules_plain fun _ _ _ _ found same => by
    cases same
    exact admitsChild_stackRules
  aspawnRec _ _ _ _ _ _ _ := conforms_aspawnImpl stackRules_plain fun _ found same => by
    cases same
    exact admitsChild_stackRules

/-- A call in flight finds its `Stack_t` as it was at the time of the call. -/
theorem Considerate.answers_stack {choice : Choice} {request : SysRequest} {record : CallRecord}
    {response : request.Response} (considerate : system.Considerate)
    (handled : system.handle task call choice request = some (response, after))
    (running : ∃ more, system.control task = .inCall call (.call request more))
    (known : system.calls call = some record)
    (answered : (callProtocol record.kind record.block).answers record.progress request response) :
    (rulesOfStack call record).answers record.progress request response := by
  cases request with
  | loadStack block =>
      obtain ⟨more, running⟩ := running
      obtain ⟨_, runs⟩ := considerate.wellFormed.threaded.inCall _ _ _ running
      cases known.symm.trans runs.known
      have same : block = record.block := runs.conforms.1
      cases handled
      rw [same]
      exact considerate.calls.stack task call record ⟨⟨_, running⟩, known⟩
  | _ => exact answered

structure PointersPlaced (system : System) : Prop where
  keeps : system.KeepsTo rulesOfStack
  born : ∀ proc birth record, system.birth proc = some birth →
    system.calls birth.call = some record →
    birth.args.addr = argsAddr record.stack ∧ birth.stackPointer = argsAddr record.stack

namespace PointersPlaced

theorem of_initial (initial : system.Initial) : system.PointersPlaced where
  keeps := .of_initial initial
  born proc birth record born := by
    rw [initial.birth] at born
    cases born

theorem of_step {action : Action} (placed : system.PointersPlaced)
    (considerate : system.Considerate) (stepped : system.step action = some next) :
    next.PointersPlaced where
  keeps := placed.keeps.of_step lasting_rulesOfStack considerate.wellFormed startsTo_rulesOfStack
    (fun _ _ _ _ _ _ _ _ => considerate.answers_stack) stepped
  born proc birth record born known := by
    have wellFormed := considerate.wellFormed
    have change := wellFormed.change stepped
    have kept {found : CallRecord} (present : system.calls birth.call = some found) :
        found.stack = record.stack := by
      obtain ⟨progress, returned, later, _⟩ := change.record_kept wellFormed.numbered present
      cases later.symm.trans known
      rfl
    rcases born_cases wellFormed stepped born with
      before | ⟨task, request, found, more, running, present, made⟩
    · obtain ⟨found, _, of⟩ := wellFormed.lineage.born proc birth before
      rw [← kept of.known]
      exact placed.born proc birth found before of.known
    · have permitted := placed.keeps.permits running present
      rw [← kept present]
      rcases made with ⟨fn, flags, rfl⟩ | ⟨clArgs, fn, rfl, top⟩
      · exact ⟨permitted.2, permitted.1⟩
      · obtain ⟨stack, stackSize, arg⟩ := permitted
        rw [top, stack, stackSize]
        exact ⟨arg, rfl⟩

end PointersPlaced

end System

end Aspawn
