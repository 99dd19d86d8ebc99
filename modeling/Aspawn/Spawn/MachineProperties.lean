import Aspawn.Spawn.Machine
import Aspawn.Spawn.ProcessTreeRefinement

/-! The memory under a live child: its stack, its arguments and the caller's objects stay
mapped where they are, and no other child's stack overlaps them. -/

set_option autoImplicit false

namespace Aspawn

open Transition

namespace System

variable {system next : System} {task : TaskId} {call proc block : Nat} {record : CallRecord}
  {action : Action}

/-! ## Calls that are over -/

/-- A call that has returned does not change. -/
theorem returned_kept {result : Int} (wellFormed : system.WellFormed)
    (stepped : system.step action = some next) (known : system.calls call = some record)
    (returned : record.returned = some result) : next.calls call = some record := by
  have other {task : TaskId} {number : Nat} {rest : Program SysCalls Int} {found : CallRecord}
      (runs : system.Runs task number rest found) : call ≠ number := by
    rintro rfl
    cases known.symm.trans runs.known
    cases returned.symm.trans runs.unreturned
  cases wellFormed.change stepped with
  | call _ runs effect => exact (setCall_of_ne (other runs)).trans (effect.calls ▸ known)
  | starting _ _ effect => cases effect <;> exact known
  | started =>
      exact (Function.update_of_ne (wellFormed.numbered.call_lt known).ne ..).trans known
  | finish _ runs => exact (setCall_of_ne (other runs)).trans known
  | user _ performed =>
      obtain ⟨_, _, _, calls, _⟩ := userStep_frame performed
      rw [calls]
      exact known
  | enter | left | raise | deliver => exact known

/-- A process that is live after a step was live before it, or is new. -/
theorem live_before (wellFormed : system.WellFormed) (stepped : system.step action = some next)
    (live : next.phase proc = .live) (old : proc < system.nextProc) :
    system.phase proc = .live := by
  cases wellFormed.change stepped with
  | call _ _ effect =>
      cases effect with
      | cloned => exact (Function.update_of_ne old.ne ..).symm.trans live
      | _ => exact live
  | starting _ _ effect => cases effect <;> exact live
  | user _ performed =>
      obtain ⟨_, phase, _⟩ := userStep_frame performed
      exact phase ▸ live
  | @left _ gone _ _ _ _ leaves =>
      by_cases same : proc = gone
      · cases same
        have left := (Function.update_self ..).symm.trans live
        rcases leaves with ⟨rfl, _⟩ | ⟨rfl, _⟩ <;> cases left
      · exact (Function.update_of_ne same ..).symm.trans live
  | started | finish | enter | raise | deliver => exact live

theorem Over.kept (ended : system.Over call record) (wellFormed : system.WellFormed)
    (stepped : system.step action = some next) (known : system.calls call = some record) :
    next.calls call = some record ∧ next.Over call record := by
  obtain ⟨result, returned⟩ := Option.ne_none_iff_exists'.mp ended.1
  refine ⟨returned_kept wellFormed stepped known returned, ended.1, ?_⟩
  intro proc ⟨birth, born, of⟩ live
  rcases born_cases wellFormed stepped born with
    before | ⟨_, _, found, _, running, present, _⟩
  · have old := wellFormed.numbered.born_lt before
    exact ended.2 proc ⟨birth, before, of⟩ (live_before wellFormed stepped live old)
  · obtain ⟨_, runs⟩ := wellFormed.threaded.inCall _ _ _ running
    rw [of] at runs
    cases known.symm.trans runs.known
    cases returned.symm.trans runs.unreturned

theorem HupAwaited.over_of_idle (awaited : system.HupAwaited) (idle : system.Idle block)
    (known : system.calls call = some record) (same : record.block = block) :
    system.Over call record := by
  have lineage := awaited.considerate.wellFormed.lineage
  obtain ⟨result, returned, gone⟩ := idle call record known same
  refine ⟨by rw [returned]; exact Option.some_ne_none _, fun proc isChild live => ?_⟩
  rcases gone with failed | hup
  · have finished :=
      awaited.considerate.wellFormed.threaded.returned call record result known returned
    have child := (lineage.isChildOf_iff known).mp isChild
    cases (finished.failure failed).2.1.symm.trans child
  · obtain ⟨birth, born, of⟩ := isChild
    exact awaited.kept.not_hup lineage (.child born of) live hup

/-- Writing an idle `Stack_t` disturbs no call. -/
theorem waitsForHup_setStack {stack : StackT} (wellFormed : system.WellFormed)
    (idle : system.Idle block) : system.WaitsForHup (.user task (.setStack block stack)) := by
  refine ⟨fun stepping op same other call record inFlight => ?_, fun stepping op same => ?_,
    reusesAfterHup_of_not_starts rfl⟩
  · cases same
    refine ⟨?_, fun _ _ _ => rfl⟩
    simp only [UserOp.writesStack, decide_eq_false_iff_not]
    intro written
    obtain ⟨_, runs⟩ := inFlight.runs wellFormed.threaded
    obtain ⟨result, returned, _⟩ := idle call record inFlight.known written
    cases returned.symm.trans runs.unreturned
  · cases same
    exact fun _ _ _ => rfl

/-- Only user code that overwrites a `Stack_t` changes one. -/
theorem cachedStacks_kept (wellFormed : system.WellFormed)
    (stepped : system.step action = some next) (leaves : action.overwritesStack = false) :
    next.cachedStacks = system.cachedStacks := by
  cases wellFormed.change stepped with
  | call _ _ effect => exact effect.cachedStacks
  | starting _ _ effect => cases effect <;> rfl
  | @user _ op _ _ performed =>
      cases op with
      | «open» | dup =>
          simp only [userStep] at performed
          split at performed <;> cases performed
          rfl
      | setStack => cases leaves
      | _ =>
          cases performed
          rfl
  | started | finish | enter | left | raise | deliver => rfl

/-- A call that was not there before the step is started by it. -/
theorem started_of_new (wellFormed : system.WellFormed)
    (stepped : system.step action = some next) (absent : system.calls call = none)
    (known : next.calls call = some record) :
    ∃ kind, action.starts = some (kind, record.block) ∧
      record.stack = system.cachedStacks record.block := by
  have kept {number : Nat} {found later : CallRecord} {calls : Nat → Option CallRecord}
      (present : system.calls number = some found) (same : calls = system.calls)
      (known : Function.update calls number (some later) call = some record) : False := by
    have other : call ≠ number := by
      rintro rfl
      cases absent.symm.trans present
    rw [Function.update_of_ne other, same, absent] at known
    cases known
  cases wellFormed.change stepped with
  | call _ runs effect => exact (kept runs.known effect.calls known).elim
  | starting _ _ effect => cases effect <;> cases absent.symm.trans known
  | @started _ _ kind _ _ _ _ starts =>
      by_cases new : call = system.nextCall
      · cases new
        cases (Function.update_self ..).symm.trans known
        exact ⟨kind, starts, rfl⟩
      · cases absent.symm.trans ((Function.update_of_ne new ..).symm.trans known)
  | finish _ runs => exact (kept runs.known rfl known).elim
  | user _ performed =>
      obtain ⟨_, _, _, calls, _⟩ := userStep_frame performed
      rw [calls, absent] at known
      cases known
  | enter | left | raise | deliver => cases absent.symm.trans known

end System

/-- The child's stack ends where its arguments begin. -/
theorem Session.Mapped.argsAddr_toNat {session : Session}
    (mapped : session.Mapped STACK_GROWS_DOWN) :
    (argsAddr session.stack).toNat =
      (session.childStack STACK_GROWS_DOWN).1 + (session.childStack STACK_GROWS_DOWN).2 := by
  have room := mapped.free_part
  have inside := mapped.addr_add_size
  have inSpace := mapped.inAddressSpace
  have fits : sizeofAspawnChildArgs.toNat ≤ session.stack.size.toNat := by omega
  obtain ⟨size, down, _⟩ := Session.allocateObjOnStack_spec STACK_GROWS_DOWN fits (by omega)
  obtain ⟨addr, object⟩ := down rfl
  rw [argsAddr, Session.childStack, placeChildArgs, object, size, addr]

/-- `*args` is the first of the child's objects. -/
def Session.PlacesArgs (session : Session) (ptr : ArgsPtr) : Prop :=
  session.childObjects STACK_GROWS_DOWN =
    (ptr.addr.toNat, sizeofAspawnChildArgs.toNat) :: session.objects

/-- What `aspawn_impl` asks for fits the layout of its `Stack_t`. -/
def Session.Asks (session : Session) : SysRequest → Prop
  | .storeArgs ptr _ => session.PlacesArgs ptr
  | .clone _ top _ arg =>
      top.toNat = (session.childStack STACK_GROWS_DOWN).1 +
        (session.childStack STACK_GROWS_DOWN).2 ∧ session.PlacesArgs arg
  | .clone3 clArgs _ arg =>
      (clArgs.stack.toNat, clArgs.stackSize.toNat) = session.childStack STACK_GROWS_DOWN ∧
        session.PlacesArgs arg
  | _ => True

theorem Session.Mapped.asks {session : Session} {kind : CallKind} {block : Nat}
    {progress : Progress} {request : SysRequest} (mapped : session.Mapped STACK_GROWS_DOWN)
    (permitted : (stackRules session.stack kind block).permits progress request) :
    session.Asks request := by
  have places {ptr : ArgsPtr} (here : ptr.addr = argsAddr session.stack) :
      session.PlacesArgs ptr := by
    rw [PlacesArgs, here]
    rfl
  cases request with
  | storeArgs => exact places permitted
  | clone =>
      obtain ⟨top, arg⟩ := permitted
      refine ⟨?_, places arg⟩
      rw [top]
      exact mapped.argsAddr_toNat
  | clone3 =>
      obtain ⟨addr, size, arg⟩ := permitted
      refine ⟨?_, places arg⟩
      rw [addr, size]
      rfl
  | _ => trivial

namespace Machine

variable {machine next start : Machine}

/-! ## What a step does -/

inductive Stepped (machine : Machine) : MachineAction → Machine → Prop where
  | system {action system} :
      action.overwritesStack = false → machine.system.step action = some system →
      Stepped machine (.system action) { machine with system }
  | elsewhere {task op space} :
      machine.space.step STACK_GROWS_DOWN op = some space → op.block = none →
      Stepped machine (.memory task op) { machine with space }
  | stack {task op block system space} :
      machine.space.step STACK_GROWS_DOWN op = some space → op.block = some block →
      machine.system.step (.user task (.setStack block (space.accounts block).stack)) =
        some system →
      Stepped machine (.memory task op) { system, space }

theorem stepped_of_step {action : MachineAction} (stepped : machine.step action = some next) :
    machine.Stepped action next := by
  cases action with
  | system action =>
      simp only [step] at stepped
      split at stepped
      · cases stepped
      · rename_i leaves
        split at stepped <;> cases stepped
        exact .system (by simpa using leaves) ‹_›
  | memory task op =>
      simp only [step] at stepped
      split at stepped
      · cases stepped
      · rename_i worked elsewhere
        split at stepped <;> cases stepped
        exact .elsewhere worked elsewhere
      · rename_i worked ofBlock
        split at stepped <;> cases stepped
        exact .stack worked ofBlock ‹_›

/-! ## Runs -/

/-- The invariants of careful runs. -/
structure Sound (machine : Machine) : Prop where
  awaited : machine.system.HupAwaited
  pointers : machine.system.PointersPlaced
  traced : machine.space.Traced STACK_GROWS_DOWN
  coherent : ∀ block,
    machine.system.cachedStacks block = (machine.space.accounts block).stack
  held : ∀ call record, machine.system.calls call = some record →
    ¬ machine.system.Over call record → machine.space.Reserved record.block ∧
      (machine.space.accounts record.block).stack = record.stack

namespace Sound

theorem of_initial (initial : machine.Initial) : machine.Sound where
  awaited := .of_initial initial.system
  pointers := .of_initial initial.system
  traced := by
    have fresh : machine.space = .start machine.space.table := by
      rw [AddressSpace.start, ← funext initial.accounts]
    rw [fresh]
    exact .of_start initial.noPages
  coherent block := by
    rw [initial.cachedStacks, initial.accounts]
    rfl
  held call record known := by
    rw [initial.system.calls] at known
    cases known

theorem systemStep {action : System.Action} {system : System} (sound : machine.Sound)
    (careful : machine.Careful (.system action)) (leaves : action.overwritesStack = false)
    (stepped : machine.system.step action = some system) :
    ({ machine with system } : Machine).Sound where
  awaited := sound.awaited.of_step careful.1 stepped
  pointers := sound.pointers.of_step sound.awaited.considerate stepped
  traced := sound.traced
  coherent block := by
    rw [← sound.coherent block]
    exact congrFun
      (System.cachedStacks_kept sound.awaited.considerate.wellFormed stepped leaves) block
  held call record known notOver := by
    have wellFormed := sound.awaited.considerate.wellFormed
    cases before : machine.system.calls call with
    | none =>
        obtain ⟨kind, starts, stack⟩ :=
          System.started_of_new wellFormed stepped before known
        exact ⟨careful.2 kind record.block starts, (stack.trans (sound.coherent _)).symm⟩
    | some found =>
        obtain ⟨progress, returned, later, _⟩ :=
          (wellFormed.change stepped).record_kept wellFormed.numbered before
        cases later.symm.trans known
        refine sound.held call found before fun ended => notOver ?_
        obtain ⟨kept, stillOver⟩ := ended.kept wellFormed stepped before
        have same := Option.some.inj (kept.symm.trans known)
        exact same ▸ stillOver

theorem stackStep {task : TaskId} {op : SpaceOp} {block : Nat} {system : System}
    {space : AddressSpace} (sound : machine.Sound)
    (careful : machine.Careful (.memory task op))
    (worked : machine.space.step STACK_GROWS_DOWN op = some space)
    (ofBlock : op.block = some block)
    (stepped : machine.system.step (.user task (.setStack block (space.accounts block).stack)) =
      some system) : ({ system, space } : Machine).Sound := by
  have wellFormed := sound.awaited.considerate.wellFormed
  have idle := careful.2 block ofBlock
  have waits : machine.system.WaitsForHup (.user task (.setStack block
      (space.accounts block).stack)) := System.waitsForHup_setStack wellFormed idle
  have written : { machine.system with
      cachedStacks := Function.update machine.system.cachedStacks block
        (space.accounts block).stack } = system := by
    simp only [System.step] at stepped
    split at stepped
    · exact Option.some.inj stepped
    · cases stepped
  refine ⟨sound.awaited.of_step waits stepped,
    sound.pointers.of_step sound.awaited.considerate stepped,
    sound.traced.of_step careful.1 worked, fun number => ?_, fun call record known notOver => ?_⟩
  · rw [← written]
    by_cases same : number = block
    · cases same
      exact Function.update_self ..
    · have kept := AddressSpace.accounts_kept worked number
        (by rw [ofBlock]; exact fun other => same (Option.some.inj other).symm)
      rw [kept, ← sound.coherent]
      exact Function.update_of_ne same ..
  · rw [← written] at known notOver
    have other : record.block ≠ block := fun same =>
      notOver (sound.awaited.over_of_idle idle known same)
    have kept := AddressSpace.accounts_kept worked record.block
      (by rw [ofBlock]; exact fun same => other (Option.some.inj same).symm)
    rw [AddressSpace.Reserved, kept]
    exact sound.held call record known notOver

theorem of_step {action : MachineAction} (sound : machine.Sound)
    (careful : machine.Careful action) (stepped : machine.step action = some next) :
    next.Sound := by
  cases stepped_of_step stepped with
  | system leaves performed => exact sound.systemStep careful leaves performed
  | elsewhere worked ofNone =>
      have kept (number : Nat) := AddressSpace.accounts_kept worked number
        (by rw [ofNone]; exact (Option.some_ne_none number).symm)
      refine ⟨sound.awaited, sound.pointers, sound.traced.of_step careful.1 worked,
        fun number => ?_, fun call record known notOver => ?_⟩
      · rw [kept]
        exact sound.coherent number
      · rw [AddressSpace.Reserved, kept]
        exact sound.held call record known notOver
  | stack worked ofBlock written => exact sound.stackStep careful worked ofBlock written

end Sound

theorem sound_of_reaches (initial : start.Initial)
    (reached : Reaches step Careful start machine) : machine.Sound :=
  reached.invariant _ (.of_initial initial) .of_step

/-- Between memory operations that need no thread of the system, a machine goes through a
run of the system. -/
theorem system_of_reaches (initial : start.Initial)
    (reached : Reaches step Careful start machine) :
    Reaches System.step System.WaitsForHup start.system machine.system := by
  refine (reached.simulates Machine.system Sound (.of_initial initial) .of_step ?_).1
  intro machine next action sound careful stepped
  cases stepped_of_step stepped with
  | system _ performed => exact .tail .refl careful.1 performed
  | elsewhere => exact .refl
  | stack _ ofBlock written =>
      exact .tail .refl (System.waitsForHup_setStack sound.awaited.considerate.wellFormed
        (careful.2 _ ofBlock)) written

/-- To an observer of calls and processes, a machine goes through a run of the process tree. -/
theorem processTree_of_reaches (initial : start.Initial)
    (reached : Reaches step Careful start machine) :
    ∃ actions tree, run System.step start.system actions = some machine.system ∧
      run ProcessTree.step .start (trace System.step System.observe start.system actions) =
        some tree ∧
      machine.system.Represents tree := by
  obtain ⟨actions, permitted, performed⟩ := (system_of_reaches initial reached).exists_run
  obtain ⟨tree, seen, follows⟩ := System.follows_of_run initial.system permitted performed
  exact ⟨actions, tree, performed, seen, follows.represents⟩

/-! ## The memory of a child -/

/-- What a live child has: the `Stack_t` of its call is as the call found it, the child
started at the end of the free part of its mapping, below its own arguments and the
caller's objects, and all of this is mapped. -/
structure ChildKept (machine : Machine) (birth : Birth) : Prop where
  layout : (machine.space.view birth.args.block).Layout STACK_GROWS_DOWN
    (machine.space.mapping STACK_GROWS_DOWN birth.args.block)
  args : (machine.space.view birth.args.block).childObjects STACK_GROWS_DOWN =
    (birth.args.addr.toNat, sizeofAspawnChildArgs.toNat) ::
      (machine.space.accounts birth.args.block).objects
  stackPointer : birth.stackPointer.toNat =
    ((machine.space.view birth.args.block).childStack STACK_GROWS_DOWN).1 +
      ((machine.space.view birth.args.block).childStack STACK_GROWS_DOWN).2
  call : ∃ record, machine.system.calls birth.call = some record ∧
    record.block = birth.args.block ∧
    record.stack = (machine.space.accounts birth.args.block).stack ∧
    record.progress.args = some (machine.system.args birth.args.block)

theorem Sound.childKept {proc : Nat} {birth : Birth} (sound : machine.Sound)
    (live : machine.system.phase proc = .live)
    (born : machine.system.birth proc = some birth) :
    machine.space.Reserved birth.args.block ∧ machine.ChildKept birth := by
  have lineage := sound.awaited.considerate.wellFormed.lineage
  obtain ⟨record, args, of⟩ := lineage.born proc birth born
  have notOver : ¬ machine.system.Over birth.call record := fun ended =>
    ended.2 proc ⟨birth, born, rfl⟩ live
  obtain ⟨reserved, stack⟩ := sound.held birth.call record of.known notOver
  have pointers := sound.pointers.born proc birth record born of.known
  rw [← stack, ← of.block] at pointers
  rw [← of.block] at reserved stack
  have mapped := sound.traced.mapped reserved
  refine ⟨reserved, mapped.layout, ?_, ?_, record, of.known, of.block.symm, stack.symm, ?_⟩
  · rw [pointers.1]
    rfl
  · rw [pointers.2]
    exact mapped.argsAddr_toNat
  · rw [of.block, sound.awaited.exclusive.intact birth.call record args of.known of.placed
      notOver, of.placed]

/-- A call in flight asks for what the layout of its `Stack_t` says. -/
theorem Sound.asks {task : TaskId} {call : Nat} {record : CallRecord} {request : SysRequest}
    {more : request.Response → Program SysCalls Int} (sound : machine.Sound)
    (running : machine.system.control task = .inCall call (.call request more))
    (known : machine.system.calls call = some record) :
    (machine.space.view record.block).Asks request := by
  obtain ⟨_, runs⟩ := sound.awaited.considerate.wellFormed.threaded.inCall _ _ _ running
  cases known.symm.trans runs.known
  obtain ⟨reserved, stack⟩ := sound.held call record known fun ended => ended.1 runs.unreturned
  have permitted := sound.pointers.keeps.permits running known
  rw [System.rulesOfStack, ← stack] at permitted
  exact (sound.traced.mapped reserved).asks permitted

theorem Sound.birth_kept {action : MachineAction} {proc : Nat} {birth : Birth}
    (sound : machine.Sound) (stepped : machine.step action = some next)
    (born : machine.system.birth proc = some birth) : next.system.birth proc = some birth := by
  have wellFormed := sound.awaited.considerate.wellFormed
  cases stepped_of_step stepped with
  | system _ performed =>
      exact (wellFormed.change performed).birth_kept wellFormed.numbered born
  | elsewhere => exact born
  | stack _ _ written => exact (wellFormed.change written).birth_kept wellFormed.numbered born

/-- Nobody works on the `Stack_t` of a live child. -/
theorem Sound.account_kept {action : MachineAction} {proc : Nat} {birth : Birth}
    (sound : machine.Sound) (careful : machine.Careful action)
    (stepped : machine.step action = some next)
    (born : machine.system.birth proc = some birth) (live : next.system.phase proc = .live) :
    machine.system.phase proc = .live ∧
      next.space.accounts birth.args.block = machine.space.accounts birth.args.block := by
  have wellFormed := sound.awaited.considerate.wellFormed
  have old := wellFormed.numbered.born_lt born
  cases stepped_of_step stepped with
  | system _ performed => exact ⟨System.live_before wellFormed performed live old, rfl⟩
  | elsewhere worked ofNone =>
      exact ⟨live, AddressSpace.accounts_kept worked _
        (by rw [ofNone]; exact (Option.some_ne_none _).symm)⟩
  | @stack _ _ block _ _ worked ofBlock written =>
      have liveBefore := System.live_before wellFormed written live old
      refine ⟨liveBefore, AddressSpace.accounts_kept worked _ ?_⟩
      rw [ofBlock]
      intro same
      obtain ⟨record, _, of⟩ := wellFormed.lineage.born proc birth born
      have ended := sound.awaited.over_of_idle (careful.2 block ofBlock) of.known
        (of.block.symm.trans (Option.some.inj same).symm)
      exact ended.2 proc ⟨birth, born, rfl⟩ liveBefore

theorem Sound.account_kept_of_reaches {later : Machine} {proc : Nat} {birth : Birth}
    (sound : machine.Sound) (reached : Reaches step Careful machine later)
    (born : machine.system.birth proc = some birth) (live : later.system.phase proc = .live) :
    later.space.accounts birth.args.block = machine.space.accounts birth.args.block := by
  induction reached with
  | refl => rfl
  | tail reached careful stepped ih =>
      obtain ⟨middle, bornThere⟩ := reached.invariant
        (fun state => state.Sound ∧ state.system.birth proc = some birth) ⟨sound, born⟩
        fun both careful stepped =>
          ⟨both.1.of_step careful stepped, both.1.birth_kept stepped both.2⟩
      obtain ⟨liveThere, kept⟩ := middle.account_kept careful stepped bornThere live
      exact kept.trans (ih liveThere)

/-- In every careful run a live child has its stack, its arguments and the caller's objects
where its call put them; they lie apart from those of every other live child, and stay so
for as long as the child lives. -/
theorem children_keep_memory (initial : start.Initial)
    (reached : Reaches step Careful start machine) :
    (∀ proc birth, machine.system.phase proc = .live →
      machine.system.birth proc = some birth → machine.ChildKept birth) ∧
    (∀ first second one other, first ≠ second → machine.system.phase first = .live →
      machine.system.phase second = .live → machine.system.birth first = some one →
      machine.system.birth second = some other →
      Disjoint (Session.bytes (machine.space.mapping STACK_GROWS_DOWN one.args.block))
        (Session.bytes (machine.space.mapping STACK_GROWS_DOWN other.args.block))) ∧
    ∀ later proc birth, Reaches step Careful machine later →
      machine.system.birth proc = some birth → later.system.phase proc = .live →
      later.space.accounts birth.args.block = machine.space.accounts birth.args.block := by
  have sound := sound_of_reaches initial reached
  have safe := sound.awaited.exclusive.stacksSafe sound.awaited.considerate.wellFormed.lineage
  refine ⟨fun proc birth live born => (sound.childKept live born).2, ?_, ?_⟩
  · intro first second one other distinct live live' born born'
    refine sound.traced.mappings_disjoint (fun same => distinct ?_)
      (sound.childKept live born).1 (sound.childKept live' born').1
    exact safe.unshared first second one other live live' born born' same
  · intro later proc birth further born live
    exact sound.account_kept_of_reaches further born live

theorem careful_codes {task : TaskId} {choices : List System.Choice} :
    Along step Careful machine ((System.Action.codes task choices).map .system) := by
  refine .of_forall fun action member state => ?_
  obtain ⟨code, ofCodes, rfl⟩ := List.mem_map.mp member
  obtain ⟨choice, _, rfl⟩ := List.mem_map.mp ofCodes
  refine ⟨System.waitsForHup_of_code rfl (System.reusesAfterHup_of_not_starts rfl), ?_⟩
  intro kind block starts
  cases starts

/-- A memory operation that is allowed. -/
def WorksOn (machine : Machine) : MachineAction → Prop
  | .memory _ op => machine.space.Allowed op
  | .system _ => False

instance (machine : Machine) : (action : MachineAction) → Decidable (machine.WorksOn action)
  | .memory _ op => inferInstanceAs (Decidable (machine.space.Allowed op))
  | .system _ => inferInstanceAs (Decidable False)

def Uncalled (machine : Machine) : Prop := ∀ call, machine.system.calls call = none

/-- Before the first call every `Stack_t` may be worked on. -/
theorem reaches_of_worksOn {actions : List MachineAction} (uncalled : start.Uncalled)
    (allowed : Along step WorksOn start actions) (performed : run step start actions = some machine) :
    Reaches step Careful start machine ∧ machine.Uncalled := by
  refine (Reaches.of_run performed allowed).strengthen Uncalled uncalled ?_ ?_
  · intro machine next action uncalled worksOn stepped
    cases stepped_of_step stepped with
    | system => cases worksOn
    | elsewhere => exact uncalled
    | stack _ _ written =>
        simp only [System.step] at written
        split at written
        · cases written
          exact uncalled
        · cases written
  · intro machine action uncalled worksOn
    cases action with
    | system => cases worksOn
    | memory task op =>
        refine ⟨worksOn, fun block _ call record known => ?_⟩
        rw [uncalled] at known
        cases known

/-- Two stacks, the first with an object of 24 bytes. -/
def twoStacks : List MachineAction :=
  [.memory (mainTask 0) (.reserveStack 0 0 24 65536),
    .memory (mainTask 0) (.allocateObjOnStack 0 24),
    .memory (mainTask 0) (.reserveStack 1 4096 0 131072)]

/-- A call of a thread of the root, up to the birth of the child. -/
def calling (thread block read write : Nat) : List MachineAction :=
  .system (.aspawn { proc := 0, thread } block 100 200 0 0) ::
    (System.Action.codes { proc := 0, thread }
      [.ok, .ok, .fds read write, .ok, .ok, .ok, .ok]).map .system

theorem reaches_calling {thread block read write : Nat} (reserved : start.space.Reserved block)
    (unused : ∀ call record, start.system.calls call = some record → record.block ≠ block)
    (performed : run step start (calling thread block read write) = some machine) :
    Reaches step Careful start machine := by
  refine .of_run performed (.cons ⟨System.waitsForHup_of_code rfl ?_, ?_⟩ fun _ => careful_codes)
  · intro kind other starts call record known same
    cases starts
    exact absurd same (unused call record known)
  · intro kind other starts
    cases starts
    exact reserved

theorem children_keep_memory_two :
    ∃ machine one other, Reaches step Careful (boot .default) machine ∧
      machine.system.birth 1 = some one ∧ machine.system.birth 2 = some other ∧
      machine.ChildKept one ∧ machine.ChildKept other ∧
      Disjoint (Session.bytes (machine.space.mapping STACK_GROWS_DOWN one.args.block))
        (Session.bytes (machine.space.mapping STACK_GROWS_DOWN other.args.block)) := by
  have completes : ((run step (boot .default) twoStacks).bind fun reserved =>
      (run step reserved (calling 0 0 3 4)).bind fun called =>
        (run step called (calling 1 1 5 6)).map fun machine =>
          (((reserved.space.accounts 0).stack.addr, (called.space.accounts 1).stack.addr,
            called.system.nextCall, (called.system.calls 0).map CallRecord.block),
          (machine.system.phase 1, machine.system.phase 2,
            (machine.system.birth 1).isSome, (machine.system.birth 2).isSome))) =
      some ((65536, 131072, 1, some 0), (.live, .live, true, true)) := by
    decide +kernel
  obtain ⟨reserved, worked, later⟩ := Option.bind_eq_some_iff.mp completes
  obtain ⟨called, calls, last⟩ := Option.bind_eq_some_iff.mp later
  obtain ⟨machine, callsAgain, values⟩ := Option.map_eq_some_iff.mp last
  simp only [Prod.mk.injEq, Option.isSome_iff_exists] at values
  obtain ⟨⟨first, second, nextCall, block⟩, live, live', ⟨one, born⟩, ⟨other, born'⟩⟩ := values
  obtain ⟨prepared, uncalled⟩ := reaches_of_worksOn (fun _ => rfl) (by decide +kernel) worked
  have single : Reaches step Careful (boot .default) called := by
    refine prepared.trans (reaches_calling ?_ ?_ calls)
    · rw [AddressSpace.Reserved, first]
      decide
    · intro call record known
      rw [uncalled] at known
      cases known
  have both : Reaches step Careful (boot .default) machine := by
    refine single.trans (reaches_calling ?_ ?_ callsAgain)
    · rw [AddressSpace.Reserved, second]
      decide
    · intro call record known same
      have numbered :=
        (sound_of_reaches boot_initial single).awaited.considerate.wellFormed.numbered
      have bound := numbered.call_lt known
      obtain rfl : call = 0 := by omega
      rw [known] at block
      exact absurd ((Option.some.inj block).symm.trans same) (by decide)
  obtain ⟨kept, apart, _⟩ := children_keep_memory boot_initial both
  exact ⟨machine, one, other, both, born, born', kept 1 one live born, kept 2 other live' born',
    apart 1 2 one other (by decide) live live' born born'⟩

end Machine

end Aspawn
