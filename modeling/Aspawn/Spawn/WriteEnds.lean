import Aspawn.Spawn.HupProperties

/-! The write ends given to a child or inherited by it stay open in it until it is done, as
long as it does not close them itself and starts with its own arguments. -/

set_option autoImplicit false

namespace Aspawn

open Transition

namespace System

variable {system next after start : System} {task : TaskId} {call proc fd : Nat}
  {args : ChildArgs}

/-! ## The pipes of a process -/

/-- The process is the child of the call or comes from it by `aspawn_rec`. -/
inductive DescendsFrom (system : System) (call : Nat) : Nat → Prop where
  | child {proc birth} :
      system.birth proc = some birth → birth.call = call → DescendsFrom system call proc
  | nested {proc birth record} :
      system.birth proc = some birth → system.calls birth.call = some record →
      DescendsFrom system call record.caller.proc → DescendsFrom system call proc

/-- What the call that cloned the process had placed for it. -/
def Given (system : System) (proc : Nat) (args : ChildArgs) : Prop :=
  ∃ birth record, system.birth proc = some birth ∧ system.BornOf proc birth record args

theorem Given.unique {other : ChildArgs} (given : system.Given proc args)
    (also : system.Given proc other) : args = other := by
  obtain ⟨birth, record, born, of⟩ := given
  obtain ⟨_, _, born', of'⟩ := also
  cases born.symm.trans born'
  cases of.known.symm.trans of'.known
  exact Option.some.inj (of.placed.symm.trans of'.placed)

theorem Lineage.given {birth : Birth} (lineage : system.Lineage)
    (born : system.birth proc = some birth) : ∃ args, system.Given proc args := by
  obtain ⟨record, args, of⟩ := lineage.born proc birth born
  exact ⟨args, birth, record, born, of⟩

theorem inheritedOf_eq {birth : Birth} (born : system.birth proc = some birth) :
    system.inheritedOf proc = birth.inherited := by
  rw [inheritedOf, born]

theorem Lineage.inherited_of_descendsFrom (lineage : system.Lineage)
    (descends : system.DescendsFrom call proc) :
    ∃ fd, (call, fd) ∈ system.inheritedOf proc := by
  induction descends with
  | child born of =>
      obtain ⟨record, args, bornOf⟩ := lineage.born _ _ born
      rw [inheritedOf_eq born, bornOf.inherited, of]
      exact ⟨_, List.mem_cons_self⟩
  | nested born known _ ih =>
      obtain ⟨record, args, bornOf⟩ := lineage.born _ _ born
      cases known.symm.trans bornOf.known
      obtain ⟨fd, inherited⟩ := ih
      rw [inheritedOf_eq born, bornOf.inherited]
      exact ⟨fd, List.mem_cons_of_mem _ inherited⟩

/-- The calls whose write ends a process inherits were made by its ancestors. -/
theorem Lineage.inherited_older (lineage : system.Lineage)
    (inherited : (call, fd) ∈ system.inheritedOf proc) :
    ∃ record, system.calls call = some record ∧ record.caller.proc < proc := by
  induction proc using Nat.strong_induction_on with
  | _ proc ih =>
      cases born : system.birth proc with
      | none =>
          rw [inheritedOf, born] at inherited
          cases inherited
      | some birth =>
          obtain ⟨record, args, of⟩ := lineage.born proc birth born
          rw [inheritedOf_eq born, of.inherited] at inherited
          rcases List.mem_cons.mp inherited with own | older
          · cases own
            exact ⟨record, of.known, of.older⟩
          · obtain ⟨found, known, earlier⟩ := ih _ of.older older
            exact ⟨found, known, earlier.trans of.older⟩

theorem Change.birth_kept {action : Action} {birth : Birth}
    (change : system.Change action next) (numbered : system.Numbered)
    (born : system.birth proc = some birth) : next.birth proc = some birth := by
  cases change with
  | call running runs effect =>
      cases effect with
      | cloned => exact (Function.update_of_ne (numbered.born_lt born).ne ..).trans born
      | _ => exact born
  | starting running _ effect => cases effect <;> exact born
  | user _ stepped =>
      obtain ⟨_, _, birth, _⟩ := userStep_frame stepped
      exact birth ▸ born
  | _ => exact born

theorem Change.given_kept {action : Action} (change : system.Change action next)
    (numbered : system.Numbered) (lineage : next.Lineage) (given : system.Given proc args) :
    next.Given proc args := by
  obtain ⟨birth, record, born, of⟩ := given
  have born := change.birth_kept numbered born
  obtain ⟨progress, returned, later, settled⟩ := change.record_kept numbered of.known
  obtain ⟨found, args', of'⟩ := lineage.born proc birth born
  cases later.symm.trans of'.known
  obtain ⟨_, same, _⟩ := settled _ _ of.child of.pipe
  cases (same.trans of.placed).symm.trans of'.placed
  exact ⟨birth, _, born, of'⟩

/-! ## Loaded arguments -/

/-- A starting child that reads its arguments finds those of the call that cloned it. -/
def ReadsOwnArgs (system : System) (action : Action) : Prop :=
  ∀ proc choice, action = .code (mainTask proc) choice → ∀ progress ptr next,
    system.control (mainTask proc) = .starting progress (.call (.loadArgs ptr) next) →
    system.Given proc (system.args ptr.block)

/-- The arguments that a child has loaded are those that its call placed. -/
def LoadedOwn (system : System) : Prop :=
  ∀ proc progress rest args, system.control (mainTask proc) = .starting progress rest →
    progress.loaded = some args → system.Given proc args

/-- What a starting child has loaded it had loaded before, or it loads it in this step. -/
theorem Change.loaded {action : Action} {progress : ChildProgress}
    {rest : Program SysCalls ChildStart} (change : system.Change action next)
    (running : next.control (mainTask proc) = .starting progress rest)
    (loaded : progress.loaded = some args) :
    (∃ before rest', system.control (mainTask proc) = .starting before rest' ∧
      before.loaded = some args) ∨
    ∃ choice before ptr later, action = .code (mainTask proc) choice ∧
      system.control (mainTask proc) = .starting before (.call (.loadArgs ptr) later) ∧
      args = system.args ptr.block := by
  cases change with
  | call _ _ effect =>
      have started := control_of_update (fun same => Control.noConfusion same) running
      rcases effect.starting started with before | fresh
      · exact .inl ⟨_, _, before, loaded⟩
      · cases fresh.symm.trans loaded
  | @starting other _ _ _ _ _ _ _ _ running' _ effect =>
      by_cases same : mainTask proc = mainTask other
      · cases congrArg TaskId.proc same
        cases setControl_self.symm.trans running
        cases effect with
        | loaded =>
            cases loaded
            exact .inr ⟨_, _, _, _, rfl, running', rfl⟩
        | closed | cleared => exact .inl ⟨_, _, running', loaded⟩
      · have before := (setControl_of_ne same).symm.trans running
        cases effect <;> exact .inl ⟨_, _, before, loaded⟩
  | started | finish | enter | left =>
      have before := control_of_update (fun same => Control.noConfusion same) running
      exact .inl ⟨_, _, before, loaded⟩
  | user _ stepped =>
      rw [(userStep_frame stepped).1] at running
      exact .inl ⟨_, _, running, loaded⟩
  | raise | deliver => exact .inl ⟨_, _, running, loaded⟩

theorem LoadedOwn.of_change {action : Action} (loadedOwn : system.LoadedOwn)
    (own : system.ReadsOwnArgs action) (change : system.Change action next)
    (given : ∀ proc args, system.Given proc args → next.Given proc args) : next.LoadedOwn := by
  intro proc progress rest args running loaded
  rcases change.loaded running loaded with
    ⟨before, rest', running, loaded⟩ | ⟨choice, before, ptr, later, rfl, running, rfl⟩
  · exact given proc args (loadedOwn proc before rest' args running loaded)
  · exact given proc _ (own proc choice rfl before ptr later running)

/-! ## Kept write ends -/

/-- The operation closes or replaces the descriptor. -/
def UserOp.closes : UserOp → Nat → Bool
  | .close fd, other => other = fd
  | .dup _ new _, other => other = new
  | _, _ => false

/-- No `aspawn_fn` closes a write end that it was given or that its process inherited. -/
def KeepsWriteEnds (system : System) (action : Action) : Prop :=
  ∀ task op, action = .user task op → ∀ call fd, (call, fd) ∈ system.inheritedOf task.proc →
    op.closes fd = false

structure WriteEndsKept (system : System) : Prop where
  apart : ∀ proc args, system.Given proc args →
    ∀ call fd, (call, fd) ∈ system.inheritedOf proc → fd ≠ args.pipefd.1
  loaded : ∀ proc progress rest args, system.control (mainTask proc) = .starting progress rest →
    progress.loaded = some args → system.Given proc args
  held : ∀ proc, system.phase proc = .live → ∀ call fd, (call, fd) ∈ system.inheritedOf proc →
    ∃ pipe entry, system.pipeOf call = some pipe ∧ system.fds proc fd = some entry ∧
      entry.file = .writeEnd pipe

namespace WriteEndsKept

theorem of_initial (initial : system.Initial) : system.WriteEndsKept where
  apart proc args given := by
    obtain ⟨birth, _, born, _⟩ := given
    rw [initial.birth] at born
    cases born
  loaded proc progress rest args running := by
    rw [initial.threads] at running
    split at running <;> cases running
  held proc live call fd inherited := by
    rw [inheritedOf, initial.birth] at inherited
    cases inherited

theorem apart_kept {birth : Birth} (kept : system.WriteEndsKept) (lineage : system.Lineage)
    (given : ∀ proc args, system.Given proc args → after.Given proc args)
    (born : system.birth proc = some birth)
    (same : after.inheritedOf proc = system.inheritedOf proc) (has : after.Given proc args)
    (inherited : (call, fd) ∈ after.inheritedOf proc) : fd ≠ args.pipefd.1 := by
  obtain ⟨before, had⟩ := lineage.given born
  cases (given proc before had).unique has
  exact kept.apart proc args had call fd (same ▸ inherited)

theorem frame (kept : system.WriteEndsKept) (lineage : system.Lineage)
    (birth : after.birth = system.birth)
    (given : ∀ proc args, system.Given proc args → after.Given proc args)
    (loaded : after.LoadedOwn)
    (phase : ∀ proc, after.phase proc = .live → system.phase proc = .live)
    (held : ∀ proc call fd pipe entry, after.phase proc = .live →
      (call, fd) ∈ system.inheritedOf proc → system.pipeOf call = some pipe →
      system.fds proc fd = some entry → entry.file = .writeEnd pipe →
      after.pipeOf call = some pipe ∧ after.fds proc fd = some entry) :
    after.WriteEndsKept := by
  have same (proc : Nat) : after.inheritedOf proc = system.inheritedOf proc := by
    rw [inheritedOf, inheritedOf, birth]
  refine ⟨fun proc args has call fd => ?_, loaded, fun proc live call fd inherited => ?_⟩
  · obtain ⟨found, _, born, _⟩ := id has
    exact kept.apart_kept lineage given (birth ▸ born) (same proc) has
  · rw [same] at inherited
    obtain ⟨pipe, entry, made, placed, isWrite⟩ :=
      kept.held proc (phase proc live) call fd inherited
    obtain ⟨made, placed⟩ := held proc call fd pipe entry live inherited made placed isWrite
    exact ⟨pipe, entry, made, placed, isWrite⟩

/-- What the open ends of a call are in the table of its process. -/
theorem ends_of_mayClone {record : CallRecord} (calls : system.CallsOwn)
    (inFlight : system.InFlight task call record)
    (mayClone : record.progress.MayClone record.kind)
    (pipefd : record.progress.pipefd = some args.pipefd) :
    args.pipefd.1 ≠ args.pipefd.2 ∧ ∃ pipe, system.pipeOf call = some pipe ∧
      system.fds task.proc args.pipefd.1 = some { file := .readEnd pipe, cloexec := true } ∧
      system.fds task.proc args.pipefd.2 = some { file := .writeEnd pipe, cloexec := true } := by
  have owns := calls.owns task call record inFlight
  obtain ⟨distinct, pipe, made⟩ := owns.opened _ pipefd
  refine ⟨distinct, pipe, made, ?_, ?_⟩
  · refine ((owns.table pipe made _ _).mpr ?_).1
    simp [Progress.ends, pipefd, mayClone.readOpen]
  · refine ((owns.table pipe made _ _).mpr ?_).1
    simp [Progress.ends, pipefd, mayClone.writeOpen, distinct.symm]

theorem spawn {rest remaining : Program SysCalls Int} {record : CallRecord}
    {clone3Result cloneResult : Option Int} {entry : ChildEntry} {ptr : ArgsPtr}
    {stackPointer exitSignal : UInt64} {clearSighand : Bool} (kept : system.WriteEndsKept)
    (considerate : system.Considerate)
    (running : system.control task = .inCall call rest)
    (runs : system.Runs task call rest record)
    (mayClone : record.progress.MayClone record.kind)
    (advanced : next =
      ((system.spawn task call entry ptr stackPointer exitSignal clearSighand).setCall call
        { record with progress := { record.progress with
            clone3Result, cloneResult, child := some (system.nextProc : Int) } }).setControl
        task (.inCall call remaining))
    (given : ∀ proc args, system.Given proc args → next.Given proc args)
    (loaded : next.LoadedOwn) : next.WriteEndsKept := by
  subst advanced
  obtain ⟨⟨numbered, threaded, lineage⟩, calls⟩ := considerate
  have inFlight : system.InFlight task call record := ⟨⟨rest, running⟩, runs.known⟩
  have live := inFlight.live threaded
  obtain ⟨placed, isPlaced⟩ := Option.isSome_iff_exists.mp mayClone.placed
  have pipefd : record.progress.pipefd = some placed.pipefd := by
    rw [mayClone.pipe, isPlaced]
    rfl
  obtain ⟨distinct, pipe, made, reads, writes⟩ :=
    ends_of_mayClone calls inFlight mayClone pipefd
  have inheritedNew : (system.spawn task call entry ptr stackPointer exitSignal
      clearSighand).inheritedOf system.nextProc =
        (call, placed.pipefd.2) :: system.inheritedOf task.proc := by
    simp only [inheritedOf, System.spawn, Function.update_self, givenWriteEnd, runs.known,
      pipefd, List.singleton_append]
  have inheritedOld (proc : Nat) (old : proc ≠ system.nextProc) :
      (system.spawn task call entry ptr stackPointer exitSignal clearSighand).inheritedOf proc =
        system.inheritedOf proc := by
    simp only [inheritedOf, System.spawn, Function.update_of_ne old]
  refine ⟨fun proc args has number fd inherited => ?_, loaded,
    fun proc alive number fd inherited => ?_⟩
  · by_cases new : proc = system.nextProc
    · cases new
      -- the new process has the arguments that the call placed
      obtain ⟨birth, found, born, of⟩ := has
      have fresh : (system.spawn task call entry ptr stackPointer exitSignal
          clearSighand).birth system.nextProc = some birth := born
      cases (Function.update_self ..).symm.trans fresh
      cases setCall_self.symm.trans of.known
      cases isPlaced.symm.trans of.placed
      rcases List.mem_cons.mp (inheritedNew ▸ inherited) with own | older
      · cases own
        exact distinct.symm
      · rintro rfl
        obtain ⟨_, _, _, isOpen, isWrite⟩ := kept.held task.proc live number _ older
        cases reads.symm.trans isOpen
        cases isWrite
    · have born : ∃ birth, system.birth proc = some birth := by
        obtain ⟨birth, _, born, _⟩ := has
        exact ⟨birth, (Function.update_of_ne new ..).symm.trans born⟩
      obtain ⟨birth, born⟩ := born
      exact kept.apart_kept lineage given born (inheritedOld proc new) has inherited
  · by_cases new : proc = system.nextProc
    · cases new
      have table : (system.spawn task call entry ptr stackPointer exitSignal
          clearSighand).fds system.nextProc = system.fds task.proc := Function.update_self ..
      rcases List.mem_cons.mp (inheritedNew ▸ inherited) with own | older
      · cases own
        exact ⟨pipe, _, made, (congrFun table _).trans writes, rfl⟩
      · obtain ⟨pipe, entry, made, isOpen, isWrite⟩ := kept.held task.proc live number fd older
        exact ⟨pipe, entry, made, (congrFun table _).trans isOpen, isWrite⟩
    · have table : (system.spawn task call entry ptr stackPointer exitSignal
          clearSighand).fds proc = system.fds proc := Function.update_of_ne new ..
      have alive : system.phase proc = .live := (Function.update_of_ne new ..).symm.trans alive
      obtain ⟨pipe, entry, made, isOpen, isWrite⟩ :=
        kept.held proc alive number fd (inheritedOld proc new ▸ inherited)
      exact ⟨pipe, entry, made, (congrFun table _).trans isOpen, isWrite⟩

theorem callStep {rest remaining : Program SysCalls Int} {record : CallRecord}
    {progress : Progress} (kept : system.WriteEndsKept) (considerate : system.Considerate)
    (running : system.control task = .inCall call rest)
    (runs : system.Runs task call rest record)
    (effect : CallEffect system task call record.kind record.block record.progress progress
      after)
    (advanced : next = (after.setCall call { record with progress }).setControl task
      (.inCall call remaining))
    (given : ∀ proc args, system.Given proc args → next.Given proc args)
    (loaded : next.LoadedOwn) : next.WriteEndsKept := by
  have lineage := considerate.wellFormed.lineage
  have numbered := considerate.wellFormed.numbered
  have owns := considerate.calls.owns task call record ⟨⟨rest, running⟩, runs.known⟩
  cases advanced
  cases effect with
  | thread | shared | placed =>
      exact kept.frame lineage rfl given loaded (fun _ live => live)
        fun _ _ _ _ _ _ _ made isOpen _ => ⟨made, isOpen⟩
  | @piped read write none _ readFree writeFree =>
      refine kept.frame lineage rfl given loaded (fun _ live => live)
        fun proc number fd pipe entry _ _ made isOpen _ => ⟨?_, ?_⟩
      · have other : number ≠ call := by
          rintro rfl
          cases (owns.unopened none).symm.trans made
        exact (Function.update_of_ne other ..).trans made
      · have same : (system.openPipe task.proc call read write true).fds proc fd =
            system.fds proc fd := by
          rw [openPipe_fds, if_neg, if_neg]
          · rintro ⟨rfl, rfl⟩
            cases readFree.symm.trans isOpen
          · rintro ⟨rfl, rfl⟩
            cases writeFree.symm.trans isOpen
        exact same.trans isOpen
  | closed holds =>
      refine kept.frame lineage rfl given loaded (fun _ live => live)
        fun proc number fd pipe entry _ inherited made isOpen isWrite => ⟨made, ?_⟩
      refine (setFd_fds proc fd).trans ?_
      rw [if_neg]
      · exact isOpen
      · -- the calls that a process inherits from are older than its own
        rintro ⟨rfl, rfl⟩
        obtain ⟨own, entry', made', placed, ofPipe⟩ := owns.held holds
        cases isOpen.symm.trans placed
        rw [isWrite] at ofPipe
        cases ofPipe
        cases numbered.separate number call pipe made made'
        obtain ⟨found, known, older⟩ := lineage.inherited_older inherited
        cases known.symm.trans runs.known
        rw [runs.caller] at older
        exact Nat.lt_irrefl _ older
  | cloned mayClone => exact kept.spawn considerate running runs mayClone rfl given loaded

theorem startingStep {birth : Birth} {before progress : ChildProgress}
    {rest remaining : Program SysCalls ChildStart} {request : SysRequest}
    (kept : system.WriteEndsKept) (lineage : system.Lineage)
    (running : system.control (mainTask proc) = .starting before rest)
    (effect : ChildEffect system proc birth.args before request progress after)
    (advanced : next = after.setControl (mainTask proc) (.starting progress remaining))
    (given : ∀ other args, system.Given other args → next.Given other args)
    (loaded : next.LoadedOwn) : next.WriteEndsKept := by
  cases advanced
  cases effect with
  | loaded | cleared =>
      exact kept.frame lineage rfl given loaded (fun _ live => live)
        fun _ _ _ _ _ _ _ made isOpen _ => ⟨made, isOpen⟩
  | @closed args has =>
      have own : system.Given proc args := kept.loaded proc before rest args running has
      refine kept.frame lineage rfl given loaded (fun _ live => live)
        fun other call fd pipe entry _ inherited made isOpen _ => ⟨made, ?_⟩
      refine (setFd_fds other fd).trans ?_
      rw [if_neg]
      · exact isOpen
      · rintro ⟨rfl, rfl⟩
        exact kept.apart other args own call _ inherited rfl

theorem leave {phase : Phase} {table : FdTable} (kept : system.WriteEndsKept)
    (lineage : system.Lineage) (gone : phase ≠ .live)
    (advanced : next = system.leave proc phase table)
    (given : ∀ other args, system.Given other args → next.Given other args)
    (loaded : next.LoadedOwn) : next.WriteEndsKept := by
  cases advanced
  have elsewhere (other : Nat) (live : (system.leave proc phase table).phase other = .live) :
      other ≠ proc := by
    rintro rfl
    exact gone ((Function.update_self ..).symm.trans live)
  refine kept.frame lineage rfl given loaded (fun other live => ?_)
    fun other call fd pipe entry live _ made isOpen _ => ⟨made, ?_⟩
  · exact (Function.update_of_ne (elsewhere other live) ..).symm.trans live
  · exact (congrFun (Function.update_of_ne (elsewhere other live) ..) fd).trans isOpen

theorem userStep {op : UserOp} (kept : system.WriteEndsKept) (lineage : system.Lineage)
    (keeps : system.KeepsWriteEnds (.user task op))
    (stepped : system.userStep task op = some next)
    (given : ∀ other args, system.Given other args → next.Given other args)
    (loaded : next.LoadedOwn) : next.WriteEndsKept := by
  obtain ⟨_, phase, birth, _, pipeOf, _⟩ := userStep_frame stepped
  have fds (proc call fd : Nat) (entry : FdEntry)
      (inherited : (call, fd) ∈ system.inheritedOf proc)
      (isOpen : system.fds proc fd = some entry) : next.fds proc fd = some entry := by
    cases op with
    | close number =>
        cases stepped
        rw [setFd_fds, if_neg]
        · exact isOpen
        · rintro ⟨rfl, rfl⟩
          simpa [UserOp.closes] using keeps task _ rfl call fd inherited
    | «open» number file cloexec =>
        simp only [System.userStep] at stepped
        split at stepped
        · rename_i free
          cases stepped
          rw [setFd_fds, if_neg]
          · exact isOpen
          · rintro ⟨rfl, rfl⟩
            cases free.symm.trans isOpen
        · cases stepped
    | dup old new cloexec =>
        simp only [System.userStep] at stepped
        split at stepped <;> cases stepped
        rw [setFd_fds, if_neg]
        · exact isOpen
        · rintro ⟨rfl, rfl⟩
          simpa [UserOp.closes] using keeps task _ rfl call fd inherited
    | _ =>
        cases stepped
        exact isOpen
  exact kept.frame lineage birth given loaded (fun proc live => by rw [← phase]; exact live)
    fun proc call fd pipe entry _ inherited made isOpen _ =>
      ⟨by rw [pipeOf]; exact made, fds proc call fd entry inherited isOpen⟩

theorem of_change {action : Action} (kept : system.WriteEndsKept)
    (considerate : system.Considerate) (keeps : system.KeepsWriteEnds action)
    (own : system.ReadsOwnArgs action) (change : system.Change action next) :
    next.WriteEndsKept := by
  have wellFormed := considerate.wellFormed
  have lineage := wellFormed.lineage
  have given (proc : Nat) (args : ChildArgs) : system.Given proc args → next.Given proc args :=
    change.given_kept wellFormed.numbered (wellFormed.of_change change).lineage
  have same := fun (proc call fd pipe : Nat) (entry : FdEntry) (_ : system.phase proc = .live)
    (_ : (call, fd) ∈ system.inheritedOf proc) (made : system.pipeOf call = some pipe)
    (isOpen : system.fds proc fd = some entry) (_ : entry.file = .writeEnd pipe) =>
      And.intro made isOpen
  have loaded : next.LoadedOwn := LoadedOwn.of_change kept.loaded own change given
  cases change with
  | call running runs effect =>
      exact kept.callStep considerate running runs effect rfl given loaded
  | starting running born effect =>
      exact kept.startingStep lineage running effect rfl given loaded
  | user _ stepped => exact kept.userStep lineage keeps stepped given loaded
  | left _ _ leaves =>
      refine kept.leave lineage ?_ rfl given loaded
      rcases leaves with ⟨rfl, _⟩ | ⟨rfl, _⟩ <;> exact fun same => nomatch same
  | started | finish | enter | raise | deliver =>
      exact kept.frame lineage rfl given loaded (fun _ live => live) same

/-- While a descendant of the call's child lives, the read end does not report HUP. -/
theorem not_hup (kept : system.WriteEndsKept) (lineage : system.Lineage)
    (descends : system.DescendsFrom call proc) (live : system.phase proc = .live) :
    ¬ system.Hup call := by
  rintro ⟨pipe, made, closed⟩
  obtain ⟨fd, inherited⟩ := lineage.inherited_of_descendsFrom descends
  obtain ⟨other, entry, made', isOpen, isWrite⟩ := kept.held proc live call fd inherited
  cases made.symm.trans made'
  exact closed proc ⟨fd, entry, isOpen, isWrite⟩

end WriteEndsKept

end System

end Aspawn
