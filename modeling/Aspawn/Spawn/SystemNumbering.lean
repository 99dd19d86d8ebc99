import Aspawn.Spawn.SystemSteps

/-! How processes, calls and pipes are numbered, in every state that is reached. -/

set_option autoImplicit false

namespace Aspawn

namespace System

variable {system next after : System} {task : TaskId} {call proc : Nat}

/-- What has not been made yet occurs nowhere, and every pipe is of one call. -/
structure Numbered (system : System) : Prop where
  root : 0 < system.nextProc ∧ system.phase 0 = .live ∧ system.birth 0 = none
  unborn : ∀ proc, system.nextProc ≤ proc →
    system.phase proc = .unborn ∧ system.fds proc = .empty ∧ system.birth proc = none
  uncalled : ∀ call, system.nextCall ≤ call →
    system.calls call = none ∧ system.pipeOf call = none
  pipes : ∀ call pipe, system.pipeOf call = some pipe → pipe < system.nextPipe
  files : ∀ proc fd entry pipe, system.fds proc fd = some entry →
    entry.file.pipe = some pipe → pipe < system.nextPipe
  separate : ∀ first second pipe, system.pipeOf first = some pipe →
    system.pipeOf second = some pipe → first = second

namespace Numbered

theorem of_initial (initial : system.Initial) : system.Numbered where
  root := ⟨by rw [initial.nextProc]; decide, initial.root, initial.birth 0⟩
  unborn proc later := by
    rw [initial.nextProc] at later
    obtain ⟨unborn, empty⟩ := initial.others proc (by omega)
    exact ⟨unborn, empty, initial.birth proc⟩
  uncalled call _ := ⟨initial.calls call, initial.pipeOf call⟩
  pipes call pipe made := by
    rw [initial.pipeOf] at made
    cases made
  files proc fd entry pipe found ofPipe := by
    by_cases root : proc = 0
    · cases root
      exact initial.pipes fd entry pipe found ofPipe
    · rw [(initial.others proc root).2] at found
      cases found
  separate first second pipe made := by
    rw [initial.pipeOf] at made
    cases made

theorem live_lt (numbered : system.Numbered) (live : system.phase proc = .live) :
    proc < system.nextProc := by
  by_contra later
  rw [(numbered.unborn proc (Nat.le_of_not_lt later)).1] at live
  cases live

theorem born_lt {birth : Birth} (numbered : system.Numbered)
    (born : system.birth proc = some birth) : proc < system.nextProc := by
  by_contra later
  rw [(numbered.unborn proc (Nat.le_of_not_lt later)).2.2] at born
  cases born

theorem born_ne_root {birth : Birth} (numbered : system.Numbered)
    (born : system.birth proc = some birth) : proc ≠ 0 := by
  rintro rfl
  rw [numbered.root.2.2] at born
  cases born

theorem call_lt {record : CallRecord} (numbered : system.Numbered)
    (known : system.calls call = some record) : call < system.nextCall := by
  by_contra later
  rw [(numbered.uncalled call (Nat.le_of_not_lt later)).1] at known
  cases known

theorem setControl {control : Control} (numbered : system.Numbered) :
    (system.setControl task control).Numbered :=
  { numbered with }

theorem setCall {record : CallRecord} (numbered : system.Numbered)
    (known : call < system.nextCall) : (system.setCall call record).Numbered :=
  { numbered with
    uncalled := fun other later => by
      have later : system.nextCall ≤ other := later
      have distinct : other ≠ call := by omega
      simpa [System.setCall, distinct] using numbered.uncalled other later }

theorem setFd {fd : Nat} {entry : Option FdEntry} (numbered : system.Numbered)
    (born : proc < system.nextProc)
    (known : ∀ installed pipe, entry = some installed → installed.file.pipe = some pipe →
      pipe < system.nextPipe) :
    (system.setFd proc fd entry).Numbered :=
  { numbered with
    unborn := fun other later => by
      have later : system.nextProc ≤ other := later
      have distinct : other ≠ proc := by omega
      simpa [System.setFd, distinct] using numbered.unborn other later
    files := fun other number found pipe held ofPipe => by
      rw [setFd_fds] at held
      split at held
      · exact known found pipe held ofPipe
      · exact numbered.files other number found pipe held ofPipe }

theorem openPipe {read write : Nat} {cloexec : Bool} (numbered : system.Numbered)
    (born : proc < system.nextProc) (known : call < system.nextCall) :
    (system.openPipe proc call read write cloexec).Numbered :=
  { numbered with
    unborn := fun other later => by
      have later : system.nextProc ≤ other := later
      have distinct : other ≠ proc := by omega
      simpa [System.openPipe, System.setFd, distinct] using numbered.unborn other later
    uncalled := fun other later => by
      have later : system.nextCall ≤ other := later
      have distinct : other ≠ call := by omega
      simpa [System.openPipe, System.setFd, distinct] using numbered.uncalled other later
    pipes := fun other pipe made => by
      simp only [System.openPipe, Function.update_apply] at made ⊢
      split at made
      · cases made
        exact Nat.lt_succ_self _
      · exact Nat.lt_succ_of_lt (numbered.pipes other pipe made)
    files := fun other number found pipe held ofPipe => by
      rw [openPipe_fds] at held
      split at held
      · cases held
        cases ofPipe
        exact Nat.lt_succ_self _
      · split at held
        · cases held
          cases ofPipe
          exact Nat.lt_succ_self _
        · exact Nat.lt_succ_of_lt (numbered.files other number found pipe held ofPipe)
    separate := fun first second pipe made also => by
      have fresh : ∀ other, system.pipeOf other ≠ some system.nextPipe := fun other made =>
        Nat.lt_irrefl _ (numbered.pipes other _ made)
      simp only [System.openPipe, Function.update_apply] at made also
      split at made <;> split at also
      · simp_all
      · cases made
        exact absurd also (fresh second)
      · cases also
        exact absurd made (fresh first)
      · exact numbered.separate first second pipe made also }

theorem spawn {entry : ChildEntry} {ptr : ArgsPtr} {stackPointer exitSignal : UInt64}
    {clearSighand : Bool} (numbered : system.Numbered) :
    (system.spawn task call entry ptr stackPointer exitSignal clearSighand).Numbered :=
  { numbered with
    root := by
      have distinct : 0 ≠ system.nextProc := numbered.root.1.ne
      simpa [System.spawn, distinct] using numbered.root.2
    unborn := fun other later => by
      have later : system.nextProc + 1 ≤ other := later
      have distinct : other ≠ system.nextProc := by omega
      simpa [System.spawn, distinct] using numbered.unborn other (by omega)
    files := fun other number found pipe held ofPipe => by
      rw [spawn_fds] at held
      split at held
      · exact numbered.files _ number found pipe held ofPipe
      · exact numbered.files other number found pipe held ofPipe }

theorem callEffect {kind : CallKind} {block : Nat} {before progress : Progress}
    (numbered : system.Numbered) (born : task.proc < system.nextProc)
    (known : call < system.nextCall)
    (effect : CallEffect system task call kind block before progress after) :
    after.Numbered := by
  cases effect with
  | thread => exact { numbered with }
  | shared => exact { numbered with }
  | placed => exact { numbered with }
  | piped => exact numbered.openPipe born known
  | closed => exact numbered.setFd born fun _ _ installed => nomatch installed
  | cloned => exact numbered.spawn

theorem childEffect {ptr : ArgsPtr} {before progress : ChildProgress} {request : SysRequest}
    (numbered : system.Numbered) (born : proc < system.nextProc)
    (effect : ChildEffect system proc ptr before request progress after) :
    after.Numbered := by
  cases effect with
  | loaded => exact numbered
  | closed => exact numbered.setFd born fun _ _ installed => nomatch installed
  | cleared => exact { numbered with }

theorem leave {phase : Phase} {table : FdTable} (numbered : system.Numbered)
    (born : proc < system.nextProc) (child : proc ≠ 0)
    (kept : ∀ fd entry, table fd = some entry → system.fds proc fd = some entry) :
    (system.leave proc phase table).Numbered :=
  { numbered with
    root := by simpa [System.leave, child.symm] using numbered.root
    unborn := fun other later => by
      have later : system.nextProc ≤ other := later
      have distinct : other ≠ proc := by omega
      simpa [System.leave, distinct] using numbered.unborn other later
    files := fun other number found pipe held ofPipe => by
      simp only [System.leave, Function.update_apply] at held
      split at held
      · exact numbered.files proc number found pipe (kept number found held) ofPipe
      · exact numbered.files other number found pipe held ofPipe }

theorem startCall {kind : CallKind} {block : Nat} {pid : Int} {code : Program SysCalls Int}
    (numbered : system.Numbered) :
    (system.startCall task kind block pid code).Numbered :=
  { numbered with
    uncalled := fun other later => by
      have later : system.nextCall + 1 ≤ other := later
      have distinct : other ≠ system.nextCall := by omega
      simpa [System.startCall, distinct] using numbered.uncalled other (by omega) }

theorem userStep {op : UserOp} (numbered : system.Numbered)
    (born : task.proc < system.nextProc) (stepped : system.userStep task op = some next) :
    next.Numbered := by
  cases op with
  | close fd =>
      cases stepped
      exact numbered.setFd born fun _ _ installed => nomatch installed
  | «open» fd file cloexec =>
      simp only [System.userStep] at stepped
      split at stepped
      · cases stepped
        refine numbered.setFd born fun installed pipe same ofPipe => ?_
        cases same
        cases ofPipe
      · cases stepped
  | dup old new cloexec =>
      simp only [System.userStep] at stepped
      split at stepped
      · cases stepped
      · rename_i entry held
        cases stepped
        refine numbered.setFd born fun installed pipe same ofPipe => ?_
        cases same
        exact numbered.files task.proc old entry pipe held ofPipe
  | setMask | setAction | setCancel | setStack =>
      cases stepped
      exact { numbered with }

end Numbered

end System

end Aspawn
