import Aspawn.Spawn.SystemNumbering

/-! What the threads of the system are doing: calls and starting children keep to their
protocols, whatever else happens. -/

set_option autoImplicit false

namespace Aspawn

namespace System

variable {system next after : System} {task : TaskId} {call proc : Nat}

/-- A thread is inside a call, with `rest` still to do. -/
structure Runs (system : System) (task : TaskId) (call : Nat) (rest : Program SysCalls Int)
    (record : CallRecord) : Prop where
  known : system.calls call = some record
  caller : record.caller = task
  kind : record.kind = .aspawn ↔ task.proc = 0
  unreturned : record.returned = none
  cancel : system.cancel task = record.progress.cancel
  mask : system.mask task = record.progress.mask
  conforms : (callProtocol record.kind record.block).Conforms record.start.Finished
    record.progress rest

/-- Only threads of live processes run, and they keep to the protocols. -/
structure Threaded (system : System) : Prop where
  present : ∀ task, (system.control task).isPresent →
    system.phase task.proc = .live ∧ (task.proc ≠ 0 → task = mainTask task.proc)
  inCall : ∀ task call rest, system.control task = .inCall call rest →
    ∃ record, system.Runs task call rest record
  starting : ∀ task progress rest, system.control task = .starting progress rest →
    ∃ birth, system.birth task.proc = some birth ∧
      (childProtocol birth.args).Conforms ChildProgress.Ready progress rest
  returned : ∀ call record result, system.calls call = some record →
    record.returned = some result → record.start.Finished record.progress result

namespace Threaded

theorem of_initial (initial : system.Initial) : system.Threaded where
  present task present := by
    rw [initial.threads] at present
    split at present
    · rename_i root
      exact ⟨root ▸ initial.root, fun child => absurd root child⟩
    · cases present
  inCall task call rest running := by
    rw [initial.threads] at running
    split at running <;> cases running
  starting task progress rest running := by
    rw [initial.threads] at running
    split at running <;> cases running
  returned call record result known := by
    rw [initial.calls] at known
    cases known

/-- A cloned process has no other thread than its main one. -/
theorem proc_ne {other : TaskId} (threaded : system.Threaded) (child : proc ≠ 0)
    (present : (system.control other).isPresent) (distinct : other ≠ mainTask proc) :
    other.proc ≠ proc := by
  rintro rfl
  exact distinct ((threaded.present other present).2 child)

theorem setControl {control : Control} (threaded : system.Threaded)
    (present : (system.control task).isPresent)
    (inCall : ∀ call rest, control = .inCall call rest →
      ∃ record, system.Runs task call rest record)
    (starting : ∀ progress rest, control = .starting progress rest →
      ∃ birth, system.birth task.proc = some birth ∧
        (childProtocol birth.args).Conforms ChildProgress.Ready progress rest) :
    (system.setControl task control).Threaded :=
  { threaded with
    present := fun other running => by
      by_cases same : other = task
      · cases same
        exact threaded.present task present
      · rw [setControl_of_ne same] at running
        exact threaded.present other running
    inCall := fun other call rest running => by
      by_cases same : other = task
      · cases same
        rw [setControl_self] at running
        obtain ⟨record, runs⟩ := inCall call rest running
        exact ⟨record, { runs with }⟩
      · rw [setControl_of_ne same] at running
        obtain ⟨record, runs⟩ := threaded.inCall other call rest running
        exact ⟨record, { runs with }⟩
    starting := fun other progress rest running => by
      by_cases same : other = task
      · cases same
        rw [setControl_self] at running
        exact starting progress rest running
      · rw [setControl_of_ne same] at running
        exact threaded.starting other progress rest running }

theorem advance {record : CallRecord} {rest remaining : Program SysCalls Int}
    {progress : Progress} (threaded : system.Threaded)
    (running : system.control task = .inCall call rest)
    (runs : system.Runs task call rest record)
    (control : after.control = system.control) (phase : after.phase = system.phase)
    (birth : after.birth = system.birth) (calls : after.calls = system.calls)
    (others : ∀ other, other ≠ task →
      after.cancel other = system.cancel other ∧ after.mask other = system.mask other)
    (cancel : after.cancel task = progress.cancel) (mask : after.mask task = progress.mask)
    (conforms : (callProtocol record.kind record.block).Conforms record.start.Finished
      progress remaining) :
    ((after.setCall call { record with progress }).setControl task
      (.inCall call remaining)).Threaded where
  present other running' := by
    rw [System.setControl, System.setCall] at running' ⊢
    simp only [control, phase] at running' ⊢
    by_cases same : other = task
    · cases same
      exact threaded.present task (by rw [running]; rfl)
    · rw [Function.update_of_ne same] at running'
      exact threaded.present other running'
  inCall other number rest' running' := by
    simp only [System.setControl, System.setCall, control] at running'
    by_cases same : other = task
    · cases same
      rw [Function.update_self] at running'
      cases running'
      exact ⟨{ record with progress }, by simp [System.setControl, System.setCall],
        runs.caller, runs.kind, runs.unreturned, cancel, mask, conforms⟩
    · rw [Function.update_of_ne same] at running'
      obtain ⟨found, foundRuns⟩ := threaded.inCall other number rest' running'
      have distinct : number ≠ call := by
        rintro rfl
        cases runs.known.symm.trans foundRuns.known
        exact same (foundRuns.caller.symm.trans runs.caller)
      obtain ⟨sameCancel, sameMask⟩ := others other same
      refine ⟨found, ?_, foundRuns.caller, foundRuns.kind, foundRuns.unreturned,
        sameCancel.trans foundRuns.cancel, sameMask.trans foundRuns.mask, foundRuns.conforms⟩
      simpa [System.setControl, System.setCall, distinct, calls] using foundRuns.known
  starting other childProgress rest' running' := by
    simp only [System.setControl, System.setCall, control] at running'
    by_cases same : other = task
    · cases same
      rw [Function.update_self] at running'
      cases running'
    · rw [Function.update_of_ne same] at running'
      simpa [System.setControl, System.setCall, birth] using
        threaded.starting other childProgress rest' running'
  returned number found result known done := by
    simp only [System.setControl, System.setCall, calls, Function.update_apply] at known
    split at known
    · cases known
      rw [runs.unreturned] at done
      cases done
    · exact threaded.returned number found result known done

theorem spawn {entry : ChildEntry} {ptr : ArgsPtr} {stackPointer exitSignal : UInt64}
    {clearSighand : Bool} (threaded : system.Threaded) (numbered : system.Numbered) :
    (system.spawn task call entry ptr stackPointer exitSignal clearSighand).Threaded := by
  have old (other : TaskId) (present : (system.control other).isPresent) :
      other.proc ≠ system.nextProc ∧ other ≠ mainTask system.nextProc := by
    have born := numbered.live_lt (threaded.present other present).1
    refine ⟨born.ne, ?_⟩
    rintro rfl
    exact born.ne rfl
  exact { threaded with
    present := fun other running => by
      by_cases same : other = mainTask system.nextProc
      · cases same
        exact ⟨by simp [System.spawn, mainTask], fun _ => rfl⟩
      · simp only [System.spawn, Function.update_of_ne same] at running
        obtain ⟨distinct, _⟩ := old other running
        simpa [System.spawn, distinct] using threaded.present other running
    inCall := fun other number rest running => by
      by_cases same : other = mainTask system.nextProc
      · cases same
        simp [System.spawn] at running
      · simp only [System.spawn, Function.update_of_ne same] at running
        obtain ⟨record, runs⟩ := threaded.inCall other number rest running
        refine ⟨record, { runs with mask := ?_ }⟩
        simpa [System.spawn, same] using runs.mask
    starting := fun other progress rest running => by
      by_cases same : other = mainTask system.nextProc
      · cases same
        simp only [System.spawn, Function.update_self] at running
        cases running
        exact ⟨_, Function.update_self .., childEntry_conforms⟩
      · simp only [System.spawn, Function.update_of_ne same] at running
        obtain ⟨distinct, _⟩ := old other (by rw [running]; rfl)
        simpa [System.spawn, distinct] using threaded.starting other progress rest running }

theorem startCall {kind : CallKind} {block : Nat} {pid : Int} {code : Program SysCalls Int}
    (threaded : system.Threaded) (numbered : system.Numbered)
    (user : system.control task = .user) (side : kind = .aspawn ↔ task.proc = 0)
    (conforms : ∀ progress : Progress, progress.Fresh →
      (callProtocol kind block).Conforms progress.Finished progress code) :
    (system.startCall task kind block pid code).Threaded :=
  { threaded with
    present := fun other running => by
      by_cases same : other = task
      · cases same
        exact threaded.present task (by rw [user]; rfl)
      · simp only [System.startCall, Function.update_of_ne same] at running
        exact threaded.present other running
    inCall := fun other number rest running => by
      by_cases same : other = task
      · cases same
        simp only [System.startCall, Function.update_self] at running
        cases running
        exact ⟨_, Function.update_self .., rfl, side, rfl, rfl, rfl,
          conforms _ Progress.fresh_start⟩
      · simp only [System.startCall, Function.update_of_ne same] at running
        obtain ⟨record, runs⟩ := threaded.inCall other number rest running
        have earlier := numbered.call_lt runs.known
        refine ⟨record, { runs with known := ?_ }⟩
        simpa [System.startCall, earlier.ne] using runs.known
    starting := fun other progress rest running => by
      by_cases same : other = task
      · cases same
        simp only [System.startCall, Function.update_self] at running
        cases running
      · simp only [System.startCall, Function.update_of_ne same] at running
        exact threaded.starting other progress rest running
    returned := fun number record result known done => by
      simp only [System.startCall, Function.update_apply] at known
      split at known
      · cases known
        cases done
      · exact threaded.returned number record result known done }

theorem finish {record : CallRecord} {result : Int} (threaded : system.Threaded)
    (running : system.control task = .inCall call (.done result))
    (runs : system.Runs task call (.done result) record) :
    ((system.setCall call { record with returned := some result }).setControl task
      .user).Threaded :=
  { threaded with
    present := fun other running' => by
      by_cases same : other = task
      · cases same
        exact threaded.present task (by rw [running]; rfl)
      · rw [setControl_of_ne same] at running'
        exact threaded.present other running'
    inCall := fun other number rest running' => by
      by_cases same : other = task
      · cases same
        rw [setControl_self] at running'
        cases running'
      · rw [setControl_of_ne same] at running'
        obtain ⟨found, foundRuns⟩ := threaded.inCall other number rest running'
        have distinct : number ≠ call := by
          rintro rfl
          cases runs.known.symm.trans foundRuns.known
          exact same (foundRuns.caller.symm.trans runs.caller)
        exact ⟨found, { foundRuns with known := (setCall_of_ne distinct).trans foundRuns.known }⟩
    starting := fun other progress rest running' =>
      threaded.starting other progress rest
        (control_of_update (fun same => Control.noConfusion same) running')
    returned := fun number found result' known done => by
      simp only [System.setControl, System.setCall, Function.update_apply] at known
      split at known
      · cases known
        cases done
        exact runs.conforms
      · exact threaded.returned number found result' known done }

theorem leave {phase : Phase} {table : FdTable} (threaded : system.Threaded)
    (child : proc ≠ 0) : (system.leave proc phase table).Threaded := by
  have elsewhere (other : TaskId)
      (present : ((system.leave proc phase table).control other).isPresent) :
      other ≠ mainTask proc ∧ other.proc ≠ proc := by
    have distinct : other ≠ mainTask proc := by
      rintro rfl
      simp [System.leave, Control.isPresent] at present
    simp only [System.leave, Function.update_of_ne distinct] at present
    exact ⟨distinct, threaded.proc_ne child present distinct⟩
  exact { threaded with
    present := fun other running => by
      obtain ⟨distinct, outside⟩ := elsewhere other running
      simp only [System.leave, Function.update_of_ne distinct] at running
      simpa [System.leave, outside] using threaded.present other running
    inCall := fun other number rest running => by
      obtain ⟨distinct, _⟩ := elsewhere other (by rw [running]; rfl)
      simp only [System.leave, Function.update_of_ne distinct] at running
      obtain ⟨record, runs⟩ := threaded.inCall other number rest running
      exact ⟨record, { runs with }⟩
    starting := fun other progress rest running => by
      obtain ⟨distinct, _⟩ := elsewhere other (by rw [running]; rfl)
      simp only [System.leave, Function.update_of_ne distinct] at running
      exact threaded.starting other progress rest running }

theorem frame (threaded : system.Threaded) (control : after.control = system.control)
    (phase : after.phase = system.phase) (birth : after.birth = system.birth)
    (calls : after.calls = system.calls)
    (others : ∀ other, system.control other ≠ .user →
      after.cancel other = system.cancel other ∧ after.mask other = system.mask other) :
    after.Threaded where
  present := by
    rw [control, phase]
    exact threaded.present
  inCall other number rest running := by
    rw [control] at running
    obtain ⟨record, runs⟩ := threaded.inCall other number rest running
    obtain ⟨cancel, mask⟩ := others other (by rw [running]; exact Control.noConfusion)
    exact ⟨record, calls ▸ runs.known, runs.caller, runs.kind, runs.unreturned,
      cancel.trans runs.cancel, mask.trans runs.mask, runs.conforms⟩
  starting := by
    rw [control, birth]
    exact threaded.starting
  returned := by
    rw [calls]
    exact threaded.returned

theorem userStep {op : UserOp} (threaded : system.Threaded)
    (user : system.control task = .user) (stepped : system.userStep task op = some next) :
    next.Threaded := by
  have others {α : Type} (f : TaskId → α) (value : α) (other : TaskId)
      (busy : system.control other ≠ .user) :
      Function.update f task value other = f other := by
    refine Function.update_of_ne ?_ ..
    rintro rfl
    exact busy user
  cases op with
  | close fd =>
      cases stepped
      exact threaded.frame rfl rfl rfl rfl fun _ _ => ⟨rfl, rfl⟩
  | «open» fd file cloexec =>
      simp only [System.userStep] at stepped
      split at stepped
      · cases stepped
        exact threaded.frame rfl rfl rfl rfl fun _ _ => ⟨rfl, rfl⟩
      · cases stepped
  | dup old new cloexec =>
      simp only [System.userStep] at stepped
      split at stepped
      · cases stepped
      · cases stepped
        exact threaded.frame rfl rfl rfl rfl fun _ _ => ⟨rfl, rfl⟩
  | setMask mask =>
      cases stepped
      exact threaded.frame rfl rfl rfl rfl fun other busy => ⟨rfl, others _ _ other busy⟩
  | setAction signal disposition =>
      cases stepped
      exact threaded.frame rfl rfl rfl rfl fun _ _ => ⟨rfl, rfl⟩
  | setCancel state =>
      cases stepped
      exact threaded.frame rfl rfl rfl rfl fun other busy => ⟨others _ _ other busy, rfl⟩
  | setStack block stack =>
      cases stepped
      exact threaded.frame rfl rfl rfl rfl fun _ _ => ⟨rfl, rfl⟩

end Threaded

end System

end Aspawn
