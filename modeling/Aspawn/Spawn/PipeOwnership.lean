import Aspawn.Spawn.SystemProperties

/-! A call in flight owns the open ends of its pipe: they are where the call thinks they
are, nothing else in the table of its process refers to the pipe, and its `Stack_t` is
not written. This holds as long as code outside calls leaves these things alone. -/

set_option autoImplicit false

namespace Aspawn

open Transition

namespace Progress

variable {progress : Progress} {pipe fd : Nat} {entry : FdEntry}

/-- What the open ends of the call's pipe are in the descriptor table. -/
def ends (progress : Progress) (pipe fd : Nat) : Option FdEntry :=
  match progress.pipefd with
  | none => none
  | some pipefd =>
      if fd = pipefd.1 ∧ progress.readOpen then some { file := .readEnd pipe, cloexec := true }
      else if fd = pipefd.2 ∧ progress.writeOpen then
        some { file := .writeEnd pipe, cloexec := true }
      else none

theorem holds_iff : progress.Holds fd ↔ ∃ entry, progress.ends pipe fd = some entry := by
  unfold Holds ends
  cases progress.pipefd with
  | none => simp
  | some pipefd =>
      simp only [Option.some.injEq, exists_eq_left']
      split
      · simp_all
      · split <;> simp_all

theorem writeOpen_of_ends {writes : Nat} (found : progress.ends pipe fd = some entry)
    (isWrite : entry.file = .writeEnd writes) : progress.writeOpen := by
  unfold ends at found
  split at found
  · cases found
  · split at found
    · cases found
      cases isWrite
    · split at found
      · rename_i here
        exact here.2
      · cases found

theorem ends_closed (other : Nat) :
    (progress.closed other).ends pipe fd =
      if fd = other then none else progress.ends pipe fd := by
  unfold ends closed
  cases opened : progress.pipefd with
  | none => simp [opened]
  | some pipefd =>
      by_cases same : fd = other
      · cases same
        grind
      · grind

end Progress

namespace System

variable {system next after : System} {task : TaskId} {call proc : Nat}

/-- The call's pipe occurs in the table of its process exactly at its open ends. -/
structure Owns (system : System) (proc call : Nat) (progress : Progress) : Prop where
  unopened : progress.pipefd = none → system.pipeOf call = none
  opened : ∀ pipefd, progress.pipefd = some pipefd →
    pipefd.1 ≠ pipefd.2 ∧ ∃ pipe, system.pipeOf call = some pipe
  table : ∀ pipe, system.pipeOf call = some pipe → ∀ fd entry,
    (system.fds proc fd = some entry ∧ entry.file.pipe = some pipe) ↔
      progress.ends pipe fd = some entry

namespace Owns

variable {progress : Progress}

theorem frame {later : Progress} (owns : system.Owns proc call progress)
    (fds : after.fds proc = system.fds proc) (pipeOf : after.pipeOf call = system.pipeOf call)
    (pipefd : later.pipefd = progress.pipefd) (ends : later.ends = progress.ends) :
    after.Owns proc call later where
  unopened := by
    rw [pipeOf, pipefd]
    exact owns.unopened
  opened := by
    rw [pipeOf, pipefd]
    exact owns.opened
  table := by
    rw [pipeOf, fds, ends]
    exact owns.table

/-- A descriptor that the call holds is an end of its pipe. -/
theorem held {fd : Nat} (owns : system.Owns proc call progress) (holds : progress.Holds fd) :
    ∃ pipe entry, system.pipeOf call = some pipe ∧ system.fds proc fd = some entry ∧
      entry.file.pipe = some pipe := by
  obtain ⟨pipefd, opened, _⟩ := id holds
  obtain ⟨_, pipe, made⟩ := owns.opened pipefd opened
  obtain ⟨entry, found⟩ : ∃ entry, progress.ends pipe fd = some entry :=
    Progress.holds_iff.mp holds
  obtain ⟨placed, ofPipe⟩ := (owns.table pipe made fd entry).mpr found
  exact ⟨pipe, entry, made, placed, ofPipe⟩

theorem setFd {other fd : Nat} {entry : Option FdEntry} (owns : system.Owns proc call progress)
    (outside : proc = other → ¬ progress.Holds fd)
    (foreign : ∀ installed pipe, entry = some installed → system.pipeOf call = some pipe →
      installed.file.pipe ≠ some pipe) :
    (system.setFd other fd entry).Owns proc call progress where
  unopened := owns.unopened
  opened := owns.opened
  table pipe made number found := by
    rw [setFd_fds]
    split
    · rename_i here
      obtain ⟨same, rfl⟩ := here
      constructor
      · rintro ⟨installed, ofPipe⟩
        exact absurd ofPipe (foreign found pipe installed made)
      · intro ends
        exact absurd (Progress.holds_iff.mpr ⟨found, ends⟩) (outside same)
    · exact owns.table pipe made number found

theorem of_openPipe {read write : Nat} (numbered : system.Numbered) (distinct : read ≠ write) :
    (system.openPipe proc call read write true).Owns proc call
      { progress with pipefd := some (read, write), readOpen := true, writeOpen := true } where
  unopened := fun none => nomatch none
  opened pipefd same := by
    cases same
    exact ⟨distinct, system.nextPipe, Function.update_self ..⟩
  table pipe made fd entry := by
    have newest : (system.openPipe proc call read write true).pipeOf call =
        some system.nextPipe := Function.update_self ..
    cases newest.symm.trans made
    rw [openPipe_fds]
    simp only [Progress.ends, true_and, and_true]
    have old : ¬ (system.fds proc fd = some entry ∧ entry.file.pipe = some system.nextPipe) :=
      fun both => Nat.lt_irrefl _ (numbered.files proc fd entry _ both.1 both.2)
    by_cases isWrite : fd = write
    · cases isWrite
      rw [if_pos rfl, if_neg distinct.symm, if_pos rfl]
      exact ⟨fun both => both.1, fun same => ⟨same, by cases same; rfl⟩⟩
    · rw [if_neg isWrite, if_neg isWrite]
      by_cases isRead : fd = read
      · rw [if_pos isRead, if_pos isRead]
        exact ⟨fun both => both.1, fun same => ⟨same, by cases same; rfl⟩⟩
      · rw [if_neg isRead, if_neg isRead]
        exact ⟨fun both => absurd both old, fun same => nomatch same⟩

theorem closed {fd : Nat} (owns : system.Owns proc call progress) :
    (system.setFd proc fd none).Owns proc call (progress.closed fd) where
  unopened := by
    rw [Progress.closed_pipefd]
    exact owns.unopened
  opened := by
    rw [Progress.closed_pipefd]
    exact owns.opened
  table pipe made number entry := by
    rw [setFd_fds, Progress.ends_closed]
    by_cases same : number = fd
    · simp [same]
    · simpa [same] using owns.table pipe made number entry

end Owns

/-! ## Calls in flight -/

/-- A thread is inside a call with this record. -/
structure InFlight (system : System) (task : TaskId) (call : Nat) (record : CallRecord) :
    Prop where
  running : ∃ rest, system.control task = .inCall call rest
  known : system.calls call = some record

/-- The operation closes, replaces or copies the descriptor. -/
def UserOp.touches : UserOp → Nat → Bool
  | .close fd, other => other = fd
  | .dup old new _, other => other = old || other = new
  | _, _ => false

def UserOp.writesStack : UserOp → Nat → Bool
  | .setStack block _, other => other = block
  | _, _ => false

/-- Code outside calls does not touch the pipe ends that a call holds in the same process,
and does not write a `Stack_t` while a call uses it. -/
def LeavesCallsAlone (system : System) (action : Action) : Prop :=
  ∀ task op, action = .user task op → ∀ other call record, system.InFlight other call record →
    op.writesStack record.block = false ∧
      (other.proc = task.proc → ∀ fd, record.progress.Holds fd → op.touches fd = false)

def Action.isUser : Action → Bool
  | .user _ _ => true
  | _ => false

theorem leavesCallsAlone_of_not_isUser {action : Action} (code : action.isUser = false) :
    system.LeavesCallsAlone action := by
  intro task op same
  cases same
  cases code

namespace InFlight

variable {record found : CallRecord} {other : TaskId} {number : Nat}

theorem runs (inFlight : system.InFlight task call record) (threaded : system.Threaded) :
    ∃ rest, system.Runs task call rest record := by
  obtain ⟨rest, running⟩ := inFlight.running
  obtain ⟨found, runs⟩ := threaded.inCall task call rest running
  cases inFlight.known.symm.trans runs.known
  exact ⟨rest, runs⟩

theorem live (inFlight : system.InFlight task call record) (threaded : system.Threaded) :
    system.phase task.proc = .live := by
  obtain ⟨rest, running⟩ := inFlight.running
  exact (threaded.present task (by rw [running]; rfl)).1

theorem of_setControl {control : Control}
    (inFlight : (system.setControl task control).InFlight other number found)
    (idle : ∀ number rest, control ≠ .inCall number rest) :
    other ≠ task ∧ system.InFlight other number found := by
  obtain ⟨⟨rest, running⟩, known⟩ := inFlight
  have distinct : other ≠ task := by
    rintro rfl
    exact idle number rest (setControl_self.symm.trans running)
  exact ⟨distinct, ⟨rest, (setControl_of_ne distinct).symm.trans running⟩, known⟩

/-- A call that is in flight after a request of `call` is `call` itself or was in flight. -/
theorem of_callEffect {kind : CallKind} {block : Nat} {before progress : Progress}
    {rest remaining : Program SysCalls Int} (threaded : system.Threaded)
    (runs : system.Runs task call rest record)
    (effect : CallEffect system task call kind block before progress after)
    (inFlight : ((after.setCall call { record with progress }).setControl task
      (.inCall call remaining)).InFlight other number found) :
    (other = task ∧ number = call ∧ found = { record with progress }) ∨
      (other ≠ task ∧ number ≠ call ∧ system.InFlight other number found) := by
  obtain ⟨⟨rest', running⟩, known⟩ := inFlight
  by_cases same : other = task
  · cases same
    cases setControl_self.symm.trans running
    have known : some { record with progress } = some found := setCall_self.symm.trans known
    cases known
    exact .inl ⟨rfl, rfl, rfl⟩
  · rw [setControl_of_ne same] at running
    have running := effect.inCall running
    obtain ⟨old, oldRuns⟩ := threaded.inCall other number rest' running
    have distinct : number ≠ call := by
      rintro rfl
      cases runs.known.symm.trans oldRuns.known
      exact same (oldRuns.caller.symm.trans runs.caller)
    have known : after.calls number = some found := (setCall_of_ne distinct).symm.trans known
    rw [effect.calls] at known
    exact .inr ⟨same, distinct, ⟨rest', running⟩, known⟩

end InFlight

/-- Every call in flight owns its pipe, and its `Stack_t` is as it found it. -/
structure CallsOwn (system : System) : Prop where
  owns : ∀ task call record, system.InFlight task call record →
    system.Owns task.proc call record.progress
  stack : ∀ task call record, system.InFlight task call record →
    system.cachedStacks record.block = record.stack

namespace CallsOwn

theorem of_initial (initial : system.Initial) : system.CallsOwn where
  owns task call record inFlight := by
    have known := inFlight.known
    rw [initial.calls] at known
    cases known
  stack task call record inFlight := by
    have known := inFlight.known
    rw [initial.calls] at known
    cases known

theorem callStep {rest remaining : Program SysCalls Int} {record : CallRecord}
    {progress : Progress} (calls : system.CallsOwn) (wellFormed : system.WellFormed)
    (running : system.control task = .inCall call rest)
    (runs : system.Runs task call rest record)
    (effect : CallEffect system task call record.kind record.block record.progress progress
      after) :
    ((after.setCall call { record with progress }).setControl task
      (.inCall call remaining)).CallsOwn := by
  obtain ⟨numbered, threaded, _⟩ := wellFormed
  have self : system.InFlight task call record := ⟨⟨rest, running⟩, runs.known⟩
  have owns := calls.owns task call record self
  have born := numbered.live_lt (self.live threaded)
  -- what the request does to the pipe of its own call
  have own : after.Owns task.proc call progress := by
    cases effect with
    | thread | shared | placed => exact owns.frame rfl rfl rfl rfl
    | piped none distinct => exact .of_openPipe numbered distinct
    | closed => exact owns.closed
    | cloned => exact owns.frame (Function.update_of_ne born.ne ..) rfl rfl rfl
  -- and to the pipes of the other calls
  have foreign (other : TaskId) (number : Nat) (found : CallRecord) (distinct : number ≠ call)
      (inFlight : system.InFlight other number found) :
      after.Owns other.proc number found.progress := by
    have others := calls.owns other number found inFlight
    have older := numbered.live_lt (inFlight.live threaded)
    cases effect with
    | thread | shared | placed => exact others.frame rfl rfl rfl rfl
    | @piped read write _ _ readFree writeFree =>
        have unheld (fd : Nat) (free : system.fds task.proc fd = none)
            (same : other.proc = task.proc) : ¬ found.progress.Holds fd := by
          intro holds
          obtain ⟨pipe, entry, _, placed, _⟩ := others.held holds
          rw [same, free] at placed
          cases placed
        have newest (installed : FdEntry) (pipe : Nat)
            (ofNewest : installed.file.pipe = some system.nextPipe)
            (made : system.pipeOf number = some pipe) : installed.file.pipe ≠ some pipe := by
          intro ofPipe
          cases ofNewest.symm.trans ofPipe
          exact Nat.lt_irrefl _ (numbered.pipes number _ made)
        have once : (system.setFd task.proc read
            (some { file := .readEnd system.nextPipe, cloexec := true })).Owns other.proc number
              found.progress :=
          others.setFd (unheld read readFree) fun installed pipe same made =>
            newest installed pipe (by cases same; rfl) made
        have twice : ((system.setFd task.proc read
            (some { file := .readEnd system.nextPipe, cloexec := true })).setFd task.proc write
            (some { file := .writeEnd system.nextPipe, cloexec := true })).Owns other.proc number
              found.progress :=
          once.setFd (unheld write writeFree) fun installed pipe same made =>
            newest installed pipe (by cases same; rfl) made
        exact twice.frame rfl (Function.update_of_ne distinct ..) rfl rfl
    | closed holds =>
        refine others.setFd (fun same also => ?_) fun _ _ same => nomatch same
        obtain ⟨pipe, entry, made, placed, ofPipe⟩ := owns.held holds
        obtain ⟨pipe', entry', made', placed', ofPipe'⟩ := others.held also
        rw [same] at placed'
        cases placed.symm.trans placed'
        cases ofPipe.symm.trans ofPipe'
        exact distinct (numbered.separate number call pipe made' made)
    | cloned => exact others.frame (Function.update_of_ne older.ne ..) rfl rfl rfl
  constructor
  · intro other number found inFlight
    rcases inFlight.of_callEffect threaded runs effect with
      ⟨rfl, rfl, rfl⟩ | ⟨_, distinct, earlier⟩
    · exact own.frame rfl rfl rfl rfl
    · exact (foreign other number found distinct earlier).frame rfl rfl rfl rfl
  · intro other number found inFlight
    have same : after.cachedStacks found.block = system.cachedStacks found.block := by
      rw [effect.cachedStacks]
    rcases inFlight.of_callEffect threaded runs effect with
      ⟨rfl, rfl, rfl⟩ | ⟨_, _, earlier⟩
    · exact same.trans (calls.stack _ _ record self)
    · exact same.trans (calls.stack _ _ found earlier)

theorem frame (calls : system.CallsOwn) (control : ∀ other number rest,
      after.control other = .inCall number rest → system.control other = .inCall number rest)
    (known : after.calls = system.calls) (cachedStacks : after.cachedStacks = system.cachedStacks)
    (fds : ∀ other number rest, after.control other = .inCall number rest →
      after.fds other.proc = system.fds other.proc)
    (pipeOf : after.pipeOf = system.pipeOf) : after.CallsOwn where
  owns other number record inFlight := by
    obtain ⟨⟨rest, running⟩, found⟩ := inFlight
    rw [known] at found
    have owns := calls.owns other number record ⟨⟨rest, control _ _ _ running⟩, found⟩
    exact owns.frame (fds _ _ _ running) (by rw [pipeOf]) rfl rfl
  stack other number record inFlight := by
    obtain ⟨⟨rest, running⟩, found⟩ := inFlight
    rw [known] at found
    rw [cachedStacks]
    exact calls.stack other number record ⟨⟨rest, control _ _ _ running⟩, found⟩

theorem setControl {control : Control} (calls : system.CallsOwn)
    (idle : ∀ number rest, control ≠ .inCall number rest) :
    (system.setControl task control).CallsOwn := by
  refine calls.frame (fun other number rest running => ?_) rfl rfl (fun _ _ _ _ => rfl) rfl
  exact control_of_update (idle number rest) running

theorem startCall {kind : CallKind} {block : Nat} {pid : Int} {code : Program SysCalls Int}
    (calls : system.CallsOwn) (numbered : system.Numbered) :
    (system.startCall task kind block pid code).CallsOwn := by
  have new {other : TaskId} {number : Nat} {record : CallRecord}
      (inFlight : (system.startCall task kind block pid code).InFlight other number record) :
      number = system.nextCall ∨ system.InFlight other number record := by
    obtain ⟨⟨rest, running⟩, known⟩ := inFlight
    simp only [System.startCall, Function.update_apply] at running known
    split at known
    · rename_i same
      exact .inl same
    · rename_i old
      split at running
      · cases running
        exact absurd rfl old
      · exact .inr ⟨⟨rest, running⟩, known⟩
  constructor
  · intro other number record inFlight
    rcases new inFlight with rfl | earlier
    · cases (Function.update_self ..).symm.trans inFlight.known
      have unopened := (numbered.uncalled system.nextCall (Nat.le_refl _)).2
      refine ⟨fun _ => unopened, fun pipefd opened => ?_, fun pipe made => ?_⟩
      · cases opened
      · cases unopened.symm.trans made
    · exact (calls.owns other number record earlier).frame rfl rfl rfl rfl
  · intro other number record inFlight
    rcases new inFlight with rfl | earlier
    · cases (Function.update_self ..).symm.trans inFlight.known
      rfl
    · exact calls.stack other number record earlier

theorem userStep {op : UserOp} (calls : system.CallsOwn)
    (considerate : ∀ other call record, system.InFlight other call record →
      op.writesStack record.block = false ∧
        (other.proc = task.proc → ∀ fd, record.progress.Holds fd → op.touches fd = false))
    (stepped : system.userStep task op = some next) : next.CallsOwn := by
  cases op with
  | close fd =>
      cases stepped
      refine ⟨fun other number record inFlight => ?_, fun other number record inFlight =>
        calls.stack other number record { inFlight with }⟩
      have inFlight : system.InFlight other number record := { inFlight with }
      obtain ⟨_, untouched⟩ := considerate other number record inFlight
      refine (calls.owns other number record inFlight).setFd (fun same holds => ?_)
        fun _ _ same => nomatch same
      simpa [UserOp.touches] using untouched same fd holds
  | «open» fd file cloexec =>
      simp only [System.userStep] at stepped
      split at stepped
      · rename_i free
        cases stepped
        refine ⟨fun other number record inFlight => ?_, fun other number record inFlight =>
          calls.stack other number record { inFlight with }⟩
        have inFlight : system.InFlight other number record := { inFlight with }
        have owns := calls.owns other number record inFlight
        refine owns.setFd (fun same holds => ?_) fun installed pipe same _ ofPipe => ?_
        · obtain ⟨_, _, _, placed, _⟩ := owns.held holds
          rw [same, free] at placed
          cases placed
        · cases same
          cases ofPipe
      · cases stepped
  | dup old new cloexec =>
      simp only [System.userStep] at stepped
      split at stepped
      · cases stepped
      · rename_i entry copied
        cases stepped
        refine ⟨fun other number record inFlight => ?_, fun other number record inFlight =>
          calls.stack other number record { inFlight with }⟩
        have inFlight : system.InFlight other number record := { inFlight with }
        obtain ⟨_, untouched⟩ := considerate other number record inFlight
        have owns := calls.owns other number record inFlight
        by_cases same : other.proc = task.proc
        · refine owns.setFd (fun _ holds => ?_) fun installed pipe installs made ofPipe => ?_
          · simpa [UserOp.touches] using untouched same new holds
          · cases installs
            have source := (owns.table pipe made old entry).mp ⟨same ▸ copied, ofPipe⟩
            have holds := Progress.holds_iff.mpr ⟨entry, source⟩
            simpa [UserOp.touches] using untouched same old holds
        · exact owns.frame (Function.update_of_ne same ..) rfl rfl rfl
  | setStack block stack =>
      cases stepped
      refine ⟨fun other number record inFlight => ?_, fun other number record inFlight => ?_⟩
      · exact (calls.owns other number record { inFlight with }).frame rfl rfl rfl rfl
      · have inFlight : system.InFlight other number record := { inFlight with }
        have unwritten := (considerate other number record inFlight).1
        have distinct : record.block ≠ block := by simpa [UserOp.writesStack] using unwritten
        simpa [distinct] using calls.stack other number record inFlight
  | setMask | setAction | setCancel =>
      cases stepped
      exact calls.frame (fun _ _ _ running => running) rfl rfl (fun _ _ _ _ => rfl) rfl

theorem startingStep {ptr : ArgsPtr} {before progress : ChildProgress}
    {remaining : Program SysCalls ChildStart} {request : SysRequest}
    (calls : system.CallsOwn) (threaded : system.Threaded) (child : proc ≠ 0)
    (effect : ChildEffect system proc ptr before request progress after) :
    (after.setControl (mainTask proc) (.starting progress remaining)).CallsOwn := by
  have elsewhere (other : TaskId) (number : Nat) (rest : Program SysCalls Int)
      (running : (system.setControl (mainTask proc) (.starting progress remaining)).control
        other = .inCall number rest) :
      system.control other = .inCall number rest ∧ other.proc ≠ proc := by
    have distinct : other ≠ mainTask proc := by
      rintro rfl
      cases setControl_self.symm.trans running
    rw [setControl_of_ne distinct] at running
    exact ⟨running, threaded.proc_ne child (by rw [running]; rfl) distinct⟩
  cases effect with
  | loaded => exact calls.setControl fun _ _ same => nomatch same
  | closed =>
      refine calls.frame (fun other number rest running => (elsewhere _ _ _ running).1) rfl rfl
        (fun other number rest running => ?_) rfl
      exact Function.update_of_ne (elsewhere _ _ _ running).2 ..
  | cleared =>
      exact calls.frame (fun other number rest running => (elsewhere _ _ _ running).1) rfl rfl
        (fun _ _ _ _ => rfl) rfl

theorem finish {record : CallRecord} {rest : Program SysCalls Int} {result : Int}
    (calls : system.CallsOwn) (threaded : system.Threaded)
    (runs : system.Runs task call rest record) :
    ((system.setCall call { record with returned := some result }).setControl task
      .user).CallsOwn := by
  have old {other : TaskId} {number : Nat} {found : CallRecord}
      (inFlight : ((system.setCall call { record with returned := some result }).setControl task
        .user).InFlight other number found) : system.InFlight other number found := by
    obtain ⟨different, ⟨rest', running⟩, known⟩ :=
      inFlight.of_setControl fun _ _ same => nomatch same
    obtain ⟨before, beforeRuns⟩ := threaded.inCall other number rest' running
    have distinct : number ≠ call := by
      rintro rfl
      cases runs.known.symm.trans beforeRuns.known
      exact different (beforeRuns.caller.symm.trans runs.caller)
    exact ⟨⟨rest', running⟩, (setCall_of_ne distinct).symm.trans known⟩
  exact ⟨fun other number found inFlight =>
      (calls.owns other number found (old inFlight)).frame rfl rfl rfl rfl,
    fun other number found inFlight => calls.stack other number found (old inFlight)⟩

theorem leave {phase : Phase} {table : FdTable} (calls : system.CallsOwn)
    (threaded : system.Threaded) (child : proc ≠ 0) :
    (system.leave proc phase table).CallsOwn := by
  have elsewhere (other : TaskId) (number : Nat) (rest : Program SysCalls Int)
      (running : (system.leave proc phase table).control other = .inCall number rest) :
      system.control other = .inCall number rest ∧ other.proc ≠ proc := by
    have distinct : other ≠ mainTask proc := by
      rintro rfl
      cases (Function.update_self ..).symm.trans running
    have running : system.control other = .inCall number rest :=
      (Function.update_of_ne distinct ..).symm.trans running
    exact ⟨running, threaded.proc_ne child (by rw [running]; rfl) distinct⟩
  refine calls.frame (fun other number rest running => (elsewhere _ _ _ running).1) rfl rfl
    (fun other number rest running => ?_) rfl
  exact Function.update_of_ne (elsewhere _ _ _ running).2 ..

theorem of_change {action : Action} (calls : system.CallsOwn) (wellFormed : system.WellFormed)
    (considerate : system.LeavesCallsAlone action) (change : system.Change action next) :
    next.CallsOwn := by
  have threaded := wellFormed.threaded
  cases change with
  | call running runs effect => exact calls.callStep wellFormed running runs effect
  | starting _ born effect =>
      exact calls.startingStep threaded (wellFormed.numbered.born_ne_root born) effect
  | started => exact calls.startCall wellFormed.numbered
  | finish running runs => exact calls.finish threaded runs
  | enter => exact calls.setControl fun _ _ same => nomatch same
  | user user stepped => exact calls.userStep (considerate _ _ rfl) stepped
  | left child => exact calls.leave threaded child
  | raise | deliver =>
      exact calls.frame (fun _ _ _ running => running) rfl rfl (fun _ _ _ _ => rfl) rfl

end CallsOwn

end System

end Aspawn
