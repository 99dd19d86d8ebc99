import Aspawn.Spawn.Protocol

/-! The code of `aspawn.c` keeps to its protocols, whatever the answers it gets. -/

set_option autoImplicit false

namespace Aspawn

open Protocol

/-! ## One rule for each request of the parent -/

section Rules

variable {α : Type} {kind : CallKind} {block : Nat} {progress : Progress}
  {final : Progress → α → Prop}

theorem conforms_setcancelstate {state : CancelState}
    {next : CancelState → Program SysCalls α}
    (rest : (callProtocol kind block).Conforms final { progress with cancel := state }
      (next progress.cancel)) :
    (callProtocol kind block).Conforms final progress
      (sysCall (.setcancelstate state) >>= next) :=
  conforms_call.mpr ⟨trivial, fun old answered => by cases answered; exact rest⟩

theorem conforms_sigBlockall {oldset : SigsetT}
    {next : Int × Option SigsetT → Program SysCalls α}
    (failed : ∀ result, IsError result →
      (callProtocol kind block).Conforms final progress (next (result, some oldset)))
    (blocked : (callProtocol kind block).Conforms final { progress with mask := .full }
      (next (0, some (progress.mask.write oldset)))) :
    (callProtocol kind block).Conforms final progress (sigBlockall oldset >>= next) := by
  refine conforms_call.mpr ⟨trivial, fun response answered => ?_⟩
  obtain ⟨result, written⟩ := response
  rcases answered with ⟨error, _, rfl⟩ | ⟨rfl, rfl⟩
  · have kept : (callProtocol kind block).after progress
        (.sigprocmask .block pureSigfillset (some oldset)) (result, some oldset) = progress :=
      if_neg error.negative.ne
    rw [kept]
    exact failed result error
  · have full : (callProtocol kind block).after progress
        (.sigprocmask .block pureSigfillset (some oldset))
          (0, some (progress.mask.write oldset)) = { progress with mask := .full } := by
      simp [callProtocol, MaskHow.apply]
    rw [Option.map_some, full]
    exact blocked

theorem conforms_sigSetmask {set : SigsetT} {next : Int → Program SysCalls α}
    (restored : (callProtocol kind block).Conforms final
      { progress with mask := .ofBits (Sigmask.read set) } (next 0)) :
    (callProtocol kind block).Conforms final progress (sigSetmask set >>= next) := by
  refine conforms_call.mpr ⟨trivial, fun response answered => ?_⟩
  obtain ⟨result, written⟩ := response
  rcases answered with ⟨_, blocking, _⟩ | ⟨rfl, rfl⟩
  · cases blocking
  · exact restored

theorem conforms_createCloexecPipe {next : Except Int (Nat × Nat) → Program SysCalls α}
    (none : progress.pipefd = none)
    (failed : ∀ result, IsError result →
      (callProtocol kind block).Conforms final progress (next (.error result)))
    (opened : ∀ pipefd : Nat × Nat, pipefd.1 ≠ pipefd.2 →
      (callProtocol kind block).Conforms final
        { progress with pipefd := some pipefd, readOpen := true, writeOpen := true }
        (next (.ok pipefd))) :
    (callProtocol kind block).Conforms final progress (createCloexecPipe >>= next) := by
  refine conforms_call.mpr ⟨⟨rfl, none⟩, fun response answered => ?_⟩
  cases response with
  | error result => exact failed result answered
  | ok pipefd => exact opened pipefd answered

theorem conforms_loadStack {next : StackT → Program SysCalls α}
    (rest : ∀ stack, (callProtocol kind block).Conforms final progress (next stack)) :
    (callProtocol kind block).Conforms final progress (loadStack block >>= next) :=
  conforms_call.mpr ⟨rfl, fun stack _ => rest stack⟩

theorem conforms_storeArgs {ptr : ArgsPtr} {args : ChildArgs}
    {next : Unit → Program SysCalls α} (same : ptr.block = block)
    (pipe : progress.pipefd = some args.pipefd) (readOpen : progress.readOpen)
    (writeOpen : progress.writeOpen) (childless : progress.child = none)
    (rest : (callProtocol kind block).Conforms final { progress with args := some args }
      (next ())) :
    (callProtocol kind block).Conforms final progress (storeArgs ptr args >>= next) :=
  conforms_call.mpr ⟨⟨same, pipe, readOpen, writeOpen, childless⟩, fun _ _ => rest⟩

theorem conforms_loadFlag {next : Bool → Program SysCalls α}
    (rest : ∀ flag, (callProtocol kind block).Conforms final progress (next flag)) :
    (callProtocol kind block).Conforms final progress (loadFlag >>= next) :=
  conforms_call.mpr ⟨trivial, fun flag _ => rest flag⟩

theorem conforms_storeFlag {value : Bool} {next : Unit → Program SysCalls α}
    (rest : (callProtocol kind block).Conforms final progress (next ())) :
    (callProtocol kind block).Conforms final progress (storeFlag value >>= next) :=
  conforms_call.mpr ⟨trivial, fun _ _ => rest⟩

theorem conforms_cloneInternal {args : ArgsPtr} {stack : StackT}
    {next : Int → Program SysCalls α} (mayClone : progress.MayClone kind)
    (same : args.block = block)
    (rest : ∀ newPid, 0 < newPid ∨ IsError newPid → (callProtocol kind block).Conforms final
      ({ progress with cloneResult := some newPid }.cloned newPid) (next newPid)) :
    (callProtocol kind block).Conforms final progress
      (cloneInternal .aspawnChildClearSighand args stack >>= next) :=
  conforms_call.mpr ⟨⟨mayClone, same, rfl, rfl⟩, rest⟩

theorem conforms_cloneClearSighandInternal {args : ArgsPtr} {stack : StackT}
    {next : Int → Program SysCalls α} (mayClone : progress.MayClone kind)
    (same : args.block = block)
    (rest : ∀ newPid, 0 < newPid ∨ IsError newPid → (callProtocol kind block).Conforms final
      ({ progress with clone3Result := some newPid }.cloned newPid) (next newPid)) :
    (callProtocol kind block).Conforms final progress
      (cloneClearSighandInternal .aspawnChild args stack >>= next) :=
  conforms_call.mpr ⟨⟨mayClone, same, rfl⟩, rest⟩

theorem conforms_storePid {pid : Int} {next : Unit → Program SysCalls α}
    (child : progress.child = some pid)
    (rest : (callProtocol kind block).Conforms final { progress with pid } (next ())) :
    (callProtocol kind block).Conforms final progress (storePid pid >>= next) :=
  conforms_call.mpr ⟨child, fun _ _ => rest⟩

theorem conforms_psysClose {fd : Nat} {next : Int → Program SysCalls α}
    (holds : progress.Holds fd)
    (rest : ∀ result, (callProtocol kind block).Conforms final (progress.closed fd)
      (next result)) :
    (callProtocol kind block).Conforms final progress (psysClose fd >>= next) :=
  conforms_call.mpr ⟨holds, fun result _ => rest result⟩

end Rules

/-! ## The parent -/

section Closed

variable {progress : Progress} {fd : Nat}

@[simp] theorem Progress.closed_cancel : (progress.closed fd).cancel = progress.cancel := by
  unfold closed
  split <;> rfl

@[simp] theorem Progress.closed_mask : (progress.closed fd).mask = progress.mask := by
  unfold closed
  split <;> rfl

@[simp] theorem Progress.closed_pipefd : (progress.closed fd).pipefd = progress.pipefd := by
  unfold closed
  split <;> rfl

@[simp] theorem Progress.closed_args : (progress.closed fd).args = progress.args := by
  unfold closed
  split <;> rfl

@[simp] theorem Progress.closed_clone3Result :
    (progress.closed fd).clone3Result = progress.clone3Result := by
  unfold closed
  split <;> rfl

@[simp] theorem Progress.closed_cloneResult :
    (progress.closed fd).cloneResult = progress.cloneResult := by
  unfold closed
  split <;> rfl

@[simp] theorem Progress.closed_child : (progress.closed fd).child = progress.child := by
  unfold closed
  split <;> rfl

/-- Arguments are placed by `storeArgs` only. -/
theorem args_of_after (kind : CallKind) (block : Nat) {request : SysRequest}
    {response : request.Response} {args : ChildArgs}
    (placed : ((callProtocol kind block).after progress request response).args = some args) :
    progress.args = some args ∨ ∃ ptr, request = .storeArgs ptr args := by
  cases request with
  | storeArgs ptr other =>
      cases placed
      exact .inr ⟨ptr, rfl⟩
  | close fd => exact .inl (Progress.closed_args ▸ placed)
  | pipe2 flags => cases response <;> exact .inl placed
  | sigprocmask how set oldset =>
      simp only [callProtocol] at placed
      split at placed <;> exact .inl placed
  | _ => exact .inl placed

end Closed

variable {kind : CallKind} {block : Nat} {progress start : Progress}

/-- What is known once the `switch` in `aspawn_impl` has yielded `newPid`. -/
structure Progress.Cloned (start final : Progress) (newPid : Int) : Prop where
  answer : 0 < newPid ∨ IsError newPid
  cancel : final.cancel = start.cancel
  mask : final.mask = start.mask
  pid : final.pid = start.pid
  pipefd : final.pipefd = start.pipefd
  readOpen : final.readOpen = start.readOpen
  writeOpen : final.writeOpen = start.writeOpen
  child : final.child = if 0 < newPid then some newPid else none
  refused : ∀ refusal, final.clone3Result = some refusal →
    refusal = -ENOSYS ∨ refusal = -EINVAL → final.cloneResult = some newPid

/-- A `clone` after a `clone3` that failed or was not tried. -/
theorem Progress.cloned_of_clone {newPid : Int} {earlier : Option Int}
    (childless : progress.child = none) (answer : 0 < newPid ∨ IsError newPid) :
    progress.Cloned
      ({ progress with clone3Result := earlier, cloneResult := some newPid }.cloned newPid)
      newPid where
  answer := answer
  cancel := rfl
  mask := rfl
  pid := rfl
  pipefd := rfl
  readOpen := rfl
  writeOpen := rfl
  child := by rw [cloned, childless]
  refused _ _ _ := rfl

theorem cloneChild_conforms {args : ArgsPtr} {stack : StackT}
    {next : Int → Program SysCalls Int} {final : Progress → Int → Prop}
    (mayClone : progress.MayClone kind) (same : args.block = block)
    (rest : ∀ after newPid, progress.Cloned after newPid →
      (callProtocol kind block).Conforms final after (next newPid)) :
    (callProtocol kind block).Conforms final progress (cloneChild args stack >>= next) := by
  unfold cloneChild
  rw [if_neg (by decide), Program.bind_assoc]
  refine conforms_loadFlag fun flag => ?_
  cases flag with
  | true =>
      refine conforms_cloneInternal mayClone same fun newPid answer => ?_
      exact rest _ _ (Progress.cloned_of_clone mayClone.childless answer)
  | false =>
      rw [if_neg (by decide), Program.bind_assoc]
      refine conforms_cloneClearSighandInternal mayClone same fun newPid answer => ?_
      by_cases exists3 : newPid ≠ -ENOSYS ∧ newPid ≠ -EINVAL
      · rw [if_pos exists3]
        refine rest _ _ ⟨answer, rfl, rfl, rfl, rfl, rfl, rfl, ?_, fun refusal refused => ?_⟩
        · rw [Progress.cloned, mayClone.childless]
        · cases Option.some.inj refused
          exact fun absent => absurd absent (not_or.mpr exists3)
      · -- `clone3` does not exist here
        have failed : ¬ 0 < newPid := by
          simp only [ENOSYS, EINVAL] at exists3
          omega
        have unchanged : { progress with clone3Result := some newPid }.cloned newPid =
            { progress with clone3Result := some newPid } := by
          rw [Progress.cloned, if_neg failed]
        rw [if_neg exists3, Program.bind_assoc, unchanged]
        refine conforms_storeFlag ?_
        refine conforms_cloneInternal ⟨mayClone.placed, mayClone.pipe, mayClone.readOpen,
          mayClone.writeOpen, mayClone.childless, mayClone.masked⟩ same fun result answer => ?_
        exact rest _ _ (Progress.cloned_of_clone mayClone.childless answer)

theorem finishImpl_conforms {pipefd : Nat × Nat} {newPid : Int}
    (cloned : start.Cloned progress newPid) (pipe : start.pipefd = some pipefd)
    (distinct : pipefd.1 ≠ pipefd.2) (readOpen : start.readOpen) (writeOpen : start.writeOpen) :
    (callProtocol kind block).Conforms start.Finished progress (finishImpl pipefd newPid) := by
  have pipe : progress.pipefd = some pipefd := cloned.pipefd.trans pipe
  have readOpen : progress.readOpen := cloned.readOpen ▸ readOpen
  have writeOpen : progress.writeOpen := cloned.writeOpen ▸ writeOpen
  have child := cloned.child
  unfold finishImpl
  rcases cloned.answer with success | failed
  · rw [if_pos success] at child
    rw [if_pos (le_of_lt success)]
    refine conforms_storePid child (conforms_psysClose ⟨pipefd, pipe, .inr ⟨rfl, writeOpen⟩⟩
      fun _ => ?_)
    refine ⟨?_, ?_, ?_, fun _ => ⟨pipefd, newPid, ?_⟩, fun negative => ?_, ?_⟩
    · simp [cloned.cancel]
    · simp [cloned.mask]
    · simp [Progress.closed, pipe]
    · simp [Progress.closed, pipe, readOpen, distinct.symm, child]
    · exact absurd negative (Int.not_lt.mpr (Int.natCast_nonneg _))
    · intro refusal refused absent
      refine ⟨newPid, ?_, fun negative => ?_⟩
      · have kept := cloned.refused refusal (by simpa [Progress.closed, pipe] using refused) absent
        simpa [Progress.closed, pipe] using kept
      · exact absurd negative (Int.not_lt.mpr (Int.natCast_nonneg _))
  · have negative := failed.negative
    rw [if_neg (by omega)] at child
    rw [if_neg (by omega)]
    refine conforms_psysClose ⟨pipefd, pipe, .inl ⟨rfl, readOpen⟩⟩ fun _ => ?_
    have writeHeld : (progress.closed pipefd.1).Holds pipefd.2 :=
      ⟨pipefd, by simp [Progress.closed, pipe],
        .inr ⟨rfl, by simp [Progress.closed, pipe, writeOpen, distinct]⟩⟩
    refine conforms_psysClose writeHeld fun _ => ?_
    refine ⟨?_, ?_, ?_, fun positive => by omega, fun _ => ⟨failed, ?_⟩, ?_⟩
    · simp [cloned.cancel]
    · simp [cloned.mask]
    · simp [Progress.closed, pipe]
    · simp [Progress.closed, pipe, child, cloned.pid]
    · intro refusal refused absent
      refine ⟨newPid, ?_, fun _ => rfl⟩
      have kept := cloned.refused refusal (by simpa [Progress.closed, pipe] using refused) absent
      simpa [Progress.closed, pipe] using kept

/-- Nothing done yet. -/
structure Progress.Fresh (progress : Progress) : Prop where
  pipefd : progress.pipefd = none
  readOpen : progress.readOpen = false
  writeOpen : progress.writeOpen = false
  clone3Result : progress.clone3Result = none
  child : progress.child = none

theorem Progress.fresh_start {cancel : CancelState} {mask : Sigmask} {pid : Int} :
    (Progress.start cancel mask pid).Fresh :=
  ⟨rfl, rfl, rfl, rfl, rfl⟩

theorem aspawnImpl_conforms {fn arg : Nat} {oldSigset : SigsetT} (fresh : progress.Fresh)
    (masked : kind = .aspawn → progress.mask = .full) :
    (callProtocol kind block).Conforms progress.Finished progress
      (aspawnImpl block fn arg oldSigset) := by
  unfold aspawnImpl
  refine conforms_createCloexecPipe fresh.pipefd (fun result failed => ?_)
    fun pipefd distinct => ?_
  · refine conforms_done.mpr ⟨rfl, rfl, fresh.writeOpen, fun positive => ?_, fun _ => ?_, ?_⟩
    · have negative := failed.negative
      omega
    · exact ⟨failed, fresh.child, fresh.readOpen, rfl⟩
    · intro refusal refused
      rw [fresh.clone3Result] at refused
      cases refused
  · refine conforms_loadStack fun stack => ?_
    refine conforms_storeArgs rfl rfl rfl rfl fresh.child ?_
    refine cloneChild_conforms ⟨rfl, rfl, rfl, rfl, fresh.child, masked⟩ rfl
      fun after newPid cloned => ?_
    refine (finishImpl_conforms cloned rfl distinct rfl rfl).mono fun finished => ?_
    exact ⟨finished.cancel, finished.mask, finished.writeClosed, finished.success,
      finished.failure, finished.refused⟩

theorem aspawn_conforms {fn arg : Nat} {oldset : SigsetT} (fresh : progress.Fresh) :
    (callProtocol .aspawn block).Conforms progress.Finished progress
      (aspawn block fn arg oldset) := by
  unfold aspawn
  refine conforms_setcancelstate (conforms_sigBlockall (fun result failed => ?_) ?_)
  · -- nothing has happened when the signals cannot be blocked
    simp only [if_neg failed.negative.ne]
    refine conforms_setcancelstate ?_
    refine conforms_done.mpr ⟨rfl, rfl, fresh.writeOpen, fun positive => ?_, fun _ => ?_, ?_⟩
    · have negative := failed.negative
      omega
    · exact ⟨failed, fresh.child, fresh.readOpen, rfl⟩
    · intro refusal refused
      rw [fresh.clone3Result] at refused
      cases refused
  · simp only [if_pos]
    rw [conforms_bind]
    have blocked : ({ progress with cancel := .disable, mask := .full } : Progress).Fresh :=
      ⟨fresh.pipefd, fresh.readOpen, fresh.writeOpen, fresh.clone3Result, fresh.child⟩
    refine (aspawnImpl_conforms blocked fun _ => rfl).mono fun finished => ?_
    refine conforms_sigSetmask (conforms_setcancelstate ?_)
    refine conforms_done.mpr ⟨rfl, ?_, finished.writeClosed, finished.success,
      finished.failure, finished.refused⟩
    simp

theorem aspawnRec_conforms {fn arg : Nat} {oldSigset : SigsetT} (fresh : progress.Fresh) :
    (callProtocol .aspawnRec block).Conforms progress.Finished progress
      (aspawnRec block fn arg oldSigset) :=
  aspawnImpl_conforms fresh fun same => nomatch same

/-! ## The child -/

section Child

variable {α : Type} {child : ChildProgress} {ptr : ArgsPtr}

theorem conforms_loadArgs {final : ChildProgress → α → Prop}
    {next : ChildArgs → Program SysCalls α}
    (rest : ∀ args, (childProtocol ptr).Conforms final { child with loaded := some args }
      (next args)) :
    (childProtocol ptr).Conforms final child (loadArgs ptr >>= next) :=
  conforms_call.mpr ⟨rfl, fun args _ => rest args⟩

theorem conforms_closeReadEnd {args : ChildArgs} {final : ChildProgress → α → Prop}
    {next : Int → Program SysCalls α} (loaded : child.loaded = some args)
    (rest : ∀ result, (childProtocol ptr).Conforms final child (next result)) :
    (childProtocol ptr).Conforms final child (psysClose args.pipefd.1 >>= next) :=
  conforms_call.mpr ⟨⟨args, loaded, rfl⟩, fun result _ => rest result⟩

theorem aspawnChild_conforms (cleared : ∀ signal, child.cleared signal) :
    (childProtocol ptr).Conforms ChildProgress.Ready child (aspawnChild ptr) := by
  refine conforms_loadArgs fun args => conforms_closeReadEnd rfl fun ret => ?_
  by_cases failed : ret < 0
  · rw [if_pos (by simp [NDEBUG, failed])]
    exact conforms_done.mpr trivial
  · rw [if_neg (by simp [failed])]
    refine conforms_loadArgs fun args => conforms_done.mpr ?_
    exact ⟨⟨args.pipefd.1, rfl⟩, cleared⟩

theorem clearHandlersFrom_conforms {left sig : Nat} {next : Unit → Program SysCalls α}
    {final : ChildProgress → α → Prop}
    (rest : ∀ after : ChildProgress,
      (∀ signal, child.cleared signal ∨ sig ≤ signal.val + 1 ∧ signal.val + 1 < sig + left →
        after.cleared signal) →
      (childProtocol ptr).Conforms final after (next ())) :
    (childProtocol ptr).Conforms final child (clearHandlersFrom left sig >>= next) := by
  induction left generalizing sig child with
  | zero =>
      refine rest child fun signal earlier => ?_
      rcases earlier with before | ⟨low, high⟩
      · exact before
      · omega
  | succ left ih =>
      refine conforms_call.mpr ⟨rfl, fun _ _ => ?_⟩
      refine ih fun after clears => rest after fun signal earlier => clears signal ?_
      rcases earlier with before | ⟨low, high⟩
      · exact .inl (by simp [childProtocol, before])
      · by_cases here : signal.val + 1 = sig
        · exact .inl (by simp [childProtocol, here])
        · exact .inr ⟨by omega, by omega⟩

theorem aspawnChildClearSighand_conforms :
    (childProtocol ptr).Conforms ChildProgress.Ready child (aspawnChildClearSighand ptr) := by
  refine clearHandlersFrom_conforms fun after clears => aspawnChild_conforms fun signal => ?_
  have inside := signal.isLt
  exact clears signal (.inr ⟨by omega, by simp [NSIG]; omega⟩)

theorem childEntry_conforms {entry : ChildEntry} :
    (childProtocol ptr).Conforms ChildProgress.Ready entry.progress (entry.program ptr) := by
  cases entry with
  | aspawnChild => exact aspawnChild_conforms fun _ => rfl
  | aspawnChildClearSighand => exact aspawnChildClearSighand_conforms

end Child

end Aspawn
