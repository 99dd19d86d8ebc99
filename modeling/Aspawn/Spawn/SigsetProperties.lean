import Aspawn.Spawn.StackReuseProperties

/-! The `old_sigset` given to each `aspawn_fn`: where its 128 bytes come from, through any
nesting of `aspawn_rec` calls. -/

set_option autoImplicit false

namespace Aspawn

open Protocol Transition

/-! ## Masks as objects -/

/-- A bit is set iff it stands for a signal that the mask blocks. -/
def Sigmask.Faithful (mask : Sigmask) (set : SigsetT) : Prop :=
  ∀ index, set.getLsbD index = true ↔ ∃ signal : Signal, signal.val = index ∧ mask.blocks signal

theorem Sigmask.getLsbD_write (mask : Sigmask) (object : SigsetT) (index : Nat) :
    (mask.write object).getLsbD index =
      if index < 64 then mask.bits.getLsbD index else object.getLsbD index := by
  have low (inside : index < 64) : index < 1024 := inside.trans (by decide)
  by_cases inside : index < 64
  · simp [write, inside, low inside]
  · have back : 64 + (index - 64) = index := by omega
    have none : mask.bits.getLsbD index = false := BitVec.getLsbD_of_ge _ _ (by omega)
    by_cases within : index < 1024
    · simp only [write, BitVec.getLsbD_or, BitVec.getLsbD_shiftLeft, BitVec.getLsbD_ushiftRight,
        BitVec.getLsbD_setWidth, inside, within, none, back, decide_true, decide_false,
        Bool.not_false, Bool.true_and, Bool.and_false, Bool.or_false, if_false]
    · have outside : object.getLsbD index = false := BitVec.getLsbD_of_ge _ _ (by omega)
      simp [write, inside, within, outside]

theorem Sigmask.faithful_write_iff {mask : Sigmask} {object : SigsetT} :
    mask.Faithful (mask.write object) ↔ object >>> 64 = 0 := by
  constructor
  · intro faithful
    apply BitVec.eq_of_getLsbD_eq
    intro index _
    have written := mask.getLsbD_write object (64 + index)
    rw [if_neg (by omega)] at written
    have zero : (0 : SigsetT).getLsbD index = false := BitVec.getLsbD_zero
    rw [BitVec.getLsbD_ushiftRight, ← written, zero, Bool.eq_false_iff]
    intro set
    obtain ⟨signal, same, _⟩ := (faithful _).mp set
    have bound := signal.isLt
    omega
  · intro clear index
    rw [getLsbD_write]
    by_cases inside : index < 64
    · rw [if_pos inside]
      exact ⟨fun set => ⟨⟨index, inside⟩, rfl, set⟩, fun ⟨signal, same, set⟩ => same ▸ set⟩
    · have back : 64 + (index - 64) = index := by omega
      have unset : object.getLsbD index = false := by
        have shifted : (object >>> 64).getLsbD (index - 64) = (0 : SigsetT).getLsbD (index - 64) :=
          congrArg (BitVec.getLsbD · (index - 64)) clear
        rw [BitVec.getLsbD_ushiftRight, back] at shifted
        exact shifted.trans BitVec.getLsbD_zero
      rw [if_neg inside, unset]
      constructor
      · exact fun set => nomatch set
      · rintro ⟨signal, same, _⟩
        exact absurd signal.isLt (same ▸ inside)

/-! ## What a call stores -/

/-- As the protocol of a call, where the call may only store arguments with this
`old_sigset`. -/
def sigsetProtocol (expected : SigsetT) (kind : CallKind) (block : Nat) :
    Protocol SysCalls Progress where
  permits _ request := ∀ ptr args, request = .storeArgs ptr args → args.oldSigset = expected
  answers := (callProtocol kind block).answers
  after := (callProtocol kind block).after

section Stores

variable {α : Type} {expected : SigsetT} {kind : CallKind} {block : Nat} {progress : Progress}
  {final : Progress → α → Prop}

theorem sigset_conforms_other {request : SysRequest}
    {next : request.Response → Program SysCalls α}
    (other : ∀ ptr args, request ≠ .storeArgs ptr args)
    (rest : ∀ response progress,
      (sigsetProtocol expected kind block).Conforms final progress (next response)) :
    (sigsetProtocol expected kind block).Conforms final progress (sysCall request >>= next) :=
  conforms_call.mpr ⟨fun ptr args same => absurd same (other ptr args),
    fun response _ => rest response _⟩

theorem sigset_conforms_cloneChild {args : ArgsPtr} {stack : StackT}
    {next : Int → Program SysCalls α}
    (rest : ∀ progress newPid,
      (sigsetProtocol expected kind block).Conforms final progress (next newPid)) :
    (sigsetProtocol expected kind block).Conforms final progress
      (cloneChild args stack >>= next) := by
  have cloneRest (progress : Progress) : (sigsetProtocol expected kind block).Conforms final
      progress (cloneInternal .aspawnChildClearSighand args stack >>= next) :=
    sigset_conforms_other (fun _ _ => nofun) fun newPid after => rest after newPid
  unfold cloneChild
  rw [if_neg (by decide), Program.bind_assoc]
  refine sigset_conforms_other (fun _ _ => nofun) fun flag after => ?_
  cases flag with
  | true => exact cloneRest after
  | false =>
      rw [if_neg (by decide), Program.bind_assoc]
      refine sigset_conforms_other (fun _ _ => nofun) fun newPid after => ?_
      split
      · exact rest after newPid
      · rw [Program.bind_assoc]
        exact sigset_conforms_other (fun _ _ => nofun) fun _ after => cloneRest after

theorem sigset_conforms_finishImpl {pipefd : Nat × Nat} {newPid : Int} :
    (sigsetProtocol expected kind block).Conforms (fun _ _ => True) progress
      (finishImpl pipefd newPid) := by
  unfold finishImpl
  split
  · refine sigset_conforms_other (fun _ _ => nofun) fun _ after => ?_
    exact sigset_conforms_other (fun _ _ => nofun) fun _ _ => trivial
  · refine sigset_conforms_other (fun _ _ => nofun) fun _ after => ?_
    exact sigset_conforms_other (fun _ _ => nofun) fun _ _ => trivial

/-- `aspawn_impl` stores the set it is given. -/
theorem sigset_conforms_aspawnImpl {fn arg : Nat} {oldSigset : SigsetT} :
    (sigsetProtocol oldSigset kind block).Conforms (fun _ _ => True) progress
      (aspawnImpl block fn arg oldSigset) := by
  unfold aspawnImpl
  refine sigset_conforms_other (fun _ _ => nofun) fun pipe after => ?_
  cases pipe with
  | error result => trivial
  | ok pipefd =>
      refine sigset_conforms_other (fun _ _ => nofun) fun stack after => ?_
      refine conforms_call.mpr ⟨fun ptr args same => ?_, fun _ _ => ?_⟩
      · cases same
        rfl
      · exact sigset_conforms_cloneChild fun _ _ => sigset_conforms_finishImpl

/-- The answer to blocking all signals decides what is stored. -/
theorem sigset_conforms_sigBlockall {oldset : SigsetT}
    {next : Int × Option SigsetT → Program SysCalls α}
    (failed : ∀ result progress, IsError result →
      (sigsetProtocol expected kind block).Conforms final progress (next (result, some oldset)))
    (blocked : ∀ after, (sigsetProtocol expected kind block).Conforms final after
      (next (0, some (progress.mask.write oldset)))) :
    (sigsetProtocol expected kind block).Conforms final progress
      (sigBlockall oldset >>= next) := by
  refine conforms_call.mpr ⟨fun _ _ => SysRequest.noConfusion, fun response answered => ?_⟩
  obtain ⟨result, written⟩ := response
  rcases answered with ⟨error, _, rfl⟩ | ⟨rfl, rfl⟩
  · exact failed result _ error
  · exact blocked _

/-- `aspawn` stores what the kernel made of its local variable. -/
theorem sigset_conforms_aspawn (progress : Progress) {fn arg : Nat} {oldset : SigsetT} :
    (sigsetProtocol (progress.mask.write oldset) kind block).Conforms (fun _ _ => True) progress
      (aspawn block fn arg oldset) := by
  unfold aspawn
  refine conforms_call.mpr ⟨fun _ _ => SysRequest.noConfusion, fun oldstate _ => ?_⟩
  refine sigset_conforms_sigBlockall (fun result after error => ?_) fun after => ?_
  · simp only [if_neg error.negative.ne]
    exact sigset_conforms_other (fun _ _ => nofun) fun _ _ => trivial
  · simp only [if_pos]
    rw [conforms_bind]
    refine sigset_conforms_aspawnImpl.mono fun _ => ?_
    refine sigset_conforms_other (fun _ _ => nofun) fun _ after => ?_
    exact sigset_conforms_other (fun _ _ => nofun) fun _ _ => trivial

end Stores

namespace System

variable {system next after start : System} {task : TaskId} {call proc root : Nat}
  {mask : Sigmask} {sigset : SigsetT} {memory : Nat → SigsetT}

/-! ## Where a set comes from -/

/-- The `aspawn` call of the root process that a call goes back to, and the mask of its
thread when it was made. -/
inductive RootCall (system : System) : Nat → Nat → Sigmask → Prop where
  | aspawn {call record mask} :
      system.calls call = some record → record.kind = .aspawn → record.start.mask = mask →
      RootCall system call call mask
  | aspawnRec {call record birth root mask} :
      system.calls call = some record → record.kind = .aspawnRec →
      system.birth record.caller.proc = some birth → RootCall system birth.call root mask →
      RootCall system call root mask

/-- The set that the root's call found in `oldset`: the mask in the first 8 bytes and, in
the others, what the local variable held before. -/
def Carries (system : System) (memory : Nat → SigsetT) (call : Nat) (sigset : SigsetT) : Prop :=
  ∃ root mask, system.RootCall call root mask ∧ sigset = mask.write (memory root)

theorem Change.rootCall_kept {action : Action} (change : system.Change action next)
    (numbered : system.Numbered) (from_ : system.RootCall call root mask) :
    next.RootCall call root mask := by
  induction from_ with
  | aspawn known kind same =>
      obtain ⟨progress, returned, later, _⟩ := change.record_kept numbered known
      exact .aspawn later kind same
  | aspawnRec known kind born _ ih =>
      obtain ⟨progress, returned, later, _⟩ := change.record_kept numbered known
      exact .aspawnRec later kind (change.birth_kept numbered born) ih

theorem Change.carries_kept {action : Action} (change : system.Change action next)
    (numbered : system.Numbered) (carries : system.Carries memory call sigset) :
    next.Carries memory call sigset := by
  obtain ⟨root, mask, goesBack, rfl⟩ := carries
  exact ⟨root, mask, change.rootCall_kept numbered goesBack, rfl⟩

/-- Every live process but the root was cloned by a call. -/
def Cloned (system : System) : Prop :=
  ∀ proc, proc ≠ 0 → system.phase proc = .live → ∃ birth, system.birth proc = some birth

theorem cloned_of_initial (initial : system.Initial) : system.Cloned := by
  intro proc child live
  rw [(initial.others proc child).1] at live
  cases live

theorem Cloned.of_change {action : Action} (cloned : system.Cloned)
    (change : system.Change action next) : next.Cloned := by
  intro proc child live
  cases change with
  | call running runs effect =>
      cases effect with
      | cloned =>
          by_cases new : proc = system.nextProc
          · cases new
            exact ⟨_, Function.update_self ..⟩
          · obtain ⟨birth, born⟩ :=
              cloned proc child ((Function.update_of_ne new ..).symm.trans live)
            exact ⟨birth, (Function.update_of_ne new ..).trans born⟩
      | _ => exact cloned proc child live
  | starting running born effect => cases effect <;> exact cloned proc child live
  | user _ stepped =>
      obtain ⟨_, phase, birth, _⟩ := userStep_frame stepped
      rw [birth]
      exact cloned proc child (phase ▸ live)
  | @left _ gone _ _ _ _ leaves =>
      by_cases same : proc = gone
      · cases same
        have left := (Function.update_self ..).symm.trans live
        rcases leaves with ⟨rfl, _⟩ | ⟨rfl, _⟩ <;> cases left
      · exact cloned proc child ((Function.update_of_ne same ..).symm.trans live)
  | _ => exact cloned proc child live

/-! ## Runs -/

/-- The local variable of the call with each number holds what `memory` says, every
`aspawn_fn` passes on the set that it was given, and every child starts with its own
arguments. -/
structure PassesSigset (memory : Nat → SigsetT) (system : System) (action : Action) : Prop where
  finds : ∀ task block fn arg pid oldset, action = .aspawn task block fn arg pid oldset →
    oldset = memory system.nextCall
  passes : ∀ proc block fn arg pid oldSigset,
    action = .aspawnRec proc block fn arg pid oldSigset →
    ∀ args, system.Given proc args → oldSigset = args.oldSigset
  own : system.ReadsOwnArgs action

structure SigsetsCarried (memory : Nat → SigsetT) (system : System) : Prop where
  running : ∀ task call rest record, system.control task = .inCall call rest →
    system.calls call = some record → ∃ expected, system.Carries memory call expected ∧
      (sigsetProtocol expected record.kind record.block).Conforms (fun _ _ => True)
        record.progress rest
  placed : ∀ call record args, system.calls call = some record →
    record.progress.args = some args → system.Carries memory call args.oldSigset
  loaded : system.LoadedOwn

namespace SigsetsCarried

theorem of_initial (initial : system.Initial) : system.SigsetsCarried memory where
  running task call rest record _ known := by
    rw [initial.calls] at known
    cases known
  placed call record args known := by
    rw [initial.calls] at known
    cases known
  loaded proc progress rest args running := by
    rw [initial.threads] at running
    split at running <;> cases running

section Steps

variable (carried : system.SigsetsCarried memory)
  (carries : ∀ {call sigset}, system.Carries memory call sigset →
    next.Carries memory call sigset)
  (loaded : next.LoadedOwn)

include carried carries loaded

/-- A step that starts no work and changes no progress. -/
theorem frame (control : ∀ task call rest, next.control task = .inCall call rest →
      system.control task = .inCall call rest)
    (calls : ∀ call record, next.calls call = some record →
      ∃ returned, system.calls call = some { record with returned }) :
    next.SigsetsCarried memory where
  running task call rest record running known := by
    obtain ⟨returned, before⟩ := calls call record known
    obtain ⟨expected, ofCall, conforms⟩ :=
      carried.running task call rest _ (control task call rest running) before
    exact ⟨expected, carries ofCall, conforms⟩
  placed call record args known has := by
    obtain ⟨returned, before⟩ := calls call record known
    exact carries (carried.placed call _ args before has)
  loaded := loaded

theorem callStep {request : SysRequest} {rest : request.Response → Program SysCalls Int}
    {response : request.Response} {record : CallRecord} {choice : Choice}
    (wellFormed : system.WellFormed)
    (running : system.control task = .inCall call (.call request rest))
    (known : system.calls call = some record)
    (handled : system.handle task call choice request = some (response, after))
    (advanced : next = (after.setCall call { record with
      progress := (callProtocol record.kind record.block).after record.progress request
        response }).setControl task (.inCall call (rest response))) :
    next.SigsetsCarried memory := by
  obtain ⟨found, runs⟩ := wellFormed.threaded.inCall task call _ running
  cases known.symm.trans runs.known
  obtain ⟨answered, effect⟩ := callEffect_of_handle runs.cancel runs.mask
    wellFormed.numbered.root.1 runs.conforms.1 handled
  obtain ⟨expected, ofCall, conforms⟩ := carried.running task call _ record running known
  have old (number : Nat) (found : CallRecord) (other : number ≠ call)
      (present : next.calls number = some found) : system.calls number = some found := by
    rw [advanced] at present
    have present : after.calls number = some found := (setCall_of_ne other).symm.trans present
    exact effect.calls ▸ present
  have own (found : CallRecord) (present : next.calls call = some found) :
      { record with
        progress := (callProtocol record.kind record.block).after record.progress request
          response } = found := by
    rw [advanced] at present
    exact Option.some.inj (setCall_self.symm.trans present)
  refine ⟨fun other number remaining found running' present => ?_,
    fun number found args present placed => ?_, loaded⟩
  · by_cases same : other = task
    · cases same
      rw [advanced, setControl_self] at running'
      cases running'
      cases own found present
      exact ⟨expected, carries ofCall, conforms.2 response answered⟩
    · rw [advanced, setControl_of_ne same] at running'
      have inCall : system.control other = .inCall number remaining := effect.inCall running'
      have distinct : number ≠ call := by
        rintro rfl
        obtain ⟨_, otherRuns⟩ := wellFormed.threaded.inCall other number _ inCall
        cases known.symm.trans otherRuns.known
        exact same (otherRuns.caller.symm.trans runs.caller)
      obtain ⟨set, ofOther, conforms⟩ := carried.running other number remaining found inCall
        (old number found distinct present)
      exact ⟨set, carries ofOther, conforms⟩
  · by_cases same : number = call
    · cases same
      cases own found present
      rcases args_of_after record.kind record.block placed with before | ⟨ptr, rfl⟩
      · exact carries (carried.placed call record args known before)
      · rw [conforms.1 ptr args rfl]
        exact carries ofCall
    · exact carries (carried.placed number found args (old number found same present) placed)

theorem startCall {kind : CallKind} {block : Nat} {pid : Int} {code : Program SysCalls Int}
    (wellFormed : system.WellFormed) (advanced : next = system.startCall task kind block pid code)
    (stores : next.Carries memory system.nextCall sigset)
    (conforms : (sigsetProtocol sigset kind block).Conforms (fun _ _ => True)
      (.start (system.cancel task) (system.mask task) pid) code) :
    next.SigsetsCarried memory := by
  have old (number : Nat) (found : CallRecord) (other : number ≠ system.nextCall)
      (present : next.calls number = some found) : system.calls number = some found := by
    rw [advanced] at present
    exact (Function.update_of_ne other ..).symm.trans present
  have control (other : TaskId) (distinct : other ≠ task) :
      next.control other = system.control other := by
    rw [advanced]
    exact Function.update_of_ne distinct ..
  have self : next.control task = .inCall system.nextCall code := by
    rw [advanced]
    exact Function.update_self ..
  refine ⟨fun other number rest record inCall known => ?_,
    fun number record args known placed => ?_, loaded⟩
  · by_cases same : other = task
    · cases same
      cases self.symm.trans inCall
      rw [advanced] at known
      cases (Function.update_self ..).symm.trans known
      exact ⟨sigset, stores, conforms⟩
    · rw [control other same] at inCall
      obtain ⟨_, runs⟩ := wellFormed.threaded.inCall other number rest inCall
      have earlier := wellFormed.numbered.call_lt runs.known
      obtain ⟨expected, ofCall, conforms⟩ := carried.running other number rest record inCall
        (old number record earlier.ne known)
      exact ⟨expected, carries ofCall, conforms⟩
  · by_cases isNew : number = system.nextCall
    · cases isNew
      rw [advanced] at known
      cases (Function.update_self ..).symm.trans known
      cases placed
    · exact carries (carried.placed number record args (old number record isNew known) placed)

/-- The steps outside calls. -/
theorem idle {action : Action} (change : system.Change action next)
    (idles : action.starts = none)
    (outside : ∀ task choice, action = .code task choice → ∀ call rest,
      system.control task ≠ .inCall call rest) : next.SigsetsCarried memory := by
  cases change with
  | call running => exact absurd running (outside _ _ rfl _ _)
  | starting running born effect =>
      refine carried.frame carries loaded (fun other call rest inCall => ?_)
        fun call record known => ⟨record.returned, ?_⟩
      · have before := control_of_update (fun same => Control.noConfusion same) inCall
        cases effect <;> exact before
      · cases effect <;> exact known
  | started _ starts =>
      rw [idles] at starts
      cases starts
  | @finish task call result record running runs =>
      refine carried.frame carries loaded
        (fun _ _ _ => control_of_update fun same => Control.noConfusion same)
        fun number found known => ?_
      by_cases same : number = call
      · cases same
        cases setCall_self.symm.trans known
        exact ⟨record.returned, runs.known⟩
      · exact ⟨found.returned, (setCall_of_ne same).symm.trans known⟩
  | user _ stepped =>
      obtain ⟨control, _, _, calls, _, _⟩ := userStep_frame stepped
      refine carried.frame carries loaded (fun _ _ _ running => control ▸ running)
        fun number found known => ⟨found.returned, ?_⟩
      rw [calls] at known
      exact known
  | enter | left =>
      exact carried.frame carries loaded
        (fun _ _ _ => control_of_update fun same => Control.noConfusion same)
        fun _ found known => ⟨found.returned, known⟩
  | raise | deliver =>
      exact carried.frame carries loaded (fun _ _ _ running => running)
        fun _ found known => ⟨found.returned, known⟩

end Steps

theorem of_step {action : Action} (carried : system.SigsetsCarried memory)
    (wellFormed : system.WellFormed) (cloned : system.Cloned)
    (passes : system.PassesSigset memory action)
    (stepped : system.step action = some next) : next.SigsetsCarried memory := by
  have change := wellFormed.change stepped
  have carries {call : Nat} {sigset : SigsetT} :
      system.Carries memory call sigset → next.Carries memory call sigset :=
    change.carries_kept wellFormed.numbered
  have loaded : next.LoadedOwn := carried.loaded.of_change passes.own change fun _ _ =>
    change.given_kept wellFormed.numbered (wellFormed.of_change change).lineage
  cases action with
  | code task choice =>
      cases stepped_of_step stepped with
      | call running known handled =>
          exact carried.callStep carries loaded wellFormed running known handled rfl
      | starting running =>
          refine carried.idle carries loaded change rfl fun other choice same call rest inCall => ?_
          cases same
          cases running.symm.trans inCall
      | started _ starts => cases starts
      | left =>
          exact carried.frame carries loaded
            (fun _ _ _ => control_of_update fun same => Control.noConfusion same)
            fun _ found known => ⟨found.returned, known⟩
  | aspawn task block fn arg pid oldset =>
      simp only [step] at stepped
      split at stepped <;> [skip; cases stepped]
      split at stepped <;> cases stepped
      refine carried.startCall carries loaded wellFormed rfl
        ⟨system.nextCall, system.mask task, ?_, rfl⟩ ?_
      · exact .aspawn (Function.update_self ..) rfl rfl
      · rw [← passes.finds task block fn arg pid oldset rfl]
        exact sigset_conforms_aspawn (.start (system.cancel task) (system.mask task) pid)
  | aspawnRec proc block fn arg pid oldSigset =>
      simp only [step] at stepped
      split at stepped <;> [skip; cases stepped]
      split at stepped <;> cases stepped
      rename_i user child
      have live := wellFormed.live_of_control user rfl
      obtain ⟨birth, born⟩ := cloned proc child live
      obtain ⟨args, has⟩ := wellFormed.lineage.given born
      obtain ⟨_, record, same, of⟩ := id has
      cases born.symm.trans same
      obtain ⟨root, mask, goesBack, set⟩ := carried.placed _ record args of.known of.placed
      refine carried.startCall carries loaded wellFormed rfl ⟨root, mask, ?_, set⟩ ?_
      · exact .aspawnRec (Function.update_self ..) rfl born
          (change.rootCall_kept wellFormed.numbered goesBack)
      · rw [passes.passes proc block fn arg pid oldSigset rfl args has]
        exact sigset_conforms_aspawnImpl
  | _ => exact carried.idle carries loaded change rfl fun _ _ same => Action.noConfusion same

end SigsetsCarried

theorem sigsetsCarried_of_reaches (initial : start.Initial)
    (reached : Reaches step (PassesSigset memory) start system) :
    system.WellFormed ∧ system.Cloned ∧ system.SigsetsCarried memory := by
  refine reached.invariant
    (fun state => state.WellFormed ∧ state.Cloned ∧ state.SigsetsCarried memory)
    ⟨.of_initial initial, cloned_of_initial initial, .of_initial initial⟩ ?_
  intro state next action ⟨wellFormed, cloned, carried⟩ passes stepped
  exact ⟨wellFormed.of_step stepped, cloned.of_change (wellFormed.change stepped),
    carried.of_step wellFormed cloned passes stepped⟩

/-! ## What is handed to `aspawn_fn` -/

/-- The set handed to an `aspawn_fn`, at any depth of `aspawn_rec` calls, has exactly the bits
of the signals that the root's thread had blocked when it called `aspawn`, if and only if the
last 120 bytes of the local `sigset_t` of that call were zero. -/
theorem oldSigset_faithful_iff {fn arg writeEndFd : Nat} {progress : ChildProgress}
    (initial : start.Initial) (reached : Reaches step (PassesSigset memory) start system)
    (entering : system.control (mainTask proc) =
      .starting progress (.done (.fn fn arg writeEndFd sigset))) :
    ∃ birth root mask, system.birth proc = some birth ∧ system.RootCall birth.call root mask ∧
      (mask.Faithful sigset ↔ memory root >>> 64 = 0) := by
  obtain ⟨wellFormed, _, carried⟩ := sigsetsCarried_of_reaches initial reached
  obtain ⟨_, _, ready⟩ := wellFormed.threaded.starting _ _ _ entering
  obtain ⟨⟨readEndFd, loaded⟩, _⟩ := ready
  obtain ⟨birth, record, born, of⟩ := carried.loaded proc progress _ _ entering loaded
  obtain ⟨root, mask, goesBack, set⟩ := carried.placed _ record _ of.known of.placed
  refine ⟨birth, root, mask, born, goesBack, ?_⟩
  have set : sigset = mask.write (memory root) := set
  rw [set]
  exact Sigmask.faithful_write_iff

/-- A stack is reused only after HUP and, given that children start with their own arguments,
every `aspawn_fn` passes on its set. -/
def Tidy (memory : Nat → SigsetT) (system : System) (action : Action) : Prop :=
  system.WaitsForHup action ∧
    (system.ReadsOwnArgs action → system.PassesSigset memory action)

/-- Callers that wait for HUP before they reuse a stack see to it that children start with
their own arguments. -/
theorem passesSigset_of_waitsForHup (initial : start.Initial)
    (reached : Reaches step (Tidy memory) start system) :
    Reaches step (PassesSigset memory) start system := by
  refine (reached.strengthen HupAwaited (.of_initial initial)
    (fun awaited allowed stepped => awaited.of_step allowed.1 stepped) ?_).1
  intro state action awaited ⟨_, passes⟩
  exact passes (awaited.readsOwnArgs action)

/-- The function, the argument, the write end and the set that a child is about to enter the
user's function with. -/
def handed (system : System) (proc : Nat) : Option (Nat × Nat × Nat × SigsetT) :=
  match system.control (mainTask proc) with
  | .starting _ (.done (.fn fn arg writeEndFd sigset)) => some (fn, arg, writeEndFd, sigset)
  | _ => none

theorem control_of_handed {fn arg writeEndFd : Nat}
    (hands : system.handed proc = some (fn, arg, writeEndFd, sigset)) :
    ∃ progress, system.control (mainTask proc) =
      .starting progress (.done (.fn fn arg writeEndFd sigset)) := by
  unfold handed at hands
  split at hands
  · rename_i progress _ _ _ _ control
    cases hands
    exact ⟨progress, control⟩
  · cases hands

theorem passesSigset_of_quiet {action : Action} (quiet : action.starts = none)
    (own : system.ReadsOwnArgs action) : system.PassesSigset memory action where
  finds task block fn arg pid oldset same := by
    cases same
    cases quiet
  passes proc block fn arg pid oldSigset same := by
    cases same
    cases quiet
  own := own

/-- A call of `aspawn` whose local variable holds `oldset`, up to the child's function. -/
def spawnOver (oldset : SigsetT) : List Action := List.flatten [
  [.aspawn (mainTask 0) 0 100 200 0 oldset],
  Action.codes (mainTask 0) [.ok, .ok, .fds 3 4, .ok, .ok, .ok, .ok],
  Action.codes (mainTask 1) [.ok, .ok, .ok]]

theorem tidy_of_quiet {action : Action} (quiet : action.starts = none)
    (code : action.isUser = false) : system.Tidy memory action :=
  ⟨waitsForHup_of_code code (reusesAfterHup_of_not_starts quiet), passesSigset_of_quiet quiet⟩

theorem reaches_spawnOver (memory : Nat → SigsetT) {oldset : SigsetT} (initial : start.Initial)
    (found : oldset = memory 0) (performed : run step start (spawnOver oldset) = some system) :
    Reaches step (Tidy memory) start system := by
  have unused : start.ReusesAfterHup (.aspawn (mainTask 0) 0 100 200 0 oldset) := by
    intro kind block _ call record known
    rw [initial.calls] at known
    cases known
  refine .of_run performed (.cons ⟨waitsForHup_of_code rfl unused, fun own => ?_⟩ fun _ =>
    .of_forall fun action member state => ?_)
  · refine ⟨fun task block fn arg pid other same => ?_,
      fun _ _ _ _ _ _ => Action.noConfusion, own⟩
    injection same with _ _ _ _ _ same
    rw [← same, initial.nextCall, found]
  · have quiet : ∀ action ∈ (spawnOver 0).tail,
        action.starts = none ∧ action.isUser = false := by
      decide
    exact tidy_of_quiet (quiet action member).1 (quiet action member).2

/-- The root with the signals 1 and 3 blocked. -/
def maskedBoot : System :=
  { boot .default reservedStacks with mask := fun _ => .ofBits 5 }

theorem maskedBoot_initial : maskedBoot.Initial := by
  have base : (boot .default reservedStacks).Initial := boot_initial
  exact { base with }

/-- The child unblocks all signals. -/
def unblocked : List Action := [.enter 1, .user (mainTask 1) (.setMask (.ofBits 0))]

/-- It passes its set on, with a stack of its own. -/
def passedOn : List Action := List.flatten [
  [.aspawnRec 1 1 101 201 0 5],
  Action.codes (mainTask 1) [.fds 5 6, .ok, .ok, .ok, .ok],
  Action.codes (mainTask 2) [.ok, .ok, .ok]]

/-- The set among the arguments that a call has placed. -/
def sigsetPlaced (system : System) (call : Nat) : Option SigsetT :=
  (system.calls call).bind fun record => record.progress.args.map ChildArgs.oldSigset

theorem Given.sigsetPlaced {args : ChildArgs} (given : system.Given proc args) :
    ∃ call, system.sigsetPlaced call = some args.oldSigset := by
  obtain ⟨birth, record, _, of⟩ := given
  exact ⟨birth.call, by simp [System.sigsetPlaced, of.known, of.placed]⟩

theorem tidy_setMask {mask : Sigmask} : system.Tidy memory (.user task (.setMask mask)) := by
  refine ⟨⟨fun task op same other call record _ => ?_, fun task op same call fd _ => ?_,
    reusesAfterHup_of_not_starts rfl⟩, passesSigset_of_quiet rfl⟩
  · cases same
    exact ⟨rfl, fun _ _ _ => rfl⟩
  · cases same
    rfl

theorem tidy_aspawnRec {block fn arg : Nat} {pid : Int}
    (reuses : system.ReusesAfterHup (.aspawnRec proc block fn arg pid sigset))
    (passes : ∀ args, system.Given proc args → sigset = args.oldSigset) :
    system.Tidy memory (.aspawnRec proc block fn arg pid sigset) := by
  refine ⟨waitsForHup_of_code rfl reuses, fun own =>
    ⟨fun _ _ _ _ _ _ => Action.noConfusion, ?_, own⟩⟩
  intro proc block fn arg pid oldSigset same
  cases same
  exact passes

theorem oldSigset_faithful_nested :
    ∃ (system : System) (progress : ChildProgress) (birth : Birth) (root : Nat) (mask : Sigmask),
      system.control (mainTask 2) = .starting progress (.done (.fn 101 201 6 5)) ∧
      system.birth 2 = some birth ∧ system.RootCall birth.call root mask ∧ mask.Faithful 5 := by
  have spawns : ((run step maskedBoot (spawnOver 0)).bind fun born =>
      (run step born unblocked).map fun middle =>
        (middle.nextCall, (middle.calls 0).map CallRecord.block, middle.sigsetPlaced 0)) =
        some (1, some 0, some 5) := by
    decide +kernel
  have nests : ((run step maskedBoot (spawnOver 0)).bind fun born =>
      (run step born unblocked).bind fun middle =>
        (run step middle passedOn).map fun system => system.handed 2) =
        some (some (101, 201, 6, 5)) := by
    decide +kernel
  obtain ⟨born, performed, later⟩ := Option.bind_eq_some_iff.mp spawns
  obtain ⟨middle, unblocks, values⟩ := Option.map_eq_some_iff.mp later
  rw [performed, Option.bind_some, unblocks] at nests
  obtain ⟨system, passes, hands⟩ := Option.map_eq_some_iff.mp nests
  simp only [Prod.mk.injEq] at values
  obtain ⟨nextCall, block, placed⟩ := values
  obtain ⟨progress, control⟩ := control_of_handed hands
  have first : Reaches step (Tidy fun _ => 0) maskedBoot middle :=
    (reaches_spawnOver (fun _ => 0) maskedBoot_initial rfl performed).trans
      (.of_run unblocks (.cons (tidy_of_quiet rfl rfl) fun _ => .cons tidy_setMask fun _ =>
        trivial))
  have numbered := (considerate_of_reaches maskedBoot_initial
    (first.mono fun tidy => tidy.1.1)).wellFormed.numbered
  have only (call : Nat) (record : CallRecord) (known : middle.calls call = some record) :
      call = 0 := by
    have bound := numbered.call_lt known
    omega
  have tidy : middle.Tidy (fun _ => 0) (.aspawnRec 1 1 101 201 0 5) := by
    refine tidy_aspawnRec (fun kind other starts call record known same => ?_)
      fun args given => ?_
    · cases only call record known
      cases starts
      rw [known] at block
      exact absurd (Option.some.inj block) (by rw [same]; decide)
    · obtain ⟨call, set⟩ := given.sigsetPlaced
      obtain ⟨record, known, _⟩ := Option.bind_eq_some_iff.mp set
      cases only call record known
      exact Option.some.inj (placed.symm.trans set)
  have second : Reaches step (Tidy fun _ => 0) middle system := by
    refine .of_run passes (.cons tidy fun _ => .of_forall fun action member _ => ?_)
    have quiet : ∀ action ∈ passedOn.tail, action.starts = none ∧ action.isUser = false := by
      decide
    exact tidy_of_quiet (quiet action member).1 (quiet action member).2
  obtain ⟨birth, root, mask, cloned, goesBack, faithful⟩ := oldSigset_faithful_iff
    maskedBoot_initial (passesSigset_of_waitsForHup maskedBoot_initial (first.trans second)) control
  exact ⟨system, progress, birth, root, mask, control, cloned, goesBack,
    faithful.mpr BitVec.zero_ushiftRight⟩

/-- Over a stack full of ones the child finds signals 65 to 1024 in its set. -/
theorem oldSigset_stale :
    ¬ ∀ (memory : Nat → SigsetT) (start system : System), start.Initial →
      Reaches step (PassesSigset memory) start system →
      ∀ proc progress fn arg writeEndFd sigset, system.control (mainTask proc) =
        .starting progress (.done (.fn fn arg writeEndFd sigset)) →
      ∃ birth root mask, system.birth proc = some birth ∧
        system.RootCall birth.call root mask ∧ mask.Faithful sigset := by
  intro claim
  have completes : ((run step (boot .default reservedStacks)
      (spawnOver (BitVec.allOnes 1024))).map fun system => system.handed 1) =
        some (some (100, 200, 4, BitVec.allOnes 1024 <<< 64)) := by
    decide +kernel
  obtain ⟨system, performed, hands⟩ := Option.map_eq_some_iff.mp completes
  obtain ⟨progress, control⟩ := control_of_handed hands
  have reached := passesSigset_of_waitsForHup boot_initial
    (reaches_spawnOver (fun _ => BitVec.allOnes 1024) boot_initial rfl performed)
  obtain ⟨_, _, mask, _, _, faithful⟩ := claim _ _ system boot_initial reached _ _ _ _ _ _ control
  obtain ⟨signal, same, _⟩ := (faithful 100).mp (by decide +kernel)
  exact absurd signal.isLt (by omega)

end System

end Aspawn
