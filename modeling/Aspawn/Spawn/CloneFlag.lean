import Aspawn.Spawn.CallDiscipline

/-! The flag `does_not_have_clone_clear_sighand_internal`, which all threads share: who sets
it, and what it tells the calls that come later. -/

set_option autoImplicit false

namespace Aspawn

open Protocol Transition

/-- What is known about the flag while a call runs. -/
inductive FlagStage where
  | any
  | unset
  | set
  deriving DecidableEq

/-- The kernel has refused `clone3` to the call. -/
def Progress.Refused (progress : Progress) : Prop :=
  ∃ refusal, progress.clone3Result = some refusal ∧ (refusal = -ENOSYS ∨ refusal = -EINVAL)

/-- As long as the flag is unset nobody uses `clone`, once it is set nobody who starts then
uses `clone3`, and only a call that was refused sets it. -/
def flagRules (stage : FlagStage) (kind : CallKind) (block : Nat) :
    Protocol SysCalls Progress where
  permits progress
    | .clone _ _ _ _ => stage ≠ .unset
    | .clone3 _ _ _ => stage ≠ .set
    | .storeFlag value => value = true ∧ progress.Refused
    | _ => True
  answers progress
    | .loadFlag, flag => (stage = .unset → flag = false) ∧ (stage = .set → flag = true)
    | .storeFlag _, _ => stage ≠ .unset
    | request, response => (callProtocol kind block).answers progress request response
  after := (callProtocol kind block).after

section Code

variable {stage : FlagStage} {kind : CallKind} {block fn arg : Nat} {progress : Progress}

theorem flagRules_plain (progress : Progress) (request : SysRequest) (plain : request.plain) :
    (flagRules stage kind block).permits progress request := by
  cases request with
  | clone | clone3 | storeFlag => cases plain
  | _ => trivial

theorem cloneChild_conforms_flag {args : ArgsPtr} {stack : StackT}
    {next : Int → Program SysCalls Int}
    (rest : ∀ progress newPid,
      (flagRules stage kind block).Conforms (fun _ _ => True) progress (next newPid)) :
    (flagRules stage kind block).Conforms (fun _ _ => True) progress
      (cloneChild args stack >>= next) := by
  have cloneRest (progress : Progress) (possible : stage ≠ .unset) :
      (flagRules stage kind block).Conforms (fun _ _ => True) progress
        (cloneInternal .aspawnChildClearSighand args stack >>= next) :=
    conforms_sysCall possible fun newPid _ => rest _ newPid
  unfold cloneChild
  rw [if_neg (by decide), Program.bind_assoc]
  refine conforms_sysCall trivial fun flag known => ?_
  cases flag with
  | true => exact cloneRest _ fun unset => Bool.noConfusion (known.1 unset)
  | false =>
      rw [if_neg (by decide), Program.bind_assoc]
      refine conforms_sysCall (fun set => Bool.noConfusion (known.2 set)) fun newPid _ => ?_
      split
      · exact rest _ newPid
      · rename_i refused
        rw [Program.bind_assoc]
        refine conforms_sysCall ⟨rfl, newPid, rfl, ?_⟩ fun _ possible => cloneRest _ possible
        by_contra neither
        exact refused (not_or.mp neither)

theorem admitsChild_flagRules {stack : StackT} {oldSigset : SigsetT} :
    AdmitsChild (flagRules stage kind block) block stack fn arg oldSigset where
  store _ _ := trivial
  cloned _ _ := cloneChild_conforms_flag

end Code

section Results

variable {progress : Progress} {result : Int}

/-- Only `clone` sets the result of `clone`. -/
theorem cloneResult_of_after (kind : CallKind) (block : Nat) {request : SysRequest}
    {response : request.Response}
    (known : ((callProtocol kind block).after progress request response).cloneResult =
      some result) :
    progress.cloneResult = some result ∨
      ∃ fn stack flags args, request = .clone fn stack flags args := by
  cases request with
  | clone fn stack flags args => exact .inr ⟨fn, stack, flags, args, rfl⟩
  | close fd => exact .inl (Progress.closed_cloneResult ▸ known)
  | pipe2 flags => cases response <;> exact .inl known
  | sigprocmask how set oldset =>
      simp only [callProtocol] at known
      split at known <;> exact .inl known
  | _ => exact .inl known

/-- Only `clone3` sets the result of `clone3`. -/
theorem clone3Result_of_after (kind : CallKind) (block : Nat) {request : SysRequest}
    {response : request.Response}
    (known : ((callProtocol kind block).after progress request response).clone3Result =
      some result) :
    progress.clone3Result = some result ∨ ∃ clArgs fn args, request = .clone3 clArgs fn args := by
  cases request with
  | clone3 clArgs fn args => exact .inr ⟨clArgs, fn, args, rfl⟩
  | close fd => exact .inl (Progress.closed_clone3Result ▸ known)
  | pipe2 flags => cases response <;> exact .inl known
  | sigprocmask how set oldset =>
      simp only [callProtocol] at known
      split at known <;> exact .inl known
  | _ => exact .inl known

end Results

namespace System

variable {system next start after : System} {task : TaskId} {call : Nat} {record : CallRecord}
  {action : Action} {choice : Choice}

/-! ## Changes of the flag -/

theorem flag_of_handle {request : SysRequest} {response : request.Response}
    (handled : system.handle task call choice request = some (response, after)) :
    after.flag = system.flag ∨ request = .storeFlag after.flag := by
  cases request with
  | sigprocmask how set oldset =>
      simp only [handle] at handled
      split at handled
      · cases handled
        exact .inl rfl
      · split at handled <;> cases handled
        exact .inl rfl
      · cases handled
  | pipe2 flags =>
      simp only [handle] at handled
      split at handled
      · cases handled
      · cases handled
        exact .inl rfl
      · split at handled <;> cases handled
        exact .inl rfl
  | clone | clone3 =>
      simp only [handle] at handled
      split at handled
      · split at handled <;> cases handled
        exact .inl rfl
      · cases handled
        exact .inl rfl
      · cases handled
  | close fd =>
      simp only [handle] at handled
      split at handled <;> cases handled <;> exact .inl rfl
  | rtSigaction signum act =>
      simp only [handle] at handled
      split at handled
      · split at handled <;> cases handled <;> exact .inl rfl
      · cases handled
        exact .inl rfl
  | storeFlag value =>
      cases handled
      exact .inr rfl
  | _ =>
      cases handled
      exact .inl rfl

theorem flag_of_store {value : Bool} {more : Unit → Program SysCalls Int}
    (running : system.control task = .inCall call (.call (.storeFlag value) more))
    (stepped : system.step (.code task choice) = some next) : next.flag = value := by
  simp only [step, running, handle] at stepped
  split at stepped
  · rename_i handled
    cases handled
    cases stepped
    rfl
  · cases stepped

/-- Only a call that stores the flag changes it. -/
theorem flag_of_step (wellFormed : system.WellFormed) (stepped : system.step action = some next) :
    next.flag = system.flag ∨ ∃ task choice call more, action = .code task choice ∧
      system.control task = .inCall call (.call (.storeFlag next.flag) more) := by
  cases stepped_of_step stepped with
  | @call task choice call request more record response later running present handled =>
      rcases flag_of_handle handled with same | rfl
      · exact .inl same
      · exact .inr ⟨task, choice, call, more, rfl, running⟩
  | starting running born handled =>
      obtain ⟨_, bornAs, conforms⟩ := wellFormed.threaded.starting _ _ _ running
      cases born.symm.trans bornAs
      cases childEffect_of_handle conforms.1 handled <;> exact .inl rfl
  | @user _ op _ _ performed =>
      cases op with
      | «open» | dup =>
          simp only [userStep] at performed
          split at performed <;> cases performed
          exact .inl rfl
      | _ =>
          cases performed
          exact .inl rfl
  | started | finish | enter | left | raise | deliver => exact .inl rfl

/-! ## What the calls keep to -/

def rulesOfFlag (stages : Nat → FlagStage) (call : Nat) (record : CallRecord) :
    Protocol SysCalls Progress :=
  flagRules (stages call) record.kind record.block

theorem lasting_rulesOfFlag {stages : Nat → FlagStage} : Lasting (rulesOfFlag stages) where
  stays _ _ _ _ := rfl
  after _ _ := rfl

theorem startsTo_rulesOfFlag {stages : Nat → FlagStage} :
    system.StartsTo (rulesOfFlag stages) action where
  aspawn _ _ _ _ _ _ _ := conforms_aspawn flagRules_plain fun _ _ _ _ _ _ => admitsChild_flagRules
  aspawnRec _ _ _ _ _ _ _ := conforms_aspawnImpl flagRules_plain fun _ _ _ => admitsChild_flagRules

/-- Calls keep to the rules as long as the flag is what the rules take it to be. -/
theorem keepsTo_flag_of_step {stages : Nat → FlagStage}
    (keeps : system.KeepsTo (rulesOfFlag stages)) (wellFormed : system.WellFormed)
    (found : ∀ call, (stages call = .unset → system.flag = false) ∧
      (stages call = .set → system.flag = true))
    (stored : ∀ task choice call value more, action = .code task choice →
      system.control task = .inCall call (.call (.storeFlag value) more) → stages call ≠ .unset)
    (stepped : system.step action = some next) : next.KeepsTo (rulesOfFlag stages) := by
  refine keeps.of_step lasting_rulesOfFlag wellFormed startsTo_rulesOfFlag ?_ stepped
  intro task choice call request record response later code handled running known answered
  obtain ⟨more, running⟩ := running
  cases request with
  | loadFlag =>
      cases handled
      exact found call
  | storeFlag value => exact stored task choice call value more code running
  | _ => exact answered

/-- The invariants about the flag. -/
structure FlagKept (system : System) : Prop where
  wellFormed : system.WellFormed
  any : system.KeepsTo (rulesOfFlag fun _ => .any)
  unset : system.flag = false → system.KeepsTo (rulesOfFlag fun _ => .unset)
  unused : system.flag = false → ∀ call record, system.calls call = some record →
    record.progress.cloneResult = none

namespace FlagKept

/-- A change of the flag sets it, on behalf of a call that was refused. -/
theorem changed (kept : system.FlagKept) (stepped : system.step action = some next) :
    next.flag = system.flag ∨ next.flag = true ∧ ∃ task choice call more record,
      action = .code task choice ∧
      system.control task = .inCall call (.call (.storeFlag true) more) ∧
      system.calls call = some record ∧ record.progress.Refused := by
  rcases flag_of_step kept.wellFormed stepped with same | ⟨task, choice, call, more, code, running⟩
  · exact .inl same
  · obtain ⟨record, runs⟩ := kept.wellFormed.threaded.inCall _ _ _ running
    obtain ⟨set, refused⟩ := kept.any.permits running runs.known
    rw [set] at running
    exact .inr ⟨set, task, choice, call, more, record, code, running, runs.known, refused⟩

theorem set_stays (kept : system.FlagKept) (stepped : system.step action = some next)
    (set : system.flag = true) : next.flag = true := by
  rcases kept.changed stepped with same | ⟨now, _⟩
  · exact same.trans set
  · exact now

theorem of_initial (initial : start.Initial) : start.FlagKept where
  wellFormed := .of_initial initial
  any := .of_initial initial
  unset _ := .of_initial initial
  unused _ call record known := by
    rw [initial.calls] at known
    cases known

theorem of_step (kept : system.FlagKept) (stepped : system.step action = some next) :
    next.FlagKept := by
  have earlier (unset : next.flag = false) : system.flag = false := by
    cases flag : system.flag with
    | false => rfl
    | true => exact (kept.set_stays stepped flag).symm.trans unset
  refine ⟨kept.wellFormed.of_step stepped, ?_, fun unset => ?_, fun unset call record known => ?_⟩
  · refine keepsTo_flag_of_step kept.any kept.wellFormed (fun _ => ⟨?_, ?_⟩) ?_ stepped
    · intro unset
      cases unset
    · intro set
      cases set
    · intro _ _ _ _ _ _ _ unset
      cases unset
  · refine keepsTo_flag_of_step (kept.unset (earlier unset)) kept.wellFormed (fun _ => ⟨?_, ?_⟩) ?_
      stepped
    · intro _
      exact earlier unset
    · intro set
      cases set
    · intro task choice call value more code running
      have stored : next.flag = value := flag_of_store running (code ▸ stepped)
      obtain ⟨record, runs⟩ := kept.wellFormed.threaded.inCall _ _ _ running
      obtain ⟨set, _⟩ := kept.any.permits running runs.known
      cases unset.symm.trans (stored.trans set)
  · cases progressFrom_of_step kept.wellFormed stepped known with
    | same before kept' =>
        rw [kept']
        exact kept.unused (earlier unset) call _ before
    | @request _ _ before request response more _ _ running present _ advanced =>
        have none := kept.unused (earlier unset) call before present
        cases result : record.progress.cloneResult with
        | none => rfl
        | some cloned =>
            rw [advanced] at result
            rcases cloneResult_of_after before.kind before.block result with same | ⟨_, _, _, _, rfl⟩
            · cases none.symm.trans same
            · exact absurd rfl ((kept.unset (earlier unset)).permits running present)
    | started _ fresh => rw [fresh]; rfl

theorem of_reaches {allowed : System → Action → Prop} (initial : start.Initial)
    (reached : Reaches step allowed start system) : system.FlagKept :=
  reached.invariant _ (.of_initial initial) fun kept _ => kept.of_step

end FlagKept

/-! ## Once the flag is set -/

/-- The stage of each call once the flag has been set before call `bound`. -/
def latched (bound call : Nat) : FlagStage :=
  if bound ≤ call then .set else .any

/-- What stays true once the flag has been set before call `bound`. -/
structure Latched (bound : Nat) (system : System) : Prop where
  kept : system.FlagKept
  set : system.flag = true
  keeps : system.KeepsTo (rulesOfFlag (latched bound))
  unused : ∀ call record, bound ≤ call → system.calls call = some record →
    record.progress.clone3Result = none

theorem latched_ne_unset {bound call : Nat} : latched bound call ≠ .unset := by
  unfold latched
  split <;> intro same <;> cases same

namespace Latched

variable {bound : Nat}

theorem of_set (kept : system.FlagKept) (set : system.flag = true) :
    system.Latched system.nextCall where
  kept := kept
  set := set
  keeps := kept.any.congr fun call record known => by
    have below := kept.wellFormed.numbered.call_lt known
    simp only [rulesOfFlag, latched, if_neg (Nat.not_le.mpr below)]
  unused call record later known :=
    absurd (kept.wellFormed.numbered.call_lt known) (Nat.not_lt.mpr later)

theorem of_step (before : system.Latched bound) (stepped : system.step action = some next) :
    next.Latched bound := by
  obtain ⟨kept, set, keeps, unused⟩ := before
  refine ⟨kept.of_step stepped, kept.set_stays stepped set, ?_, ?_⟩
  · refine keepsTo_flag_of_step keeps kept.wellFormed (fun call => ⟨?_, fun _ => set⟩) ?_ stepped
    · intro unset
      cases latched_ne_unset unset
    · intro _ _ _ _ _ _ _ unset
      cases latched_ne_unset unset
  · intro call record later known
    cases progressFrom_of_step kept.wellFormed stepped known with
    | same before kept' =>
        rw [kept']
        exact unused call _ later before
    | @request _ _ before request response more _ _ running present _ advanced =>
        have none := unused call before later present
        cases result : record.progress.clone3Result with
        | none => rfl
        | some cloned =>
            rw [advanced] at result
            rcases clone3Result_of_after before.kind before.block result with same | ⟨_, _, _, rfl⟩
            · cases none.symm.trans same
            · have permitted := keeps.permits running present
              simp only [rulesOfFlag, latched, if_pos later] at permitted
              exact absurd rfl permitted
    | started _ fresh => rw [fresh]; rfl

theorem of_reaches {allowed : System → Action → Prop} (before : start.Latched bound)
    (reached : Reaches step allowed start system) : system.Latched bound :=
  reached.invariant _ before fun before _ => before.of_step

end Latched

/-- The flag is a latch: while it is unset no call has used `clone`, only a call that was
refused `clone3` ever changes it, and once it is set every call that starts later spares
itself `clone3`. -/
theorem flag_latches {allowed : System → Action → Prop} (initial : start.Initial)
    (reached : Reaches step allowed start system) :
    (system.flag = false → ∀ call record, system.calls call = some record →
      record.progress.cloneResult = none) ∧
    (∀ action next, system.step action = some next → next.flag ≠ system.flag →
      next.flag = true ∧ ∃ task choice call more record, action = .code task choice ∧
        system.control task = .inCall call (.call (.storeFlag true) more) ∧
        system.calls call = some record ∧ record.progress.Refused) ∧
    (system.flag = true → ∀ later, Reaches step allowed system later → later.flag = true ∧
      ∀ call record, system.nextCall ≤ call → later.calls call = some record →
        record.progress.clone3Result = none) := by
  have kept := FlagKept.of_reaches initial reached
  refine ⟨kept.unused, fun action next stepped differs => ?_, fun set later meanwhile => ?_⟩
  · rcases kept.changed stepped with same | changed
    · exact absurd same differs
    · exact changed
  · have latched := (Latched.of_set kept set).of_reaches meanwhile
    exact ⟨latched.set, latched.unused⟩

/-- The thread that made its pipe before the flag was set calls `aspawn` once more. -/
def thirdCall : List Action :=
  List.flatten [
    [.finish (mainTask 0), .aspawn (mainTask 0) 0 102 202 0 0],
    Action.codes (mainTask 0) [.ok, .ok, .fds 8 9, .ok, .ok, .ok, .ok, .ok, .ok, .ok, .ok],
    [.finish (mainTask 0)]]

theorem flag_latches_thirdCall :
    ∃ system later record,
      run step (boot .default reservedStacks)
        (.aspawn (mainTask 0) 0 100 200 0 0 :: flagSetMeanwhile) = some system ∧
      system.flag = true ∧ run step system thirdCall = some later ∧ later.flag = true ∧
      later.calls 2 = some record ∧ record.returned = some 8 ∧
      record.progress.clone3Result = none := by
  have completes : ((run step (boot .default reservedStacks)
      (.aspawn (mainTask 0) 0 100 200 0 0 :: flagSetMeanwhile)).bind fun system =>
        (run step system thirdCall).bind fun later =>
          (later.calls 2).map fun record => (system.flag, system.nextCall, record.returned)) =
        some (true, 2, some 8) := by
    decide +kernel
  obtain ⟨system, performed, completes⟩ := Option.bind_eq_some_iff.mp completes
  obtain ⟨later, meanwhile, completes⟩ := Option.bind_eq_some_iff.mp completes
  obtain ⟨record, known, values⟩ := Option.map_eq_some_iff.mp completes
  simp only [Prod.mk.injEq] at values
  obtain ⟨set, nextCall, returned⟩ := values
  have reached {start final : System} {actions : List Action}
      (performed : run step start actions = some final) :
      Reaches step (fun _ _ => True) start final :=
    .of_run performed (.of_forall fun _ _ _ => trivial)
  obtain ⟨still, spared⟩ :=
    (flag_latches boot_initial (reached performed)).2.2 set later (reached meanwhile)
  exact ⟨system, later, record, performed, set, meanwhile, still, known, returned,
    spared 2 record (nextCall ▸ Nat.le_refl _) known⟩

end System

end Aspawn
