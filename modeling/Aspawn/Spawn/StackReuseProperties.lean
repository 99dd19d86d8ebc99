import Aspawn.Spawn.DescriptorLimit
import Aspawn.Spawn.WriteEnds

/-! Reuse of a cached stack. A caller that waits for HUP never has two children on one
stack, and no child loses its arguments. -/

set_option autoImplicit false

namespace Aspawn

open Transition

namespace System

variable {system next after start : System} {task : TaskId} {call proc : Nat}

/-- A `Stack_t` is only given to a call when every earlier call on it has returned, and has
failed or its descriptor reports HUP. -/
def ReusesAfterHup (system : System) (action : Action) : Prop :=
  ∀ kind block, action.starts = some (kind, block) → ∀ call record,
    system.calls call = some record → record.block = block →
    ∃ result, record.returned = some result ∧ (result < 0 ∨ system.Hup call)

/-- The call is over and so is its child. -/
def Over (system : System) (call : Nat) (record : CallRecord) : Prop :=
  record.returned ≠ none ∧ ∀ proc, system.IsChildOf call proc → system.phase proc ≠ .live

structure StacksExclusive (system : System) : Prop where
  ended : ∀ first second earlier later, system.calls first = some earlier →
    system.calls second = some later → earlier.block = later.block → first < second →
    system.Over first earlier
  intact : ∀ call record args, system.calls call = some record →
    record.progress.args = some args → ¬ system.Over call record →
    system.args record.block = args

namespace StacksExclusive

theorem of_initial (initial : system.Initial) : system.StacksExclusive where
  ended first second earlier later known := by
    rw [initial.calls] at known
    cases known
  intact call record args known := by
    rw [initial.calls] at known
    cases known

theorem frame (exclusive : system.StacksExclusive) (calls : after.calls = system.calls)
    (args : after.args = system.args) (birth : after.birth = system.birth)
    (phase : ∀ proc, after.phase proc = .live → system.phase proc = .live) :
    after.StacksExclusive := by
  have stays (call : Nat) (record : CallRecord) (ended : system.Over call record) :
      after.Over call record := by
    refine ⟨ended.1, fun proc ⟨found, born, of⟩ live => ?_⟩
    rw [birth] at born
    exact ended.2 proc ⟨found, born, of⟩ (phase proc live)
  constructor
  · intro first second earlier later known known' same before
    rw [calls] at known known'
    exact stays _ _ (exclusive.ended first second earlier later known known' same before)
  · intro call record found known placed notOver
    rw [calls] at known
    rw [args]
    exact exclusive.intact call record found known placed fun ended =>
      notOver (stays call record ended)

/-- A call that is not over has its stack to itself among the earlier and later calls. -/
theorem alone {first second : Nat} {one other : CallRecord} (exclusive : system.StacksExclusive)
    (known : system.calls first = some one) (known' : system.calls second = some other)
    (same : one.block = other.block) (notOver : ¬ system.Over first one)
    (notOver' : ¬ system.Over second other) : first = second := by
  rcases Nat.lt_trichotomy first second with before | equal | after
  · exact absurd (exclusive.ended first second one other known known' same before) notOver
  · exact equal
  · exact absurd (exclusive.ended second first other one known' known same.symm after) notOver'

theorem callStep {rest remaining : Program SysCalls Int} {record : CallRecord}
    {progress : Progress} (exclusive : system.StacksExclusive)
    (runs : system.Runs task call rest record)
    (effect : CallEffect system task call record.kind record.block record.progress progress
      after) :
    ((after.setCall call { record with progress }).setControl task
      (.inCall call remaining)).StacksExclusive := by
  have running : ¬ system.Over call record := fun ended => ended.1 runs.unreturned
  have stays (number : Nat) (found : CallRecord) (distinct : number ≠ call)
      (ended : system.Over number found) :
      ((after.setCall call { record with progress }).setControl task
        (.inCall call remaining)).Over number found := by
    refine ⟨ended.1, fun proc ⟨birth, born, of⟩ live => ?_⟩
    cases effect with
    | @cloned _ _ entry ptr stackPointer exitSignal clearSighand =>
        have born : (system.spawn task call entry ptr stackPointer exitSignal
          clearSighand).birth proc = some birth := born
        by_cases new : proc = system.nextProc
        · cases new
          cases (Function.update_self ..).symm.trans born
          exact distinct of.symm
        · exact ended.2 proc ⟨birth, (Function.update_of_ne new ..).symm.trans born, of⟩
            ((Function.update_of_ne new ..).symm.trans live)
    | _ => exact ended.2 proc ⟨birth, born, of⟩ live
  have old (number : Nat) (found : CallRecord) (distinct : number ≠ call)
      (known : (after.setCall call { record with progress }).calls number = some found) :
      system.calls number = some found := by
    rw [setCall_of_ne distinct, effect.calls] at known
    exact known
  constructor
  · intro first second earlier later known known' same before
    by_cases isFirst : first = call
    · cases isFirst
      cases setCall_self.symm.trans known
      have known' := old second later before.ne' known'
      exact absurd (exclusive.ended call second record later runs.known known' same before) running
    · have known := old first earlier isFirst known
      by_cases isSecond : second = call
      · cases isSecond
        cases setCall_self.symm.trans known'
        exact stays first earlier isFirst
          (exclusive.ended first call earlier record known runs.known same before)
      · have known' := old second later isSecond known'
        exact stays first earlier isFirst
          (exclusive.ended first second earlier later known known' same before)
  · intro number found args known placed notOver
    by_cases own : number = call
    · cases own
      cases setCall_self.symm.trans known
      have before := fun has => exclusive.intact call record args runs.known has running
      cases effect with
      | placed =>
          cases placed
          exact Function.update_self ..
      | closed => exact before (Progress.closed_args ▸ placed)
      | _ => exact before placed
    · have present := old number found own known
      have going := fun ended => notOver (stays number found own ended)
      have before := exclusive.intact number found args present placed going
      cases effect with
      | placed =>
          have apart : found.block ≠ record.block := fun same =>
            own (exclusive.alone present runs.known same going running)
          exact (Function.update_of_ne apart ..).trans before
      | _ => exact before

theorem startCall {kind : CallKind} {block : Nat} {pid : Int} {code : Program SysCalls Int}
    (exclusive : system.StacksExclusive) (numbered : system.Numbered)
    (free : ∀ call record, system.calls call = some record → record.block = block →
      system.Over call record) :
    (system.startCall task kind block pid code).StacksExclusive := by
  have old (number : Nat) (found : CallRecord) (distinct : number ≠ system.nextCall)
      (known : (system.startCall task kind block pid code).calls number = some found) :
      system.calls number = some found :=
    (Function.update_of_ne distinct ..).symm.trans known
  constructor
  · intro first second earlier later known known' same before
    by_cases isSecond : second = system.nextCall
    · cases isSecond
      cases (Function.update_self ..).symm.trans known'
      exact free first earlier (old first earlier before.ne known) same
    · have known' := old second later isSecond known'
      have bound := numbered.call_lt known'
      have known := old first earlier (by omega) known
      exact exclusive.ended first second earlier later known known' same before
  · intro number found args known placed notOver
    by_cases isNew : number = system.nextCall
    · cases isNew
      cases (Function.update_self ..).symm.trans known
      cases placed
    · exact exclusive.intact number found args (old number found isNew known) placed notOver

theorem finish {rest : Program SysCalls Int} {record : CallRecord} {result : Int}
    (exclusive : system.StacksExclusive) (runs : system.Runs task call rest record) :
    ((system.setCall call { record with returned := some result }).setControl task
      .user).StacksExclusive := by
  have running : ¬ system.Over call record := fun ended => ended.1 runs.unreturned
  constructor
  · intro first second earlier later known known' same before
    have known : (system.setCall call { record with returned := some result }).calls first =
      some earlier := known
    by_cases isFirst : first = call
    · cases isFirst
      cases setCall_self.symm.trans known
      have known' : system.calls second = some later :=
        (setCall_of_ne before.ne').symm.trans known'
      exact absurd (exclusive.ended call second record later runs.known known' same before) running
    · rw [setCall_of_ne isFirst] at known
      by_cases isSecond : second = call
      · cases isSecond
        cases setCall_self.symm.trans known'
        exact exclusive.ended first call earlier record known runs.known same before
      · have known' : system.calls second = some later :=
          (setCall_of_ne isSecond).symm.trans known'
        exact exclusive.ended first second earlier later known known' same before
  · intro number found args known placed notOver
    by_cases own : number = call
    · cases own
      cases setCall_self.symm.trans known
      exact exclusive.intact call record args runs.known placed running
    · have known : system.calls number = some found := (setCall_of_ne own).symm.trans known
      exact exclusive.intact number found args known placed notOver

theorem of_change {action : Action} (exclusive : system.StacksExclusive)
    (considerate : system.Considerate) (kept : system.WriteEndsKept)
    (reuses : system.ReusesAfterHup action) (change : system.Change action next) :
    next.StacksExclusive := by
  have lineage := considerate.wellFormed.lineage
  have threaded := considerate.wellFormed.threaded
  cases change with
  | call running runs effect => exact exclusive.callStep runs effect
  | starting running born effect =>
      cases effect <;> exact exclusive.frame rfl rfl rfl fun _ live => live
  | started _ starts =>
      refine exclusive.startCall considerate.wellFormed.numbered fun call record known same => ?_
      obtain ⟨result, returned, gone⟩ := reuses _ _ starts call record known same
      refine ⟨by rw [returned]; exact Option.some_ne_none _, fun proc isChild live => ?_⟩
      rcases gone with failed | hup
      · have finished := threaded.returned call record result known returned
        have child := (lineage.isChildOf_iff known).mp isChild
        cases (finished.failure failed).2.1.symm.trans child
      · obtain ⟨birth, born, of⟩ := isChild
        exact kept.not_hup lineage (.child born of) live hup
  | finish running runs => exact exclusive.finish runs
  | user _ stepped =>
      obtain ⟨_, phase, birth, calls, _, args⟩ := userStep_frame stepped
      exact exclusive.frame calls args birth fun proc live => by rw [← phase]; exact live
  | left _ _ leaves =>
      refine exclusive.frame rfl rfl rfl fun proc live => ?_
      simp only [System.leave, Function.update_apply] at live
      split at live
      · rcases leaves with ⟨rfl, _⟩ | ⟨rfl, _⟩ <;> cases live
      · exact live
  | enter | raise | deliver => exact exclusive.frame rfl rfl rfl fun _ live => live

theorem readsOwnArgs (exclusive : system.StacksExclusive) (wellFormed : system.WellFormed)
    (action : Action) : system.ReadsOwnArgs action := by
  intro proc choice _ progress ptr next running
  obtain ⟨birth, born, conforms⟩ := wellFormed.threaded.starting _ _ _ running
  have live := wellFormed.live_of_control running rfl
  obtain ⟨record, args, of⟩ := wellFormed.lineage.born proc birth born
  have reads : ptr = birth.args := conforms.1
  have intact := exclusive.intact birth.call record args of.known of.placed fun ended =>
    ended.2 proc ⟨birth, born, rfl⟩ live
  rw [reads, of.block, intact]
  exact ⟨birth, record, born, of⟩

end StacksExclusive

/-! ## What HUP tells -/

/-- No child closes a write end that it was given or inherited, or starts with arguments
that are not its own. -/
def StartsIntact (system : System) (action : Action) : Prop :=
  system.LeavesCallsAlone action ∧ system.KeepsWriteEnds action ∧ system.ReadsOwnArgs action

/-- No child closes a write end that it was given or inherited, and a stack is reused only
after HUP. -/
def WaitsForHup (system : System) (action : Action) : Prop :=
  system.LeavesCallsAlone action ∧ system.KeepsWriteEnds action ∧ system.ReusesAfterHup action

/-- A read end that reports HUP tells that neither the call's child nor a process that
comes from it is still before its `execve` or exit. -/
def HupMeansOver (system : System) : Prop :=
  ∀ call, system.Hup call → ∀ proc, system.DescendsFrom call proc → system.phase proc ≠ .live

/-- There are no two live children on one stack, and a live child's arguments are still
those that its call placed. -/
structure StacksSafe (system : System) : Prop where
  unshared : ∀ first second one other, system.phase first = .live →
    system.phase second = .live → system.birth first = some one →
    system.birth second = some other → one.args.block = other.args.block → first = second
  intact : ∀ proc birth, system.phase proc = .live → system.birth proc = some birth →
    ∃ record, system.calls birth.call = some record ∧
      record.progress.args = some (system.args birth.args.block)

theorem StacksExclusive.stacksSafe (exclusive : system.StacksExclusive)
    (lineage : system.Lineage) : system.StacksSafe := by
  have notOver {proc : Nat} {birth : Birth} {record : CallRecord}
      (live : system.phase proc = .live) (born : system.birth proc = some birth) :
      ¬ system.Over birth.call record :=
    fun ended => ended.2 proc ⟨birth, born, rfl⟩ live
  constructor
  · intro first second one other live live' born born' same
    obtain ⟨record, args, of⟩ := lineage.born first one born
    obtain ⟨record', args', of'⟩ := lineage.born second other born'
    have calls := exclusive.alone of.known of'.known
      (of.block.symm.trans (same.trans of'.block)) (notOver live born) (notOver live' born')
    have known := of.known
    rw [calls] at known
    cases known.symm.trans of'.known
    exact Int.ofNat_inj.mp (Option.some.inj (of.child.symm.trans of'.child))
  · intro proc birth live born
    obtain ⟨record, args, of⟩ := lineage.born proc birth born
    have intact := exclusive.intact birth.call record args of.known of.placed (notOver live born)
    exact ⟨record, of.known, by rw [of.block, intact, of.placed]⟩

theorem writeEndsKept_of_reaches (initial : start.Initial)
    (reached : Reaches step StartsIntact start system) :
    system.Considerate ∧ system.WriteEndsKept := by
  refine reached.invariant (fun state => state.Considerate ∧ state.WriteEndsKept)
    ⟨⟨.of_initial initial, .of_initial initial⟩, .of_initial initial⟩ ?_
  intro state next action ⟨considerate, kept⟩ ⟨alone, keeps, own⟩ stepped
  have change := considerate.wellFormed.change stepped
  exact ⟨considerate.of_change alone change, kept.of_change considerate keeps own change⟩

/-- The invariants of runs whose callers wait for HUP. -/
structure HupAwaited (system : System) : Prop where
  considerate : system.Considerate
  kept : system.WriteEndsKept
  exclusive : system.StacksExclusive

namespace HupAwaited

theorem of_initial (initial : system.Initial) : system.HupAwaited :=
  ⟨⟨.of_initial initial, .of_initial initial⟩, .of_initial initial, .of_initial initial⟩

theorem readsOwnArgs (awaited : system.HupAwaited) (action : Action) :
    system.ReadsOwnArgs action :=
  awaited.exclusive.readsOwnArgs awaited.considerate.wellFormed action

theorem of_step {action : Action} (awaited : system.HupAwaited)
    (waits : system.WaitsForHup action) (stepped : system.step action = some next) :
    next.HupAwaited := by
  have own := awaited.readsOwnArgs action
  obtain ⟨considerate, kept, exclusive⟩ := awaited
  obtain ⟨alone, keeps, reuses⟩ := waits
  have change := considerate.wellFormed.change stepped
  exact ⟨considerate.of_change alone change, kept.of_change considerate keeps own change,
    exclusive.of_change considerate kept reuses change⟩

end HupAwaited

/-- Callers that wait for HUP make children read their own arguments. -/
theorem hupAwaited_of_reaches (initial : start.Initial)
    (reached : Reaches step WaitsForHup start system) :
    Reaches step StartsIntact start system ∧ system.HupAwaited := by
  refine reached.strengthen HupAwaited (.of_initial initial) .of_step ?_
  intro state action awaited ⟨alone, keeps, _⟩
  exact ⟨alone, keeps, awaited.readsOwnArgs action⟩

/-- HUP means that the stack is free, in every run in which no child closes a write end
that it was given or inherited, or starts with arguments that were overwritten. Callers
that reuse a stack only after HUP see to the latter themselves. -/
theorem stack_reuse_safe (initial : start.Initial) :
    (∀ system, Reaches step StartsIntact start system → system.HupMeansOver) ∧
      ∀ system, Reaches step WaitsForHup start system →
        system.HupMeansOver ∧ system.StacksSafe := by
  have hupMeansOver {system : System} (reached : Reaches step StartsIntact start system) :
      system.HupMeansOver := by
    obtain ⟨considerate, kept⟩ := writeEndsKept_of_reaches initial reached
    intro call hup proc descends live
    exact kept.not_hup considerate.wellFormed.lineage descends live hup
  refine ⟨fun system reached => hupMeansOver reached, fun system reached => ?_⟩
  obtain ⟨ownArgs, considerate, _, exclusive⟩ := hupAwaited_of_reaches initial reached
  exact ⟨hupMeansOver ownArgs, exclusive.stacksSafe considerate.wellFormed.lineage⟩

theorem waitsForHup_of_code {action : Action} (code : action.isUser = false)
    (reuses : system.ReusesAfterHup action) : system.WaitsForHup action := by
  refine ⟨leavesCallsAlone_of_not_isUser code, fun task op same => ?_, reuses⟩
  cases same
  cases code

/-- A stack that is used once, with the descriptors 3 and 4. -/
def usedOnce : List Action := List.flatten [
  [.aspawn (mainTask 0) 0 100 200 0 0],
  Action.codes (mainTask 0) [.ok, .ok, .fds 3 4, .ok, .ok, .ok, .ok, .ok, .ok, .ok, .ok],
  [.finish (mainTask 0)]]

/-- It is used again while the first child has not yet read its arguments. -/
def reusedEarly : List Action := List.flatten [
  usedOnce, [.aspawn (mainTask 0) 0 101 201 0 0],
  Action.codes (mainTask 0) [.ok, .ok, .fds 4 5, .ok, .ok],
  Action.codes (mainTask 1) (List.replicate 3 .ok), [.enter 1]]

/-- A child that starts with the arguments of a later call closes its own write end. -/
theorem hup_before_child_is_over :
    ∃ system, run step (boot .default reservedStacks) reusedEarly = some system ∧
      (∀ action ∈ reusedEarly, action.isUser = false) ∧ system.IsChildOf 0 1 ∧
      system.phase 1 = .live ∧ system.Hup 0 := by
  have completes : ((run step (boot .default reservedStacks) reusedEarly).map
      fun system => ((system.birth 1).map Birth.call, system.phase 1, system.pipeOf 0,
        system.noWriter 8 0)) = some (some 0, .live, some 0, true) := by
    decide +kernel
  obtain ⟨system, performed, values⟩ := Option.map_eq_some_iff.mp completes
  simp only [Prod.mk.injEq] at values
  obtain ⟨birth, phase, made, noWriter⟩ := values
  obtain ⟨found, born, of⟩ := Option.map_eq_some_iff.mp birth
  have code : ∀ action ∈ reusedEarly, action.isUser = false := by decide
  have considerate := considerate_of_reaches boot_initial (.of_run performed
    (.of_forall fun action member _ => leavesCallsAlone_of_not_isUser (code action member)))
  have within : system.FdsWithin 8 := (boot_fdsWithin (by decide)).of_run (by decide) performed
  exact ⟨system, performed, code, ⟨found, born, of⟩, phase,
    hup_of_noWriter considerate.wellFormed.numbered within made noWriter⟩

/-- The child of the first use is past its `execve`. -/
def firstUseOver : List Action := List.flatten [
  usedOnce, Action.codes (mainTask 1) (List.replicate 3 .ok), [.enter 1, .execve 1]]

def secondUse : List Action := List.flatten [
  [.aspawn (mainTask 0) 0 101 201 0 0],
  Action.codes (mainTask 0) [.ok, .ok, .fds 4 5, .ok, .ok, .ok, .ok]]

theorem reusesAfterHup_of_not_starts {action : Action} (starts : action.starts = none) :
    system.ReusesAfterHup action := by
  intro kind block starting
  cases starts.symm.trans starting

theorem stack_reuse_safe_twice :
    ∃ system, Reaches step WaitsForHup (boot .default reservedStacks) system ∧
      system.phase 2 = .live ∧ system.HupMeansOver ∧ system.StacksSafe := by
  have completes : ((run step (boot .default reservedStacks) firstUseOver).bind
      fun middle => (run step middle secondUse).map fun system =>
        (middle.nextCall, (middle.calls 0).map CallRecord.returned, middle.pipeOf 0,
          middle.noWriter 8 0, system.phase 2)) =
      some (1, some (some 3), some 0, true, .live) := by
    decide +kernel
  obtain ⟨middle, before, later⟩ := Option.bind_eq_some_iff.mp completes
  obtain ⟨system, after, values⟩ := Option.map_eq_some_iff.mp later
  simp only [Prod.mk.injEq] at values
  obtain ⟨nextCall, returned, made, noWriter, live⟩ := values
  have code : ∀ action ∈ firstUseOver.tail ++ secondUse.tail,
      action.isUser = false ∧ action.starts = none := by
    decide
  have allowed (action : Action) (member : action ∈ firstUseOver.tail ++ secondUse.tail)
      (state : System) : state.WaitsForHup action :=
    waitsForHup_of_code (code action member).1 (reusesAfterHup_of_not_starts (code action member).2)
  have first : Reaches step WaitsForHup (boot .default reservedStacks) middle := by
    have start : firstUseOver =
      .aspawn (mainTask 0) 0 100 200 0 0 :: firstUseOver.tail := rfl
    rw [start] at before
    refine .of_run before (.cons (waitsForHup_of_code rfl ?_) fun _ => .of_forall ?_)
    · exact fun _ _ _ _ _ known => nomatch known
    · exact fun action member => allowed action (List.mem_append_left _ member)
  -- the first call has returned the descriptor 3, which reports HUP by now
  have hup : middle.Hup 0 := by
    have within : middle.FdsWithin 8 := (boot_fdsWithin (by decide)).of_run (by decide) before
    have considerate := considerate_of_reaches boot_initial
      (first.mono fun waits => waits.1)
    exact hup_of_noWriter considerate.wellFormed.numbered within made noWriter
  have reuses : middle.ReusesAfterHup (.aspawn (mainTask 0) 0 101 201 0 0) := by
    intro kind block _ call record known _
    have considerate := considerate_of_reaches boot_initial (first.mono fun waits => waits.1)
    have bound := considerate.wellFormed.numbered.call_lt known
    obtain rfl : call = 0 := by omega
    rw [known] at returned
    exact ⟨3, Option.some.inj returned, .inr hup⟩
  have second : Reaches step WaitsForHup middle system := by
    have start : secondUse =
      .aspawn (mainTask 0) 0 101 201 0 0 :: secondUse.tail := rfl
    rw [start] at after
    refine .of_run after (.cons (waitsForHup_of_code rfl reuses) fun _ => .of_forall ?_)
    exact fun action member => allowed action (List.mem_append_right _ member)
  exact ⟨system, first.trans second, live, (stack_reuse_safe boot_initial).2 system
    (first.trans second)⟩

end System

end Aspawn
