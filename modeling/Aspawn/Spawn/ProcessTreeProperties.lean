import Aspawn.Spawn.ProcessTree

/-! What happens in the process tree happens at most once. -/

set_option autoImplicit false

namespace Aspawn

open Transition

namespace ProcessTree

variable {tree later : ProcessTree} {event : SpawnEvent} {call proc : Nat}

/-- The processes that a call has made. -/
def madeFor (tree : ProcessTree) (call : Nat) : Nat :=
  match tree.calls call with
  | none => 0
  | some spawning => if spawning.child.isSome then 1 else 0

def returnedFrom (tree : ProcessTree) (call : Nat) : Nat :=
  match tree.calls call with
  | none => 0
  | some spawning => if spawning.returned.isSome then 1 else 0

def madeAs (tree : ProcessTree) (proc : Nat) : Nat :=
  if tree.processes proc = .absent then 0 else 1

def enteredAs (tree : ProcessTree) (proc : Nat) : Nat :=
  match tree.processes proc with
  | .absent | .made _ => 0
  | .running | .gone => 1

theorem enteredAs_le_madeAs : tree.enteredAs proc ≤ tree.madeAs proc := by
  unfold enteredAs madeAs
  cases tree.processes proc <;> simp

/-- What a step of the tree does. -/
inductive Stepped (tree : ProcessTree) : SpawnEvent → ProcessTree → Prop where
  | called {call : Nat} {caller job pid} :
      tree.calls call = none →
      Stepped tree (.called call caller job pid)
        (tree.setCall call { caller, job, pid, child := none, returned := none })
  | made {call proc : Nat} {pipefd spawning} :
      tree.calls call = some spawning → spawning.child = none → tree.processes proc = .absent →
      Stepped tree (.made call proc pipefd)
        ((tree.setCall call { spawning with child := some (proc, pipefd) }).setProcess proc
          (.made call))
  | returned {call : Nat} {result pid spawning} :
      tree.calls call = some spawning → spawning.returned = none → spawning.Answers result pid →
      Stepped tree (.returned call result pid)
        (tree.setCall call { spawning with returned := some result })
  | entered {proc call : Nat} {job writeEndFd} :
      tree.processes proc = .made call →
      Stepped tree (.entered proc job writeEndFd) (tree.setProcess proc .running)
  | execed {proc : Nat} :
      tree.processes proc = .running →
      Stepped tree (.execed proc) (tree.setProcess proc .gone)
  | exited {proc : Nat} :
      tree.processes proc ≠ .absent →
      Stepped tree (.exited proc) (tree.setProcess proc .gone)

theorem stepped_of_step (stepped : tree.step event = some later) : tree.Stepped event later := by
  cases event with
  | called call caller job pid =>
      simp only [step] at stepped
      split at stepped <;> cases stepped
      rename_i guard
      exact .called (Option.isNone_iff_eq_none.mp guard.1)
  | made call proc pipefd =>
      simp only [step] at stepped
      split at stepped
      · cases stepped
      · rename_i spawning known
        split at stepped <;> cases stepped
        rename_i guard
        exact .made known (Option.isNone_iff_eq_none.mp guard.1) guard.2.2.2
  | returned call result pid =>
      simp only [step] at stepped
      split at stepped
      · cases stepped
      · rename_i spawning known
        split at stepped <;> cases stepped
        rename_i guard
        exact .returned known (Option.isNone_iff_eq_none.mp guard.1) guard.2
  | entered proc job writeEndFd =>
      simp only [step] at stepped
      split at stepped
      · rename_i call made
        split at stepped
        · cases stepped
        · split at stepped <;> cases stepped
          exact .entered made
      · cases stepped
  | execed proc =>
      simp only [step] at stepped
      split at stepped <;> cases stepped
      rename_i running
      exact .execed running
  | exited proc =>
      simp only [step] at stepped
      split at stepped
      · rename_i call made
        cases stepped
        exact .exited (by rw [made]; exact ProcessState.noConfusion)
      · rename_i running
        cases stepped
        exact .exited (by rw [running]; exact ProcessState.noConfusion)
      · cases stepped

theorem setCall_calls {spawning : SpawnCall} (other : Nat) :
    (tree.setCall call spawning).calls other =
      if other = call then some spawning else tree.calls other :=
  Function.update_apply ..

theorem setProcess_processes {state : ProcessState} (other : Nat) :
    (tree.setProcess proc state).processes other =
      if other = proc then state else tree.processes other :=
  Function.update_apply ..

theorem madeFor_of_step (stepped : tree.step event = some later) :
    later.madeFor call = tree.madeFor call + if event.makesFor call then 1 else 0 := by
  have elsewhere {other : Nat} {spawning : SpawnCall} (distinct : call ≠ other) :
      (tree.setCall other spawning).madeFor call = tree.madeFor call := by
    rw [madeFor, madeFor, setCall_calls, if_neg distinct]
  cases stepped_of_step stepped with
  | @called other _ _ _ new =>
      by_cases same : call = other
      · cases same
        simp [madeFor, setCall_calls, new, SpawnEvent.makesFor]
      · exact elsewhere same
  | @made other _ _ spawning known childless =>
      by_cases same : call = other
      · cases same
        simp [madeFor, setProcess, setCall_calls, known, childless, SpawnEvent.makesFor]
      · have distinct : other ≠ call := fun equal => same equal.symm
        simp only [SpawnEvent.makesFor, distinct, decide_false, Bool.false_eq_true, if_false]
        exact elsewhere same
  | @returned other _ _ spawning known =>
      by_cases same : call = other
      · cases same
        simp [madeFor, setCall_calls, known, SpawnEvent.makesFor]
      · exact elsewhere same
  | entered | execed | exited => rfl

theorem returnedFrom_of_step (stepped : tree.step event = some later) :
    later.returnedFrom call = tree.returnedFrom call + if event.returns call then 1 else 0 := by
  have elsewhere {other : Nat} {spawning : SpawnCall} (distinct : call ≠ other) :
      (tree.setCall other spawning).returnedFrom call = tree.returnedFrom call := by
    rw [returnedFrom, returnedFrom, setCall_calls, if_neg distinct]
  cases stepped_of_step stepped with
  | @called other _ _ _ new =>
      by_cases same : call = other
      · cases same
        simp [returnedFrom, setCall_calls, new, SpawnEvent.returns]
      · exact elsewhere same
  | @made other _ _ spawning known =>
      by_cases same : call = other
      · cases same
        simp [returnedFrom, setProcess, setCall_calls, known, SpawnEvent.returns]
      · exact elsewhere same
  | @returned other _ _ spawning known unreturned =>
      by_cases same : call = other
      · cases same
        simp [returnedFrom, setCall_calls, known, unreturned, SpawnEvent.returns]
      · have distinct : other ≠ call := fun equal => same equal.symm
        simp only [SpawnEvent.returns, distinct, decide_false, Bool.false_eq_true, if_false]
        exact elsewhere same
  | entered | execed | exited => rfl

theorem madeAs_of_step (stepped : tree.step event = some later) :
    later.madeAs proc = tree.madeAs proc + if event.makes proc then 1 else 0 := by
  cases stepped_of_step stepped with
  | called | returned => rfl
  | @made _ other _ _ _ _ absent =>
      by_cases same : proc = other
      · cases same
        simp [madeAs, setProcess_processes, setCall, absent, SpawnEvent.makes]
      · have distinct : other ≠ proc := fun equal => same equal.symm
        simp [madeAs, setProcess_processes, setCall, same, SpawnEvent.makes, distinct]
  | @entered other _ _ _ made =>
      by_cases same : proc = other
      · cases same
        simp [madeAs, setProcess_processes, made, SpawnEvent.makes]
      · simp [madeAs, setProcess_processes, same, SpawnEvent.makes]
  | @execed other running =>
      by_cases same : proc = other
      · cases same
        simp [madeAs, setProcess_processes, running, SpawnEvent.makes]
      · simp [madeAs, setProcess_processes, same, SpawnEvent.makes]
  | @exited other present =>
      by_cases same : proc = other
      · cases same
        simp [madeAs, setProcess_processes, present, SpawnEvent.makes]
      · simp [madeAs, setProcess_processes, same, SpawnEvent.makes]

theorem enteredAs_of_step (stepped : tree.step event = some later) :
    tree.enteredAs proc + (if event.enters proc then 1 else 0) ≤ later.enteredAs proc := by
  have bound : tree.enteredAs proc ≤ 1 := by
    unfold enteredAs
    split <;> omega
  cases stepped_of_step stepped with
  | called | returned => exact le_rfl
  | @made _ other _ _ _ _ absent =>
      by_cases same : proc = other
      · cases same
        simp [enteredAs, setProcess_processes, setCall, absent, SpawnEvent.enters]
      · simp [enteredAs, setProcess_processes, setCall, same, SpawnEvent.enters]
  | @entered other _ _ _ made =>
      by_cases same : proc = other
      · cases same
        simp [enteredAs, setProcess_processes, made, SpawnEvent.enters]
      · have distinct : other ≠ proc := fun equal => same equal.symm
        simp [enteredAs, setProcess_processes, same, SpawnEvent.enters, distinct]
  | @execed other | @exited other =>
      by_cases same : proc = other
      · cases same
        simpa [enteredAs, setProcess_processes, SpawnEvent.enters] using bound
      · simp [enteredAs, setProcess_processes, same, SpawnEvent.enters]

section Runs

variable {events : List SpawnEvent} (performed : run step start events = some tree)

include performed

theorem countP_makesFor : events.countP (SpawnEvent.makesFor call) = tree.madeFor call := by
  have counted : tree.madeFor call = start.madeFor call + _ :=
    countP_of_run performed madeFor_of_step
  exact (counted.trans (Nat.zero_add _)).symm

theorem countP_returns : events.countP (SpawnEvent.returns call) = tree.returnedFrom call := by
  have counted : tree.returnedFrom call = start.returnedFrom call + _ :=
    countP_of_run performed returnedFrom_of_step
  exact (counted.trans (Nat.zero_add _)).symm

theorem countP_makes (child : proc ≠ 0) :
    events.countP (SpawnEvent.makes proc) = tree.madeAs proc := by
  have counted : tree.madeAs proc = start.madeAs proc + _ :=
    countP_of_run performed madeAs_of_step
  have none : start.madeAs proc = 0 := by
    simp [madeAs, start, child]
  omega

theorem countP_enters : events.countP (SpawnEvent.enters proc) ≤ tree.enteredAs proc := by
  have counted : start.enteredAs proc + _ ≤ tree.enteredAs proc :=
    countP_le_of_run performed enteredAs_of_step
  omega

end Runs

end ProcessTree

end Aspawn
