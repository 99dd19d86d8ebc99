import Aspawn.Spawn.PipeOwnership

/-! `aspawn` is a transaction of the calling thread: it either has exactly one child and
added exactly one descriptor, or it has none and added nothing. -/

set_option autoImplicit false

namespace Aspawn

open Transition

namespace System

variable {system next start before entered after : System} {task : TaskId} {call : Nat}

/-- The invariants of considerate runs. -/
structure Considerate (system : System) : Prop where
  wellFormed : system.WellFormed
  calls : system.CallsOwn

theorem Considerate.of_change {action : Action} (considerate : system.Considerate)
    (alone : system.LeavesCallsAlone action) (change : system.Change action next) :
    next.Considerate :=
  ⟨considerate.wellFormed.of_change change,
    considerate.calls.of_change considerate.wellFormed alone change⟩

theorem considerate_of_reaches (initial : start.Initial)
    (reached : Reaches step LeavesCallsAlone start system) : system.Considerate := by
  refine reached.invariant _ ⟨.of_initial initial, .of_initial initial⟩ ?_
  intro state next action considerate alone stepped
  exact considerate.of_change alone (considerate.wellFormed.change stepped)

theorem Considerate.success {record : CallRecord} {result : Int}
    (considerate : system.Considerate)
    (returns : system.control task = .inCall call (.done result))
    (runs : system.Runs task call (.done result) record) (positive : 0 ≤ result) :
    ∃ child fd pipe : Nat, system.IsChildOf call child ∧ record.progress.pid = child ∧
      result = fd ∧ system.pipeOf call = some pipe ∧
      ∀ other entry, (system.fds task.proc other = some entry ∧ entry.file.pipe = some pipe) ↔
        other = fd ∧ entry = { file := .readEnd pipe, cloexec := true } := by
  have finished : record.start.Finished record.progress result := runs.conforms
  obtain ⟨pipefd, pid, opened, same, readOpen, child, stored⟩ := finished.success positive
  have owns := considerate.calls.owns task call record ⟨⟨_, returns⟩, runs.known⟩
  obtain ⟨_, pipe, made⟩ := owns.opened pipefd opened
  obtain ⟨proc, birth, rfl, born, of⟩ :=
    considerate.wellFormed.lineage.child call record pid runs.known child
  refine ⟨proc, pipefd.1, pipe, ⟨birth, born, of⟩, stored, same, made, fun other entry => ?_⟩
  rw [owns.table pipe made other entry, Progress.ends, opened]
  simp only [readOpen, finished.writeClosed, and_true, Bool.false_eq_true, and_false, if_false]
  constructor
  · intro ends
    split at ends
    · rename_i here
      cases ends
      exact ⟨here, rfl⟩
    · cases ends
  · rintro ⟨rfl, rfl⟩
    rw [if_pos rfl]

theorem Considerate.failure {record : CallRecord} {result : Int}
    (considerate : system.Considerate)
    (returns : system.control task = .inCall call (.done result))
    (runs : system.Runs task call (.done result) record) (negative : result < 0) :
    IsError result ∧ (∀ child, ¬ system.IsChildOf call child) ∧
      record.progress.pid = record.start.pid ∧ ∀ pipe, system.pipeOf call = some pipe →
        ∀ fd entry, system.fds task.proc fd = some entry → entry.file.pipe ≠ some pipe := by
  have finished : record.start.Finished record.progress result := runs.conforms
  obtain ⟨error, childless, readClosed, unchanged⟩ := finished.failure negative
  have owns := considerate.calls.owns task call record ⟨⟨_, returns⟩, runs.known⟩
  refine ⟨error, fun child isChild => ?_, unchanged, fun pipe made fd entry placed ofPipe => ?_⟩
  · have child := (considerate.wellFormed.lineage.isChildOf_iff runs.known).mp isChild
    cases childless.symm.trans child
  · have ends := (owns.table pipe made fd entry).mp ⟨placed, ofPipe⟩
    have holds := Progress.holds_iff.mpr ⟨entry, ends⟩
    obtain ⟨_, _, ⟨_, readOpen⟩ | ⟨_, writeOpen⟩⟩ := holds
    · cases readClosed.symm.trans readOpen
    · cases finished.writeClosed.symm.trans writeOpen

/-- Thread 0 has made its pipe when a call of thread 1 finds that there is no `clone3`. -/
def flagSetMeanwhile : List Action :=
  let other : List Choice := [.ok, .ok, .fds 7 5, .ok, .ok, .ok, .fail .nosys, .ok, .ok]
  List.flatten [
    Action.codes (mainTask 0) [.ok, .ok, .fds 3 4, .ok, .ok],
    [.aspawn { proc := 0, thread := 1 } 1 101 201 0 0],
    Action.codes { proc := 0, thread := 1 } other,
    Action.codes (mainTask 0) [.ok, .ok, .ok, .ok, .ok, .ok]]

end System

end Aspawn
