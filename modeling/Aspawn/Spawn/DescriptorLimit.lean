import Aspawn.Spawn.HupProperties

/-! Runs that use only descriptors below a limit. In their states it can be computed
whether a read end reports HUP. -/

set_option autoImplicit false

namespace Aspawn

open Transition

namespace System

variable {system next after start : System} {task : TaskId} {call proc limit : Nat}

def Choice.within (limit : Nat) : Choice → Bool
  | .fds read write => read < limit && write < limit
  | _ => true

/-- The action opens no descriptor from `limit` on. -/
def Action.within (limit : Nat) : Action → Bool
  | .code _ choice => choice.within limit
  | .user _ (.open fd _ _) => fd < limit
  | .user _ (.dup _ new _) => new < limit
  | _ => true

def FdsWithin (system : System) (limit : Nat) : Prop :=
  ∀ proc fd, limit ≤ fd → system.fds proc fd = none

theorem FdsWithin.setFd {fd : Nat} {entry : Option FdEntry} (within : system.FdsWithin limit)
    (inside : entry = none ∨ fd < limit) : (system.setFd proc fd entry).FdsWithin limit := by
  intro other number beyond
  rw [setFd_fds]
  split
  · rename_i here
    rcases inside with removed | inside
    · exact removed
    · omega
  · exact within other number beyond

theorem FdsWithin.handle {choice : Choice} {request : SysRequest} {response : request.Response}
    (within : system.FdsWithin limit) (inside : choice.within limit)
    (handled : system.handle task call choice request = some (response, after)) :
    after.FdsWithin limit := by
  cases request with
  | sigprocmask how set oldset =>
      simp only [System.handle] at handled
      split at handled
      · cases handled
        exact within
      · split at handled <;> cases handled
        exact within
      · cases handled
  | pipe2 flags =>
      simp only [System.handle] at handled
      split at handled
      · cases handled
      · cases handled
        exact within
      · split at handled <;> cases handled
        simp only [Choice.within, Bool.and_eq_true, decide_eq_true_eq] at inside
        exact (within.setFd (.inr inside.1)).setFd (.inr inside.2)
  | clone fn stack flags ptr =>
      simp only [System.handle] at handled
      split at handled
      · split at handled <;> cases handled
        intro other number beyond
        rw [spawn_fds]
        split <;> exact within _ number beyond
      · cases handled
        exact within
      · cases handled
  | clone3 clArgs fn ptr =>
      simp only [System.handle] at handled
      split at handled
      · split at handled <;> cases handled
        intro other number beyond
        rw [spawn_fds]
        split <;> exact within _ number beyond
      · cases handled
        exact within
      · cases handled
  | close fd =>
      simp only [System.handle] at handled
      split at handled <;> cases handled
      · exact within
      · exact within.setFd (.inl rfl)
      · exact within.setFd (.inl rfl)
  | rtSigaction signum act =>
      simp only [System.handle] at handled
      split at handled
      · split at handled <;> cases handled <;> exact within
      · cases handled
        exact within
  | _ =>
      cases handled
      exact within

theorem FdsWithin.of_step {action : Action} (within : system.FdsWithin limit)
    (inside : action.within limit) (stepped : system.step action = some next) :
    next.FdsWithin limit := by
  cases stepped_of_step stepped with
  | call _ _ handled =>
      have kept := within.handle inside handled
      exact kept
  | starting _ _ handled =>
      have kept := within.handle inside handled
      exact kept
  | @user task op _ _ stepped =>
      cases op with
      | close fd =>
          cases stepped
          exact within.setFd (.inl rfl)
      | «open» fd file cloexec =>
          simp only [System.userStep] at stepped
          split at stepped <;> cases stepped
          exact within.setFd (.inr (by simpa [Action.within] using inside))
      | dup old new cloexec =>
          simp only [System.userStep] at stepped
          split at stepped <;> cases stepped
          exact within.setFd (.inr (by simpa [Action.within] using inside))
      | _ =>
          cases stepped
          exact within
  | @left _ proc _ _ _ _ leaves =>
      intro other number beyond
      simp only [System.leave, Function.update_apply]
      split
      · rcases leaves with ⟨_, rfl⟩ | ⟨_, rfl⟩
        · simp [FdTable.afterExec, within proc number beyond]
        · rfl
      · exact within other number beyond
  | _ => exact within

theorem FdsWithin.of_run {actions : List Action} (within : start.FdsWithin limit)
    (inside : ∀ action ∈ actions, action.within limit = true)
    (performed : run step start actions = some system) : system.FdsWithin limit := by
  have permitted : Along step (fun _ action => action.within limit = true) start actions :=
    .of_forall fun action member _ => inside action member
  refine (Reaches.of_run performed permitted).invariant (fun state => state.FdsWithin limit)
    within fun kept allowed stepped => kept.of_step allowed stepped

theorem boot_fdsWithin {actions : SigTable} {cachedStacks : Nat → StackT} (streams : 3 ≤ limit) :
    (boot actions cachedStacks).FdsWithin limit :=
  fun _ _ beyond => if_neg fun stream => absurd (Nat.le_trans streams beyond) (Nat.not_le.mpr stream.2)

/-- No process has the write end of the pipe at a descriptor below the limit. -/
def noWriter (system : System) (limit pipe : Nat) : Bool :=
  (List.range system.nextProc).all fun proc => (List.range limit).all fun fd =>
    (system.fds proc fd).map FdEntry.file != some (.writeEnd pipe)

theorem hup_of_noWriter {pipe : Nat} (numbered : system.Numbered)
    (within : system.FdsWithin limit) (made : system.pipeOf call = some pipe)
    (none : system.noWriter limit pipe) : system.Hup call := by
  refine ⟨pipe, made, fun proc ⟨fd, entry, held, isWrite⟩ => ?_⟩
  have born : proc < system.nextProc := by
    by_contra later
    rw [(numbered.unborn proc (Nat.le_of_not_lt later)).2.1] at held
    cases held
  have low : fd < limit := by
    by_contra beyond
    cases (within proc fd (Nat.le_of_not_lt beyond)).symm.trans held
  simp only [noWriter, List.all_eq_true, List.mem_range, bne_iff_ne] at none
  exact none proc born fd low (by rw [held, ← isWrite]; rfl)

end System

end Aspawn
