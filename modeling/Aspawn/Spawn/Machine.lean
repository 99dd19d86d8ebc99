import Aspawn.AddressSpaceProperties
import Aspawn.Spawn.StackPointers
import Aspawn.Spawn.StackReuseProperties

/-! The processes of a spawn tree together with the memory that they share until they
`execve` or exit: any of them may reserve, fill and clean up `Stack_t`s and map other
pages, between and during the calls and the children of the others. -/

set_option autoImplicit false

namespace Aspawn

open Transition

/-- User code overwrites a `Stack_t`. -/
def System.Action.overwritesStack : System.Action → Bool
  | .user _ (.setStack _ _) => true
  | _ => false

structure Machine where
  system : System
  space : AddressSpace

inductive MachineAction where
  | system (action : System.Action)
  /-- A thread in user code works on memory. -/
  | memory (task : TaskId) (op : SpaceOp)

namespace Machine

/-- `Stack_t` variables are only written by the library. -/
def step (machine : Machine) : MachineAction → Option Machine
  | .system action =>
      if action.overwritesStack then none
      else
        match machine.system.step action with
        | none => none
        | some system => some { machine with system }
  | .memory task op =>
      match machine.space.step STACK_GROWS_DOWN op, op.block with
      | none, _ => none
      | some space, none =>
          match machine.system.control task with
          | .user => some { machine with space }
          | _ => none
      | some space, some block =>
          match machine.system.step (.user task (.setStack block (space.accounts block).stack)) with
          | none => none
          | some system => some { system, space }

/-- A root process before its first call and its first reservation. -/
structure Initial (machine : Machine) : Prop where
  system : machine.system.Initial
  cachedStacks : ∀ block, machine.system.cachedStacks block = initCachedStack
  accounts : ∀ block, machine.space.accounts block = .start
  noPages : ∀ page block, machine.space.table page ≠ .stack block

/-- The root process with no page mapped. -/
def boot (actions : SigTable) : Machine where
  system := .boot actions fun _ => initCachedStack
  space := .start fun _ => .free

theorem boot_initial {actions : SigTable} : (boot actions).Initial where
  system := System.boot_initial
  cachedStacks _ := rfl
  accounts _ := rfl
  noPages _ _ := SharedOwner.noConfusion

end Machine

/-- Every call on the `Stack_t` has returned, and has failed or its descriptor reports HUP. -/
def System.Idle (system : System) (block : Nat) : Prop :=
  ∀ call record, system.calls call = some record → record.block = block →
    ∃ result, record.returned = some result ∧ (result < 0 ∨ system.Hup call)

namespace Machine

/-- What is asked of user code: calls are made on reserved `Stack_t`s only, no child closes
a write end, and a `Stack_t` is neither given to a call nor worked on before HUP. -/
def Careful (machine : Machine) : MachineAction → Prop
  | .system action => machine.system.WaitsForHup action ∧
      ∀ kind block, action.starts = some (kind, block) → machine.space.Reserved block
  | .memory _ op => machine.space.Allowed op ∧
      ∀ block, op.block = some block → machine.system.Idle block

end Machine

end Aspawn
