import Aspawn.StackSession
import Mathlib.Logic.Function.Basic

/-! One address space with any number of `Stack_t` variables, as threads of a process
and the children that share its memory use them. Seen from one `Stack_t`, the pages of
all others belong to the rest of the process. -/

set_option autoImplicit false

namespace Aspawn

/-- Whom a page belongs to when there are several `Stack_t`s. -/
inductive SharedOwner where
  | free
  | stack (block : Nat)
  | other
  deriving DecidableEq, Repr

abbrev SharedTable := Nat → SharedOwner

/-- The owner as one `Stack_t` sees it. -/
def SharedOwner.view (block : Nat) : SharedOwner → PageOwner
  | .free => .free
  | .stack number => if number = block then .stack else .other
  | .other => .other

/-- The kernel's answer to a memory call made for one of the `Stack_t`s. -/
def spaceKernel (block : Nat) : UInt64 → SharedTable → MapRequest → Option (UInt64 × SharedTable) :=
  mapKernel .free (.stack block)

structure AddressSpace where
  table : SharedTable
  accounts : Nat → Account

inductive SpaceOp where
  | reserveStack (block : Nat) (reservedStackSz objToPlaceOnStackLen raw : UInt64)
  | allocateObjOnStack (block : Nat) (len : UInt64)
  /-- `cleanup_stack`. After a success the variable is not used but through
  `init_cached_stack`. -/
  | cleanupStack (block : Nat) (raw : UInt64)
  | otherMap (addr len : Nat)
  | otherUnmap (addr len : Nat)
  deriving DecidableEq, Repr

/-- The `Stack_t` that an operation is given. -/
def SpaceOp.block : SpaceOp → Option Nat
  | .reserveStack block _ _ _ | .allocateObjOnStack block _ | .cleanupStack block _ => some block
  | .otherMap _ _ | .otherUnmap _ _ => none

namespace AddressSpace

/-- No `Stack_t` has been reserved yet. -/
def start (table : SharedTable) : AddressSpace where
  table := table
  accounts _ := .start

/-- The session of one `Stack_t`. -/
def view (space : AddressSpace) (block : Nat) : Session :=
  (space.accounts block).session fun page => (space.table page).view block

def setAccount (space : AddressSpace) (block : Nat) (account : Account) (table : SharedTable) :
    AddressSpace where
  table := table
  accounts := Function.update space.accounts block account

/-- Pages that no `Stack_t` records any more are the process's. -/
def forget (block : Nat) (table : SharedTable) : SharedTable := fun page =>
  if table page = .stack block then .other else table page

def step (stackGrowsDown : Bool) (space : AddressSpace) : SpaceOp → Option AddressSpace
  | .reserveStack block reservedStackSz objToPlaceOnStackLen raw =>
      let account := space.accounts block
      match Program.execute (spaceKernel block raw)
          (reserveStack account.stack reservedStackSz objToPlaceOnStackLen) space.table with
      | none => none
      | some ((result, stack), table) => some (space.setAccount block
          (account.reserved reservedStackSz objToPlaceOnStackLen result stack) table)
  | .allocateObjOnStack block len =>
      some (space.setAccount block ((space.accounts block).place stackGrowsDown len) space.table)
  | .cleanupStack block raw =>
      match Program.execute (spaceKernel block raw)
          (cleanupStack (space.accounts block).stack) space.table with
      | none => none
      | some (result, table) =>
          if result = 0 then some (space.setAccount block .start (forget block table))
          else some { space with table }
  | .otherMap addr len =>
      if ∀ page ∈ pagesOf addr len, space.table page = .free then
        some { space with table := Pages.assign space.table (pagesOf addr len) .other }
      else none
  | .otherUnmap addr len =>
      if ∀ page ∈ pagesOf addr len, space.table page = .other then
        some { space with table := Pages.assign space.table (pagesOf addr len) .free }
      else none

end AddressSpace

end Aspawn
