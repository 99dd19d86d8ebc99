import Aspawn.Errno
import Aspawn.Lib.Program
import Mathlib.Data.Finset.Lattice.Fold

/-! `psys_getpriority` and `psys_setpriority` of `syscall/syscall.c`, and the nice values of the
processes that their system calls work on. -/

set_option autoImplicit false

namespace Aspawn

/-! ## `syscall/syscall.c` -/

inductive PriorityRequest where
  | getpriority (which who : Int)
  | setpriority (which who niceval : Int)
  deriving DecidableEq, Repr

abbrev PriorityCalls : Signature where
  Request := PriorityRequest
  Response _ := Int

def psysGetpriority (which who : Int) : Program PriorityCalls Int :=
  Program.perform (S := PriorityCalls) (.getpriority which who)

/-- The parameter is `unice` here and `knice` in `syscall/syscall.h`. -/
def psysSetpriority (which who unice : Int) : Program PriorityCalls Int :=
  Program.perform (S := PriorityCalls) (.setpriority which who unice)

/-! ## The kernel -/

@[ext] structure Nice where
  value : Int
  low : -20 ≤ value
  high : value ≤ 19
  deriving DecidableEq, Repr

/-- The nearest nice value. -/
def Nice.clamp (value : Int) : Nice where
  value := max (-20) (min 19 value)
  low := by omega
  high := by omega

/-- The lowest nice value of a set of processes. -/
def lowestNice (nice : Nat → Nice) (selected : Finset Nat) (nonempty : selected.Nonempty) : Int :=
  selected.inf' nonempty fun proc => (nice proc).value

/-- The raw calls: the getter is biased by 20, the setter takes a nice value as it is.
`select` gives the processes that `which` and `who` mean. -/
def PriorityCalls.handle (select : Int → Int → Finset Nat) (nice : Nat → Nice) :
    PriorityRequest → Option (Int × (Nat → Nice))
  | .getpriority which who =>
      if nonempty : (select which who).Nonempty then
        some (20 - lowestNice nice (select which who) nonempty, nice)
      else
        some (-ESRCH, nice)
  | .setpriority which who niceval =>
      if (select which who).Nonempty then
        some (0, fun proc => if proc ∈ select which who then .clamp niceval else nice proc)
      else
        some (-ESRCH, nice)

def restorePriority (which who : Int) : Program PriorityCalls Int := do
  psysSetpriority which who (← psysGetpriority which who)

def setThenGetPriority (which who knice : Int) : Program PriorityCalls Int := do
  let _ ← psysSetpriority which who knice
  psysGetpriority which who

end Aspawn
