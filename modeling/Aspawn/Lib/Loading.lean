import Mathlib.Logic.Function.Basic
import Mathlib.Data.List.Nodup

/-! Values passed in an ordered list of places, such as the argument registers of a calling
convention. A reader of more places than were loaded sees what was left in the others. -/

set_option autoImplicit false

namespace Loading

variable {Place Value : Type} [DecidableEq Place]

/-- Put the values in the places, in order; every other place keeps its value. -/
def load : List Place → List Value → (Place → Value) → Place → Value
  | place :: places, value :: values, file =>
      Function.update (load places values file) place value
  | _, _, file => file

/-- What a reader of the first `count` places sees. -/
def read (places : List Place) (count : Nat) (file : Place → Value) : List Value :=
  (places.take count).map file

variable {places : List Place} {values : List Value} {file : Place → Value} {count : Nat}

end Loading
