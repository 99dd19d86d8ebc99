import Aspawn.Lib.RoundUp
import Mathlib.Order.Interval.Finset.Nat

/-! Pages of an address space and their owners. A byte range is served by the
pages it touches; for an aligned start these are exactly the pages below its
rounded end. -/

set_option autoImplicit false

namespace Pages

/-- The pages that a mapping call with this address and length works on. -/
def covering (unit addr len : Nat) : Finset Nat :=
  Finset.Ico (addr / unit) (addr / unit + roundUp len unit / unit)

/-- Give every page of the range to one owner. -/
def assign {Owner : Type} (owner : Nat → Owner) (range : Finset Nat) (value : Owner) :
    Nat → Owner :=
  fun page => if page ∈ range then value else owner page

variable {Owner : Type} {owner : Nat → Owner} {value : Owner} {range : Finset Nat}
  {unit addr len page byte : Nat}

@[simp] theorem assign_of_mem (member : page ∈ range) : assign owner range value page = value :=
  if_pos member

@[simp] theorem assign_of_not_mem (absent : page ∉ range) :
    assign owner range value page = owner page :=
  if_neg absent

/-- Assigning and renaming the owners commute. -/
theorem rename_assign {Name : Type} (rename : Owner → Name) :
    (fun page => rename (assign owner range value page)) =
      assign (fun page => rename (owner page)) range (rename value) := by
  funext page
  exact apply_ite rename _ _ _

theorem mem_covering_iff (positive : 0 < unit) (aligned : unit ∣ addr) :
    page ∈ covering unit addr len ↔
      addr ≤ unit * page ∧ unit * page < addr + roundUp len unit := by
  obtain ⟨first, rfl⟩ := aligned
  have count : roundUp len unit / unit = len ⌈/⌉ unit := Nat.mul_div_cancel_left _ positive
  rw [covering, Finset.mem_Ico, count, Nat.mul_div_cancel_left _ positive, roundUp,
    ← Nat.mul_add]
  exact and_congr (Nat.mul_le_mul_left_iff positive).symm
    (Nat.mul_lt_mul_left positive).symm

theorem byte_mem_covering (positive : 0 < unit) (aligned : unit ∣ addr) (low : addr ≤ byte)
    (high : byte < addr + len) : byte / unit ∈ covering unit addr len := by
  have rounded : len ≤ roundUp len unit := roundUp.le positive
  have below : unit * (byte / unit) ≤ byte := Nat.mul_div_le _ _
  obtain ⟨first, rfl⟩ := aligned
  have start : first ≤ byte / unit :=
    (Nat.le_div_iff_mul_le positive).mpr (by rw [Nat.mul_comm]; exact low)
  rw [mem_covering_iff positive (Nat.dvd_mul_right _ _)]
  exact ⟨Nat.mul_le_mul_left _ start, by omega⟩

end Pages
