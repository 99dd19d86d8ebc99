/-! Byte-addressed objects with checked access: an access outside the object has
no result. A sequence of stores amounts to one overwritten range. -/

set_option autoImplicit false

namespace Buffer

variable {α : Type}

def load (buffer : List α) (index : Nat) : Option α := buffer[index]?

def store (buffer : List α) (index : Nat) (value : α) : Option (List α) :=
  if index < buffer.length then some (buffer.set index value) else none

/-- The object after consecutive stores of `values` from `position` on. -/
def overwrite (buffer : List α) (position : Nat) (values : List α) : List α :=
  buffer.take position ++ values ++ buffer.drop (position + values.length)

variable {buffer values first second : List α} {value : α} {index position : Nat}

theorem load_of_lt (inside : index < buffer.length) :
    load buffer index = some buffer[index] :=
  List.getElem?_eq_getElem inside

theorem store_of_lt (inside : index < buffer.length) :
    store buffer index value = some (overwrite buffer index [value]) := by
  rw [store, if_pos inside, List.set_eq_take_append_cons_drop, if_pos inside]
  simp [overwrite]

@[simp] theorem overwrite_nil : overwrite buffer position [] = buffer := by
  simp [overwrite]

theorem length_overwrite (inside : position + values.length ≤ buffer.length) :
    (overwrite buffer position values).length = buffer.length := by
  simp only [overwrite, List.length_append, List.length_take, List.length_drop]
  omega

theorem overwrite_append (inside : position + first.length ≤ buffer.length) :
    overwrite (overwrite buffer position first) (position + first.length) second =
      overwrite buffer position (first ++ second) := by
  have kept : (buffer.take position ++ first).length = position + first.length := by
    simp only [List.length_append, List.length_take]
    omega
  have head : (overwrite buffer position first).take (position + first.length) =
      buffer.take position ++ first := by
    rw [overwrite, ← kept, List.take_left]
  have tail : (overwrite buffer position first).drop
      (position + first.length + second.length) =
        buffer.drop (position + (first ++ second).length) := by
    rw [← List.drop_drop, overwrite, List.drop_left' kept, List.drop_drop,
      List.length_append, Nat.add_assoc]
  rw [overwrite, head, tail, overwrite, List.append_assoc (buffer.take position)]

/-- A store at the start changes nothing exactly if the values are there already. -/
theorem overwrite_zero_eq_self_iff : overwrite buffer 0 values = buffer ↔ values <+: buffer := by
  simp only [overwrite, List.take_zero, List.nil_append, Nat.zero_add]
  constructor
  · intro same
    rw [← same]
    exact List.prefix_append _ _
  · rintro ⟨rest, rfl⟩
    rw [List.drop_left]

theorem take_overwrite_zero (buffer values : List α) :
    (overwrite buffer 0 values).take values.length = values := by
  simp [overwrite]

end Buffer
