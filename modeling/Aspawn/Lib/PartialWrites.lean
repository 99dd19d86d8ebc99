import Mathlib.Data.List.Basic

/-! A sink that may take a part of each buffer only. What arrives of a sequence of buffers
that are written once each, with nothing done about the rest. -/

set_option autoImplicit false

/-- How much is taken of each buffer, after the buffers before it: of a non-empty one at
least one element. -/
structure Sink (α : Type) where
  accepts : List (List α) → List α → Nat
  positive : ∀ earlier buffer, buffer ≠ [] → 0 < accepts earlier buffer
  bounded : ∀ earlier buffer, accepts earlier buffer ≤ buffer.length

namespace Sink

variable {α : Type}

def full (α : Type) : Sink α where
  accepts _ buffer := buffer.length
  positive _ _ nonempty := List.length_pos_of_ne_nil nonempty
  bounded _ _ := Nat.le_refl _

def single (α : Type) : Sink α where
  accepts _ buffer := min 1 buffer.length
  positive _ _ nonempty := by
    have some := List.length_pos_of_ne_nil nonempty
    omega
  bounded _ _ := Nat.min_le_right ..

variable (sink : Sink α)

def delivered : List (List α) → List (List α) → List α
  | _, [] => []
  | earlier, buffer :: rest =>
      buffer.take (sink.accepts earlier buffer) ++ delivered (earlier ++ [buffer]) rest

def AcceptsAll : List (List α) → List (List α) → Prop
  | _, [] => True
  | earlier, buffer :: rest =>
      sink.accepts earlier buffer = buffer.length ∧ AcceptsAll (earlier ++ [buffer]) rest

variable {sink} {earlier buffers : List (List α)}

theorem length_delivered_le :
    (sink.delivered earlier buffers).length ≤ buffers.flatten.length := by
  induction buffers generalizing earlier with
  | nil => exact Nat.le_refl _
  | cons buffer rest ih =>
      have later := @ih (earlier ++ [buffer])
      simp only [delivered, List.length_append, List.length_take, List.flatten_cons]
      omega

/-- Nothing is lost exactly when nothing is left over anywhere: a later buffer cannot make up
for an earlier one. -/
theorem delivered_eq_flatten_iff :
    sink.delivered earlier buffers = buffers.flatten ↔ sink.AcceptsAll earlier buffers := by
  induction buffers generalizing earlier with
  | nil => simp [delivered, AcceptsAll]
  | cons buffer rest ih =>
      have bounded := sink.bounded earlier buffer
      simp only [delivered, AcceptsAll, List.flatten_cons]
      constructor
      · intro whole
        have lengths := congrArg List.length whole
        have later : (sink.delivered (earlier ++ [buffer]) rest).length ≤ rest.flatten.length :=
          length_delivered_le
        simp only [List.length_append, List.length_take] at lengths
        have all : sink.accepts earlier buffer = buffer.length := by omega
        rw [all, List.take_length, List.append_cancel_left_eq] at whole
        exact ⟨all, ih.mp whole⟩
      · rintro ⟨all, later⟩
        rw [all, List.take_length, ih.mpr later]

end Sink
