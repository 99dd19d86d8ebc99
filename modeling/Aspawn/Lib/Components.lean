import Mathlib.Data.List.TakeWhile

/-! The non-empty parts of a separated list, and the recursion that a scanner
follows: skip separators, take a part, step over the separator after it. -/

set_option autoImplicit false

namespace Components

variable {α : Type} [DecidableEq α]

/-- Split at every separator and keep the non-empty parts. -/
def nonempty (separator : α) (list : List α) : List (List α) :=
  (list.splitOn separator).filter fun part => part ≠ []

/-- The part a list starts with. -/
def first (separator : α) (list : List α) : List α :=
  list.takeWhile fun item => item ≠ separator

/-- What is left after the first part and one separator. -/
def later (separator : α) (list : List α) : List α :=
  (list.dropWhile fun item => item ≠ separator).tail

/-- A list without the separators it starts with. -/
def skip (separator : α) (list : List α) : List α :=
  list.dropWhile fun item => item = separator

variable {separator item : α} {list rest part : List α}

@[simp] theorem nonempty_nil : nonempty separator ([] : List α) = [] := by
  simp [nonempty]

@[simp] theorem nonempty_separator :
    nonempty separator (separator :: rest) = nonempty separator rest := by
  simp [nonempty, List.splitOn_cons_eq_if_modifyHead]

theorem nonempty_skip : nonempty separator (skip separator list) = nonempty separator list := by
  induction list with
  | nil => rfl
  | cons head rest ih =>
      by_cases same : head = separator
      · subst same
        rw [skip, List.dropWhile_cons_of_pos (by simp), nonempty_separator]
        exact ih
      · rw [skip, List.dropWhile_cons_of_neg (by simpa using same)]

theorem not_mem_first : separator ∉ first separator list := by
  intro member
  simpa using List.mem_takeWhile_imp member

theorem first_ne_nil_of_skip (remaining : skip separator list ≠ []) :
    first separator (skip separator list) ≠ [] := by
  obtain ⟨head, rest, split⟩ := List.exists_cons_of_ne_nil remaining
  have clear : head ≠ separator := by
    have stopped := List.head?_dropWhile_not (fun item => decide (item = separator)) list
    rw [← skip, split] at stopped
    simpa using stopped
  simp [split, first, clear]

/-- Where the first part ends the list ends too, or a separator follows. -/
theorem split_first (separator : α) (list : List α) :
    (list = first separator list ∧ later separator list = []) ∨
      list = first separator list ++ separator :: later separator list := by
  have split : first separator list ++ (list.dropWhile fun item => item ≠ separator) = list :=
    List.takeWhile_append_dropWhile
  cases ending : list.dropWhile fun item => item ≠ separator with
  | nil =>
      rw [ending, List.append_nil] at split
      exact .inl ⟨split.symm, by rw [later, ending, List.tail_nil]⟩
  | cons head rest =>
      have stopped := List.head?_dropWhile_not (fun item => decide (item ≠ separator)) list
      rw [ending] at stopped
      have same : head = separator := by simpa using stopped
      rw [ending, same] at split
      exact .inr (by rw [later, ending, List.tail_cons]; exact split.symm)

theorem nonempty_scan (filled : first separator list ≠ []) :
    nonempty separator list =
      first separator list :: nonempty separator (later separator list) := by
  have clear : separator ∉ first separator list := not_mem_first
  rcases split_first separator list with ⟨whole, ended⟩ | continued
  · rw [ended, nonempty_nil]
    have single : list.splitOn separator = [list] :=
      List.splitOn_eq_singleton (whole ▸ clear)
    have filled : list ≠ [] := whole ▸ filled
    rw [nonempty, single, ← whole]
    simp [filled]
  · have parts : list.splitOn separator =
        first separator list :: (later separator list).splitOn separator :=
      (congrArg (List.splitOn separator) continued).trans
        (List.splitOn_append_cons_self_of_not_mem clear _)
    simp [nonempty, parts, filled]

theorem nonempty_eq_nil (ended : skip separator list = []) : nonempty separator list = [] := by
  rw [← nonempty_skip, ended, nonempty_nil]

theorem nonempty_eq_cons (remaining : skip separator list ≠ []) :
    nonempty separator list = first separator (skip separator list) ::
      nonempty separator (later separator (skip separator list)) := by
  rw [← nonempty_skip, nonempty_scan (first_ne_nil_of_skip remaining)]

theorem mem_of_mem_splitOn (member : part ∈ list.splitOn separator) (inside : item ∈ part) :
    item ∈ list := by
  induction list generalizing part with
  | nil => simp_all
  | cons head rest ih =>
      rw [List.splitOn_cons_eq_if_modifyHead] at member
      split at member
      · rcases List.mem_cons.mp member with rfl | later
        · cases inside
        · exact List.mem_cons_of_mem _ (ih later inside)
      · cases parts : rest.splitOn separator with
        | nil => exact absurd parts (List.splitOn_ne_nil _ _)
        | cons part others =>
            rw [parts] at member ih
            rcases List.mem_cons.mp member with rfl | later
            · rcases List.mem_cons.mp inside with rfl | deeper
              · exact List.mem_cons_self
              · exact List.mem_cons_of_mem _ (ih List.mem_cons_self deeper)
            · exact List.mem_cons_of_mem _ (ih (List.mem_cons_of_mem _ later) inside)

theorem mem_of_mem_nonempty (member : part ∈ nonempty separator list) (inside : item ∈ part) :
    item ∈ list :=
  mem_of_mem_splitOn (List.mem_filter.mp member).1 inside

end Components
