import Aspawn.Priority

/-! Which priorities survive a round trip through `psys_getpriority` and `psys_setpriority`. -/

set_option autoImplicit false

namespace Aspawn

variable {select : Int → Int → Finset Nat} {which who : Int} {nice : Nat → Nice}

/-! ## The calls -/

def niceAfter (select : Int → Int → Finset Nat) (which who : Int) (nice : Nat → Nice)
    (niceval : Int) : Nat → Nice :=
  fun proc => if proc ∈ select which who then .clamp niceval else nice proc

theorem handle_getpriority (nonempty : (select which who).Nonempty) :
    PriorityCalls.handle select nice (.getpriority which who) =
      some (20 - lowestNice nice (select which who) nonempty, nice) :=
  dif_pos nonempty

theorem handle_setpriority (nonempty : (select which who).Nonempty) (niceval : Int) :
    PriorityCalls.handle select nice (.setpriority which who niceval) =
      some (0, niceAfter select which who nice niceval) :=
  if_pos nonempty

theorem niceAfter_of_mem {proc : Nat} {niceval : Int} (selected : proc ∈ select which who) :
    (niceAfter select which who nice niceval proc).value = (Nice.clamp niceval).value := by
  rw [niceAfter, if_pos selected]

theorem lowestNice_niceAfter (nonempty : (select which who).Nonempty) (niceval : Int) :
    lowestNice (niceAfter select which who nice niceval) (select which who) nonempty =
      (Nice.clamp niceval).value := by
  rw [lowestNice, Finset.inf'_congr nonempty rfl fun proc selected => niceAfter_of_mem selected]
  exact Finset.inf'_const nonempty _

theorem lowestNice_bounds (nonempty : (select which who).Nonempty) :
    -20 ≤ lowestNice nice (select which who) nonempty ∧
      lowestNice nice (select which who) nonempty ≤ 19 := by
  constructor
  · exact (Finset.le_inf'_iff nonempty _).mpr fun proc _ => (nice proc).low
  · obtain ⟨proc, selected⟩ := nonempty
    exact (Finset.inf'_le _ selected).trans (nice proc).high

theorem execute_restorePriority (nonempty : (select which who).Nonempty) :
    Program.execute (PriorityCalls.handle select) (restorePriority which who) nice =
      some (0, niceAfter select which who nice
        (20 - lowestNice nice (select which who) nonempty)) := by
  unfold restorePriority psysGetpriority psysSetpriority
  rw [Program.execute_perform (handle_getpriority nonempty)]
  exact Program.execute_call (handle_setpriority nonempty _)

theorem execute_psysSetpriority (nonempty : (select which who).Nonempty) (knice : Int) :
    Program.execute (PriorityCalls.handle select) (psysSetpriority which who knice) nice =
      some (0, niceAfter select which who nice knice) :=
  Program.execute_call (handle_setpriority nonempty knice)

theorem execute_setThenGetPriority (nonempty : (select which who).Nonempty) (knice : Int) :
    Program.execute (PriorityCalls.handle select) (setThenGetPriority which who knice) nice =
      some (20 - (Nice.clamp knice).value, niceAfter select which who nice knice) := by
  unfold setThenGetPriority psysGetpriority psysSetpriority
  rw [Program.execute_perform (handle_setpriority nonempty knice),
    ← lowestNice_niceAfter nonempty knice]
  exact Program.execute_call (handle_getpriority nonempty)

/-! ## The encoding -/

/-- The nice value that `knice` stands for. -/
def Nice.ofKnice (knice : Int) : Nice := .clamp (20 - knice)

theorem clamp_eq_ofKnice_iff {knice : Int} :
    (Nice.clamp knice).value = (Nice.ofKnice knice).value ↔ knice = 10 := by
  simp only [Nice.clamp, Nice.ofKnice]
  omega

/-- Setting what was read gives every selected process the lowest nice value. -/
def RestoresLowest (select : Int → Int → Finset Nat) (which who : Int) (nice : Nat → Nice)
    (nonempty : (select which who).Nonempty) : Prop :=
  ∃ result after, Program.execute (PriorityCalls.handle select) (restorePriority which who) nice =
      some (result, after) ∧
    ∀ proc ∈ select which who,
      (after proc).value = lowestNice nice (select which who) nonempty

/-- Setting `knice` gives every selected process the nice value it stands for. -/
def SetsKnice (select : Int → Int → Finset Nat) (which who : Int) (nice : Nat → Nice)
    (knice : Int) : Prop :=
  ∃ result after, Program.execute (PriorityCalls.handle select)
      (psysSetpriority which who knice) nice = some (result, after) ∧
    ∀ proc ∈ select which who, after proc = .ofKnice knice

/-- Reading after setting `knice` gives `knice`. -/
def GetsBack (select : Int → Int → Finset Nat) (which who : Int) (nice : Nat → Nice)
    (knice : Int) : Prop :=
  ∃ after, Program.execute (PriorityCalls.handle select)
    (setThenGetPriority which who knice) nice = some (knice, after)

theorem restoresLowest_iff (nonempty : (select which who).Nonempty) :
    RestoresLowest select which who nice nonempty ↔
      lowestNice nice (select which who) nonempty = 10 := by
  obtain ⟨low, high⟩ : -20 ≤ lowestNice nice (select which who) nonempty ∧
      lowestNice nice (select which who) nonempty ≤ 19 := lowestNice_bounds nonempty
  unfold RestoresLowest
  rw [execute_restorePriority nonempty]
  generalize lowestNice nice (select which who) nonempty = lowest at low high
  have meets : (Nice.clamp (20 - lowest)).value = lowest ↔ lowest = 10 := by
    simp only [Nice.clamp]
    omega
  rw [← meets]
  constructor
  · rintro ⟨result, after, executed, restored⟩
    cases executed
    obtain ⟨proc, selected⟩ := nonempty
    exact (niceAfter_of_mem selected).symm.trans (restored proc selected)
  · intro same
    exact ⟨_, _, rfl, fun proc selected => (niceAfter_of_mem selected).trans same⟩

theorem setsKnice_iff (nonempty : (select which who).Nonempty) (knice : Int) :
    SetsKnice select which who nice knice ↔ knice = 10 := by
  unfold SetsKnice
  rw [execute_psysSetpriority nonempty, ← clamp_eq_ofKnice_iff]
  constructor
  · rintro ⟨result, after, executed, sets⟩
    cases executed
    obtain ⟨proc, selected⟩ := nonempty
    rw [← sets proc selected, niceAfter_of_mem selected]
  · intro same
    refine ⟨_, _, rfl, fun proc selected => ?_⟩
    ext
    rw [niceAfter_of_mem selected, same]

theorem getsBack_iff (nonempty : (select which who).Nonempty) {knice : Int} (low : 1 ≤ knice)
    (high : knice ≤ 40) : GetsBack select which who nice knice ↔ knice = 10 := by
  have meets : 20 - (Nice.clamp knice).value = knice ↔ knice = 10 := by
    simp only [Nice.clamp]
    omega
  unfold GetsBack
  rw [execute_setThenGetPriority nonempty, ← meets]
  constructor
  · rintro ⟨after, executed⟩
    exact (Prod.mk.inj (Option.some.inj executed)).1
  · intro same
    exact ⟨_, by rw [same]⟩

/-- The setter takes its argument for a nice value, so its encoding agrees with the getter's
at the nice value 10 alone. -/
theorem priority_encodings_agree_iff (select : Int → Int → Finset Nat) (which who : Int)
    (nice : Nat → Nice) (nonempty : (select which who).Nonempty) (knice : Int) :
    (RestoresLowest select which who nice nonempty ↔
        lowestNice nice (select which who) nonempty = 10) ∧
      (SetsKnice select which who nice knice ↔ knice = 10) ∧
      (1 ≤ knice → knice ≤ 40 → (GetsBack select which who nice knice ↔ knice = 10)) :=
  ⟨restoresLowest_iff nonempty, setsKnice_iff nonempty knice, getsBack_iff nonempty⟩

/-- Process group 1 has the processes 1, 2 and 3, and group 2 the last two of them. -/
def groups (_which who : Int) : Finset Nat := if who = 2 then {2, 3} else {1, 2, 3}

def niceInGroups (proc : Nat) : Nice :=
  if proc = 1 then .clamp (-5) else if proc = 2 then .clamp 10 else .clamp 15

theorem firstGroup_nonempty : (groups 1 1).Nonempty := ⟨1, by decide⟩

theorem secondGroup_nonempty : (groups 1 2).Nonempty := ⟨2, by decide⟩

/-- The lowest nice value is 10 in the second group and -5 in the first. -/
theorem priority_encodings_agree_groups :
    ¬ RestoresLowest groups 1 1 niceInGroups firstGroup_nonempty ∧
      RestoresLowest groups 1 2 niceInGroups secondGroup_nonempty ∧
      SetsKnice groups 1 1 niceInGroups 10 ∧ ¬ SetsKnice groups 1 1 niceInGroups 25 ∧
      GetsBack groups 1 1 niceInGroups 10 ∧ ¬ GetsBack groups 1 1 niceInGroups 25 := by
  have ten := priority_encodings_agree_iff groups 1 1 niceInGroups firstGroup_nonempty 10
  have other := priority_encodings_agree_iff groups 1 1 niceInGroups firstGroup_nonempty 25
  have lowest := (priority_encodings_agree_iff groups 1 2 niceInGroups secondGroup_nonempty 10).1
  refine ⟨fun restores => ?_, lowest.mpr (by decide), ten.2.1.mpr rfl,
    fun sets => ?_, (ten.2.2 (by decide) (by decide)).mpr rfl, fun gets => ?_⟩
  · exact absurd (ten.1.mp restores) (by decide)
  · exact absurd (other.2.1.mp sets) (by decide)
  · exact absurd ((other.2.2 (by decide) (by decide)).mp gets) (by decide)

/-- One process, 1, of nice value 0. -/
def onlyInit (_which _who : Int) : Finset Nat := {1}

def niceZero (_proc : Nat) : Nice := .clamp 0

theorem onlyInit_nonempty : (onlyInit 0 1).Nonempty := Finset.singleton_nonempty 1

/-- Setting the priority that was just read makes the process as nice as possible. -/
theorem restored_priority_differs :
    ¬ ∀ (select : Int → Int → Finset Nat) (which who : Int) (nice : Nat → Nice)
      (nonempty : (select which who).Nonempty), RestoresLowest select which who nice nonempty := by
  intro restores
  obtain ⟨result, after, executed, same⟩ := restores onlyInit 0 1 niceZero onlyInit_nonempty
  rw [execute_restorePriority onlyInit_nonempty] at executed
  cases executed
  have highest : (niceAfter onlyInit 0 1 niceZero 20 1).value = 19 := by decide
  exact absurd (highest.symm.trans (same 1 (Finset.mem_singleton_self 1))) (by decide)

end Aspawn
