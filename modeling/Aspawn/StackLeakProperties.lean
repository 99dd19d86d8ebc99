import Aspawn.StackSessionProperties

/-! Which pages of a cached stack come back. `mremap` and `munmap` are given what
the `Stack_t` records, so the pages that the caller's objects were carved from are
covered only as long as rounding restores the length of the mapping. -/

set_option autoImplicit false

namespace Aspawn

theorem Mappable.not_error {raw len : UInt64} (mappable : Mappable raw len) :
    ¬ (-4096 < raw) := by
  intro failure
  obtain ⟨_, _, nonzero, inSpace⟩ := mappable
  have above : (-4096 : UInt64).toNat < raw.toNat := UInt64.lt_iff_toNat_lt.mp failure
  have boundary : (-4096 : UInt64).toNat = 2 ^ 64 - 4096 := by decide
  have positive : len.toNat ≠ 0 := fun zero => nonzero (UInt64.toNat_inj.mp zero)
  have covers : len.toNat ≤ roundUp len.toNat 4096 := roundUp.le (by decide)
  have multiple : 4096 ∣ roundUp len.toNat 4096 := roundUp.dvd _ _
  omega

namespace Session

/-- The step is a `reserve_stack` whose `mremap` succeeds. -/
def Remaps (session : Session) : SessionOp → Prop
  | .reserveStack reservedStackSz objToPlaceOnStackLen raw =>
      session.stack.addr ≠ 0 ∧
        session.stack.size < requestedSize reservedStackSz objToPlaceOnStackLen ∧
        ¬ (-4096 < raw)
  | _ => False

instance (session : Session) : (op : SessionOp) → Decidable (session.Remaps op)
  | .reserveStack .. => inferInstanceAs (Decidable (_ ∧ _ ∧ _))
  | .allocateObjOnStack .. | .aspawn | .otherMap .. | .otherUnmap .. =>
      inferInstanceAs (Decidable False)

/-- Less than a page was carved off the mapping that is about to be moved. -/
def Tidy (session : Session) (op : SessionOp) : Prop :=
  session.Remaps op → session.carved < 4096

instance (session : Session) (op : SessionOp) : Decidable (session.Tidy op) :=
  inferInstanceAs (Decidable (_ → _))

/-- The step, unless it is the rest of the process that unmaps, leaves foreign pages. -/
def Spares (stackGrowsDown : Bool) (session : Session) (op : SessionOp) : Prop :=
  (∃ addr len, op = .otherUnmap addr len) ∨
    ∀ next, session.step stackGrowsDown op = some next →
      ∀ page, session.owner page = .other → next.owner page = .other

/-- Every page of the stack belongs to the current mapping. -/
def Sealed (stackGrowsDown : Bool) (session : Session) : Prop :=
  ∀ page, session.owner page = .stack →
    page ∈ pagesOf (session.base stackGrowsDown) session.length

/-- A page of the stack is left over from an earlier mapping. -/
def Leaked (stackGrowsDown : Bool) (session : Session) : Prop :=
  session.Mapped stackGrowsDown ∧
    ∃ page, session.owner page = .stack ∧
      page ∉ pagesOf (session.base stackGrowsDown) session.length

variable {stackGrowsDown : Bool} {session next : Session} {op : SessionOp}

/-! ## The recorded pages -/

/-- What the `Stack_t` records, as the kernel rounds it. -/
def recordedPages (session : Session) : Finset Nat :=
  pagesOf session.stack.addr.toNat session.stack.size.toNat

theorem mem_pagesOf {addr len page : Nat} (aligned : addr % 4096 = 0) :
    page ∈ pagesOf addr len ↔
      addr ≤ 4096 * page ∧ 4096 * page < addr + roundUp len 4096 :=
  Pages.mem_covering_iff (by decide) (Nat.dvd_of_mod_eq_zero aligned)

theorem Mapped.mem_mapping (mapped : session.Mapped stackGrowsDown) {page : Nat} :
    page ∈ pagesOf (session.base stackGrowsDown) session.length ↔
      session.base stackGrowsDown ≤ 4096 * page ∧
        4096 * page < session.base stackGrowsDown + session.length := by
  rw [mem_pagesOf (Nat.mod_eq_zero_of_dvd mapped.baseAligned),
    roundUp.eq_self (by decide) mapped.lengthAligned]

/-- Where the recorded range lies in the mapping: they share one end. -/
theorem Mapped.recorded_range (mapped : session.Mapped stackGrowsDown) :
    session.length = session.stack.size.toNat + session.carved ∧
      (session.stack.addr.toNat = session.base stackGrowsDown ∨
        session.stack.addr.toNat = session.base stackGrowsDown + session.carved) := by
  refine ⟨rfl, ?_⟩
  cases stackGrowsDown with
  | true => exact .inl (base_of_down rfl).symm
  | false =>
      have moved := mapped.addrMoved rfl
      rw [base_of_up rfl]
      omega

theorem Mapped.recordedPages_subset (mapped : session.Mapped stackGrowsDown)
    (aligned : session.stack.addr.toNat % 4096 = 0) :
    session.recordedPages ⊆ pagesOf (session.base stackGrowsDown) session.length := by
  intro page member
  obtain ⟨length, shared⟩ := mapped.recorded_range
  obtain ⟨low, high⟩ := (mem_pagesOf aligned).mp member
  have baseAligned := mapped.baseAligned
  have lengthAligned := mapped.lengthAligned
  have rounded : roundUp session.stack.size.toNat 4096 <
      session.stack.size.toNat + 4096 := roundUp.lt_add (by decide)
  have multiple : 4096 ∣ roundUp session.stack.size.toNat 4096 := roundUp.dvd _ _
  rw [mapped.mem_mapping]
  omega

/-- Rounding makes up for less than a page of objects. -/
theorem Mapped.mapping_subset (mapped : session.Mapped stackGrowsDown)
    (aligned : session.stack.addr.toNat % 4096 = 0) (small : session.carved < 4096) :
    pagesOf (session.base stackGrowsDown) session.length ⊆ session.recordedPages := by
  intro page member
  obtain ⟨length, shared⟩ := mapped.recorded_range
  obtain ⟨low, high⟩ := mapped.mem_mapping.mp member
  have baseAligned := mapped.baseAligned
  have lengthAligned := mapped.lengthAligned
  have covers : session.stack.size.toNat ≤ roundUp session.stack.size.toNat 4096 :=
    roundUp.le (by decide)
  have multiple : 4096 ∣ roundUp session.stack.size.toNat 4096 := roundUp.dvd _ _
  rw [recordedPages, mem_pagesOf aligned]
  omega

/-- A whole page of objects is not made up for: its last page, or its first one on
stacks that grow up, is not recorded. -/
theorem Mapped.unrecorded_page (mapped : session.Mapped stackGrowsDown)
    (aligned : session.stack.addr.toNat % 4096 = 0) (large : ¬ session.carved < 4096) :
    ∃ page ∈ pagesOf (session.base stackGrowsDown) session.length,
      page ∉ session.recordedPages := by
  obtain ⟨length, shared⟩ := mapped.recorded_range
  obtain ⟨first, base⟩ := mapped.baseAligned
  obtain ⟨count, total⟩ := mapped.lengthAligned
  have room := mapped.free_part
  have rounded : roundUp session.stack.size.toNat 4096 <
      session.stack.size.toNat + 4096 := roundUp.lt_add (by decide)
  have multiple : 4096 ∣ roundUp session.stack.size.toNat 4096 := roundUp.dvd _ _
  rcases shared with atBase | aboveBase
  · refine ⟨first + count - 1, mapped.mem_mapping.mpr ?_, fun member => ?_⟩
    · omega
    · obtain ⟨_, high⟩ := (mem_pagesOf aligned).mp member
      omega
  · refine ⟨first, mapped.mem_mapping.mpr ?_, fun member => ?_⟩
    · omega
    · obtain ⟨low, _⟩ := (mem_pagesOf aligned).mp member
      omega

theorem Mapped.addr_ne_zero (mapped : session.Mapped stackGrowsDown) :
    session.stack.addr ≠ 0 := by
  intro null
  have positive := mapped.basePositive
  have inside := mapped.addr_add_size.1
  rw [null] at inside
  exact absurd (positive.trans_le inside) (Nat.lt_irrefl 0)

/-! ## One step -/

theorem Invariant.mapped (invariant : session.Invariant stackGrowsDown)
    (addr : session.stack.addr ≠ 0) : session.Mapped stackGrowsDown := by
  rcases invariant with unmapped | mapped
  · exact absurd (by rw [unmapped.stack]; rfl) addr
  · exact mapped

theorem Invariant.unmapped (invariant : session.Invariant stackGrowsDown)
    (addr : session.stack.addr = 0) : session.Unmapped := by
  rcases invariant with unmapped | mapped
  · exact unmapped
  · exact absurd addr mapped.addr_ne_zero

/-- The mapping and the stack's pages are as they were. -/
def SamePages (stackGrowsDown : Bool) (session next : Session) : Prop :=
  next.base stackGrowsDown = session.base stackGrowsDown ∧
    next.length = session.length ∧
    ∀ page, next.owner page = .stack ↔ session.owner page = .stack

/-- A step that does not remap keeps the stack's pages, or is the first mapping. -/
theorem step_keeps_pages (invariant : session.Invariant stackGrowsDown)
    (allowed : session.Allowed op) (kept : ¬ session.Remaps op)
    (stepped : session.step stackGrowsDown op = some next) :
    session.SamePages stackGrowsDown next ∨
      (session.Unmapped ∧ next.Sealed stackGrowsDown) := by
  cases op with
  | reserveStack reservedStackSz objToPlaceOnStackLen raw =>
      cases step_reserveStack stepped with
      | failed _ => exact .inl ⟨rfl, rfl, fun _ => Iff.rfl⟩
      | early _ _ => exact .inl ⟨rfl, rfl, fun _ => Iff.rfl⟩
      | mapped addr _ _ =>
          have unmapped := invariant.unmapped addr
          refine .inr ⟨unmapped, fun page owned => ?_⟩
          rw [mappedAt_mapping]
          by_contra outside
          exact unmapped.noPages page ((Pages.assign_of_not_mem outside).symm.trans owned)
      | remapped addr small granted _ _ =>
          exact absurd ⟨addr, small, granted.not_error⟩ kept
  | allocateObjOnStack len =>
      rw [step_allocateObjOnStack stepped]
      rcases invariant with unmapped | mapped
      · refine .inr ⟨unmapped, fun page owned => ?_⟩
        exact absurd owned (unmapped.noPages page)
      · obtain ⟨fits, below⟩ := mapped.object_fits allowed
        exact .inl ⟨place_base stackGrowsDown fits below, place_length stackGrowsDown fits,
          fun _ => Iff.rfl⟩
  | aspawn =>
      cases Option.some.inj stepped
      exact .inl ⟨rfl, rfl, fun _ => Iff.rfl⟩
  | otherMap addr len | otherUnmap addr len =>
      obtain ⟨owner, rfl, same⟩ := step_other addr len (by simp) stepped
      exact .inl ⟨rfl, rfl, same⟩

/-- What a remapping does to the pages: all of the new mapping, and of the others
those outside the recorded range, are the stack's. -/
theorem step_remaps (invariant : session.Invariant stackGrowsDown)
    (remaps : session.Remaps op) (stepped : session.step stackGrowsDown op = some next) :
    session.Mapped stackGrowsDown ∧ session.stack.addr.toNat % 4096 = 0 ∧
      (∀ page, next.owner page = .stack ↔
        page ∈ pagesOf (next.base stackGrowsDown) next.length ∨
          (session.owner page = .stack ∧ page ∉ session.recordedPages)) ∧
      ∀ page ∈ pagesOf (next.base stackGrowsDown) next.length,
        session.owner page = .free ∨ page ∈ session.recordedPages := by
  cases op with
  | reserveStack reservedStackSz objToPlaceOnStackLen raw =>
      obtain ⟨addr, small, success⟩ := remaps
      have mapped := invariant.mapped addr
      cases step_reserveStack stepped with
      | failed failure => exact absurd failure success
      | early _ enough => exact absurd small (UInt64.not_lt.mpr enough)
      | mapped null _ _ => exact absurd null addr
      | remapped _ _ _ aligned clear =>
          refine ⟨mapped, aligned, fun page => ?_, fun page member => ?_⟩
          · rw [mappedAt_mapping]
            by_cases new : page ∈ pagesOf raw.toNat
                (requestedSize reservedStackSz objToPlaceOnStackLen).toNat
            · simp [mappedAt, new]
            · by_cases old : page ∈ pagesOf session.stack.addr.toNat session.stack.size.toNat
              · simp [mappedAt, recordedPages, new, old]
              · simp [mappedAt, recordedPages, new, old]
          · rw [mappedAt_mapping] at member
            exact (clear page member).imp id fun inPlace => inPlace.2
  | allocateObjOnStack len => exact remaps.elim
  | aspawn => exact remaps.elim
  | otherMap addr len | otherUnmap addr len => exact remaps.elim

/-! ## Runs -/

theorem sealed_step
    (good : session.Invariant stackGrowsDown ∧ session.Sealed stackGrowsDown)
    (allowed : session.Allowed op) (tidy : session.Tidy op)
    (stepped : session.step stackGrowsDown op = some next) :
    next.Invariant stackGrowsDown ∧ next.Sealed stackGrowsDown := by
  refine ⟨invariant_step good.1 allowed stepped, ?_⟩
  by_cases remaps : session.Remaps op
  · obtain ⟨mapped, aligned, pages, _⟩ := step_remaps good.1 remaps stepped
    intro page owned
    rcases (pages page).mp owned with new | ⟨earlier, outside⟩
    · exact new
    · exact absurd (mapped.mapping_subset aligned (tidy remaps) (good.2 page earlier)) outside
  · rcases step_keeps_pages good.1 allowed remaps stepped with
      ⟨base, length, same⟩ | ⟨_, sealedNext⟩
    · intro page owned
      rw [base, length]
      exact good.2 page ((same page).mp owned)
    · exact sealedNext

/-- A page that the remapping overlooks stays the stack's, outside the new mapping. -/
theorem leaked_of_remaps {page : Nat} (invariant : session.Invariant stackGrowsDown)
    (allowed : session.Allowed op) (remaps : session.Remaps op)
    (stepped : session.step stackGrowsDown op = some next)
    (owned : session.owner page = .stack) (overlooked : page ∉ session.recordedPages) :
    next.Leaked stackGrowsDown := by
  obtain ⟨mapped, aligned, pages, clear⟩ := step_remaps invariant remaps stepped
  have nextMapped : next.Mapped stackGrowsDown := by
    apply (invariant_step invariant allowed stepped).mapped
    intro null
    have unmapped := (invariant_step invariant allowed stepped).unmapped null
    exact unmapped.noPages page ((pages page).mpr (.inr ⟨owned, overlooked⟩))
  refine ⟨nextMapped, page, (pages page).mpr (.inr ⟨owned, overlooked⟩), fun member => ?_⟩
  rcases clear page member with free | recorded
  · exact absurd (owned.symm.trans free) (by decide)
  · exact overlooked recorded

theorem leaked_of_untidy
    (good : session.Invariant stackGrowsDown ∧ session.Sealed stackGrowsDown)
    (allowed : session.Allowed op) (untidy : ¬ session.Tidy op)
    (stepped : session.step stackGrowsDown op = some next) : next.Leaked stackGrowsDown := by
  obtain ⟨remaps, large⟩ := Classical.not_imp.mp untidy
  obtain ⟨mapped, aligned, _, _⟩ := step_remaps good.1 remaps stepped
  obtain ⟨page, member, overlooked⟩ := mapped.unrecorded_page aligned large
  exact leaked_of_remaps good.1 allowed remaps stepped (mapped.owned page member) overlooked

theorem leaked_step (leaked : session.Leaked stackGrowsDown) (allowed : session.Allowed op)
    (stepped : session.step stackGrowsDown op = some next) : next.Leaked stackGrowsDown := by
  obtain ⟨mapped, page, owned, outside⟩ := leaked
  have invariant : session.Invariant stackGrowsDown := .inr mapped
  by_cases remaps : session.Remaps op
  · obtain ⟨_, aligned, _, _⟩ := step_remaps invariant remaps stepped
    exact leaked_of_remaps invariant allowed remaps stepped owned fun recorded =>
      outside (mapped.recordedPages_subset aligned recorded)
  · rcases step_keeps_pages invariant allowed remaps stepped with
      ⟨base, length, same⟩ | ⟨unmapped, _⟩
    · have nextOwned := (same page).mpr owned
      rw [← base, ← length] at outside
      rcases invariant_step invariant allowed stepped with unmapped | nextMapped
      · exact absurd nextOwned (unmapped.noPages page)
      · exact ⟨nextMapped, page, nextOwned, outside⟩
    · exact absurd owned (unmapped.noPages page)

/-- Whatever a reservation moves was the stack's, and what it takes was free. -/
theorem spares_of_invariant (invariant : session.Invariant stackGrowsDown) :
    session.Spares stackGrowsDown op := by
  cases op with
  | reserveStack reservedStackSz objToPlaceOnStackLen raw =>
      refine .inr fun next stepped page other => ?_
      cases step_reserveStack stepped with
      | failed _ => exact other
      | early _ _ => exact other
      | mapped _ _ free =>
          refine (Pages.assign_of_not_mem fun member => ?_).trans other
          exact absurd (other.symm.trans (free page member)) (by decide)
      | remapped addr _ _ aligned clear =>
          have mapped := invariant.mapped addr
          have outside : page ∉ session.recordedPages := by
            intro recorded
            have owned := mapped.owned page (mapped.recordedPages_subset aligned recorded)
            exact absurd (other.symm.trans owned) (by decide)
          refine (Pages.assign_of_not_mem fun member => ?_).trans
            ((Pages.assign_of_not_mem outside).trans other)
          rcases clear page member with free | ⟨_, recorded⟩
          · exact absurd (other.symm.trans free) (by decide)
          · exact outside recorded
  | allocateObjOnStack len =>
      refine .inr fun next stepped page other => ?_
      rw [step_allocateObjOnStack stepped]
      exact other
  | aspawn =>
      refine .inr fun next stepped page other => ?_
      cases Option.some.inj stepped
      exact other
  | otherMap addr len =>
      refine .inr fun next stepped page other => ?_
      simp only [step] at stepped
      split at stepped
      · cases Option.some.inj stepped
        by_cases member : page ∈ pagesOf addr len
        · exact Pages.assign_of_mem member
        · exact (Pages.assign_of_not_mem member).trans other
      · cases stepped
  | otherUnmap addr len => exact .inl ⟨addr, len, rfl⟩

/-! ## `cleanup_stack` -/

theorem error_result_ne_zero {raw : UInt64} (failure : -4096 < raw) :
    raw.toUInt32.toInt32.toInt ≠ 0 := by
  have above : (-4096 : UInt64).toNat < raw.toNat := UInt64.lt_iff_toNat_lt.mp failure
  have boundary : (-4096 : UInt64).toNat = 2 ^ 64 - 4096 := by decide
  have bounded := raw.toNat_lt
  intro zero
  have low : raw.toUInt32.toNat = 0 := by
    have word : raw.toUInt32.toInt32 = 0 := Int32.toInt_inj.mp zero
    have unsigned : raw.toUInt32 = 0 := congrArg Int32.toUInt32 word
    rw [unsigned]
    rfl
  rw [UInt64.toNat_toUInt32] at low
  omega

theorem cleanup_unmapped {raw : UInt64} {result : Int} {final : Session}
    (unmapped : session.Unmapped) (cleaned : session.cleanup raw = some (result, final)) :
    final = session := by
  have idle : cleanupStack session.stack = .done 0 := by
    rw [unmapped.stack]
    rfl
  simp only [cleanup, idle, Program.execute_done, Option.some.injEq, Prod.mk.injEq] at cleaned
  exact cleaned.2.symm

theorem cleanup_mapped {raw : UInt64} {final : Session}
    (mapped : session.Mapped stackGrowsDown)
    (cleaned : session.cleanup raw = some (0, final)) :
    session.stack.addr.toNat % 4096 = 0 ∧
      final = { session with
        owner := Pages.assign session.owner session.recordedPages .free } := by
  have nonempty : session.stack.size ≠ 0 := by
    intro zero
    have room := mapped.free_part
    have args : sizeofAspawnChildArgs.toNat = 152 := by decide
    rw [zero, args] at room
    exact absurd room (by simp)
  simp only [cleanup, cleanupStack, if_pos (And.intro mapped.addr_ne_zero nonempty),
    psysMunmap, mapCall_bind, Program.pure_eq, Program.execute, pageKernel,
    mapKernel] at cleaned
  by_cases failure : -4096 < raw
  · simp only [if_pos failure, Option.some.injEq, Prod.mk.injEq] at cleaned
    exact absurd cleaned.1 (error_result_ne_zero failure)
  · rw [if_neg failure] at cleaned
    by_cases granted : raw = 0 ∧ session.stack.addr.toNat % 4096 = 0 ∧ session.stack.size ≠ 0
    · simp only [if_pos granted, Option.some.injEq, Prod.mk.injEq] at cleaned
      exact ⟨granted.2.1, cleaned.2.symm⟩
    · simp [if_neg granted] at cleaned

/-- After `cleanup_stack` the stack has no page, and pages of the rest of the process
are as they were. -/
structure Released (session final : Session) : Prop where
  noPages : ∀ page, final.owner page ≠ .stack
  foreign : ∀ page, session.owner page = .other → final.owner page = .other

theorem foreign_of_cleanup {raw : UInt64} {final : Session}
    (invariant : session.Invariant stackGrowsDown)
    (cleaned : session.cleanup raw = some (0, final)) {page : Nat}
    (other : session.owner page = .other) : final.owner page = .other := by
  rcases invariant with unmapped | mapped
  · rw [cleanup_unmapped unmapped cleaned]
    exact other
  · obtain ⟨aligned, rfl⟩ := cleanup_mapped mapped cleaned
    refine (Pages.assign_of_not_mem fun recorded => ?_).trans other
    have owned := mapped.owned page (mapped.recordedPages_subset aligned recorded)
    exact absurd (other.symm.trans owned) (by decide)

theorem released_of_sealed {raw : UInt64} {final : Session}
    (invariant : session.Invariant stackGrowsDown) (tight : session.Sealed stackGrowsDown)
    (cleaned : session.cleanup raw = some (0, final)) (small : session.carved < 4096) :
    session.Released final := by
  refine ⟨fun page owned => ?_, fun page => foreign_of_cleanup invariant cleaned⟩
  rcases invariant with unmapped | mapped
  · rw [cleanup_unmapped unmapped cleaned] at owned
    exact unmapped.noPages page owned
  · obtain ⟨aligned, rfl⟩ := cleanup_mapped mapped cleaned
    by_cases recorded : page ∈ session.recordedPages
    · exact absurd ((Pages.assign_of_mem recorded).symm.trans owned) (by decide)
    · have earlier := (Pages.assign_of_not_mem recorded).symm.trans owned
      exact recorded (mapped.mapping_subset aligned small (tight page earlier))

theorem not_released {raw : UInt64} {final : Session} {page : Nat}
    (mapped : session.Mapped stackGrowsDown)
    (cleaned : session.cleanup raw = some (0, final)) (owned : session.owner page = .stack)
    (overlooked : page ∉ session.recordedPages) : ¬ session.Released final := by
  intro released
  obtain ⟨_, rfl⟩ := cleanup_mapped mapped cleaned
  exact released.noPages page ((Pages.assign_of_not_mem overlooked).trans owned)

/-- Cleaning up a `Stack_t` gives back all of its pages and no others exactly in
those runs in which less than a page had been carved off the mapping at every
remapping and at the end. -/
theorem cleanup_releases_iff {owner : PageTable} {ops : List SessionOp}
    {final : Session} {raw : UInt64} (noPages : ∀ page, owner page ≠ .stack)
    (permitted : Transition.Along (step stackGrowsDown) Allowed (start owner) ops)
    (performed : Transition.run (step stackGrowsDown) (start owner) ops = some session)
    (cleaned : session.cleanup raw = some (0, final)) :
    (Transition.Along (step stackGrowsDown) (Spares stackGrowsDown) (start owner) ops ∧
        session.Released final) ↔
      Transition.Along (step stackGrowsDown) Tidy (start owner) ops ∧
        session.carved < 4096 := by
  have unmapped := unmapped_start noPages
  have spared : Transition.Along (step stackGrowsDown) (Spares stackGrowsDown)
      (start owner) ops :=
    permitted.strengthen (.inl unmapped) invariant_step
      fun invariant _ => spares_of_invariant invariant
  have outcome := Transition.run_dichotomy sealed_step leaked_of_untidy leaked_step
    ⟨.inl unmapped, fun page owned => absurd owned (noPages page)⟩ permitted performed
  rw [and_iff_right spared]
  rcases outcome with ⟨tidy, invariant, tight⟩ | ⟨untidy, mapped, page, owned, outside⟩
  · rw [and_iff_right tidy]
    refine ⟨fun released => ?_, released_of_sealed invariant tight cleaned⟩
    by_contra large
    have mapped : session.Mapped stackGrowsDown := by
      rcases invariant with unmapped | mapped
      · exact absurd unmapped.nothingCarved (by omega)
      · exact mapped
    have aligned := (cleanup_mapped mapped cleaned).1
    obtain ⟨page, member, overlooked⟩ := mapped.unrecorded_page aligned large
    exact not_released mapped cleaned (mapped.owned page member) overlooked released
  · refine ⟨fun released => ?_, fun condition => absurd condition.1 untidy⟩
    have aligned := (cleanup_mapped mapped cleaned).1
    refine absurd released (not_released mapped cleaned owned fun recorded => ?_)
    exact outside (mapped.recordedPages_subset aligned recorded)

/-- Two rounds with objects of less than a page, the second of which remaps. -/
def smallObjects : List SessionOp :=
  [.reserveStack 0 100 65536, .allocateObjOnStack 100, .aspawn,
    .reserveStack 8192 100 131072, .allocateObjOnStack 60, .aspawn]

theorem cleanup_releases_smallObjects :
    ∃ session final, Transition.run (step true) (start fun _ => .free) smallObjects =
        some session ∧ session.cleanup 0 = some (0, final) ∧ session.Released final := by
  have performed : ((Transition.run (step true) (start fun _ => .free) smallObjects).bind
      fun session => (session.cleanup 0).map fun cleaned =>
        (session.carved, cleaned.1)) = some (60, 0) := by
    decide +kernel
  obtain ⟨session, run, rest⟩ := Option.bind_eq_some_iff.mp performed
  obtain ⟨⟨result, final⟩, cleaned, observed⟩ := Option.map_eq_some_iff.mp rest
  obtain ⟨carved, rfl⟩ := Prod.mk.inj observed
  refine ⟨session, final, run, cleaned, ?_⟩
  exact ((cleanup_releases_iff (by simp) (by decide +kernel) run cleaned).mpr
    ⟨by decide +kernel, by omega⟩).2

/-- After one page of objects `cleanup_stack` returns 0 and leaves a page mapped. -/
theorem cleanup_leaks_page :
    ¬ ∀ ops session final raw,
      Transition.Along (step true) Allowed (start fun _ => .free) ops →
      Transition.run (step true) (start fun _ => .free) ops = some session →
      session.cleanup raw = some (0, final) → session.Released final := by
  intro promised
  have performed : ((Transition.run (step true) (start fun _ => .free)
      [.reserveStack 0 4096 65536, .allocateObjOnStack 4096, .aspawn]).bind
      fun session => (session.cleanup 0).map fun cleaned =>
        (cleaned.1, cleaned.2.owner 25)) = some (0, .stack) := by
    decide +kernel
  obtain ⟨session, run, rest⟩ := Option.bind_eq_some_iff.mp performed
  obtain ⟨⟨result, final⟩, cleaned, observed⟩ := Option.map_eq_some_iff.mp rest
  obtain ⟨rfl, leaked⟩ := Prod.mk.inj observed
  exact (promised _ session final 0 (by decide +kernel) run cleaned).noPages 25 leaked

end Session

end Aspawn
