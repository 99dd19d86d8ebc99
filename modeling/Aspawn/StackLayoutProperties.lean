import Aspawn.StackSessionProperties

/-! Where a child of `aspawn` finds its arguments, the caller's objects and its
stack, in every round of work on one `Stack_t`. -/

set_option autoImplicit false

namespace Aspawn

namespace Session

/-- The objects a child is given: the arguments that `aspawn_impl` places on its copy
of the `Stack_t`, and the caller's objects of the current reservation. -/
def childObjects (stackGrowsDown : Bool) (session : Session) : List (Nat × Nat) :=
  ((placeChildArgs stackGrowsDown session.stack).1.toNat, sizeofAspawnChildArgs.toNat) ::
    session.objects

/-- The region that `aspawn_impl` passes to `clone` and `clone3`. -/
def childStack (stackGrowsDown : Bool) (session : Session) : Nat × Nat :=
  ((placeChildArgs stackGrowsDown session.stack).2.addr.toNat,
    (placeChildArgs stackGrowsDown session.stack).2.size.toNat)

structure Layout (stackGrowsDown : Bool) (session : Session) (mapping : Nat × Nat) : Prop where
  mapped : ∀ byte ∈ bytes mapping, session.owner (byte / 4096) = .stack
  objectsDisjoint : (session.childObjects stackGrowsDown).Pairwise fun left right =>
    Disjoint (bytes left) (bytes right)
  objectsMapped : ∀ object ∈ session.childObjects stackGrowsDown,
    bytes object ⊆ bytes mapping
  stackClear : ∀ object ∈ session.childObjects stackGrowsDown,
    Disjoint (bytes object) (bytes (session.childStack stackGrowsDown))
  stackMapped : bytes (session.childStack stackGrowsDown) ⊆ bytes mapping
  stackLong : session.reservedStackSz.toNat + 32 * 1024 ≤
    (session.childStack stackGrowsDown).2

variable {stackGrowsDown : Bool} {session : Session}

/-- The caller's objects lie inside the mapping and off the free part. -/
theorem Mapped.objects_bounds (mapped : session.Mapped stackGrowsDown) {object : Nat × Nat}
    (member : object ∈ session.objects) :
    session.base stackGrowsDown ≤ object.1 ∧
      object.1 + object.2 ≤ session.base stackGrowsDown + session.length ∧
      (session.stack.addr.toNat + session.stack.size.toNat ≤ object.1 ∨
        object.1 + object.2 ≤ session.stack.addr.toNat) := by
  have within := mapped.objectsInside object member
  have carved := mapped.placedCarved
  cases stackGrowsDown with
  | true =>
      simp only [objectsStart, if_true, base_of_down, length] at within ⊢
      omega
  | false =>
      have moved := mapped.addrMoved rfl
      simp only [objectsStart, Bool.false_eq_true, if_false, base_of_up, length] at within ⊢
      omega

/-- The arguments are carved off the free part, and the child's stack is what remains. -/
theorem Mapped.child_split (mapped : session.Mapped stackGrowsDown) :
    let args := (placeChildArgs stackGrowsDown session.stack).1.toNat
    let stack := session.childStack stackGrowsDown
    stack.2 = session.stack.size.toNat - sizeofAspawnChildArgs.toNat ∧
      session.stack.addr.toNat ≤ args ∧
      args + sizeofAspawnChildArgs.toNat ≤
        session.stack.addr.toNat + session.stack.size.toNat ∧
      session.stack.addr.toNat ≤ stack.1 ∧
      stack.1 + stack.2 ≤ session.stack.addr.toNat + session.stack.size.toNat ∧
      (stack.1 + stack.2 ≤ args ∨ args + sizeofAspawnChildArgs.toNat ≤ stack.1) := by
  have room := mapped.free_part
  have inside := mapped.addr_add_size
  have inSpace := mapped.inAddressSpace
  have fits : sizeofAspawnChildArgs.toNat ≤ session.stack.size.toNat := by omega
  obtain ⟨size, down, up⟩ := allocateObjOnStack_spec stackGrowsDown fits (by omega)
  simp only [childStack, placeChildArgs]
  cases stackGrowsDown with
  | true =>
      rw [size, (down rfl).1, (down rfl).2]
      omega
  | false =>
      rw [size, (up rfl).1, (up rfl).2]
      omega

theorem Mapped.layout (mapped : session.Mapped stackGrowsDown) :
    session.Layout stackGrowsDown (session.base stackGrowsDown, session.length) := by
  have room := mapped.free_part
  have inside := mapped.addr_add_size
  have rounded : session.reservedStackSz.toNat + 32 * 1024 ≤
      roundUp (session.reservedStackSz.toNat + 32 * 1024) 4096 := roundUp.le (by decide)
  obtain ⟨stackSize, argsLow, argsHigh, stackLow, stackHigh, apart⟩ := mapped.child_split
  constructor
  · intro byte inMapping
    exact mapped.owned _
      (Pages.byte_mem_covering (by decide) mapped.baseAligned inMapping.1 inMapping.2)
  · refine List.Pairwise.cons ?_ mapped.objectsDisjoint
    intro object member
    have bounds := mapped.objects_bounds member
    refine Set.disjoint_left.mpr fun byte inArgs inObject => ?_
    simp only [bytes, Set.mem_Ico] at inArgs inObject
    omega
  · intro object member byte inObject
    simp only [bytes, Set.mem_Ico] at inObject ⊢
    rcases List.mem_cons.mp member with rfl | callerObject
    · omega
    · have bounds := mapped.objects_bounds callerObject
      omega
  · intro object member
    refine Set.disjoint_left.mpr fun byte inObject inStack => ?_
    simp only [bytes, Set.mem_Ico] at inObject inStack
    rcases List.mem_cons.mp member with rfl | callerObject
    · omega
    · have bounds := mapped.objects_bounds callerObject
      omega
  · intro byte inStack
    simp only [bytes, Set.mem_Ico] at inStack ⊢
    omega
  · omega

/-- Whatever rounds a session went through, once a reservation has succeeded the
objects of the current one, the arguments and the child's stack are apart and inside
the current mapping, and the child's stack has the reserved bytes and 32 KiB more. -/
theorem child_layout {owner : PageTable} (noPages : ∀ page, owner page ≠ .stack)
    (reached : Transition.Reaches (step stackGrowsDown) Allowed (start owner) session)
    (reserved : session.stack.addr ≠ 0) :
    session.Layout stackGrowsDown (session.base stackGrowsDown, session.length) := by
  have invariant : session.Invariant stackGrowsDown :=
    reached.invariant _ (.inl (unmapped_start noPages)) invariant_step
  rcases invariant with unmapped | mapped
  · exact absurd (by rw [unmapped.stack]; rfl) reserved
  · exact mapped.layout

/-- A first round that places 5 bytes, and a second one that has to remap. -/
def twoRounds : List SessionOp :=
  [.reserveStack 0 5 65536, .allocateObjOnStack 5, .aspawn,
    .reserveStack 8192 100 131072, .allocateObjOnStack 60, .allocateObjOnStack 40, .aspawn]

theorem child_layout_twoRounds :
    ∃ session, Transition.Reaches (step true) Allowed (start fun _ => .free) session ∧
      session.stack.addr = 131072 ∧ session.objects.length = 2 ∧
      session.Layout true (session.base true, session.length) := by
  have performed : (Transition.run (step true) (start fun _ => .free) twoRounds).map
      (fun session => (session.stack.addr, session.objects.length)) = some (131072, 2) := by
    decide +kernel
  obtain ⟨session, run, observed⟩ := Option.map_eq_some_iff.mp performed
  have reached : Transition.Reaches (step true) Allowed (start fun _ => .free) session :=
    .of_run run (by decide +kernel)
  simp only [Prod.mk.injEq] at observed
  refine ⟨session, reached, observed.1, observed.2, ?_⟩
  exact child_layout (by simp) reached (by rw [observed.1]; decide)

end Session

end Aspawn
