import Aspawn.StackSessionProperties
import Aspawn.Spawn.PathAgreement

/-! The alignment of the stack on which a child enters the user's function, and of its
`struct aspawn_child_args`, in terms of what the caller placed on the cached stack. -/

set_option autoImplicit false

namespace Aspawn

namespace Session

/-- The cached stack starts at a page, and with the placed objects it ends at one. Sizes
may have wrapped. -/
structure Paged (session : Session) : Prop where
  addr : session.stack.addr.toNat % 4096 = 0
  size : (session.stack.size.toNat + session.carved) % 4096 = 0

variable {session next : Session} {raw reservedStackSz objToPlaceOnStackLen : UInt64}
  {owner : PageTable}

theorem paged_start : (start owner).Paged where
  addr := rfl
  size := rfl

theorem paged_mappedAt
    (granted : Mappable raw (requestedSize reservedStackSz objToPlaceOnStackLen)) :
    (mappedAt raw reservedStackSz objToPlaceOnStackLen owner).Paged where
  addr := granted.2.1
  size := by
    have aligned : 4096 ∣ exactNeed reservedStackSz objToPlaceOnStackLen := roundUp.dvd _ _
    have size := requestedSize_toNat reservedStackSz objToPlaceOnStackLen
    simp only [mappedAt]
    omega

theorem paged_place {len : UInt64} (paged : session.Paged) : (session.place true len).Paged where
  addr := paged.addr
  size := by
    have before := paged.size
    have taken : (session.stack.size - len).toNat =
        (2 ^ 64 - len.toNat + session.stack.size.toNat) % 2 ^ 64 := UInt64.toNat_sub ..
    have bounded := len.toNat_lt
    simp only [place_stack, place_carved, allocateObjOnStack, if_true]
    omega

theorem paged_step {op : SessionOp} (paged : session.Paged)
    (stepped : session.step true op = some next) : next.Paged := by
  cases op with
  | reserveStack reservedStackSz objToPlaceOnStackLen raw =>
      cases step_reserveStack stepped with
      | failed _ => exact paged
      | early _ _ => exact ⟨paged.addr, paged.size⟩
      | mapped _ granted _ => exact paged_mappedAt granted
      | remapped _ _ granted _ _ => exact paged_mappedAt granted
  | allocateObjOnStack len =>
      rw [step_allocateObjOnStack stepped]
      exact paged_place paged
  | aspawn =>
      cases Option.some.inj stepped
      exact paged
  | otherMap addr len | otherUnmap addr len =>
      obtain ⟨owner, rfl, _⟩ := step_other addr len (by simp) stepped
      exact ⟨paged.addr, paged.size⟩

/-- On x86-64 the child's stack begins where its arguments end up. -/
theorem Paged.args_toNat (paged : session.Paged) :
    let args := (allocateObjOnStack STACK_GROWS_DOWN session.stack sizeofAspawnChildArgs).1
    (args.toNat + session.carved) % 16 = 8 := by
  have addr := paged.addr
  have size := paged.size
  have taken : (session.stack.size - sizeofAspawnChildArgs).toNat =
      (2 ^ 64 - 152 + session.stack.size.toNat) % 2 ^ 64 := UInt64.toNat_sub ..
  have sum : (session.stack.addr + (session.stack.size - sizeofAspawnChildArgs)).toNat =
      (session.stack.addr.toNat + (session.stack.size - sizeofAspawnChildArgs).toNat) % 2 ^ 64 :=
    UInt64.toNat_add ..
  simp only [allocateObjOnStack, STACK_GROWS_DOWN, if_true]
  omega

end Session

namespace System

open Transition

variable {system : System} {session : Session} {owner : PageTable} {task : TaskId}
  {call block fn arg : Nat} {oldSigset : SigsetT} {pipefd : Nat × Nat} {clone3 : Choice}

/-- The stack pointer is aligned as functions expect it exactly if the objects placed since
the cached stack was last mapped or remapped make up for the 152 bytes of the arguments.
`psys_clone` and `psys_clone3` call `fn` from the stack pointer that the child is born with. -/
theorem child_aligned_iff
    (reached : Reaches (Session.step true) (fun _ _ => True) (Session.start owner) session)
    (cached : system.cachedStacks block = session.stack) (fresh : system.Fresh task pipefd) :
    ∃ fast fallback : Entry,
      { system with flag := false }.childEntry task call block fn arg oldSigset pipefd .ok =
        some fast ∧
      { system with flag := true }.childEntry task call block fn arg oldSigset pipefd clone3 =
        some fallback ∧
      (fast.stackPointer.toNat % 16 = 0 ∧ fallback.stackPointer.toNat % 16 = 0 ∧
          (allocateObjOnStack STACK_GROWS_DOWN session.stack
            sizeofAspawnChildArgs).1.toNat % 8 = 0 ↔
        session.carved % 16 = 8) := by
  have paged : session.Paged :=
    reached.invariant _ Session.paged_start fun paged _ stepped =>
      Session.paged_step paged stepped
  have args := paged.args_toNat
  refine ⟨_, _, childEntry_clone3 (fresh.withFlag false) rfl,
    childEntry_set (fresh.withFlag true) rfl, ?_⟩
  -- both paths start the child where its arguments begin
  have pointer (flag : Bool) (placed : ChildArgs) (actions : SigTable) :
      ({ system with flag }.entryWith task call block placed actions).stackPointer =
        (allocateObjOnStack STACK_GROWS_DOWN session.stack sizeofAspawnChildArgs).1 := by
    simp only [entryWith, cached]
    rfl
  rw [pointer, pointer]
  dsimp only at args
  constructor
  · intro ⟨aligned, _, _⟩
    omega
  · intro placed
    exact ⟨by omega, by omega, by omega⟩

theorem child_aligned_iff_24 :
    ∃ session, Reaches (Session.step true) (fun _ _ => True) (Session.start fun _ => .free)
        session ∧
      ∃ fast fallback : Entry,
        { boot .default fun _ => session.stack with flag := false }.childEntry (mainTask 0) 0
          0 100 200 0 (3, 4) .ok = some fast ∧
        { boot .default fun _ => session.stack with flag := true }.childEntry (mainTask 0) 0
          0 100 200 0 (3, 4) .ok = some fallback ∧
        fast.stackPointer.toNat % 16 = 0 ∧ fallback.stackPointer.toNat % 16 = 0 := by
  have performed : (run (Session.step true) (Session.start fun _ => .free)
      [.reserveStack 0 24 65536, .allocateObjOnStack 24]).map (·.carved) = some 24 := by
    decide +kernel
  obtain ⟨session, ran, carved⟩ := Option.map_eq_some_iff.mp performed
  have reached := Reaches.of_run ran (.of_forall fun _ _ _ => trivial)
  obtain ⟨fast, fallback, entered, set, aligned⟩ :=
    child_aligned_iff reached rfl (boot_fresh .default fun _ => session.stack)
  have both := aligned.mpr (by rw [carved])
  exact ⟨session, reached, fast, fallback, entered, set, both.1, both.2.1⟩

/-- A stack without objects. -/
theorem child_misaligned :
    ∃ session fast, Reaches (Session.step true) (fun _ _ => True)
        (Session.start fun _ => .free) session ∧
      session.stack = { addr := 65536, size := 36864 } ∧ session.objects = [] ∧
      { boot .default fun _ => session.stack with flag := false }.childEntry (mainTask 0) 0
        0 100 200 0 (3, 4) .ok = some fast ∧
      fast.stackPointer.toNat % 16 = 8 := by
  have performed : (run (Session.step true) (Session.start fun _ => .free)
      [.reserveStack 0 0 65536]).map (fun session => (session.stack, session.objects)) =
      some ({ addr := 65536, size := 36864 }, []) := by
    decide +kernel
  obtain ⟨session, ran, values⟩ := Option.map_eq_some_iff.mp performed
  simp only [Prod.mk.injEq] at values
  refine ⟨session, _, Reaches.of_run ran (.of_forall fun _ _ _ => trivial), values.1, values.2,
    childEntry_clone3 ((boot_fresh _ _).withFlag false) rfl, ?_⟩
  simp only [entryWith, boot, values.1]
  decide

end System

end Aspawn
