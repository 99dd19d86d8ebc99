import Aspawn.ReserveStackProperties
import Aspawn.StackSession
import Mathlib.Order.CompletePartialOrder

/-! The invariant of a session: the pages the kernel mapped for the stack are what
its `Stack_t` records plus what the caller carved off, and the free part still
holds the last reservation. -/

set_option autoImplicit false

namespace Aspawn

namespace Session

/-- The address of the current mapping. On stacks that grow up the caller's objects
have moved `addr` above it. -/
def base (stackGrowsDown : Bool) (session : Session) : Nat :=
  if stackGrowsDown then session.stack.addr.toNat
  else session.stack.addr.toNat - session.carved

/-- The length of the current mapping. -/
def length (session : Session) : Nat := session.stack.size.toNat + session.carved

/-- Where the objects of the current reservation begin. -/
def objectsStart (stackGrowsDown : Bool) (session : Session) : Nat :=
  if stackGrowsDown then session.stack.addr.toNat + session.stack.size.toNat
  else session.stack.addr.toNat - session.placed

/-- The bytes of an object given by address and length. -/
def bytes (object : Nat × Nat) : Set Nat := Set.Ico object.1 (object.1 + object.2)

/-- No size sum of a reservation wraps, and the caller places no more than it reserved. -/
def Allowed (session : Session) : SessionOp → Prop
  | .reserveStack reservedStackSz objToPlaceOnStackLen _ =>
      exactNeed reservedStackSz objToPlaceOnStackLen < 2 ^ 64
  | .allocateObjOnStack len =>
      session.placed + len.toNat ≤ session.objToPlaceOnStackLen.toNat
  | _ => True

instance (session : Session) (op : SessionOp) : Decidable (session.Allowed op) := by
  cases op <;> unfold Allowed <;> infer_instance

structure Mapped (stackGrowsDown : Bool) (session : Session) : Prop where
  basePositive : 0 < session.base stackGrowsDown
  baseAligned : 4096 ∣ session.base stackGrowsDown
  lengthAligned : 4096 ∣ session.length
  inAddressSpace : session.base stackGrowsDown + session.length < 2 ^ 64
  addrMoved : stackGrowsDown = false → session.carved ≤ session.stack.addr.toNat
  owned : ∀ page ∈ pagesOf (session.base stackGrowsDown) session.length,
    session.owner page = .stack
  capacity : roundUp (session.reservedStackSz.toNat + 32 * 1024) 4096 +
    (session.objToPlaceOnStackLen.toNat + sizeofAspawnChildArgs.toNat) ≤
      session.stack.size.toNat + session.placed
  placedReserved : session.placed ≤ session.objToPlaceOnStackLen.toNat
  placedCarved : session.placed ≤ session.carved
  objectsInside : ∀ object ∈ session.objects,
    session.objectsStart stackGrowsDown ≤ object.1 ∧
      object.1 + object.2 ≤ session.objectsStart stackGrowsDown + session.placed
  objectsDisjoint : session.objects.Pairwise fun left right =>
    Disjoint (bytes left) (bytes right)

/-- No successful reservation yet. -/
structure Unmapped (session : Session) : Prop where
  stack : session.stack = initCachedStack
  nothingReserved : session.objToPlaceOnStackLen = 0
  nothingPlaced : session.placed = 0
  nothingCarved : session.carved = 0
  noPages : ∀ page, session.owner page ≠ .stack

def Invariant (stackGrowsDown : Bool) (session : Session) : Prop :=
  session.Unmapped ∨ session.Mapped stackGrowsDown

variable {stackGrowsDown : Bool} {session next : Session}

theorem unmapped_start {owner : PageTable} (noPages : ∀ page, owner page ≠ .stack) :
    (start owner).Unmapped :=
  ⟨rfl, rfl, rfl, rfl, noPages⟩

/-! ## What a `reserve_stack` step does -/

/-- The session after a mapping call returned `raw`. -/
def mappedAt (raw reservedStackSz objToPlaceOnStackLen : UInt64) (owner : PageTable) :
    Session where
  stack := { addr := raw, size := requestedSize reservedStackSz objToPlaceOnStackLen }
  owner := owner
  reservedStackSz := reservedStackSz
  objToPlaceOnStackLen := objToPlaceOnStackLen
  objects := []
  placed := 0
  carved := 0

inductive ReserveOutcome (session : Session)
    (reservedStackSz objToPlaceOnStackLen raw : UInt64) : Session → Prop where
  | failed : -4096 < raw →
      ReserveOutcome session reservedStackSz objToPlaceOnStackLen raw session
  | early : session.stack.addr ≠ 0 →
      requestedSize reservedStackSz objToPlaceOnStackLen ≤ session.stack.size →
      ReserveOutcome session reservedStackSz objToPlaceOnStackLen raw
        { session with reservedStackSz, objToPlaceOnStackLen, objects := [], placed := 0 }
  | mapped : session.stack.addr = 0 →
      Mappable raw (requestedSize reservedStackSz objToPlaceOnStackLen) →
      (∀ page ∈ pagesOf raw.toNat (requestedSize reservedStackSz objToPlaceOnStackLen).toNat,
        session.owner page = .free) →
      ReserveOutcome session reservedStackSz objToPlaceOnStackLen raw
        (mappedAt raw reservedStackSz objToPlaceOnStackLen (Pages.assign session.owner
          (pagesOf raw.toNat (requestedSize reservedStackSz objToPlaceOnStackLen).toNat)
          .stack))
  | remapped : session.stack.addr ≠ 0 →
      session.stack.size < requestedSize reservedStackSz objToPlaceOnStackLen →
      Mappable raw (requestedSize reservedStackSz objToPlaceOnStackLen) →
      session.stack.addr.toNat % 4096 = 0 →
      (∀ page ∈ pagesOf raw.toNat (requestedSize reservedStackSz objToPlaceOnStackLen).toNat,
        session.owner page = .free ∨ (raw = session.stack.addr ∧
          page ∈ pagesOf session.stack.addr.toNat session.stack.size.toNat)) →
      ReserveOutcome session reservedStackSz objToPlaceOnStackLen raw
        (mappedAt raw reservedStackSz objToPlaceOnStackLen (Pages.assign
          (Pages.assign session.owner
            (pagesOf session.stack.addr.toNat session.stack.size.toNat) .free)
          (pagesOf raw.toNat (requestedSize reservedStackSz objToPlaceOnStackLen).toNat)
          .stack))

theorem reserved_failed {reservedStackSz objToPlaceOnStackLen : UInt64} {result : Int}
    (negative : result < 0) :
    session.reserved reservedStackSz objToPlaceOnStackLen result session.stack =
      session.toAccount := by
  have nonzero : result ≠ 0 := by omega
  simp [Account.reserved, nonzero]

theorem reserved_mapped {raw reservedStackSz objToPlaceOnStackLen : UInt64}
    {owner : PageTable}
    (changed : ({ addr := raw, size := requestedSize reservedStackSz objToPlaceOnStackLen } :
      StackT) ≠ session.stack) :
    (session.reserved reservedStackSz objToPlaceOnStackLen 0
      { addr := raw, size := requestedSize reservedStackSz objToPlaceOnStackLen }).session owner =
      mappedAt raw reservedStackSz objToPlaceOnStackLen owner := by
  simp [Account.reserved, Account.session, mappedAt, changed]

theorem execute_reserveStack (raw : UInt64) (cachedStack : StackT)
    (reservedStackSz objToPlaceOnStackLen : UInt64) (owner : PageTable) :
    Program.execute (pageKernel raw)
        (reserveStack cachedStack reservedStackSz objToPlaceOnStackLen) owner =
      if cachedStack.addr ≠ 0 ∧
          requestedSize reservedStackSz objToPlaceOnStackLen ≤ cachedStack.size then
        some ((0, cachedStack), owner)
      else
        match pageKernel raw owner (mapRequest cachedStack
            (requestedSize reservedStackSz objToPlaceOnStackLen)) with
        | none => none
        | some (answer, after) => some (recordMapping cachedStack
            (requestedSize reservedStackSz objToPlaceOnStackLen) answer, after) := by
  rw [reserveStack_eq]
  split
  · rfl
  · simp only [Program.execute]
    split <;> simp_all

theorem step_reserveStack {reservedStackSz objToPlaceOnStackLen raw : UInt64}
    (stepped : session.step stackGrowsDown
      (.reserveStack reservedStackSz objToPlaceOnStackLen raw) = some next) :
    ReserveOutcome session reservedStackSz objToPlaceOnStackLen raw next := by
  simp only [step, execute_reserveStack] at stepped
  by_cases early : session.stack.addr ≠ 0 ∧
      requestedSize reservedStackSz objToPlaceOnStackLen ≤ session.stack.size
  · simp only [if_pos early, Account.reserved, Account.session, if_true, Option.some.injEq]
      at stepped
    subst stepped
    exact .early early.1 early.2
  rw [if_neg early] at stepped
  by_cases failure : -4096 < raw
  · have outcome := recordMapping_of_gt session.stack
      (requestedSize reservedStackSz objToPlaceOnStackLen) failure
    simp only [pageKernel, mapKernel, failure, if_true, outcome.2, reserved_failed outcome.1,
      Account.session, Option.some.injEq] at stepped
    subst stepped
    exact .failed failure
  have recorded := recordMapping_of_le session.stack
    (requestedSize reservedStackSz objToPlaceOnStackLen) (UInt64.not_lt.mp failure)
  by_cases unmapped : session.stack.addr = 0
  · have request : mapRequest session.stack
        (requestedSize reservedStackSz objToPlaceOnStackLen) =
          .mmap 0 (requestedSize reservedStackSz objToPlaceOnStackLen)
            (PROT_READ ||| PROT_WRITE) (MAP_PRIVATE ||| MAP_ANONYMOUS ||| MAP_STACK)
            (-1) 0 := by
      simp [mapRequest, unmapped]
    simp only [request, pageKernel, mapKernel, if_neg failure] at stepped
    by_cases granted : Mappable raw (requestedSize reservedStackSz objToPlaceOnStackLen) ∧
        ∀ page ∈ pagesOf raw.toNat
          (requestedSize reservedStackSz objToPlaceOnStackLen).toNat, session.owner page = .free
    · have moved : ({ addr := raw
                      size := requestedSize reservedStackSz objToPlaceOnStackLen } : StackT) ≠
          session.stack := by
        intro same
        exact granted.1.1 ((congrArg StackT.addr same).trans unmapped)
      simp only [if_pos granted, recorded, reserved_mapped moved, Option.some.injEq] at stepped
      subst stepped
      exact .mapped unmapped granted.1 granted.2
    · simp [if_neg granted] at stepped
  · have small : session.stack.size < requestedSize reservedStackSz objToPlaceOnStackLen :=
      UInt64.not_le.mp fun enough => early ⟨unmapped, enough⟩
    have request : mapRequest session.stack
        (requestedSize reservedStackSz objToPlaceOnStackLen) =
          .mremap session.stack.addr session.stack.size
            (requestedSize reservedStackSz objToPlaceOnStackLen) MREMAP_MAYMOVE 0 := by
      simp [mapRequest, unmapped]
    simp only [request, pageKernel, mapKernel, if_neg failure] at stepped
    by_cases granted : Mappable raw (requestedSize reservedStackSz objToPlaceOnStackLen) ∧
        session.stack.addr.toNat % 4096 = 0 ∧
        ∀ page ∈ pagesOf raw.toNat
          (requestedSize reservedStackSz objToPlaceOnStackLen).toNat,
          session.owner page = .free ∨ (raw = session.stack.addr ∧
            page ∈ pagesOf session.stack.addr.toNat session.stack.size.toNat)
    · have moved : ({ addr := raw
                      size := requestedSize reservedStackSz objToPlaceOnStackLen } : StackT) ≠
          session.stack := by
        intro same
        exact absurd (congrArg StackT.size same) (UInt64.ne_of_lt small).symm
      simp only [if_pos granted, recorded, reserved_mapped moved, Option.some.injEq] at stepped
      subst stepped
      exact .remapped unmapped small granted.1 granted.2.1 granted.2.2
    · simp [if_neg granted] at stepped

/-! ## The invariant -/

theorem base_of_down (down : stackGrowsDown = true) :
    session.base stackGrowsDown = session.stack.addr.toNat := by
  simp [base, down]

theorem base_of_up (up : stackGrowsDown = false) :
    session.base stackGrowsDown = session.stack.addr.toNat - session.carved := by
  simp [base, up]

@[simp] theorem mappedAt_mapping {raw reservedStackSz objToPlaceOnStackLen : UInt64}
    {owner : PageTable} :
    pagesOf ((mappedAt raw reservedStackSz objToPlaceOnStackLen owner).base stackGrowsDown)
        (mappedAt raw reservedStackSz objToPlaceOnStackLen owner).length =
      pagesOf raw.toNat (requestedSize reservedStackSz objToPlaceOnStackLen).toNat := by
  cases stackGrowsDown <;> simp [base, length, mappedAt]

theorem mapped_mappedAt {raw reservedStackSz objToPlaceOnStackLen : UInt64}
    {owner : PageTable}
    (granted : Mappable raw (requestedSize reservedStackSz objToPlaceOnStackLen))
    (fits : exactNeed reservedStackSz objToPlaceOnStackLen < 2 ^ 64) :
    (mappedAt raw reservedStackSz objToPlaceOnStackLen (Pages.assign owner
      (pagesOf raw.toNat (requestedSize reservedStackSz objToPlaceOnStackLen).toNat)
      .stack)).Mapped stackGrowsDown := by
  have size := requestedSize_toNat_of_lt fits
  have aligned : 4096 ∣ exactNeed reservedStackSz objToPlaceOnStackLen := roundUp.dvd _ _
  have covers : roundUp (reservedStackSz.toNat + 32 * 1024) 4096 +
      (objToPlaceOnStackLen.toNat + sizeofAspawnChildArgs.toNat) ≤
        exactNeed reservedStackSz objToPlaceOnStackLen := roundUp.le (by decide)
  obtain ⟨nonnull, pageAligned, _, inSpace⟩ := granted
  have positive : 0 < raw.toNat := by
    apply Nat.pos_of_ne_zero
    intro zero
    exact nonnull (UInt64.toNat_inj.mp zero)
  rw [size, roundUp.eq_self (by decide) aligned] at inSpace
  constructor
  · simpa [base, mappedAt] using positive
  · simpa [base, mappedAt] using Nat.dvd_of_mod_eq_zero pageAligned
  · simpa [length, mappedAt, size] using aligned
  · simpa [base, length, mappedAt, size] using inSpace
  · intro _
    exact Nat.zero_le _
  · intro page member
    apply Pages.assign_of_mem
    simpa [base, length, mappedAt] using member
  · simpa [mappedAt, size] using covers
  · exact Nat.zero_le _
  · exact Nat.le_refl _
  · intro object member
    cases member
  · exact List.Pairwise.nil

/-- Returning early only replaces the reservation that the free part has to hold. -/
theorem mapped_early {reservedStackSz objToPlaceOnStackLen : UInt64}
    (mapped : session.Mapped stackGrowsDown)
    (fits : exactNeed reservedStackSz objToPlaceOnStackLen < 2 ^ 64)
    (enough : requestedSize reservedStackSz objToPlaceOnStackLen ≤ session.stack.size) :
    ({ session with reservedStackSz, objToPlaceOnStackLen, objects := [], placed := 0 } :
      Session).Mapped stackGrowsDown where
  basePositive := mapped.basePositive
  baseAligned := mapped.baseAligned
  lengthAligned := mapped.lengthAligned
  inAddressSpace := mapped.inAddressSpace
  addrMoved := mapped.addrMoved
  owned := mapped.owned
  capacity := by
    have covers : roundUp (reservedStackSz.toNat + 32 * 1024) 4096 +
        (objToPlaceOnStackLen.toNat + sizeofAspawnChildArgs.toNat) ≤
          exactNeed reservedStackSz objToPlaceOnStackLen := roundUp.le (by decide)
    have recorded := UInt64.le_iff_toNat_le.mp enough
    rw [requestedSize_toNat_of_lt fits] at recorded
    exact covers.trans recorded
  placedReserved := Nat.zero_le _
  placedCarved := Nat.zero_le _
  objectsInside _ member := by cases member
  objectsDisjoint := .nil

theorem mapped_owner {owner : PageTable} (mapped : session.Mapped stackGrowsDown)
    (kept : ∀ page, session.owner page = .stack → owner page = .stack) :
    ({ session with owner } : Session).Mapped stackGrowsDown where
  basePositive := mapped.basePositive
  baseAligned := mapped.baseAligned
  lengthAligned := mapped.lengthAligned
  inAddressSpace := mapped.inAddressSpace
  addrMoved := mapped.addrMoved
  owned page member := kept page (mapped.owned page member)
  capacity := mapped.capacity
  placedReserved := mapped.placedReserved
  placedCarved := mapped.placedCarved
  objectsInside := mapped.objectsInside
  objectsDisjoint := mapped.objectsDisjoint

theorem Mapped.free_part (mapped : session.Mapped stackGrowsDown) :
    roundUp (session.reservedStackSz.toNat + 32 * 1024) 4096 +
      (session.objToPlaceOnStackLen.toNat - session.placed) +
        sizeofAspawnChildArgs.toNat ≤ session.stack.size.toNat := by
  have capacity := mapped.capacity
  have placed := mapped.placedReserved
  omega

/-- Everything the `Stack_t` describes lies inside the mapping. -/
theorem Mapped.addr_add_size (mapped : session.Mapped stackGrowsDown) :
    session.base stackGrowsDown ≤ session.stack.addr.toNat ∧
      session.stack.addr.toNat + session.stack.size.toNat ≤
        session.base stackGrowsDown + session.length := by
  cases stackGrowsDown with
  | true =>
      simp only [base_of_down, length]
      omega
  | false =>
      have moved := mapped.addrMoved rfl
      simp only [base_of_up, length]
      omega

/-! ## Placing an object -/

/-- The session after `allocate_obj_on_stack`. -/
def place (stackGrowsDown : Bool) (session : Session) (len : UInt64) : Session :=
  (session.toAccount.place stackGrowsDown len).session session.owner

section Place

variable {len : UInt64}

@[simp] theorem place_stack : (session.place stackGrowsDown len).stack =
    (allocateObjOnStack stackGrowsDown session.stack len).2 := rfl

@[simp] theorem place_reservedStackSz :
    (session.place stackGrowsDown len).reservedStackSz = session.reservedStackSz := rfl

@[simp] theorem place_objToPlaceOnStackLen :
    (session.place stackGrowsDown len).objToPlaceOnStackLen = session.objToPlaceOnStackLen := rfl

@[simp] theorem place_placed :
    (session.place stackGrowsDown len).placed = session.placed + len.toNat := rfl

@[simp] theorem place_carved :
    (session.place stackGrowsDown len).carved = session.carved + len.toNat := rfl

end Place

theorem allocateObjOnStack_size (stackGrowsDown : Bool) {stack : StackT} {len : UInt64}
    (fits : len.toNat ≤ stack.size.toNat) :
    (allocateObjOnStack stackGrowsDown stack len).2.size.toNat =
      stack.size.toNat - len.toNat := by
  have bounded := stack.size.toNat_lt
  have difference : (stack.size - len).toNat = stack.size.toNat - len.toNat := by
    rw [UInt64.toNat_sub]
    omega
  cases stackGrowsDown <;> simpa [allocateObjOnStack] using difference

/-- On stacks that grow down the object takes the top of the free part, on others
the bottom, and the free part shrinks to the rest. -/
theorem allocateObjOnStack_spec (stackGrowsDown : Bool) {stack : StackT} {len : UInt64}
    (fits : len.toNat ≤ stack.size.toNat)
    (inSpace : stack.addr.toNat + stack.size.toNat < 2 ^ 64) :
    let object := (allocateObjOnStack stackGrowsDown stack len).1.toNat
    let rest := (allocateObjOnStack stackGrowsDown stack len).2
    rest.size.toNat = stack.size.toNat - len.toNat ∧
      (stackGrowsDown = true → rest.addr = stack.addr ∧
        object = stack.addr.toNat + (stack.size.toNat - len.toNat)) ∧
      (stackGrowsDown = false → rest.addr.toNat = stack.addr.toNat + len.toNat ∧
        object = stack.addr.toNat) := by
  have size := allocateObjOnStack_size stackGrowsDown fits
  refine ⟨size, ?_, ?_⟩
  · intro down
    subst down
    simp only [allocateObjOnStack, if_true, true_and] at size ⊢
    rw [UInt64.toNat_add, size]
    omega
  · intro up
    subst up
    simp only [allocateObjOnStack, Bool.false_eq_true, if_false, and_true]
    rw [UInt64.toNat_add]
    omega

theorem place_length (stackGrowsDown : Bool) {len : UInt64}
    (fits : len.toNat ≤ session.stack.size.toNat) :
    (session.place stackGrowsDown len).length = session.length := by
  simp only [length, place_stack, place_carved, allocateObjOnStack_size stackGrowsDown fits]
  omega

theorem place_base (stackGrowsDown : Bool) {len : UInt64}
    (fits : len.toNat ≤ session.stack.size.toNat)
    (inSpace : session.stack.addr.toNat + session.stack.size.toNat < 2 ^ 64) :
    (session.place stackGrowsDown len).base stackGrowsDown = session.base stackGrowsDown := by
  obtain ⟨_, down, up⟩ := allocateObjOnStack_spec stackGrowsDown fits inSpace
  cases stackGrowsDown with
  | true => simp [base, (down rfl).1]
  | false =>
      simp only [base, place_stack, place_carved, (up rfl).1, Bool.false_eq_true, if_false]
      omega

theorem Mapped.object_fits {len : UInt64} (mapped : session.Mapped stackGrowsDown)
    (reserved : session.placed + len.toNat ≤ session.objToPlaceOnStackLen.toNat) :
    len.toNat ≤ session.stack.size.toNat ∧
      session.stack.addr.toNat + session.stack.size.toNat < 2 ^ 64 := by
  have room := mapped.free_part
  have inside := mapped.addr_add_size
  have inSpace := mapped.inAddressSpace
  omega

theorem mapped_place {len : UInt64} (mapped : session.Mapped stackGrowsDown)
    (reserved : session.placed + len.toNat ≤ session.objToPlaceOnStackLen.toNat) :
    (session.place stackGrowsDown len).Mapped stackGrowsDown := by
  have inSpace := mapped.inAddressSpace
  obtain ⟨fits, below⟩ := mapped.object_fits reserved
  obtain ⟨size, down, up⟩ := allocateObjOnStack_spec stackGrowsDown fits below
  have sameLength := place_length stackGrowsDown fits
  have sameBase := place_base stackGrowsDown fits below
  -- the new object is the part by which the objects' region grows
  have region : (session.place stackGrowsDown len).objectsStart stackGrowsDown ≤
        (allocateObjOnStack stackGrowsDown session.stack len).1.toNat ∧
      (allocateObjOnStack stackGrowsDown session.stack len).1.toNat + len.toNat ≤
        (session.place stackGrowsDown len).objectsStart stackGrowsDown +
          (session.placed + len.toNat) ∧
      (session.place stackGrowsDown len).objectsStart stackGrowsDown ≤
        session.objectsStart stackGrowsDown ∧
      session.objectsStart stackGrowsDown + session.placed ≤
        (session.place stackGrowsDown len).objectsStart stackGrowsDown +
          (session.placed + len.toNat) ∧
      ((allocateObjOnStack stackGrowsDown session.stack len).1.toNat + len.toNat ≤
          session.objectsStart stackGrowsDown ∨
        session.objectsStart stackGrowsDown + session.placed ≤
          (allocateObjOnStack stackGrowsDown session.stack len).1.toNat) := by
    have carved := mapped.placedCarved
    cases stackGrowsDown with
    | true =>
        simp only [objectsStart, place_stack, if_true, size, (down rfl).1, (down rfl).2]
        omega
    | false =>
        have moved := mapped.addrMoved rfl
        simp only [objectsStart, place_stack, place_placed, Bool.false_eq_true, if_false, (up rfl).1,
          (up rfl).2]
        omega
  constructor
  · rw [sameBase]; exact mapped.basePositive
  · rw [sameBase]; exact mapped.baseAligned
  · rw [sameLength]; exact mapped.lengthAligned
  · rw [sameBase, sameLength]; exact inSpace
  · intro grows
    have moved := mapped.addrMoved grows
    simp only [place_stack, place_carved, (up grows).1]
    omega
  · rw [sameBase, sameLength]; exact mapped.owned
  · have capacity := mapped.capacity
    simp only [place_stack, place_reservedStackSz, place_objToPlaceOnStackLen, place_placed, size]
    omega
  · exact reserved
  · have carved := mapped.placedCarved
    simp only [place_placed, place_carved]
    omega
  · intro object member
    rcases List.mem_cons.mp member with rfl | earlier
    · exact ⟨region.1, region.2.1⟩
    · have within := mapped.objectsInside object earlier
      exact ⟨region.2.2.1.trans within.1, within.2.trans region.2.2.2.1⟩
  · refine List.Pairwise.cons ?_ mapped.objectsDisjoint
    intro object member
    have within := mapped.objectsInside object member
    refine Set.disjoint_left.mpr fun byte inNew inOld => ?_
    simp only [bytes, Set.mem_Ico] at inNew inOld
    omega

/-! ## Runs -/

theorem unmapped_place {len : UInt64} (unmapped : session.Unmapped)
    (reserved : session.placed + len.toNat ≤ session.objToPlaceOnStackLen.toNat) :
    (session.place stackGrowsDown len).Unmapped := by
  have empty : len = 0 := by
    rw [unmapped.nothingReserved, unmapped.nothingPlaced] at reserved
    have zero : len.toNat = 0 := by simpa using reserved
    exact UInt64.toNat_inj.mp zero
  subst empty
  refine ⟨?_, unmapped.nothingReserved, ?_, ?_, unmapped.noPages⟩
  · cases stackGrowsDown <;> simp [allocateObjOnStack, unmapped.stack]
  · simp [unmapped.nothingPlaced]
  · simp [unmapped.nothingCarved]

theorem step_allocateObjOnStack {len : UInt64}
    (stepped : session.step stackGrowsDown (.allocateObjOnStack len) = some next) :
    next = session.place stackGrowsDown len :=
  (Option.some.inj stepped).symm

/-- Pages that the rest of the process maps or unmaps were never the stack's. -/
theorem step_other (addr len : Nat) {op : SessionOp}
    (op_eq : op = .otherMap addr len ∨ op = .otherUnmap addr len)
    (stepped : session.step stackGrowsDown op = some next) :
    ∃ owner, next = { session with owner } ∧
      ∀ page, owner page = .stack ↔ session.owner page = .stack := by
  rcases op_eq with rfl | rfl <;> simp only [step] at stepped
  all_goals
    split at stepped
    · rename_i others
      refine ⟨_, (Option.some.inj stepped).symm, fun page => ?_⟩
      by_cases member : page ∈ pagesOf addr len
      · simp [member, others page member]
      · simp [member]
    · cases stepped

theorem invariant_step {op : SessionOp} (invariant : session.Invariant stackGrowsDown)
    (allowed : session.Allowed op) (stepped : session.step stackGrowsDown op = some next) :
    next.Invariant stackGrowsDown := by
  cases op with
  | reserveStack reservedStackSz objToPlaceOnStackLen raw =>
      cases step_reserveStack stepped with
      | failed _ => exact invariant
      | early mappedAddr enough =>
          rcases invariant with unmapped | mapped
          · exact absurd (by rw [unmapped.stack]; rfl) mappedAddr
          · exact .inr (mapped_early mapped allowed enough)
      | mapped _ granted _ => exact .inr (mapped_mappedAt granted allowed)
      | remapped _ _ granted _ _ => exact .inr (mapped_mappedAt granted allowed)
  | allocateObjOnStack len =>
      rw [step_allocateObjOnStack stepped]
      rcases invariant with unmapped | mapped
      · exact .inl (unmapped_place unmapped allowed)
      · exact .inr (mapped_place mapped allowed)
  | aspawn =>
      cases Option.some.inj stepped
      exact invariant
  | otherMap addr len | otherUnmap addr len =>
      obtain ⟨owner, rfl, same⟩ := step_other addr len (by simp) stepped
      rcases invariant with unmapped | mapped
      · exact .inl ⟨unmapped.stack, unmapped.nothingReserved, unmapped.nothingPlaced,
          unmapped.nothingCarved, fun page owned =>
            unmapped.noPages page ((same page).mp owned)⟩
      · exact .inr (mapped_owner mapped fun page => (same page).mpr)

end Session

end Aspawn
