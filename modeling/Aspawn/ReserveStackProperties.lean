import Aspawn.CachedStack
import Aspawn.Lib.RoundUp

/-! What `reserve_stack` asks the kernel for and what it records, in terms of the
exact page-rounded requirement and its reduction modulo `2^64`. -/

set_option autoImplicit false

namespace Aspawn

/-! ## Exact sizes -/

/-- `reserved_stack_sz + 32*1024 + obj_to_place_on_stack_len +
sizeof(struct aspawn_child_args)`, without wrap-around. -/
def exactDemand (reservedStackSz objToPlaceOnStackLen : UInt64) : Nat :=
  reservedStackSz.toNat + 32 * 1024 + objToPlaceOnStackLen.toNat +
    sizeofAspawnChildArgs.toNat

/-- The mapping length that covers the demand with both page roundings, without
wrap-around. -/
def exactNeed (reservedStackSz objToPlaceOnStackLen : UInt64) : Nat :=
  roundUp (roundUp (reservedStackSz.toNat + 32 * 1024) 4096 +
    (objToPlaceOnStackLen.toNat + sizeofAspawnChildArgs.toNat)) 4096

/-- The `stack_size` that `allocate_stack` computes for a `reserve_stack` call. -/
def requestedSize (reservedStackSz objToPlaceOnStackLen : UInt64) : UInt64 :=
  alignToPage (alignStackSz (reservedStackSz + 32 * 1024) +
    (objToPlaceOnStackLen + sizeofAspawnChildArgs))

theorem align_toNat (sz alignment : UInt64) (positive : 0 < alignment.toNat) :
    (align sz alignment).toNat = roundUp sz.toNat alignment.toNat % 2 ^ 64 := by
  have remainder : (sz % alignment).toNat = sz.toNat % alignment.toNat := UInt64.toNat_mod ..
  have small := Nat.mod_lt sz.toNat positive
  have bounded := alignment.toNat_lt
  rw [roundUp.eq_add_remainder positive]
  by_cases aligned : sz % alignment = 0
  · have zero : sz.toNat % alignment.toNat = 0 := by rw [← remainder, aligned]; rfl
    simp [align, aligned, zero]
  · have nonzero : sz.toNat % alignment.toNat ≠ 0 := by
      intro zero
      exact aligned (UInt64.toNat_inj.mp (remainder.trans zero))
    have below : (alignment - sz % alignment).toNat =
        alignment.toNat - sz.toNat % alignment.toNat := by
      rw [UInt64.toNat_sub, remainder]
      omega
    simp only [align, ne_eq, aligned, not_false_eq_true, if_true, nonzero, UInt64.toNat_add,
      below]

theorem alignToPage_toNat (sz : UInt64) :
    (alignToPage sz).toNat = roundUp sz.toNat 4096 % 2 ^ 64 :=
  align_toNat sz psysGetPagesz (by decide)

theorem page_dvd_word : (4096 : Nat) ∣ 2 ^ 64 := by decide

/-- Every wrap in the code's five operations is the reduction of the exact
requirement modulo `2^64`. -/
theorem requestedSize_toNat (reservedStackSz objToPlaceOnStackLen : UInt64) :
    (requestedSize reservedStackSz objToPlaceOnStackLen).toNat =
      exactNeed reservedStackSz objToPlaceOnStackLen % 2 ^ 64 := by
  have unit : 0 < 4096 := by decide
  have reserved : (reservedStackSz + 32 * 1024).toNat =
      (reservedStackSz.toNat + 32 * 1024) % 2 ^ 64 := by
    simp [UInt64.toNat_add]
  rw [requestedSize, alignToPage_toNat, UInt64.toNat_add, roundUp.mod unit page_dvd_word,
    alignStackSz, alignToPage_toNat, reserved, roundUp.mod unit page_dvd_word,
    UInt64.toNat_add, exactNeed, ← roundUp.mod unit page_dvd_word,
    ← Nat.add_mod, roundUp.mod unit page_dvd_word]

theorem exactDemand_le_exactNeed (reservedStackSz objToPlaceOnStackLen : UInt64) :
    exactDemand reservedStackSz objToPlaceOnStackLen ≤
      exactNeed reservedStackSz objToPlaceOnStackLen := by
  have inner : reservedStackSz.toNat + 32 * 1024 ≤
      roundUp (reservedStackSz.toNat + 32 * 1024) 4096 := roundUp.le (by decide)
  have outer : roundUp (reservedStackSz.toNat + 32 * 1024) 4096 +
      (objToPlaceOnStackLen.toNat + sizeofAspawnChildArgs.toNat) ≤
      exactNeed reservedStackSz objToPlaceOnStackLen := roundUp.le (by decide)
  unfold exactDemand
  omega

theorem exactNeed_lt (reservedStackSz objToPlaceOnStackLen : UInt64) :
    exactNeed reservedStackSz objToPlaceOnStackLen <
      exactDemand reservedStackSz objToPlaceOnStackLen + 2 * 4096 := by
  have inner : roundUp (reservedStackSz.toNat + 32 * 1024) 4096 <
      reservedStackSz.toNat + 32 * 1024 + 4096 := roundUp.lt_add (by decide)
  have outer : exactNeed reservedStackSz objToPlaceOnStackLen <
      roundUp (reservedStackSz.toNat + 32 * 1024) 4096 +
        (objToPlaceOnStackLen.toNat + sizeofAspawnChildArgs.toNat) + 4096 :=
    roundUp.lt_add (by decide)
  unfold exactDemand
  omega

/-- A requirement that wraps is recorded as less than the demand. -/
theorem requestedSize_lt_exactDemand {reservedStackSz objToPlaceOnStackLen : UInt64}
    (wraps : 2 ^ 64 ≤ exactNeed reservedStackSz objToPlaceOnStackLen) :
    (requestedSize reservedStackSz objToPlaceOnStackLen).toNat <
      exactDemand reservedStackSz objToPlaceOnStackLen := by
  have near := exactNeed_lt reservedStackSz objToPlaceOnStackLen
  rw [requestedSize_toNat]
  omega

theorem requestedSize_toNat_of_lt {reservedStackSz objToPlaceOnStackLen : UInt64}
    (fits : exactNeed reservedStackSz objToPlaceOnStackLen < 2 ^ 64) :
    (requestedSize reservedStackSz objToPlaceOnStackLen).toNat =
      exactNeed reservedStackSz objToPlaceOnStackLen := by
  rw [requestedSize_toNat, Nat.mod_eq_of_lt fits]

/-! ## Outcomes of `reserve_stack` -/

/-- What a raw result makes `allocate_stack` return and record. -/
def recordMapping (cachedStack : StackT) (stackSize raw : UInt64) : Int × StackT :=
  match checkMapError raw with
  | .error errno => (-errno, cachedStack)
  | .ok stack => (0, { addr := stack, size := stackSize })

theorem checkMapError_of_le {raw : UInt64} (success : raw ≤ -4096) :
    checkMapError raw = .ok raw := by
  have unsigned : ¬ raw > -4096 := UInt64.not_lt.mpr success
  simp [checkMapError, unsigned]

theorem checkMapError_of_gt {raw : UInt64} (failure : -4096 < raw) :
    ∃ errno : Nat, checkMapError raw = .error errno ∧ 1 ≤ errno ∧ errno ≤ 4095 ∧
      raw.toNat + errno = 2 ^ 64 := by
  refine ⟨(-raw).toNat, by simp [checkMapError, failure], ?_⟩
  have bounded := raw.toNat_lt
  have above : (-4096 : UInt64).toNat < raw.toNat := UInt64.lt_iff_toNat_lt.mp failure
  have boundary : (-4096 : UInt64).toNat = 2 ^ 64 - 4096 := by decide
  have negated : (-raw).toNat = 2 ^ 64 - raw.toNat := by
    rw [UInt64.toNat_neg, UInt64.size]
    omega
  omega

theorem recordMapping_of_le (cachedStack : StackT) (stackSize : UInt64) {raw : UInt64}
    (success : raw ≤ -4096) :
    recordMapping cachedStack stackSize raw = (0, { addr := raw, size := stackSize }) := by
  simp [recordMapping, checkMapError_of_le success]

theorem recordMapping_of_gt (cachedStack : StackT) (stackSize : UInt64) {raw : UInt64}
    (failure : -4096 < raw) :
    (recordMapping cachedStack stackSize raw).1 < 0 ∧
      (recordMapping cachedStack stackSize raw).2 = cachedStack := by
  obtain ⟨errno, failed, positive, _⟩ := checkMapError_of_gt failure
  simp only [recordMapping, failed, and_true]
  omega

/-- The request that `reserve_stack` issues, if it issues one. -/
def mapRequest (cachedStack : StackT) (stackSize : UInt64) : MapRequest :=
  if cachedStack.addr ≠ 0 then
    .mremap cachedStack.addr cachedStack.size stackSize MREMAP_MAYMOVE 0
  else
    .mmap 0 stackSize (PROT_READ ||| PROT_WRITE) (MAP_PRIVATE ||| MAP_ANONYMOUS ||| MAP_STACK)
      (-1) 0

private theorem mapCall_congr {α : Type} {request other : MapRequest}
    {next later : UInt64 → Program MapCalls α} (same : request = other)
    (agree : ∀ raw, next raw = later raw) :
    (.call request next : Program MapCalls α) = .call other later := by
  subst same
  rw [funext agree]

/-- `reserve_stack` returns early, or issues exactly one request and records its result. -/
theorem reserveStack_eq (cachedStack : StackT) (reservedStackSz objToPlaceOnStackLen : UInt64) :
    reserveStack cachedStack reservedStackSz objToPlaceOnStackLen =
      if cachedStack.addr ≠ 0 ∧
          requestedSize reservedStackSz objToPlaceOnStackLen ≤ cachedStack.size then
        .done (0, cachedStack)
      else
        .call (mapRequest cachedStack (requestedSize reservedStackSz objToPlaceOnStackLen))
          fun raw => .done (recordMapping cachedStack
            (requestedSize reservedStackSz objToPlaceOnStackLen) raw) := by
  have folded : alignToPage (alignStackSz (reservedStackSz + 32 * 1024) +
      (objToPlaceOnStackLen + sizeofAspawnChildArgs)) =
        requestedSize reservedStackSz objToPlaceOnStackLen := rfl
  simp only [reserveStack, allocateStack, folded]
  generalize requestedSize reservedStackSz objToPlaceOnStackLen = stackSize
  by_cases mapped : cachedStack.addr = 0
  · have offset : ¬ ((0 : UInt64) &&& (psysGetPagesz - 1) ≠ 0) := by decide
    rw [if_neg (by simpa using mapped), if_neg (fun both => both.1 mapped)]
    simp only [psysMmap, if_neg offset, mapCall_bind, Program.call_bind, Program.pure_eq,
      Program.done_bind]
    refine mapCall_congr (by simp [mapRequest, mapped]) fun raw => ?_
    cases outcome : checkMapError raw <;> simp [recordMapping, outcome]
  · rw [if_pos mapped]
    by_cases fits : cachedStack.size < stackSize
    · rw [if_pos fits, if_neg (fun both => UInt64.not_le.mpr fits both.2)]
      simp only [psysMremap, mapCall_bind, Program.call_bind, Program.pure_eq,
        Program.done_bind]
      refine mapCall_congr (by simp [mapRequest, mapped]) fun raw => ?_
      cases outcome : checkMapError raw <;> simp [recordMapping, outcome]
    · rw [if_neg fits, if_pos ⟨mapped, UInt64.not_lt.mp fits⟩, Program.pure_eq]

/-! ## Too little reserved -/

/-- A mapping call of non-zero length may fail or return any non-null address; one
of length zero fails. -/
def MayMap : MapRequest → UInt64 → Prop
  | .mmap _ len _ _ _ _, raw => -4096 < raw ∨ (len ≠ 0 ∧ raw ≠ 0)
  | .mremap _ _ newLen _ _, raw => -4096 < raw ∨ (newLen ≠ 0 ∧ raw ≠ 0)
  | .munmap _ _, _ => True

/-- The stacks that `init_cached_stack` and later `reserve_stack` calls produce. -/
inductive Reserved : StackT → Prop where
  | init : Reserved initCachedStack
  | reserve {cachedStack : StackT} {reservedStackSz objToPlaceOnStackLen : UInt64}
      {result : Int × StackT} :
      Reserved cachedStack →
      Program.Returns (S := MapCalls) MayMap
        (reserveStack cachedStack reservedStackSz objToPlaceOnStackLen) result →
      Reserved result.2

/-- A `reserve_stack` that returns 0 leaves at least the exact demand, and one
whose exact demand does not fit in `size_t` fails. -/
def NeverTooLittle (cachedStack : StackT) (reservedStackSz objToPlaceOnStackLen : UInt64) :
    Prop :=
  ∀ result, Program.Returns (S := MapCalls) MayMap
      (reserveStack cachedStack reservedStackSz objToPlaceOnStackLen) result →
    (result.1 = 0 →
      exactDemand reservedStackSz objToPlaceOnStackLen ≤ result.2.size.toNat) ∧
    (2 ^ 64 ≤ exactDemand reservedStackSz objToPlaceOnStackLen → result.1 < 0)

theorem mayMap_mapRequest {cachedStack : StackT} {stackSize raw : UInt64} :
    MayMap (mapRequest cachedStack stackSize) raw ↔
      -4096 < raw ∨ (stackSize ≠ 0 ∧ raw ≠ 0) := by
  unfold mapRequest
  split <;> rfl

theorem returns_reserveStack_early {cachedStack : StackT}
    {reservedStackSz objToPlaceOnStackLen : UInt64} {result : Int × StackT}
    (mapped : cachedStack.addr ≠ 0)
    (enough : requestedSize reservedStackSz objToPlaceOnStackLen ≤ cachedStack.size) :
    Program.Returns (S := MapCalls) MayMap
      (reserveStack cachedStack reservedStackSz objToPlaceOnStackLen) result ↔
      result = (0, cachedStack) := by
  rw [reserveStack_eq, if_pos ⟨mapped, enough⟩]
  exact Program.returns_done

theorem returns_reserveStack_call {cachedStack : StackT}
    {reservedStackSz objToPlaceOnStackLen : UInt64} {result : Int × StackT}
    (issued : ¬ (cachedStack.addr ≠ 0 ∧
      requestedSize reservedStackSz objToPlaceOnStackLen ≤ cachedStack.size)) :
    Program.Returns (S := MapCalls) MayMap
      (reserveStack cachedStack reservedStackSz objToPlaceOnStackLen) result ↔
      ∃ raw, (-4096 < raw ∨
          (requestedSize reservedStackSz objToPlaceOnStackLen ≠ 0 ∧ raw ≠ 0)) ∧
        result = recordMapping cachedStack
          (requestedSize reservedStackSz objToPlaceOnStackLen) raw := by
  rw [reserveStack_eq, if_neg issued, Program.returns_call]
  exact exists_congr fun raw => and_congr mayMap_mapRequest Program.returns_done

/-- The mapping call succeeds at the lowest non-null page. -/
theorem returns_mapped_low {cachedStack : StackT}
    {reservedStackSz objToPlaceOnStackLen : UInt64}
    (issued : ¬ (cachedStack.addr ≠ 0 ∧
      requestedSize reservedStackSz objToPlaceOnStackLen ≤ cachedStack.size))
    (nonzero : requestedSize reservedStackSz objToPlaceOnStackLen ≠ 0) :
    Program.Returns (S := MapCalls) MayMap
      (reserveStack cachedStack reservedStackSz objToPlaceOnStackLen)
      (0, { addr := 4096, size := requestedSize reservedStackSz objToPlaceOnStackLen }) := by
  rw [returns_reserveStack_call issued]
  refine ⟨4096, .inr ⟨nonzero, by decide⟩, ?_⟩
  rw [recordMapping_of_le _ _ (by decide)]

/-- `reserve_stack` meets its contract exactly when the page-rounded requirement
does not wrap, or wraps in a way that cannot reach the recording of a mapping:
to length zero on a stack without mapping, or below a size that already covers
the demand. -/
theorem reserveStack_never_too_little_iff (cachedStack : StackT)
    (reservedStackSz objToPlaceOnStackLen : UInt64) :
    NeverTooLittle cachedStack reservedStackSz objToPlaceOnStackLen ↔
      exactNeed reservedStackSz objToPlaceOnStackLen < 2 ^ 64 ∨
      (cachedStack.addr = 0 ∧
        exactNeed reservedStackSz objToPlaceOnStackLen % 2 ^ 64 = 0) ∨
      (cachedStack.addr ≠ 0 ∧
        exactNeed reservedStackSz objToPlaceOnStackLen % 2 ^ 64 ≤ cachedStack.size.toNat ∧
        exactDemand reservedStackSz objToPlaceOnStackLen ≤ cachedStack.size.toNat) := by
  have covered := exactDemand_le_exactNeed reservedStackSz objToPlaceOnStackLen
  have recorded := requestedSize_toNat reservedStackSz objToPlaceOnStackLen
  have bounded := cachedStack.size.toNat_lt
  have orderly : requestedSize reservedStackSz objToPlaceOnStackLen ≤ cachedStack.size ↔
      exactNeed reservedStackSz objToPlaceOnStackLen % 2 ^ 64 ≤ cachedStack.size.toNat := by
    rw [UInt64.le_iff_toNat_le, recorded]
  constructor
  · intro contract
    by_contra excluded
    simp only [not_or, not_and] at excluded
    obtain ⟨wraps, unmapped, kept⟩ := excluded
    have tooSmall := requestedSize_lt_exactDemand (Nat.le_of_not_lt wraps)
    by_cases early : cachedStack.addr ≠ 0 ∧
        requestedSize reservedStackSz objToPlaceOnStackLen ≤ cachedStack.size
    · have returned := contract _ ((returns_reserveStack_early early.1 early.2).mpr rfl)
      exact kept early.1 (orderly.mp early.2) (returned.1 rfl)
    · have nonzero : requestedSize reservedStackSz objToPlaceOnStackLen ≠ 0 := by
        intro zero
        have remainder : exactNeed reservedStackSz objToPlaceOnStackLen % 2 ^ 64 = 0 := by
          rw [← recorded, zero]; rfl
        by_cases mapped : cachedStack.addr = 0
        · exact unmapped mapped remainder
        · exact early ⟨mapped, orderly.mpr (by omega)⟩
      have returned := contract _ (returns_mapped_low early nonzero)
      exact absurd (returned.1 rfl) (Nat.not_le_of_lt tooSmall)
  · intro condition result returned
    by_cases early : cachedStack.addr ≠ 0 ∧
        requestedSize reservedStackSz objToPlaceOnStackLen ≤ cachedStack.size
    · rw [returns_reserveStack_early early.1 early.2] at returned
      subst returned
      have enough := orderly.mp early.2
      have large : exactDemand reservedStackSz objToPlaceOnStackLen ≤
          cachedStack.size.toNat := by
        rcases condition with fits | ⟨unmapped, _⟩ | ⟨_, _, large⟩
        · omega
        · exact absurd unmapped early.1
        · exact large
      exact ⟨fun _ => large, fun overflow => by omega⟩
    · rw [returns_reserveStack_call early] at returned
      obtain ⟨raw, outcome, rfl⟩ := returned
      by_cases failure : -4096 < raw
      · have failed := (recordMapping_of_gt cachedStack
          (requestedSize reservedStackSz objToPlaceOnStackLen) failure).1
        exact ⟨fun zero => by omega, fun _ => failed⟩
      · rw [recordMapping_of_le _ _ (UInt64.not_lt.mp failure)]
        have nonzero : requestedSize reservedStackSz objToPlaceOnStackLen ≠ 0 :=
          (outcome.resolve_left failure).1
        have fits : exactNeed reservedStackSz objToPlaceOnStackLen < 2 ^ 64 := by
          rcases condition with fits | ⟨_, zero⟩ | ⟨mapped, enough, _⟩
          · exact fits
          · exact absurd (UInt64.toNat_inj.mp (recorded.trans zero : _ = (0 : UInt64).toNat)) nonzero
          · exact absurd ⟨mapped, orderly.mpr enough⟩ early
        have unwrapped := requestedSize_toNat_of_lt fits
        exact ⟨fun _ => by rw [unwrapped]; exact covered, fun overflow => by omega⟩

/-- On a fresh stack a request of `2^64 - 32768` bytes succeeds with one page. -/
theorem reserveStack_wrapped_request_succeeds :
    ¬ ∀ cachedStack, Reserved cachedStack → ∀ reservedStackSz objToPlaceOnStackLen,
      NeverTooLittle cachedStack reservedStackSz objToPlaceOnStackLen := by
  intro contract
  have fresh := contract initCachedStack .init (-32768) 0
  have returned := fresh _ (returns_mapped_low (by decide) (by decide))
  exact absurd (returned.1 rfl) (by decide)

end Aspawn
