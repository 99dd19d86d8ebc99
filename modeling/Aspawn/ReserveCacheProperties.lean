import Aspawn.ReserveStackProperties
import Aspawn.Lib.Transition

/-! A `Stack_t` as a cache of one mapping: what a sequence of `reserve_stack` calls makes of
it, whatever the raw results of the mapping calls. -/

set_option autoImplicit false

namespace Aspawn

structure ReserveCall where
  reservedStackSz : UInt64
  objToPlaceOnStackLen : UInt64
  /-- The raw result of the mapping call, if one is made. -/
  raw : UInt64

namespace ReserveCall

def need (call : ReserveCall) : Nat :=
  exactNeed call.reservedStackSz call.objToPlaceOnStackLen

/-- No size sum wraps, and no mapping is made at NULL. -/
structure Regular (call : ReserveCall) : Prop where
  fits : call.need < 2 ^ 64
  nonnull : call.raw ≠ 0

instance (call : ReserveCall) : Decidable call.Regular :=
  decidable_of_iff (call.need < 2 ^ 64 ∧ call.raw ≠ 0)
    ⟨fun both => ⟨both.1, both.2⟩, fun regular => ⟨regular.fits, regular.nonnull⟩⟩

/-- The result, the `Stack_t` afterwards and the mapping calls that were made. -/
def perform (call : ReserveCall) (cachedStack : StackT) :
    Option ((Int × StackT) × List MapRequest) :=
  Program.execute (fun issued request => some (call.raw, request :: issued))
    (reserveStack cachedStack call.reservedStackSz call.objToPlaceOnStackLen) []

/-- The call has to map. -/
def Maps (call : ReserveCall) (cachedStack : StackT) : Prop :=
  cachedStack.addr = 0 ∨ cachedStack.size.toNat < call.need

/-- The one mapping call of a call that has to map. -/
def request (call : ReserveCall) (cachedStack : StackT) : MapRequest :=
  mapRequest cachedStack (.ofNat call.need)

inductive Outcome (call : ReserveCall) (cachedStack : StackT) :
    Int → StackT → List MapRequest → Prop where
  | kept : ¬ call.Maps cachedStack → Outcome call cachedStack 0 cachedStack []
  | refused (errno : Nat) :
      call.Maps cachedStack → 1 ≤ errno → errno ≤ 4095 → call.raw.toNat + errno = 2 ^ 64 →
      Outcome call cachedStack (-errno) cachedStack [call.request cachedStack]
  | mapped {size} :
      call.Maps cachedStack → call.raw ≤ -4096 → size.toNat = call.need →
      Outcome call cachedStack 0 { addr := call.raw, size } [call.request cachedStack]

variable {call : ReserveCall} {cachedStack : StackT}

theorem maps_iff (regular : call.Regular) :
    call.Maps cachedStack ↔ ¬ (cachedStack.addr ≠ 0 ∧
      requestedSize call.reservedStackSz call.objToPlaceOnStackLen ≤ cachedStack.size) := by
  rw [UInt64.le_iff_toNat_le, requestedSize_toNat_of_lt regular.fits, Maps, need]
  by_cases unmapped : cachedStack.addr = 0 <;> simp [unmapped]

theorem requestedSize_eq (regular : call.Regular) :
    requestedSize call.reservedStackSz call.objToPlaceOnStackLen = .ofNat call.need := by
  rw [← UInt64.toNat_inj, requestedSize_toNat_of_lt regular.fits]
  exact (UInt64.toNat_ofNat_of_lt' regular.fits).symm

theorem perform_of_maps (maps : call.Maps cachedStack) (regular : call.Regular) :
    call.perform cachedStack = some
      (recordMapping cachedStack
        (requestedSize call.reservedStackSz call.objToPlaceOnStackLen) call.raw,
        [call.request cachedStack]) := by
  unfold perform request
  rw [reserveStack_eq, if_neg ((maps_iff regular).mp maps), ← requestedSize_eq regular]
  rfl

theorem perform_of_not_maps (enough : ¬ call.Maps cachedStack) (regular : call.Regular) :
    call.perform cachedStack = some ((0, cachedStack), []) := by
  have early := not_not.mp fun other => enough ((maps_iff regular).mpr other)
  unfold perform
  rw [reserveStack_eq, if_pos early]
  rfl

theorem not_le_of_errno {raw : UInt64} {errno : Nat} (positive : 1 ≤ errno)
    (small : errno ≤ 4095) (sum : raw.toNat + errno = 2 ^ 64) : ¬ raw ≤ -4096 := by
  intro success
  have boundary : (-4096 : UInt64).toNat = 2 ^ 64 - 4096 := by decide
  have below : raw.toNat ≤ (-4096 : UInt64).toNat := UInt64.le_iff_toNat_le.mp success
  omega

theorem perform_spec (regular : call.Regular) (cachedStack : StackT) :
    ∃ result stack issued, call.perform cachedStack = some ((result, stack), issued) ∧
      call.Outcome cachedStack result stack issued := by
  by_cases maps : call.Maps cachedStack
  · have performed := perform_of_maps maps regular
    by_cases failure : -4096 < call.raw
    · obtain ⟨errno, failed, positive, small, raw⟩ := checkMapError_of_gt failure
      rw [recordMapping, failed] at performed
      exact ⟨_, _, _, performed, .refused errno maps positive small raw⟩
    · have success := UInt64.not_lt.mp failure
      rw [recordMapping_of_le _ _ success] at performed
      exact ⟨_, _, _, performed, .mapped maps success (requestedSize_toNat_of_lt regular.fits)⟩
  · exact ⟨0, cachedStack, [], perform_of_not_maps maps regular, .kept maps⟩

end ReserveCall

/-! ## Sequences of calls -/

/-- A `Stack_t` with the history of its `reserve_stack` calls. -/
structure ReserveLog where
  stack : StackT
  /-- The calls that returned 0, latest first. -/
  successes : List ReserveCall
  /-- The raw results of the mapping calls that succeeded, latest first. -/
  mappings : List UInt64

namespace ReserveLog

open Transition

def start : ReserveLog where
  stack := initCachedStack
  successes := []
  mappings := []

/-- The history after a call with this result, `Stack_t` and mapping calls. -/
def record (log : ReserveLog) (call : ReserveCall) (result : Int) (stack : StackT)
    (issued : List MapRequest) : ReserveLog where
  stack
  successes := if result = 0 then call :: log.successes else log.successes
  mappings := if issued ≠ [] ∧ call.raw ≤ -4096 then call.raw :: log.mappings else log.mappings

def step (log : ReserveLog) (call : ReserveCall) : Option ReserveLog := do
  let ((result, stack), issued) ← call.perform log.stack
  some (log.record call result stack issued)

/-- The largest requirement of the calls that returned 0. -/
def largest (log : ReserveLog) : Nat := (log.successes.map ReserveCall.need).foldr max 0

structure Recorded (log : ReserveLog) : Prop where
  size : log.stack.size.toNat = log.largest
  addr : log.stack.addr = log.mappings.head?.getD 0
  unmapped : log.stack.addr = 0 → log.stack.size = 0

variable {log next : ReserveLog} {call : ReserveCall}

theorem recorded_start : start.Recorded where
  size := rfl
  addr := rfl
  unmapped _ := rfl

theorem largest_cons {successes : List ReserveCall} {stack : StackT} {mappings : List UInt64} :
    largest { stack, successes := call :: successes, mappings } =
      max call.need (largest { stack, successes, mappings }) := by
  unfold largest
  exact List.foldr_cons

theorem recorded_record {result stack issued} (recorded : log.Recorded)
    (regular : call.Regular) (outcome : call.Outcome log.stack result stack issued) :
    (log.record call result stack issued).Recorded := by
  cases outcome with
  | kept enough =>
      have covered : call.need ≤ log.largest := by
        rw [← recorded.size]
        exact Nat.le_of_not_lt fun more => enough (.inr more)
      constructor
      · rw [record, if_pos rfl, largest_cons, recorded.size]
        exact (Nat.max_eq_right covered).symm
      · simpa [record] using recorded.addr
      · exact recorded.unmapped
  | refused errno _ positive small raw =>
      have failed : (-errno : Int) ≠ 0 := by omega
      have error := ReserveCall.not_le_of_errno positive small raw
      simp only [record, if_neg failed, error, and_false, if_false]
      exact recorded
  | @mapped size maps success sized =>
      have grows : log.largest ≤ call.need := by
        rw [← recorded.size]
        rcases maps with unmapped | more
        · rw [recorded.unmapped unmapped]
          exact Nat.zero_le _
        · exact Nat.le_of_lt more
      have mapping : [call.request log.stack] ≠ [] ∧ call.raw ≤ -4096 :=
        ⟨List.cons_ne_nil _ _, success⟩
      constructor
      · rw [record, if_pos rfl, largest_cons]
        exact sized.trans (Nat.max_eq_left grows).symm
      · rw [record, if_pos mapping]
        rfl
      · exact fun null => absurd null regular.nonnull

theorem recorded_step (recorded : log.Recorded) (regular : call.Regular)
    (stepped : log.step call = some next) : next.Recorded := by
  obtain ⟨result, stack, issued, performed, outcome⟩ :=
    ReserveCall.perform_spec regular log.stack
  simp only [step, performed, Option.bind_eq_bind, Option.bind_some, Option.some.injEq]
    at stepped
  rw [← stepped]
  exact recorded_record recorded regular outcome

theorem recorded_of_reaches
    (reached : Reaches step (fun _ call => call.Regular) start log) : log.Recorded :=
  reached.invariant Recorded recorded_start fun recorded regular stepped =>
    recorded_step recorded regular stepped

theorem largest_perm {other : ReserveLog} (same : other.successes.Perm log.successes) :
    other.largest = log.largest :=
  (same.map ReserveCall.need).foldr_eq 0

/-- A `Stack_t` only grows, to the largest requirement of the successful calls in any order,
and a call that fails leaves it as it is. -/
theorem reserveStack_cache
    (reached : Reaches step (fun _ call => call.Regular) start log) :
    log.stack.size.toNat = log.largest ∧
      log.stack.addr = log.mappings.head?.getD 0 ∧
      (∀ other, Reaches step (fun _ call => call.Regular) start other →
        other.successes.Perm log.successes → other.stack.size = log.stack.size) ∧
      ∀ call : ReserveCall, call.Regular → ∃ result stack issued,
        call.perform log.stack = some ((result, stack), issued) ∧
        (issued = [mapRequest log.stack (.ofNat call.need)] ↔
          log.stack.addr = 0 ∨ log.stack.size.toNat < call.need) ∧
        (issued = [] ↔ ¬ (log.stack.addr = 0 ∨ log.stack.size.toNat < call.need)) ∧
        (∀ errno : Nat, 1 ≤ errno → errno ≤ 4095 →
          (result = -errno ↔ issued ≠ [] ∧ call.raw.toNat + errno = 2 ^ 64)) ∧
        (result ≠ 0 →
          (∃ errno : Nat, 1 ≤ errno ∧ errno ≤ 4095 ∧ result = -errno) ∧ stack = log.stack) ∧
        (result = 0 → stack.addr = if issued = [] then log.stack.addr else call.raw) := by
  have recorded := recorded_of_reaches reached
  refine ⟨recorded.size, recorded.addr, fun other reachedOther same => ?_, fun call regular => ?_⟩
  · have recordedOther := recorded_of_reaches reachedOther
    rw [← UInt64.toNat_inj, recordedOther.size, recorded.size, largest_perm same]
  · obtain ⟨result, stack, issued, performed, outcome⟩ :=
      ReserveCall.perform_spec regular log.stack
    refine ⟨result, stack, issued, performed, ?_⟩
    cases outcome with
    | kept enough =>
        have none : ¬ (log.stack.addr = 0 ∨ log.stack.size.toNat < call.need) := enough
        refine ⟨by simp [none], by simp [none], fun errno positive _ => ?_, ?_, ?_⟩
        · simp only [ne_eq, not_true_eq_false, false_and, iff_false]
          omega
        · exact fun nonzero => absurd rfl nonzero
        · exact fun _ => rfl
    | refused errno maps positive small raw =>
        have issues : log.stack.addr = 0 ∨ log.stack.size.toNat < call.need := maps
        refine ⟨iff_of_true rfl issues, by simp [issues], fun other _ _ => ?_, ?_, ?_⟩
        · simp only [ne_eq, List.cons_ne_nil, not_false_eq_true, true_and]
          omega
        · exact fun _ => ⟨⟨errno, positive, small, rfl⟩, rfl⟩
        · exact fun zero => by omega
    | mapped maps success sized =>
        have issues : log.stack.addr = 0 ∨ log.stack.size.toNat < call.need := maps
        refine ⟨iff_of_true rfl issues, by simp [issues], fun errno positive small => ?_, ?_, ?_⟩
        · refine ⟨fun zero => by omega, fun failure => ?_⟩
          exact absurd success (ReserveCall.not_le_of_errno positive small failure.2)
        · exact fun nonzero => absurd rfl nonzero
        · exact fun _ => rfl

/-- A first mapping, a growth that fails with `ENOMEM`, its repetition, and a call that
needs no mapping. -/
def sampleCalls : List ReserveCall :=
  [{ reservedStackSz := 0, objToPlaceOnStackLen := 0, raw := 8192 },
   { reservedStackSz := 4096, objToPlaceOnStackLen := 0, raw := -12 },
   { reservedStackSz := 4096, objToPlaceOnStackLen := 0, raw := 65536 },
   { reservedStackSz := 0, objToPlaceOnStackLen := 8, raw := 4096 }]

def sampleLog : ReserveLog where
  stack := { addr := 65536, size := 40960 }
  successes := [
    { reservedStackSz := 0, objToPlaceOnStackLen := 8, raw := 4096 },
    { reservedStackSz := 4096, objToPlaceOnStackLen := 0, raw := 65536 },
    { reservedStackSz := 0, objToPlaceOnStackLen := 0, raw := 8192 }]
  mappings := [65536, 8192]

theorem sampleLog_reached : Reaches step (fun _ call => call.Regular) start sampleLog := by
  have performed : run step start sampleCalls = some sampleLog := rfl
  have regular : ∀ call ∈ sampleCalls, call.Regular := by decide
  exact .of_run performed (Along.of_forall fun call listed _ => regular call listed)

def growingCall : ReserveCall where
  reservedStackSz := 8192
  objToPlaceOnStackLen := 0
  raw := 131072

theorem reserveStack_cache_sample :
    (sampleLog.stack.size.toNat = sampleLog.largest ∧ sampleLog.stack.addr = 65536) ∧
      ∃ result stack, growingCall.perform sampleLog.stack =
        some ((result, stack), [.mremap 65536 40960 45056 MREMAP_MAYMOVE 0]) := by
  obtain ⟨size, addr, _, calls⟩ := reserveStack_cache sampleLog_reached
  obtain ⟨result, stack, issued, performed, maps, _⟩ := calls growingCall (by decide)
  have request : issued = [.mremap 65536 40960 45056 MREMAP_MAYMOVE 0] :=
    maps.mpr (.inr (by decide))
  exact ⟨⟨size, addr⟩, result, stack, request ▸ performed⟩

end ReserveLog

end Aspawn
