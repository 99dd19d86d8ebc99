import Aspawn.StackInMemory

/-! What the code stores to: the stack frames of its functions with their local variables, `*pid`,
the flag, `*args` and, where it is given one to change, the `Stack_t`. -/

set_option autoImplicit false

namespace Aspawn

namespace InMemory

open Loading Registers

/-- Where the code stores besides `*args` and the `Stack_t`s. -/
structure Storage where
  /-- The stack frames of its functions. Among their variables are `set`, `oldset`, `pipefd`,
  `cl_args` and `act`, which are in memory here, and those that are values here: `stack` of
  `aspawn_impl`, `errno_v` of `allocate_stack` and all that fit in registers. -/
  frames : UInt64 → Prop
  pid : UInt64
  /-- `does_not_have_clone_clear_sighand_internal` -/
  flag : UInt64

def Storage.Outside (storage : Storage) (place : UInt64) : Prop :=
  ¬ storage.frames place ∧ ¬ Memory.Covers storage.pid 4 place ∧
    ¬ Memory.Covers storage.flag 1 place

/-- The store that is the request, in the two cases in which it is one. -/
def Ask.stored (storage : Storage) (asked : Ask) (memory : Memory UInt8) : Memory UInt8 :=
  match asked with
  | .storePid pid =>
      memory.write storage.pid (LittleEndian.encode 4 (Int32.ofInt pid).toUInt32.toNat)
  | .storeFlag flag => memory.write storage.flag [if flag then 1 else 0]
  | _ => memory

/-- The arguments do not go where the place is. -/
def PlacesApart (place : UInt64) (asked : Ask) (answer : asked.Response) : Prop :=
  ∀ stack ∈ asked.foundStack answer, ¬ Memory.Covers (argsAddr stack) 152 place

instance (place : UInt64) (asked : Ask) (answer : asked.Response) :
    Decidable (PlacesApart place asked answer) :=
  inferInstanceAs (Decidable (∀ stack ∈ asked.foundStack answer, _))

/-- The code stores nothing there. -/
def Spares {α : Type} (place : UInt64) (code : Code α) : Prop :=
  ∀ byte thread, thread.memory place = byte →
    (code thread).Maintains (fun asked _ answer _ => PlacesApart place asked answer)
      (fun thread => thread.memory place = byte)

/-- All along the run and at its end the place holds what it held. -/
def Held {α : Type} (place : UInt64) (thread : Thread)
    (exchanges : List (Asks.sharing Thread).Exchange)
    (rest : Program (Asks.sharing Thread) (α × Thread)) : Prop :=
  (∀ exchange ∈ exchanges, exchange.1.2.memory place = thread.memory place) ∧
    ∀ value final, rest = .done (value, final) → final.memory place = thread.memory place

section

variable {α β : Type} {place : UInt64}

theorem Spares.held {code : Code α} {thread : Thread}
    {exchanges : List (Asks.sharing Thread).Exchange}
    {rest : Program (Asks.sharing Thread) (α × Thread)} (spares : Spares place code)
    (untouched : ∀ exchange ∈ exchanges, exchange.2.2.memory place = exchange.1.2.memory place)
    (apart : ∀ exchange ∈ exchanges, PlacesApart place exchange.1.1 exchange.2.1)
    (made : (code thread).Follows exchanges rest) : Held place thread exchanges rest := by
  obtain ⟨held, left⟩ := (spares (thread.memory place) thread rfl).follows made
    fun exchange member => ⟨apart exchange member, (untouched exchange member).trans⟩
  refine ⟨held, ?_⟩
  rintro value final rfl
  exact left

theorem spares_pure {value : α} : Spares place (pure value : Code α) := fun _ _ held => held

theorem spares_bind {first : Code α} {next : α → Code β} (spares : Spares place first)
    (further : ∀ value, Spares place (next value)) : Spares place (first >>= next) := by
  intro byte thread held
  exact Program.maintains_bind (spares byte thread held) fun value own holds =>
    further value byte own holds

theorem spares_ask {asked : Ask} : Spares place (ask asked) :=
  fun _ _ held => ⟨held, fun _ _ _ holds => holds⟩

/-- An answer says where the arguments go. -/
theorem spares_ask_bind {asked : Ask} {next : asked.Response → Code α}
    (further : ∀ answer, PlacesApart place asked answer → Spares place (next answer)) :
    Spares place (ask asked >>= next) :=
  fun byte _ held => ⟨held, fun answer later apart holds =>
    further answer apart byte later holds⟩

theorem spares_get : Spares place (get : Code Thread) := fun _ _ held => held

theorem spares_modifyMemory {f : Memory UInt8 → Memory UInt8}
    (kept : ∀ memory, f memory place = memory place) : Spares place (modifyMemory f) :=
  fun _ _ held => (kept _).trans held

theorem spares_loadInt {addr : UInt64} : Spares place (loadInt addr) := fun _ _ held => held

theorem spares_loadWord {addr : UInt64} : Spares place (loadWord addr) := fun _ _ held => held

theorem spares_storeWord {addr value : UInt64} (apart : ¬ Memory.Covers addr 8 place) :
    Spares place (storeWord addr value) := by
  intro byte thread held
  refine Eq.trans (Memory.write_of_not_covers ?_) held
  rwa [LittleEndian.length_encode]

theorem spares_trapping (program : Program TrapCalls α) : Spares place (trapping program) := by
  induction program with
  | done value => exact spares_pure
  | call trap next ih =>
      intro byte thread held
      exact ⟨held, fun answer later _ holds => ih answer byte later holds⟩

theorem spares_wrapper {code : RegisterFile → Program TrapCalls α} :
    Spares place (wrapper code) :=
  fun byte thread held => spares_trapping (code thread.registers) byte thread held

/-! ## The stores -/

theorem pmemset_of_not_covers {memory : Memory UInt8} {s n : UInt64} {c : Int}
    (apart : ¬ Memory.Covers s n.toNat place) : pmemset memory s c n place = memory place := by
  rw [pmemset_eq]
  refine Memory.write_of_not_covers ?_
  rwa [List.length_replicate]

theorem pmemcpy_of_not_covers {memory : Memory UInt8} {dest src n : UInt64}
    (apart : ¬ Memory.Covers dest n.toNat place) :
    pmemcpy memory dest src n place = memory place := by
  rw [pmemcpy_eq]
  exact if_neg apart

theorem storeChildArgs_of_not_covers {memory : Memory UInt8} {args oldSigset : UInt64}
    {pipefd : Nat × Nat} {fn arg : Nat} (apart : ¬ Memory.Covers args 152 place) :
    storeChildArgs memory args pipefd fn arg oldSigset place = memory place := by
  have outside (index count : Nat) (inside : index + count ≤ 152) :
      ¬ Memory.Covers (args + UInt64.ofNat index) count place := fun covered =>
    apart ((Memory.covers_of_part covered).mono inside)
  have field (memory : Memory UInt8) (index count value : Nat) (inside : index + count ≤ 152) :
      memory.write (args + UInt64.ofNat index) (LittleEndian.encode count value) place =
        memory place := by
    refine Memory.write_of_not_covers ?_
    rw [LittleEndian.length_encode]
    exact outside index count inside
  have first : memory.write args (LittleEndian.encode 4 pipefd.1) place = memory place := by
    refine Memory.write_of_not_covers ?_
    rw [LittleEndian.length_encode]
    exact fun covered => apart (covered.mono (by decide))
  exact (pmemcpy_of_not_covers (outside 24 128 (by decide))).trans <|
    (field _ 16 8 arg (by decide)).trans <| (field _ 8 8 fn (by decide)).trans <|
      (field _ 4 4 pipefd.2 (by decide)).trans first

/-! ## The functions -/

attribute [local irreducible] Spares

variable {locals : Locals} {entry : ChildEntry} {stack : StackT} {arg act args : UInt64}

theorem addr_apart {cachedStack : UInt64} (apart : ¬ Memory.Covers cachedStack 16 place) :
    ¬ Memory.Covers cachedStack 8 place := fun covered => apart (covered.mono (by decide))

theorem size_apart {cachedStack : UInt64} (apart : ¬ Memory.Covers cachedStack 16 place) :
    ¬ Memory.Covers (cachedStack + 8) 8 place := fun covered =>
  apart (Memory.covers_of_part covered)

theorem spares_sigBlockall {oldset : UInt64} (apart : ¬ Memory.Covers locals.set 128 place) :
    Spares place (sigBlockall locals oldset) := by
  refine spares_bind (spares_modifyMemory fun memory => ?_) fun _ => spares_wrapper
  exact pmemset_of_not_covers apart

theorem spares_cloneInternal : Spares place (cloneInternal entry arg stack) :=
  spares_bind spares_get fun _ => spares_bind spares_ask fun _ => spares_pure

theorem spares_cloneClearSighandInternal (apart : ¬ Memory.Covers locals.clArgs 80 place) :
    Spares place (cloneClearSighandInternal locals entry arg stack) := by
  refine spares_bind (spares_modifyMemory fun memory => Memory.write_of_not_covers ?_) fun _ => ?_
  · rwa [LittleEndian.length_encodeWords]
  · exact spares_bind spares_get fun _ => spares_bind spares_ask fun _ => spares_pure

theorem spares_cloneChild (apart : ¬ Memory.Covers locals.clArgs 80 place) :
    Spares place (cloneChild locals args stack) := by
  refine spares_bind spares_ask fun flag => ?_
  split
  · exact spares_cloneInternal
  · refine spares_bind (spares_cloneClearSighandInternal apart) fun newPid => ?_
    split
    · exact spares_pure
    · exact spares_bind spares_ask fun _ => spares_cloneInternal

theorem spares_finishImpl {newPid : Int} : Spares place (finishImpl locals newPid) := by
  have close (result : Int) : Spares place (do
      let _ ← wrapper (Registers.psysClose (← loadInt (locals.pipefd + 4)))
      return result) :=
    spares_bind spares_loadInt fun _ => spares_bind spares_wrapper fun _ => spares_pure
  unfold finishImpl
  dsimp only
  split
  · exact spares_bind spares_ask fun _ => spares_bind spares_loadInt fun _ =>
      spares_bind spares_pure close
  · exact spares_bind spares_loadInt fun _ => spares_bind spares_wrapper fun _ =>
      spares_bind spares_pure close

theorem spares_aspawnImpl {cachedStack : Nat} {fn oldSigset : UInt64}
    (apart : ¬ Memory.Covers locals.clArgs 80 place) :
    Spares place (aspawnImpl locals cachedStack fn arg oldSigset) := by
  refine spares_bind spares_wrapper fun result => ?_
  split
  · exact spares_pure
  · refine spares_ask_bind fun stack elsewhere => ?_
    refine spares_bind spares_loadInt fun _ => spares_bind spares_loadInt fun _ => ?_
    refine spares_bind (spares_modifyMemory fun memory => ?_) fun _ => ?_
    · exact storeChildArgs_of_not_covers (elsewhere stack rfl)
    · exact spares_bind (spares_cloneChild apart) fun _ => spares_finishImpl

theorem spares_aspawn {cachedStack : Nat} {fn : UInt64}
    (setApart : ¬ Memory.Covers locals.set 128 place)
    (apart : ¬ Memory.Covers locals.clArgs 80 place) :
    Spares place (aspawn locals cachedStack fn arg) := by
  refine spares_bind spares_ask fun oldstate => ?_
  refine spares_bind (spares_sigBlockall setApart) fun blocked => ?_
  have restore (result : Int) :
      Spares place (do let _ ← ask (.setcancelstate oldstate); return result) :=
    spares_bind spares_ask fun _ => spares_pure
  dsimp only
  split
  · refine spares_bind (spares_aspawnImpl apart) fun result => ?_
    exact spares_bind spares_wrapper fun _ => spares_bind spares_pure restore
  · exact spares_bind spares_pure restore

theorem spares_clearHandlersFrom {left : Nat} {sig : UInt32}
    (apart : ¬ Memory.Covers act 152 place) : Spares place (clearHandlersFrom act left sig) := by
  induction left generalizing sig with
  | zero => exact spares_pure
  | succ left ih =>
      refine spares_bind (spares_bind (spares_modifyMemory fun memory => ?_) fun _ =>
        spares_wrapper) fun _ => ih
      exact pmemset_of_not_covers apart

theorem spares_aspawnChild : Spares place (aspawnChild args) := by
  refine spares_bind spares_loadInt fun _ => spares_bind spares_wrapper fun ret => ?_
  split
  · exact spares_pure
  · refine spares_bind spares_loadWord fun _ => spares_bind spares_loadWord fun _ => ?_
    exact spares_bind spares_loadInt fun _ => spares_pure

theorem spares_startCode (apart : ¬ Memory.Covers act 152 place) :
    Spares place (startCode entry act args) := by
  cases entry with
  | aspawnChild => exact spares_aspawnChild
  | aspawnChildClearSighand =>
      exact spares_bind (spares_clearHandlersFrom apart) fun _ => spares_aspawnChild

theorem spares_reserveStack {cachedStack reservedStackSz objToPlaceOnStackLen : UInt64}
    (apart : ¬ Memory.Covers cachedStack 16 place) :
    Spares place (reserveStack cachedStack reservedStackSz objToPlaceOnStackLen) := by
  have keep (stackSize : UInt64) (mapping : Except Int UInt64) :
      Spares place (keepStack cachedStack stackSize mapping) := by
    cases mapping with
    | error errno => exact spares_pure
    | ok stack =>
        exact spares_bind (spares_storeWord (addr_apart apart)) fun _ =>
          spares_bind (spares_storeWord (size_apart apart)) fun _ => spares_pure
  unfold reserveStack allocateStack
  refine spares_bind spares_loadWord fun addr => spares_bind spares_loadWord fun size => ?_
  split
  · split
    · exact spares_bind spares_wrapper (keep _)
    · exact spares_pure
  · exact spares_bind spares_wrapper (keep _)

theorem spares_allocateObjOnStack {stackGrowsDown : Bool} {cachedStack len : UInt64}
    (apart : ¬ Memory.Covers cachedStack 16 place) :
    Spares place (allocateObjOnStack stackGrowsDown cachedStack len) := by
  refine spares_bind spares_loadWord fun size => ?_
  refine spares_bind (spares_storeWord (size_apart apart)) fun _ => ?_
  split
  · exact spares_bind spares_loadWord fun _ => spares_bind spares_loadWord fun _ => spares_pure
  · refine spares_bind spares_loadWord fun ret => ?_
    exact spares_bind (spares_storeWord (addr_apart apart)) fun _ => spares_pure

theorem spares_cleanupStack {cachedStack : UInt64} : Spares place (cleanupStack cachedStack) := by
  refine spares_bind spares_loadWord fun addr => spares_bind spares_loadWord fun size => ?_
  split
  · exact spares_wrapper
  · exact spares_pure

theorem spares_stackCall {stackGrowsDown : Bool} {cachedStack : UInt64} (call : StackCall)
    (apart : ¬ Memory.Covers cachedStack 16 place) :
    Spares place (call.code stackGrowsDown cachedStack) := by
  cases call with
  | initCachedStack =>
      refine spares_bind (spares_bind (spares_storeWord (addr_apart apart)) fun _ => ?_) fun _ =>
        spares_pure
      exact spares_storeWord (size_apart apart)
  | reserveStack reservedStackSz objToPlaceOnStackLen =>
      exact spares_bind (spares_reserveStack apart) fun _ => spares_pure
  | allocateObjOnStack len =>
      exact spares_bind (spares_allocateObjOnStack apart) fun _ => spares_pure
  | cleanupStack => exact spares_bind spares_cleanupStack fun _ => spares_pure

theorem spares_stackCalls {stackGrowsDown : Bool} {cachedStack : UInt64} {calls : List StackCall}
    (apart : ¬ Memory.Covers cachedStack 16 place) :
    Spares place (StackCall.codes stackGrowsDown cachedStack calls) := by
  induction calls with
  | nil => exact spares_pure
  | cons call calls ih =>
      exact spares_bind (spares_stackCall call apart) fun _ => spares_bind ih fun _ => spares_pure

/-! ## The requests that are stores -/

theorem stored_of_outside {storage : Storage} {asked : Ask} {memory : Memory UInt8}
    (outside : storage.Outside place) : asked.stored storage memory place = memory place := by
  obtain ⟨_, pid, flag⟩ := outside
  cases asked with
  | storePid value =>
      refine Memory.write_of_not_covers ?_
      rwa [LittleEndian.length_encode]
  | storeFlag value => exact Memory.write_of_not_covers flag
  | _ => rfl

end

/-- A place to which neither the kernel nor anyone else stores changes only where the code is to
store: in the frames of its functions, in `*pid`, in the flag, in `*args` on the `Stack_t` that a
call was given, and in the calls on a `Stack_t` there. -/
theorem stores_within (storage : Storage) (place : UInt64) (thread : Thread)
    (exchanges : List (Asks.sharing Thread).Exchange) (outside : storage.Outside place)
    (untouched : ∀ exchange ∈ exchanges, exchange.2.2.memory place =
      Ask.stored storage exchange.1.1 exchange.1.2.memory place)
    (apart : ∀ exchange ∈ exchanges, PlacesApart place exchange.1.1 exchange.2.1) :
    (∀ locals cachedStack fn arg rest,
      (∀ byte, Memory.Covers locals.set 128 byte ∨ Memory.Covers locals.clArgs 80 byte →
        storage.frames byte) →
      (aspawn locals cachedStack fn arg thread).Follows exchanges rest →
      Held place thread exchanges rest) ∧
    (∀ locals cachedStack fn arg oldSigset rest,
      (∀ byte, Memory.Covers locals.clArgs 80 byte → storage.frames byte) →
      (aspawnRec locals cachedStack fn arg oldSigset thread).Follows exchanges rest →
      Held place thread exchanges rest) ∧
    (∀ entry act args rest, (∀ byte, Memory.Covers act 152 byte → storage.frames byte) →
      (startCode entry act args thread).Follows exchanges rest →
      Held place thread exchanges rest) ∧
    (∀ stackGrowsDown cachedStack calls rest, ¬ Memory.Covers cachedStack 16 place →
      (StackCall.codes stackGrowsDown cachedStack calls thread).Follows exchanges rest →
      Held place thread exchanges rest) := by
  have kept : ∀ exchange ∈ exchanges,
      exchange.2.2.memory place = exchange.1.2.memory place := fun exchange member =>
    (untouched exchange member).trans (stored_of_outside outside)
  refine ⟨?_, ?_, ?_, ?_⟩
  · intro locals cachedStack fn arg rest framed made
    have set := fun covered => outside.1 (framed place (.inl covered))
    have clArgs := fun covered => outside.1 (framed place (.inr covered))
    exact (spares_aspawn set clArgs).held kept apart made
  · intro locals cachedStack fn arg oldSigset rest framed made
    have clArgs := fun covered => outside.1 (framed place covered)
    exact (spares_aspawnImpl clArgs).held kept apart made
  · intro entry act args rest framed made
    have act := fun covered => outside.1 (framed place covered)
    exact (spares_startCode act).held kept apart made
  · intro stackGrowsDown cachedStack calls rest elsewhere made
    exact (spares_stackCalls elsewhere).held kept apart made

/-- The pages of the local variables. -/
def pagesStorage : Storage where
  frames place := Memory.Covers 4096 16384 place
  pid := 24576
  flag := 28672

/-- `*pid` and the flag are stored to. -/
def storing : (request : (Asks.sharing Thread).Request) → (Asks.sharing Thread).Response request
  | (.storePid pid, thread) =>
      ((), { thread with memory := Ask.stored pagesStorage (.storePid pid) thread.memory })
  | (.storeFlag flag, thread) =>
      ((), { thread with memory := Ask.stored pagesStorage (.storeFlag flag) thread.memory })
  | request => quiet request

theorem pagesStorage_frames (byte : UInt64)
    (inside : Memory.Covers pages.set 128 byte ∨ Memory.Covers pages.clArgs 80 byte) :
    pagesStorage.frames byte := by
  cases inside with
  | inl set => exact Memory.Covers.mono set (by decide)
  | inr clArgs =>
      have within : Memory.Covers (4096 + UInt64.ofNat 12288) 80 byte := clArgs
      exact (Memory.covers_of_part within).mono (by decide)

theorem stores_within_storing :
    Held 65536 { memory := fun _ => 0, registers := fun _ => 0 }
      ((aspawn pages.toLocals 0 100 200
        { memory := fun _ => 0, registers := fun _ => 0 }).serve storing).1
      (.done ((aspawn pages.toLocals 0 100 200
        { memory := fun _ => 0, registers := fun _ => 0 }).serve storing).2) := by
  let thread : Thread := { memory := fun _ => 0, registers := fun _ => 0 }
  let code := aspawn pages.toLocals 0 100 200 thread
  have outside : pagesStorage.Outside 65536 :=
    ⟨show ¬ Memory.Covers 4096 16384 65536 by decide, by decide, by decide⟩
  have untouched : ∀ exchange ∈ (code.serve storing).1, exchange.2.2.memory 65536 =
      Ask.stored pagesStorage exchange.1.1 exchange.1.2.memory 65536 := by
    decide +kernel
  have apart : ∀ exchange ∈ (code.serve storing).1,
      PlacesApart 65536 exchange.1.1 exchange.2.1 := by
    decide +kernel
  exact (stores_within pagesStorage 65536 thread (code.serve storing).1 outside untouched apart).1
    pages.toLocals 0 100 200 (.done (code.serve storing).2) pagesStorage_frames
    (Program.follows_serve code)

end InMemory

end Aspawn
