import Aspawn.Spawn.CodeInMemoryProperties

/-! `cached_stack.c` once more, on a `struct Stack_t` in memory and down to the registers of its
system calls. -/

set_option autoImplicit false

namespace Aspawn

namespace InMemory

open Loading Registers Coupling

/-! ## The code -/

def Thread.store (thread : Thread) (addr value : UInt64) : Thread :=
  { thread with memory := thread.memory.write addr (LittleEndian.encode 8 value.toNat) }

def storeWord (addr value : UInt64) : Code Unit := modify (·.store addr value)

def initCachedStack (cachedStack : UInt64) : Code Unit := do
  storeWord cachedStack 0
  storeWord (cachedStack + 8) 0

def cleanupStack (cachedStack : UInt64) : Code Int := do
  let addr ← loadWord cachedStack
  let size ← loadWord (cachedStack + 8)
  if addr ≠ 0 ∧ size ≠ 0 then
    wrapper (Registers.psysMunmap addr size)
  else
    return 0

/-- What `allocate_stack` does with the mapping it has asked for. -/
def keepStack (cachedStack stackSize : UInt64) : Except Int UInt64 → Code Int
  | .error errno => return -errno
  | .ok stack => do
      storeWord cachedStack stack
      storeWord (cachedStack + 8) stackSize
      return 0

def allocateStack (cachedStack size objToPlaceOnStackLen : UInt64) : Code Int := do
  let prot := PROT_READ ||| PROT_WRITE
  let flags := MAP_PRIVATE ||| MAP_ANONYMOUS ||| MAP_STACK
  let stackSize := alignToPage (alignStackSz size + objToPlaceOnStackLen)
  let addr ← loadWord cachedStack
  let size ← loadWord (cachedStack + 8)
  if addr ≠ 0 then
    if size < stackSize then
      let stack ← wrapper (Registers.psysMremap addr size stackSize MREMAP_MAYMOVE 0)
      keepStack cachedStack stackSize stack
    else
      return 0
  else
    let stack ← wrapper (Registers.psysMmap 0 stackSize prot flags (-1) 0)
    keepStack cachedStack stackSize stack

def reserveStack (cachedStack reservedStackSz objToPlaceOnStackLen : UInt64) : Code Int :=
  allocateStack cachedStack (reservedStackSz + 32 * 1024)
    (objToPlaceOnStackLen + sizeofAspawnChildArgs)

def allocateObjOnStack (stackGrowsDown : Bool) (stack len : UInt64) : Code UInt64 := do
  storeWord (stack + 8) ((← loadWord (stack + 8)) - len)
  if stackGrowsDown then
    return (← loadWord stack) + (← loadWord (stack + 8))
  else
    let ret ← loadWord stack
    storeWord stack (ret + len)
    return ret

/-! ## Calls on one `Stack_t` -/

inductive StackCall where
  | initCachedStack
  | reserveStack (reservedStackSz objToPlaceOnStackLen : UInt64)
  | allocateObjOnStack (len : UInt64)
  | cleanupStack

inductive StackResult where
  | void
  | returned (result : Int)
  | object (addr : UInt64)
  deriving DecidableEq

namespace StackCall

def code (stackGrowsDown : Bool) (cachedStack : UInt64) : StackCall → Code StackResult
  | .initCachedStack => do
      InMemory.initCachedStack cachedStack
      return .void
  | .reserveStack reservedStackSz objToPlaceOnStackLen => do
      return .returned
        (← InMemory.reserveStack cachedStack reservedStackSz objToPlaceOnStackLen)
  | .allocateObjOnStack len => do
      return .object (← InMemory.allocateObjOnStack stackGrowsDown cachedStack len)
  | .cleanupStack => do
      return .returned (← InMemory.cleanupStack cachedStack)

/-- The same call on a `Stack_t` that is a value. -/
def program (stackGrowsDown : Bool) (stack : StackT) :
    StackCall → Program MapCalls (StackResult × StackT)
  | .initCachedStack => return (.void, Aspawn.initCachedStack)
  | .reserveStack reservedStackSz objToPlaceOnStackLen => do
      let (result, stack) ← Aspawn.reserveStack stack reservedStackSz objToPlaceOnStackLen
      return (.returned result, stack)
  | .allocateObjOnStack len => do
      let (object, stack) ← .done (Aspawn.allocateObjOnStack stackGrowsDown stack len)
      return (.object object, stack)
  | .cleanupStack => do
      return (.returned (← Aspawn.cleanupStack stack), stack)

def codes (stackGrowsDown : Bool) (cachedStack : UInt64) :
    List StackCall → Code (List StackResult)
  | [] => return []
  | call :: calls => do
      let result ← call.code stackGrowsDown cachedStack
      let results ← codes stackGrowsDown cachedStack calls
      return result :: results

def programs (stackGrowsDown : Bool) (stack : StackT) :
    List StackCall → Program MapCalls (List StackResult × StackT)
  | [] => return ([], stack)
  | call :: calls => do
      let (result, stack) ← call.program stackGrowsDown stack
      let (results, stack) ← programs stackGrowsDown stack calls
      return (result :: results, stack)

end StackCall

/-! ## What the kernel finds -/

def stackAt (memory : Memory UInt8) (cachedStack : UInt64) : StackT where
  addr := UInt64.ofNat (LittleEndian.decode (memory.read cachedStack 8))
  size := UInt64.ofNat (LittleEndian.decode (memory.read (cachedStack + 8) 8))

def Trap.Maps (trap : Trap) (request : MapRequest) : Prop :=
  match trap.number, request with
  | .mmap, .mmap addr len prot flags fd off =>
      trap.registers .rdi = addr ∧ trap.registers .rsi = len ∧
        Trap.arg trap .rdx = prot ∧ Trap.arg trap .r10 = flags ∧
        (Trap.arg trap .r8).toInt32.toInt = fd ∧ trap.registers .r9 = off
  | .mremap, .mremap oldAddr oldLen newLen flags newAddr =>
      trap.registers .rdi = oldAddr ∧ trap.registers .rsi = oldLen ∧
        trap.registers .rdx = newLen ∧ Trap.arg trap .r10 = flags ∧
        trap.registers .r8 = newAddr
  | .munmap, .munmap addr len => trap.registers .rdi = addr ∧ trap.registers .rsi = len
  | _, _ => False

/-- The caller's `Stack_t` is left alone meanwhile. -/
def mapCoupling (cachedStack : UInt64) : Coupling Asks MapCalls Thread Unit where
  lawful _ before _ later :=
    ∀ place, Memory.Covers cachedStack 16 place → later.memory place = before.memory place
  asks _ asked _ request :=
    match asked with
    | .trap made => Trap.Maps made request
    | _ => False
  answers asked _ answer _ _ response :=
    match asked, answer with
    | .trap _, result => response = result
    | _, _ => False
  settles _ _ _ := False
  after _ _ _ := ()

/-- The call returns with its `Stack_t` in memory. -/
def Leaves {α : Type} (cachedStack : UInt64) (_ : Unit) (thread : Thread) (value : α)
    (rest : Program MapCalls (α × StackT)) : Prop :=
  rest = .done (value, stackAt thread.memory cachedStack)

/-! ## The proofs -/

section

variable {α : Type} {cachedStack : UInt64} {memory : Memory UInt8} {thread : Thread}

theorem stackAt_addr : UInt64.ofNat (LittleEndian.decode (memory.read cachedStack 8)) =
    (stackAt memory cachedStack).addr := rfl

theorem stackAt_size : UInt64.ofNat (LittleEndian.decode (memory.read (cachedStack + 8) 8)) =
    (stackAt memory cachedStack).size := rfl

theorem read_storeWord {addr value : UInt64} :
    (memory.write addr (LittleEndian.encode 8 value.toNat)).read addr 8 =
      LittleEndian.encode 8 value.toNat := by
  have length : (LittleEndian.encode 8 value.toNat).length = 8 := LittleEndian.length_encode
  have stored : (memory.write addr (LittleEndian.encode 8 value.toNat)).read addr
      (LittleEndian.encode 8 value.toNat).length = LittleEndian.encode 8 value.toNat :=
    Memory.read_write (by rw [length]; decide)
  rwa [length] at stored

theorem ofNat_decode_encode {value : UInt64} :
    UInt64.ofNat (LittleEndian.decode (LittleEndian.encode 8 value.toNat)) = value := by
  rw [LittleEndian.decode_encode_of_lt value.toNat_lt, UInt64.ofNat_toNat]

/-- The two fields of a `Stack_t` lie apart. -/
theorem fields_apart {addr place : UInt64} (inside : Memory.Covers addr 8 place) :
    ¬ Memory.Covers (addr + 8) 8 place := fun after =>
  Memory.not_covers_of_after (show 8 + 8 ≤ 2 ^ 64 by decide) after inside

theorem stackAt_storeAddr {addr : UInt64} :
    stackAt (memory.write cachedStack (LittleEndian.encode 8 addr.toNat)) cachedStack =
      { stackAt memory cachedStack with addr } := by
  have kept : (memory.write cachedStack (LittleEndian.encode 8 addr.toNat)).read
      (cachedStack + 8) 8 = memory.read (cachedStack + 8) 8 := by
    refine Memory.read_write_apart fun place inside stored => ?_
    rw [LittleEndian.length_encode] at stored
    exact fields_apart stored inside
  rw [stackAt, read_storeWord, ofNat_decode_encode, kept, stackAt]

theorem stackAt_storeSize {size : UInt64} :
    stackAt (memory.write (cachedStack + 8) (LittleEndian.encode 8 size.toNat)) cachedStack =
      { stackAt memory cachedStack with size } := by
  have kept : (memory.write (cachedStack + 8) (LittleEndian.encode 8 size.toNat)).read
      cachedStack 8 = memory.read cachedStack 8 := by
    refine Memory.read_write_apart fun place inside stored => ?_
    rw [LittleEndian.length_encode] at stored
    exact fields_apart inside stored
  rw [stackAt, read_storeWord, ofNat_decode_encode, kept, stackAt]

theorem stackAt_kept {later : Memory UInt8}
    (kept : ∀ place, Memory.Covers cachedStack 16 place → later place = memory place) :
    stackAt later cachedStack = stackAt memory cachedStack := by
  have addr : later.read cachedStack 8 = memory.read cachedStack 8 :=
    Memory.read_congr fun place inside => kept place (inside.mono (by decide))
  have size : later.read (cachedStack + 8) 8 = memory.read (cachedStack + 8) 8 :=
    Memory.read_congr fun place inside => kept place (Memory.covers_of_part inside)
  rw [stackAt, addr, size, stackAt]

theorem leaves_done {value : α} {stack : StackT}
    (left : stackAt thread.memory cachedStack = stack) :
    (mapCoupling cachedStack).Refines (Leaves cachedStack) () (.done (value, thread))
      (.done (value, stack)) := by
  subst left
  rfl

theorem Leaves.bind {β : Type} {stage : Unit} {value : α} {rest : Program MapCalls (α × StackT)}
    {next : α × StackT → Program MapCalls β}
    (leaves : Leaves cachedStack stage thread value rest) :
    rest >>= next = next (value, stackAt thread.memory cachedStack) := by
  rw [leaves]
  rfl

theorem refines_keepStack {stackSize : UInt64} (mapping : Except Int UInt64) :
    (mapCoupling cachedStack).Refines (Leaves cachedStack) ()
      (keepStack cachedStack stackSize mapping thread)
      (match mapping with
        | .error errno => return (-errno, stackAt thread.memory cachedStack)
        | .ok stack => return (0, { addr := stack, size := stackSize })) := by
  cases mapping with
  | error errno => rfl
  | ok stack =>
      have stored : stackAt ((thread.memory.write cachedStack
          (LittleEndian.encode 8 stack.toNat)).write (cachedStack + 8)
            (LittleEndian.encode 8 stackSize.toNat)) cachedStack =
          { addr := stack, size := stackSize } := by
        rw [stackAt_storeSize, stackAt_storeAddr]
      exact leaves_done stored

theorem refines_reserveStack {reservedStackSz objToPlaceOnStackLen : UInt64} :
    (mapCoupling cachedStack).Refines (Leaves cachedStack) ()
      (reserveStack cachedStack reservedStackSz objToPlaceOnStackLen thread)
      (Aspawn.reserveStack (stackAt thread.memory cachedStack) reservedStackSz
        objToPlaceOnStackLen) := by
  unfold reserveStack Aspawn.reserveStack allocateStack Aspawn.allocateStack
  rw [loadWord_bind_apply, loadWord_bind_apply, stackAt_addr, stackAt_size]
  generalize found : stackAt thread.memory cachedStack = stack
  obtain ⟨addr, size⟩ := stack
  dsimp only
  generalize alignToPage _ = stackSize
  have keeps (later : Thread) (mapping : Except Int UInt64)
      (kept : ∀ place, Memory.Covers cachedStack 16 place →
        later.memory place = thread.memory place) :
      (mapCoupling cachedStack).Refines (Leaves cachedStack) ()
        (keepStack cachedStack stackSize mapping later)
        (match mapping with
          | .error errno => return (-errno, { addr, size })
          | .ok stack => return (0, { addr := stack, size := stackSize })) := by
    rw [← found, ← stackAt_kept kept]
    exact refines_keepStack mapping
  split
  · split
    · refine refines_call ⟨rfl, rfl, rfl, toUInt32_content, rfl⟩ fun answer later lawful =>
        ⟨answer, rfl, ?_⟩
      exact keeps later (checkMapError answer) lawful
    · exact leaves_done found
  · have fd (leftover : UInt64) :
        (Argument.content leftover (.int (-1))).toUInt32.toInt32.toInt = -1 := by
      rw [toUInt32_content]
      decide
    refine refines_call ⟨rfl, rfl, toUInt32_content, toUInt32_content, fd _, rfl⟩ ?_
    intro answer later lawful
    refine ⟨answer, rfl, ?_⟩
    exact keeps later (checkMapError answer) lawful

theorem refines_cleanupStack :
    (mapCoupling cachedStack).Refines
      (fun _ later value rest => rest = .done value ∧
        stackAt later.memory cachedStack = stackAt thread.memory cachedStack) ()
      (cleanupStack cachedStack thread)
      (Aspawn.cleanupStack (stackAt thread.memory cachedStack)) := by
  unfold cleanupStack Aspawn.cleanupStack
  rw [loadWord_bind_apply, loadWord_bind_apply, stackAt_addr, stackAt_size]
  generalize found : stackAt thread.memory cachedStack = stack
  split
  · refine refines_call ⟨rfl, rfl⟩ fun answer later lawful => ⟨answer, rfl, rfl, ?_⟩
    rw [stackAt_kept lawful, found]
  · exact ⟨rfl, found⟩

theorem storeWord_bind_apply {β : Type} {addr value : UInt64} {next : Unit → Code β} :
    (storeWord addr value >>= next) thread =
      next () (thread.store addr value) := rfl

theorem pure_apply {β : Type} {value : β} :
    (pure value : Code β) thread = .done (value, thread) := rfl

theorem memory_store {addr value : UInt64} : (thread.store addr value).memory =
    thread.memory.write addr (LittleEndian.encode 8 value.toNat) := rfl

theorem stackAt_reserved {stack len : UInt64} :
    stackAt (thread.store (stack + 8) ((stackAt thread.memory stack).size - len)).memory stack =
      { addr := (stackAt thread.memory stack).addr,
        size := (stackAt thread.memory stack).size - len } := by
  rw [memory_store, stackAt_storeSize]

theorem allocateObjOnStack_down (stack len : UInt64) :
    allocateObjOnStack true stack len thread =
      .done ((stackAt thread.memory stack).addr + ((stackAt thread.memory stack).size - len),
        thread.store (stack + 8) ((stackAt thread.memory stack).size - len)) := by
  unfold allocateObjOnStack
  rw [loadWord_bind_apply, stackAt_size, storeWord_bind_apply, if_pos rfl, loadWord_bind_apply,
    loadWord_bind_apply, stackAt_addr, stackAt_size, stackAt_reserved]
  exact pure_apply

theorem allocateObjOnStack_up (stack len : UInt64) :
    allocateObjOnStack false stack len thread =
      .done ((stackAt thread.memory stack).addr,
        (thread.store (stack + 8) ((stackAt thread.memory stack).size - len)).store stack
          ((stackAt thread.memory stack).addr + len)) := by
  unfold allocateObjOnStack
  rw [loadWord_bind_apply, stackAt_size, storeWord_bind_apply, if_neg (by decide),
    loadWord_bind_apply, stackAt_addr, storeWord_bind_apply, stackAt_reserved]
  exact pure_apply

theorem refines_allocateObjOnStack (stackGrowsDown : Bool) (len : UInt64) :
    (mapCoupling cachedStack).Refines (Leaves cachedStack) ()
      (allocateObjOnStack stackGrowsDown cachedStack len thread)
      (.done
        (Aspawn.allocateObjOnStack stackGrowsDown (stackAt thread.memory cachedStack) len)) := by
  cases stackGrowsDown with
  | true =>
      rw [allocateObjOnStack_down]
      exact leaves_done stackAt_reserved
  | false =>
      have advanced : stackAt ((thread.store (cachedStack + 8)
          ((stackAt thread.memory cachedStack).size - len)).store cachedStack
            ((stackAt thread.memory cachedStack).addr + len)).memory cachedStack =
          { addr := (stackAt thread.memory cachedStack).addr + len,
            size := (stackAt thread.memory cachedStack).size - len } := by
        rw [memory_store, stackAt_storeAddr, stackAt_reserved]
      rw [allocateObjOnStack_up]
      exact leaves_done advanced

-- from here on the rules say enough: unfolding would run the code
attribute [local irreducible] Coupling.Refines

theorem refines_then {first : Program (Asks.sharing Thread) (α × Thread)}
    {above : Program MapCalls (α × StackT)} (result : α → StackResult)
    (refines : (mapCoupling cachedStack).Refines (Leaves cachedStack) () first above) :
    (mapCoupling cachedStack).Refines (Leaves cachedStack) ()
      (first >>= fun left => .done (result left.1, left.2))
      (above >>= fun left => .done (result left.1, left.2)) := by
  refine refines_seq refines ?_
  intro _ later value rest leaves
  rw [leaves.bind]
  exact leaves_done rfl

theorem refines_stackCall (stackGrowsDown : Bool) (call : StackCall) :
    (mapCoupling cachedStack).Refines (Leaves cachedStack) ()
      (call.code stackGrowsDown cachedStack thread)
      (call.program stackGrowsDown (stackAt thread.memory cachedStack)) := by
  cases call with
  | initCachedStack =>
      have cleared : stackAt ((thread.store cachedStack 0).store (cachedStack + 8) 0).memory
          cachedStack = { addr := 0, size := 0 } := by
        rw [memory_store, stackAt_storeSize, memory_store, stackAt_storeAddr]
      exact leaves_done cleared
  | reserveStack reservedStackSz objToPlaceOnStackLen =>
      exact refines_then .returned refines_reserveStack
  | allocateObjOnStack len =>
      exact refines_then .object (refines_allocateObjOnStack stackGrowsDown len)
  | cleanupStack =>
      refine refines_seq refines_cleanupStack ?_
      rintro _ later result _ ⟨rfl, kept⟩
      exact leaves_done kept

theorem refines_stackCalls (stackGrowsDown : Bool) (calls : List StackCall) :
    (mapCoupling cachedStack).Refines (Leaves cachedStack) ()
      (StackCall.codes stackGrowsDown cachedStack calls thread)
      (StackCall.programs stackGrowsDown (stackAt thread.memory cachedStack) calls) := by
  induction calls generalizing thread with
  | nil => exact leaves_done rfl
  | cons call calls ih =>
      refine refines_seq (refines_stackCall stackGrowsDown call) ?_
      intro _ later result rest leaves
      rw [leaves.bind]
      refine refines_seq ih ?_
      intro _ last results rest leaves
      rw [leaves.bind]
      exact leaves_done rfl

end

/-- Any calls on one `Stack_t` in memory, in any order, are the same calls on a `Stack_t` that is
a value: the kernel finds the same requests in the registers, the results are the same, and so is
the `Stack_t` that is left. -/
theorem stacks_refine (stackGrowsDown : Bool) (cachedStack : UInt64) (calls : List StackCall)
    (thread final : Thread) (exchanges : List (Asks.sharing Thread).Exchange)
    (results : List StackResult)
    (lawful : ∀ exchange ∈ exchanges, (mapCoupling cachedStack).lawful exchange.1.1 exchange.1.2
      exchange.2.1 exchange.2.2)
    (made : (StackCall.codes stackGrowsDown cachedStack calls thread).Follows exchanges
      (.done (results, final))) :
    ∃ above, (StackCall.programs stackGrowsDown (stackAt thread.memory cachedStack) calls).Follows
        above (.done (results, stackAt final.memory cachedStack)) ∧
      (mapCoupling cachedStack).Matched () exchanges above () := by
  obtain ⟨above, rest, last, follows, matched, leaves⟩ :=
    (refines_stackCalls stackGrowsDown calls).follows made lawful
  rw [leaves] at follows
  exact ⟨above, follows, matched⟩

/-- A kernel that maps at one address and moves to another. -/
def roomy : (request : (Asks.sharing Thread).Request) → (Asks.sharing Thread).Response request
  | (.setcancelstate _, thread) => (.enable, thread)
  | (.loadStack _, thread) => ({ addr := 0, size := 0 }, thread)
  | (.loadFlag, thread) => (false, thread)
  | (.storeFlag _, thread) | (.storePid _, thread) => ((), thread)
  | (.trap made, thread) =>
      match made.number with
      | .mmap => (0x7f0000000000, thread)
      | .mremap => (0x7f0000100000, thread)
      | _ => (0, thread)
  | (.clone _ _ _, thread) | (.clone3 _ _ _, thread) => (0, thread)

theorem lawful_roomy {cachedStack : UInt64} (request : (Asks.sharing Thread).Request) :
    (mapCoupling cachedStack).lawful request.1 request.2 (roomy request).1 (roomy request).2 := by
  obtain ⟨asked, thread⟩ := request
  cases asked with
  | trap made =>
      intro place _
      cases number : made.number <;> rw [roomy, number]
  | _ => exact fun _ _ => rfl

def growing : List StackCall :=
  [.initCachedStack, .reserveStack 4096 0, .allocateObjOnStack 16, .reserveStack 8192 0,
    .cleanupStack]

theorem stacks_refine_growing : ∃ above, (StackCall.programs true { addr := 0, size := 0 }
      growing).Follows above
        (.done ([.void, .returned 0, .object 0x7f0000009ff0, .returned 0, .returned 0],
          { addr := 0x7f0000100000, size := 0xb000 })) ∧
    (mapCoupling 4096).Matched ()
      ((StackCall.codes true 4096 growing { memory := fun _ => 0, registers := fun _ => 0 }).serve
        roomy).1 above () := by
  let thread : Thread := { memory := fun _ => 0, registers := fun _ => 0 }
  let code := StackCall.codes true 4096 growing thread
  have results : (code.serve roomy).2.1 =
      [.void, .returned 0, .object 0x7f0000009ff0, .returned 0, .returned 0] := by
    decide +kernel
  have made : code.Follows (code.serve roomy).1 (.done (_, (code.serve roomy).2.2)) :=
    Program.follows_serve_of_fst results
  have zero : stackAt thread.memory 4096 = { addr := 0, size := 0 } := by
    decide +kernel
  have left : stackAt (code.serve roomy).2.2.memory 4096 =
      { addr := 0x7f0000100000, size := 0xb000 } := by
    decide +kernel
  rw [← zero, ← left]
  refine stacks_refine true 4096 growing thread _ _ _ ?_ made
  intro exchange member
  rw [Program.eq_respond_of_mem_serve member]
  exact lawful_roomy exchange.1

end InMemory

end Aspawn
