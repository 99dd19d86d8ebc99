import Aspawn.Errno
import Aspawn.Lib.Program

/-! The cached stack: `cached_stack/cached_stack.c`, the memory-mapping calls of
`syscall/syscall.c` it uses, and the stack entry points of `aspawn.c`. `size_t`,
pointers and raw system-call results are 64-bit words, so every sum wraps. -/

set_option autoImplicit false

namespace Aspawn

/-! ## Memory-mapping system calls -/

inductive MapRequest where
  | mmap (addr len : UInt64) (prot flags : UInt32) (fd : Int) (off : UInt64)
  | mremap (oldAddr oldLen newLen : UInt64) (flags : UInt32) (newAddr : UInt64)
  | munmap (addr len : UInt64)
  deriving DecidableEq, Repr

/-- Every request is answered by the raw content of the result register. -/
abbrev MapCalls : Signature where
  Request := MapRequest
  Response _ := UInt64

/-- `INTERNAL_SYSCALL` on one of the requests. -/
def mapCall (request : MapRequest) : Program MapCalls UInt64 := .call request .done

@[simp] theorem mapCall_bind {α : Type} (request : MapRequest)
    (next : UInt64 → Program MapCalls α) :
    (mapCall request >>= next) = .call request next := rfl

def psysGetPagesz : UInt64 := 4096

/-- `check_map_error`: the comparison with `-4096UL` is unsigned, and `*errno_v`
receives `-result`, here the error alternative. -/
def checkMapError (result : UInt64) : Except Int UInt64 :=
  if result > -4096 then .error (-result).toNat else .ok result

def psysMmap (addr len : UInt64) (prot flags : UInt32) (fd : Int) (off : UInt64) :
    Program MapCalls (Except Int UInt64) := do
  if off &&& (psysGetPagesz - 1) ≠ 0 then
    return .error EINVAL
  else
    let result ← mapCall (.mmap addr len prot flags fd off)
    return checkMapError result

def psysMremap (oldAddr oldLen newLen : UInt64) (flags : UInt32) (newAddr : UInt64) :
    Program MapCalls (Except Int UInt64) := do
  let result ← mapCall (.mremap oldAddr oldLen newLen flags newAddr)
  return checkMapError result

/-- The `long` result is returned as an `int`. -/
def psysMunmap (addr len : UInt64) : Program MapCalls Int := do
  let result ← mapCall (.munmap addr len)
  return result.toUInt32.toInt32.toInt

def PROT_READ : UInt32 := 1
def PROT_WRITE : UInt32 := 2
def MAP_PRIVATE : UInt32 := 0x02
def MAP_ANONYMOUS : UInt32 := 0x20
def MAP_STACK : UInt32 := 0x20000
def MREMAP_MAYMOVE : UInt32 := 1

/-! ## `struct Stack_t` -/

structure StackT where
  addr : UInt64
  size : UInt64
  deriving DecidableEq, Repr

/-- `init_cached_stack`, whose body is `init_cached_stack_internal`. -/
def initCachedStack : StackT where
  addr := 0
  size := 0

/-- `cleanup_stack`, whose body is `cleanup_cached_stack_internal`. -/
def cleanupStack (cachedStack : StackT) : Program MapCalls Int :=
  if cachedStack.addr ≠ 0 ∧ cachedStack.size ≠ 0 then
    psysMunmap cachedStack.addr cachedStack.size
  else
    return 0

def align (sz alignment : UInt64) : UInt64 :=
  let remnant := sz % alignment
  sz + if remnant ≠ 0 then alignment - remnant else 0

def alignToPage (sz : UInt64) : UInt64 := align sz psysGetPagesz

def alignStackSz (sz : UInt64) : UInt64 := alignToPage sz

/-- `allocate_stack` returns its result together with the updated `*cached_stack`. -/
def allocateStack (cachedStack : StackT) (size objToPlaceOnStackLen : UInt64) :
    Program MapCalls (Int × StackT) := do
  let prot := PROT_READ ||| PROT_WRITE
  let flags := MAP_PRIVATE ||| MAP_ANONYMOUS ||| MAP_STACK
  let stackSize := alignToPage (alignStackSz size + objToPlaceOnStackLen)
  if cachedStack.addr ≠ 0 then
    if cachedStack.size < stackSize then
      match ← psysMremap cachedStack.addr cachedStack.size stackSize MREMAP_MAYMOVE 0 with
      | .error errno => return (-errno, cachedStack)
      | .ok stack => return (0, { addr := stack, size := stackSize })
    else
      return (0, cachedStack)
  else
    match ← psysMmap 0 stackSize prot flags (-1) 0 with
    | .error errno => return (-errno, cachedStack)
    | .ok stack => return (0, { addr := stack, size := stackSize })

/-- `allocate_obj_on_stack` returns the object's address and the updated `*stack`;
`stackGrowsDown` is the compile-time constant `STACK_GROWS_DOWN`. -/
def allocateObjOnStack (stackGrowsDown : Bool) (stack : StackT) (len : UInt64) :
    UInt64 × StackT :=
  let size := stack.size - len
  if stackGrowsDown then
    (stack.addr + size, { stack with size })
  else
    (stack.addr, { addr := stack.addr + len, size })

/-! ## `aspawn.c` -/

/-- `sizeof(struct aspawn_child_args)` on x86-64: `int pipefd[2]`, two pointers and
the 128 bytes of `sigset_t`. -/
def sizeofAspawnChildArgs : UInt64 := 2 * 4 + 8 + 8 + 128

/-- Where `aspawn_impl` places the arguments on its copy of the `Stack_t`, and the stack that it
passes to `clone` and `clone3`. -/
def placeChildArgs (stackGrowsDown : Bool) (stack : StackT) : UInt64 × StackT :=
  allocateObjOnStack stackGrowsDown stack sizeofAspawnChildArgs

def reserveStack (cachedStack : StackT) (reservedStackSz objToPlaceOnStackLen : UInt64) :
    Program MapCalls (Int × StackT) :=
  let reservedStackSz := reservedStackSz + 32 * 1024
  let objToPlaceOnStackLen := objToPlaceOnStackLen + sizeofAspawnChildArgs
  allocateStack cachedStack reservedStackSz objToPlaceOnStackLen

end Aspawn
