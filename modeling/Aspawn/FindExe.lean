import Aspawn.Errno
import Aspawn.Lib.Buffer
import Mathlib.Algebra.Group.Nat.Defs

/-! `find_exe` and `handle_execve_err` of `syscall/syscall.c` over the copying routines
of `syscall/memory.c`. Objects in memory are lists of bytes with checked accesses;
`size_t` values are 64-bit words. -/

set_option autoImplicit false

namespace Aspawn

/-- A NUL-terminated string whose indices fit in `size_t`. -/
structure CString where
  bytes : List UInt8
  noNul : 0 ∉ bytes
  bounded : bytes.length + 1 < 2 ^ 64

/-- The object that holds the string. -/
def CString.memory (string : CString) : List UInt8 := string.bytes ++ [0]

/-! ## `syscall/memory.c` -/

/-- The loop of `pmemcpy` from index `i` on, with `left` passes to go. -/
def pmemcpyFrom (destp : Nat) (src : List UInt8) :
    Nat → Nat → List UInt8 → Option (List UInt8)
  | 0, _, dest => some dest
  | left + 1, i, dest => do
      let byte ← Buffer.load src i
      let dest ← Buffer.store dest (destp + i) byte
      pmemcpyFrom destp src left (i + 1) dest

/-- `destp` is the offset in the object `dest` at which the copy starts. -/
def pmemcpy (dest : List UInt8) (destp : Nat) (src : List UInt8) (n : UInt64) :
    Option (List UInt8) :=
  pmemcpyFrom destp src n.toNat 0 dest

def pstrcpy (dest : List UInt8) (destp : Nat) (src : List UInt8) (n : UInt64) :
    Option (List UInt8) := do
  let dest ← pmemcpy dest destp src n
  Buffer.store dest (destp + n.toNat) 0

/-! ## `find_exe` -/

def colon : UInt8 := 58
def slash : UInt8 := 47

structure FindExeState where
  /-- Offset of `*PATH` in the object it points into. -/
  path : Nat
  constructedPath : List UInt8
  deriving DecidableEq, Repr

/-- `for (; (*PATH)[0] == ':'; ++(*PATH));` -/
def skipColons (PATH : List UInt8) : Nat → Nat → Option Nat
  | 0, _ => none
  | fuel + 1, path => do
      let byte ← Buffer.load PATH path
      if byte = colon then skipColons PATH fuel (path + 1) else some path

/-- The loop that copies up to the next colon; the error alternative is its `return -1`. -/
def copyComponent (PATH : List UInt8) (path : Nat) (pathMaxLen : UInt64) :
    Nat → UInt64 → List UInt8 → Option (Except (List UInt8) (UInt64 × List UInt8))
  | 0, _, _ => none
  | fuel + 1, i, constructedPath => do
      let byte ← Buffer.load PATH (path + i.toNat)
      if byte ≠ 0 ∧ byte ≠ colon then
        if i + 1 > pathMaxLen then
          some (.error constructedPath)
        else
          let constructedPath ← Buffer.store constructedPath i.toNat byte
          copyComponent PATH path pathMaxLen fuel (i + 1) constructedPath
      else
        some (.ok (i, constructedPath))

/-- `if (constructed_path[i - 1] != '/') constructed_path[i++] = '/';` -/
def addSlash (i : UInt64) (constructedPath : List UInt8) :
    Option (UInt64 × List UInt8) := do
  let last ← Buffer.load constructedPath (i - 1).toNat
  if last ≠ slash then
    let constructedPath ← Buffer.store constructedPath i.toNat slash
    some (i + 1, constructedPath)
  else
    some (i, constructedPath)

/-- The rest of `find_exe` after the copying loop. -/
def appendFile (file : List UInt8) (fileLen : UInt64) (PATH : List UInt8)
    (pathMaxLen : UInt64) (path : Nat) (pathPrefixLen : UInt64)
    (constructedPath : List UInt8) : Option (Int × FindExeState) := do
  let (i, constructedPath) ← addSlash pathPrefixLen constructedPath
  if i + fileLen > pathMaxLen ∨ i = 0 ∨ i + fileLen < i then
    some (-1, { path, constructedPath })
  else
    let constructedPath ← pstrcpy constructedPath i.toNat file fileLen
    let next ← Buffer.load PATH (path + pathPrefixLen.toNat)
    let step := pathPrefixLen.toNat + if next = colon then 1 else 0
    some (1, { path := path + step, constructedPath })

/-- Every pass of the two loops reads another byte of `PATH`, so more passes than
it has bytes are never made. -/
def findExe (file : List UInt8) (fileLen : UInt64) (PATH : List UInt8) (pathMaxLen : UInt64)
    (state : FindExeState) : Option (Int × FindExeState) := do
  let path ← skipColons PATH (PATH.length + 1) state.path
  let head ← Buffer.load PATH path
  if head = 0 then
    some (0, { state with path })
  else
    match ← copyComponent PATH path pathMaxLen (PATH.length + 1) 0 state.constructedPath with
    | .error constructedPath => some (-1, { path, constructedPath })
    | .ok (pathPrefixLen, constructedPath) =>
        appendFile file fileLen PATH pathMaxLen path pathPrefixLen constructedPath

/-! ## `handle_execve_err` -/

/-- Returns its result together with the updated `*got_eaccess`. -/
def handleExecveErr (result gotEaccess : Int) : Int × Int :=
  if -result = EACCES then
    (0, 1)
  else if -result = ENOENT ∨ -result = ESTALE ∨ -result = ENOTDIR ∨
      -result = ENODEV ∨ -result = ETIMEDOUT then
    (0, gotEaccess)
  else
    (result, gotEaccess)

end Aspawn
