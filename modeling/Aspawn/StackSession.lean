import Aspawn.CachedStack
import Aspawn.Lib.Pages
import Aspawn.Lib.Transition

/-! A caller's work on one `Stack_t`: `reserve_stack`, `allocate_obj_on_stack` and
`aspawn` in any order, over the pages of the calling process. The kernel's
memory calls are modelled on page owners; the rest of the process maps and
unmaps other pages in between. -/

set_option autoImplicit false

namespace Aspawn

/-- Whom a page of the calling process belongs to. -/
inductive PageOwner where
  | free
  | stack
  | other
  deriving DecidableEq, Repr

abbrev PageTable := Nat → PageOwner

/-- The pages from `addr` to `addr + len`, rounded as the kernel rounds lengths. -/
def pagesOf (addr len : Nat) : Finset Nat := Pages.covering 4096 addr len

/-- A range that a successful mapping call may return: page-aligned, not NULL and
inside the user part of the address space. -/
def Mappable (raw len : UInt64) : Prop :=
  raw ≠ 0 ∧ raw.toNat % 4096 = 0 ∧ len ≠ 0 ∧ raw.toNat + roundUp len.toNat 4096 < 2 ^ 64

instance (raw len : UInt64) : Decidable (Mappable raw len) :=
  inferInstanceAs (Decidable (_ ∧ _ ∧ _ ∧ _))

/-- The kernel's answer `raw` to a memory call for the owner `mine`, or `none` where the kernel
could not answer so. Failed calls change nothing. -/
def mapKernel {Owner : Type} [DecidableEq Owner] (free mine : Owner) (raw : UInt64)
    (owner : Nat → Owner) : MapRequest → Option (UInt64 × (Nat → Owner))
  | request =>
    if -4096 < raw then some (raw, owner)
    else match request with
    | .mmap _ len _ _ _ _ =>
        let new := pagesOf raw.toNat len.toNat
        if Mappable raw len ∧ ∀ page ∈ new, owner page = free then
          some (raw, Pages.assign owner new mine)
        else none
    | .mremap oldAddr oldLen newLen _ _ =>
        -- extends in place over free pages, or moves to pages that were all free
        let old := pagesOf oldAddr.toNat oldLen.toNat
        let new := pagesOf raw.toNat newLen.toNat
        if Mappable raw newLen ∧ oldAddr.toNat % 4096 = 0 ∧
            ∀ page ∈ new, owner page = free ∨ (raw = oldAddr ∧ page ∈ old) then
          some (raw, Pages.assign (Pages.assign owner old free) new mine)
        else none
    | .munmap addr len =>
        if raw = 0 ∧ addr.toNat % 4096 = 0 ∧ len ≠ 0 then
          some (raw, Pages.assign owner (pagesOf addr.toNat len.toNat) free)
        else none

def pageKernel : UInt64 → PageTable → MapRequest → Option (UInt64 × PageTable) :=
  mapKernel .free .stack

/-- A `Stack_t` and what its user knows of it. -/
structure Account where
  stack : StackT
  /-- Arguments of the last `reserve_stack` that returned 0. -/
  reservedStackSz : UInt64
  objToPlaceOnStackLen : UInt64
  /-- Address and length of every object placed since then, latest first. -/
  objects : List (Nat × Nat)
  /-- Total length of these objects. -/
  placed : Nat
  /-- Total length of all objects placed since the stack was last mapped or remapped. -/
  carved : Nat

structure Session extends Account where
  owner : PageTable

namespace Account

/-- After `init_cached_stack`. -/
def start : Account where
  stack := initCachedStack
  reservedStackSz := 0
  objToPlaceOnStackLen := 0
  objects := []
  placed := 0
  carved := 0

def session (account : Account) (owner : PageTable) : Session := { account with owner }

/-- Book-keeping after `reserve_stack` returned `result`. -/
def reserved (account : Account) (reservedStackSz objToPlaceOnStackLen : UInt64)
    (result : Int) (stack : StackT) : Account :=
  if result = 0 then
    { stack, reservedStackSz, objToPlaceOnStackLen, objects := [], placed := 0
      carved := if stack = account.stack then account.carved else 0 }
  else { account with stack }

def place (stackGrowsDown : Bool) (account : Account) (len : UInt64) : Account :=
  let object := allocateObjOnStack stackGrowsDown account.stack len
  { account with
    stack := object.2
    objects := (object.1.toNat, len.toNat) :: account.objects
    placed := account.placed + len.toNat
    carved := account.carved + len.toNat }

end Account

inductive SessionOp where
  | reserveStack (reservedStackSz objToPlaceOnStackLen raw : UInt64)
  | allocateObjOnStack (len : UInt64)
  | aspawn
  | otherMap (addr len : Nat)
  | otherUnmap (addr len : Nat)

namespace Session

def start (owner : PageTable) : Session := Account.start.session owner

def step (stackGrowsDown : Bool) (session : Session) : SessionOp → Option Session
  | .reserveStack reservedStackSz objToPlaceOnStackLen raw =>
      match Program.execute (pageKernel raw)
          (reserveStack session.stack reservedStackSz objToPlaceOnStackLen) session.owner with
      | none => none
      | some ((result, stack), owner) =>
          some ((session.reserved reservedStackSz objToPlaceOnStackLen result stack).session owner)
  | .allocateObjOnStack len => some ((session.place stackGrowsDown len).session session.owner)
  -- `aspawn_impl` works on a copy of the `Stack_t`
  | .aspawn => some session
  | .otherMap addr len =>
      if ∀ page ∈ pagesOf addr len, session.owner page = .free then
        some { session with owner := Pages.assign session.owner (pagesOf addr len) .other }
      else none
  | .otherUnmap addr len =>
      if ∀ page ∈ pagesOf addr len, session.owner page = .other then
        some { session with owner := Pages.assign session.owner (pagesOf addr len) .free }
      else none

/-- `cleanup_stack` on the session's `Stack_t`. -/
def cleanup (session : Session) (raw : UInt64) : Option (Int × Session) :=
  match Program.execute (pageKernel raw) (cleanupStack session.stack) session.owner with
  | none => none
  | some (result, owner) => some (result, { session with owner })

end Session

end Aspawn
