import Aspawn.AddressSpace
import Aspawn.StackLeakProperties
import Aspawn.StackLayoutProperties

/-! Every `Stack_t` of an address space has a session of its own: what is done with the
others is to it the mapping and unmapping of foreign pages. -/

set_option autoImplicit false

namespace Aspawn

open Transition

/-! ## Views of owners -/

namespace SharedOwner

variable {block other : Nat} {owner : SharedOwner}

@[simp] theorem view_free_iff : owner.view block = .free ↔ owner = .free := by
  cases owner with
  | free => simp [view]
  | stack number =>
      simp only [view]
      split <;> simp
  | other => simp [view]

@[simp] theorem view_stack_iff : owner.view block = .stack ↔ owner = .stack block := by
  cases owner with
  | free => simp [view]
  | stack number =>
      simp only [view]
      split <;> simp_all
  | other => simp [view]

theorem view_stack_of_ne (distinct : other ≠ block) :
    (SharedOwner.stack block).view other = .other :=
  if_neg distinct.symm

end SharedOwner

/-- The pages as one `Stack_t` sees them. -/
def SharedTable.view (table : SharedTable) (block : Nat) : PageTable :=
  fun page => (table page).view block

namespace SharedTable

variable {table : SharedTable} {block other : Nat} {range : Finset Nat}

theorem view_assign {owner : SharedOwner} :
    SharedTable.view (Pages.assign table range owner) block =
      Pages.assign (table.view block) range (owner.view block) :=
  Pages.rename_assign (SharedOwner.view block)

/-- To its own `Stack_t` the kernel of the address space is the kernel of a session. -/
theorem spaceKernel_view (raw : UInt64) (table : SharedTable) (request : MapRequest) :
    (spaceKernel block raw table request).map
        (fun answer => (answer.1, SharedTable.view answer.2 block)) =
      pageKernel raw (table.view block) request := by
  have own : (SharedOwner.stack block).view block = .stack := if_pos rfl
  have free (page : Nat) : table.view block page = .free ↔ table page = .free :=
    SharedOwner.view_free_iff
  unfold spaceKernel pageKernel mapKernel
  by_cases failure : -4096 < raw
  · rw [if_pos failure, if_pos failure]
    rfl
  · rw [if_neg failure, if_neg failure]
    cases request with
    | mmap addr len prot flags fd off =>
        simp only [free]
        split
        · rw [Option.map_some, view_assign, own]
        · rfl
    | mremap oldAddr oldLen newLen flags newAddr =>
        simp only [free]
        split
        · rw [Option.map_some, view_assign, view_assign, own]
          rfl
        · rfl
    | munmap addr len =>
        simp only
        split
        · rw [Option.map_some, view_assign]
          rfl
        · rfl

/-- What a memory call for one of the `Stack_t`s does to the pages. -/
inductive Change (table : SharedTable) (block : Nat) : MapRequest → SharedTable → Prop where
  | failed {request} : Change table block request table
  | mapped {addr len prot flags fd off} {raw : UInt64} :
      (∀ page ∈ pagesOf raw.toNat len.toNat, table page = .free) →
      Change table block (.mmap addr len prot flags fd off)
        (Pages.assign table (pagesOf raw.toNat len.toNat) (.stack block))
  | remapped {oldAddr oldLen newLen flags newAddr} {raw : UInt64} :
      oldAddr.toNat % 4096 = 0 →
      (∀ page ∈ pagesOf raw.toNat newLen.toNat,
        table page = .free ∨ page ∈ pagesOf oldAddr.toNat oldLen.toNat) →
      Change table block (.mremap oldAddr oldLen newLen flags newAddr)
        (Pages.assign (Pages.assign table (pagesOf oldAddr.toNat oldLen.toNat) .free)
          (pagesOf raw.toNat newLen.toNat) (.stack block))
  | unmapped {addr len} :
      addr.toNat % 4096 = 0 →
      Change table block (.munmap addr len)
        (Pages.assign table (pagesOf addr.toNat len.toNat) .free)

theorem change_of_spaceKernel {raw answer : UInt64} {request : MapRequest} {after : SharedTable}
    (answered : spaceKernel block raw table request = some (answer, after)) :
    table.Change block request after ∧ answer = raw := by
  unfold spaceKernel mapKernel at answered
  split at answered
  · cases answered
    exact ⟨.failed, rfl⟩
  · cases request with
    | mmap addr len prot flags fd off =>
        simp only at answered
        split at answered <;> cases answered
        rename_i granted
        exact ⟨.mapped granted.2, rfl⟩
    | mremap oldAddr oldLen newLen flags newAddr =>
        simp only at answered
        split at answered <;> cases answered
        rename_i granted
        exact ⟨.remapped granted.2.1 fun page member => (granted.2.2 page member).imp id And.right,
          rfl⟩
    | munmap addr len =>
        simp only at answered
        split at answered <;> cases answered
        rename_i granted
        exact ⟨.unmapped granted.2.1, rfl⟩

end SharedTable

namespace Account

variable {account : Account} {stackGrowsDown : Bool} {owner : PageTable}

/-- Foreign pages are mapped. -/
theorem session_otherMap {addr len : Nat} (free : ∀ page ∈ pagesOf addr len, owner page = .free) :
    Reaches (Session.step stackGrowsDown) Session.Allowed (account.session owner)
      (account.session (Pages.assign owner (pagesOf addr len) .other)) :=
  .tail .refl (show Session.Allowed _ (.otherMap addr len) from trivial) (if_pos free)

/-- Foreign pages are unmapped. -/
theorem session_otherUnmap {addr len : Nat}
    (foreign : ∀ page ∈ pagesOf addr len, owner page = .other) :
    Reaches (Session.step stackGrowsDown) Session.Allowed (account.session owner)
      (account.session (Pages.assign owner (pagesOf addr len) .free)) :=
  .tail .refl (show Session.Allowed _ (.otherUnmap addr len) from trivial) (if_pos foreign)

end Account

/-- The range that a memory call gives back. -/
def MapRequest.releases : MapRequest → Option (UInt64 × UInt64)
  | .mmap _ _ _ _ _ _ => none
  | .mremap oldAddr oldLen _ _ _ => some (oldAddr, oldLen)
  | .munmap addr len => some (addr, len)

/-- A memory call that gives back pages of its own `Stack_t` only is foreign mapping and
unmapping to every other one. -/
theorem SharedTable.Change.others {table after : SharedTable} {block other : Nat}
    {request : MapRequest} {account : Account} {stackGrowsDown : Bool}
    (change : table.Change block request after) (distinct : other ≠ block)
    (own : ∀ addr len, request.releases = some (addr, len) → addr.toNat % 4096 = 0 →
      ∀ page ∈ pagesOf addr.toNat len.toNat, table page = .stack block) :
    Reaches (Session.step stackGrowsDown) Session.Allowed (account.session (table.view other))
      (account.session (SharedTable.view after other)) := by
  have foreign : (SharedOwner.stack block).view other = .other :=
    SharedOwner.view_stack_of_ne distinct
  have seen (addr len : UInt64) (released : request.releases = some (addr, len))
      (aligned : addr.toNat % 4096 = 0) (page : Nat)
      (member : page ∈ pagesOf addr.toNat len.toNat) : table.view other page = .other := by
    rw [SharedTable.view, own addr len released aligned page member, foreign]
  cases change with
  | failed => exact .refl
  | mapped free =>
      rw [view_assign, foreign]
      exact Account.session_otherMap fun page member =>
        SharedOwner.view_free_iff.mpr (free page member)
  | @remapped oldAddr oldLen newLen _ _ raw aligned room =>
      rw [view_assign, view_assign, foreign]
      refine (Account.session_otherUnmap (seen _ _ rfl aligned)).trans
        (Account.session_otherMap fun page member => ?_)
      by_cases old : page ∈ pagesOf oldAddr.toNat oldLen.toNat
      · exact Pages.assign_of_mem old
      · rw [Pages.assign_of_not_mem old]
        exact SharedOwner.view_free_iff.mpr ((room page member).resolve_right old)
  | unmapped aligned =>
      rw [view_assign]
      exact Account.session_otherUnmap (seen _ _ rfl aligned)

namespace AddressSpace

variable {space next : AddressSpace} {stackGrowsDown : Bool} {block other : Nat}
  {reservedStackSz objToPlaceOnStackLen raw len : UInt64}

/-- No size sum of a reservation wraps, and no more is placed than was reserved. -/
def Allowed (space : AddressSpace) : SpaceOp → Prop
  | .reserveStack block reservedStackSz objToPlaceOnStackLen raw =>
      (space.view block).Allowed (.reserveStack reservedStackSz objToPlaceOnStackLen raw)
  | .allocateObjOnStack block len => (space.view block).Allowed (.allocateObjOnStack len)
  | _ => True

@[simp] theorem view_setAccount {account : Account} {table : SharedTable} :
    (space.setAccount block account table).view block =
      account.session (table.view block) := by
  simp only [view, setAccount, Function.update_self]
  rfl

theorem view_setAccount_of_ne {account : Account} {table : SharedTable}
    (distinct : other ≠ block) :
    (space.setAccount block account table).view other =
      (space.accounts other).session (table.view other) := by
  simp only [view, setAccount, Function.update_of_ne distinct]
  rfl

theorem view_assign {range : Finset Nat} {owner : SharedOwner} :
    ({ space with table := Pages.assign space.table range owner } : AddressSpace).view block =
      (space.accounts block).session
        (Pages.assign (SharedTable.view space.table block) range (owner.view block)) := by
  rw [← SharedTable.view_assign]
  rfl

theorem view_forget (table : SharedTable) (distinct : other ≠ block) :
    SharedTable.view (forget block table) other = table.view other := by
  funext page
  unfold SharedTable.view forget
  split
  · rename_i own
    rw [own, SharedOwner.view_stack_of_ne distinct]
    rfl
  · rfl

theorem forget_ne_stack (table : SharedTable) (page : Nat) :
    forget block table page ≠ .stack block := by
  unfold forget
  split
  · exact SharedOwner.noConfusion
  · assumption

/-! ## What a step does -/

/-- What an operation does to the pages, with the accounts it leaves. -/
inductive Stepped (stackGrowsDown : Bool) (space : AddressSpace) :
    SpaceOp → AddressSpace → Prop where
  | reserveStack {block : Nat} {reservedStackSz objToPlaceOnStackLen raw : UInt64}
      {account table} :
      table = space.table ∨ space.table.Change block (mapRequest (space.accounts block).stack
        (requestedSize reservedStackSz objToPlaceOnStackLen)) table →
      (space.view block).step stackGrowsDown
        (.reserveStack reservedStackSz objToPlaceOnStackLen raw) =
          some (account.session (SharedTable.view table block)) →
      Stepped stackGrowsDown space
        (.reserveStack block reservedStackSz objToPlaceOnStackLen raw)
        (space.setAccount block account table)
  | allocateObjOnStack {block : Nat} {len : UInt64} :
      Stepped stackGrowsDown space (.allocateObjOnStack block len)
        (space.setAccount block ((space.accounts block).place stackGrowsDown len) space.table)
  | cleanedUp {block : Nat} {raw : UInt64} {table} :
      table = space.table ∨ space.table.Change block
        (.munmap (space.accounts block).stack.addr (space.accounts block).stack.size) table →
      Stepped stackGrowsDown space (.cleanupStack block raw)
        (space.setAccount block .start (forget block table))
  | kept {block : Nat} {raw : UInt64} :
      Stepped stackGrowsDown space (.cleanupStack block raw) space
  | otherMap {addr len : Nat} :
      (∀ page ∈ pagesOf addr len, space.table page = .free) →
      Stepped stackGrowsDown space (.otherMap addr len)
        { space with table := Pages.assign space.table (pagesOf addr len) .other }
  | otherUnmap {addr len : Nat} :
      (∀ page ∈ pagesOf addr len, space.table page = .other) →
      Stepped stackGrowsDown space (.otherUnmap addr len)
        { space with table := Pages.assign space.table (pagesOf addr len) .free }

/-- The session of the `Stack_t` makes the same `reserve_stack`. -/
theorem view_reserveStack {result : Int} {stack : StackT} {table : SharedTable}
    (executed : Program.execute (spaceKernel block raw)
      (reserveStack (space.accounts block).stack reservedStackSz objToPlaceOnStackLen)
        space.table = some ((result, stack), table)) :
    (space.view block).step stackGrowsDown
        (.reserveStack reservedStackSz objToPlaceOnStackLen raw) =
      some (((space.accounts block).reserved reservedStackSz objToPlaceOnStackLen result
        stack).session (SharedTable.view table block)) := by
  have viewed := Program.execute_view (fun table => SharedTable.view table block)
    (SharedTable.spaceKernel_view raw)
    (reserveStack (space.accounts block).stack reservedStackSz objToPlaceOnStackLen) space.table
  rw [executed] at viewed
  have own : Program.execute (pageKernel raw)
      (reserveStack (space.view block).stack reservedStackSz objToPlaceOnStackLen)
        (space.view block).owner = some ((result, stack), SharedTable.view table block) :=
    viewed.symm
  simp only [Session.step, own]
  rfl

/-- A `cleanup_stack` that reports an error has unmapped nothing. -/
theorem execute_cleanupStack {stack : StackT} {table after : SharedTable} {result : Int}
    (executed : Program.execute (spaceKernel block raw) (cleanupStack stack) table =
      some (result, after)) :
    after = table ∨
      result = 0 ∧ table.Change block (.munmap stack.addr stack.size) after := by
  unfold cleanupStack at executed
  split at executed
  · simp only [psysMunmap, mapCall_bind, Program.execute] at executed
    split at executed
    · cases executed
    · rename_i answered
      have change := (SharedTable.change_of_spaceKernel answered).1
      cases executed
      unfold spaceKernel mapKernel at answered
      split at answered
      · cases answered
        exact .inl rfl
      · simp only at answered
        split at answered <;> cases answered
        rename_i granted
        rw [granted.1]
        exact .inr ⟨rfl, change⟩
  · cases executed
    exact .inl rfl

theorem execute_reserveStack {result : Int × StackT} {stack : StackT} {table after : SharedTable}
    (executed : Program.execute (spaceKernel block raw)
      (reserveStack stack reservedStackSz objToPlaceOnStackLen) table = some (result, after)) :
    after = table ∨ table.Change block
      (mapRequest stack (requestedSize reservedStackSz objToPlaceOnStackLen)) after := by
  rw [reserveStack_eq] at executed
  split at executed
  · cases executed
    exact .inl rfl
  · simp only [Program.execute] at executed
    split at executed
    · cases executed
    · rename_i answered
      cases executed
      exact .inr (SharedTable.change_of_spaceKernel answered).1

theorem stepped_of_step {op : SpaceOp} (stepped : space.step stackGrowsDown op = some next) :
    space.Stepped stackGrowsDown op next := by
  cases op with
  | reserveStack block reservedStackSz objToPlaceOnStackLen raw =>
      simp only [step] at stepped
      split at stepped
      · cases stepped
      · rename_i executed
        cases stepped
        exact .reserveStack (execute_reserveStack executed) (view_reserveStack executed)
  | allocateObjOnStack block len =>
      cases stepped
      exact .allocateObjOnStack
  | cleanupStack block raw =>
      simp only [step] at stepped
      split at stepped
      · cases stepped
      · rename_i result table executed
        split at stepped
        · cases stepped
          exact .cleanedUp ((execute_cleanupStack executed).imp id And.right)
        · rename_i failed
          cases stepped
          rcases execute_cleanupStack executed with rfl | ⟨succeeded, _⟩
          · exact .kept
          · exact absurd succeeded failed
  | otherMap addr len =>
      simp only [step] at stepped
      split at stepped <;> cases stepped
      exact .otherMap ‹_›
  | otherUnmap addr len =>
      simp only [step] at stepped
      split at stepped <;> cases stepped
      exact .otherUnmap ‹_›

theorem accounts_kept {op : SpaceOp} (stepped : space.step stackGrowsDown op = some next)
    (number : Nat) (other : op.block ≠ some number) :
    next.accounts number = space.accounts number := by
  cases stepped_of_step stepped with
  | reserveStack | allocateObjOnStack | cleanedUp =>
      exact Function.update_of_ne (fun same => other (congrArg some same.symm)) ..
  | kept | otherMap | otherUnmap => rfl

/-! ## Sessions -/

/-- Each `Stack_t` is where a session of its own has brought it. -/
def Traced (stackGrowsDown : Bool) (space : AddressSpace) : Prop :=
  ∀ block, ∃ owner : PageTable, (∀ page, owner page ≠ .stack) ∧
    Reaches (Session.step stackGrowsDown) Session.Allowed (Session.start owner)
      (space.view block)

namespace Traced

theorem of_start {table : SharedTable} (noPages : ∀ page block, table page ≠ .stack block) :
    (start table).Traced stackGrowsDown := by
  intro block
  exact ⟨_, fun page own => noPages page block (SharedOwner.view_stack_iff.mp own), .refl⟩

theorem invariant (traced : space.Traced stackGrowsDown) (block : Nat) :
    (space.view block).Invariant stackGrowsDown := by
  obtain ⟨owner, noPages, reached⟩ := traced block
  exact reached.invariant _ (.inl (Session.unmapped_start noPages)) Session.invariant_step

/-- What a `Stack_t` records are pages of its own. -/
theorem recorded_own (traced : space.Traced stackGrowsDown)
    (aligned : (space.accounts block).stack.addr.toNat % 4096 = 0) {page : Nat}
    (member : page ∈ pagesOf (space.accounts block).stack.addr.toNat
      (space.accounts block).stack.size.toNat) : space.table page = .stack block := by
  rcases traced.invariant block with unmapped | mapped
  · have empty : (space.accounts block).stack = initCachedStack := unmapped.stack
    rw [empty] at member
    simp [pagesOf, Pages.covering, initCachedStack, roundUp] at member
  · exact SharedOwner.view_stack_iff.mp
      (mapped.owned page (mapped.recordedPages_subset aligned member))

theorem releases_own (traced : space.Traced stackGrowsDown) {request : MapRequest}
    (issued : request = .munmap (space.accounts block).stack.addr
        (space.accounts block).stack.size ∨
      ∃ stackSize, request = mapRequest (space.accounts block).stack stackSize)
    (addr len : UInt64) (released : request.releases = some (addr, len))
    (aligned : addr.toNat % 4096 = 0) (page : Nat)
    (member : page ∈ pagesOf addr.toNat len.toNat) : space.table page = .stack block := by
  have recorded : (addr, len) =
      ((space.accounts block).stack.addr, (space.accounts block).stack.size) := by
    rcases issued with rfl | ⟨stackSize, rfl⟩
    · exact (Option.some.inj released).symm
    · unfold mapRequest at released
      split at released
      · exact (Option.some.inj released).symm
      · cases released
  cases recorded
  exact traced.recorded_own aligned member

/-- A step made for one `Stack_t` is foreign to another. -/
theorem others (traced : space.Traced stackGrowsDown) {request : MapRequest}
    {table : SharedTable} (distinct : other ≠ block)
    (issued : request = .munmap (space.accounts block).stack.addr
        (space.accounts block).stack.size ∨
      ∃ stackSize, request = mapRequest (space.accounts block).stack stackSize)
    (change : table = space.table ∨ space.table.Change block request table) :
    Reaches (Session.step stackGrowsDown) Session.Allowed (space.view other)
      ((space.accounts other).session (table.view other)) := by
  rcases change with rfl | change
  · exact .refl
  · exact change.others distinct (traced.releases_own issued)

theorem of_step {op : SpaceOp} (traced : space.Traced stackGrowsDown)
    (allowed : space.Allowed op) (stepped : space.step stackGrowsDown op = some next) :
    next.Traced stackGrowsDown := by
  intro number
  obtain ⟨owner, noPages, reached⟩ := traced number
  have extend (later : Reaches (Session.step stackGrowsDown) Session.Allowed (space.view number)
      (next.view number)) : ∃ owner : PageTable, (∀ page, owner page ≠ .stack) ∧
        Reaches (Session.step stackGrowsDown) Session.Allowed (Session.start owner)
          (next.view number) :=
    ⟨owner, noPages, reached.trans later⟩
  cases stepped_of_step stepped with
  | @reserveStack block reservedStackSz objToPlaceOnStackLen raw _ _ change own =>
      by_cases same : number = block
      · cases same
        have permitted : (space.view number).Allowed
          (.reserveStack reservedStackSz objToPlaceOnStackLen raw) := allowed
        refine extend (.tail .refl permitted ?_)
        rw [view_setAccount]
        exact own
      · refine extend ?_
        rw [view_setAccount_of_ne same]
        exact traced.others same (.inr ⟨_, rfl⟩) change
  | @allocateObjOnStack block len =>
      by_cases same : number = block
      · cases same
        have permitted : (space.view number).Allowed (.allocateObjOnStack len) := allowed
        refine extend (.tail .refl permitted ?_)
        rw [view_setAccount]
        rfl
      · refine extend ?_
        rw [view_setAccount_of_ne same]
        exact .refl
  | @cleanedUp block _ _ change =>
      by_cases same : number = block
      · cases same
        rw [view_setAccount]
        exact ⟨_, fun page own =>
          forget_ne_stack _ page (SharedOwner.view_stack_iff.mp own), .refl⟩
      · refine extend ?_
        rw [view_setAccount_of_ne same, view_forget _ same]
        exact traced.others same (.inl rfl) change
  | kept => exact extend .refl
  | otherMap free =>
      rw [view_assign] at extend ⊢
      exact extend (Account.session_otherMap fun page member =>
        SharedOwner.view_free_iff.mpr (free page member))
  | otherUnmap foreign =>
      rw [view_assign] at extend ⊢
      exact extend (Account.session_otherUnmap fun page member =>
        congrArg (SharedOwner.view number) (foreign page member))

end Traced

/-- The mapping of a reserved `Stack_t`, by address and length. -/
def mapping (stackGrowsDown : Bool) (space : AddressSpace) (block : Nat) : Nat × Nat :=
  ((space.view block).base stackGrowsDown, (space.view block).length)

/-- The `Stack_t` has a mapping. -/
def Reserved (space : AddressSpace) (block : Nat) : Prop :=
  (space.accounts block).stack.addr ≠ 0

namespace Traced

theorem mapped (traced : space.Traced stackGrowsDown) (reserved : space.Reserved block) :
    (space.view block).Mapped stackGrowsDown := by
  rcases traced.invariant block with unmapped | mapped
  · have empty : (space.accounts block).stack = initCachedStack := unmapped.stack
    exact absurd (by rw [empty]; rfl) reserved
  · exact mapped

/-- A byte of a mapping is on a page of its `Stack_t`. -/
theorem mapping_own (traced : space.Traced stackGrowsDown) (reserved : space.Reserved block)
    {byte : Nat} (inside : byte ∈ Session.bytes (space.mapping stackGrowsDown block)) :
    space.table (byte / 4096) = .stack block :=
  SharedOwner.view_stack_iff.mp ((traced.mapped reserved).layout.mapped byte inside)

theorem mappings_disjoint (traced : space.Traced stackGrowsDown) (distinct : block ≠ other)
    (reserved : space.Reserved block) (also : space.Reserved other) :
    Disjoint (Session.bytes (space.mapping stackGrowsDown block))
      (Session.bytes (space.mapping stackGrowsDown other)) := by
  refine Set.disjoint_left.mpr fun byte inside within => ?_
  have owner := (traced.mapping_own reserved inside).symm.trans (traced.mapping_own also within)
  cases owner
  exact distinct rfl

end Traced

theorem traced_of_reaches {table : SharedTable} (noPages : ∀ page block, table page ≠ .stack block)
    (reached : Reaches (step stackGrowsDown) Allowed (start table) space) :
    space.Traced stackGrowsDown :=
  reached.invariant _ (.of_start noPages) .of_step

/-- Whatever is done with the other `Stack_t`s and with the rest of the memory, each
`Stack_t` goes through a session of its own; the mappings of the reserved ones lie apart
and each is laid out for a child. -/
theorem sessions_isolated {table : SharedTable} (noPages : ∀ page block, table page ≠ .stack block)
    (reached : Reaches (step stackGrowsDown) Allowed (start table) space) :
    (∀ block, ∃ owner : PageTable, (∀ page, owner page ≠ .stack) ∧
      Reaches (Session.step stackGrowsDown) Session.Allowed (Session.start owner)
        (space.view block)) ∧
    (∀ block, space.Reserved block →
      (space.view block).Layout stackGrowsDown (space.mapping stackGrowsDown block)) ∧
    ∀ first second, first ≠ second → space.Reserved first → space.Reserved second →
      Disjoint (Session.bytes (space.mapping stackGrowsDown first))
        (Session.bytes (space.mapping stackGrowsDown second)) := by
  have traced := traced_of_reaches noPages reached
  exact ⟨traced, fun block reserved => (traced.mapped reserved).layout,
    fun first second distinct => traced.mappings_disjoint distinct⟩

instance (space : AddressSpace) : (op : SpaceOp) → Decidable (space.Allowed op)
  | .reserveStack block reservedStackSz objToPlaceOnStackLen raw =>
      inferInstanceAs (Decidable ((space.view block).Allowed
        (.reserveStack reservedStackSz objToPlaceOnStackLen raw)))
  | .allocateObjOnStack block len =>
      inferInstanceAs (Decidable ((space.view block).Allowed (.allocateObjOnStack len)))
  | .cleanupStack .. | .otherMap .. | .otherUnmap .. => inferInstanceAs (Decidable True)

/-- Two stacks, of which the first is moved next to the second and the place it leaves is
mapped by the process. -/
def sideBySide : List SpaceOp :=
  [.reserveStack 0 0 5 65536, .reserveStack 1 0 0 131072, .allocateObjOnStack 0 5,
    .reserveStack 0 8192 100 167936, .otherMap 65536 40960, .allocateObjOnStack 0 100]

theorem sessions_isolated_sideBySide :
    ∃ space, run (step true) (start fun _ => .free) sideBySide = some space ∧
      (∀ block, space.Reserved block →
        (space.view block).Layout true (space.mapping true block)) ∧
      Disjoint (Session.bytes (space.mapping true 0)) (Session.bytes (space.mapping true 1)) := by
  have performed : (run (step true) (start fun _ => .free) sideBySide).map (fun space =>
      ((space.accounts 0).stack.addr, (space.accounts 1).stack.addr)) =
        some (167936, 131072) := by
    decide +kernel
  obtain ⟨space, ran, observed⟩ := Option.map_eq_some_iff.mp performed
  simp only [Prod.mk.injEq] at observed
  have reached : Reaches (step true) Allowed (start fun _ => .free) space :=
    .of_run ran (by decide +kernel)
  obtain ⟨_, laidOut, apart⟩ := sessions_isolated (fun _ _ => SharedOwner.noConfusion) reached
  refine ⟨space, ran, laidOut, apart 0 1 (by decide) ?_ ?_⟩
  · rw [Reserved, observed.1]
    decide
  · rw [Reserved, observed.2]
    decide

end AddressSpace

end Aspawn
