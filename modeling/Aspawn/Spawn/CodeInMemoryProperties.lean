import Aspawn.Spawn.CodeInMemory
import Aspawn.SyscallWrappersProperties

/-! The code in memory does what the code of the system does: it makes the same requests in the
same order, as far as the kernel and the other threads can tell, and returns the same. -/

set_option autoImplicit false

namespace Aspawn

namespace InMemory

open Loading Registers Coupling

/-! ## Rules for the parts of the code -/

section Rules

variable {α β : Type} {lawful : (ask : Ask) → Thread → ask.Response → Thread → Prop}
  {final : Option ChildArgs → Thread → α → Program SysCalls β → Prop} {placed : Option ChildArgs}
  {thread : Thread} {request : SysRequest} {rest : request.Response → Program SysCalls β}

/-- The trap of a wrapper that loads these arguments. -/
def Thread.trap (thread : Thread) (number : SystemCall) (args : List Argument) : Trap where
  number := number
  registers := load argumentRegisters (contents args thread.registers) thread.registers

@[simp] theorem loadInt_bind_apply {addr : UInt64} {next : UInt32 → Code α} :
    (loadInt addr >>= next) thread =
      next (UInt32.ofNat (LittleEndian.decode (thread.memory.read addr 4))) thread := rfl

@[simp] theorem loadWord_bind_apply {addr : UInt64} {next : UInt64 → Code α} :
    (loadWord addr >>= next) thread =
      next (UInt64.ofNat (LittleEndian.decode (thread.memory.read addr 8))) thread := rfl

@[simp] theorem modifyMemory_bind_apply {f : Memory UInt8 → Memory UInt8} {next : Unit → Code α} :
    (modifyMemory f >>= next) thread =
      next () { thread with memory := f thread.memory } := rfl

theorem refines_ask {asked : Ask} {next : asked.Response → Code α}
    (requests : asked.Requests placed thread request)
    (answered : ∀ answer later, lawful asked thread answer later →
      ∃ response, asked.Answers answer later request response ∧
        (coupling lawful).Refines final (placedAfter placed request response)
          (next answer later) (rest response)) :
    (coupling lawful).Refines final placed ((ask asked >>= next) thread)
      (sysCall request >>= rest) :=
  refines_call requests answered

theorem refines_trap {number : SystemCall} {args : List Argument} {next : Int → Code α}
    (requests : Trap.Requests (thread.trap number args) thread.memory request)
    (answered : ∀ answer later, lawful (.trap (thread.trap number args)) thread answer later →
      ∃ response, Ask.Answers (.trap (thread.trap number args)) answer later request response ∧
        (coupling lawful).Refines final (placedAfter placed request response)
          (next (int answer) later) (rest response)) :
    (coupling lawful).Refines final placed
      ((wrapper (fun file => int <$> internalSyscall number args file) >>= next) thread)
      (sysCall request >>= rest) :=
  refines_call requests answered

theorem refines_psysClose {fd : UInt32} {number : Nat} {next : Int → Code α}
    {rest : Int → Program SysCalls β} (same : fd.toNat = number)
    (closed : ∀ answer later, lawful (.trap (thread.trap .close [fd])) thread answer later →
      (coupling lawful).Refines final placed (next (int answer) later) (rest (int answer))) :
    (coupling lawful).Refines final placed
      ((wrapper (Registers.psysClose fd) >>= next) thread) (Aspawn.psysClose number >>= rest) := by
  refine refines_trap ?_ fun answer later lawful => ⟨int answer, rfl, closed answer later lawful⟩
  have loaded : (thread.trap .close [fd]).registers .rdi =
      Argument.content (thread.registers .rdi) fd := rfl
  show (Trap.arg (thread.trap .close [fd]) .rdi).toNat = number
  rw [Trap.arg, loaded, toUInt32_content, same]

end Rules

/-! ## The local variables of a call -/

theorem toNat_loadInt {memory : Memory UInt8} {addr : UInt64} :
    (UInt32.ofNat (LittleEndian.decode (memory.read addr 4))).toNat =
      LittleEndian.decode (memory.read addr 4) := by
  have below : LittleEndian.decode (memory.read addr 4) < 2 ^ (8 * (memory.read addr 4).length) :=
    LittleEndian.decode_lt
  rw [Memory.length_read] at below
  exact UInt32.toNat_ofNat_of_lt' below

/-- A descriptor is the same number as an `int`. -/
theorem toInt_of_lt {value : UInt32} (small : value.toNat < 2 ^ 31) :
    value.toInt32.toInt = value.toNat := by
  have doubled : 2 * value.toBitVec.toNat < 2 ^ 32 := by
    have same : value.toBitVec.toNat = value.toNat := rfl
    omega
  exact BitVec.toInt_eq_toNat_of_lt doubled

namespace Frame

variable {frame : Frame} {memory later : Memory UInt8} {set : SigsetT} {pipefd : Nat × Nat}

/-- The object that `old_sigset` points to, and `pipefd`. -/
structure Has (frame : Frame) (memory : Memory UInt8) (set : SigsetT) (pipefd : Nat × Nat) :
    Prop where
  set : loadSigset memory frame.oldSigset = set
  pipefd : pipefdAt memory frame.pipefd = pipefd

theorem sigset_kept
    (kept : ∀ place, Memory.Covers frame.oldSigset 128 place → later place = memory place) :
    loadSigset later frame.oldSigset = loadSigset memory frame.oldSigset := by
  rw [loadSigset, loadSigset, Memory.read_congr kept]

theorem Has.kept (has : frame.Has memory set pipefd)
    (kept : ∀ place, Memory.Covers frame.oldSigset 128 place ∨
      Memory.Covers frame.pipefd 8 place → later place = memory place) :
    frame.Has later set pipefd where
  set := (sigset_kept fun place inside => kept place (.inl inside)).trans has.set
  pipefd := by
    have readEnd : later.read frame.pipefd 4 = memory.read frame.pipefd 4 :=
      Memory.read_congr fun place inside => kept place (.inr (inside.mono (by decide)))
    have writeEnd : later.read (frame.pipefd + 4) 4 = memory.read (frame.pipefd + 4) 4 :=
      Memory.read_congr fun place inside => kept place (.inr (Memory.covers_of_part inside))
    rw [pipefdAt, readEnd, writeEnd]
    exact has.pipefd

theorem Has.write {addr : UInt64} {bytes : List UInt8} (has : frame.Has memory set pipefd)
    (apart : ∀ place, Memory.Covers addr bytes.length place →
      ¬ Memory.Covers frame.oldSigset 128 place ∧ ¬ Memory.Covers frame.pipefd 8 place) :
    frame.Has (memory.write addr bytes) set pipefd := by
  refine has.kept fun place inside => Memory.write_of_not_covers fun stored => ?_
  rcases inside with ofSet | ofPipe
  · exact (apart place stored).1 ofSet
  · exact (apart place stored).2 ofPipe

/-- An environment that stores nothing on request keeps the local variables. -/
theorem Has.lawful {asked : Ask} {before after : Thread} {answer : asked.Response}
    (has : frame.Has before.memory set pipefd) (lawful : frame.Lawful asked before answer after)
    (stores : ∀ place, ¬ asked.Stores place) : frame.Has after.memory set pipefd :=
  has.kept fun place inside => lawful.locals place inside (stores place)

theorem Has.readEnd (has : frame.Has memory set pipefd) :
    (UInt32.ofNat (LittleEndian.decode (memory.read frame.pipefd 4))).toNat = pipefd.1 :=
  toNat_loadInt.trans (congrArg Prod.fst has.pipefd)

theorem Has.writeEnd (has : frame.Has memory set pipefd) :
    (UInt32.ofNat (LittleEndian.decode (memory.read (frame.pipefd + 4) 4))).toNat = pipefd.2 :=
  toNat_loadInt.trans (congrArg Prod.snd has.pipefd)

/-- Beside these, the arguments have been placed. -/
structure Placed (frame : Frame) (memory : Memory UInt8) (set : SigsetT) (pipefd : Nat × Nat)
    (args : ChildArgs) : Prop where
  has : frame.Has memory set pipefd
  args : memory.read frame.args 152 = args.encode

/-- What `aspawn_impl` stores to `*args`. -/
theorem Has.placed {args : ChildArgs} (has : frame.Has memory args.oldSigset args.pipefd) :
    frame.Placed (storeChildArgs memory frame.args args.pipefd args.fn args.arg frame.oldSigset)
      args.oldSigset args.pipefd args := by
  have length : args.encode.length = 152 := args.length_encode
  rw [ChildArgs.store_eq has.set fun place inside => (frame.args_apart place inside).1]
  constructor
  · refine has.write fun place inside => ?_
    obtain ⟨ofSet, ofPipe, _⟩ := frame.args_apart place (length ▸ inside)
    exact ⟨ofSet, ofPipe⟩
  · rw [← length]
    exact Memory.read_write (by rw [length]; decide)

/-- The arguments stay as long as there is no child. -/
theorem Placed.lawful {asked : Ask} {before after : Thread} {answer : asked.Response}
    {args : ChildArgs} (ready : frame.Placed before.memory set pipefd args)
    (lawful : frame.Lawful asked before answer after) (stores : ∀ place, ¬ asked.Stores place)
    (childless : asked.childless answer) : frame.Placed after.memory set pipefd args where
  has := ready.has.lawful lawful stores
  args := (Memory.read_congr (lawful.arguments childless)).trans ready.args

end Frame

/-! ## Parts of a call -/

/-- The part leaves what `next` does, and the caller's mask. -/
def Frame.Returns {α : Type} (frame : Frame) (set : SigsetT) (next : Int → Program SysCalls α)
    (_ : Option ChildArgs) (thread : Thread) (value : Int) (rest : Program SysCalls α) : Prop :=
  rest = next value ∧ loadSigset thread.memory frame.oldSigset = set

/-- The part leaves what `next` does, and the local variables. -/
def Frame.GoesOn {α : Type} (frame : Frame) (set : SigsetT) (pipefd : Nat × Nat)
    (next : Int → Program SysCalls α) (_ : Option ChildArgs) (thread : Thread) (value : Int)
    (rest : Program SysCalls α) : Prop :=
  rest = next value ∧ frame.Has thread.memory set pipefd

section Parts

variable {frame : Frame} {thread : Thread} {set : SigsetT} {pipefd : Nat × Nat}
  {placed : Option ChildArgs} {β : Type}

theorem not_stores_close {number : UInt32} (place : UInt64) :
    ¬ (Ask.trap (thread.trap .close [number])).Stores place := by
  rintro (⟨close, _⟩ | ⟨close, _⟩) <;> cases close

theorem refines_finishImpl {newPid : Int} {next : Int → Program SysCalls β}
    (has : frame.Has thread.memory set pipefd) (small : pipefd.1 < 2 ^ 31) :
    (coupling frame.Lawful).Refines (frame.Returns set next) placed
      (finishImpl frame.toLocals newPid thread)
      (Aspawn.finishImpl pipefd newPid >>= next) := by
  have close {result : Int} {thread : Thread} (has : frame.Has thread.memory set pipefd) :
      (coupling frame.Lawful).Refines (frame.Returns set next) placed
        ((do
          let _ ← wrapper (Registers.psysClose (← loadInt (frame.pipefd + 4)))
          return result : Code Int) thread)
        (Aspawn.psysClose pipefd.2 >>= fun _ => next result) := by
    rw [loadInt_bind_apply]
    refine refines_psysClose has.writeEnd fun answer later lawful => ?_
    exact ⟨rfl, (has.lawful lawful not_stores_close).set⟩
  unfold finishImpl Aspawn.finishImpl
  split
  · refine refines_ask rfl fun _ later lawful => ⟨(), trivial, ?_⟩
    have has := has.lawful lawful fun _ stores => stores
    have readEnd : (UInt32.ofNat (LittleEndian.decode
        (later.memory.read frame.pipefd 4))).toInt32.toInt = pipefd.1 := by
      rw [toInt_of_lt (has.readEnd ▸ small), has.readEnd]
    rw [loadInt_bind_apply, readEnd]
    exact close has
  · rw [loadInt_bind_apply]
    refine refines_psysClose has.readEnd fun _ later lawful => ?_
    exact close (has.lawful lawful not_stores_close)

variable {args : ChildArgs} {ptr : ArgsPtr} {stack : StackT} {next : Int → Program SysCalls β}

theorem refines_cloneInternal {entry : ChildEntry}
    (ready : frame.Placed thread.memory set pipefd args) (points : ptr.addr = frame.args) :
    (coupling frame.Lawful).Refines (frame.GoesOn set pipefd next) (some args)
      (cloneInternal entry frame.args stack thread)
      (Aspawn.cloneInternal entry ptr stack >>= next) := by
  have flags (leftover : UInt64) :
      (Argument.content leftover (.int (CLONE_VM ||| SIGCHLD).toUInt32)).toUInt32.toUInt64 =
        CLONE_VM ||| SIGCHLD := by
    rw [toUInt32_content]
    decide
  refine refines_call ⟨rfl, flags _, rfl, rfl, rfl, rfl, points, args, rfl, ready.args⟩ ?_
  intro answer later lawful
  exact ⟨int answer, rfl, rfl, ready.has.lawful lawful fun _ stores => stores⟩

/-- A refused `clone3` leaves the arguments for `clone`. -/
theorem refines_cloneClearSighandInternal {entry : ChildEntry}
    (ready : frame.Placed thread.memory set pipefd args) (points : ptr.addr = frame.args) :
    (coupling frame.Lawful).Refines
      (fun placed thread value rest => placed = some args ∧ rest = next value ∧
        frame.Has thread.memory set pipefd ∧
        (value < 0 → frame.Placed thread.memory set pipefd args))
      (some args) (cloneClearSighandInternal frame.toLocals entry frame.args stack thread)
      (Aspawn.cloneClearSighandInternal entry ptr stack >>= next) := by
  let words := [CLONE_VM ||| CLONE_CLEAR_SIGHAND, 0, 0, 0, SIGCHLD, stack.addr, stack.size, 0, 0, 0]
  have length : (LittleEndian.encodeWords words).length = 80 := LittleEndian.length_encodeWords
  have stored : frame.Placed
      (thread.memory.write frame.clArgs (LittleEndian.encodeWords words)) set pipefd args := by
    constructor
    · exact ready.has.write fun place inside => frame.clArgs_apart place (length ▸ inside)
    · rw [Memory.read_write_apart fun place inside => ?_, ready.args]
      rw [length]
      exact (frame.args_apart place inside).2.2
  have read : LittleEndian.readWords
      (thread.memory.write frame.clArgs (LittleEndian.encodeWords words)) frame.clArgs 10 = words :=
    LittleEndian.readWords_write (show 8 * 10 ≤ 2 ^ 64 by decide)
  refine refines_call ⟨rfl, rfl, read, points, args, rfl, stored.args⟩ ?_
  intro answer later lawful
  exact ⟨int answer, rfl, rfl, rfl, stored.has.lawful lawful fun _ stores => stores,
    fun refused => stored.lawful lawful (fun _ stores => stores) refused⟩

theorem refines_cloneChild (ready : frame.Placed thread.memory set pipefd args)
    (points : ptr.addr = frame.args) :
    (coupling frame.Lawful).Refines (frame.GoesOn set pipefd next) (some args)
      (cloneChild frame.toLocals frame.args stack thread)
      (Aspawn.cloneChild ptr stack >>= next) := by
  refine refines_ask trivial fun flag later lawful => ⟨flag, rfl, ?_⟩
  have ready := ready.lawful lawful (fun _ stores => stores) trivial
  cases flag with
  | true => exact refines_cloneInternal ready points
  | false =>
      refine refines_bind (refines_cloneClearSighandInternal ready points) ?_
      rintro _ thread newPid _ ⟨rfl, rfl, has, refusal⟩
      dsimp only [Program.bind]
      split
      · exact ⟨rfl, has⟩
      · rename_i fallback
        have refused : newPid < 0 := by
          rcases Decidable.not_and_iff_not_or_not.mp fallback with nosys | inval
          · exact Decidable.not_not.mp nosys ▸ by decide
          · exact Decidable.not_not.mp inval ▸ by decide
        refine refines_ask rfl fun _ later lawful => ⟨(), trivial, ?_⟩
        exact refines_cloneInternal
          ((refusal refused).lawful lawful (fun _ stores => stores) trivial) points

/-- What `aspawn_impl` does with its pipe and its copy of the `Stack_t`. -/
theorem refines_placing {block : Nat} {fn arg : UInt64} (has : frame.Has thread.memory set pipefd)
    (small : pipefd.1 < 2 ^ 31) (found : argsAddr stack = frame.args) :
    (coupling frame.Lawful).Refines (frame.Returns set next) placed
      ((do
        let readEnd ← loadInt frame.pipefd
        let writeEnd ← loadInt (frame.pipefd + 4)
        modifyMemory (storeChildArgs · (argsAddr stack) (readEnd.toNat, writeEnd.toNat) fn.toNat
          arg.toNat frame.oldSigset)
        let newPid ← cloneChild frame.toLocals (argsAddr stack) (childStackT stack)
        finishImpl frame.toLocals newPid : Code Int) thread)
      ((do
        storeArgs { block, addr := argsAddr stack }
          { pipefd, fn := fn.toNat, arg := arg.toNat, oldSigset := set }
        let newPid ← Aspawn.cloneChild { block, addr := argsAddr stack } (childStackT stack)
        Aspawn.finishImpl pipefd newPid) >>= next) := by
  let args : ChildArgs := { pipefd, fn := fn.toNat, arg := arg.toNat, oldSigset := set }
  let storing : Thread := { thread with
    memory := storeChildArgs thread.memory frame.args args.pipefd args.fn args.arg
      frame.oldSigset }
  have ready : frame.Placed storing.memory args.oldSigset args.pipefd args :=
    @Frame.Has.placed frame thread.memory args has
  have settles : Settles storing (.storeArgs { block, addr := frame.args } args) () := ready.args
  have spawns : (coupling frame.Lawful).Refines (frame.Returns set next) (some args)
      ((cloneChild frame.toLocals frame.args (childStackT stack) >>= fun newPid =>
        finishImpl frame.toLocals newPid) storing)
      ((Aspawn.cloneChild { block, addr := frame.args } (childStackT stack) >>= fun newPid =>
        Aspawn.finishImpl pipefd newPid) >>= next) := by
    rw [Program.bind_assoc]
    refine refines_bind (refines_cloneChild ready rfl) ?_
    rintro _ _ newPid _ ⟨rfl, has⟩
    exact refines_finishImpl has small
  rw [loadInt_bind_apply, loadInt_bind_apply, modifyMemory_bind_apply, has.readEnd, has.writeEnd,
    found]
  exact refines_settled () rfl settles spawns

theorem refines_aspawnImpl {cachedStack : Nat} {fn arg : UInt64}
    (holds : loadSigset thread.memory frame.oldSigset = set) :
    (coupling frame.Lawful).Refines (frame.Returns set next) placed
      (aspawnImpl frame.toLocals cachedStack fn arg frame.oldSigset thread)
      (Aspawn.aspawnImpl cachedStack fn.toNat arg.toNat set >>= next) := by
  have flags : Trap.arg (thread.trap .pipe2 [frame.pipefd, O_CLOEXEC]) .rsi = O_CLOEXEC :=
    toUInt32_content
  refine refines_trap flags fun answer later lawful => ⟨_, rfl, ?_⟩
  have kept : loadSigset later.memory frame.oldSigset = set := by
    rw [← holds]
    refine Frame.sigset_kept fun place inside => lawful.locals place (.inl inside) ?_
    rintro (⟨pipe, _⟩ | ⟨_, stored⟩)
    · cases pipe
    · exact frame.pipefd_apart place inside stored
  by_cases failed : int answer < 0
  · rw [if_pos failed, if_pos failed]
    exact ⟨rfl, kept⟩
  · rw [if_neg failed, if_neg failed]
    have has : frame.Has later.memory set (pipefdAt later.memory frame.pipefd) := ⟨kept, rfl⟩
    have small : (pipefdAt later.memory frame.pipefd).1 < 2 ^ 31 :=
      lawful.descriptors _ (if_pos ⟨rfl, Int.not_lt.mp failed⟩)
    refine refines_ask rfl fun stack later lawful => ⟨stack, rfl, ?_⟩
    exact refines_placing (has.lawful lawful fun _ stores => stores) small (lawful.stack stack rfl)

theorem loadSigset_sigBlockall (memory : Memory UInt8) :
    loadSigset (pureSigfillset memory frame.set) frame.oldSigset =
      loadSigset memory frame.oldSigset := by
  refine Frame.sigset_kept fun place inside => ?_
  rw [pureSigfillset, pmemset_eq]
  refine Memory.write_of_not_covers fun stored => frame.set_apart place inside ?_
  rwa [List.length_replicate] at stored

theorem sigsetAt_of_given {memory : Memory UInt8} :
    sigsetAt memory frame.oldSigset = some (loadSigset memory frame.oldSigset) :=
  if_neg frame.given.2

/-- A kernel that stores the old mask, or nothing when it fails, answers as the system does. -/
theorem answers_sigprocmask {system after : System} {task : TaskId} {call : Nat}
    {choice : System.Choice} {made : Trap} {how : MaskHow} {set : SigsetT}
    {memory : Memory UInt8} {result : UInt64} {later : Thread} {response : Int × Option SigsetT}
    (handled : system.handle task call choice
      (.sigprocmask how set (sigsetAt memory (made.registers .rdx))) = some (response, after))
    (returned : int result = response.1)
    (stored : later.memory =
      if response.1 = 0 ∧ made.registers .rdx ≠ 0 then
        memory.write (made.registers .rdx)
          (LittleEndian.encode 8 (system.mask task).bits.toNat)
      else memory) :
    Ask.Answers (.trap made) result later
      (.sigprocmask how set (sigsetAt memory (made.registers .rdx))) response := by
  refine Prod.ext returned.symm ?_
  rw [stored]
  cases choice with
  | ok =>
      cases handled
      by_cases null : made.registers .rdx = 0
      · simp [sigsetAt, null]
      · simp [sigsetAt, null, loadSigset_write]
  | fail errno =>
      simp only [System.handle] at handled
      split at handled <;> cases handled
      have failed : ¬ (-errno.value = 0) := by
        have := errno.positive
        omega
      simp only [failed, false_and, if_false]
  | fds => cases handled

theorem refines_sigBlockall {next : Int × Option SigsetT → Program SysCalls β} :
    (coupling frame.Lawful).Refines
      (fun _ thread value rest =>
        rest = next (value, some (loadSigset thread.memory frame.oldSigset)))
      placed (sigBlockall frame.toLocals frame.oldSigset thread)
      (Aspawn.sigBlockall (loadSigset thread.memory frame.oldSigset) >>= next) := by
  let filling : Thread := { thread with memory := pureSigfillset thread.memory frame.set }
  have given : Sigmask.read Aspawn.pureSigfillset =
      BitVec.ofNat 64 (LittleEndian.decode (filling.memory.read frame.set 8)) := by
    rw [← read_loadSigset, loadSigset_pureSigfillset]
  have object : some (loadSigset thread.memory frame.oldSigset) =
      sigsetAt filling.memory frame.oldSigset := by
    rw [sigsetAt_of_given, loadSigset_sigBlockall]
  refine refines_trap ⟨toUInt32_content, frame.given.1, given, object, rfl⟩
    fun answer later lawful => ?_
  exact ⟨(int answer, some (loadSigset later.memory frame.oldSigset)),
    congrArg (Prod.mk _) sigsetAt_of_given.symm, rfl⟩

theorem refines_sigSetmask {next : Int → Program SysCalls β}
    (holds : loadSigset thread.memory frame.oldSigset = set) :
    (coupling frame.Lawful).Refines (fun _ _ value rest => rest = next value) placed
      (sigSetmask frame.oldSigset thread) (Aspawn.sigSetmask set >>= next) := by
  have given : Sigmask.read set =
      BitVec.ofNat 64 (LittleEndian.decode (thread.memory.read frame.oldSigset 8)) := by
    rw [← holds, read_loadSigset]
  refine refines_trap ⟨toUInt32_content, frame.given.2, given, rfl, rfl⟩
    fun answer later lawful => ?_
  exact ⟨(int answer, none), rfl, rfl⟩

theorem refines_aspawn {cachedStack : Nat} {fn arg : UInt64}
    (same : frame.oldSigset = frame.oldset) :
    (coupling frame.Lawful).Refines (fun _ _ value rest => rest = .done value) none
      (aspawn frame.toLocals cachedStack fn arg thread)
      (Aspawn.aspawn cachedStack fn.toNat arg.toNat (loadSigset thread.memory frame.oldset)) := by
  have restore {placed : Option ChildArgs} {oldstate : CancelState} {result : Int}
      {thread : Thread} :
      (coupling frame.Lawful).Refines (fun _ _ value rest => rest = .done value) placed
        ((do let _ ← ask (.setcancelstate oldstate); return result : Code Int) thread)
        (do let _ ← sysCall (.setcancelstate oldstate); return result) :=
    refines_ask rfl fun old _ _ => ⟨old, rfl, rfl⟩
  unfold aspawn Aspawn.aspawn
  refine refines_ask rfl fun oldstate later lawful => ⟨oldstate, rfl, ?_⟩
  have kept : loadSigset later.memory frame.oldSigset = loadSigset thread.memory frame.oldSigset :=
    Frame.sigset_kept fun place inside => lawful.locals place (.inl inside) fun stores => stores
  rw [← same, ← kept]
  refine refines_bind refines_sigBlockall ?_
  rintro placed thread result _ rfl
  dsimp only
  split
  · rw [Option.getD_some]
    refine refines_bind (refines_aspawnImpl rfl) ?_
    rintro _ thread result _ ⟨rfl, kept⟩
    refine refines_bind (refines_sigSetmask kept) ?_
    rintro _ _ _ _ rfl
    exact restore
  · exact restore

end Parts

/-! ## The child -/

/-- The function that the child enters finds its arguments. -/
def Start.Stands (memory : Memory UInt8) : Start → ChildStart → Prop
  | .fn function argument writeEndFd oldSigset, .fn code value fd set =>
      function.toNat = code ∧ argument.toNat = value ∧ writeEndFd.toNat = fd ∧
        loadSigset memory oldSigset = set
  | .perr exitStatus errnoV, .perr status value => exitStatus = status ∧ errnoV = value
  | _, _ => False

section Child

variable {lawful : (ask : Ask) → Thread → ask.Response → Thread → Prop} {thread : Thread}
  {placed : Option ChildArgs} {act args : UInt64} {ptr : ArgsPtr} {β : Type}

theorem toNat_loadWord {memory : Memory UInt8} {addr : UInt64} :
    (UInt64.ofNat (LittleEndian.decode (memory.read addr 8))).toNat =
      LittleEndian.decode (memory.read addr 8) := by
  have below : LittleEndian.decode (memory.read addr 8) < 2 ^ (8 * (memory.read addr 8).length) :=
    LittleEndian.decode_lt
  rw [Memory.length_read] at below
  exact UInt64.toNat_ofNat_of_lt' below

theorem refines_psysSigClearHandler {sig : UInt32} {signum : Nat}
    {next : Int → Program SysCalls β} (given : act ≠ 0) (same : sig.toNat = signum) :
    (coupling lawful).Refines (fun _ _ value rest => rest = next value) placed
      (psysSigClearHandler act sig thread) (Aspawn.psysSigClearHandler signum >>= next) := by
  let clearing : Thread := { thread with memory := clearedSigaction thread.memory act }
  have number : (Trap.arg (clearing.trap .rtSigaction [sig, act, .long 0, NSIG_BYTES])
      .rdi).toNat = signum :=
    (congrArg UInt32.toNat toUInt32_content).trans same
  have cleared : (loadKernelSigaction (clearedSigaction thread.memory act) act).disposition =
      .dfl := by
    rw [loadKernelSigaction_cleared]
    rfl
  refine refines_trap ⟨number, given, cleared, rfl, rfl⟩ fun answer later lawful => ?_
  exact ⟨int answer, rfl, rfl⟩

theorem refines_clearHandlersFrom {left : Nat} {sig : UInt32} {signum : Nat}
    {next : Unit → Program SysCalls β} (given : act ≠ 0) (same : sig.toNat = signum)
    (bounded : signum + left < 2 ^ 32) :
    (coupling lawful).Refines (fun _ _ value rest => rest = next value) placed
      (clearHandlersFrom act left sig thread) (Aspawn.clearHandlersFrom left signum >>= next) := by
  induction left generalizing placed thread sig signum with
  | zero => rfl
  | succ left ih =>
      have successor : (sig + 1).toNat = signum + 1 := by
        rw [UInt32.toNat_add, same, Nat.mod_eq_of_lt (by show signum + 1 < 2 ^ 32; omega)]
        rfl
      refine refines_bind (refines_psysSigClearHandler given same) ?_
      rintro _ _ _ _ rfl
      exact ih successor (by omega)

theorem refines_aspawnChild (points : ptr.addr = args) :
    (coupling lawful).Refines
      (fun placed thread value rest => ∃ served last start, rest.Follows served (.done start) ∧
        (coupling lawful).Serves thread placed served last ∧ value.Stands thread.memory start)
      placed (aspawnChild args thread) (Aspawn.aspawnChild ptr) := by
  subst points
  refine refines_settled (loadChildArgs thread.memory ptr.addr) rfl rfl ?_
  unfold aspawnChild
  rw [loadInt_bind_apply, Program.bind]
  refine refines_psysClose toNat_loadInt fun answer later _ => ?_
  split
  · exact ⟨[], _, _, .nil, rfl, rfl, rfl⟩
  · exact ⟨[⟨.loadArgs ptr, loadChildArgs later.memory ptr.addr⟩], _, _, .cons .nil, ⟨rfl, rfl⟩,
      toNat_loadWord, toNat_loadWord, toNat_loadInt, rfl⟩

theorem refines_startCode {entry : ChildEntry} (given : act ≠ 0) (points : ptr.addr = args) :
    (coupling lawful).Refines
      (fun placed thread value rest => ∃ served last start, rest.Follows served (.done start) ∧
        (coupling lawful).Serves thread placed served last ∧ value.Stands thread.memory start)
      placed (startCode entry act args thread) (entry.program ptr) := by
  cases entry with
  | aspawnChild => exact refines_aspawnChild points
  | aspawnChildClearSighand =>
      refine refines_bind (refines_clearHandlersFrom given rfl (by decide)) ?_
      rintro _ _ _ _ rfl
      exact refines_aspawnChild points

end Child

/-! ## Whole runs -/

/-- A run of `aspawn` or `aspawn_rec` with its variables in memory is a run of the same call of
the system: the kernel and the other threads find the same requests in the registers and in
memory, one by one, and the result is the same. -/
theorem calls_refine (frame : Frame) (cachedStack : Nat) (fn arg : UInt64) (thread final : Thread)
    (exchanges : List (Asks.sharing Thread).Exchange) (result : Int)
    (lawful : ∀ exchange ∈ exchanges,
      frame.Lawful exchange.1.1 exchange.1.2 exchange.2.1 exchange.2.2) :
    (frame.oldSigset = frame.oldset →
      (aspawn frame.toLocals cachedStack fn arg thread).Follows exchanges (.done (result, final)) →
      ∃ above last,
        (Aspawn.aspawn cachedStack fn.toNat arg.toNat
          (loadSigset thread.memory frame.oldset)).Follows above (.done result) ∧
        (coupling frame.Lawful).Matched none exchanges above last) ∧
    ((aspawnRec frame.toLocals cachedStack fn arg frame.oldSigset thread).Follows exchanges
        (.done (result, final)) →
      ∃ above last,
        (Aspawn.aspawnRec cachedStack fn.toNat arg.toNat
          (loadSigset thread.memory frame.oldSigset)).Follows above (.done result) ∧
        (coupling frame.Lawful).Matched none exchanges above last) := by
  constructor
  · intro same made
    obtain ⟨above, _, last, follows, matched, rfl⟩ :=
      (refines_aspawn same).follows made lawful
    exact ⟨above, last, follows, matched⟩
  · intro made
    obtain ⟨above, _, last, follows, matched, rfl, _⟩ :=
      (refines_aspawnImpl rfl).follows made lawful
    rw [Program.bind_done] at follows
    exact ⟨above, last, follows, matched⟩

/-- Local variables on one page each, and the arguments on the given `Stack_t`. -/
def pages : Frame where
  set := 4096
  oldset := 8192
  pipefd := 12288
  clArgs := 16384
  args := argsAddr { addr := 65536, size := 8192 }
  oldSigset := 8192
  given := by decide
  set_apart _ := Memory.apart_of_le (by decide) (by decide) (by decide)
  pipefd_apart _ := Memory.apart_of_le (by decide) (by decide) (by decide)
  args_apart _ inside :=
    ⟨Memory.apart_of_le (by decide) (by decide) (by decide) inside,
      Memory.apart_of_le (by decide) (by decide) (by decide) inside,
      Memory.apart_of_le (by decide) (by decide) (by decide) inside⟩
  clArgs_apart _ inside :=
    ⟨Memory.apart_of_le (by decide) (by decide) (by decide) inside,
      Memory.apart_of_le (by decide) (by decide) (by decide) inside⟩

/-- A kernel without `clone3`, on which nobody else runs. -/
def quiet : (request : (Asks.sharing Thread).Request) → (Asks.sharing Thread).Response request
  | (.setcancelstate _, thread) => (.enable, thread)
  | (.loadStack _, thread) => ({ addr := 65536, size := 8192 }, thread)
  | (.loadFlag, thread) => (false, thread)
  | (.storeFlag _, thread) | (.storePid _, thread) => ((), thread)
  | (.trap made, thread) =>
      if made.number = .pipe2 then
        (0, { thread with
          memory := thread.memory.write (made.registers .rdi)
            (LittleEndian.encode 4 3 ++ LittleEndian.encode 4 4) })
      else (0, thread)
  | (.clone _ _ _, thread) => (7, thread)
  | (.clone3 _ _ _, thread) => (-38, thread)

theorem pipefdAt_write {memory : Memory UInt8} {addr : UInt64} {readEnd writeEnd : Nat}
    (small : readEnd < 2 ^ 32) (smallToo : writeEnd < 2 ^ 32) :
    pipefdAt (memory.write addr (LittleEndian.encode 4 readEnd ++ LittleEndian.encode 4 writeEnd))
      addr = (readEnd, writeEnd) := by
  have length : (LittleEndian.encode 4 readEnd).length = 4 := LittleEndian.length_encode
  have whole : (memory.write addr
      (LittleEndian.encode 4 readEnd ++ LittleEndian.encode 4 writeEnd)).read addr (4 + 4) =
        LittleEndian.encode 4 readEnd ++ LittleEndian.encode 4 writeEnd :=
    Memory.read_write (show 4 + 4 ≤ 2 ^ 64 by decide)
  obtain ⟨first, second⟩ := (Memory.read_eq_append_iff length).mp whole
  rw [pipefdAt, first]
  refine Prod.ext (LittleEndian.decode_encode_of_lt small) ?_
  exact (congrArg LittleEndian.decode second).trans (LittleEndian.decode_encode_of_lt smallToo)

theorem Frame.Lawful.of_kept {frame : Frame} {asked : Ask} {before later : Thread}
    {answer : asked.Response} (kept : later.memory = before.memory)
    (stack : ∀ stack, asked.foundStack answer = some stack → argsAddr stack = frame.args)
    (descriptors : ∀ pipefd, asked.foundPipe answer later = some pipefd → pipefd.1 < 2 ^ 31) :
    frame.Lawful asked before answer later where
  locals place _ _ := congrFun kept place
  arguments _ place _ := congrFun kept place
  stack := stack
  descriptors := descriptors

theorem lawful_quiet (request : (Asks.sharing Thread).Request) :
    pages.Lawful request.1 request.2 (quiet request).1 (quiet request).2 := by
  obtain ⟨asked, thread⟩ := request
  cases asked with
  | trap made =>
      by_cases pipe : made.number = .pipe2
      · have stored : quiet (.trap made, thread) = (0, { thread with
            memory := thread.memory.write (made.registers .rdi)
              (LittleEndian.encode 4 3 ++ LittleEndian.encode 4 4) }) :=
          if_pos pipe
        rw [stored]
        constructor
        · intro place _ outside
          exact Memory.write_of_not_covers fun covered => outside (.inr ⟨pipe, covered⟩)
        · intro childless
          exact childless.elim
        · intro _ found
          cases found
        · intro pipefd found
          have succeeded : 0 ≤ int 0 := by decide
          rw [Ask.foundPipe, if_pos ⟨pipe, succeeded⟩] at found
          have descriptors : pipefdAt (thread.memory.write (made.registers .rdi)
              (LittleEndian.encode 4 3 ++ LittleEndian.encode 4 4)) (made.registers .rdi) = (3, 4) :=
            pipefdAt_write (by decide) (by decide)
          rw [← Option.some.inj found, descriptors]
          decide
      · have kept : quiet (.trap made, thread) = (0, thread) := if_neg pipe
        rw [kept]
        refine .of_kept rfl (fun _ found => ?_) fun _ found => ?_
        · cases found
        · rw [Ask.foundPipe, if_neg fun both => pipe both.1] at found
          cases found
  | loadStack block =>
      refine .of_kept rfl (fun _ found => ?_) fun _ found => ?_
      · cases found
        rfl
      · cases found
  | _ =>
      refine .of_kept rfl (fun _ found => ?_) fun _ found => ?_
      · cases found
      · cases found

/-- A thread with an emptied `oldset` among other bytes. -/
def emptied : Thread where
  memory := pureSigemptyset (fun _ => 255) pages.oldset
  registers _ := 255

theorem calls_refine_quiet : ∃ above last,
    (Aspawn.aspawn 0 100 200 0).Follows above (.done 3) ∧
    (coupling pages.Lawful).Matched none
      ((aspawn pages.toLocals 0 100 200 emptied).serve quiet).1 above last := by
  let code := aspawn pages.toLocals 0 100 200 emptied
  have result : (code.serve quiet).2.1 = 3 := by
    decide +kernel
  have made : code.Follows (code.serve quiet).1 (.done (3, (code.serve quiet).2.2)) :=
    Program.follows_serve_of_fst result
  have zero : loadSigset emptied.memory pages.oldset = 0 := by
    simp only [emptied, loadSigset_pureSigemptyset]
  rw [← zero]
  refine (calls_refine pages 0 100 200 emptied _ _ 3 ?_).1 rfl made
  intro exchange member
  rw [Program.eq_respond_of_mem_serve member]
  exact lawful_quiet exchange.1

/-- A child whose local variable lies in memory starts as a child of the system does, and enters
its function with the arguments that lie in memory then. -/
theorem starts_refine (entry : ChildEntry) (act args : UInt64) (ptr : ArgsPtr)
    (thread final : Thread) (exchanges : List (Asks.sharing Thread).Exchange) (start : Start)
    (given : act ≠ 0) (points : ptr.addr = args)
    (made : (startCode entry act args thread).Follows exchanges (.done (start, final))) :
    ∃ above middle served last found,
      (entry.program ptr).Follows (above ++ served) (.done found) ∧
      (coupling fun _ _ _ _ => True).Matched none exchanges above middle ∧
      (coupling fun _ _ _ _ => True).Serves final middle served last ∧
      start.Stands final.memory found := by
  have refines : (coupling fun _ _ _ _ => True).Refines _ none
      (startCode entry act args thread) (entry.program ptr) := refines_startCode given points
  obtain ⟨above, rest, middle, follows, matched, served, last, found, further, serves, stands⟩ :=
    refines.follows made fun _ _ => trivial
  exact ⟨above, middle, served, last, found, follows.append further, matched, serves, stands⟩

/-- A thread that finds arguments at the given address. -/
def handedArgs (args : UInt64) : Thread where
  memory := storeChildArgs (fun _ => 0) args (3, 4) 100 200 8192
  registers _ := 0

/-- A kernel on which nobody else runs, while the child's local variable holds zeros already. -/
def rested (request : (Asks.sharing Thread).Request) : (Asks.sharing Thread).Response request :=
  ((quiet request).1, handedArgs 65536)

theorem starts_refine_rested :
    ∃ exchanges final above middle served last found,
      (startCode .aspawnChildClearSighand 4096 65536 (handedArgs 65536)).Follows exchanges
        (.done (.fn 100 200 4 65560, final)) ∧
      (ChildEntry.aspawnChildClearSighand.program { block := 0, addr := 65536 }).Follows
        (above ++ served) (.done found) ∧
      (coupling fun _ _ _ _ => True).Matched none exchanges above middle ∧
      (coupling fun _ _ _ _ => True).Serves final middle served last ∧
      (Start.fn 100 200 4 65560).Stands final.memory found := by
  let code := startCode .aspawnChildClearSighand 4096 65536 (handedArgs 65536)
  have start : (code.serve rested).2.1 = .fn 100 200 4 65560 := by
    decide +kernel
  have made : code.Follows (code.serve rested).1
      (.done (.fn 100 200 4 65560, (code.serve rested).2.2)) :=
    Program.follows_serve_of_fst start
  obtain ⟨above, middle, served, last, found, follows, matched, serves, stands⟩ :=
    starts_refine .aspawnChildClearSighand 4096 65536 { block := 0, addr := 65536 }
      (handedArgs 65536) (code.serve rested).2.2 (code.serve rested).1 (.fn 100 200 4 65560)
      (by decide) rfl made
  exact ⟨(code.serve rested).1, (code.serve rested).2.2, above, middle, served, last, found, made,
    follows, matched, serves, stands⟩

end InMemory

end Aspawn
