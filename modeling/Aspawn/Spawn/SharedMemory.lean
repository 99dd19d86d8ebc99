import Aspawn.MemoryRoutines
import Aspawn.Spawn.MachineProperties

/-! The bytes behind the variables of the system: the arguments of a child lie in memory that
its parent, the other threads and all other children go on writing to. -/

set_option autoImplicit false

namespace Aspawn

open Transition

/-! ## `struct aspawn_child_args` -/

/-- What `aspawn_impl` stores to `*args`; `oldSigset` is the pointer that it was given. -/
def storeChildArgs (memory : Memory UInt8) (args : UInt64) (pipefd : Nat × Nat) (fn arg : Nat)
    (oldSigset : UInt64) : Memory UInt8 :=
  let memory := memory.write args (LittleEndian.encode 4 pipefd.1)
  let memory := memory.write (args + 4) (LittleEndian.encode 4 pipefd.2)
  let memory := memory.write (args + 8) (LittleEndian.encode 8 fn)
  let memory := memory.write (args + 16) (LittleEndian.encode 8 arg)
  InMemory.pmemcpy memory (args + 24) oldSigset InMemory.sizeofSigsetT

/-- What `aspawn_child` finds at `args`. -/
def loadChildArgs (memory : Memory UInt8) (args : UInt64) : ChildArgs where
  pipefd := (LittleEndian.decode (memory.read args 4),
    LittleEndian.decode (memory.read (args + 4) 4))
  fn := LittleEndian.decode (memory.read (args + 8) 8)
  arg := LittleEndian.decode (memory.read (args + 16) 8)
  oldSigset := InMemory.loadSigset memory (args + 24)

namespace ChildArgs

/-- Descriptors are non-negative `int`s, and pointers have 8 bytes. -/
structure Fits (args : ChildArgs) : Prop where
  readEnd : args.pipefd.1 < 2 ^ 31
  writeEnd : args.pipefd.2 < 2 ^ 31
  fn : args.fn < 2 ^ 64
  arg : args.arg < 2 ^ 64

/-- The fields before `old_sigset`. -/
def encodeHead (args : ChildArgs) : List UInt8 :=
  LittleEndian.encode 4 args.pipefd.1 ++ (LittleEndian.encode 4 args.pipefd.2 ++
    (LittleEndian.encode 8 args.fn ++ LittleEndian.encode 8 args.arg))

def encode (args : ChildArgs) : List UInt8 :=
  args.encodeHead ++ LittleEndian.encode 128 args.oldSigset.toNat

variable {args : ChildArgs} {memory : Memory UInt8} {addr oldSigset : UInt64}

theorem length_encodeHead : args.encodeHead.length = 24 := by
  simp only [encodeHead, List.length_append, LittleEndian.length_encode]

theorem length_encode : args.encode.length = 152 := by
  rw [encode, List.length_append, length_encodeHead, LittleEndian.length_encode]

theorem write_encodeHead : memory.write addr args.encodeHead =
    (((memory.write addr (LittleEndian.encode 4 args.pipefd.1)).write (addr + 4)
      (LittleEndian.encode 4 args.pipefd.2)).write (addr + 8)
        (LittleEndian.encode 8 args.fn)).write (addr + 16) (LittleEndian.encode 8 args.arg) := by
  simp only [encodeHead, Memory.write_append, LittleEndian.length_encode]
  rw [UInt64.add_assoc addr, UInt64.add_assoc addr]
  rfl

/-- The object holds what the stores put there and the set that `old_sigset` points to. -/
theorem store_eq (holds : InMemory.loadSigset memory oldSigset = args.oldSigset)
    (apart : ∀ place, Memory.Covers addr 152 place → ¬ Memory.Covers oldSigset 128 place) :
    storeChildArgs memory addr args.pipefd args.fn args.arg oldSigset =
      memory.write addr args.encode := by
  have kept : (memory.write addr args.encodeHead).read oldSigset 128 =
      memory.read oldSigset 128 := by
    refine Memory.read_write_apart fun place inside within => ?_
    rw [length_encodeHead] at within
    exact apart place (within.mono (by decide)) inside
  have copied : InMemory.pmemcpy (memory.write addr args.encodeHead) (addr + 24) oldSigset
      InMemory.sizeofSigsetT = (memory.write addr args.encodeHead).write (addr + 24)
        ((memory.write addr args.encodeHead).read oldSigset 128) :=
    InMemory.pmemcpy_apart fun place inside => apart place (Memory.covers_of_part inside)
  rw [storeChildArgs, ← write_encodeHead, copied, kept, encode, Memory.write_append,
    length_encodeHead, ← holds, InMemory.encode_loadSigset]
  rfl

/-- What lies in memory is what is loaded. -/
theorem load_eq (fits : args.Fits) (lies : memory.read addr 152 = args.encode) :
    loadChildArgs memory addr = args := by
  have four {value : Nat} (fits : value < 2 ^ 31) :
      LittleEndian.decode (LittleEndian.encode 4 value) = value :=
    LittleEndian.decode_encode_of_lt (fits.trans (by decide))
  have eight {value : Nat} (fits : value < 2 ^ 64) :
      LittleEndian.decode (LittleEndian.encode 8 value) = value :=
    LittleEndian.decode_encode_of_lt fits
  have parts : memory.read addr (24 + 128) = args.encodeHead ++
      LittleEndian.encode 128 args.oldSigset.toNat := lies
  obtain ⟨head, oldSigset⟩ := (Memory.read_eq_append_iff length_encodeHead).mp parts
  have fields : memory.read addr (4 + (4 + (8 + 8))) = args.encodeHead := head
  obtain ⟨readEnd, rest⟩ := (Memory.read_eq_append_iff LittleEndian.length_encode).mp fields
  obtain ⟨writeEnd, rest⟩ := (Memory.read_eq_append_iff LittleEndian.length_encode).mp rest
  obtain ⟨fn, arg⟩ := (Memory.read_eq_append_iff LittleEndian.length_encode).mp rest
  rw [UInt64.add_assoc addr] at fn arg
  have readEnd : memory.read addr 4 = LittleEndian.encode 4 args.pipefd.1 := readEnd
  have writeEnd : memory.read (addr + 4) 4 = LittleEndian.encode 4 args.pipefd.2 := writeEnd
  have fn : memory.read (addr + 8) 8 = LittleEndian.encode 8 args.fn := fn
  have arg : memory.read (addr + 16) 8 = LittleEndian.encode 8 args.arg := by
    rw [UInt64.add_assoc addr] at arg
    exact arg
  have oldSigset : InMemory.loadSigset memory (addr + 24) = args.oldSigset :=
    InMemory.loadSigset_of_encode oldSigset
  rw [loadChildArgs, readEnd, writeEnd, fn, arg, oldSigset, four fits.readEnd,
    four fits.writeEnd, eight fits.fn, eight fits.arg]

end ChildArgs

/-! ## The machine with its bytes -/

/-- The memory that the processes share until they `execve` or exit. -/
structure SharedMachine where
  machine : Machine
  memory : Memory UInt8

inductive SharedAction where
  /-- `oldSigset` is the pointer that a call was given which places its arguments now. -/
  | system (action : System.Action) (oldSigset : UInt64)
  /-- `contents` is what the pages hold that the operation works on. -/
  | memory (task : TaskId) (op : SpaceOp) (contents : Memory UInt8)
  /-- A thread stores to memory, in user code or on its stack. -/
  | store (task : TaskId) (addr : UInt64) (bytes : List UInt8)

/-- What a call is about to place, and where. -/
def System.placing (system : System) : System.Action → Option (ArgsPtr × ChildArgs)
  | .code task _ =>
      match system.control task with
      | .inCall _ (.call (.storeArgs ptr args) _) => some (ptr, args)
      | _ => none
  | _ => none

namespace SharedMachine

/-- Pages that an operation neither maps, unmaps, moves nor fills keep their bytes. -/
def remapped (op : SpaceOp) (before after : SharedTable) (memory contents : Memory UInt8) :
    Memory UInt8 := fun place =>
  let owner := before (place.toNat / 4096)
  if owner = after (place.toNat / 4096) ∧ ∀ block ∈ op.block, owner ≠ .stack block then memory place
  else contents place

def step (shared : SharedMachine) : SharedAction → Option SharedMachine
  | .system action oldSigset =>
      match shared.machine.step (.system action) with
      | none => none
      | some machine => some {
          machine
          memory :=
            match shared.machine.system.placing action with
            | none => shared.memory
            | some (ptr, args) =>
                storeChildArgs shared.memory ptr.addr args.pipefd args.fn args.arg oldSigset }
  | .memory task op contents =>
      match shared.machine.step (.memory task op) with
      | none => none
      | some machine => some {
          machine
          memory := remapped op shared.machine.space.table machine.space.table shared.memory
            contents }
  | .store task addr bytes =>
      if (shared.machine.system.control task).isPresent then
        some { shared with memory := shared.memory.write addr bytes }
      else none

/-- The place belongs to the arguments of a call that is not over. -/
def InArgs (machine : Machine) (place : UInt64) : Prop :=
  ∃ call record, machine.system.calls call = some record ∧ ¬ machine.system.Over call record ∧
    record.progress.args.isSome ∧ Memory.Covers (argsAddr record.stack) 152 place

/-- Beside what careful user code heeds: `old_sigset` points to the set, apart from the place
of the arguments, and nobody stores to the arguments of a call that is not over. -/
def Discreet (shared : SharedMachine) : SharedAction → Prop
  | .system action oldSigset => shared.machine.Careful (.system action) ∧
      ∀ ptr args, shared.machine.system.placing action = some (ptr, args) →
        InMemory.loadSigset shared.memory oldSigset = args.oldSigset ∧
          ∀ place, Memory.Covers ptr.addr 152 place → ¬ Memory.Covers oldSigset 128 place
  | .memory task op _ => shared.machine.Careful (.memory task op)
  | .store _ addr bytes =>
      ∀ place, Memory.Covers addr bytes.length place → ¬ InArgs shared.machine place

end SharedMachine

/-! ## Who places arguments -/

namespace System

variable {system next : System} {task : TaskId} {call : Nat} {record : CallRecord}
  {action : Action} {ptr : ArgsPtr} {args : ChildArgs}

theorem placing_eq_some (placing : system.placing action = some (ptr, args)) :
    ∃ task choice call more, action = .code task choice ∧
      system.control task = .inCall call (.call (.storeArgs ptr args) more) := by
  cases action with
  | code task choice =>
      simp only [System.placing] at placing
      split at placing
      · rename_i call _ _ more running
        cases placing
        exact ⟨task, choice, call, more, rfl, running⟩
      · cases placing
  | _ => cases placing

theorem calls_of_placing {choice : Choice} {more : Unit → Program SysCalls Int}
    (running : system.control task = .inCall call (.call (.storeArgs ptr args) more))
    (known : system.calls call = some record)
    (stepped : system.step (.code task choice) = some next) :
    next.calls = Function.update system.calls call
      (some { record with progress := { record.progress with args := some args } }) := by
  simp only [step, running, known, handle] at stepped
  cases stepped
  rfl

/-- Arguments that nobody places now have been placed before. -/
theorem placed_before (wellFormed : system.WellFormed)
    (stepped : system.step action = some next) (none : system.placing action = none)
    (known : next.calls call = some record) (placed : record.progress.args = some args) :
    ∃ before, system.calls call = some before ∧ before.progress.args = some args := by
  cases progressFrom_of_step wellFormed stepped known with
  | same present kept => exact ⟨_, present, kept ▸ placed⟩
  | @request _ _ before _ _ _ _ code running present _ advanced =>
      rw [advanced] at placed
      rcases args_of_after before.kind before.block placed with earlier | ⟨ptr, rfl⟩
      · exact ⟨before, present, earlier⟩
      · rw [code] at none
        simp only [System.placing, running] at none
        cases none
  | started _ fresh =>
      rw [fresh] at placed
      cases placed

end System

/-! ## Where the arguments lie -/

namespace Machine

variable {machine next : Machine} {call other : Nat} {record found : CallRecord} {place : UInt64}

/-- The arguments of a call that is not over are the first object on its `Stack_t`. -/
theorem Sound.args_object (sound : machine.Sound)
    (known : machine.system.calls call = some record)
    (notOver : ¬ machine.system.Over call record)
    (covered : Memory.Covers (argsAddr record.stack) 152 place) :
    ∃ object ∈ (machine.space.view record.block).childObjects STACK_GROWS_DOWN,
      place.toNat ∈ Session.bytes object := by
  obtain ⟨reserved, stack⟩ := sound.held call record known notOver
  have mapped := sound.traced.mapped reserved
  have ends := mapped.addr_add_size
  have inSpace := mapped.inAddressSpace
  have same : (machine.space.view record.block).stack = record.stack := stack
  obtain ⟨_, _, high, _⟩ := mapped.child_split
  rw [same] at high ends
  have top : (argsAddr record.stack).toNat + 152 ≤
      record.stack.addr.toNat + record.stack.size.toNat := high
  have bounded : (argsAddr record.stack).toNat + 152 ≤ 2 ^ 64 := by omega
  refine ⟨((argsAddr record.stack).toNat, 152), ?_, (Memory.covers_iff bounded).mp covered⟩
  rw [← same]
  exact List.mem_cons_self

theorem Sound.args_page (sound : machine.Sound) (known : machine.system.calls call = some record)
    (notOver : ¬ machine.system.Over call record)
    (covered : Memory.Covers (argsAddr record.stack) 152 place) :
    machine.space.table (place.toNat / 4096) = .stack record.block := by
  obtain ⟨object, member, inside⟩ := sound.args_object known notOver covered
  have reserved := (sound.held call record known notOver).1
  exact sound.traced.mapping_own reserved
    ((sound.traced.mapped reserved).layout.objectsMapped object member inside)

/-- The arguments of two calls that are not over lie apart. -/
theorem Sound.args_apart (sound : machine.Sound) (known : machine.system.calls call = some record)
    (notOver : ¬ machine.system.Over call record)
    (also : machine.system.calls other = some found)
    (alsoNotOver : ¬ machine.system.Over other found) (distinct : call ≠ other)
    (covered : Memory.Covers (argsAddr record.stack) 152 place) :
    ¬ Memory.Covers (argsAddr found.stack) 152 place := by
  intro coveredToo
  have owner := (sound.args_page known notOver covered).symm.trans
    (sound.args_page also alsoNotOver coveredToo)
  exact distinct (sound.awaited.exclusive.alone known also (SharedOwner.stack.inj owner) notOver
    alsoNotOver)

/-- Memory operations leave the calls and their children alone. -/
theorem system_of_memory {task : TaskId} {op : SpaceOp}
    (stepped : machine.step (.memory task op) = some next) :
    next.system.calls = machine.system.calls ∧ next.system.birth = machine.system.birth ∧
      next.system.phase = machine.system.phase := by
  cases stepped_of_step stepped with
  | elsewhere => exact ⟨rfl, rfl, rfl⟩
  | stack _ _ written =>
      simp only [System.step] at written
      split at written
      · cases written
        exact ⟨rfl, rfl, rfl⟩
      · cases written

end Machine

namespace SharedMachine

variable {shared next start : SharedMachine}

/-- The bytes of the arguments of every call that is not over are those that it placed. -/
structure Intact (shared : SharedMachine) : Prop where
  sound : shared.machine.Sound
  args : ∀ call record args, shared.machine.system.calls call = some record →
    ¬ shared.machine.system.Over call record → record.progress.args = some args →
    shared.memory.read (argsAddr record.stack) 152 = args.encode

namespace Intact

theorem of_initial (initial : start.machine.Initial) : start.Intact where
  sound := .of_initial initial
  args call record args known := by
    rw [initial.system.calls] at known
    cases known

theorem storeStep {task : TaskId} {addr : UInt64} {bytes : List UInt8} (intact : shared.Intact)
    (discreet : shared.Discreet (.store task addr bytes)) :
    ({ shared with memory := shared.memory.write addr bytes } : SharedMachine).Intact where
  sound := intact.sound
  args call record args known notOver placed := by
    rw [← intact.args call record args known notOver placed]
    refine Memory.read_write_apart fun place covered stored => ?_
    exact discreet place stored
      ⟨call, record, known, notOver, Option.isSome_iff_exists.mpr ⟨args, placed⟩, covered⟩

theorem memoryStep {task : TaskId} {op : SpaceOp} {contents : Memory UInt8} {machine : Machine}
    (intact : shared.Intact) (careful : shared.machine.Careful (.memory task op))
    (stepped : shared.machine.step (.memory task op) = some machine) :
    ({ machine, memory := remapped op shared.machine.space.table machine.space.table shared.memory
        contents } : SharedMachine).Intact := by
  have soundNext := intact.sound.of_step careful stepped
  obtain ⟨calls, birth, phase⟩ := Machine.system_of_memory stepped
  refine ⟨soundNext, fun call record args known notOver placed => ?_⟩
  have knownBefore : shared.machine.system.calls call = some record := calls ▸ known
  have before : ¬ shared.machine.system.Over call record := by
    intro ended
    refine notOver ⟨ended.1, fun proc ⟨other, born, of⟩ live => ?_⟩
    exact ended.2 proc ⟨other, birth ▸ born, of⟩ (phase ▸ live)
  rw [← intact.args call record args knownBefore before placed]
  refine Memory.read_congr fun place covered => ?_
  have owner := intact.sound.args_page knownBefore before covered
  have ownerNext := soundNext.args_page known notOver covered
  refine if_pos ⟨owner.trans ownerNext.symm, fun block ofBlock same => ?_⟩
  have idle := careful.2 block ofBlock
  rw [owner] at same
  exact before (intact.sound.awaited.over_of_idle idle knownBefore (SharedOwner.stack.inj same))

/-- A call that is not over after a step of the system was not over before it, if it was
there. -/
theorem not_over_before {action : System.Action} {machine : Machine} {call : Nat}
    {record before : CallRecord} (intact : shared.Intact)
    (stepped : shared.machine.system.step action = some machine.system)
    (present : shared.machine.system.calls call = some before)
    (known : machine.system.calls call = some record)
    (notOver : ¬ machine.system.Over call record) :
    ¬ shared.machine.system.Over call before ∧ record.stack = before.stack := by
  have wellFormed := intact.sound.awaited.considerate.wellFormed
  constructor
  · intro ended
    obtain ⟨kept, stillOver⟩ := ended.kept wellFormed stepped present
    cases known.symm.trans kept
    exact notOver stillOver
  · obtain ⟨progress, returned, later, _⟩ :=
      (wellFormed.change stepped).record_kept wellFormed.numbered present
    cases known.symm.trans later
    rfl

theorem systemStep {action : System.Action} {oldSigset : UInt64} {machine : Machine}
    (intact : shared.Intact) (discreet : shared.Discreet (.system action oldSigset))
    (stepped : shared.machine.step (.system action) = some machine) :
    ({ machine
       memory :=
        match shared.machine.system.placing action with
        | none => shared.memory
        | some (ptr, args) => storeChildArgs shared.memory ptr.addr args.pipefd args.fn args.arg
            oldSigset } : SharedMachine).Intact := by
  have soundNext := intact.sound.of_step discreet.1 stepped
  refine ⟨soundNext, fun call record args known notOver placed => ?_⟩
  have wellFormed := intact.sound.awaited.considerate.wellFormed
  have performed : shared.machine.system.step action = some machine.system := by
    cases Machine.stepped_of_step stepped with
    | system _ performed => exact performed
  cases placing : shared.machine.system.placing action with
  | none =>
      obtain ⟨before, present, earlier⟩ :=
        System.placed_before wellFormed performed placing known placed
      obtain ⟨notOverBefore, stack⟩ := intact.not_over_before performed present known notOver
      rw [stack]
      exact intact.args call before args present notOverBefore earlier
  | some placement =>
      obtain ⟨ptr, stored⟩ := placement
      obtain ⟨holds, apart⟩ := discreet.2 ptr stored placing
      obtain ⟨task, choice, number, more, rfl, running⟩ := System.placing_eq_some placing
      obtain ⟨found, runs⟩ := wellFormed.threaded.inCall _ _ _ running
      have calls := System.calls_of_placing running runs.known performed
      have inFlight : ¬ shared.machine.system.Over number found :=
        fun ended => ended.1 runs.unreturned
      have addr : ptr.addr = argsAddr found.stack :=
        intact.sound.pointers.keeps.permits running runs.known
      have written := ChildArgs.store_eq holds apart
      have length := stored.length_encode
      by_cases own : call = number
      · cases own
        rw [calls, Function.update_self] at known
        cases known
        cases placed
        dsimp only
        rw [written, addr, ← length]
        exact Memory.read_write (by rw [length]; decide)
      · have present : shared.machine.system.calls call = some record := by
          rw [← known, calls, Function.update_of_ne own]
        obtain ⟨notOverBefore, _⟩ := intact.not_over_before performed present known notOver
        dsimp only
        rw [written, addr, ← intact.args call record args present notOverBefore placed]
        refine Memory.read_write_apart fun place covered => ?_
        rw [length]
        exact intact.sound.args_apart present notOverBefore runs.known inFlight own covered

theorem of_step {action : SharedAction} (intact : shared.Intact)
    (discreet : shared.Discreet action) (stepped : shared.step action = some next) :
    next.Intact := by
  cases action with
  | system action oldSigset =>
      simp only [step] at stepped
      split at stepped <;> cases stepped
      exact intact.systemStep discreet ‹_›
  | memory task op contents =>
      simp only [step] at stepped
      split at stepped <;> cases stepped
      exact intact.memoryStep discreet ‹_›
  | store task addr bytes =>
      simp only [step] at stepped
      split at stepped <;> cases stepped
      exact intact.storeStep discreet

end Intact

theorem intact_of_reaches (initial : start.machine.Initial)
    (reached : Reaches step Discreet start shared) : shared.Intact :=
  reached.invariant _ (.of_initial initial) .of_step

/-! ## Who keeps off the arguments -/

/-- Memory that belongs to no `Stack_t` holds no arguments. -/
theorem Intact.not_inArgs_of_page {place : UInt64} (intact : shared.Intact)
    (elsewhere : ∀ block, shared.machine.space.table (place.toNat / 4096) ≠ .stack block) :
    ¬ InArgs shared.machine place := by
  rintro ⟨call, record, known, notOver, _, covered⟩
  exact elsewhere _ (intact.sound.args_page known notOver covered)

/-- A child does not reach any arguments on the stack that it was given. -/
theorem Intact.not_inArgs_of_stack {proc : Nat} {birth : Birth} {place : UInt64}
    (intact : shared.Intact) (live : shared.machine.system.phase proc = .live)
    (born : shared.machine.system.birth proc = some birth)
    (onStack : place.toNat ∈
      Session.bytes ((shared.machine.space.view birth.args.block).childStack STACK_GROWS_DOWN)) :
    ¬ InArgs shared.machine place := by
  rintro ⟨call, record, known, notOver, _, covered⟩
  obtain ⟨reserved, _⟩ := intact.sound.childKept live born
  have layout := (intact.sound.traced.mapped reserved).layout
  have owner := intact.sound.traced.mapping_own reserved (layout.stackMapped onStack)
  have same := owner.symm.trans (intact.sound.args_page known notOver covered)
  obtain ⟨object, member, inside⟩ := intact.sound.args_object known notOver covered
  rw [← SharedOwner.stack.inj same] at member
  exact Set.disjoint_left.mp (layout.stackClear object member) inside onStack

/-- Whatever the processes store meanwhile off the arguments, and a child may use all of its
stack, every live child finds in memory the arguments that its own call placed. -/
theorem children_read_their_arguments (initial : start.machine.Initial)
    (reached : Reaches step Discreet start shared) :
    (∀ proc birth, shared.machine.system.phase proc = .live →
      shared.machine.system.birth proc = some birth →
      ∃ record args, shared.machine.system.calls birth.call = some record ∧
        record.progress.args = some args ∧
        shared.memory.read birth.args.addr 152 = args.encode ∧
        (args.Fits → loadChildArgs shared.memory birth.args.addr = args) ∧
        ∀ place : UInt64, place.toNat ∈ Session.bytes
            ((shared.machine.space.view birth.args.block).childStack STACK_GROWS_DOWN) →
          ¬ InArgs shared.machine place) ∧
    ∀ proc progress ptr more, shared.machine.system.control (mainTask proc) =
        .starting progress (.call (.loadArgs ptr) more) →
      (shared.machine.system.args ptr.block).Fits →
      loadChildArgs shared.memory ptr.addr = shared.machine.system.args ptr.block := by
  have intact := intact_of_reaches initial reached
  have lies (proc : Nat) (birth : Birth) (live : shared.machine.system.phase proc = .live)
      (born : shared.machine.system.birth proc = some birth) :
      ∃ record, shared.machine.system.calls birth.call = some record ∧
        record.progress.args = some (shared.machine.system.args birth.args.block) ∧
        shared.memory.read birth.args.addr 152 =
          (shared.machine.system.args birth.args.block).encode := by
    obtain ⟨_, kept⟩ := intact.sound.childKept live born
    obtain ⟨record, known, _, _, placed⟩ := kept.call
    have addr := (intact.sound.pointers.born proc birth record born known).1
    refine ⟨record, known, placed, ?_⟩
    rw [addr]
    exact intact.args _ _ _ known (fun ended => ended.2 proc ⟨birth, born, rfl⟩ live) placed
  constructor
  · intro proc birth live born
    obtain ⟨record, known, placed, same⟩ := lies proc birth live born
    exact ⟨record, _, known, placed, same, fun fits => ChildArgs.load_eq fits same,
      fun place => intact.not_inArgs_of_stack live born⟩
  · intro proc progress ptr more starting fits
    have wellFormed := intact.sound.awaited.considerate.wellFormed
    obtain ⟨birth, born, conforms⟩ := wellFormed.threaded.starting _ _ _ starting
    have reads : ptr = birth.args := conforms.1
    obtain ⟨_, _, _, same⟩ := lies proc birth (wellFormed.live_of_control starting rfl) born
    rw [reads] at fits ⊢
    exact ChildArgs.load_eq fits same

/-- A first call, with `old_sigset` below the arguments, and stores to free pages. -/
def Tame (shared : SharedMachine) : SharedAction → Prop
  | .memory _ op _ => shared.machine.space.Allowed op ∧ shared.machine.system.nextCall = 0
  | .system (.aspawn _ block _ _ _ _) _ =>
      shared.machine.space.Reserved block ∧ shared.machine.system.nextCall = 0
  | .system (.code task choice) oldSigset =>
      ∀ placement ∈ shared.machine.system.placing (.code task choice),
        InMemory.loadSigset shared.memory oldSigset = placement.2.oldSigset ∧
          oldSigset.toNat + 128 ≤ placement.1.addr.toNat ∧
          placement.1.addr.toNat + 152 ≤ 2 ^ 64
  | .system _ _ => False
  | .store _ addr bytes => ∀ index < bytes.length,
      shared.machine.space.table ((addr + UInt64.ofNat index).toNat / 4096) = .free

instance (shared : SharedMachine) : (action : SharedAction) → Decidable (shared.Tame action)
  | .memory _ _ _ => inferInstanceAs (Decidable (_ ∧ _))
  | .store _ _ _ => inferInstanceAs (Decidable (∀ _ < _, _))
  | .system (.aspawn _ _ _ _ _ _) _ => inferInstanceAs (Decidable (¬ _ ∧ _))
  | .system (.code task choice) _ =>
      inferInstanceAs (Decidable (∀ placement ∈ shared.machine.system.placing (.code task choice), _))
  | .system (.aspawnRec _ _ _ _ _ _) _ | .system (.finish _) _ | .system (.enter _) _
  | .system (.user _ _) _ | .system (.execve _) _ | .system (.exit _) _
  | .system (.raise _ _) _ | .system (.deliver _ _) _ => .isFalse id

theorem Intact.discreet_of_tame {action : SharedAction} (intact : shared.Intact)
    (tame : shared.Tame action) : shared.Discreet action := by
  have numbered := intact.sound.awaited.considerate.wellFormed.numbered
  have uncalled (none : shared.machine.system.nextCall = 0) (call : Nat) (record : CallRecord)
      (known : shared.machine.system.calls call = some record) : False := by
    have below := numbered.call_lt known
    omega
  cases action with
  | memory task op contents =>
      exact ⟨tame.1, fun block _ call record known => (uncalled tame.2 call record known).elim⟩
  | store task addr bytes =>
      intro place covered
      refine intact.not_inArgs_of_page fun block own => ?_
      have free := tame _ covered
      rw [UInt64.ofNat_toNat, UInt64.add_comm, UInt64.sub_add_cancel, own] at free
      cases free
  | system action oldSigset =>
      cases action with
      | aspawn task block fn arg pid oldset =>
          refine ⟨⟨System.waitsForHup_of_code rfl ?_, ?_⟩, fun ptr args placing => ?_⟩
          · intro kind other starts call record known
            exact (uncalled tame.2 call record known).elim
          · intro kind other starts
            cases starts
            exact tame.1
          · cases placing
      | code task choice =>
          refine ⟨⟨System.waitsForHup_of_code rfl (System.reusesAfterHup_of_not_starts rfl), ?_⟩,
            fun ptr args placing => ?_⟩
          · intro kind block starts
            cases starts
          · obtain ⟨holds, below, bounded⟩ := tame (ptr, args) placing
            refine ⟨holds, fun place covered within => ?_⟩
            have low := (Memory.covers_iff bounded).mp covered
            have high := (Memory.covers_iff (by omega)).mp within
            omega
      | _ => cases tame

/-- Thread 1 stores to a free page between the placing of the arguments and the birth. -/
def spawnBeside : List SharedAction :=
  let codes (choices : List System.Choice) :=
    (System.Action.codes (mainTask 0) choices).map (SharedAction.system · 4096)
  List.flatten [
    [.memory (mainTask 0) (.reserveStack 0 0 24 65536) fun _ => 0,
      .memory (mainTask 0) (.allocateObjOnStack 0 24) fun _ => 7,
      .system (.aspawn (mainTask 0) 0 100 200 0 0) 0],
    codes [.ok, .ok, .fds 3 4, .ok, .ok],
    [.store { proc := 0, thread := 1 } 8192 [1, 2, 3]],
    codes [.ok, .ok]]

theorem children_read_their_arguments_beside :
    ∃ shared birth, Reaches step Discreet { machine := .boot .default, memory := fun _ => 0 } shared ∧
      shared.machine.system.birth 1 = some birth ∧
      loadChildArgs shared.memory birth.args.addr =
        { pipefd := (3, 4), fn := 100, arg := 200, oldSigset := 0 } := by
  have completes : (run step { machine := .boot .default, memory := fun _ => 0 } spawnBeside).map
      (fun shared => (shared.machine.system.phase 1,
        (shared.machine.system.birth 1).map Birth.call,
        (shared.machine.system.calls 0).bind fun record => record.progress.args)) =
      some (.live, some 0,
        some { pipefd := (3, 4), fn := 100, arg := 200, oldSigset := 0 }) := by
    decide +kernel
  obtain ⟨shared, performed, values⟩ := Option.map_eq_some_iff.mp completes
  simp only [Prod.mk.injEq] at values
  obtain ⟨live, born, placed⟩ := values
  obtain ⟨birth, born, ofCall⟩ := Option.map_eq_some_iff.mp born
  have tame : Along step Tame { machine := .boot .default, memory := fun _ => 0 } spawnBeside := by
    decide +kernel
  obtain ⟨reached, _⟩ := (Reaches.of_run performed tame).strengthen Intact
    (.of_initial Machine.boot_initial)
    (fun intact tame stepped => intact.of_step (intact.discreet_of_tame tame) stepped)
    fun intact tame => intact.discreet_of_tame tame
  obtain ⟨record, args, known, here, _, loaded, _⟩ :=
    (children_read_their_arguments Machine.boot_initial reached).1 1 birth live born
  rw [ofCall] at known
  rw [known, Option.bind_some, here] at placed
  cases placed
  exact ⟨shared, birth, reached, born, loaded ⟨by decide, by decide, by decide, by decide⟩⟩

end SharedMachine

end Aspawn
