import Mathlib.Data.Fintype.Basic

/-! Signals, dispositions and signal masks. A `sigset_t` has 128 bytes, of which
system calls with a set size of 8 bytes read and write the first 64 bits. -/

set_option autoImplicit false

namespace Aspawn

/-- Signal number `index + 1`. -/
abbrev Signal := Fin 64

def SIGHUP : Signal := 0
def SIGKILL : Signal := 8
def SIGPIPE : Signal := 12
def SIGSTOP : Signal := 18

inductive Disposition where
  | dfl
  | ign
  | handler (function : Nat)
  deriving DecidableEq, Repr

def Disposition.isHandler : Disposition → Bool
  | .handler _ => true
  | _ => false

/-- The dispositions of a process. Those of `SIGKILL` and `SIGSTOP` cannot be changed. -/
structure SigTable where
  get : Signal → Disposition
  kill : get SIGKILL = .dfl
  stop : get SIGSTOP = .dfl

namespace SigTable

def default : SigTable where
  get _ := .dfl
  kill := rfl
  stop := rfl

/-- Change one disposition, where it can be changed. -/
def set (table : SigTable) (signal : Signal) (disposition : Disposition) : SigTable where
  get other :=
    if other = signal ∧ other ≠ SIGKILL ∧ other ≠ SIGSTOP then disposition
    else table.get other
  kill := by rw [if_neg (fun both => both.2.1 rfl), table.kill]
  stop := by rw [if_neg (fun both => both.2.2 rfl), table.stop]

/-- `CLONE_CLEAR_SIGHAND`: handlers become `SIG_DFL`, ignored signals stay ignored. -/
def clearHandlers (table : SigTable) : SigTable where
  get signal := if (table.get signal).isHandler then .dfl else table.get signal
  kill := by rw [table.kill]; rfl
  stop := by rw [table.stop]; rfl

variable {table other : SigTable} {signal : Signal}

@[ext] theorem ext (agree : ∀ signal, table.get signal = other.get signal) : table = other := by
  cases table
  cases other
  congr
  exact funext agree

theorem not_kill_of_isHandler (handled : (table.get signal).isHandler) :
    signal ≠ SIGKILL ∧ signal ≠ SIGSTOP := by
  constructor
  · rintro rfl
    rw [table.kill] at handled
    exact absurd handled (by decide)
  · rintro rfl
    rw [table.stop] at handled
    exact absurd handled (by decide)

/-- A change that installs no handler leaves no more of them. -/
theorem isHandler_of_set {disposition : Disposition} {changed : Signal}
    (harmless : ¬ disposition.isHandler)
    (handled : ((table.set changed disposition).get signal).isHandler) :
    (table.get signal).isHandler ∧ signal ≠ changed := by
  have blockable := not_kill_of_isHandler handled
  simp only [set] at handled
  split at handled
  · exact absurd handled harmless
  · rename_i other
    exact ⟨handled, fun same => other ⟨same, blockable⟩⟩

theorem not_isHandler_clearHandlers : ¬ (table.clearHandlers.get signal).isHandler := by
  simp only [clearHandlers]
  split
  · decide
  · assumption

end SigTable

/-! ## Masks -/

/-- A user-space `sigset_t`. -/
abbrev SigsetT := BitVec 1024

def pureSigfillset : SigsetT := BitVec.allOnes 1024

/-- The blocked signals of a thread. `SIGKILL` and `SIGSTOP` cannot be blocked. -/
structure Sigmask where
  bits : BitVec 64
  kill : bits.getLsbD SIGKILL = false
  stop : bits.getLsbD SIGSTOP = false
  deriving DecidableEq

namespace Sigmask

def unblockable : BitVec 64 := 1 <<< SIGKILL.val ||| 1 <<< SIGSTOP.val

def ofBits (bits : BitVec 64) : Sigmask where
  bits := bits &&& ~~~unblockable
  kill := by simp [unblockable, SIGKILL, SIGSTOP]
  stop := by simp [unblockable, SIGKILL, SIGSTOP]

def blocks (mask : Sigmask) (signal : Signal) : Bool := mask.bits.getLsbD signal

/-- The mask with every signal blocked that can be. -/
def full : Sigmask := ofBits (BitVec.allOnes 64)

/-- The part of a `sigset_t` that a system call reads. -/
def read (set : SigsetT) : BitVec 64 := set.setWidth 64

/-- A `sigset_t` after a system call wrote the mask to its first 8 bytes. -/
def write (mask : Sigmask) (object : SigsetT) : SigsetT :=
  object >>> 64 <<< 64 ||| mask.bits.setWidth 1024

variable {mask other : Sigmask}

@[ext] theorem ext (agree : mask.bits = other.bits) : mask = other := by
  cases mask
  cases other
  congr

theorem blockable_bit : ∀ signal : Signal, signal ≠ SIGKILL → signal ≠ SIGSTOP →
    (~~~unblockable).getLsbD signal = true := by
  decide

@[simp] theorem ofBits_bits (mask : Sigmask) : ofBits mask.bits = mask := by
  apply ext
  apply BitVec.eq_of_getLsbD_eq
  intro index inside
  have bit : (ofBits mask.bits).bits.getLsbD index =
      (mask.bits.getLsbD index && (~~~unblockable).getLsbD index) := BitVec.getLsbD_and
  rw [bit]
  by_cases kill : (⟨index, inside⟩ : Signal) = SIGKILL
  · cases congrArg Fin.val kill
    exact mask.kill ▸ Bool.false_and _
  by_cases stop : (⟨index, inside⟩ : Signal) = SIGSTOP
  · cases congrArg Fin.val stop
    exact mask.stop ▸ Bool.false_and _
  · rw [blockable_bit ⟨index, inside⟩ kill stop, Bool.and_true]

@[simp] theorem read_write (mask : Sigmask) (object : SigsetT) :
    read (mask.write object) = mask.bits := by
  ext index inside
  simp [read, write]

@[simp] theorem ofBits_or_fill (bits : BitVec 64) :
    ofBits (bits ||| read pureSigfillset) = full := by
  have filled : read pureSigfillset = BitVec.allOnes 64 := by
    apply BitVec.eq_of_getLsbD_eq
    intro index inside
    have within : index < 1024 := inside.trans (by decide)
    simp only [read, pureSigfillset, BitVec.getLsbD_setWidth, BitVec.getLsbD_allOnes, inside,
      within, decide_true, Bool.and_true]
  rw [filled, BitVec.or_allOnes, full]

theorem full_blocks {signal : Signal} (blockable : signal ≠ SIGKILL ∧ signal ≠ SIGSTOP) :
    full.blocks signal = true := by
  revert signal
  decide

end Sigmask

end Aspawn
