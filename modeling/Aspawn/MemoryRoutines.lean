import Aspawn.FindExe
import Aspawn.Lib.Memory
import Aspawn.Signal

/-! `pmemset` and `pmemcpy` of `syscall/memory.c` on the memory that a process and its
children share, and the objects that `syscall/signal.c` prepares with them. -/

set_option autoImplicit false

namespace Aspawn

namespace InMemory

/-! ## `syscall/memory.c` -/

/-- The loop of `pmemset` from index `i` on, with `left` passes to go. -/
def pmemsetFrom (p : UInt64) (c : UInt8) : Nat → UInt64 → Memory UInt8 → Memory UInt8
  | 0, _, memory => memory
  | left + 1, i, memory => pmemsetFrom p c left (i + 1) (Function.update memory (p + i) c)

/-- `c` is stored as a `char`. -/
def pmemset (memory : Memory UInt8) (s : UInt64) (c : Int) (n : UInt64) : Memory UInt8 :=
  pmemsetFrom s (UInt8.ofInt c) n.toNat 0 memory

/-- The loop of `pmemcpy` from index `i` on, with `left` passes to go. -/
def pmemcpyFrom (destp srcp : UInt64) : Nat → UInt64 → Memory UInt8 → Memory UInt8
  | 0, _, memory => memory
  | left + 1, i, memory =>
      pmemcpyFrom destp srcp left (i + 1) (Function.update memory (destp + i) (memory (srcp + i)))

def pmemcpy (memory : Memory UInt8) (dest src n : UInt64) : Memory UInt8 :=
  pmemcpyFrom dest src n.toNat 0 memory

/-! ## `syscall/signal.c` -/

def sizeofSigsetT : UInt64 := 128

def pureSigemptyset (memory : Memory UInt8) (set : UInt64) : Memory UInt8 :=
  pmemset memory set 0 sizeofSigsetT

def pureSigfillset (memory : Memory UInt8) (set : UInt64) : Memory UInt8 :=
  pmemset memory set (-1) sizeofSigsetT

/-- The object at `set`. -/
def loadSigset (memory : Memory UInt8) (set : UInt64) : SigsetT :=
  BitVec.ofNat 1024 (LittleEndian.decode (memory.read set 128))

/-- `sizeof(struct psys_kernel_sigaction)` -/
def sizeofPsysKernelSigaction : UInt64 := 8 + 8 + 8 + sizeofSigsetT

/-- What the kernel takes from a `struct psys_kernel_sigaction`: the handler, the flags, the
restorer and `NSIG_BYTES` bytes of the mask. -/
structure KernelSigaction where
  handler : Nat
  flags : Nat
  restorer : Nat
  mask : BitVec 64
  deriving DecidableEq

def loadKernelSigaction (memory : Memory UInt8) (act : UInt64) : KernelSigaction where
  handler := LittleEndian.decode (memory.read act 8)
  flags := LittleEndian.decode (memory.read (act + 8) 8)
  restorer := LittleEndian.decode (memory.read (act + 16) 8)
  mask := BitVec.ofNat 64 (LittleEndian.decode (memory.read (act + 24) 8))

/-- `SIG_DFL` is 0 and `SIG_IGN` is 1. -/
def KernelSigaction.disposition (action : KernelSigaction) : Disposition :=
  match action.handler with
  | 0 => .dfl
  | 1 => .ign
  | function => .handler function

/-- The object that `psys_sig_clear_handler` gives to the kernel. -/
def clearedSigaction (memory : Memory UInt8) (act : UInt64) : Memory UInt8 :=
  pmemset memory act 0 sizeofPsysKernelSigaction

/-! ## What the loops do -/

variable {memory : Memory UInt8} {s dest src n place set act i d : UInt64} {c : UInt8}

theorem pmemsetFrom_eq (left : Nat) (i : UInt64) : pmemsetFrom s c left i memory =
    memory.write (s + i) (List.replicate left c) := by
  induction left generalizing memory i with
  | zero => rfl
  | succ left ih =>
      rw [pmemsetFrom, ih, ← UInt64.add_assoc]
      rfl

theorem pmemset_eq (c : Int) : pmemset memory s c n =
    memory.write s (List.replicate n.toNat (UInt8.ofInt c)) := by
  rw [pmemset, pmemsetFrom_eq, UInt64.add_zero]

/-- The memory after `count` passes of `pmemcpy`: a place that was stored to holds what the
source held, or, where the source has been overwritten by then, what an earlier pass stored. -/
def copied (memory : Memory UInt8) (dest src : UInt64) (count : Nat) : Memory UInt8 :=
  fun place =>
    if Memory.Covers dest count place then memory (src + (place - dest) % (dest - src))
    else memory place

theorem sub_mod_self (inside : d ≤ i) : (i - d) % d = i % d := by
  apply UInt64.toNat_inj.mp
  rw [UInt64.toNat_mod, UInt64.toNat_mod, UInt64.toNat_sub_of_le _ _ inside,
    ← Nat.mod_eq_sub_mod (UInt64.le_iff_toNat_le.mp inside)]

theorem mod_of_lt_or_zero (outside : d = 0 ∨ i < d) : i % d = i := by
  apply UInt64.toNat_inj.mp
  rw [UInt64.toNat_mod]
  rcases outside with rfl | below
  · exact Nat.mod_zero _
  · exact Nat.mod_eq_of_lt (UInt64.lt_iff_toNat_lt.mp below)

/-- What a pass of the loop loads. -/
theorem copied_source : copied memory dest src i.toNat (src + i) =
    memory (src + i % (dest - src)) := by
  have offset : src + i - dest = i - (dest - src) := by
    grind
  simp only [copied, Memory.Covers, offset]
  split
  · rename_i overwritten
    have inside : dest - src ≤ i := by
      rw [UInt64.le_iff_toNat_le]
      rw [UInt64.toNat_sub] at overwritten
      have := i.toNat_lt
      have := (dest - src).toNat_lt
      omega
    rw [sub_mod_self inside]
  · rename_i fresh
    have outside : dest - src = 0 ∨ i < dest - src := by
      rw [UInt64.lt_iff_toNat_lt, ← UInt64.toNat_inj]
      rw [UInt64.toNat_sub] at fresh
      have := i.toNat_lt
      have := (dest - src).toNat_lt
      have : (0 : UInt64).toNat = 0 := rfl
      omega
    rw [mod_of_lt_or_zero outside]

theorem update_copied : Function.update (copied memory dest src i.toNat) (dest + i)
    (copied memory dest src i.toNat (src + i)) = copied memory dest src (i.toNat + 1) := by
  funext place
  rw [copied_source]
  by_cases here : place = dest + i
  · subst here
    have offset : dest + i - dest = i := by
      grind
    simp only [Function.update_self, copied, Memory.Covers, offset, if_pos (Nat.lt_succ_self _)]
  · rw [Function.update_of_ne here]
    have later : (place - dest).toNat ≠ i.toNat := by
      intro same
      apply here
      rw [← UInt64.toNat_inj.mp same]
      grind
    have both : Memory.Covers dest (i.toNat + 1) place ↔ Memory.Covers dest i.toNat place := by
      simp only [Memory.Covers]
      omega
    simp only [copied, both]

theorem pmemcpyFrom_eq (left : Nat) (bounded : i.toNat + left < 2 ^ 64) :
    pmemcpyFrom dest src left i (copied memory dest src i.toNat) =
      copied memory dest src (i.toNat + left) := by
  induction left generalizing i with
  | zero => rfl
  | succ left ih =>
      have next : (i + 1).toNat = i.toNat + 1 := by
        rw [UInt64.toNat_add, UInt64.toNat_one]
        omega
      rw [pmemcpyFrom, update_copied, ← next, ih (by omega), next]
      congr 1
      omega

/-- `pmemcpy` copies upwards. Where the destination lies above the source by less than the
length, the bytes in between are repeated; otherwise it copies the source as it was. -/
theorem pmemcpy_eq : pmemcpy memory dest src n = copied memory dest src n.toNat := by
  have start : copied memory dest src 0 = memory := by
    funext place
    exact if_neg (Nat.not_lt_zero _)
  have looped : pmemcpyFrom dest src n.toNat 0 (copied memory dest src 0) =
      copied memory dest src (0 + n.toNat) :=
    pmemcpyFrom_eq (i := 0) n.toNat (by rw [UInt64.toNat_zero, Nat.zero_add]; exact n.toNat_lt)
  rwa [start, Nat.zero_add] at looped

theorem pmemcpy_apart (apart : ∀ place, Memory.Covers dest n.toNat place →
      ¬ Memory.Covers src n.toNat place) :
    pmemcpy memory dest src n = memory.write dest (memory.read src n.toNat) := by
  funext place
  rw [pmemcpy_eq]
  simp only [copied]
  split
  · rename_i inside
    have some : 0 < n.toNat := Nat.zero_lt_of_lt inside
    have start : Memory.Covers dest n.toNat dest := by
      simpa only [Memory.Covers, UInt64.sub_self, UInt64.toNat_zero] using some
    have far := Nat.le_of_not_lt (apart dest start)
    have below : place - dest < dest - src :=
      UInt64.lt_iff_toNat_lt.mpr (Nat.lt_of_lt_of_le inside far)
    have within : (place - dest).toNat < (memory.read src n.toNat).length := by
      rwa [Memory.length_read]
    rw [mod_of_lt_or_zero (.inr below), Memory.write_of_covers _ within,
      Memory.getElem_read within, UInt64.ofNat_toNat]
    rw [Memory.length_read]
    exact n.toNat_lt.le
  · rename_i outside
    rw [Memory.write_of_not_covers (by rwa [Memory.length_read])]

/-- Every place of the destination ends up with the byte that the source had there. -/
def Moves (dest src n : UInt64) : Prop :=
  ∀ (memory : Memory UInt8) (place : UInt64), pmemcpy memory dest src n place =
    if Memory.Covers dest n.toNat place then memory (src + (place - dest)) else memory place

/-- What `pmemcpy` does wherever the two ranges lie, also if they overlap or wrap; it moves the
source exactly if no byte of it is overwritten before it is read. -/
theorem pmemcpy_moves_iff :
    (∀ (memory : Memory UInt8) (place : UInt64), pmemcpy memory dest src n place =
      if Memory.Covers dest n.toNat place then memory (src + (place - dest) % (dest - src))
      else memory place) ∧
    (Moves dest src n ↔ dest = src ∨ n ≤ dest - src) := by
  refine ⟨fun memory place => congrFun pmemcpy_eq place, fun moves => ?_,
    fun apart memory place => ?_⟩
  · by_contra overlapping
    obtain ⟨differ, near⟩ := not_or.mp overlapping
    have offset : dest + (dest - src) - dest = dest - src := by
      grind
    -- the first place of the source that is overwritten before it is read
    have overwritten : src + (dest - src) = dest := by
      grind
    have inside : Memory.Covers dest n.toNat (dest + (dest - src)) := by
      rw [Memory.Covers, offset]
      exact Nat.lt_of_not_le fun far => near (UInt64.le_iff_toNat_le.mpr far)
    let memory : Memory UInt8 := fun place => if place = dest then 1 else 0
    have moved := moves memory (dest + (dest - src))
    rw [pmemcpy_eq, if_pos inside] at moved
    simp only [copied, if_pos inside, offset, UInt64.mod_self, UInt64.add_zero, overwritten,
      memory, if_neg (Ne.symm differ)] at moved
    cases moved
  · rw [pmemcpy_eq]
    simp only [copied]
    split
    · rename_i inside
      have whole : (place - dest) % (dest - src) = place - dest := by
        apply mod_of_lt_or_zero
        rcases apart with rfl | far
        · exact .inl (UInt64.sub_self _)
        · exact .inr (UInt64.lt_iff_toNat_lt.mpr
            (Nat.lt_of_lt_of_le inside (UInt64.le_iff_toNat_le.mp far)))
      rw [whole]
    · rfl

/-! ## The copy between objects -/

section Objects

variable {count size index destp : Nat} {byte : UInt8} {after : List UInt8}

theorem eq_of_load_read (loaded : Buffer.load (memory.read src count) index = some byte) :
    memory (src + UInt64.ofNat index) = byte := by
  obtain ⟨inside, loaded⟩ := List.getElem?_eq_some_iff.mp loaded
  rw [← loaded, Memory.getElem_read inside]

theorem lt_of_store_read
    (stored : Buffer.store (memory.read dest count) index byte = some after) : index < count := by
  rw [Buffer.store, Memory.length_read] at stored
  by_contra outside
  rw [if_neg outside] at stored
  cases stored

theorem covers_index (bounded : count ≤ 2 ^ 64) (inside : index < count) :
    Memory.Covers dest count (dest + UInt64.ofNat index) := by
  have offset : dest + UInt64.ofNat index - dest = UInt64.ofNat index := by
    grind
  rw [Memory.Covers, offset,
    UInt64.toNat_ofNat_of_lt' (by rw [UInt64.size]; exact Nat.lt_of_lt_of_le inside bounded)]
  exact inside

/-- A checked store to an object is a store to the memory that holds it. -/
theorem read_update_of_store (bounded : count ≤ 2 ^ 64)
    (stored : Buffer.store (memory.read dest count) index byte = some after) :
    Memory.read (Function.update memory (dest + UInt64.ofNat index) byte) dest count = after := by
  have inside : index < count := lt_of_store_read stored
  rw [Buffer.store, Memory.length_read, if_pos inside, Option.some.injEq] at stored
  subst stored
  apply List.ext_getElem
  · rw [Memory.length_read, List.length_set, Memory.length_read]
  · intro position within _
    have below : position < count := by rwa [Memory.length_read] at within
    rw [Memory.getElem_read within, List.getElem_set]
    split
    · rename_i here
      rw [here, Function.update_self]
    · rename_i differs
      have elsewhere : dest + UInt64.ofNat position ≠ dest + UInt64.ofNat index := by
        intro same
        have offsets : UInt64.ofNat position = UInt64.ofNat index := by
          grind
        have values := congrArg UInt64.toNat offsets
        rw [UInt64.toNat_ofNat_of_lt' (by rw [UInt64.size]; omega),
          UInt64.toNat_ofNat_of_lt' (by rw [UInt64.size]; omega)] at values
        exact differs values.symm
      rw [Function.update_of_ne elsewhere,
        Memory.getElem_read (by rwa [Memory.length_read])]

theorem pmemcpyFrom_objects {left i : Nat} (bounded : count ≤ 2 ^ 64)
    (apart : ∀ place, Memory.Covers src size place → ¬ Memory.Covers dest count place)
    (copied : Aspawn.pmemcpyFrom destp (memory.read src size) left i (memory.read dest count) =
      some after) :
    (pmemcpyFrom (dest + UInt64.ofNat destp) src left (UInt64.ofNat i) memory).read dest count =
        after ∧
      ∀ place, ¬ Memory.Covers dest count place →
        pmemcpyFrom (dest + UInt64.ofNat destp) src left (UInt64.ofNat i) memory place =
          memory place := by
  induction left generalizing memory i with
  | zero =>
      cases copied
      exact ⟨rfl, fun _ _ => rfl⟩
  | succ left ih =>
      obtain ⟨byte, loaded, copied⟩ := Option.bind_eq_some_iff.mp copied
      obtain ⟨next, stored, copied⟩ := Option.bind_eq_some_iff.mp copied
      have inside : destp + i < count := lt_of_store_read stored
      have target : dest + UInt64.ofNat destp + UInt64.ofNat i =
          dest + UInt64.ofNat (destp + i) := by
        rw [UInt64.ofNat_add, UInt64.add_assoc]
      have successor : UInt64.ofNat i + 1 = UInt64.ofNat (i + 1) := (UInt64.ofNat_add i 1).symm
      have kept : Memory.read (Function.update memory (dest + UInt64.ofNat (destp + i)) byte) src
          size = memory.read src size := by
        refine Memory.read_congr fun place within => Function.update_of_ne ?_ ..
        rintro rfl
        exact apart _ within (covers_index bounded inside)
      rw [← kept, ← read_update_of_store bounded stored] at copied
      obtain ⟨held, outside⟩ := ih copied
      rw [pmemcpyFrom, target, successor, eq_of_load_read loaded]
      refine ⟨held, fun place elsewhere => (outside place elsewhere).trans ?_⟩
      refine Function.update_of_ne ?_ ..
      rintro rfl
      exact elsewhere (covers_index bounded inside)

/-- The `pmemcpy` that works on objects does to the memory that holds them what `pmemcpy` does
there, as long as it stays within the objects. -/
theorem pmemcpy_objects (bounded : count ≤ 2 ^ 64)
    (apart : ∀ place, Memory.Covers src size place → ¬ Memory.Covers dest count place)
    (copied : Aspawn.pmemcpy (memory.read dest count) destp (memory.read src size) n =
      some after) :
    (pmemcpy memory (dest + UInt64.ofNat destp) src n).read dest count = after ∧
      ∀ place, ¬ Memory.Covers dest count place →
        pmemcpy memory (dest + UInt64.ofNat destp) src n place = memory place :=
  pmemcpyFrom_objects bounded apart copied

end Objects

/-! ## Signal sets and actions -/

theorem read_pmemset {value : Int} {index count : Nat} (inside : index + count ≤ n.toNat) :
    (pmemset memory s value n).read (s + UInt64.ofNat index) count =
      List.replicate count (UInt8.ofInt value) := by
  have bounded := n.toNat_lt
  rw [pmemset_eq, Memory.read_write_part (by rwa [List.length_replicate])
    (by rwa [List.length_replicate]), List.drop_replicate, List.take_replicate]
  congr 1
  omega

theorem read_pmemset_start {value : Int} {count : Nat} (inside : count ≤ n.toNat) :
    (pmemset memory s value n).read s count = List.replicate count (UInt8.ofInt value) := by
  have part : (pmemset memory s value n).read (s + UInt64.ofNat 0) count =
      List.replicate count (UInt8.ofInt value) :=
    read_pmemset (by rwa [Nat.zero_add])
  rwa [show UInt64.ofNat 0 = 0 from rfl, UInt64.add_zero] at part

theorem loadSigset_pureSigemptyset : loadSigset (pureSigemptyset memory set) set = 0 := by
  have loaded : (pureSigemptyset memory set).read set 128 = List.replicate 128 0 :=
    read_pmemset_start (Nat.le_refl _)
  rw [loadSigset, loaded, LittleEndian.decode_replicate_zero]
  rfl

theorem loadSigset_pureSigfillset :
    loadSigset (pureSigfillset memory set) set = Aspawn.pureSigfillset := by
  have loaded : (pureSigfillset memory set).read set 128 = List.replicate 128 255 :=
    read_pmemset_start (Nat.le_refl _)
  have bits : 8 * 128 = 1024 := rfl
  have ones (width : Nat) : BitVec.ofNat width (2 ^ width - 1) = BitVec.allOnes width := by
    apply BitVec.eq_of_toNat_eq
    rw [BitVec.toNat_ofNat, BitVec.toNat_allOnes, Nat.mod_eq_of_lt]
    exact Nat.sub_lt (Nat.two_pow_pos _) Nat.one_pos
  rw [loadSigset, loaded, LittleEndian.decode_replicate_ones, bits]
  exact ones 1024

theorem read_sigset : memory.read set 128 = memory.read set 8 ++ memory.read (set + 8) 120 :=
  @Memory.read_add _ memory set 8 120

theorem decode_sigset : LittleEndian.decode (memory.read set 128) =
    LittleEndian.decode (memory.read set 8) +
      2 ^ 64 * LittleEndian.decode (memory.read (set + 8) 120) := by
  rw [read_sigset, LittleEndian.decode_append, Memory.length_read]

theorem decode_sigset_lt : LittleEndian.decode (memory.read set 128) < 2 ^ 1024 := by
  have bits : 8 * 128 = 1024 := rfl
  have below : LittleEndian.decode (memory.read set 128) <
      2 ^ (8 * (memory.read set 128).length) := LittleEndian.decode_lt
  rwa [Memory.length_read, bits] at below

theorem toNat_ofNat_of_lt {width value : Nat} (fits : value < 2 ^ width) :
    (BitVec.ofNat width value).toNat = value := by
  rw [BitVec.toNat_ofNat, Nat.mod_eq_of_lt fits]

theorem encode_loadSigset :
    LittleEndian.encode 128 (loadSigset memory set).toNat = memory.read set 128 := by
  have encoded : LittleEndian.encode (memory.read set 128).length
      (LittleEndian.decode (memory.read set 128)) = memory.read set 128 :=
    LittleEndian.encode_decode
  rw [Memory.length_read] at encoded
  rw [loadSigset, toNat_ofNat_of_lt decode_sigset_lt, encoded]

theorem decode_encode_toNat {count : Nat} (value : BitVec (8 * count)) :
    LittleEndian.decode (LittleEndian.encode count value.toNat) = value.toNat :=
  LittleEndian.decode_encode_of_lt value.isLt

theorem loadSigset_of_encode {sigset : SigsetT}
    (lies : memory.read set 128 = LittleEndian.encode 128 sigset.toNat) :
    loadSigset memory set = sigset := by
  have value : LittleEndian.decode (LittleEndian.encode 128 sigset.toNat) = sigset.toNat :=
    @decode_encode_toNat 128 sigset
  rw [loadSigset, lies, value]
  exact BitVec.ofNat_toNat ..

/-- A system call that takes `NSIG_BYTES` bytes of a set takes its mask. -/
theorem read_loadSigset : Sigmask.read (loadSigset memory set) =
    BitVec.ofNat 64 (LittleEndian.decode (memory.read set 8)) := by
  rw [loadSigset, decode_sigset, Sigmask.read, BitVec.setWidth_ofNat_of_le (by decide)]
  apply BitVec.eq_of_toNat_eq
  rw [BitVec.toNat_ofNat, BitVec.toNat_ofNat, Nat.add_mul_mod_self_left]

/-- Replacing the low bits of a number. -/
theorem ofNat_replace {width bits low old high : Nat} (lowFits : low < 2 ^ bits)
    (oldFits : old < 2 ^ bits) (before : old + 2 ^ bits * high < 2 ^ width)
    (after : low + 2 ^ bits * high < 2 ^ width) :
    BitVec.ofNat width (low + 2 ^ bits * high) =
      BitVec.ofNat width (old + 2 ^ bits * high) >>> bits <<< bits ||| BitVec.ofNat width low := by
  have shifted : (old + 2 ^ bits * high) / 2 ^ bits = high := by
    rw [Nat.add_mul_div_left _ _ (Nat.two_pow_pos bits), Nat.div_eq_of_lt oldFits, Nat.zero_add]
  have highFits : 2 ^ bits * high < 2 ^ width := Nat.lt_of_le_of_lt (Nat.le_add_left ..) after
  have lowWide : low < 2 ^ width := Nat.lt_of_le_of_lt (Nat.le_add_right ..) after
  apply BitVec.eq_of_toNat_eq
  rw [BitVec.toNat_or, BitVec.toNat_shiftLeft, BitVec.toNat_ushiftRight, BitVec.toNat_ofNat,
    BitVec.toNat_ofNat, BitVec.toNat_ofNat, Nat.mod_eq_of_lt before, Nat.mod_eq_of_lt after,
    Nat.mod_eq_of_lt lowWide, Nat.shiftRight_eq_div_pow, shifted, Nat.shiftLeft_eq,
    Nat.mul_comm high, Nat.mod_eq_of_lt highFits, ← Nat.two_pow_add_eq_or_of_lt lowFits,
    Nat.add_comm]

/-- A system call that stores an old mask overwrites `NSIG_BYTES` bytes of the object. -/
theorem loadSigset_write {mask : Sigmask} :
    loadSigset (memory.write set (LittleEndian.encode 8 mask.bits.toNat)) set =
      mask.write (loadSigset memory set) := by
  let after := memory.write set (LittleEndian.encode 8 mask.bits.toNat)
  have length : (LittleEndian.encode 8 mask.bits.toNat).length = 8 := LittleEndian.length_encode
  have stored : after.read set 8 = LittleEndian.encode 8 mask.bits.toNat := by
    have loaded : after.read set (LittleEndian.encode 8 mask.bits.toNat).length =
        LittleEndian.encode 8 mask.bits.toNat :=
      Memory.read_write (by rw [length]; decide)
    rwa [length] at loaded
  have kept : after.read (set + 8) 120 = memory.read (set + 8) 120 := by
    refine Memory.read_write_apart fun place later => ?_
    rw [length]
    exact Memory.not_covers_of_after (by decide) later
  have low : LittleEndian.decode (LittleEndian.encode 8 mask.bits.toNat) = mask.bits.toNat :=
    LittleEndian.decode_encode_of_lt mask.bits.isLt
  have old : LittleEndian.decode (memory.read set 8) < 2 ^ 64 := by
    have below : LittleEndian.decode (memory.read set 8) < 2 ^ (8 * (memory.read set 8).length) :=
      LittleEndian.decode_lt
    rwa [Memory.length_read] at below
  have boundedBefore : LittleEndian.decode (memory.read set 128) < 2 ^ 1024 := decode_sigset_lt
  have boundedAfter : LittleEndian.decode (after.read set 128) < 2 ^ 1024 := decode_sigset_lt
  rw [decode_sigset] at boundedBefore
  rw [decode_sigset, stored, kept, low] at boundedAfter
  have replaced := ofNat_replace mask.bits.isLt old boundedBefore boundedAfter
  rw [Sigmask.write, loadSigset, loadSigset, decode_sigset, stored, kept, low, replaced,
    decode_sigset, BitVec.ofNat_toNat]

/-- What the kernel sees is the action that resets a signal. -/
theorem loadKernelSigaction_cleared : loadKernelSigaction (clearedSigaction memory act) act =
    { handler := 0, flags := 0, restorer := 0, mask := 0 } := by
  have handler : LittleEndian.decode ((clearedSigaction memory act).read act 8) = 0 := by
    rw [clearedSigaction, read_pmemset_start (by decide)]
    exact LittleEndian.decode_replicate_zero
  have field (index : Nat) (inside : index + 8 ≤ 152) :
      LittleEndian.decode ((clearedSigaction memory act).read (act + UInt64.ofNat index) 8) =
        0 := by
    rw [clearedSigaction, read_pmemset inside]
    exact LittleEndian.decode_replicate_zero
  have flags : LittleEndian.decode ((clearedSigaction memory act).read (act + 8) 8) = 0 :=
    field 8 (by decide)
  have restorer : LittleEndian.decode ((clearedSigaction memory act).read (act + 16) 8) = 0 :=
    field 16 (by decide)
  have mask : LittleEndian.decode ((clearedSigaction memory act).read (act + 24) 8) = 0 :=
    field 24 (by decide)
  rw [loadKernelSigaction, handler, flags, restorer, mask]
  rfl

end InMemory

end Aspawn
