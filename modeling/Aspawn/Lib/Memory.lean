import Mathlib.Logic.Function.Basic
import Mathlib.Algebra.Group.Nat.Defs

/-! Memory with 64-bit addresses. A range of addresses may wrap around the end of the address
space; consecutive stores and loads are seen as one `write` and one `read`. -/

set_option autoImplicit false

universe u

abbrev Memory (Cell : Type u) := UInt64 → Cell

namespace Memory

variable {Cell : Type u}

/-- Consecutive stores from `addr` on. -/
def write (memory : Memory Cell) (addr : UInt64) : List Cell → Memory Cell
  | [] => memory
  | cell :: rest => write (Function.update memory addr cell) (addr + 1) rest

/-- Consecutive loads from `addr` on. -/
def read (memory : Memory Cell) (addr : UInt64) : Nat → List Cell
  | 0 => []
  | count + 1 => memory addr :: read memory (addr + 1) count

/-- The place is one of the `count` places from `addr` on. -/
def Covers (addr : UInt64) (count : Nat) (place : UInt64) : Prop :=
  (place - addr).toNat < count

instance (addr : UInt64) (count : Nat) (place : UInt64) : Decidable (Covers addr count place) :=
  inferInstanceAs (Decidable (_ < _))

variable {memory other : Memory Cell} {addr place : UInt64} {cells first second : List Cell}
  {count index : Nat}

/-! ## Ranges -/

theorem covers_self : Covers addr (count + 1) addr := by
  simp [Covers]

theorem covers_succ (inside : Covers (addr + 1) count place) : Covers addr (count + 1) place := by
  simp only [Covers, UInt64.toNat_sub, UInt64.toNat_add, UInt64.toNat_one] at inside ⊢
  have := addr.toNat_lt
  have := place.toNat_lt
  omega

/-- A range that does not go all around leaves out the place before it. -/
theorem not_covers_before (bounded : count < 2 ^ 64) : ¬ Covers (addr + 1) count addr := by
  simp only [Covers, UInt64.toNat_sub, UInt64.toNat_add, UInt64.toNat_one]
  have := addr.toNat_lt
  omega

theorem Covers.mono {more : Nat} (inside : Covers addr count place) (fewer : count ≤ more) :
    Covers addr more place :=
  Nat.lt_of_lt_of_le inside fewer

/-- A part of a range lies inside it. -/
theorem covers_of_part (inside : Covers (addr + UInt64.ofNat index) count place) :
    Covers addr (index + count) place := by
  simp only [Covers, UInt64.toNat_sub, UInt64.toNat_add, UInt64.toNat_ofNat'] at inside ⊢
  have := addr.toNat_lt
  have := place.toNat_lt
  omega

/-- What follows a range lies outside it. -/
theorem not_covers_of_after (bounded : index + count ≤ 2 ^ 64)
    (after : Covers (addr + UInt64.ofNat index) count place) : ¬ Covers addr index place := by
  simp only [Covers, UInt64.toNat_sub, UInt64.toNat_add, UInt64.toNat_ofNat'] at after ⊢
  have := addr.toNat_lt
  have := place.toNat_lt
  omega

/-- A range that does not wrap is an interval. -/
theorem covers_iff (bounded : addr.toNat + count ≤ 2 ^ 64) :
    Covers addr count place ↔ addr.toNat ≤ place.toNat ∧ place.toNat < addr.toNat + count := by
  simp only [Covers, UInt64.toNat_sub]
  have := addr.toNat_lt
  have := place.toNat_lt
  omega

/-- Ranges that do not wrap lie apart if one ends before the other starts. -/
theorem apart_of_le {elsewhere : UInt64} {more : Nat}
    (below : addr.toNat + count ≤ elsewhere.toNat ∨ elsewhere.toNat + more ≤ addr.toNat)
    (bounded : addr.toNat + count ≤ 2 ^ 64) (within : elsewhere.toNat + more ≤ 2 ^ 64)
    (inside : Covers addr count place) : ¬ Covers elsewhere more place := by
  rw [covers_iff bounded] at inside
  rw [covers_iff within]
  omega

theorem sub_succ_toNat (later : place ≠ addr) :
    (place - addr).toNat = (place - (addr + 1)).toNat + 1 := by
  have differ : place.toNat ≠ addr.toNat := fun same => later (UInt64.toNat_inj.mp same)
  simp only [UInt64.toNat_sub, UInt64.toNat_add, UInt64.toNat_one]
  have := addr.toNat_lt
  have := place.toNat_lt
  omega

theorem add_succ (addr : UInt64) (count : Nat) :
    addr + UInt64.ofNat (count + 1) = addr + 1 + UInt64.ofNat count := by
  rw [UInt64.ofNat_add, UInt64.add_comm (UInt64.ofNat count), ← UInt64.add_assoc]
  rfl

/-! ## Stores and loads -/

/-- Stores leave every other place alone. -/
theorem write_of_not_covers (outside : ¬ Covers addr cells.length place) :
    memory.write addr cells place = memory place := by
  induction cells generalizing memory addr with
  | nil => rfl
  | cons cell rest ih =>
      have differ : place ≠ addr := by
        rintro rfl
        exact outside covers_self
      rw [write, ih fun inside => outside (covers_succ inside)]
      exact Function.update_of_ne differ ..

theorem write_of_covers (bounded : cells.length ≤ 2 ^ 64)
    (inside : (place - addr).toNat < cells.length) :
    memory.write addr cells place = cells[(place - addr).toNat] := by
  induction cells generalizing memory addr with
  | nil => cases inside
  | cons cell rest ih =>
      rw [write]
      by_cases same : place = addr
      · subst same
        rw [write_of_not_covers (not_covers_before bounded)]
        simp
      · have next := sub_succ_toNat same
        have inside : (place - (addr + 1)).toNat < rest.length := by
          rw [next] at inside
          exact Nat.lt_of_succ_lt_succ inside
        rw [ih (Nat.le_of_succ_le bounded) inside]
        simp only [next, List.getElem_cons_succ]

@[simp] theorem length_read : (memory.read addr count).length = count := by
  induction count generalizing addr with
  | zero => rfl
  | succ count ih => rw [read, List.length_cons, ih]

theorem getElem_read (inside : index < (memory.read addr count).length) :
    (memory.read addr count)[index] = memory (addr + UInt64.ofNat index) := by
  induction count generalizing addr index with
  | zero => cases inside
  | succ count ih =>
      cases index with
      | zero => simp [read]
      | succ index =>
          rw [add_succ]
          exact ih (Nat.lt_of_succ_lt_succ inside)

theorem read_congr (agree : ∀ place, Covers addr count place → memory place = other place) :
    memory.read addr count = other.read addr count := by
  induction count generalizing addr with
  | zero => rfl
  | succ count ih =>
      rw [read, read, agree addr covers_self,
        ih fun place inside => agree place (covers_succ inside)]

/-- What was stored is loaded. -/
theorem read_write (bounded : cells.length ≤ 2 ^ 64) :
    (memory.write addr cells).read addr cells.length = cells := by
  induction cells generalizing memory addr with
  | nil => rfl
  | cons cell rest ih =>
      have kept : write (Function.update memory addr cell) (addr + 1) rest addr = cell := by
        rw [write_of_not_covers (not_covers_before bounded), Function.update_self]
      simp only [List.length_cons, read, write, kept, ih (Nat.le_of_succ_le bounded)]

/-- A part of what was stored is loaded. -/
theorem read_write_part (bounded : cells.length < 2 ^ 64) (inside : index + count ≤ cells.length) :
    (memory.write addr cells).read (addr + UInt64.ofNat index) count =
      (cells.drop index).take count := by
  apply List.ext_getElem
  · rw [length_read, List.length_take, List.length_drop]
    omega
  · intro position within _
    have below : position < count := by rwa [length_read] at within
    have offset : (addr + UInt64.ofNat index + UInt64.ofNat position - addr).toNat =
        index + position := by
      have cancel : addr + UInt64.ofNat index + UInt64.ofNat position - addr =
          UInt64.ofNat (index + position) := by
        rw [UInt64.ofNat_add]
        grind
      rw [cancel, UInt64.toNat_ofNat_of_lt' (by rw [UInt64.size]; omega)]
    have among : index + position < cells.length := by omega
    rw [getElem_read within, write_of_covers (Nat.le_of_lt bounded) (offset ▸ among),
      List.getElem_take, List.getElem_drop]
    simp only [offset]

/-- Loads do not see stores elsewhere. -/
theorem read_write_apart {elsewhere : UInt64}
    (apart : ∀ place, Covers addr count place → ¬ Covers elsewhere cells.length place) :
    (memory.write elsewhere cells).read addr count = memory.read addr count :=
  read_congr fun place inside => write_of_not_covers (apart place inside)

theorem write_append : memory.write addr (first ++ second) =
    (memory.write addr first).write (addr + UInt64.ofNat first.length) second := by
  induction first generalizing memory addr with
  | nil => simp [write]
  | cons cell rest ih => rw [List.cons_append, write, ih, write, List.length_cons, add_succ]

theorem read_add {more : Nat} : memory.read addr (count + more) =
    memory.read addr count ++ memory.read (addr + UInt64.ofNat count) more := by
  induction count generalizing addr with
  | zero => simp [read]
  | succ count ih =>
      rw [Nat.succ_add, read, ih, read, List.cons_append, add_succ]

theorem read_eq_append_iff {more : Nat} (length : first.length = count) :
    memory.read addr (count + more) = first ++ second ↔
      memory.read addr count = first ∧
        memory.read (addr + UInt64.ofNat count) more = second := by
  rw [read_add]
  constructor
  · intro same
    exact List.append_inj same (length_read.trans length.symm)
  · rintro ⟨rfl, rfl⟩
    rfl

end Memory

/-! ## Numbers as bytes -/

namespace LittleEndian

/-- The lowest bytes of a number, the least significant first. -/
def encode : Nat → Nat → List UInt8
  | 0, _ => []
  | count + 1, value => UInt8.ofNat value :: encode count (value / 256)

def decode : List UInt8 → Nat
  | [] => 0
  | byte :: rest => byte.toNat + 256 * decode rest

variable {count value : Nat}

@[simp] theorem length_encode : (encode count value).length = count := by
  induction count generalizing value with
  | zero => rfl
  | succ count ih => rw [encode, List.length_cons, ih]

theorem decode_append {first second : List UInt8} : decode (first ++ second) =
    decode first + 2 ^ (8 * first.length) * decode second := by
  induction first with
  | nil => simp [decode]
  | cons byte rest ih =>
      rw [List.cons_append, decode, ih, decode, List.length_cons, Nat.mul_succ, Nat.add_comm _ 8,
        Nat.pow_add, Nat.mul_assoc, Nat.mul_add, Nat.add_assoc]

theorem decode_lt {bytes : List UInt8} : decode bytes < 2 ^ (8 * bytes.length) := by
  induction bytes with
  | nil => exact Nat.one_pos
  | cons byte rest ih =>
      have := byte.toNat_lt
      rw [decode, List.length_cons, Nat.mul_succ, Nat.pow_add]
      omega

theorem decode_replicate_zero : decode (List.replicate count 0) = 0 := by
  induction count with
  | zero => rfl
  | succ count ih => rw [List.replicate_succ, decode, ih]; rfl

theorem decode_replicate_ones : decode (List.replicate count 255) = 2 ^ (8 * count) - 1 := by
  induction count with
  | zero => rfl
  | succ count ih =>
      have positive : 0 < 2 ^ (8 * count) := Nat.two_pow_pos _
      have ones : (255 : UInt8).toNat = 255 := rfl
      rw [List.replicate_succ, decode, ih, ones, Nat.mul_succ, Nat.pow_add]
      omega

theorem encode_decode {bytes : List UInt8} : encode bytes.length (decode bytes) = bytes := by
  induction bytes with
  | nil => rfl
  | cons byte rest ih =>
      have low : UInt8.ofNat (byte.toNat + 256 * decode rest) = byte := by
        apply UInt8.toNat_inj.mp
        have below := byte.toNat_lt
        rw [UInt8.toNat_ofNat', Nat.add_mul_mod_self_left, Nat.mod_eq_of_lt below]
      have high : (byte.toNat + 256 * decode rest) / 256 = decode rest := by
        have below := byte.toNat_lt
        omega
      rw [List.length_cons, decode, encode, low, high, ih]

theorem decode_encode : decode (encode count value) = value % 2 ^ (8 * count) := by
  induction count generalizing value with
  | zero => rw [encode, decode, Nat.mul_zero, Nat.pow_zero, Nat.mod_one]
  | succ count ih =>
      have low : (UInt8.ofNat value).toNat = value % 2 ^ 8 := UInt8.toNat_ofNat' ..
      rw [encode, decode, ih, low, Nat.mul_succ, Nat.add_comm _ 8, Nat.pow_add, Nat.mod_mul]

theorem decode_encode_of_lt (fits : value < 2 ^ (8 * count)) :
    decode (encode count value) = value := by
  rw [decode_encode, Nat.mod_eq_of_lt fits]

/-! ## Words in memory -/

/-- The 64-bit words, one after the other. -/
def encodeWords (words : List UInt64) : List UInt8 :=
  words.flatMap fun word => encode 8 word.toNat

def readWords (memory : Memory UInt8) (addr : UInt64) : Nat → List UInt64
  | 0 => []
  | count + 1 =>
      UInt64.ofNat (decode (memory.read addr 8)) :: readWords memory (addr + 8) count

variable {memory : Memory UInt8} {addr : UInt64} {words : List UInt64}

theorem encodeWords_cons {word : UInt64} :
    encodeWords (word :: words) = encode 8 word.toNat ++ encodeWords words := rfl

theorem length_encodeWords : (encodeWords words).length = 8 * words.length := by
  induction words with
  | nil => rfl
  | cons word rest ih =>
      rw [encodeWords_cons, List.length_append, length_encode, ih, List.length_cons]
      omega

/-- What was stored as words is read as words. -/
theorem readWords_write (bounded : 8 * words.length ≤ 2 ^ 64) :
    readWords (memory.write addr (encodeWords words)) addr words.length = words := by
  induction words generalizing memory addr with
  | nil => rfl
  | cons word rest ih =>
      have length : (encode 8 word.toNat).length = 8 := length_encode
      have bounded : 8 + 8 * rest.length ≤ 2 ^ 64 := by
        rw [List.length_cons] at bounded
        omega
      have split : memory.write addr (encodeWords (word :: rest)) =
          (memory.write addr (encode 8 word.toNat)).write (addr + 8) (encodeWords rest) := by
        rw [encodeWords_cons, Memory.write_append, length]
        rfl
      have kept : (memory.write addr (encodeWords (word :: rest))).read addr 8 =
          encode 8 word.toNat := by
        rw [split, Memory.read_write_apart fun place inside later => ?_]
        · have stored : (memory.write addr (encode 8 word.toNat)).read addr
              (encode 8 word.toNat).length = encode 8 word.toNat :=
            Memory.read_write (by rw [length]; decide)
          rwa [length] at stored
        · rw [length_encodeWords] at later
          have after : Memory.Covers (addr + UInt64.ofNat 8) (8 * rest.length) place := later
          exact Memory.not_covers_of_after bounded after inside
      rw [List.length_cons, readWords, kept, decode_encode_of_lt word.toNat_lt,
        UInt64.ofNat_toNat, split, ih (Nat.le_of_add_left_le bounded)]

end LittleEndian
