import Aspawn.FindExe
import Aspawn.Lib.Components

/-! What one call of `find_exe` does, and what repeated calls on one `*PATH` enumerate. -/

set_option autoImplicit false

namespace Aspawn

/-! ## Copying -/

theorem pmemcpyFrom_eq {src dest : List UInt8} {destp left i : Nat}
    (readable : i + left ≤ src.length) (writable : destp + i + left ≤ dest.length) :
    pmemcpyFrom destp src left i dest =
      some (Buffer.overwrite dest (destp + i) ((src.drop i).take left)) := by
  induction left generalizing i dest with
  | zero => simp [pmemcpyFrom]
  | succ left ih =>
      have stored : (Buffer.overwrite dest (destp + i) [src[i]]).length = dest.length :=
        Buffer.length_overwrite (by simp; omega)
      have more : (src.drop i).take (left + 1) = [src[i]] ++ (src.drop (i + 1)).take left := by
        rw [List.drop_eq_getElem_cons (by omega), List.take_succ_cons, List.singleton_append]
      simp only [pmemcpyFrom, Buffer.load_of_lt (show i < src.length by omega),
        Buffer.store_of_lt (show destp + i < dest.length by omega), Option.bind_eq_bind,
        Option.bind_some]
      rw [ih (by omega) (by omega), more, ← Buffer.overwrite_append (by simp; omega)]
      rfl

theorem pstrcpy_eq {src dest : List UInt8} {destp : Nat} {n : UInt64}
    (readable : n.toNat ≤ src.length) (writable : destp + n.toNat < dest.length) :
    pstrcpy dest destp src n = some (Buffer.overwrite dest destp (src.take n.toNat ++ [0])) := by
  have length : (src.take n.toNat).length = n.toNat := List.length_take_of_le readable
  have copied : (Buffer.overwrite dest destp (src.take n.toNat)).length = dest.length :=
    Buffer.length_overwrite (by omega)
  have all : pmemcpy dest destp src n =
      some (Buffer.overwrite dest destp (src.take n.toNat)) := by
    rw [pmemcpy, pmemcpyFrom_eq (by omega) (by omega), List.drop_zero, Nat.add_zero]
  have joined : Buffer.overwrite (Buffer.overwrite dest destp (src.take n.toNat))
      (destp + n.toNat) [0] = Buffer.overwrite dest destp (src.take n.toNat ++ [0]) := by
    rw [← Buffer.overwrite_append (by omega), length]
  rw [pstrcpy, all, Option.bind_eq_bind, Option.bind_some, Buffer.store_of_lt (by omega), joined]

/-! ## Positions in `PATH` -/

/-- The offset at which the rest of the string is `rest`. -/
def CString.Points (string : CString) (offset : Nat) (rest : List UInt8) : Prop :=
  ∃ before, string.bytes = before ++ rest ∧ before.length = offset

namespace CString

variable {string : CString} {offset : Nat} {byte : UInt8} {part rest : List UInt8}

theorem points_zero : string.Points 0 string.bytes := ⟨[], rfl, rfl⟩

theorem Points.add_length (points : string.Points offset rest) :
    offset + rest.length = string.bytes.length := by
  obtain ⟨before, split, rfl⟩ := points
  rw [split, List.length_append]

theorem Points.advance (points : string.Points offset (part ++ rest)) :
    string.Points (offset + part.length) rest := by
  obtain ⟨before, split, rfl⟩ := points
  exact ⟨before ++ part, by rw [split, List.append_assoc], List.length_append⟩

theorem Points.next (points : string.Points offset (byte :: rest)) :
    string.Points (offset + 1) rest :=
  (show string.Points offset ([byte] ++ rest) from points).advance

theorem Points.load_cons (points : string.Points offset (byte :: rest)) :
    Buffer.load string.memory offset = some byte := by
  obtain ⟨before, split, rfl⟩ := points
  simp [Buffer.load, memory, split]

theorem Points.load_nil (points : string.Points offset []) :
    Buffer.load string.memory offset = some 0 := by
  obtain ⟨before, split, rfl⟩ := points
  simp [Buffer.load, memory, split]

theorem Points.subset (points : string.Points offset rest) : rest ⊆ string.bytes := by
  obtain ⟨before, split, _⟩ := points
  rw [split]
  exact List.subset_append_right _ _

theorem Points.ne_nul (points : string.Points offset (byte :: rest)) : byte ≠ 0 := by
  obtain ⟨before, split, rfl⟩ := points
  intro nul
  exact string.noNul (by simp [split, nul])

end CString

/-! ## One call -/

variable {PATH : CString} {path fuel : Nat} {rest file constructedPath : List UInt8}
  {pathMaxLen fileLen i : UInt64}

theorem skipColons_spec (points : PATH.Points path rest) (enough : rest.length < fuel) :
    ∃ after, skipColons PATH.memory fuel path = some after ∧
      PATH.Points after (Components.skip colon rest) := by
  induction rest generalizing path fuel with
  | nil =>
      obtain ⟨fuel, rfl⟩ := Nat.exists_eq_add_one_of_ne_zero (Nat.ne_of_gt enough)
      refine ⟨path, ?_, points⟩
      have stop : (0 : UInt8) ≠ colon := by decide
      simp [skipColons, points.load_nil, stop]
  | cons byte rest ih =>
      obtain ⟨fuel, rfl⟩ :=
        Nat.exists_eq_add_one_of_ne_zero (Nat.ne_of_gt (Nat.zero_lt_of_lt enough))
      by_cases same : byte = colon
      · obtain ⟨after, ended, position⟩ := ih points.next (Nat.lt_of_succ_lt_succ enough)
        refine ⟨after, ?_, ?_⟩
        · simp [skipColons, points.load_cons, same, ended]
        · simpa [Components.skip, same] using position
      · refine ⟨path, ?_, ?_⟩
        · simp [skipColons, points.load_cons, same]
        · simpa [Components.skip, same] using points

theorem toNat_succ {i : UInt64} (small : i.toNat + 1 < 2 ^ 64) :
    (i + 1).toNat = i.toNat + 1 := by
  rw [UInt64.toNat_add, UInt64.toNat_one]
  exact Nat.mod_eq_of_lt small

/-! ### The copying loop, pass by pass -/

theorem copyComponent_stop {byte : UInt8}
    (loaded : Buffer.load PATH.memory (path + i.toNat) = some byte)
    (stops : byte = 0 ∨ byte = colon) :
    copyComponent PATH.memory path pathMaxLen (fuel + 1) i constructedPath =
      some (.ok (i, constructedPath)) := by
  have stop : ¬ (byte ≠ 0 ∧ byte ≠ colon) := by
    rcases stops with nul | same <;> simp [*]
  simp only [copyComponent, loaded, Option.bind_eq_bind, Option.bind_some, if_neg stop]

theorem copyComponent_overflow {byte : UInt8} (points : PATH.Points (path + i.toNat) (byte :: rest))
    (more : byte ≠ colon) (long : pathMaxLen.toNat < i.toNat + 1)
    (small : i.toNat + 1 < 2 ^ 64) :
    copyComponent PATH.memory path pathMaxLen (fuel + 1) i constructedPath =
      some (.error constructedPath) := by
  have tooLong : i + 1 > pathMaxLen := by
    rw [gt_iff_lt, UInt64.lt_iff_toNat_lt, toNat_succ small]
    exact long
  simp only [copyComponent, points.load_cons, Option.bind_eq_bind, Option.bind_some,
    if_pos (And.intro points.ne_nul more), if_pos tooLong]

theorem copyComponent_pass {byte : UInt8} (points : PATH.Points (path + i.toNat) (byte :: rest))
    (more : byte ≠ colon) (fits : i.toNat + 1 ≤ pathMaxLen.toNat)
    (room : pathMaxLen.toNat < constructedPath.length) :
    copyComponent PATH.memory path pathMaxLen (fuel + 1) i constructedPath =
      copyComponent PATH.memory path pathMaxLen fuel (i + 1)
        (Buffer.overwrite constructedPath i.toNat [byte]) := by
  have bounded := pathMaxLen.toNat_lt
  have within : ¬ i + 1 > pathMaxLen := by
    rw [gt_iff_lt, UInt64.lt_iff_toNat_lt, toNat_succ (by omega)]
    omega
  have inside : i.toNat < constructedPath.length := by omega
  simp only [copyComponent, points.load_cons, Option.bind_eq_bind, Option.bind_some,
    if_pos (And.intro points.ne_nul more), if_neg within, Buffer.store_of_lt inside]

theorem copyComponent_fits {part : List UInt8} {terminator : UInt8}
    (points : PATH.Points (path + i.toNat) (part ++ rest)) (clear : colon ∉ part)
    (ended : Buffer.load PATH.memory (path + i.toNat + part.length) = some terminator)
    (stops : terminator = 0 ∨ terminator = colon) (enough : part.length < fuel)
    (fits : i.toNat + part.length ≤ pathMaxLen.toNat)
    (room : pathMaxLen.toNat < constructedPath.length) :
    ∃ after, copyComponent PATH.memory path pathMaxLen fuel i constructedPath =
        some (.ok (after, Buffer.overwrite constructedPath i.toNat part)) ∧
      after.toNat = i.toNat + part.length := by
  induction part generalizing i fuel constructedPath with
  | nil =>
      obtain ⟨fuel, rfl⟩ := Nat.exists_eq_add_one_of_ne_zero (Nat.ne_of_gt enough)
      exact ⟨i, by rw [copyComponent_stop ended stops, Buffer.overwrite_nil], rfl⟩
  | cons byte part ih =>
      obtain ⟨fuel, rfl⟩ := Nat.exists_eq_add_one_of_ne_zero (Nat.ne_zero_of_lt enough)
      rw [List.length_cons] at fits enough ended
      have bounded := pathMaxLen.toNat_lt
      have more : byte ≠ colon := fun same => clear (same ▸ List.mem_cons_self)
      have succ : (i + 1).toNat = i.toNat + 1 := toNat_succ (by omega)
      have place : path + (i + 1).toNat + part.length = path + i.toNat + (part.length + 1) := by
        omega
      have inside : i.toNat + [byte].length ≤ constructedPath.length := by
        rw [List.length_singleton]
        omega
      have next : PATH.Points (path + (i + 1).toNat) (part ++ rest) := by
        rw [succ]
        exact points.next
      have stored := Buffer.length_overwrite inside
      obtain ⟨after, copied, reached⟩ :=
        ih next (fun member => clear (List.mem_cons_of_mem _ member))
        (place ▸ ended) (Nat.lt_of_succ_lt_succ enough) (by omega) (stored ▸ room)
      refine ⟨after, ?_, by rw [List.length_cons]; omega⟩
      have joined : Buffer.overwrite (Buffer.overwrite constructedPath i.toNat [byte])
          (i + 1).toNat part = Buffer.overwrite constructedPath i.toNat (byte :: part) := by
        rw [succ]
        exact Buffer.overwrite_append inside
      rw [copyComponent_pass points more (by omega) room, copied, joined]

/-- A part that does not fit is given up where the limit is reached. -/
theorem copyComponent_tooLong {part : List UInt8}
    (points : PATH.Points (path + i.toNat) (part ++ rest)) (clear : colon ∉ part)
    (enough : part.length < fuel) (long : pathMaxLen.toNat < i.toNat + part.length)
    (started : i.toNat ≤ pathMaxLen.toNat) (small : i.toNat + part.length < 2 ^ 64)
    (room : pathMaxLen.toNat < constructedPath.length) :
    copyComponent PATH.memory path pathMaxLen fuel i constructedPath =
      some (.error (Buffer.overwrite constructedPath i.toNat
        (part.take (pathMaxLen.toNat - i.toNat)))) := by
  induction part generalizing i fuel constructedPath with
  | nil => exact absurd started (by simpa using long)
  | cons byte part ih =>
      obtain ⟨fuel, rfl⟩ := Nat.exists_eq_add_one_of_ne_zero (Nat.ne_zero_of_lt enough)
      rw [List.length_cons] at enough long small
      have more : byte ≠ colon := fun same => clear (same ▸ List.mem_cons_self)
      have succ : (i + 1).toNat = i.toNat + 1 := toNat_succ (by omega)
      by_cases overflow : pathMaxLen.toNat < i.toNat + 1
      · have reached : pathMaxLen.toNat - i.toNat = 0 := by omega
        rw [copyComponent_overflow points more overflow (by omega), reached, List.take_zero,
          Buffer.overwrite_nil]
      · have inside : i.toNat + [byte].length ≤ constructedPath.length := by
          rw [List.length_singleton]
          omega
        have next : PATH.Points (path + (i + 1).toNat) (part ++ rest) := by
          rw [succ]
          exact points.next
        have stored := Buffer.length_overwrite inside
        have stopped := ih next (fun member => clear (List.mem_cons_of_mem _ member))
          (Nat.lt_of_succ_lt_succ enough) (by omega) (by omega) (by omega) (stored ▸ room)
        have before : pathMaxLen.toNat - i.toNat = pathMaxLen.toNat - (i + 1).toNat + 1 := by
          omega
        have joined : Buffer.overwrite (Buffer.overwrite constructedPath i.toNat [byte])
            (i + 1).toNat (part.take (pathMaxLen.toNat - (i + 1).toNat)) =
              Buffer.overwrite constructedPath i.toNat
                ((byte :: part).take (pathMaxLen.toNat - i.toNat)) := by
          rw [before, succ, List.take_succ_cons]
          exact Buffer.overwrite_append inside
        rw [copyComponent_pass points more (by omega) room, stopped, joined]

/-! ### The candidate -/

def withSlash (part : List UInt8) : List UInt8 :=
  if part.getLast? = some slash then part else part ++ [slash]

/-- The path that `find_exe` builds from one component of `PATH`. -/
def candidate (file part : List UInt8) : List UInt8 := withSlash part ++ file

theorem length_withSlash (part : List UInt8) :
    part.length ≤ (withSlash part).length ∧ (withSlash part).length ≤ part.length + 1 := by
  unfold withSlash
  split <;> simp

theorem addSlash_spec {part : List UInt8} (filled : part ≠ []) (copied : i.toNat = part.length)
    (room : part.length < constructedPath.length) :
    ∃ after, addSlash i (Buffer.overwrite constructedPath 0 part) =
        some (after, Buffer.overwrite constructedPath 0 (withSlash part)) ∧
      after.toNat = (withSlash part).length % 2 ^ 64 := by
  have positive : 0 < part.length := List.length_pos_iff.mpr filled
  have bounded := i.toNat_lt
  have previous : (i - 1).toNat = part.length - 1 := by
    rw [UInt64.toNat_sub, UInt64.toNat_one]
    omega
  have last : Buffer.load (Buffer.overwrite constructedPath 0 part) (i - 1).toNat =
      part.getLast? := by
    rw [previous, Buffer.load, List.getLast?_eq_getElem?]
    simp [Buffer.overwrite, List.getElem?_append_left (show part.length - 1 < part.length by omega)]
  obtain ⟨byte, ending⟩ := Option.ne_none_iff_exists'.mp
    (fun none => filled (List.getLast?_eq_none_iff.mp none))
  simp only [addSlash, last, ending, Option.bind_eq_bind, Option.bind_some]
  by_cases same : byte = slash
  · refine ⟨i, ?_, ?_⟩
    · simp [withSlash, ending, same]
    · simp [withSlash, ending, same, copied]
      omega
  · have inside : i.toNat < (Buffer.overwrite constructedPath 0 part).length := by
      rw [Buffer.length_overwrite (by omega)]
      omega
    have joined : Buffer.overwrite (Buffer.overwrite constructedPath 0 part) i.toNat [slash] =
        Buffer.overwrite constructedPath 0 (part ++ [slash]) := by
      rw [copied, ← Nat.zero_add part.length]
      exact Buffer.overwrite_append (by omega)
    refine ⟨i + 1, ?_, ?_⟩
    · simp [withSlash, ending, same, Buffer.store_of_lt inside, joined]
    · simp [withSlash, ending, same, copied]

/-- The three tests on wrapping sums amount to one comparison of exact ones. -/
theorem length_test (fileLen pathMaxLen : UInt64) {count : Nat}
    (counted : i.toNat = count % 2 ^ 64) (positive : 0 < count) (bounded : count ≤ 2 ^ 64) :
    ¬ (i + fileLen > pathMaxLen ∨ i = 0 ∨ i + fileLen < i) ↔
      count + fileLen.toNat ≤ pathMaxLen.toNat := by
  have fileBounded := fileLen.toNat_lt
  have limitBounded := pathMaxLen.toNat_lt
  have zero : i = 0 ↔ i.toNat = 0 := by
    rw [← UInt64.toNat_inj]
    rfl
  rw [gt_iff_lt, UInt64.lt_iff_toNat_lt, UInt64.lt_iff_toNat_lt, zero, UInt64.toNat_add,
    counted]
  omega

/-! ### The call -/

/-- The three results of a call that starts where the rest of `PATH` is `rest`. -/
inductive FindExeOutcome (file : List UInt8) (PATH : CString) (pathMaxLen : UInt64)
    (rest : List UInt8) (state : FindExeState) : Int → FindExeState → Prop where
  | exhausted {next} :
      Components.nonempty colon rest = [] → PATH.Points next.path [] →
      next.constructedPath = state.constructedPath →
      FindExeOutcome file PATH pathMaxLen rest state 0 next
  | found {next part later} :
      Components.nonempty colon rest = part :: Components.nonempty colon later →
      (candidate file part).length ≤ pathMaxLen.toNat → PATH.Points next.path later →
      next.constructedPath =
        Buffer.overwrite state.constructedPath 0 (candidate file part ++ [0]) →
      FindExeOutcome file PATH pathMaxLen rest state 1 next
  | tooLong {next part later} :
      Components.nonempty colon rest = part :: Components.nonempty colon later →
      pathMaxLen.toNat < (candidate file part).length →
      PATH.Points next.path (Components.skip colon rest) →
      next.constructedPath.length = state.constructedPath.length →
      FindExeOutcome file PATH pathMaxLen rest state (-1) next

/-- The byte after a component tells where the next call starts. -/
theorem component_end {remainder : List UInt8} (here : PATH.Points path remainder) :
    ∃ tail terminator,
      PATH.Points path (Components.first colon remainder ++ tail) ∧
      Buffer.load PATH.memory (path + (Components.first colon remainder).length) =
        some terminator ∧
      (terminator = 0 ∨ terminator = colon) ∧
      PATH.Points (path + ((Components.first colon remainder).length +
        if terminator = colon then 1 else 0)) (Components.later colon remainder) := by
  rcases Components.split_first colon remainder with ⟨whole, ended⟩ | continued
  · have split : PATH.Points path (Components.first colon remainder ++ []) := by
      rwa [List.append_nil, ← whole]
    have stop : (0 : UInt8) ≠ colon := by decide
    refine ⟨[], 0, split, split.advance.load_nil, .inl rfl, ?_⟩
    rw [ended, if_neg stop]
    exact split.advance
  · rw [continued] at here
    refine ⟨_, colon, here, here.advance.load_cons, .inr rfl, ?_⟩
    rw [if_pos rfl, ← Nat.add_assoc]
    exact here.advance.next

theorem copyComponent_spec {remainder : List UInt8} (here : PATH.Points path remainder)
    (room : pathMaxLen.toNat < constructedPath.length) :
    (pathMaxLen.toNat < (Components.first colon remainder).length ∧
      copyComponent PATH.memory path pathMaxLen (PATH.memory.length + 1) 0 constructedPath =
        some (.error (Buffer.overwrite constructedPath 0
          ((Components.first colon remainder).take pathMaxLen.toNat)))) ∨
    ((Components.first colon remainder).length ≤ pathMaxLen.toNat ∧ ∃ count,
      copyComponent PATH.memory path pathMaxLen (PATH.memory.length + 1) 0 constructedPath =
        some (.ok (count, Buffer.overwrite constructedPath 0
          (Components.first colon remainder))) ∧
      count.toNat = (Components.first colon remainder).length) := by
  have bounded := PATH.bounded
  have memory : PATH.memory.length = PATH.bytes.length + 1 := List.length_append
  obtain ⟨tail, terminator, split, ended, stops, _⟩ := component_end here
  have clear : colon ∉ Components.first colon remainder := Components.not_mem_first
  have inside := split.add_length
  rw [List.length_append] at inside
  have start : path + (0 : UInt64).toNat = path := rfl
  generalize Components.first colon remainder = part at *
  by_cases long : pathMaxLen.toNat < part.length
  · refine .inl ⟨long, ?_⟩
    exact copyComponent_tooLong (start ▸ split) clear
      (show part.length < PATH.memory.length + 1 by omega) (by simpa using long)
      (Nat.zero_le _) (by simpa using show part.length < 2 ^ 64 by omega) room
  · obtain ⟨count, copied, counted⟩ := copyComponent_fits (start ▸ split) clear
      (start ▸ ended) stops (show part.length < PATH.memory.length + 1 by omega)
      (by simpa using Nat.le_of_not_lt long) room
    exact .inr ⟨Nat.le_of_not_lt long, count, copied, by simpa using counted⟩

/-- The length of the candidate, without wrap-around. -/
def candidateLength (fileLen : UInt64) (part : List UInt8) : Nat :=
  (withSlash part).length + fileLen.toNat

theorem length_candidate (whole : fileLen.toNat = file.length) (part : List UInt8) :
    (candidate file part).length = candidateLength fileLen part := by
  rw [candidate, List.length_append, candidateLength, whole]

/-- What a call that gives up on a component leaves at the start of the buffer. -/
def abandoned (pathMaxLen : UInt64) (part : List UInt8) : List UInt8 :=
  if pathMaxLen.toNat < part.length then part.take pathMaxLen.toNat else withSlash part

theorem length_abandoned (pathMaxLen : UInt64) (part : List UInt8) :
    (abandoned pathMaxLen part).length ≤ pathMaxLen.toNat + 1 := by
  have longer := length_withSlash part
  unfold abandoned
  split
  · rw [List.length_take]
    omega
  · omega

/-- A call that starts where the rest of `PATH` is `rest`, with everything it writes. -/
inductive FindExeEffect (file : List UInt8) (fileLen : UInt64) (PATH : CString)
    (pathMaxLen : UInt64) (rest : List UInt8) (state : FindExeState) :
    Int → FindExeState → Prop where
  | exhausted {next} :
      Components.nonempty colon rest = [] → PATH.Points next.path [] →
      next.constructedPath = state.constructedPath →
      FindExeEffect file fileLen PATH pathMaxLen rest state 0 next
  | found {next part later} :
      Components.nonempty colon rest = part :: Components.nonempty colon later →
      candidateLength fileLen part ≤ pathMaxLen.toNat → PATH.Points next.path later →
      next.constructedPath = Buffer.overwrite state.constructedPath 0
        (candidate (file.take fileLen.toNat) part ++ [0]) →
      FindExeEffect file fileLen PATH pathMaxLen rest state 1 next
  | tooLong {next part later} :
      Components.nonempty colon rest = part :: Components.nonempty colon later →
      pathMaxLen.toNat < candidateLength fileLen part →
      PATH.Points next.path (Components.skip colon rest) →
      next.constructedPath =
        Buffer.overwrite state.constructedPath 0 (abandoned pathMaxLen part) →
      FindExeEffect file fileLen PATH pathMaxLen rest state (-1) next

theorem appendFile_spec {part : List UInt8} {terminator : UInt8} (filled : part ≠ [])
    (copied : i.toNat = part.length) (fits : part.length ≤ pathMaxLen.toNat)
    (readable : fileLen.toNat ≤ pathMaxLen.toNat → fileLen.toNat ≤ file.length)
    (sized : constructedPath.length = pathMaxLen.toNat + 1)
    (ended : Buffer.load PATH.memory (path + part.length) = some terminator) :
    ∃ result next, appendFile file fileLen PATH.memory pathMaxLen path i
        (Buffer.overwrite constructedPath 0 part) = some (result, next) ∧
      (candidateLength fileLen part ≤ pathMaxLen.toNat ∧ result = 1 ∧
          next.path = path + (part.length + if terminator = colon then 1 else 0) ∧
          next.constructedPath = Buffer.overwrite constructedPath 0
            (candidate (file.take fileLen.toNat) part ++ [0]) ∨
        pathMaxLen.toNat < candidateLength fileLen part ∧ result = -1 ∧ next.path = path ∧
          next.constructedPath =
            Buffer.overwrite constructedPath 0 (abandoned pathMaxLen part)) := by
  have limit := pathMaxLen.toNat_lt
  have longer := length_withSlash part
  have positive := List.length_pos_iff.mpr filled
  obtain ⟨count, slashed, reached⟩ := addSlash_spec filled copied
    (show part.length < constructedPath.length by omega)
  have inside : 0 + (withSlash part).length ≤ constructedPath.length := by omega
  have test := length_test fileLen pathMaxLen reached (by omega) (by omega)
  simp only [appendFile, slashed, Option.bind_eq_bind, Option.bind_some]
  by_cases room : (withSlash part).length + fileLen.toNat ≤ pathMaxLen.toNat
  · have counted : count.toNat = 0 + (withSlash part).length := by omega
    have stored := Buffer.length_overwrite inside
    rw [if_neg (test.mpr room), pstrcpy_eq (readable (by omega)) (by omega), counted,
      Buffer.overwrite_append inside, copied, ended]
    refine ⟨1, _, rfl, .inl ⟨room, rfl, rfl, ?_⟩⟩
    rw [candidate, List.append_assoc]
  · rw [if_pos (not_not.mp fun pass => room (test.mp pass))]
    refine ⟨-1, _, rfl, .inr ⟨Nat.lt_of_not_le room, rfl, rfl, ?_⟩⟩
    rw [abandoned, if_neg (Nat.not_lt.mpr fits)]

theorem findExe_effect {state : FindExeState} (points : PATH.Points state.path rest)
    (readable : fileLen.toNat ≤ pathMaxLen.toNat → fileLen.toNat ≤ file.length)
    (sized : state.constructedPath.length = pathMaxLen.toNat + 1) :
    ∃ result next, findExe file fileLen PATH.memory pathMaxLen state = some (result, next) ∧
      FindExeEffect file fileLen PATH pathMaxLen rest state result next := by
  have bounded := PATH.bounded
  have memory : PATH.memory.length = PATH.bytes.length + 1 := List.length_append
  have total := points.add_length
  obtain ⟨path, skipped, here⟩ := skipColons_spec points
    (show rest.length < PATH.memory.length + 1 by omega)
  simp only [findExe, skipped, Option.bind_eq_bind, Option.bind_some]
  by_cases remaining : Components.skip colon rest = []
  · rw [remaining] at here
    simp only [here.load_nil, Option.bind_some, if_true]
    exact ⟨0, _, rfl, .exhausted (Components.nonempty_eq_nil remaining) here rfl⟩
  have parts := Components.nonempty_eq_cons remaining
  have filled := Components.first_ne_nil_of_skip remaining
  obtain ⟨_, terminator, _, ended, _, after⟩ := component_end here
  have more : ∃ head, Buffer.load PATH.memory path = some head ∧ head ≠ 0 := by
    obtain ⟨head, others, shape⟩ := List.exists_cons_of_ne_nil remaining
    rw [shape] at here
    exact ⟨head, here.load_cons, here.ne_nul⟩
  obtain ⟨head, loaded, nonNul⟩ := more
  simp only [loaded, Option.bind_some, if_neg nonNul]
  have copy := copyComponent_spec here
    (show pathMaxLen.toNat < state.constructedPath.length by omega)
  generalize Components.first colon (Components.skip colon rest) = part at *
  rcases copy with ⟨long, stopped⟩ | ⟨fits, count, copied, counted⟩
  · have exceeds : pathMaxLen.toNat < candidateLength fileLen part := by
      have longer := (length_withSlash part).1
      rw [candidateLength]
      omega
    simp only [stopped, Option.bind_some]
    refine ⟨-1, _, rfl, .tooLong parts exceeds here ?_⟩
    rw [abandoned, if_pos long]
  · simp only [copied, Option.bind_some]
    obtain ⟨result, next, appended, effect⟩ := appendFile_spec filled counted fits readable
      sized ended
    refine ⟨result, next, appended, ?_⟩
    rcases effect with ⟨fits, rfl, moved, written⟩ | ⟨exceeds, rfl, kept, written⟩
    · exact .found parts fits (moved ▸ after) written
    · exact .tooLong parts exceeds (kept ▸ here) written

theorem findExe_spec {state : FindExeState} (points : PATH.Points state.path rest)
    (whole : fileLen.toNat = file.length)
    (sized : state.constructedPath.length = pathMaxLen.toNat + 1) :
    ∃ result next, findExe file fileLen PATH.memory pathMaxLen state = some (result, next) ∧
      FindExeOutcome file PATH pathMaxLen rest state result next := by
  obtain ⟨result, next, called, effect⟩ := findExe_effect points (fun _ => whole.le) sized
  have name : file.take fileLen.toNat = file := List.take_of_length_le whole.ge
  have length := length_candidate whole
  refine ⟨result, next, called, ?_⟩
  cases effect with
  | exhausted ended position unchanged => exact .exhausted ended position unchanged
  | found parts fits position written =>
      exact .found parts (length _ ▸ fits) position (name ▸ written)
  | @tooLong _ part later parts exceeds position written =>
      have room := length_abandoned pathMaxLen part
      refine .tooLong parts (length _ ▸ exceeds) position ?_
      rw [written, Buffer.length_overwrite (by omega)]

/-! ## Repeated calls -/

/-- Call `find_exe` again and again on one `*PATH`; each call contributes its result
and the `constructed_path` it leaves. -/
def findExeCalls (file : List UInt8) (fileLen : UInt64) (PATH : List UInt8)
    (pathMaxLen : UInt64) : Nat → FindExeState → Option (List (Int × List UInt8))
  | 0, _ => some []
  | calls + 1, state => do
      let (result, state) ← findExe file fileLen PATH pathMaxLen state
      let later ← findExeCalls file fileLen PATH pathMaxLen calls state
      some ((result, state.constructedPath) :: later)

/-- What a call reports about a component, or about there being no further one. -/
def Reports (file : List UInt8) : Option (List UInt8) → Int × List UInt8 → Prop
  | some part, (result, constructedPath) =>
      result = 1 ∧ constructedPath.take ((candidate file part).length + 1) =
        candidate file part ++ [0]
  | none, (result, _) => result = 0

theorem findExeCalls_from {state : FindExeState} (points : PATH.Points state.path rest)
    (whole : fileLen.toNat = file.length)
    (sized : state.constructedPath.length = pathMaxLen.toNat + 1)
    (admits : ∀ part ∈ Components.nonempty colon rest,
      (candidate file part).length ≤ pathMaxLen.toNat) (calls : Nat) :
    ∃ results, findExeCalls file fileLen PATH.memory pathMaxLen calls state = some results ∧
      results.length = calls ∧
      ∀ (k : Nat) report, results[k]? = some report →
        Reports file (Components.nonempty colon rest)[k]? report := by
  induction calls generalizing state rest with
  | zero => exact ⟨[], rfl, rfl, fun k report reported => by simp at reported⟩
  | succ calls ih =>
      obtain ⟨result, next, called, outcome⟩ := findExe_spec points whole sized
      cases outcome with
      | exhausted ended position unchanged =>
          obtain ⟨results, later, length, reports⟩ := ih position (unchanged ▸ sized)
            (fun part member => by simp at member)
          refine ⟨_, by simp [findExeCalls, called, later]; rfl, congrArg (· + 1) length, ?_⟩
          intro k report reported
          rw [ended]
          cases k with
          | zero => cases Option.some.inj reported; rfl
          | succ k => simpa using reports k report reported
      | @found _ part others parts fits position written =>
          have room : 0 + (candidate file part ++ [0]).length ≤ state.constructedPath.length := by
            rw [List.length_append, List.length_singleton]
            omega
          rw [parts] at admits ⊢
          obtain ⟨results, later, length, reports⟩ := ih position
            (by rw [written, Buffer.length_overwrite room, sized])
            (fun part member => admits part (List.mem_cons_of_mem _ member))
          refine ⟨_, by simp [findExeCalls, called, later]; rfl, congrArg (· + 1) length, ?_⟩
          intro k report reported
          cases k with
          | zero =>
              cases Option.some.inj reported
              refine ⟨rfl, ?_⟩
              have stored := Buffer.take_overwrite_zero state.constructedPath
                (candidate file part ++ [0])
              rwa [List.length_append, List.length_singleton, ← written] at stored
          | succ k => simpa using reports k report reported
      | tooLong parts exceeds _ _ =>
          exact absurd (admits _ (parts ▸ List.mem_cons_self)) (Nat.not_le_of_lt exceeds)

/-- Calling `find_exe` on the start of `PATH` reports the candidates of its non-empty
components one by one, and from then on that there are no more. -/
theorem findExe_enumerates (PATH : CString) (file : List UInt8) (fileLen pathMaxLen : UInt64)
    (constructedPath : List UInt8) (calls : Nat) (whole : fileLen.toNat = file.length)
    (sized : constructedPath.length = pathMaxLen.toNat + 1)
    (admits : ∀ part ∈ Components.nonempty colon PATH.bytes,
      (candidate file part).length ≤ pathMaxLen.toNat) :
    ∃ results,
      findExeCalls file fileLen PATH.memory pathMaxLen calls ⟨0, constructedPath⟩ =
        some results ∧
      results.length = calls ∧
      ∀ (k : Nat) report, results[k]? = some report →
        Reports file (Components.nonempty colon PATH.bytes)[k]? report :=
  findExeCalls_from (show PATH.Points (FindExeState.mk 0 constructedPath).path PATH.bytes from
    CString.points_zero) whole sized admits calls

/-- `::/bin:/usr/:` -/
def samplePath : CString where
  bytes := [58, 58, 47, 98, 105, 110, 58, 47, 117, 115, 114, 47, 58]
  noNul := by decide
  bounded := by decide

theorem findExe_enumerates_samplePath :
    ∃ results,
      findExeCalls [108, 115] 2 samplePath.memory 16 4 ⟨0, List.replicate 17 0⟩ =
        some results ∧
      results.length = 4 ∧
      ∀ (k : Nat) report, results[k]? = some report →
        Reports [108, 115] (Components.nonempty colon samplePath.bytes)[k]? report :=
  findExe_enumerates samplePath [108, 115] 2 16 (List.replicate 17 0) 4 (by decide) (by decide)
    (by decide)

end Aspawn
