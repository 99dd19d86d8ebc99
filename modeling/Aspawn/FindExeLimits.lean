import Aspawn.ExecvepProperties
import Aspawn.Lib.Transition

/-! The limits of `find_exe`: which accesses it makes, what it leaves in the caller's buffer
when it gives up, and what becomes of a caller that goes on after that. -/

set_option autoImplicit false

namespace Aspawn

variable {PATH : CString} {rest file : List UInt8} {fileLen pathMaxLen : UInt64}
  {state : FindExeState}

/-! ## Accesses -/

theorem CString.points_drop {offset : Nat} (inside : offset ≤ PATH.bytes.length) :
    PATH.Points offset (PATH.bytes.drop offset) :=
  ⟨PATH.bytes.take offset, (List.take_append_drop ..).symm, List.length_take_of_le inside⟩

/-- What a candidate adds to its component: a slash unless there is one, and the file. -/
def exactLength (fileLen : UInt64) (part : List UInt8) : Nat :=
  part.length + (if part.getLast? = some slash then 0 else 1) + fileLen.toNat

theorem candidateLength_eq (fileLen : UInt64) (part : List UInt8) :
    candidateLength fileLen part = exactLength fileLen part := by
  unfold candidateLength exactLength withSlash
  split
  · rw [Nat.add_zero]
  · rw [List.length_append, List.length_singleton]

/-- Where the copying loop is followed by a look at `constructed_path[i - 1]`, `i` is not 0. -/
def LooksBackSafely (PATH : CString) (pathMaxLen : UInt64) (state : FindExeState) : Prop :=
  ∀ path head i constructedPath,
    skipColons PATH.memory (PATH.memory.length + 1) state.path = some path →
    Buffer.load PATH.memory path = some head → head ≠ 0 →
    copyComponent PATH.memory path pathMaxLen (PATH.memory.length + 1) 0
      state.constructedPath = some (.ok (i, constructedPath)) → i ≠ 0

theorem looksBackSafely (points : PATH.Points state.path rest)
    (sized : state.constructedPath.length = pathMaxLen.toNat + 1) :
    LooksBackSafely PATH pathMaxLen state := by
  intro path head i constructedPath skipped loaded nonNul copied
  have memory : PATH.memory.length = PATH.bytes.length + 1 := List.length_append
  have total := points.add_length
  obtain ⟨_, found, here⟩ := skipColons_spec points
    (show rest.length < PATH.memory.length + 1 by omega)
  cases skipped.symm.trans found
  have remaining : Components.skip colon rest ≠ [] := by
    intro ended
    rw [ended] at here
    exact nonNul (Option.some.inj (loaded.symm.trans here.load_nil))
  have filled := List.length_pos_iff.mpr (Components.first_ne_nil_of_skip remaining)
  rcases copyComponent_spec here
      (show pathMaxLen.toNat < state.constructedPath.length by omega) with
    ⟨_, stopped⟩ | ⟨_, count, stopped, counted⟩
  · cases copied.symm.trans stopped
  · cases copied.symm.trans stopped
    rintro rfl
    exact absurd counted (Nat.ne_of_lt filled)

theorem FindExeEffect.sized {result : Int} {next : FindExeState}
    (effect : FindExeEffect file fileLen PATH pathMaxLen rest state result next)
    (sized : state.constructedPath.length = pathMaxLen.toNat + 1) :
    next.constructedPath.length = pathMaxLen.toNat + 1 := by
  cases effect with
  | exhausted _ _ unchanged => rw [unchanged, sized]
  | @found _ part later _ fits _ written =>
      have name := List.length_take_le fileLen.toNat file
      have length : (candidate (file.take fileLen.toNat) part ++ [0]).length ≤
          candidateLength fileLen part + 1 := by
        simp only [candidate, candidateLength, List.length_append, List.length_singleton]
        omega
      rw [written, Buffer.length_overwrite (by omega), sized]
  | @tooLong _ part later _ _ _ written =>
      have room := length_abandoned pathMaxLen part
      rw [written, Buffer.length_overwrite (by omega), sized]

/-- Every access of a call is inside `PATH` with its terminator, inside the file name and
inside the `path_max_len + 1` bytes of `constructed_path`: with objects of exactly these
bytes the call has a result. What it is depends on the exact length of the candidate. -/
theorem findExe_bounds (PATH : CString) (file : List UInt8) (fileLen pathMaxLen : UInt64)
    (state : FindExeState) (inside : state.path ≤ PATH.bytes.length)
    (readable : fileLen.toNat ≤ pathMaxLen.toNat → fileLen.toNat ≤ file.length)
    (sized : state.constructedPath.length = pathMaxLen.toNat + 1) :
    ∃ result next, findExe file fileLen PATH.memory pathMaxLen state = some (result, next) ∧
      next.constructedPath.length = pathMaxLen.toNat + 1 ∧
      next.path ≤ PATH.bytes.length ∧ LooksBackSafely PATH pathMaxLen state ∧
      ∀ part, (Components.nonempty colon (PATH.bytes.drop state.path)).head? = some part →
        (result = -1 ↔ pathMaxLen.toNat < exactLength fileLen part) ∧
          (result ≠ -1 → result = 1) := by
  have points := CString.points_drop inside
  obtain ⟨result, next, called, effect⟩ := findExe_effect points readable sized
  refine ⟨result, next, called, effect.sized sized, ?_, looksBackSafely points sized, ?_⟩
  · cases effect with
    | exhausted _ position _ | found _ _ position _ | tooLong _ _ position _ =>
        have total := position.add_length
        omega
  · intro part next
    cases effect with
    | exhausted ended _ _ =>
        rw [ended] at next
        cases next
    | found parts fits _ _ =>
        rw [parts] at next
        cases next
        rw [← candidateLength_eq]
        exact ⟨⟨fun failed => absurd failed (by decide), fun long => absurd fits (by omega)⟩,
          fun _ => rfl⟩
    | tooLong parts exceeds _ _ =>
        rw [parts] at next
        cases next
        rw [← candidateLength_eq]
        exact ⟨⟨fun _ => exceeds, fun _ => rfl⟩, fun failed => absurd rfl failed⟩

/-- A component of exactly the permitted length, to which the slash is already too much. -/
theorem findExe_bounds_samplePath :
    ∃ result next, findExe [108, 115] 2 samplePath.memory 4 ⟨0, List.replicate 5 0⟩ =
        some (result, next) ∧
      next.constructedPath.length = 5 ∧ result = -1 := by
  obtain ⟨result, next, called, length, _, _, outcome⟩ :=
    findExe_bounds samplePath [108, 115] 2 4 ⟨0, List.replicate 5 0⟩ (by decide) (by decide)
      (by decide)
  exact ⟨result, next, called, length, (outcome [47, 98, 105, 110] (by decide)).1.mpr (by decide)⟩

/-! ## The buffer of a caller -/

/-- A call of `find_exe` with everything but the buffer and its limit. -/
structure FindExeCall (pathMaxLen : UInt64) where
  PATH : CString
  path : Nat
  inside : path ≤ PATH.bytes.length
  file : List UInt8
  fileLen : UInt64
  readable : fileLen.toNat ≤ pathMaxLen.toNat → fileLen.toNat ≤ file.length

namespace FindExeCall

variable {call : FindExeCall pathMaxLen}

/-- The component that the call looks at. -/
def component (call : FindExeCall pathMaxLen) : Option (List UInt8) :=
  (Components.nonempty colon (call.PATH.bytes.drop call.path)).head?

def candidate (call : FindExeCall pathMaxLen) : Option (List UInt8) :=
  call.component.map (Aspawn.candidate (call.file.take call.fileLen.toNat))

end FindExeCall

/-- A caller's buffer, and the candidate of the last call on it that returned 1. -/
structure CandidateBuffer where
  constructedPath : List UInt8
  last : Option (List UInt8)
  deriving DecidableEq

namespace CandidateBuffer

open Transition

def step (buffer : CandidateBuffer) (call : FindExeCall pathMaxLen) : Option CandidateBuffer := do
  let (result, next) ← findExe call.file call.fileLen call.PATH.memory pathMaxLen
    ⟨call.path, buffer.constructedPath⟩
  some {
    constructedPath := next.constructedPath
    last := if result = 1 then call.candidate else buffer.last }

/-- Unless the call returns 1 it leaves the buffer alone. -/
def Atomic (buffer : CandidateBuffer) (call : FindExeCall pathMaxLen) : Prop :=
  ∀ result next, findExe call.file call.fileLen call.PATH.memory pathMaxLen
    ⟨call.path, buffer.constructedPath⟩ = some (result, next) →
    result ≠ 1 → next.constructedPath = buffer.constructedPath

/-- The candidate fits, or what is copied before the call gives up is in the buffer already. -/
def Intact (buffer : CandidateBuffer) (call : FindExeCall pathMaxLen) : Prop :=
  ∀ part, call.component = some part →
    exactLength call.fileLen part ≤ pathMaxLen.toNat ∨
      abandoned pathMaxLen part <+: buffer.constructedPath

/-- The buffer holds the last candidate found, and before there is one what it held at
first. -/
def Holds (initial : List UInt8) (buffer : CandidateBuffer) : Prop :=
  match buffer.last with
  | none => buffer.constructedPath = initial
  | some path => path ++ [0] <+: buffer.constructedPath

variable {buffer next : CandidateBuffer} {call : FindExeCall pathMaxLen} {initial : List UInt8}

theorem effect (call : FindExeCall pathMaxLen)
    (sized : buffer.constructedPath.length = pathMaxLen.toNat + 1) :
    ∃ result after, findExe call.file call.fileLen call.PATH.memory pathMaxLen
        ⟨call.path, buffer.constructedPath⟩ = some (result, after) ∧
      FindExeEffect call.file call.fileLen call.PATH pathMaxLen
        (call.PATH.bytes.drop call.path) ⟨call.path, buffer.constructedPath⟩ result after :=
  findExe_effect (CString.points_drop call.inside) call.readable sized

theorem atomic_iff (sized : buffer.constructedPath.length = pathMaxLen.toNat + 1) :
    buffer.Atomic call ↔ buffer.Intact call := by
  obtain ⟨result, after, called, effect⟩ := effect call sized
  have only : buffer.Atomic call ↔
      (result ≠ 1 → after.constructedPath = buffer.constructedPath) := by
    constructor
    · exact fun atomic => atomic result after called
    · intro kept result after other
      cases called.symm.trans other
      exact kept
  rw [only]
  unfold Intact FindExeCall.component
  cases effect with
  | exhausted ended _ unchanged =>
      rw [ended]
      constructor
      · intro _ part next
        cases next
      · exact fun _ _ => unchanged
  | found parts fits _ _ =>
      rw [parts, candidateLength_eq] at *
      refine ⟨fun _ part next => ?_, fun _ failed => absurd rfl failed⟩
      cases next
      exact .inl fits
  | tooLong parts exceeds _ written =>
      rw [parts, candidateLength_eq] at *
      rw [written, Buffer.overwrite_zero_eq_self_iff]
      constructor
      · intro kept part next
        cases next
        exact .inr (kept (by decide))
      · intro intact _
        rcases intact _ rfl with fits | already
        · exact absurd fits (Nat.not_le.mpr exceeds)
        · exact already

theorem step_spec (call : FindExeCall pathMaxLen)
    (sized : buffer.constructedPath.length = pathMaxLen.toNat + 1) :
    ∃ next, buffer.step call = some next ∧
      next.constructedPath.length = pathMaxLen.toNat + 1 ∧
      (buffer.Intact call → buffer.Holds initial → next.Holds initial) := by
  obtain ⟨result, after, called, effect⟩ := effect call sized
  have stepped : buffer.step call = some {
      constructedPath := after.constructedPath
      last := if result = 1 then call.candidate else buffer.last } := by
    simp only [step, called, Option.bind_eq_bind, Option.bind_some]
  refine ⟨_, stepped, effect.sized sized, fun intact holds => ?_⟩
  by_cases found : result = 1
  · rw [if_pos found]
    cases effect with
    | exhausted | tooLong => exact absurd found (by decide)
    | @found _ part _ parts _ _ written =>
        have candidate : call.candidate =
            some (Aspawn.candidate (call.file.take call.fileLen.toNat) part) := by
          rw [FindExeCall.candidate, FindExeCall.component, parts]
          rfl
        simp only [Holds, candidate, written]
        simp [Buffer.overwrite]
  · have kept := (atomic_iff sized).mpr intact result after called found
    rw [if_neg found]
    unfold Holds at holds ⊢
    rw [kept]
    exact holds

theorem calls_from (initial : List UInt8) (calls : List (FindExeCall pathMaxLen))
    (buffer : CandidateBuffer)
    (sized : buffer.constructedPath.length = pathMaxLen.toNat + 1) :
    ∃ final, run step buffer calls = some final ∧
      (Along step Atomic buffer calls ↔ Along step Intact buffer calls) ∧
      (buffer.Holds initial → Along step Intact buffer calls → final.Holds initial) := by
  induction calls generalizing buffer with
  | nil => exact ⟨buffer, rfl, Iff.rfl, fun holds _ => holds⟩
  | cons call calls ih =>
      obtain ⟨next, stepped, length, kept⟩ := step_spec call sized
      obtain ⟨final, performed, same, holds⟩ := ih next length
      rw [run_cons_some stepped, along_cons_some stepped, along_cons_some stepped,
        atomic_iff sized, same]
      exact ⟨final, performed, Iff.rfl, fun before intact =>
        holds (kept intact.1 before) intact.2⟩

/-- In a sequence of calls every call that does not return 1 leaves the buffer alone, exactly
if every call that gives up finds its bytes in the buffer. Then the buffer always holds the
last candidate found. -/
theorem calls_atomic_iff (calls : List (FindExeCall pathMaxLen)) (constructedPath : List UInt8)
    (sized : constructedPath.length = pathMaxLen.toNat + 1) :
    ∃ final, run step { constructedPath, last := none } calls = some final ∧
      (Along step Atomic { constructedPath, last := none } calls ↔
        Along step Intact { constructedPath, last := none } calls) ∧
      (Along step Intact { constructedPath, last := none } calls →
        final.Holds constructedPath) := by
  obtain ⟨final, performed, same, holds⟩ := calls_from constructedPath calls
    { constructedPath, last := none } sized
  exact ⟨final, performed, same, holds rfl⟩

/-- A call for `ls` at the start of `::/bin:/usr/:`. -/
def sampleCall (pathMaxLen : UInt64) : FindExeCall pathMaxLen where
  PATH := samplePath
  path := 0
  inside := by decide
  file := [108, 115]
  fileLen := 2
  readable _ := by decide

/-- `/bin` fits in four bytes, `/bin/` with the name of the file does not. -/
theorem sampleCall_spoils :
    findExe [108, 115] 2 samplePath.memory 4 ⟨0, [1, 2, 3, 4, 5]⟩ =
      some (-1, { path := 2, constructedPath := [47, 98, 105, 110, 47] }) := by
  decide

/-- A call at the end of `::/bin:/usr/:`. -/
def exhaustedCall (pathMaxLen : UInt64) : FindExeCall pathMaxLen where
  PATH := samplePath
  path := 13
  inside := by decide
  file := [108, 115]
  fileLen := 2
  readable _ := by decide

/-- A call for `ls` at the start of `/`. -/
def rootCall (pathMaxLen : UInt64) : FindExeCall pathMaxLen where
  PATH := { bytes := [47], noNul := by decide, bounded := by decide }
  path := 0
  inside := by decide
  file := [108, 115]
  fileLen := 2
  readable _ := by decide

/-- On a buffer that starts with `/bin/` already: the first call returns -1, the second 0 and
the last 1. -/
theorem calls_atomic_sample :
    ∃ final, run step { constructedPath := [47, 98, 105, 110, 47], last := none }
        [sampleCall 4, exhaustedCall 4, rootCall 4] = some final ∧
      Along step Atomic { constructedPath := [47, 98, 105, 110, 47], last := none }
        [sampleCall 4, exhaustedCall 4, rootCall 4] ∧
      final.Holds [47, 98, 105, 110, 47] ∧ final.constructedPath = [47, 108, 115, 0, 47] := by
  let filled : CandidateBuffer := { constructedPath := [47, 98, 105, 110, 47], last := none }
  obtain ⟨final, performed, same, holds⟩ := calls_atomic_iff
    [sampleCall 4, exhaustedCall 4, rootCall 4] [47, 98, 105, 110, 47] (by decide)
  have failed : filled.step (sampleCall 4) = some filled := by decide
  have ended : filled.step (exhaustedCall 4) = some filled := by decide
  have intact : Along step Intact filled [sampleCall 4, exhaustedCall 4, rootCall 4] := by
    rw [along_cons_some failed, along_cons_some ended]
    refine ⟨fun part next => ?_, fun part next => ?_, .cons (fun part next => ?_) fun _ => trivial⟩
    · have found : (sampleCall 4).component = some [47, 98, 105, 110] := by decide
      cases found.symm.trans next
      exact .inr (by decide)
    · have none : (exhaustedCall 4).component = none := by decide
      cases none.symm.trans next
    · have found : (rootCall 4).component = some [47] := by decide
      cases found.symm.trans next
      exact .inl (by decide)
  have last : (run step filled [sampleCall 4, exhaustedCall 4, rootCall 4]).map
      CandidateBuffer.constructedPath = some [47, 108, 115, 0, 47] := by
    decide
  refine ⟨final, performed, same.mpr intact, holds intact, ?_⟩
  rw [performed] at last
  exact Option.some.inj last

end CandidateBuffer

/-! ## A caller that goes on -/

/-- The loop of the usage comment that tries every candidate and chooses to `continue` when
`find_exe` returns -1. It contributes the candidates tried. -/
def tryAll (file : List UInt8) (fileLen : UInt64) (PATH : List UInt8) (pathMaxLen : UInt64) :
    Nat → FindExeState → Option (List (List UInt8))
  | 0, _ => none
  | fuel + 1, state => do
      let (result, state) ← findExe file fileLen PATH pathMaxLen state
      if result = 1 then
        let later ← tryAll file fileLen PATH pathMaxLen fuel state
        some (cString state.constructedPath :: later)
      else if result = -1 then
        tryAll file fileLen PATH pathMaxLen fuel state
      else
        some []

/-- The candidates of the components, those left out that are too long. -/
def fittingCandidates (file : List UInt8) (pathMaxLen : UInt64) (parts : List (List UInt8)) :
    List (List UInt8) :=
  (parts.map (candidate file)).filter fun path => path.length ≤ pathMaxLen.toNat

variable {file : CString}

/-- Behind a component that is too long the loop never ends: `*PATH` stays where it is. -/
theorem tryAll_spins (fuel : Nat) (points : PATH.Points state.path rest)
    (whole : fileLen.toNat = file.bytes.length)
    (sized : state.constructedPath.length = pathMaxLen.toNat + 1)
    (blocked : ∃ part ∈ Components.nonempty colon rest,
      pathMaxLen.toNat < (candidate file.bytes part).length) :
    tryAll file.bytes fileLen PATH.memory pathMaxLen fuel state = none := by
  induction fuel generalizing state rest with
  | zero => rfl
  | succ fuel ih =>
      obtain ⟨result, next, called, effect⟩ := findExe_effect points (fun _ => whole.le) sized
      have sized := effect.sized sized
      simp only [tryAll, called, Option.bind_eq_bind, Option.bind_some]
      cases effect with
      | exhausted ended _ _ =>
          rw [ended] at blocked
          obtain ⟨part, member, _⟩ := blocked
          cases member
      | found parts fits position _ =>
          rw [← length_candidate whole] at fits
          obtain ⟨part, member, long⟩ := blocked
          rw [parts] at member
          cases member with
          | head => exact absurd fits (Nat.not_le.mpr long)
          | tail _ later => simp [ih position sized ⟨part, later, long⟩]
      | tooLong _ _ position _ =>
          have stuck := ih position sized (by rwa [Components.nonempty_skip])
          simpa using stuck

theorem tryAll_ends {fuel : Nat} (points : PATH.Points state.path rest)
    (whole : fileLen.toNat = file.bytes.length)
    (sized : state.constructedPath.length = pathMaxLen.toNat + 1)
    (admits : ∀ part ∈ Components.nonempty colon rest,
      (candidate file.bytes part).length ≤ pathMaxLen.toNat)
    (enough : (Components.nonempty colon rest).length < fuel) :
    tryAll file.bytes fileLen PATH.memory pathMaxLen fuel state =
      some ((Components.nonempty colon rest).map (candidate file.bytes)) := by
  induction fuel generalizing state rest with
  | zero => exact absurd enough (Nat.not_lt_zero _)
  | succ fuel ih =>
      obtain ⟨result, next, called, effect⟩ := findExe_effect points (fun _ => whole.le) sized
      have sized := effect.sized sized
      simp only [tryAll, called, Option.bind_eq_bind, Option.bind_some]
      cases effect with
      | exhausted ended _ _ => simp [ended]
      | @found _ part later parts fits position written =>
          have clear : 0 ∉ part := fun nul => PATH.noNul (points.subset
            (Components.mem_of_mem_nonempty (parts ▸ List.mem_cons_self) nul))
          have name : file.bytes.take fileLen.toNat = file.bytes :=
            List.take_of_length_le whole.ge
          have tried : cString next.constructedPath = candidate file.bytes part := by
            rw [written, name]
            exact cString_written (nul_not_mem_candidate file.noNul clear)
          rw [parts] at admits enough ⊢
          have others := ih position sized
            (fun other member => admits other (List.mem_cons_of_mem _ member))
            (Nat.lt_of_succ_lt_succ enough)
          simp [others, tried]
      | tooLong parts exceeds _ _ =>
          rw [← length_candidate whole] at exceeds
          exact absurd (admits _ (parts ▸ List.mem_cons_self)) (Nat.not_le.mpr exceeds)

/-- The loop ends with every candidate tried that is not too long, exactly if none is. -/
theorem tryAll_iff (PATH file : CString) (fileLen pathMaxLen : UInt64)
    (constructedPath : List UInt8) (whole : fileLen.toNat = file.bytes.length)
    (sized : constructedPath.length = pathMaxLen.toNat + 1) :
    (∃ fuel, tryAll file.bytes fileLen PATH.memory pathMaxLen fuel ⟨0, constructedPath⟩ =
        some (fittingCandidates file.bytes pathMaxLen
          (Components.nonempty colon PATH.bytes))) ↔
      ∀ part ∈ Components.nonempty colon PATH.bytes,
        (candidate file.bytes part).length ≤ pathMaxLen.toNat := by
  have start : PATH.Points (FindExeState.mk 0 constructedPath).path PATH.bytes :=
    CString.points_zero
  constructor
  · intro ⟨fuel, ended⟩ part member
    by_contra long
    rw [tryAll_spins fuel start whole sized ⟨part, member, Nat.lt_of_not_le long⟩] at ended
    cases ended
  · intro admits
    refine ⟨_, (tryAll_ends start whole sized admits (Nat.lt_succ_self _)).trans ?_⟩
    have all : ∀ path ∈ (Components.nonempty colon PATH.bytes).map (candidate file.bytes),
        decide (path.length ≤ pathMaxLen.toNat) = true := by
      intro path member
      obtain ⟨part, inside, rfl⟩ := List.mem_map.mp member
      exact decide_eq_true (admits part inside)
    rw [fittingCandidates, List.filter_eq_self.mpr all]

theorem tryAll_iff_samplePath :
    ∃ fuel, tryAll sampleFile.bytes 2 samplePath.memory 16 fuel ⟨0, List.replicate 17 0⟩ =
      some (fittingCandidates sampleFile.bytes 16
        (Components.nonempty colon samplePath.bytes)) :=
  (tryAll_iff samplePath sampleFile 2 16 (List.replicate 17 0) (by decide) (by decide)).mpr
    (by decide)

/-- `/bin:/` -/
def blockedPath : CString where
  bytes := [47, 98, 105, 110, 58, 47]
  noNul := by decide
  bounded := by decide

/-- With six bytes `/bin/ls` is too long, and `/ls` is never tried. -/
theorem tryAll_blocked :
    fittingCandidates sampleFile.bytes 6 (Components.nonempty colon blockedPath.bytes) =
        [[47, 108, 115]] ∧
      ∀ fuel, tryAll sampleFile.bytes 2 blockedPath.memory 6 fuel ⟨0, List.replicate 7 0⟩ =
        none := by
  refine ⟨by decide, fun fuel => ?_⟩
  have start : blockedPath.Points (FindExeState.mk 0 (List.replicate 7 0)).path
      blockedPath.bytes := CString.points_zero
  exact tryAll_spins fuel start (by decide) (by decide) (by decide)

end Aspawn
