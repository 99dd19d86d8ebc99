import Aspawn.Execvep
import Aspawn.FindExeProperties

/-! The search loop against a reference that walks a list of candidates. -/

set_option autoImplicit false

namespace Aspawn

/-! ## The reference -/

/-- Errors after which the next candidate is tried. -/
def softErrors : List Int := [EACCES, ENOENT, ESTALE, ENOTDIR, ENODEV, ETIMEDOUT]

def ExecveResult.soft : ExecveResult → Bool
  | .replaced => false
  | .failed errno => errno.value ∈ softErrors

def ExecveResult.denied : ExecveResult → Bool
  | .replaced => false
  | .failed errno => errno.value = EACCES

/-- The walk goes past this candidate. -/
def movesOn (execve : List UInt8 → ExecveResult) (limit : Nat) (path : List UInt8) : Bool :=
  path.length ≤ limit && (execve path).soft

/-- How the walk ends, and the candidates it tries on the way. -/
def referenceSearch (execve : List UInt8 → ExecveResult) (limit : Nat)
    (candidates : List (List UInt8)) : SearchEnd × List (List UInt8) :=
  let passed := candidates.takeWhile (movesOn execve limit)
  match candidates.dropWhile (movesOn execve limit) with
  | [] => (if passed.any fun path => (execve path).denied then .accessDenied else .notFound, passed)
  | path :: _ =>
      if limit < path.length then (.tooLong, passed)
      else match execve path with
      | .replaced => (.executed, passed ++ [path])
      | .failed errno => (.hardError (psysExecveResult errno), passed ++ [path])

variable {execve : List UInt8 → ExecveResult} {limit : Nat} {candidates passed : List (List UInt8)}
  {path : List UInt8}

theorem referenceSearch_stop (clear : ∀ path ∈ passed, movesOn execve limit path)
    (stops : movesOn execve limit path = false) :
    referenceSearch execve limit (passed ++ path :: candidates) =
      if limit < path.length then (.tooLong, passed)
      else match execve path with
      | .replaced => (.executed, passed ++ [path])
      | .failed errno => (.hardError (psysExecveResult errno), passed ++ [path]) := by
  have before : (passed ++ path :: candidates).takeWhile (movesOn execve limit) = passed := by
    rw [List.takeWhile_append_of_pos clear, List.takeWhile_cons_of_neg (by simp [stops]),
      List.append_nil]
  have after : (passed ++ path :: candidates).dropWhile (movesOn execve limit) =
      path :: candidates := by
    rw [List.dropWhile_append_of_pos clear, List.dropWhile_cons_of_neg (by simp [stops])]
  simp only [referenceSearch, before, after]

theorem referenceSearch_end (clear : ∀ path ∈ passed, movesOn execve limit path) :
    referenceSearch execve limit passed =
      (if passed.any fun path => (execve path).denied then .accessDenied else .notFound,
        passed) := by
  have before : passed.takeWhile (movesOn execve limit) = passed :=
    List.takeWhile_eq_self_iff.mpr clear
  have after : passed.dropWhile (movesOn execve limit) = [] :=
    List.dropWhile_eq_nil_iff.mpr clear
  simp only [referenceSearch, before, after]

/-! ## The loop -/

theorem handleExecveErr_soft {errno : Errno} {gotEaccess : Int}
    (soft : (ExecveResult.failed errno).soft) :
    handleExecveErr (psysExecveResult errno) gotEaccess =
      (0, if (ExecveResult.failed errno).denied then 1 else gotEaccess) := by
  simp only [ExecveResult.soft, softErrors, List.mem_cons, List.not_mem_nil, or_false,
    decide_eq_true_eq] at soft
  simp only [handleExecveErr, psysExecveResult, ExecveResult.denied, Int.neg_neg,
    decide_eq_true_eq]
  rcases soft with access | other
  · simp [access]
  · by_cases access : errno.value = EACCES
    · simp [access]
    · simp [access, other]

theorem handleExecveErr_hard {errno : Errno} {gotEaccess : Int}
    (hard : (ExecveResult.failed errno).soft = false) :
    handleExecveErr (psysExecveResult errno) gotEaccess =
      (psysExecveResult errno, gotEaccess) := by
  simp only [ExecveResult.soft, softErrors, List.mem_cons, List.not_mem_nil, or_false,
    decide_eq_false_iff_not, not_or] at hard
  obtain ⟨access, others⟩ := hard
  simp [handleExecveErr, psysExecveResult, access, others]

/-- After a call that found a candidate, `execve` reads exactly this candidate. -/
theorem cString_written {path buffer : List UInt8} (clear : 0 ∉ path) :
    cString (Buffer.overwrite buffer 0 (path ++ [0])) = path := by
  have nonNul : ∀ byte ∈ path, decide (byte ≠ 0) = true := by
    intro byte member
    exact decide_eq_true fun nul => clear (nul ▸ member)
  rw [cString, Buffer.overwrite, List.take_zero, List.nil_append, List.append_assoc,
    List.takeWhile_append_of_pos nonNul]
  simp

theorem nul_not_mem_candidate {file part : List UInt8} (clearFile : 0 ∉ file)
    (clearPart : 0 ∉ part) : 0 ∉ candidate file part := by
  have ink : (0 : UInt8) ≠ slash := by decide
  unfold candidate withSlash
  split <;> simp [clearFile, clearPart, ink]

variable {PATH file : CString} {rest : List UInt8} {fileLen pathMaxLen : UInt64} {fuel : Nat}
  {state : FindExeState}

/-- The loop after the candidates in `passed`, which all gave soft errors. -/
theorem searchPath_from (gotEaccess : Int) (passed : List (List UInt8))
    (points : PATH.Points state.path rest)
    (whole : fileLen.toNat = file.bytes.length)
    (sized : state.constructedPath.length = pathMaxLen.toNat + 1)
    (clear : ∀ path ∈ passed, movesOn execve pathMaxLen.toNat path)
    (sticky : gotEaccess ≠ 0 ↔ passed.any (fun path => (execve path).denied) = true)
    (enough : (Components.nonempty colon rest).length < fuel) :
    ∃ ending tried,
      searchPath execve file.bytes fileLen PATH.memory pathMaxLen fuel gotEaccess state =
        some (ending, tried) ∧
      referenceSearch execve pathMaxLen.toNat
          (passed ++ (Components.nonempty colon rest).map (candidate file.bytes)) =
        (ending, passed ++ tried) := by
  induction fuel generalizing state rest passed gotEaccess with
  | zero => exact absurd enough (Nat.not_lt_zero _)
  | succ fuel ih =>
      obtain ⟨result, next, called, outcome⟩ := findExe_spec points whole sized
      simp only [searchPath, called, Option.bind_eq_bind, Option.bind_some]
      cases outcome with
      | exhausted ended position unchanged =>
          rw [ended, List.map_nil, List.append_nil, referenceSearch_end clear]
          by_cases access : gotEaccess = 0
          · have none : (passed.any fun path => (execve path).denied) = false := by
              simpa [access] using sticky
            exact ⟨.notFound, [], by simp [access], by simp [none]⟩
          · exact ⟨.accessDenied, [], by simp [access], by simp [sticky.mp access]⟩
      | @found _ part others parts fits position written =>
          have partClear : 0 ∉ part := fun nul =>
            PATH.noNul (points.subset
              (Components.mem_of_mem_nonempty (parts ▸ List.mem_cons_self) nul))
          have reads : cString next.constructedPath = candidate file.bytes part := by
            rw [written]
            exact cString_written (nul_not_mem_candidate file.noNul partClear)
          have room : 0 + (candidate file.bytes part ++ [0]).length ≤
              state.constructedPath.length := by
            rw [List.length_append, List.length_singleton]
            omega
          have sizedNext : next.constructedPath.length = pathMaxLen.toNat + 1 := by
            rw [written, Buffer.length_overwrite room, sized]
          rw [parts, List.length_cons] at enough
          simp only [reads, if_true, parts, List.map_cons]
          generalize candidate file.bytes part = path at fits
          cases attempt : execve path with
          | replaced =>
              have stops : movesOn execve pathMaxLen.toNat path = false := by
                simp [movesOn, attempt, ExecveResult.soft]
              refine ⟨.executed, [path], by simp, ?_⟩
              rw [referenceSearch_stop clear stops, if_neg (Nat.not_lt.mpr fits), attempt]
          | failed errno =>
              cases soft : (ExecveResult.failed errno).soft with
              | false =>
                  have stops : movesOn execve pathMaxLen.toNat path = false := by
                    simp [movesOn, attempt, soft]
                  have negative : psysExecveResult errno < 0 :=
                    Int.neg_neg_of_pos errno.positive
                  refine ⟨.hardError (psysExecveResult errno), [path], ?_, ?_⟩
                  · simp [handleExecveErr_hard soft, negative]
                  · rw [referenceSearch_stop clear stops, if_neg (Nat.not_lt.mpr fits), attempt]
              | true =>
                  have passes : movesOn execve pathMaxLen.toNat path := by
                    simp [movesOn, attempt, soft, fits]
                  obtain ⟨ending, tried, searched, reference⟩ := ih
                    (if (ExecveResult.failed errno).denied then 1 else gotEaccess)
                    (passed ++ [path]) position sizedNext
                    (by
                      intro other member
                      rcases List.mem_append.mp member with earlier | last
                      · exact clear other earlier
                      · exact List.mem_singleton.mp last ▸ passes)
                    (by
                      cases denied : (ExecveResult.failed errno).denied <;>
                        simp [attempt, denied, sticky])
                    (by omega)
                  refine ⟨ending, path :: tried, ?_, ?_⟩
                  · simp [handleExecveErr_soft soft, searched]
                  · simpa using reference
      | @tooLong _ part others parts exceeds _ _ =>
          have stops : movesOn execve pathMaxLen.toNat (candidate file.bytes part) = false := by
            simp [movesOn, Nat.not_le.mpr exceeds]
          refine ⟨.tooLong, [], by simp, ?_⟩
          rw [parts, List.map_cons, referenceSearch_stop clear stops, if_pos exceeds,
            List.append_nil]

theorem searchPath_eq_reference (execve : List UInt8 → ExecveResult) (PATH file : CString)
    (fileLen pathMaxLen : UInt64) (constructedPath : List UInt8) (fuel : Nat)
    (whole : fileLen.toNat = file.bytes.length)
    (sized : constructedPath.length = pathMaxLen.toNat + 1)
    (enough : (Components.nonempty colon PATH.bytes).length < fuel) :
    searchPath execve file.bytes fileLen PATH.memory pathMaxLen fuel 0 ⟨0, constructedPath⟩ =
      some (referenceSearch execve pathMaxLen.toNat
        ((Components.nonempty colon PATH.bytes).map (candidate file.bytes))) := by
  have start : PATH.Points (FindExeState.mk 0 constructedPath).path PATH.bytes :=
    CString.points_zero
  obtain ⟨ending, tried, searched, reference⟩ := searchPath_from 0 [] start whole sized
    (by simp) (by simp) enough
  rw [searched, ← List.nil_append tried, ← reference, List.nil_append]

/-- However `execve` answers, the loop ends after at most one pass more than there are
components, and its end and the paths it tried are the reference's. -/
theorem psysExecvep_eq_reference (execve : List UInt8 → ExecveResult) (PATH file : CString)
    (fileLen : UInt64) (constructedPath : List UInt8) (fuel : Nat)
    (whole : fileLen.toNat = file.bytes.length)
    (sized : constructedPath.length = PATH_MAX.toNat + 1)
    (enough : (Components.nonempty colon PATH.bytes).length < fuel) :
    psysExecvep execve file.bytes fileLen PATH.memory constructedPath fuel =
      some (referenceSearch execve PATH_MAX.toNat
        ((Components.nonempty colon PATH.bytes).map (candidate file.bytes))) :=
  searchPath_eq_reference execve PATH file fileLen PATH_MAX constructedPath fuel whole sized
    enough

/-- `ls` -/
def sampleFile : CString where
  bytes := [108, 115]
  noNul := by decide
  bounded := by decide

/-- Permission is denied for `/bin/ls`, and nothing else exists. -/
def sampleExecve (path : List UInt8) : ExecveResult :=
  if path = [47, 98, 105, 110, 47, 108, 115] then
    .failed { value := EACCES, positive := by decide, small := by decide }
  else
    .failed { value := ENOENT, positive := by decide, small := by decide }

theorem psysExecvep_sample :
    psysExecvep sampleExecve sampleFile.bytes 2 samplePath.memory (List.replicate 4097 0) 3 =
      some (.accessDenied,
        [[47, 98, 105, 110, 47, 108, 115], [47, 117, 115, 114, 47, 108, 115]]) := by
  have searched := psysExecvep_eq_reference sampleExecve samplePath sampleFile 2
    (List.replicate 4097 0) 3 (by decide) List.length_replicate (by decide)
  rw [searched]
  decide

end Aspawn
