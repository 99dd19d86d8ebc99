import Aspawn.Perr

/-! What `perr` delivers when the kernel takes a part of each buffer only, and the status it
exits with. -/

set_option autoImplicit false

namespace Aspawn

/-! ## Lengths -/

theorem pstrlenFrom_toNat {bytes : List UInt8} {len : UInt64} (noNul : 0 ∉ bytes)
    (terminated : 0 ∈ bytes ++ [0]) (bounded : len.toNat + bytes.length < 2 ^ 64) :
    (pstrlenFrom (bytes ++ [0]) terminated len).toNat = len.toNat + bytes.length := by
  induction bytes generalizing len with
  | nil => rfl
  | cons byte rest ih =>
      have more : byte ≠ 0 := fun zero => noNul (zero ▸ List.mem_cons_self)
      have counted : (len + 1).toNat = len.toNat + 1 := by
        rw [UInt64.toNat_add]
        simp only [List.length_cons] at bounded
        exact Nat.mod_eq_of_lt (by simp; omega)
      simp only [List.cons_append, pstrlenFrom, more, ne_eq, not_false_eq_true, dite_true]
      rw [ih (fun later => noNul (List.mem_cons_of_mem _ later))]
      · simp only [counted, List.length_cons]
        omega
      · simp only [counted, List.length_cons] at bounded ⊢
        omega

theorem pstrlen_toNat (string : CString) : (pstrlen string).toNat = string.bytes.length := by
  have bounded := string.bounded
  have counted := @pstrlenFrom_toNat string.bytes 0 string.noNul string.terminated
    (by simp; omega)
  rw [UInt64.toNat_zero, Nat.zero_add] at counted
  exact counted

theorem take_memory (string : CString) :
    string.memory.take string.bytes.length = string.bytes :=
  List.take_left

theorem take_pstrlen (string : CString) :
    string.memory.take (pstrlen string).toNat = string.bytes := by
  rw [pstrlen_toNat, take_memory]

/-! ## Output -/

def perrBuffers (name : CString) (errnoV : Int) (msg : CString) : List (List UInt8) :=
  [name.bytes, separator.bytes, msg.bytes, separator.bytes, (pstrerror errnoV).bytes,
    newline.bytes]

/-- `"{program_invocation_short_name}: {msg}: {errno err msg}\n"` -/
def report (name : CString) (errnoV : Int) (msg : CString) : List UInt8 :=
  name.bytes ++ textBytes ": " ++ msg.bytes ++ textBytes ": " ++ (pstrerror errnoV).bytes ++
    textBytes "\n"

theorem flatten_perrBuffers (name : CString) (errnoV : Int) (msg : CString) :
    (perrBuffers name errnoV msg).flatten = report name errnoV msg := by
  simp [perrBuffers, report, separator, newline, CString.ofLiteral]

variable {sink : Sink UInt8} {earlier buffers : List (List UInt8)}

/-- Write each buffer once, whatever is taken of it, and exit. -/
def writeEach (fd status : Int) : List (List UInt8) → Program PerrCalls Empty
  | [] => psysExit status
  | bytes :: rest => .call (.write fd bytes) fun _ => writeEach fd status rest

theorem psysWrite_bind {α : Type} {fd : Int} {buf bytes : List UInt8} {count : UInt64}
    {next : Int → Program PerrCalls α} (taken : buf.take count.toNat = bytes) :
    (psysWrite fd buf count >>= next) = .call (.write fd bytes) next := by
  subst taken
  rfl

theorem perr_eq (name : CString) (exitStatus errnoV : Int) (msg : CString) :
    perr name exitStatus errnoV msg = writeEach 2 1 (perrBuffers name errnoV msg) := by
  have two : separator.memory.take (2 : UInt64).toNat = separator.bytes :=
    take_memory separator
  have one : newline.memory.take (1 : UInt64).toNat = newline.bytes := take_memory newline
  simp only [perr, psysWrite_bind (take_pstrlen _), psysWrite_bind two, psysWrite_bind one,
    perrBuffers, writeEach]

theorem run_writeEach {fd status : Int} :
    ∃ output, PerrCalls.run sink earlier (writeEach fd status buffers) = (output, status) ∧
      outputOf fd output = sink.delivered earlier buffers := by
  induction buffers generalizing earlier with
  | nil => exact ⟨[], rfl, rfl⟩
  | cons bytes rest ih =>
      obtain ⟨output, runs, delivers⟩ := @ih (earlier ++ [bytes])
      refine ⟨(fd, bytes.take (sink.accepts earlier bytes)) :: output, ?_, ?_⟩
      · simp only [writeEach, PerrCalls.run, runs]
      · rw [Sink.delivered, ← delivers]
        simp [outputOf]

theorem run_perr (name : CString) (exitStatus errnoV : Int) (msg : CString) :
    outputOf 2 (PerrCalls.run sink [] (perr name exitStatus errnoV msg)).1 =
        sink.delivered [] (perrBuffers name errnoV msg) ∧
      (PerrCalls.run sink [] (perr name exitStatus errnoV msg)).2 = 1 := by
  obtain ⟨output, runs, delivers⟩ := @run_writeEach sink [] (perrBuffers name errnoV msg) 2 1
  rw [perr_eq, runs]
  exact ⟨delivers, rfl⟩

/-- The report arrives as a whole and the process exits with the requested status. -/
def PerrReports (sink : Sink UInt8) (name : CString) (exitStatus errnoV : Int) (msg : CString) :
    Prop :=
  outputOf 2 (PerrCalls.run sink [] (perr name exitStatus errnoV msg)).1 =
      report name errnoV msg ∧
    (PerrCalls.run sink [] (perr name exitStatus errnoV msg)).2 = exitStatus

/-- `perr` does what it says exactly when no write is short and the status asked for is 1. -/
theorem perr_reports_iff (sink : Sink UInt8) (name : CString) (exitStatus errnoV : Int)
    (msg : CString) :
    PerrReports sink name exitStatus errnoV msg ↔
      sink.AcceptsAll [] (perrBuffers name errnoV msg) ∧ exitStatus = 1 := by
  obtain ⟨delivers, exits⟩ := @run_perr sink name exitStatus errnoV msg
  rw [PerrReports, delivers, exits, ← flatten_perrBuffers, Sink.delivered_eq_flatten_iff]
  exact and_congr_right fun _ => eq_comm

def sampleText : CString := .ofLiteral "aspawn" (by decide)

/-- A process that is to exit with 2 exits with 1, and of a report that is written one byte
at a time six bytes arrive. -/
theorem perr_misreports :
    ¬ PerrReports (Sink.full UInt8) sampleText 2 9 sampleText ∧
      ¬ PerrReports (Sink.single UInt8) sampleText 1 9 sampleText := by
  constructor
  · intro reports
    have status := reports.2
    rw [(run_perr sampleText 2 9 sampleText).2] at status
    exact absurd status (by decide)
  · intro reports
    have output := reports.1
    rw [(run_perr sampleText 1 9 sampleText).1, ← flatten_perrBuffers,
      Sink.delivered_eq_flatten_iff] at output
    exact absurd output.1 (by decide)

end Aspawn
