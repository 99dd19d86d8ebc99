import Aspawn.FindExe
import Aspawn.Lib.PartialWrites
import Aspawn.Lib.Program

/-! `perr` and `pstrerror` of `syscall/syscall.c` with the table of `syscall/errno_msgs.h`
and `pstrlen` of `syscall/memory.c`. -/

set_option autoImplicit false

namespace Aspawn

/-! ## Strings -/

def textBytes (text : String) : List UInt8 := text.toUTF8.data.toList

/-- The text is a string literal of reasonable length without an embedded NUL. -/
def Literal (text : String) : Prop :=
  0 ∉ textBytes text ∧ (textBytes text).length + 1 < 2 ^ 64

instance (text : String) : Decidable (Literal text) := inferInstanceAs (Decidable (_ ∧ _))

def CString.ofLiteral (text : String) (literal : Literal text) : CString where
  bytes := textBytes text
  noNul := literal.1
  bounded := literal.2

/-- The loop of `pstrlen` over what is left of the object. -/
def pstrlenFrom : (s : List UInt8) → 0 ∈ s → UInt64 → UInt64
  | [], terminated, _ => absurd terminated List.not_mem_nil
  | byte :: rest, terminated, len =>
      if more : byte ≠ 0 then
        pstrlenFrom rest ((List.mem_cons.mp terminated).resolve_left more.symm) (len + 1)
      else
        len

theorem CString.terminated (string : CString) : 0 ∈ string.memory :=
  List.mem_append_right _ List.mem_cons_self

def pstrlen (s : CString) : UInt64 := pstrlenFrom s.memory s.terminated 0

/-! ## `syscall/errno_msgs.h` -/

def errnoMsgs : List String := [
  "Operation not permitted",
  "No such file or directory",
  "No such process",
  "Interrupted system call",
  "Input/output error",
  "No such device or address",
  "Argument list too long",
  "Exec format error",
  "Bad file descriptor",
  "No child processes",
  "Resource temporarily unavailable",
  "Cannot allocate memory",
  "Permission denied",
  "Bad address",
  "Block device required",
  "Device or resource busy",
  "File exists",
  "Invalid cross-device link",
  "No such device",
  "Not a directory",
  "Is a directory",
  "Invalid argument",
  "Too many open files in system",
  "Too many open files",
  "Inappropriate ioctl for device",
  "Text file busy",
  "File too large",
  "No space left on device",
  "Illegal seek",
  "Read-only file system",
  "Too many links",
  "Broken pipe",
  "Numerical argument out of domain",
  "Numerical result out of range",
  "Resource deadlock avoided",
  "File name too long",
  "No locks available",
  "Function not implemented",
  "Directory not empty",
  "Too many levels of symbolic links",
  "Unknown errno",
  "No message of desired type",
  "Identifier removed",
  "Channel number out of range",
  "Level 2 not synchronized",
  "Level 3 halted",
  "Level 3 reset",
  "Link number out of range",
  "Protocol driver not attached",
  "No CSI structure available",
  "Level 2 halted",
  "Invalid exchange",
  "Invalid request descriptor",
  "Exchange full",
  "No anode",
  "Invalid request code",
  "Invalid slot",
  "Unknown errno",
  "Bad font file format",
  "Device not a stream",
  "No data available",
  "Timer expired",
  "Out of streams resources",
  "Machine is not on the network",
  "Package not installed",
  "Object is remote",
  "Link has been severed",
  "Advertise error",
  "Srmount error",
  "Communication error on send",
  "Protocol error",
  "Multihop attempted",
  "RFS specific error",
  "Bad message",
  "Value too large for defined data type",
  "Name not unique on network",
  "File descriptor in bad state",
  "Remote address changed",
  "Can not access a needed shared library",
  "Accessing a corrupted shared library",
  ".lib section in a.out corrupted",
  "Attempting to link in too many shared libraries",
  "Cannot exec a shared library directly",
  "Invalid or incomplete multibyte or wide character",
  "Interrupted system call should be restarted",
  "Streams pipe error",
  "Too many users",
  "Socket operation on non-socket",
  "Destination address required",
  "Message too long",
  "Protocol wrong type for socket",
  "Protocol not available",
  "Protocol not supported",
  "Socket type not supported",
  "Operation not supported",
  "Protocol family not supported",
  "Address family not supported by protocol",
  "Address already in use",
  "Cannot assign requested address",
  "Network is down",
  "Network is unreachable",
  "Network dropped connection on reset",
  "Software caused connection abort",
  "Connection reset by peer",
  "No buffer space available",
  "Transport endpoint is already connected",
  "Transport endpoint is not connected",
  "Cannot send after transport endpoint shutdown",
  "Too many references: cannot splice",
  "Connection timed out",
  "Connection refused",
  "Host is down",
  "No route to host",
  "Operation already in progress",
  "Operation now in progress",
  "Stale file handle",
  "Structure needs cleaning",
  "Not a XENIX named type file",
  "No XENIX semaphores available",
  "Is a named type file",
  "Remote I/O error",
  "Disk quota exceeded",
  "No medium found",
  "Wrong medium type",
  "Operation canceled",
  "Required key not available",
  "Key has expired",
  "Key has been revoked",
  "Key was rejected by service",
  "Owner died",
  "State not recoverable",
  "Operation not possible due to RF-kill",
  "Memory page has hardware error"]

def errnoMsgsSz : Nat := errnoMsgs.length

theorem errnoMsgs_literal : ∀ text ∈ errnoMsgs, Literal text := by
  decide +kernel

/-! ## `syscall/syscall.c` -/

def pstrerror (errnoV : Int) : CString :=
  if invalid : errnoV ≤ 0 ∨ errnoV > errnoMsgsSz then
    .ofLiteral "Invalid errno" (by decide)
  else
    have inside : (errnoV - 1).toNat < errnoMsgs.length := by
      simp only [errnoMsgsSz] at invalid
      omega
    .ofLiteral (errnoMsgs.get ⟨(errnoV - 1).toNat, inside⟩)
      (errnoMsgs_literal _ (List.get_mem errnoMsgs _))

inductive PerrRequest where
  | write (fd : Int) (bytes : List UInt8)
  | exit (status : Int)

abbrev PerrRequest.Response : PerrRequest → Type
  | .write _ _ => Int
  | .exit _ => Empty

abbrev PerrCalls : Signature where
  Request := PerrRequest
  Response := PerrRequest.Response

/-- The kernel reads `count` bytes from `buf` on. -/
def psysWrite (fd : Int) (buf : List UInt8) (count : UInt64) : Program PerrCalls Int :=
  Program.perform (S := PerrCalls) (.write fd (buf.take count.toNat))

def psysExit (status : Int) : Program PerrCalls Empty :=
  Program.perform (S := PerrCalls) (.exit status)

def separator : CString := .ofLiteral ": " (by decide)
def newline : CString := .ofLiteral "\n" (by decide)

/-- The status of the last line is the source's; `exit_status` occurs nowhere in the body. -/
def perr (programInvocationShortName : CString) (_exitStatus errnoV : Int) (msg : CString) :
    Program PerrCalls Empty := do
  let errMsg := pstrerror errnoV
  let _ ← psysWrite 2 programInvocationShortName.memory (pstrlen programInvocationShortName)
  let _ ← psysWrite 2 separator.memory 2
  let _ ← psysWrite 2 msg.memory (pstrlen msg)
  let _ ← psysWrite 2 separator.memory 2
  let _ ← psysWrite 2 errMsg.memory (pstrlen errMsg)
  let _ ← psysWrite 2 newline.memory 1
  psysExit 1

/-! ## Runs -/

/-- What each descriptor is given, in order, and the status that the process exits with,
where the kernel takes of each buffer what the sink accepts. -/
def PerrCalls.run (sink : Sink UInt8) :
    List (List UInt8) → Program PerrCalls Empty → List (Int × List UInt8) × Int
  | _, .done impossible => nomatch impossible
  | earlier, .call (.write fd bytes) next =>
      let accepted := sink.accepts earlier bytes
      let (output, status) := run sink (earlier ++ [bytes]) (next accepted)
      ((fd, bytes.take accepted) :: output, status)
  | _, .call (.exit status) _ => ([], status)

/-- The bytes that arrive at a descriptor. -/
def outputOf (fd : Int) (output : List (Int × List UInt8)) : List UInt8 :=
  (output.filter fun piece => piece.1 = fd).flatMap Prod.snd

end Aspawn
