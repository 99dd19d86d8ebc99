import Aspawn.SyscallWrappers

/-! Which wrappers leave a register that the kernel reads to whatever was in it before. -/

set_option autoImplicit false

namespace Aspawn.Registers

open Loading

variable {args : List Argument} {leftover : UInt64} {file : RegisterFile}

/-- Nothing of what was left above an `int` is read. -/
theorem toUInt32_content {value : UInt32} :
    (Argument.content leftover (.int value)).toUInt32 = value := by
  have mask : (0xffffffff00000000 : UInt64).toUInt32 = 0 := rfl
  rw [Argument.content, UInt64.toUInt32_or, UInt64.toUInt32_and, mask, UInt32.and_zero,
    UInt32.zero_or, UInt32.toUInt32_toUInt64]

namespace PsysCall

def loaded (call : PsysCall) : List Argument :=
  call.required.2.take (if call.isEpollPwait then 5 else 6)

/-- What the wrapper makes of the kernel's answer. -/
def finish (call : PsysCall) (raw : UInt64) : PsysResult :=
  match call with
  | .mmap .. | .mremap .. => .pointer (checkMapError raw)
  | .write .. | .read .. => .int (ssize raw)
  | .exit .. => .unreachable
  | _ => .int (int raw)

end PsysCall

/-! ## Independence of the leftovers -/

end Aspawn.Registers
