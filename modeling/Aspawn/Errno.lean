/-! Error numbers of Linux on x86-64. -/

set_option autoImplicit false

namespace Aspawn

/-- An error number that a system call reports. -/
structure Errno where
  value : Int
  positive : 0 < value
  small : value < 4096
  deriving DecidableEq, Repr

/-- What a system call returns when it fails. -/
def IsError (result : Int) : Prop := ∃ errno : Errno, result = -errno.value

theorem IsError.negative {result : Int} (failed : IsError result) : result < 0 := by
  obtain ⟨errno, rfl⟩ := failed
  have positive := errno.positive
  omega

def ENOENT : Int := 2
def ESRCH : Int := 3
def EBADF : Int := 9
def EACCES : Int := 13
def ENODEV : Int := 19
def ENOTDIR : Int := 20
def EINVAL : Int := 22
def ENOSYS : Int := 38
def ETIMEDOUT : Int := 110
def ESTALE : Int := 116

/-- The error of a system call that the kernel does not have. -/
def Errno.nosys : Errno := ⟨ENOSYS, by decide, by decide⟩

end Aspawn
