import Aspawn.FindExe

/-! The search loop around `find_exe` and `handle_execve_err`: `psys_execvep` of
`test/utility.c`, and the usage comment of `find_exe` where it stops at -1. -/

set_option autoImplicit false

namespace Aspawn

inductive ExecveResult where
  /-- The process image is replaced and the call does not return. -/
  | replaced
  | failed (errno : Errno)
  deriving DecidableEq, Repr

/-- What `psys_execve` returns when it returns. -/
def psysExecveResult (errno : Errno) : Int := -errno.value

/-- The ways out of the loop; those that return do so through `psys_err`. -/
inductive SearchEnd where
  | executed
  /-- "Executable is found, but failed to execute it" -/
  | hardError (result : Int)
  /-- "One of the environment path is longer than PATH_MAX" -/
  | tooLong
  /-- "Executable is found but execve failed" -/
  | accessDenied
  /-- "Executable not found" -/
  | notFound
  deriving DecidableEq, Repr

/-- The string that `execve` reads. -/
def cString (object : List UInt8) : List UInt8 := object.takeWhile fun byte => byte ≠ 0

/-- The loop from one `find_exe` call on, with the paths it hands to `execve`. -/
def searchPath (execve : List UInt8 → ExecveResult) (file : List UInt8) (fileLen : UInt64)
    (PATH : List UInt8) (pathMaxLen : UInt64) :
    Nat → Int → FindExeState → Option (SearchEnd × List (List UInt8))
  | 0, _, _ => none
  | fuel + 1, gotEaccess, state => do
      let (found, state) ← findExe file fileLen PATH pathMaxLen state
      if found = 1 then
        let path := cString state.constructedPath
        match execve path with
        | .replaced => some (.executed, [path])
        | .failed errno =>
            let (result, gotEaccess) := handleExecveErr (psysExecveResult errno) gotEaccess
            if result < 0 then
              some (.hardError result, [path])
            else
              let (ending, tried) ←
                searchPath execve file fileLen PATH pathMaxLen fuel gotEaccess state
              some (ending, path :: tried)
      else if found = -1 then
        some (.tooLong, [])
      else if gotEaccess ≠ 0 then
        some (.accessDenied, [])
      else
        some (.notFound, [])

def PATH_MAX : UInt64 := 4096

/-- `constructedPath` is what the uninitialised local array holds. -/
def psysExecvep (execve : List UInt8 → ExecveResult) (file : List UInt8) (fileLen : UInt64)
    (path constructedPath : List UInt8) (fuel : Nat) :
    Option (SearchEnd × List (List UInt8)) :=
  searchPath execve file fileLen path PATH_MAX fuel 0 { path := 0, constructedPath }

end Aspawn
