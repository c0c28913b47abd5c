import StreamProgress.Command

/-!
# The program

The outer layer: read the files that a call names, run `Command.exit`, print what it says.
-/

namespace StreamProgress

/-- The content of a file as far as the system gives it. -/
def readContent (path : String) : IO (Except ReadFault String) := do
  try
    let content ← IO.FS.readBinFile path
    return Files.decode content
  catch
    | .noFileOrDirectory .. => return .error .missing
    | .inappropriateType _ 20 _ => return .error .notDirectory
    | .inappropriateType _ 21 _ => return .error .isDirectory
    | fault => return .error (.refused (toString fault))

/-- The files that a call may read. -/
def readFiles (args : List String) : IO Files := do
  let paths := match Command.Request.ofArgs args with
    | .ok request => request.paths
    | .error _ => []
  let contents ← paths.mapM fun path => do
    let content ← readContent path
    return (path, content)
  return fun path => (contents.lookup path).getD (.error .missing)

end StreamProgress

/-- Run one call of the command line. -/
def main (args : List String) : IO UInt32 := do
  let files ← StreamProgress.readFiles args
  let exit := StreamProgress.Command.exit files args
  (← IO.getStdout).putStr exit.stdout
  (← IO.getStderr).putStr exit.stderr
  return exit.code
