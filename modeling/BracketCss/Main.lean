import BracketCss.Command.Run

/-!
# Command line

The program: it reads the files below the present directory, runs the command that its arguments
give, prints what the run prints and writes what it writes.

## Main definitions

* `Command.readTree`: the files below the present directory
* `main`: the program
-/

namespace BracketCss.Command

/-- The files at or below an entry of a directory, which the names `above` lead to. -/
partial def readEntry (above : List String) (entry : IO.FS.DirEntry) :
    IO (List (List String × Option String)) := do
  let names := above ++ [entry.fileName]
  if ← entry.path.isDir then
    let inner ← (← entry.path.readDir).toList.mapM (readEntry names)
    return inner.flatten
  let bytes ← IO.FS.readBinFile entry.path
  return [(names, String.fromUTF8? bytes)]

/-- The files below the present directory. -/
def readTree : IO FileTree := do
  let entries ← (← IO.currentDir).readDir
  return ⟨(← entries.toList.mapM (readEntry [])).flatten⟩

/-- Why a run could not be finished, in words. -/
def FileFault.message : FileFault → String
  | notText => "an input file is not text"
  | missingDirectory => "the directory of the output file does not exist"
  | notDirectory => "the output file lies below a file"
  | isDirectory => "the output file is a directory"

end BracketCss.Command

open BracketCss.Command in
/-- The program. -/
def main (args : List String) : IO UInt32 := do
  let tree ← if args.contains "build" then readTree else pure ⟨[]⟩
  let result := run tree args
  IO.print result.output
  IO.eprint result.messages
  if let some fault := result.fault then IO.eprintln fault.message
  if let some (path, text) := result.written then IO.FS.writeFile (pathText path) text
  return result.exitCode.toUInt32
