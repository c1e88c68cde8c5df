import Population.CommandLine.Exit

namespace Population.Program

def ofBytes (b : ByteArray) : Text :=
  b.toList

def toBytes (t : Text) : ByteArray :=
  ⟨t.toArray⟩

/-- A path as the system takes it; there is none for bytes that are no text. -/
def systemPath (path : Text) : String :=
  (String.fromUTF8? (toBytes path)).getD ""

def maxDepth : Nat := 32

/-- The names of the files below a path, which is at a place; their contents are left out. -/
def list : (depth : Nat) → (path : String) → (place : List Text) → IO (List (List Text × TreeNode))
  | 0, _, _ => return []
  | depth + 1, path, place => do
    try
      let found ← IO.FS.realPath path
      if ← found.isDir then
        let mut entries := [(place, TreeNode.directory)]
        for entry in ← found.readDir do
          let below ← list depth (path ++ "/" ++ entry.fileName) (place ++ [Text.ofString entry.fileName])
          entries := below ++ entries
        return entries
      else if ← found.pathExists then return [(place, .file [])]
      else return []
    catch _ => return []

/-- The directory in which all matches of a word lie, if it is not below the current one. -/
def outside? (word : Text) : Option Text :=
  let value := ((Text.cut "=" word).map (·.2)).getD word
  let fixed := value.takeWhile (!Glob.isMeta ·)
  let base := if fixed.length < value.length then Path.directory fixed else fixed
  if Path.isAbsolute base || base.startsWith ".." then some (Path.clean base) else none

def listAll (words : List Text) : IO Tree := do
  let mut entries ← list maxDepth "." []
  for path in (words.filterMap outside?).eraseDups do
    entries := entries ++ (← list maxDepth (systemPath path) (Tree.place path))
  return ⟨entries⟩

def fill (e : Environment) (words : List Text) : IO Environment := do
  let mut tree := e.tree
  for path in CommandLine.wanted e words do
    try
      tree := tree.put path (ofBytes (← IO.FS.readBinFile (systemPath path)))
    catch _ => pure ()
  return { e with tree }

def newRunId : IO Text := do
  let group := fun width => return Text.hex width (← IO.rand 0 (Nat.pow 16 width - 1))
  let groups ← [8, 4, 4, 4, 12].mapM group
  return Text.join "-" groups

def environment (words : List Text) : IO Environment := do
  let directory := Text.ofString (← IO.FS.realPath ".").toString
  let start : Environment :=
    { tree := ← listAll words, directory, runId := ← newRunId, time := none, elapsed := ⟨0⟩ }
  fill (← fill start words) words

def writeMetrics (err : IO.FS.Stream) : Closing → IO Unit
  | .nothing => pure ()
  | .written path bytes => IO.FS.writeBinFile (systemPath path) (toBytes bytes)
  | .unwritten path => do
    let warning : LogRecord := ⟨.warn, "Failed to close the application cleanly.",
      [("error", .text ("failed to write metrics to " ++ path))]⟩
    err.write (toBytes (warning.toLine none))

def exitCode (err : IO.FS.Stream) : ExitStatus → IO UInt32
  | .success => return 0
  | .failure code message => do
    if !message.isEmpty then err.write (toBytes (message ++ "\n"))
    return code.toUInt32
  | .abandoned => do
    err.write (toBytes "the compilation was abandoned\n")
    return 2

/-- Carries out a command line. The time until its output is written stands for that of the execution. -/
def run (words : List Text) : IO UInt32 := do
  let e ← environment words
  let out ← IO.getStdout
  let err ← IO.getStderr
  let start ← IO.monoNanosNow
  let exit := CommandLine.execute e none words
  out.write (toBytes exit.printed)
  out.flush
  err.write (toBytes exit.log)
  let elapsed : Duration := ⟨(← IO.monoNanosNow) - start⟩
  if exit.closing ≠ .nothing then
    writeMetrics err (CommandLine.execute { e with elapsed } none words).closing
  exitCode err exit.status

end Population.Program

def main (args : List String) : IO UInt32 :=
  Population.Program.run (args.map Population.Text.ofString)
