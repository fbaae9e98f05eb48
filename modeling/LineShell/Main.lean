import LineShell.Program

/-!
# The command line

The program on a host that is held in memory: it has the devices, the working directory, and the
configuration file if there is one.  Standard input is read to its end, the session runs, and what
reached its terminal is written to the two standard streams.
-/

namespace LineShell.CommandLine

def passedVariables : List String := ["HOME", "PATH", "MINISH_CONFIG", "MINISH_LOG", "NO_COLOR"]

def variableBlock : IO (List Text) := do
  let entries ← passedVariables.mapM fun name => do
    return (← IO.getEnv name).map fun value => name.toList ++ '=' :: value.toList
  return entries.filterMap id

partial def readToEnd (input : IO.FS.Stream) (acc : Bytes) : IO Bytes := do
  let chunk ← input.read 65536
  if chunk.isEmpty then return acc
  readToEnd input (acc ++ chunk.toList)

def placeOf (path : Text) : Place :=
  ((Text.fields '/' path).filter fun field => !field.isEmpty).reverse

def initialTree (cwd : Text) (block : List Text) : IO FileTree := do
  let tree := FileTree.bare.makeDirectories (placeOf cwd)
  match Program.configPath? block with
  | none => return tree
  | some path =>
      try
        let content ← IO.FS.readBinFile (String.ofList path)
        return tree.make (placeOf (Path.join cwd path)) (.file 0o644 content.toList)
      catch _ => return tree

end LineShell.CommandLine

open LineShell LineShell.CommandLine

def main : IO UInt32 := do
  let cwd := (← IO.currentDir).toString.toList
  let block ← variableBlock
  let input ← readToEnd (← IO.getStdin) []
  let tree ← initialTree cwd block
  let (status, host) := Program.run block (.input input) (Host.start tree (placeOf cwd))
  (← IO.getStdout).write host.out.toByteArray
  (← IO.getStderr).write host.err.toByteArray
  return (status.getD 1).toUInt32
