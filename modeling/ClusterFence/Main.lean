import ClusterFence.CommandLine.Request

namespace ClusterFence.CommandLine

/-- The content of a file, or what the system says of it. -/
def readFile (path : String) : IO (Except String ByteArray) := do
  try
    return .ok (← IO.FS.readBinFile path)
  catch e => return .error (toString e)

/-- What the program says of a text that is no configuration. -/
def complaint (_ : String) : String := "not a configuration"

/-- Does what the program has come to, and hands on its status. -/
def perform : Outcome → IO UInt32
  | .print text => do
    IO.print text
    return 0
  | .write path content text => do
    try
      IO.FS.writeFile path content
    catch e =>
      IO.eprintln (toString e)
      return 1
    IO.print text
    return 0
  | .fail e => do
    IO.eprintln e.message
    return 1
  | .misuse => do
    IO.eprint usage
    return 2

end ClusterFence.CommandLine

/-- Starts the program with its arguments. -/
def main (args : List String) : IO UInt32 := do
  match ClusterFence.CommandLine.Request.ofArguments? args with
  | some (.run config command) =>
    let content ← ClusterFence.CommandLine.readFile config
    ClusterFence.CommandLine.perform
      (command.outcome ClusterFence.CommandLine.complaint (fun _ => content) config)
  | _ =>
    ClusterFence.CommandLine.perform
      (ClusterFence.CommandLine.outcome ClusterFence.CommandLine.complaint (fun _ => .error "") args)
