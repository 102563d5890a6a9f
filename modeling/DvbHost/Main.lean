import DvbHost.Listing.Command

/-! # The listing command: reads a file and prints what it holds -/

open DvbHost.Listing

def main (args : List String) : IO UInt32 := do
  if (Command.takeFlag ["-h", "--help"] args).1 then
    IO.println Command.help
    return 0
  match Command.ofArguments args with
  | .error e =>
    IO.eprintln ("Error: " ++ e.message)
    return 1
  | .ok command =>
    let input ← IO.FS.readBinFile command.path
    for entry in command.entries input.toList do
      IO.println entry
    return 0
