import DeviceSnapshot.CommandLine.Run

/-!
# The program

The outer layer reads what a command needs, runs it, and writes what it leaves behind.
-/

namespace DeviceSnapshot

def helpText : String :=
  "Normalize device enumeration snapshots into stable, sorted text\n\n" ++
  "Usage: devsnap print [FILE] [--table <udev|uevents> | --no-rules]\n" ++
  "       devsnap rules show [--table <udev|uevents>]\n" ++
  "       devsnap rules validate\n"

def readFile? (file : String) : IO (Option (List UInt8)) := do
  try
    let bytes ← IO.FS.readBinFile file
    return some bytes.toList
  catch _ => return none

/-- Read what a request needs. -/
def environment (request : Request) : IO Environment := do
  let logFilter ← IO.getEnv "RUST_LOG"
  match request with
  | .run (.print none _) =>
    let bytes ← (← IO.getStdin).readBinToEnd
    return { stdin := bytes.toList, file? := fun _ ↦ none, logFilter }
  | .run (.print (some file) _) =>
    let bytes ← readFile? file
    return { stdin := [], file? := fun _ ↦ bytes, logFilter }
  | _ => return { stdin := [], file? := fun _ ↦ none, logFilter }

end DeviceSnapshot

open DeviceSnapshot in
def main (args : List String) : IO UInt32 := do
  let request := Request.ofArgs args
  let outcome := request.answer (← environment request) helpText
  for line in outcome.log do
    IO.eprintln ("[" ++ line.level.name ++ " " ++ line.origin.name ++ "] " ++ line.message)
  IO.print outcome.stdout
  if let some error := outcome.error then IO.eprintln ("error: " ++ error)
  return outcome.exitCode.toUInt32
