import StreamScan.CommandLine

/-!
# The program — command line, disk and terminal

Looks up on the disk what the address names, reads standard input if the address asks for it, and
prints the report of the run.  Whatever on the disk can be read to its end counts as a regular file.
-/

namespace StreamScan.CommandLine

/-- An error as the operating system gives it.  Those without a number of their own count as errors
    of input and output. -/
def systemError : IO.Error → SystemError
  | .noFileOrDirectory _ number text => ⟨number.toNat, text⟩
  | .invalidArgument _ number text => ⟨number.toNat, text⟩
  | .permissionDenied _ number text => ⟨number.toNat, text⟩
  | .resourceExhausted _ number text => ⟨number.toNat, text⟩
  | .inappropriateType _ number text => ⟨number.toNat, text⟩
  | .otherError number text => ⟨number.toNat, text⟩
  | .hardwareFault number text => ⟨number.toNat, text⟩
  | other => ⟨5, toString other⟩

/-- What a path leads to on the disk. -/
def entryAt (path : String) : IO Entry := do
  try
    return .file (← IO.FS.readBinFile path).data
  catch
    | .permissionDenied name number text =>
      return .locked (systemError (.permissionDenied name number text))
    | other => return .refused (systemError other)

/-- The disk, as far as the address to scan needs it. -/
def diskFor (arguments : List String) : IO FileSystem := do
  match Options.parse arguments with
  | .options o =>
    if o.address = "-" then return ⟨fun _ => .missing⟩
    match Address.path o.address with
    | .ok path =>
      let entry ← entryAt path
      return ⟨fun _ => entry⟩
    | .error _ => return ⟨fun _ => .missing⟩
  | _ => return ⟨fun _ => .missing⟩

/-- Everything that is left in a stream, and the error of a read that failed. -/
partial def readRest (stream : IO.FS.Stream) (got : ByteArray) :
    IO (ByteArray × Option SystemError) := do
  match ← (stream.read 65536).toBaseIO with
  | .ok more => if more.isEmpty then return (got, none) else readRest stream (got ++ more)
  | .error error => return (got, some (systemError error))

/-- The input of a run, empty unless the address asks for it. -/
def inputFor (arguments : List String) : IO Input := do
  match Options.parse arguments with
  | .options o =>
    if o.address = "-" then
      match ← readRest (← IO.getStdin) ByteArray.empty with
      | (got, none) => return .ofBytes got.toList
      | (got, some error) =>
        if h : error.kind = .brokenPipe then return .ofBytes got.toList
        else return ⟨got.toList, some error, fun _ heq => Option.some.inj heq ▸ h⟩
    else return .ofBytes []
  | _ => return .ofBytes []

end StreamScan.CommandLine

open StreamScan.CommandLine in
/-- Runs the program. -/
def main (arguments : List String) : IO UInt32 := do
  let surroundings : Surroundings :=
    { Surroundings.plain (← diskFor arguments) [] with input := ← inputFor arguments }
  let report := runIn surroundings arguments
  for line in report.printed do
    IO.println line
  for line in report.errors do
    IO.eprintln line
  match report.conclusion with
  | .exit code => return code.toUInt32
  | .escaped failure => throw (IO.userError failure.message)
