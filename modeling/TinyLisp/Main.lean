import TinyLisp.Command.Invocation

/-!
The program: reads what a call asks for, runs it, and writes what it leaves behind.
-/

namespace TinyLisp

def Text.ofBytes (b : ByteArray) : Text := b.toList

def Text.toBytes (t : Text) : ByteArray := ⟨t.toArray⟩

def readFile (path : Text) : IO (Except FileFault Text) := do
  try
    let bytes ← IO.FS.readBinFile (String.ofList path.chars)
    return .ok (Text.ofBytes bytes)
  catch
    | .inappropriateType .. => return .error .isDirectory
    | _ => return .error .missing

def readInput (args : List Text) : IO Text := do
  if Invocation.mayRead args then
    return Text.ofBytes (← (← IO.getStdin).readBinToEnd)
  else
    return []

end TinyLisp

open TinyLisp in
def main (args : List String) : IO UInt32 := do
  let args := args.map Text.ofString
  let input ← readInput args
  let content ← readFile (Invocation.fileNamed args)
  let output := Invocation.run ⟨args, ⟨[input], none⟩, none, fun _ => content⟩
  let log := output.log.flatMap fun l => l.entries.flatMap (· ++ [10])
  (← IO.getStdout).write (Text.toBytes output.printed)
  (← IO.getStderr).write (Text.toBytes (log ++ output.complaint))
  return UInt32.ofNat output.exitCode
