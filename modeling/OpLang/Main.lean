/-
**The program.**

Reads what the arguments name and writes what the command line answers while its log is off.
-/

import OpLang.CommandLine

namespace OpLang

open CommandLine (ReadFault Inputs)

/-- The bytes of a file, or the fault that kept them. -/
def readFile (name : String) : IO (Except ReadFault ByteArray) := do
  if name.isEmpty then return .error .missing
  try
    return .ok (← IO.FS.readBinFile name)
  catch
    | .noFileOrDirectory .. => return .error .missing
    | .inappropriateType .. => return .error .directory
    | fault => return .error (.other (toString fault))

/-- The inputs of a run of the program: the standard input is read only when no file is named. -/
def inputs (arguments : List String) : IO Inputs := do
  match CommandLine.readArguments .initial arguments with
  | .ok { file := some name, .. } =>
    let content ← readFile name
    return ⟨ByteArray.empty, fun _ => content⟩
  | .ok _ =>
    let bytes ← (← IO.getStdin).readBinToEnd
    return ⟨bytes, fun _ => .error .missing⟩
  | .error _ => return ⟨ByteArray.empty, fun _ => .error .missing⟩

end OpLang

/-- Answers the command line. -/
def main (arguments : List String) : IO UInt32 := do
  let answer := OpLang.CommandLine.answer arguments (← OpLang.inputs arguments)
  (← IO.getStdout).putStr answer.output
  (← IO.getStderr).putStr answer.errors
  return UInt32.ofNat answer.status
