import LimitBook.CommandLine

/-! The program: orders on standard input, trades on standard output, diagnostics on standard
error. -/
namespace LimitBook.CommandLine

partial def readAll (stream : IO.FS.Stream) (bytes : ByteArray) : IO ByteArray := do
  let chunk ← stream.read 65536
  if chunk.isEmpty then return bytes else readAll stream (bytes ++ chunk)

def inputOf : Request → IO ByteArray
  | .run _ => do readAll (← IO.getStdin) .empty
  | _ => pure .empty

def hint : Request → Array String
  | .unusable => usage
  | _ => #[]

end LimitBook.CommandLine

open LimitBook in
def main (arguments : List String) : IO UInt32 := do
  let request := CommandLine.parse {} arguments
  let input ← CommandLine.inputOf request
  let result := CommandLine.run arguments input.toList
  for line in result.output do IO.println line
  for line in result.diagnostics ++ CommandLine.hint request do IO.eprintln line
  return result.exitCode.toUInt32
