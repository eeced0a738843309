import Cpipe.Runtime.Calls

/-! The `run` command. -/

namespace Cpipe.Cli
open Cpipe.Runtime Cpipe.Runtime.Pipeline

/-- `path.extension()`. A name that begins with its only dot has none. -/
def extension (path : String) : List Char :=
  let name := (path.toList.reverse.takeWhile (· ≠ '/')).reverse
  let suffix := (name.reverse.takeWhile (· ≠ '.')).reverse
  if name = ['.','.'] ∨ name.length ≤ suffix.length+1 then [] else '.' :: suffix

def hasDngExtension (path : String) : Bool :=
  (extension path).map Char.toLower = ['.','d','n','g']

/-- The status a call returns. -/
def statusOf (error : Option Error) : Status := (error.map Error.status).getD .ok

variable {D : Type}

/-- The calls of the command behind `Pipeline::load`, and the status it exits with. -/
def run (p : Pipeline) (input output : String) (fill : List UInt8 → D) (files : Files)
    (source : SourcePlugin D) (plugins : Nat → Plugin D) : List (Call D) × Status :=
  if hasDngExtension input then
    match p.setSource "raw" "com.cpipe.builtin.dng_input" [("path",.string input)] with
    | .error status => ([],status)
    | .ok bound =>
      (boundCalls bound (some output) source plugins,
        statusOf (runBound bound (some output) source plugins).error)
  else
    let (calls,error) := p.runFile fill files plugins
    (calls,statusOf error)

example : (["a.dng","b.tar.DNG","c/.dng","d.bin",".."].map hasDngExtension) =
    [true,true,false,false,false] := by decide

end Cpipe.Cli
