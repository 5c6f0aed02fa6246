/-
# RegisterTransfer.Main -- the program

Reads the files that the arguments name and prints what `CommandLine.run` makes of them.

Three things are left out:

* decoding x86 code.  Its instructions come decoded, from any `Decoder`, and the program itself has none;
* logging.  Nothing is written but the result and the message of an error;
* overflow of addresses and lengths.  They are natural numbers, and where a machine computes an address
  modulo some width, that is written out.

Operations on reals and intrinsics have no values of their own.  Where a theorem runs statements, it takes them
from an `Interpretation`, whatever that is.
-/
import RegisterTransfer.CommandLine

set_option autoImplicit false

/-- The contents of a file, if it can be read. -/
def readFile? (path : String) : IO (Option (String × List UInt8)) := do
  try
    let bytes ← IO.FS.readBinFile path
    return some (path, bytes.toList)
  catch _ => return none

def main (arguments : List String) : IO UInt32 := do
  let files ← (RegisterTransfer.CommandLine.paths arguments).filterMapM readFile?
  let outcome := RegisterTransfer.CommandLine.run files arguments
  IO.print outcome.out
  if outcome.err ≠ "" then IO.eprintln outcome.err
  return UInt32.ofNat outcome.code
