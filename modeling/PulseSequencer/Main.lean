import PulseSequencer.Demo

/-!
This module contains the command line program, which runs the demonstration.
-/

def main : IO UInt32 := do
  let (result, log) := PulseSequencer.Demo.run
  for event in log do
    IO.eprintln event.text
  match result with
  | .ok lines =>
    for line in lines do
      IO.println line
    return 0
  | .error cause =>
    IO.eprintln ("Error: " ++ cause.message)
    return 1
