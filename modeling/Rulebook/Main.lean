import Rulebook.Demo.Login

/-! Command line: prints the transcript of the login screen. -/

def main : IO UInt32 := do
  match Rulebook.Login.transcript with
  | some text =>
    IO.print text
    return 0
  | none =>
    IO.eprintln "the demonstration did not come to an end"
    return 1
