import AccountRoster.Text.Quoted

/-! # Text in a log

A log is read on a terminal. Characters that start a command to it are written
by number; every other one, ends of lines included, stays as it is. -/

namespace AccountRoster.Text

/-- Two lower-case hexadecimal digits after a mark. -/
def marked (c : Char) : List Char :=
  ['\\', 'x'] ++ (if c.toNat < 0x10 then ['0'] else []) ++ Nat.toDigits 16 c.toNat

/-- The characters below U+0080 that a terminal takes for commands: bell,
backspace, form feed, escape and delete. -/
def terminalCommands : List Char := ['\x07', '\x08', '\x0c', '\x1b', '\x7f']

/-- One character in a log. -/
def loggedChar (c : Char) : List Char :=
  if c ∈ terminalCommands then marked c
  else if 0x80 ≤ c.toNat ∧ c.toNat < 0xA0 then numbered c
  else [c]

/-- A text as a log shows it. -/
def logged (text : String) : String := String.ofList (text.toList.flatMap loggedChar)

example : logged "a\x1b[1m\x07\tb" = "a\\x1b[1m\\x07\tb" := by decide +kernel

example : logged "\u009f\u00a0" = "\\u\x7b9f\x7d\u00a0" := by decide +kernel

end AccountRoster.Text
