import AccountRoster.Text.Concealed

/-! # Quoted text in messages

A message that repeats a name it was given puts it between quotes, so that
blanks at its ends and characters without a shape stay visible. -/

namespace AccountRoster.Text

/-- A code point in lower-case hexadecimal between braces. -/
def numbered (c : Char) : List Char :=
  ['\\', 'u', '\x7b'] ++ Nat.toDigits 16 c.toNat ++ ['\x7d']

/-- One character between quotes of the given kind; only that quote is escaped. -/
def quotedChar (quote c : Char) : List Char :=
  if c = '\x00' then ['\\', '0']
  else if c = '\t' then ['\\', 't']
  else if c = '\r' then ['\\', 'r']
  else if c = '\n' then ['\\', 'n']
  else if c = '\\' then ['\\', '\\']
  else if c = quote then ['\\', quote]
  else if isConcealed c then numbered c
  else [c]

/-- A text between double quotes. -/
def quoted (text : String) : String :=
  String.ofList (['"'] ++ text.toList.flatMap (quotedChar '"') ++ ['"'])

/-- A character between single quotes. -/
def quotedMark (c : Char) : String :=
  String.ofList (['\''] ++ quotedChar '\'' c ++ ['\''])

example : quoted "a\t'\"" = "\"a\\t'\\\"\"" := by decide +kernel

example : quoted "\x7f" = "\"\\u\x7b7f\x7d\"" := by decide +kernel

example : quotedMark '\n' = "'\\n'" := by decide +kernel

end AccountRoster.Text
