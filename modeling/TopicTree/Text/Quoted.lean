import TopicTree.Text.Utf8

/-!
# Quoted text

Messages quote a name in double quotes. Quotes, backslashes and control characters are written as
escapes, so that a quoted name never spoils the line it stands in; every other character stands for
itself.
-/

namespace TopicTree.Text

/-- A control character: below the space, or from DEL to the end of the second control block. -/
def isControl (c : Char) : Bool :=
  c.toNat < 0x20 || (0x7f ≤ c.toNat && c.toNat < 0xa0)

/-- A number in lowercase hexadecimal digits, without leading zeros. -/
def hexDigits (n : Nat) : List Char :=
  Nat.toDigits 16 n

/-- A control character without a short escape is written by its code point in braces. -/
def codePointEscape (c : Char) : List Char :=
  ['\\', 'u', '\x7b'] ++ hexDigits c.toNat ++ ['\x7d']

/-- One character inside quotes. -/
def quotedChar (c : Char) : List Char :=
  match c with
  | '"' => ['\\', '"']
  | '\\' => ['\\', '\\']
  | '\t' => ['\\', 't']
  | '\n' => ['\\', 'n']
  | '\r' => ['\\', 'r']
  | '\x00' => ['\\', '0']
  | c => if isControl c then codePointEscape c else [c]

/-- A text in double quotes, with escapes. -/
def quoted (text : String) : String :=
  String.ofList ('"' :: text.toList.flatMap quotedChar ++ ['"'])

end TopicTree.Text
