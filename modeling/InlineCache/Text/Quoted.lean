import InlineCache.Text.Printable

/-!
Quoted text in listings: the usual controls have short escapes, and a character that cannot be shown
is given by its code point.
-/

namespace InlineCache.Text

/-- Hexadecimal digits in lower case. -/
def hex (n : Nat) : String :=
  String.ofList (Nat.toDigits 16 n)

def quoteChar (c : Char) : List Char :=
  if c = '"' then ['\\', '"']
  else if c = '\\' then ['\\', '\\']
  else if c = '\n' then ['\\', 'n']
  else if c = '\t' then ['\\', 't']
  else if c = '\r' then ['\\', 'r']
  else if c = Char.ofNat 0 then ['\\', '0']
  else if isPrintable c then [c]
  else ['\\', 'u', '\x7b'] ++ (hex c.toNat).toList ++ ['\x7d']

def quote (text : List Char) : String :=
  String.ofList ('"' :: text.flatMap quoteChar ++ ['"'])

end InlineCache.Text
