import Conform.Text.Printable

namespace Conform.Text

private def escape (isQuote : Char → Bool) (c : Char) : List Char :=
  if c = '\x00' then ['\\', '0']
  else if c = '\t' then ['\\', 't']
  else if c = '\r' then ['\\', 'r']
  else if c = '\n' then ['\\', 'n']
  else if c = '\\' then ['\\', '\\']
  else if isQuote c then ['\\', c]
  else if isExtending c || !isPrintable c then
    ['\\', 'u', '\x7b'] ++ Nat.toDigits 16 c.toNat ++ ['\x7d']
  else [c]

private def surround (isQuote : Char → Bool) (s : String) : String :=
  String.ofList ('"' :: s.toList.flatMap (escape isQuote) ++ ['"'])

def quoted (s : String) : String := surround (· == '"') s

/-- A path between double quotes; it has single quotes escaped as well. -/
def quotedPath (s : String) : String := surround (fun c => c == '"' || c == '\'') s

end Conform.Text
