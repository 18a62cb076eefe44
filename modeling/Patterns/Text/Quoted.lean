import Patterns.Text.Classes

/-!
# Quoted text

Quoted text stands between quotation marks on one line: marks, backslashes, line ends and
characters without a shape of their own are escaped.
-/
namespace Patterns.Text

private def lowerHex (n : Nat) : String := String.ofList (Nat.toDigits 16 n)

def escapeForQuote (mark c : Char) : String :=
  if c == mark then "\\" ++ String.singleton c
  else
    match c with
    | '\x00' => "\\0"
    | '\t' => "\\t"
    | '\n' => "\\n"
    | '\r' => "\\r"
    | '\\' => "\\\\"
    | _ =>
      if isExtender c || !isPrintable c then "\\u\x7b" ++ lowerHex c.toNat ++ "\x7d"
      else String.singleton c

private def quoteWith (mark : Char) (cs : List Char) : String :=
  String.singleton mark ++ String.join (cs.map (escapeForQuote mark)) ++ String.singleton mark

def quote (s : String) : String := quoteWith '"' s.toList

def quoteChar (c : Char) : String := quoteWith '\'' [c]

end Patterns.Text
