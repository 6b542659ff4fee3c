import ImageDigest.Text.Hex
import ImageDigest.Text.Unprintable

namespace ImageDigest.Text.Quoted

def escape (c : Char) : List Char :=
  match c with
  | '\x00' => ['\\', '0']
  | '\t' => ['\\', 't']
  | '\n' => ['\\', 'n']
  | '\r' => ['\\', 'r']
  | '"' => ['\\', '"']
  | '\\' => ['\\', '\\']
  | c => if isUnprintable c then '\\' :: 'u' :: '\x7b' :: Hex.ofNat c.toNat ++ ['\x7d'] else [c]

def write (s : String) : String :=
  String.ofList ('"' :: s.toList.flatMap escape ++ ['"'])

end ImageDigest.Text.Quoted
