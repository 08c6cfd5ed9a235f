import SlotLanes.Text.Numeral
import SlotLanes.Text.Unprintable

/-! A string as messages show it: between quotation marks, with everything that
could not be told apart on a screen written as an escape. -/
namespace SlotLanes.Text

def quotedChar (char : Char) : List Char :=
  match char with
  | '"' => ['\\', '"']
  | '\\' => ['\\', '\\']
  | '\n' => ['\\', 'n']
  | '\t' => ['\\', 't']
  | '\r' => ['\\', 'r']
  | '\x00' => ['\\', '0']
  | _ =>
    if isUnprintable char then ['\\', 'u', '\x7b'] ++ Numeral.hex char.toNat ++ ['\x7d']
    else [char]

def quoted (text : String) : String :=
  String.ofList ('"' :: text.toList.flatMap quotedChar ++ ['"'])

end SlotLanes.Text
