import TagLayers.Text
import TagLayers.Unicode.Classes

/-!
# Quoted text

A text on one line between double quotes. The usual characters have an escape of two
characters, a character without a shape of its own is named by its number, and any other
character stands for itself.
-/

namespace TagLayers.Report

/-- Lower-case hexadecimal digits of a number, without leading zeros. -/
def hexadecimal (n : Nat) : Text := Nat.toDigits 16 n

/-- The letter after the backslash in the escape of a character that has one. -/
def escapeLetter? : Char → Option Char
  | '\x00' => some '0'
  | '\t' => some 't'
  | '\r' => some 'r'
  | '\n' => some 'n'
  | '"' => some '"'
  | '\\' => some '\\'
  | _ => none

/-- One character of a quoted text. -/
def quotedChar (c : Char) : Text :=
  match escapeLetter? c with
  | some letter => ['\\', letter]
  | none =>
      if Unicode.isShown c then [c]
      else '\\' :: 'u' :: '\x7b' :: hexadecimal c.toNat ++ ['\x7d']

/-- The text between double quotes. -/
def quoted (text : Text) : Text := '"' :: text.flatMap quotedChar ++ ['"']

example : quoted ['a', '"', '\n', '\''] = "\"a\\\"\\n'\"".toList := by decide +kernel

example : quoted ['\u200b'] = "\"\\u\x7b200b\x7d\"".toList := by decide +kernel

end TagLayers.Report
