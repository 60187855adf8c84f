import Rulebook.Form.Basic
import Rulebook.Text.Integer

/-!
# The text of a form

A form is written on one line: items are separated by a single space, and a
sigil stands directly before what it quotes. Inside a string four characters
are escaped, the quote, the backslash, the line feed and the tab; every other
character, controls included, stands for itself.

The text is built as a list of characters, where the reader's laws are stated,
and `Form.render` packs it.
-/

namespace Rulebook.Form

/-- How one character stands inside a written string. -/
def escapedChar : Char → List Char
  | '"' => ['\\', '"']
  | '\\' => ['\\', '\\']
  | '\n' => ['\\', 'n']
  | '\t' => ['\\', 't']
  | c => [c]

/-- A string between its quotes. -/
def stringChars (content : String) : List Char :=
  '"' :: content.toList.flatMap escapedChar ++ ['"']

mutual

/-- The characters of a form. -/
def chars : Form → List Char
  | .symbol name => name.toList
  | .text content => stringChars content
  | .int value => Text.integerChars value
  | .quote inner => '\'' :: inner.chars
  | .function inner => '#' :: '\'' :: inner.chars
  | .list items => '(' :: spacedChars items ++ [')']
  | .vector items => '[' :: spacedChars items ++ [']']

/-- The characters of several forms, separated by single spaces. -/
def spacedChars : List Form → List Char
  | [] => []
  | [form] => form.chars
  | form :: forms => form.chars ++ ' ' :: spacedChars forms

end

/-- The text of a form. -/
def render (form : Form) : String := String.ofList form.chars

instance : ToString Form := ⟨render⟩

end Rulebook.Form
