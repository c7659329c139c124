import TagLayers.Lexicon.Basic
import TagLayers.Lexicon.Piece
import TagLayers.Unicode.Classes

/-!
# Comments, directives, strings and blanks

The searches that divide a text before its symbols are looked for. Comments and directives are
not looked for inside quoted strings. A comment or directive to the end of the line stops
before the newline; a longer comment or a string without its end runs to the end of the text.
-/

namespace TagLayers

/-- Where a walk through a text stands with respect to quoted strings. -/
inductive StringState where
  /-- Outside of any string. -/
  | outside
  /-- Inside a string. -/
  | inside
  /-- Inside a string, after the escape character. -/
  | escaped
deriving DecidableEq, Repr

namespace StringState

/-- The state after a character. -/
def next (quote escape : Char) (s : StringState) (c : Char) : StringState :=
  match s with
  | outside => if c = quote then inside else outside
  | inside => if c = escape then escaped else if c = quote then outside else inside
  | escaped => inside

end StringState

namespace Lexicon

/-- The number of characters to the end of the line. -/
def lineLength (text : Text) : Nat := (text.takeWhile (· != '\n')).length

/-- The number of characters through the first occurrence of a mark, or to the end. -/
def lengthThrough (mark : Text) : Text → Nat
  | [] => 0
  | c :: rest =>
      if mark.isPrefixOf (c :: rest) then mark.length else 1 + lengthThrough mark rest

/-- The length of a comment to the end of the line, if one starts here. -/
def lineCommentAt? (mark text : Text) : Option Nat :=
  if mark.isPrefixOf text then some (mark.length + lineLength (text.drop mark.length)) else none

/-- The length of a comment between two marks, if one starts here. -/
def blockCommentAt? (opener closer text : Text) : Option Nat :=
  if opener.isPrefixOf text then
    some (opener.length + lengthThrough closer (text.drop opener.length))
  else none

/-- The length of the comment that starts here, if one does; the mark of a line comment is
tried first. -/
def commentAt? (lex : Lexicon) (text : Text) : Option Nat :=
  (lex.lineComment.bind fun mark => lineCommentAt? mark.toList text).or
    (lex.blockComment.bind fun marks => blockCommentAt? marks.1.toList marks.2.toList text)

/-- The length of the directive that starts here, if one does: its mark must not go on with a
character of an identifier. -/
def directiveAt? (mark text : Text) : Option Nat :=
  if (text.drop mark.length).head?.any Unicode.isIdentifier then none
  else lineCommentAt? mark text

/-- Searches for stretches that start outside of strings. -/
def outsideStrings (lex : Lexicon) (find : Text → Option Nat) (text : Text) : List Piece :=
  Piece.search
    (fun s rest =>
      if s = .outside ∧ rest.head? ≠ some lex.quote then find rest else none)
    (StringState.next lex.quote lex.escape) (fun s _ => s) .outside text

/-- Searches for comments. -/
def comments (lex : Lexicon) (text : Text) : List Piece := lex.outsideStrings lex.commentAt? text

/-- Searches for the directives of one mark. -/
def directivesOf (lex : Lexicon) (mark text : Text) : List Piece :=
  lex.outsideStrings (directiveAt? mark) text

/-- The number of characters of a string after its first quote, given whether the first of
them is escaped. -/
def stringLength (quote escape : Char) : Bool → Text → Nat
  | _, [] => 0
  | true, _ :: rest => 1 + stringLength quote escape false rest
  | false, c :: rest =>
      if c = escape then 1 + stringLength quote escape true rest
      else if c = quote then 1
      else 1 + stringLength quote escape false rest

/-- The length of the string that starts here, if one does. -/
def stringAt? (lex : Lexicon) : Text → Option Nat
  | [] => none
  | c :: rest =>
      if c = lex.quote then some (1 + stringLength lex.quote lex.escape false rest) else none

/-- Searches for quoted strings. -/
def strings (lex : Lexicon) (text : Text) : List Piece :=
  Piece.search (fun (_ : Unit) rest => lex.stringAt? rest) (fun s _ => s) (fun s _ => s) () text

/-- Searches for runs of blanks. -/
def blanks (text : Text) : List Piece :=
  Piece.search (fun (_ : Unit) rest => some (rest.takeWhile Unicode.isBlank).length)
    (fun s _ => s) (fun s _ => s) () text

end Lexicon

end TagLayers
