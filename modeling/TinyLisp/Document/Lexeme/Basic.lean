import TinyLisp.Document.Cursor

/-!
Lexemes: what a document is made of before it is a tree. Indentation shows in them as the starts
and ends of blocks.
-/

namespace TinyLisp.Document

/-- How the text of a scalar was set off. -/
inductive ScalarStyle where
  | plain
  | quoted
  | block
  deriving DecidableEq, Repr

inductive Lexeme.Kind where
  | streamStart
  | streamEnd
  /-- The version of the notation that a document is written in. -/
  | version (major minor : Nat)
  /-- A handle for the tags that begin with `start`. -/
  | shorthand (handle start : Text)
  | documentStart
  | documentEnd
  | sequenceStart
  | mappingStart
  | blockEnd
  | flowSequenceStart
  | flowSequenceEnd
  | flowMappingStart
  | flowMappingEnd
  /-- The dash before an item. -/
  | item
  /-- The comma between parts of a flow collection. -/
  | comma
  | key
  | value
  | reference (name : List Char)
  | anchor (name : List Char)
  | tag (handle suffix : Text)
  | scalar (style : ScalarStyle) (content : List Char)
  deriving DecidableEq, Repr

/-- A lexeme and the line it starts in. -/
structure Lexeme where
  line : Nat
  kind : Lexeme.Kind
  deriving DecidableEq, Repr

end TinyLisp.Document
