import TinyLisp.Document.Tag
import TinyLisp.Text.Decimal
import TinyLisp.Text.Quoted

/-!
Parts of a document that do not fit where they stand.
-/

namespace TinyLisp

/-- A part of a document that does not fit where it stands. -/
inductive Misfit where
  /-- A key of a mapping that another entry had before. -/
  | repeatedKey (line : Nat) (key : Text) (first : Nat)
  /-- A key that names what another key of the mapping named before. -/
  | repeatedField (line : Nat) (name : Text) (owner : String)
  /-- A value of the wrong type. -/
  | wrongType (line : Nat) (tag : Text) (content : Text) (wanted : String)
  deriving DecidableEq, Repr

namespace Misfit

/-- At most ten bytes of a value are shown, and of a longer one seven. -/
def excerpt (value : Text) : Text :=
  if 10 < value.length then value.take 7 ++ "..." else value

/-- The content of a part, set off from its tag. Where the tag says that there are further parts
the content stands as it is, and it is empty unless the tag is wrong. -/
def shown (tag content : Text) : Text :=
  if tag = Document.Tag.seq ∨ tag = Document.Tag.map then content else " `" ++ excerpt content ++ "`"

def message : Misfit → Text
  | .repeatedKey line key first =>
    "line " ++ Text.decimal line ++ ": mapping key " ++ key.quote ++ " already defined at line " ++
      Text.decimal first
  | .repeatedField line name owner =>
    "line " ++ Text.decimal line ++ ": field " ++ name ++ " already set in type " ++ owner
  | .wrongType line tag content wanted =>
    "line " ++ Text.decimal line ++ ": cannot unmarshal " ++ tag ++ shown tag content ++ " into " ++
      wanted

end Misfit

end TinyLisp
