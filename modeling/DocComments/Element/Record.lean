/-
This file gives what a comment block declares: an element with its type, its place in the
source, its description and its attributes. The name in a record is kept as it was written, so
it may still be relative to earlier declarations of the file.
-/

import DocComments.Attribute.Data

namespace DocComments

/-- What is known of a declared element. -/
structure Declaration where
  startLine : Nat
  endLine : Nat
  sourcePath : String
  aliasName : Option String
  tagType : String
  description : String
  attributes : Attributes
deriving DecidableEq, Repr

/-- A declaration together with the name it was written under. -/
structure ElementRecord where
  declaredName : String
  declaration : Declaration
deriving DecidableEq, Repr

end DocComments
