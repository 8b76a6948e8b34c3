/-
This file gives the attributes that a documented element carries.

Attributes have names from a fixed list. Parameters and examples gather in lists; every other
attribute holds one value, and a later value takes the place of an earlier one. Null is a value
like any other: an attribute that was set to null is there. The same maps hold the defaults
that a tag type declares.
-/

import DocComments.Entries

namespace DocComments

/-- The names of attributes. -/
inductive AttributeKey where
  | access
  | author
  | default
  | examples
  | inherits
  | license
  | params
  | returns
  | valtype
  | version
deriving DecidableEq, Repr

namespace AttributeKey

/-- The name as files write it. -/
def name : AttributeKey → String
  | .access => "access"
  | .author => "author"
  | .default => "default"
  | .examples => "examples"
  | .inherits => "inherits"
  | .license => "license"
  | .params => "params"
  | .returns => "return"
  | .valtype => "valtype"
  | .version => "version"

/-- The key of a name. Examples may be named in the singular. -/
def ofName? (name : String) : Option AttributeKey :=
  match name with
  | "access" => some .access
  | "author" => some .author
  | "default" => some .default
  | "examples" => some .examples
  | "example" => some .examples
  | "inherits" => some .inherits
  | "license" => some .license
  | "params" => some .params
  | "return" => some .returns
  | "valtype" => some .valtype
  | "version" => some .version
  | _ => none

/-- What is said of a name that no attribute has. -/
def unknownMessage (name : String) : String :=
  s!"unknown attribute `{name}`"

end AttributeKey

/-- A type annotation: the text to show, and the path of the element it refers to, if any. -/
structure TypeRef where
  typeName : String
  reference : Option String
deriving DecidableEq, Repr

/-- A parameter. -/
structure Param where
  name : String
  default : Option String
  sequenced : Bool
  type : Option TypeRef
  description : String
deriving DecidableEq, Repr

/-- What a callable element returns. -/
structure ReturnValue where
  type : Option TypeRef
  description : Option String
deriving DecidableEq, Repr

/-- A titled piece of code. -/
structure Example where
  title : String
  language : Option String
  code : String
  description : String
deriving DecidableEq, Repr

/-- The value of an attribute. -/
inductive AttributeValue where
  | null
  | text (value : String)
  | type (value : TypeRef)
  | returns (value : ReturnValue)
  | params (values : List Param)
  | examples (values : List Example)
deriving DecidableEq, Repr

namespace AttributeValue

def isNull : AttributeValue → Bool
  | .null => true
  | _ => false

def text? : AttributeValue → Option String
  | .text value => some value
  | _ => none

def type? : AttributeValue → Option TypeRef
  | .type value => some value
  | _ => none

def returns? : AttributeValue → Option ReturnValue
  | .returns value => some value
  | _ => none

/-- A type, or null. -/
def ofType? : Option TypeRef → AttributeValue
  | some value => .type value
  | none => .null

/-- A return value, or null. -/
def ofReturn? : Option ReturnValue → AttributeValue
  | some value => .returns value
  | none => .null

/-- A text, or null. -/
def ofText? : Option String → AttributeValue
  | some value => .text value
  | none => .null

end AttributeValue

/-- The attributes of an element or the defaults of a tag type, in the order of their first
setting. -/
structure Attributes where
  entries : Entries AttributeKey AttributeValue
deriving DecidableEq, Repr

namespace Attributes

/-- No attribute at all. -/
def empty : Attributes :=
  ⟨[]⟩

/-- The value of an attribute. -/
def get? (attributes : Attributes) (key : AttributeKey) : Option AttributeValue :=
  Entries.get? attributes.entries key

/-- Whether the attribute was set, be it to null. -/
def contains (attributes : Attributes) (key : AttributeKey) : Bool :=
  (attributes.get? key).isSome

/-- Sets an attribute, in place of an earlier value. -/
def set (attributes : Attributes) (key : AttributeKey) (value : AttributeValue) : Attributes :=
  ⟨Entries.set attributes.entries key value⟩

/-- The list of parameters with one more; anything that is not such a list gives way to it. -/
def withParam (param : Param) : Option AttributeValue → AttributeValue
  | some (.params params) => .params (params ++ [param])
  | _ => .params [param]

/-- The list of examples with one more; anything that is not such a list gives way to it. -/
def withExample (sample : Example) : Option AttributeValue → AttributeValue
  | some (.examples samples) => .examples (samples ++ [sample])
  | _ => .examples [sample]

/-- Adds a parameter after the others. -/
def pushParam (attributes : Attributes) (param : Param) : Attributes :=
  ⟨Entries.alter (withParam param) attributes.entries .params⟩

/-- Adds an example after the others. -/
def pushExample (attributes : Attributes) (sample : Example) : Attributes :=
  ⟨Entries.alter (withExample sample) attributes.entries .examples⟩

/-- The parameters in order. -/
def params (attributes : Attributes) : List Param :=
  match attributes.get? .params with
  | some (.params params) => params
  | _ => []

/-- The examples in order. -/
def examples (attributes : Attributes) : List Example :=
  match attributes.get? .examples with
  | some (.examples samples) => samples
  | _ => []

def size (attributes : Attributes) : Nat :=
  attributes.entries.length

def isEmpty (attributes : Attributes) : Bool :=
  attributes.entries.isEmpty

end Attributes

end DocComments
