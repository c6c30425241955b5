import StyleLookup.Text.WordChar

/-!
Attributes of markup that mention a class or an id. Markup is searched as text, so an attribute is
recognized by its name, an equals sign and quotes, of either kind.
-/

set_option autoImplicit false

namespace StyleLookup

inductive Attribute where
  | classList
  | className
  | id
deriving DecidableEq, Repr

namespace Attribute

def opening : Attribute → List Char
  | .classList => "class=".toList
  | .className => "className=".toList
  | .id => "id=".toList

/-- Either kind of quote. A value opened by one kind may be closed by the other. -/
def isQuote (c : Char) : Bool := c == '"' || c == '\''

/-- A place in a text where a name stands, and the length of the text up to the end of the
attribute, both counted from where the attribute or its value starts. -/
structure Hit where
  start : Nat
  length : Nat
deriving DecidableEq, Repr

def Hit.after (hit : Hit) (count : Nat) : Hit := ⟨hit.start + count, hit.length + count⟩

def throughQuote? (text : List Char) : Option Nat :=
  if text.any isQuote then some ((text.takeWhile (! isQuote ·)).length + 1) else none

/-- The name at the start of a text as a whole word, with a quote after it. -/
def wordHere? (name : List Char) (before : Option Char) (text : List Char) : Option Hit :=
  let rest := text.drop name.length
  if name.isPrefixOf text && Text.isWordBoundary before text.head? &&
      Text.isWordBoundary name.getLast? rest.head? then
    (throughQuote? rest).map fun length => ⟨0, length + name.length⟩
  else none

/-- The first whole-word occurrence of a name before the next quote, given the value of an attribute
and the character before it. -/
def wordIn? (name : List Char) (before : Option Char) : List Char → Option Hit
  | [] => wordHere? name before []
  | c :: rest =>
      match wordHere? name before (c :: rest) with
      | some hit => some hit
      | none => if isQuote c then none else (wordIn? name (some c) rest).map (·.after 1)

def wholeValue? (name value : List Char) : Option Hit :=
  if name.isPrefixOf value then
    match value.drop name.length with
    | c :: _ => if isQuote c then some ⟨0, name.length + 1⟩ else none
    | [] => none
  else none

/-- The attribute at the start of a text, if it mentions the name. The attribute name has to start
at a word boundary. -/
def hitHere? (kind : Attribute) (name : List Char) (before : Option Char)
    (text : List Char) : Option Hit :=
  if kind.opening.isPrefixOf text && Text.isWordBoundary before text.head? then
    match text.drop kind.opening.length with
    | quote :: value =>
        if isQuote quote then
          let hit? :=
            match kind with
            | .id => wholeValue? name value
            | _ => wordIn? name (some quote) value
          hit?.map (·.after (kind.opening.length + 1))
        else none
    | [] => none
  else none

/-- The places where attributes of one kind mention a name, counted in characters from a given
offset. After an attribute is found the search goes on behind it; `skipping` is the number of
characters of it that are still to be passed over. -/
def placesFrom (kind : Attribute) (name : List Char) (before : Option Char)
    (offset skipping : Nat) : List Char → List Nat
  | [] => []
  | c :: rest =>
      match skipping with
      | remaining + 1 => placesFrom kind name (some c) (offset + 1) remaining rest
      | 0 =>
          match kind.hitHere? name before (c :: rest) with
          | some hit =>
              (offset + hit.start) ::
                placesFrom kind name (some c) (offset + 1) (hit.length - 1) rest
          | none => placesFrom kind name (some c) (offset + 1) 0 rest

def places (kind : Attribute) (name text : List Char) : List Nat :=
  placesFrom kind name none 0 0 text

end Attribute

end StyleLookup
