import StyleLookup.Declarations
import StyleLookup.Path.Basic
import StyleLookup.Sheet.SelectorLine

/-!
Style rules. A rule remembers the outcome of the first search for its line; two rules are equal
whatever they remember.
-/

set_option autoImplicit false

namespace StyleLookup

/-- What a rule knows of the line of its selector. -/
inductive SourceLine where
  | unresolved
  | absent
  | found (line : Nat)
deriving DecidableEq, Repr

namespace SourceLine

def ofSearch : Option Nat → SourceLine
  | none => .absent
  | some line => .found line

def line? : SourceLine → Option Nat
  | .found line => some line
  | _ => none

def isResolved : SourceLine → Bool
  | .unresolved => false
  | _ => true

end SourceLine

/-- A selector with its declarations, the style sheet it comes from and what is known of its
line. -/
structure StyleRule where
  selector : String
  properties : Declarations
  file : Path
  line : SourceLine
deriving DecidableEq

namespace StyleRule

/-- Whether two rules agree in selector, properties and style sheet. Their lines are left aside. -/
def sameAs (left right : StyleRule) : Bool :=
  left.selector == right.selector && left.properties == right.properties &&
    left.file.sameAs right.file

/-- Searches the line of the selector in the content of its style sheet, unless that has been done
before. -/
def resolveLine (rule : StyleRule) (content : String) : StyleRule :=
  match rule.line with
  | .unresolved => { rule with line := .ofSearch (Sheet.selectorLine? content rule.selector) }
  | _ => rule

end StyleRule

end StyleLookup
