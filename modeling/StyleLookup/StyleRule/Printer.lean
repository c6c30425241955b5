import StyleLookup.StyleRule.Basic

/-!
The text form of rules.
-/

set_option autoImplicit false

namespace StyleLookup.StyleRule

def renderProperty (name value : String) : List Char :=
  "  ".toList ++ name.toList ++ ": ".toList ++ value.toList ++ ";\n".toList

/-- The selector and an opening brace, a line for each property, and a closing brace. -/
def renderText (rule : StyleRule) : List Char :=
  rule.selector.toList ++ " \x7b\n".toList ++
    rule.properties.entries.flatMap (fun (name, value) => renderProperty name value) ++ ['}']

def render (rule : StyleRule) : String := String.ofList rule.renderText

end StyleLookup.StyleRule
