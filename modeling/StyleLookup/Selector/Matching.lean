import StyleLookup.Selector.Token
import StyleLookup.Text.Search

/-!
Matching selectors with tokens. Selectors are compared as lower-cased text and are not taken apart,
so a class name also matches every selector with a longer class name that starts with it.
-/

set_option autoImplicit false

namespace StyleLookup.Selector

/-- Whether a selector mentions a class, with a dot or in one of the two attribute forms. -/
def hasClass (selector name : String) : Bool :=
  Text.contains ('.' :: name.toList) selector.toList ||
    Text.contains ("[class*=\"".toList ++ name.toList ++ "\"]".toList) selector.toList ||
    Text.contains ("[class~=\"".toList ++ name.toList ++ "\"]".toList) selector.toList

def hasId (selector name : String) : Bool :=
  Text.contains ('#' :: name.toList) selector.toList

def elementMarks : List Char := [' ', '>', '+', '~']

/-- Whether a selector mentions an element, at its start or right after a combinator. -/
def hasElement (selector name : String) : Bool :=
  name.toList.isPrefixOf selector.toList ||
    elementMarks.any fun mark => Text.contains (mark :: name.toList) selector.toList

/-- Whether a selector covers a token: they are the same text, or the selector mentions one of the
names that the token may stand for. The empty token is never covered. -/
def matchesToken (selector : String) (token : Token) : Bool :=
  let lowered := String.ofList (Token.normalForm selector.toList)
  !token.isEmpty &&
    (lowered == token.text || token.classes.any (hasClass lowered) || token.ids.any (hasId lowered) ||
      token.element?.any (hasElement lowered))

def covers (selector token : String) : Bool := matchesToken selector (Token.parse token)

end StyleLookup.Selector
