import StyleLookup.Sheet.Block
import StyleLookup.Sheet.Comment
import StyleLookup.Sheet.Declaration
import StyleLookup.StyleRule.Basic

/-!
The rules of a style sheet. Reading never fails: what does not look like a rule is passed over.
-/

set_option autoImplicit false

namespace StyleLookup

/-- The rule that a block of a style sheet stands for. A block with a blank selector or a blank
body stands for none. -/
def StyleRule.ofBlock? (file : Path) (block : Sheet.Block) : Option StyleRule :=
  let selector := Text.trim block.selector
  let body := Text.trim block.body
  if selector.isEmpty || body.isEmpty then none
  else some ⟨String.ofList selector, Sheet.declarations body, file, .unresolved⟩

namespace Sheet

def rules (content : String) (file : Path) : List StyleRule :=
  (blocks (stripComments content.toList)).filterMap (StyleRule.ofBlock? file)

end Sheet

end StyleLookup
