/-!
Comments of a style sheet. A comment runs from its opening to the first closing after it; comments
do not nest, and one that is never closed is ordinary text.
-/

set_option autoImplicit false

namespace StyleLookup.Sheet

def afterClose? : List Char → Option (List Char)
  | [] => none
  | '*' :: '/' :: after => some after
  | _ :: rest => afterClose? rest

theorem length_lt_of_afterClose? {text after : List Char} (closed : afterClose? text = some after) :
    after.length < text.length := by
  fun_induction afterClose? text with
  | case1 => simp at closed
  | case2 rest =>
      simp only [Option.some.injEq] at closed
      subst closed
      simp only [List.length_cons]
      omega
  | case3 c rest _ ih =>
      have := ih closed
      simp only [List.length_cons]
      omega

/-- The text with its comments taken out. An opening that is never closed stays, and so does all
that follows it, since no later comment can be closed either. -/
def stripComments : List Char → List Char
  | [] => []
  | '/' :: '*' :: rest =>
      match _closed : afterClose? rest with
      | some after => stripComments after
      | none => '/' :: '*' :: rest
  | c :: rest => c :: stripComments rest
termination_by text => text.length
decreasing_by
  · have := length_lt_of_afterClose? _closed
    simp only [List.length_cons]
    omega
  · simp only [List.length_cons]
    omega

end StyleLookup.Sheet
