import StyleLookup.Declarations
import StyleLookup.Text.Blank

/-!
Declarations in the body of a block: a name, a colon and a value up to the next semicolon. Text that
does not have this form is passed over.
-/

set_option autoImplicit false

namespace StyleLookup.Sheet

def isPropertyChar (c : Char) : Bool := c.isAlpha || c == '-'

/-- The value that follows a property name, and the text after its semicolon. There is none if the
name is not followed by a colon, if the semicolon stands right after the colon, or if there is no
semicolon. -/
def valueAfter? (text : List Char) : Option (List Char × List Char) :=
  match text.dropWhile Text.isBlank with
  | ':' :: rest =>
      match rest.dropWhile (· != ';') with
      | [] => none
      | _ :: after =>
          let value := rest.takeWhile (· != ';')
          if value.isEmpty then none else some (value, after)
  | _ => none

theorem length_lt_of_valueAfter? {text value after : List Char}
    (found : valueAfter? text = some (value, after)) : after.length < text.length := by
  unfold valueAfter? at found
  split at found
  · rename_i rest blanks
    have outer := congrArg List.length blanks
    have inward := (List.dropWhile_sublist (l := text) Text.isBlank).length_le
    split at found
    · simp at found
    · rename_i c later stop
      have nested := congrArg List.length stop
      have further := (List.dropWhile_sublist (l := rest) (· != ';')).length_le
      simp only [List.length_cons] at outer nested
      dsimp only at found
      split at found
      · simp at found
      · simp only [Option.some.injEq, Prod.mk.injEq] at found
        obtain ⟨-, rfl⟩ := found
        omega
  · simp at found

def declarationPairs (text : List Char) : List (List Char × List Char) :=
  match _named : text.dropWhile (! isPropertyChar ·) with
  | [] => []
  | c :: rest =>
      match _valued : valueAfter? (rest.dropWhile isPropertyChar) with
      | some (value, after) =>
          (c :: rest.takeWhile isPropertyChar, Text.trim value) :: declarationPairs after
      | none => declarationPairs (rest.dropWhile isPropertyChar)
termination_by text.length
decreasing_by
  all_goals
    have outer := congrArg List.length _named
    have inward := (List.dropWhile_sublist (l := text) (! isPropertyChar ·)).length_le
    have further := (List.dropWhile_sublist (l := rest) isPropertyChar).length_le
    simp only [List.length_cons] at outer
    first
      | have nested := length_lt_of_valueAfter? _valued
        omega
      | omega

/-- The declarations of a text. A name that is declared again takes the later value. -/
def declarations (text : List Char) : Declarations :=
  Declarations.ofList <| (declarationPairs text).map fun (name, value) =>
    (String.ofList name, String.ofList value)

end StyleLookup.Sheet
