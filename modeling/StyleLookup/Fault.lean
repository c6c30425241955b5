import StyleLookup.Path.Basic

/-!
What can go wrong outside of a lookup. Lookups themselves never fail: a place that cannot be
reached contributes nothing.
-/

set_option autoImplicit false

namespace StyleLookup

/-- Why a file or directory could not be used. -/
inductive FileFault where
  | notFound
  | notDirectory
  | isDirectory
  | tooManyLinks
  | notText
  | other (description : String)
deriving DecidableEq, Repr

def FileFault.description : FileFault → String
  | .notFound => "No such file or directory (os error 2)"
  | .notDirectory => "Not a directory (os error 20)"
  | .isDirectory => "Is a directory (os error 21)"
  | .tooManyLinks => "Too many levels of symbolic links (os error 40)"
  | .notText => "stream did not contain valid UTF-8"
  | .other description => description

inductive Fault where
  | inaccessible (path : Path) (fault : FileFault)
  | unknownMode (text : String)
  | malformedSettings (path? : Option Path)
deriving DecidableEq, Repr

def Fault.message : Fault → String
  | .inaccessible path fault =>
      "Failed to access '" ++ path.spelling ++ "': " ++ fault.description
  | .unknownMode text => "Invalid configuration: unknown scoping mode '" ++ text ++ "'"
  | .malformedSettings none => "Invalid configuration: "
  | .malformedSettings (some path) => "Invalid configuration in '" ++ path.spelling ++ "': "

def Fault.isNotFound : Fault → Bool
  | .inaccessible _ .notFound => true
  | _ => false

end StyleLookup
