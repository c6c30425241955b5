/-!
Values of TOML documents, and how tables grow while a document is read. A table remembers how it
came to be, because that decides what later lines may add to it.
-/

set_option autoImplicit false

namespace StyleLookup.Toml

/-- How a table came to be: written as a header, implied by the header of a table inside it, made by
a dotted key, or written between braces. -/
inductive Origin where
  | header
  | implied
  | dotted
  | inline
deriving DecidableEq, Repr

/-- A value. Floats and moments of time are kept without their content, which no setting uses. -/
inductive Node where
  | text (value : String)
  | whole (value : Int)
  | flag (value : Bool)
  | float
  | moment
  | array (items : List Node)
  | table (origin : Origin) (entries : List (String × Node))
  | tables (members : List (List (String × Node)))

abbrev Entries := List (String × Node)

namespace Entries

def find? (entries : Entries) (key : String) : Option Node := entries.lookup key

def replace (entries : Entries) (key : String) (value : Node) : Entries :=
  entries.map fun entry => if entry.1 = key then (key, value) else entry

def changeLast (change : Entries → Option Entries) : List Entries → Option (List Entries)
  | [] => none
  | [last] => (change last).map fun changed => [changed]
  | member :: rest => (changeLast change rest).map (member :: ·)

/-- Defines a key, given with the dotted path in front of it. The tables on the path are made as
needed. A key that exists cannot be defined again, and a path cannot enter a table that a header
defines or implies, except on the way to a table made by a dotted key. -/
def define (path : List String) (key : String) (value : Node) (entries : Entries) :
    Option Entries :=
  match path with
  | [] => if (entries.find? key).isSome then none else some (entries ++ [(key, value)])
  | step :: rest =>
      match entries.find? step with
      | none => (define rest key value []).map fun inner => entries ++ [(step, .table .dotted inner)]
      | some (.table .dotted inner) =>
          (define rest key value inner).map fun changed =>
            entries.replace step (.table .dotted changed)
      | some (.table .implied inner) =>
          if rest.isEmpty then none
          else (define rest key value inner).map fun changed =>
            entries.replace step (.table .implied changed)
      | some (.tables members) =>
          if rest.isEmpty then none
          else (changeLast (define rest key value) members).map fun changed =>
            entries.replace step (.tables changed)
      | some _ => none

/-- Changes the table that a header path leads to, making implied tables as needed. A path enters
the last member of an array of tables, and no plain value. -/
def changeAt (path : List String) (change : Entries → Option Entries) (entries : Entries) :
    Option Entries :=
  match path with
  | [] => change entries
  | step :: rest =>
      match entries.find? step with
      | none => (changeAt rest change []).map fun inner => entries ++ [(step, .table .implied inner)]
      | some (.table .inline _) => none
      | some (.table origin inner) =>
          (changeAt rest change inner).map fun changed => entries.replace step (.table origin changed)
      | some (.tables members) =>
          (changeLast (changeAt rest change) members).map fun changed =>
            entries.replace step (.tables changed)
      | some _ => none

/-- Opens the table of a header. A table can be opened once, and only if no dotted key made it. -/
def openTable (key : String) (entries : Entries) : Option Entries :=
  match entries.find? key with
  | none => some (entries ++ [(key, .table .header [])])
  | some (.table .implied inner) => some (entries.replace key (.table .header inner))
  | some _ => none

def openMember (key : String) (entries : Entries) : Option Entries :=
  match entries.find? key with
  | none => some (entries ++ [(key, .tables [[]])])
  | some (.tables members) => some (entries.replace key (.tables (members ++ [[]])))
  | some _ => none

end Entries

end StyleLookup.Toml
