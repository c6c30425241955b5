import StyleLookup.Toml.Node

/-!
Recognizing the dates and times of TOML. No setting takes one, so what is read is only whether they
are well formed and where they end.
-/

set_option autoImplicit false

namespace StyleLookup.Toml

/-- The outcome of looking for a form that is recognized by its first characters: the text does not
start like it, starts like it and breaks off, or holds it in front of the rest. -/
inductive Sighting where
  | absent
  | broken
  | ended (rest : List Char)
deriving DecidableEq, Repr

def decimalNumber (digits : List Char) : Nat :=
  digits.foldl (fun before c => 10 * before + (c.toNat - '0'.toNat)) 0

/-- A number of exactly so many decimal digits, which has to lie between two bounds. -/
def fixedDigits? (count least greatest : Nat) (text : List Char) : Option (Nat × List Char) :=
  let digits := text.take count
  let value := decimalNumber digits
  if digits.length = count ∧ digits.all Char.isDigit ∧ least ≤ value ∧ value ≤ greatest then
    some (value, text.drop count)
  else none

def afterChar? (mark : Char) : List Char → Option (List Char)
  | c :: rest => if c = mark then some rest else none
  | [] => none

def daysIn (year month : Nat) : Nat :=
  if month = 2 then
    if year % 4 = 0 ∧ (year % 100 ≠ 0 ∨ year % 400 = 0) then 29 else 28
  else if month = 4 ∨ month = 6 ∨ month = 9 ∨ month = 11 then 30
  else 31

def skipFraction : List Char → List Char
  | '.' :: c :: rest => if c.isDigit then rest.dropWhile Char.isDigit else '.' :: c :: rest
  | text => text

def afterMinutes? (text : List Char) : Option (List Char) := do
  let (_, text) ← fixedDigits? 2 0 59 text
  let text ← afterChar? ':' text
  let (_, text) ← fixedDigits? 2 0 60 text
  pure (skipFraction text)

/-- Looks for a time of day. Hours and a colon show that one is meant. -/
def timeSighting (text : List Char) : Sighting :=
  match fixedDigits? 2 0 23 text with
  | some (_, ':' :: rest) =>
      match afterMinutes? rest with
      | some after => .ended after
      | none => .broken
  | _ => .absent

def offsetSighting : List Char → Sighting
  | 'Z' :: rest => .ended rest
  | 'z' :: rest => .ended rest
  | sign :: rest =>
      if sign = '+' ∨ sign = '-' then
        let after? := do
          let (_, text) ← fixedDigits? 2 0 23 rest
          let text ← afterChar? ':' text
          let (_, text) ← fixedDigits? 2 0 59 text
          pure text
        match after? with
        | some after => .ended after
        | none => .broken
      else .absent
  | [] => .absent

def afterYear? (year : Nat) (text : List Char) : Option (List Char) := do
  let (month, text) ← fixedDigits? 2 1 12 text
  let text ← afterChar? '-' text
  let (_, text) ← fixedDigits? 2 1 (daysIn year month) text
  pure text

/-- The end of a date that a time of day with an offset may follow. -/
def afterDate (text : List Char) : Sighting :=
  match text with
  | mark :: rest =>
      if mark = 'T' ∨ mark = 't' ∨ mark = ' ' then
        match timeSighting rest with
        | .absent => .ended text
        | .broken => .broken
        | .ended after =>
            match offsetSighting after with
            | .absent => .ended after
            | found => found
      else .ended text
  | [] => .ended []

/-- Looks for a date, a time of day, or both. Four digits and a hyphen show that a date is meant. -/
def momentSighting (text : List Char) : Sighting :=
  match fixedDigits? 4 0 9999 text with
  | some (year, '-' :: rest) =>
      match afterYear? year rest with
      | some after => afterDate after
      | none => .broken
  | _ => timeSighting text

end StyleLookup.Toml
