import StyleLookup.Toml.Moment
import StyleLookup.Toml.Quoted

/-!
Reading the numbers of TOML, and the dates and times that start like numbers.
-/

set_option autoImplicit false

namespace StyleLookup.Toml

/-- The digits at the start of a text and the text after them. An underscore may stand between two
digits. -/
def moreDigits? (isDigit : Char → Bool) : List Char → Option (List Char × List Char)
  | [] => some ([], [])
  | '_' :: rest =>
      match rest with
      | [] => none
      | c :: _ => if isDigit c then moreDigits? isDigit rest else none
  | c :: rest =>
      if isDigit c then consRead c <$> moreDigits? isDigit rest else some ([], c :: rest)

def someDigits? (isDigit : Char → Bool) : List Char → Option (List Char × List Char)
  | [] => none
  | c :: rest => if isDigit c then consRead c <$> moreDigits? isDigit rest else none

/-- The digits of a decimal whole number, which starts with a zero only if it is zero. -/
def wholeDigits? : List Char → Option (List Char × List Char)
  | '0' :: rest => some (['0'], rest)
  | text => someDigits? Char.isDigit text

/-- The least and the greatest whole number, those of 64 bits. -/
def wholeLeast : Int := -9223372036854775808

@[inherit_doc wholeLeast] def wholeGreatest : Int := 9223372036854775807

def whole? (value : Int) : Option Node :=
  if wholeLeast ≤ value ∧ value ≤ wholeGreatest then some (.whole value) else none

def isDigitIn (base : Nat) (c : Char) : Bool := (hexDigit? c).any (· < base)

def numberIn (base : Nat) (digits : List Char) : Nat :=
  digits.foldl (fun before c => base * before + (hexDigit? c).getD 0) 0

def based? (base : Nat) (text : List Char) : Option (Node × List Char) := do
  let (digits, rest) ← someDigits? (isDigitIn base) text
  let node ← whole? (numberIn base digits)
  pure (node, rest)

/-- The greatest double is just below 2^1024; from halfway to there on, numbers round to infinity. -/
def overflowBound : Nat := (Nat.pow 2 54 - 1) * Nat.pow 2 970

def overflows (digits : List Char) (exponent : Int) : Bool :=
  let value := decimalNumber digits
  let places : Int := (digits.dropWhile (· == '0')).length
  if value = 0 then false
  else if places + exponent > 310 then true
  else if places + exponent < 300 then false
  else if 0 ≤ exponent then overflowBound ≤ value * Nat.pow 10 exponent.toNat
  else overflowBound * Nat.pow 10 (-exponent).toNat ≤ value

/-- The exponent at the start of a text, if there is one. A letter that announces an exponent has to
be followed by one. -/
def exponent? : List Char → Option (Option Int × List Char)
  | c :: rest =>
      if c = 'e' ∨ c = 'E' then do
        let (negative, text) :=
          match rest with
          | '-' :: text => (true, text)
          | '+' :: text => (false, text)
          | text => (false, text)
        let (digits, after) ← someDigits? Char.isDigit text
        let value : Int := decimalNumber digits
        pure (some (if negative then -value else value), after)
      else some (none, c :: rest)
  | [] => some (none, [])

/-- A decimal number after its sign: a whole number, or a float if a fraction or an exponent
follows. A float that is too great is refused. -/
def decimal? (negative : Bool) (text : List Char) : Option (Node × List Char) := do
  let (digits, after) ← wholeDigits? text
  match after with
  | '.' :: rest =>
      let (fraction, rest) ← someDigits? Char.isDigit rest
      let (power?, rest) ← exponent? rest
      if !negative && overflows (digits ++ fraction) (power?.getD 0 - fraction.length) then none
      else pure (.float, rest)
  | _ =>
      let (power?, rest) ← exponent? after
      match power? with
      | some power => if !negative && overflows digits power then none else pure (.float, rest)
      | none =>
          let value : Int := decimalNumber digits
          let node ← whole? (if negative then -value else value)
          pure (node, rest)

def unsigned? (negative : Bool) (text : List Char) : Option (Node × List Char) :=
  match text with
  | 'i' :: 'n' :: 'f' :: rest => some (.float, rest)
  | 'n' :: 'a' :: 'n' :: rest => some (.float, rest)
  | _ => decimal? negative text

def number? (text : List Char) : Option (Node × List Char) :=
  match momentSighting text with
  | .broken => none
  | .ended rest => some (.moment, rest)
  | .absent =>
      match text with
      | '0' :: 'x' :: rest => based? 16 rest
      | '0' :: 'o' :: rest => based? 8 rest
      | '0' :: 'b' :: rest => based? 2 rest
      | '-' :: rest => unsigned? true rest
      | '+' :: rest => unsigned? false rest
      | _ => unsigned? false text

end StyleLookup.Toml
