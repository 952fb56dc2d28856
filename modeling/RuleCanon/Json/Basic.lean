/-!
# JSON values

A value as it is written: the fields of an object in their order and with repetitions, the
digits of a number as a whole.  Readers of particular resources decide what repetitions mean.

## Main Definitions

* `Json` — values
* `JsonNumber` — numbers as they are written
* `Json.isSound` — values that a reader which looks at every part accepts
-/

namespace RuleCanon

/-- A decimal number: `digits` times ten to the power of `exponent`, with its sign. -/
structure JsonNumber where
  /-- Whether a minus sign stands in front. -/
  negative : Bool
  /-- The value of all digits, those after the point included. -/
  digits : Nat
  /-- The power of ten by which that value is multiplied. -/
  exponent : Int
deriving DecidableEq, Repr

namespace JsonNumber

/-- The least number that is too large for a double-precision number, which rounds to the
nearest. -/
def tooLarge : Nat := Nat.pow 2 1024 - Nat.pow 2 970

/-- Whether the number is in the range of double-precision numbers. -/
def isFinite (n : JsonNumber) : Bool :=
  if n.digits = 0 then true
  else
    let length := (Nat.toDigits 10 n.digits).length
    if n.exponent + length ≤ 308 then true
    else if n.exponent + length > 310 then false
    else if n.exponent ≥ 0 then n.digits * Nat.pow 10 n.exponent.toNat < tooLarge
    else n.digits < tooLarge * Nat.pow 10 (-n.exponent).toNat

end JsonNumber

/-- A JSON value.  A string that spells half a surrogate pair is no text, and is given as
`none`. -/
inductive Json where
  /-- The null value. -/
  | null
  /-- A truth value. -/
  | bool (b : Bool)
  /-- A number. -/
  | number (n : JsonNumber)
  /-- A string. -/
  | string (s : Option String)
  /-- A list of values. -/
  | array (items : List Json)
  /-- Named values, in the order in which they are written. -/
  | object (fields : List (Option String × Json))

namespace Json

mutual

/-- Whether all strings of a value are texts, all its numbers are finite, and it is nested no
deeper than the given depth. -/
def isSound (depth : Nat) : Json → Bool
  | null | bool _ => true
  | number n => n.isFinite
  | string s => s.isSome
  | array items =>
    match depth with
    | 0 => false
    | depth + 1 => allSound depth items
  | object fields =>
    match depth with
    | 0 => false
    | depth + 1 => fieldsSound depth fields

/-- Whether all items are sound. -/
def allSound (depth : Nat) : List Json → Bool
  | [] => true
  | j :: rest => j.isSound depth && allSound depth rest

/-- Whether all names are texts and all values are sound. -/
def fieldsSound (depth : Nat) : List (Option String × Json) → Bool
  | [] => true
  | (name, j) :: rest => name.isSome && j.isSound depth && fieldsSound depth rest

end

/-- The text of a string. -/
def text? : Json → Option String
  | string s => s
  | _ => none

/-- The items of an array. -/
def items? : Json → Option (List Json)
  | array items => some items
  | _ => none

/-- The fields of an object, if all names are texts. -/
def fields? : Json → Option (List (String × Json))
  | object fields => fields.mapM fun (name, j) => name.map (·, j)
  | _ => none

/-- The value of a field that must not be repeated: `none` if it is, otherwise the value if the
field is present. -/
def uniqueField? (fields : List (String × Json)) (name : String) : Option (Option Json) :=
  match fields.filter (·.1 == name) with
  | [] => some none
  | [(_, j)] => some (some j)
  | _ => none

end Json

end RuleCanon
