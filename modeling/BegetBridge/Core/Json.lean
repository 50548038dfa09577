import BegetBridge.Core.Number

/-!
# Values of JSON

What is parsed of a text of JSON: numbers, texts, arrays, and objects with their members. A name that occurs twice in an
object counts once, with its last value.

## Main definitions

* `Json`, `Json.text`: the values, and their texts
* `field`: a member of an object
* `Json.reprinted`: what is printed of a value whose numbers are read as doubles
-/

namespace BegetBridge.Core

/-- A value of JSON. -/
inductive Json
  | null
  | bool (b : Bool)
  | number (x : Number)
  | string (s : String)
  | array (items : List Json)
  | object (members : List (String × Json))

namespace Json

/-- `String(x)` -/
def numeral : Number → String
  | .nan => "NaN"
  | .infinity => "Infinity"
  | .negInfinity => "-Infinity"
  | .finite q => if q < 0 then "-" ++ numberText (-q) else numberText q

mutual

/-- `String(value)`. An object of which this throws has the text of any other. -/
def text : Json → String
  | .null => "null"
  | .bool b => if b then "true" else "false"
  | .number x => numeral x
  | .string s => s
  | .array items => ",".intercalate (texts items)
  | .object _ => "[object Object]"

/-- The items that are joined. -/
def texts : List Json → List String
  | [] => []
  | .null :: items => "" :: texts items
  | item :: items => item.text :: texts items

end

/-- `Boolean(value)` -/
def truthy : Json → Bool
  | .null => false
  | .bool b => b
  | .number x => x != .finite 0 && x != .nan
  | .string s => s != ""
  | .array _ => true
  | .object _ => true

end Json

/-- `input[name]`, where `undefined` is `none`. The last member of a name counts. -/
def field (members : List (String × Json)) (name : String) : Option Json :=
  (members.reverse.find? fun m => m.1 == name).map Prod.snd

namespace Json

mutual

/-- What is printed of a value, where its numbers are read by `double`: one that is not finite is printed as `null`. -/
def reprinted (double : ℚ → Number) : Json → Json
  | .null => .null
  | .bool b => .bool b
  | .number (.finite q) =>
    match double q with
    | .finite r => .number (.finite r)
    | _ => .null
  | .number _ => .null
  | .string s => .string s
  | .array items => .array (reprintedItems double items)
  | .object members => .object (reprintedMembers double members)

def reprintedItems (double : ℚ → Number) : List Json → List Json
  | [] => []
  | item :: items => item.reprinted double :: reprintedItems double items

def reprintedMembers (double : ℚ → Number) : List (String × Json) → List (String × Json)
  | [] => []
  | (name, value) :: members => (name, value.reprinted double) :: reprintedMembers double members

end

end Json

end BegetBridge.Core
