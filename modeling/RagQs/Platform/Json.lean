import RagQs.Platform.Decimal
import Mathlib.Data.List.Sort
import Mathlib.Data.String.Basic

/-!
# JSON values

The values of a JSON column or of an event payload, as the source language builds them: a
dictionary keeps the order of its entries, a number is an integer or a float, and a boolean
is an integer too where a type is asked for.

## Main definitions

* `Json` — the values; `JsonObject` — the entries of a dictionary.
* `JsonObject.get`, `JsonObject.update` — `d.get(k)` and `{**d, **e}`.
* `Json.sorted` — the value with the entries of every dictionary in the order of their keys.
* `JsonType`, `Json.isInstance` — `isinstance` for the types a schema names.
-/

namespace RagQs

/-- A JSON value; a float is the exact decimal of its binary value, or an infinity or NaN. -/
inductive Json
  | null
  | bool (b : Bool)
  | int (n : ℤ)
  | float (x : DecimalArg)
  | str (s : String)
  | list (l : List Json)
  | dict (l : List (String × Json))

/-- The entries of a dictionary, in order. -/
abbrev JsonObject := List (String × Json)

namespace JsonObject

/-- `d.get(key)`, with the missing key and the null value told apart by nothing. -/
def get (d : JsonObject) (key : String) : Json := (d.lookup key).getD .null

/-- `d[key] = value`: an entry keeps its place. -/
def set (d : JsonObject) (key : String) (value : Json) : JsonObject :=
  if d.any (·.1 = key) then d.map fun e => if e.1 = key then (key, value) else e
  else d ++ [(key, value)]

/-- `{**d, **e}` -/
def update (d e : JsonObject) : JsonObject := e.foldl (fun d x => set d x.1 x.2) d

end JsonObject

mutual

/-- The value with the entries of every dictionary in the order of their keys, which is what
`json.dumps` writes with `sort_keys`. -/
def Json.sorted : Json → Json
  | .list l => .list (sortedValues l)
  | .dict l => .dict ((sortedEntries l).insertionSort fun x y => x.1 ≤ y.1)
  | .null => .null
  | .bool b => .bool b
  | .int n => .int n
  | .float x => .float x
  | .str s => .str s

/-- The values of a list, each sorted. -/
def sortedValues : List Json → List Json
  | [] => []
  | j :: l => j.sorted :: sortedValues l

/-- The entries of a dictionary, each value sorted. -/
def sortedEntries : List (String × Json) → List (String × Json)
  | [] => []
  | (key, j) :: l => (key, j.sorted) :: sortedEntries l

end

/-- The types a schema names. -/
inductive JsonType
  | str
  | int
  | dict
  | list

/-- `isinstance(value, t)` -/
def Json.isInstance : Json → JsonType → Bool
  | .str _, .str => true
  | .int _, .int => true
  | .bool _, .int => true
  | .dict _, .dict => true
  | .list _, .list => true
  | _, _ => false

/-- `value is None` -/
def Json.isNull : Json → Bool
  | .null => true
  | _ => false

/-- `value == s` for a text. -/
def Json.eqText : Json → String → Bool
  | .str s, t => s == t
  | _, _ => false

/-- `value == n` for an integer. -/
def Json.eqInt : Json → ℤ → Bool
  | .int m, n => m == n
  | .bool b, n => b.toInt == n
  | .float (.finite x), n => x.toRat == n
  | _, _ => false

/-- The texts of a list of texts, `none` when it is no such list. -/
def Json.texts : Json → Option (List String)
  | .list l => l.mapM fun
    | .str s => some s
    | _ => none
  | _ => none

end RagQs
