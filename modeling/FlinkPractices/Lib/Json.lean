import FlinkPractices.Lib.DateTime

/-!
# JSON values as Python objects

What `json.loads` and its faster relatives return: dictionaries, lists, strings, numbers (`int` of
any size, or a finite `float`), booleans and `None`.  A dictionary is the list of its items in
insertion order.

The operations are the ones Python code applies to such a value without knowing what it is:

* `get`, `getD` — `d.get(key)` and `d.get(key, default)`
* `truthy` — `bool(v)`
* `iter` — `for x in v`: the items of a list, the characters of a string, the keys of a dictionary,
  and nothing for the rest
* `depth` — how deeply the value is nested: how far a function that follows its structure recurses,
  so that one can say which values exhaust the stack

`nested n` is `None` inside `n` lists: a value that is deep, and nothing else.
-/

set_option autoImplicit false

namespace FlinkPractices.Lib

inductive Json where
  | null
  | bool (b : Bool)
  | int (n : Int)
  | float (x : Binary64)
  | str (s : String)
  | list (xs : List Json)
  | dict (items : List (String × Json))

/-- A dictionary. -/
abbrev Dict := List (String × Json)

namespace Dict

/-- `d.get(key)`. -/
def get (d : Dict) (key : String) : Option Json := d.lookup key

/-- `d.get(key, default)`; `Json.null` is Python's own default, `None`. -/
def getD (d : Dict) (key : String) (default : Json) : Json := (get d key).getD default

end Dict

namespace Json

/-- `bool(v)`. -/
def truthy : Json → Bool
  | null => false
  | bool b => b
  | int n => n != 0
  | float x => !x.isZero
  | str s => s != ""
  | list xs => !xs.isEmpty
  | dict items => !items.isEmpty

/-- `for x in v`: the items of a list, the characters of a string, the keys of a dictionary. -/
def iter : Json → Option (List Json)
  | list xs => some xs
  | str s => some (s.toList.map fun c => str (String.singleton c))
  | dict items => some (items.map fun kv => str kv.1)
  | _ => none

mutual

/-- How deeply the value is nested. -/
def depth : Json → Nat
  | list xs => listDepth xs + 1
  | dict items => dictDepth items + 1
  | _ => 1

def listDepth : List Json → Nat
  | [] => 0
  | x :: xs => max (depth x) (listDepth xs)

def dictDepth : List (String × Json) → Nat
  | [] => 0
  | (_, v) :: items => max (depth v) (dictDepth items)

end

/-- `[[…[None]…]]`. -/
def nested : Nat → Json
  | 0 => null
  | n + 1 => list [nested n]

end Json

end FlinkPractices.Lib
