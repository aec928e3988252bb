import LocalGateway.Python.Json

/-!
# JavaScript values

What `JSON.parse` returns, and the functions and objects of the language that the properties of such a value lead to.
A string is the list of its code units.

What the built-in objects have is a parameter, `Realm`: a plain object inherits `toString` and `__proto__`, so that
`k in v` holds for names that nobody has put there. Their properties are not enumerable.

* `Value.keys`, `Realm.property`: `Object.keys(v)`, and what `k in v` and `v[k]` find.
* `Value.node`: what is at a path, by own properties; `Value.shape` is what a value is apart from what is in it.
* `Value.ofJson`: what the text of a JSON value is parsed to.
-/

namespace Js

open Json (natRepr)

/-- A number that `JSON.parse` returns. `-0` is `0`: neither `===` nor a condition tells them apart. -/
inductive Number
  | fin (q : ℚ)
  | inf (neg : Bool)
deriving DecidableEq

/-- A value. The properties of an object are in the order of `Object.keys`. -/
inductive Value
  | undefined
  | null
  | bool (b : Bool)
  | num (x : Number)
  | str (s : PyStr)
  | arr (xs : List Value)
  | obj (kvs : List (PyStr × Value))
  /-- A function or an object of the language. -/
  | builtin (id : ℕ)

/-- What there is under a name: nothing, a value, or a getter that raises. -/
inductive Property
  | absent
  | value (v : Value)
  | throws

/-- What the language puts into objects. -/
structure Realm where
  /-- What a plain object inherits. -/
  object : PyStr → Property
  /-- What an array inherits. -/
  array : PyStr → Property
  /-- What a built-in function or object has or inherits. -/
  builtin : ℕ → PyStr → Property
  callable : ℕ → Bool
  /-- `Array.prototype` is an array, without elements. -/
  isArray : ℕ → Bool

/-- The value, if there is one that can be read. -/
def Property.value? : Property → Option Value
  | .value v => some v
  | _ => none

/-- A step from an array or an object into it. -/
inductive PathStep
  | key (k : PyStr)
  | index (i : ℕ)
deriving DecidableEq

/-- What a value is, apart from what is in it. -/
inductive Shape
  | undefined
  | null
  | bool (b : Bool)
  | num (x : Number)
  | str (s : PyStr)
  | arr (length : ℕ)
  | obj
  | builtin (id : ℕ)
deriving DecidableEq

namespace Value

/-- The value in a condition. -/
def truthy : Value → Bool
  | undefined | null => false
  | bool b => b
  | num x => x ≠ .fin 0
  | str s => s ≠ []
  | arr _ | obj _ | builtin _ => true

/-- A value that has no properties of its own; `k in v` raises for it. -/
def isPrimitive : Value → Bool
  | undefined | null | bool _ | num _ | str _ => true
  | arr _ | obj _ | builtin _ => false

/-- `v === w`, of which one is neither an array nor an object of a tree. -/
def strictEq : Value → Value → Bool
  | undefined, undefined | null, null => true
  | bool b, bool c => b = c
  | num x, num y => x = y
  | str s, str t => s = t
  | builtin i, builtin j => i = j
  | _, _ => false

/-- `Object.keys(v)`, of a value that is neither `undefined` nor `null`. -/
def keys : Value → List PyStr
  | obj kvs => kvs.map Prod.fst
  | arr xs => (List.range xs.length).map natRepr
  | str s => (List.range s.length).map natRepr
  | _ => []

/-- `v || {}`. -/
def orEmpty (v : Value) : Value :=
  if v.truthy then v else obj []

/-- An element of an array by its name. -/
def element (xs : List Value) (k : PyStr) : Option Value :=
  ((List.range xs.length).find? (natRepr · = k)).bind (xs[·]?)

/-- What is in an array or an object. -/
def child : Value → PathStep → Option Value
  | obj kvs, .key k => kvs.lookup k
  | arr xs, .index i => xs[i]?
  | _, _ => none

/-- What is at a path. -/
def node (v : Value) : List PathStep → Option Value
  | [] => some v
  | s :: p => (v.child s).bind fun w ↦ w.node p

def shape : Value → Shape
  | undefined => .undefined
  | null => .null
  | bool b => .bool b
  | num x => .num x
  | str s => .str s
  | arr xs => .arr xs.length
  | obj _ => .obj
  | builtin i => .builtin i

/-! ### `JSON.parse` -/

/-- The double nearest to a natural number. -/
def roundNat (n : ℕ) : Number :=
  let unit := 2 ^ (n.log2 - 52)
  let below := n / unit
  let rest := 2 * (n % unit)
  let steps := if unit < rest ∨ rest = unit ∧ below % 2 = 1 then below + 1 else below
  if steps * unit < 2 ^ 1024 then .fin (steps * unit : ℕ) else .inf false

/-- The double nearest to an integer. -/
def roundInt : ℤ → Number
  | .ofNat n => roundNat n
  | .negSucc n =>
    match roundNat (n + 1) with
    | .fin q => .fin (-q)
    | .inf _ => .inf true

/-- The code units of a character. -/
def codeUnits (c : ℕ) : PyStr :=
  if c < 0x10000 then [c] else [0xD800 + (c - 0x10000) / 1024, 0xDC00 + (c - 0x10000) % 1024]

mutual

/-- What the text of a JSON value is parsed to. There is no text for a float that is not a number or not finite.
The names of an object stay in the order of the text; `Object.keys` would put array indexes first. -/
def ofJson : Json → Option Value
  | .null => some null
  | .bool b => some (bool b)
  | .int n => some (num (roundInt n))
  | .float (.fin q) => some (num (.fin q))
  | .float .negZero => some (num (.fin 0))
  | .float (.inf _) | .float .nan => none
  | .str s => some (str (s.flatMap codeUnits))
  | .arr xs => (ofJsonList xs).map arr
  | .obj kvs => (ofJsonDict kvs).map obj

def ofJsonList : List Json → Option (List Value)
  | [] => some []
  | x :: xs => (ofJson x).bind fun v ↦ (ofJsonList xs).map (v :: ·)

def ofJsonDict : List (PyStr × Json) → Option (List (PyStr × Value))
  | [] => some []
  | (k, x) :: kvs => (ofJson x).bind fun v ↦ (ofJsonDict kvs).map ((k.flatMap codeUnits, v) :: ·)

end

end Value

namespace Realm

open Value

/-- What `k in v` and `v[k]` find, of a value that is not primitive. -/
def property (r : Realm) : Value → PyStr → Property
  | obj kvs, k => (kvs.lookup k).elim (r.object k) .value
  | arr xs, k => if k = py "length" then .value (num (.fin xs.length)) else (element xs k).elim (r.array k) .value
  | .builtin i, k => r.builtin i k
  | _, _ => .absent

/-- The elements, if `Array.isArray(v)`. -/
def elements (r : Realm) : Value → Option (List Value)
  | arr xs => some xs
  | .builtin i => if r.isArray i then some [] else none
  | _ => none

/-- `typeof v === 'object' && v !== null`, of a value that is not an array. -/
def isObject (r : Realm) : Value → Bool
  | obj _ => true
  | .builtin i => !r.callable i
  | _ => false

end Realm

end Js
