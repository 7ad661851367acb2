import ModuleSurface.Moment
import ModuleSurface.Text.Bytes

/-! # Documents with sharing

A document is the data of a serialized graph before it is read as one. Its lists and maps live in
a store and are referred to by their place in it, so one map may be reached along several paths,
or from inside itself: identity is equality of references. Scalars are written out where they
stand; only moments have an identity too, which is the place where they were written first. Keys
of maps are scalars, in the order in which they were first written. -/

namespace ModuleSurface

/-- **A scalar**: nothing, a truth value, an unbounded integer, a double, a text, a moment with the
place where it was written, or bytes. -/
inductive Scalar
  | null
  | bool (b : Bool)
  | int (n : Int)
  | float (x : Double)
  | text (s : String)
  | moment (m : Moment) (place : Nat)
  | bytes (b : Bytes)
deriving DecidableEq, Inhabited

/-- **A value** of a document: a scalar, or a reference to the store. Pairs are kept like lists, and
sets like maps, the keys of which are the members. -/
inductive Value
  | scalar (s : Scalar)
  | list (ref : Nat)
  | pair (ref : Nat)
  | map (ref : Nat)
  | set (ref : Nat)
deriving DecidableEq

/-- The entries of a map, in the order of first insertion. -/
abbrev Entries := List (Scalar × Value)

/-- **The store** of a document: its lists and pairs, and its maps and sets, each known by its
place. -/
structure Store where
  lists : Array (List Value) := #[]
  maps : Array Entries := #[]
deriving DecidableEq

/-- **A document**: a store and the value it is about. -/
structure Document where
  store : Store
  root : Value
deriving DecidableEq

namespace Value

/-- The value that stands for nothing. -/
abbrev null : Value := .scalar .null

/-- A truth value. -/
abbrev bool (b : Bool) : Value := .scalar (.bool b)

/-- An integer. -/
abbrev int (n : Int) : Value := .scalar (.int n)

/-- A double. -/
abbrev float (x : Double) : Value := .scalar (.float x)

/-- A text. -/
abbrev text (s : String) : Value := .scalar (.text s)

instance : Inhabited Value := ⟨.null⟩

/-- The text that a value is, when it is one. -/
def text? : Value → Option String
  | .scalar (.text s) => some s
  | _ => none

/-- A text is read as itself by `text?`. -/
@[simp] theorem text?_text (s : String) : text? (.text s) = some s := rfl

/-- Whether a value is the value that stands for nothing. -/
def isNull (v : Value) : Bool := v == .null

/-- The null is null: `isNull .null = true`. -/
@[simp] theorem isNull_null : isNull .null = true := rfl

/-- The value itself, unless it stands for nothing. -/
def nonNull? (v : Value) : Option Value := if v.isNull then none else some v

/-- The value of an option, or the one that stands for nothing. -/
def ofOption : Option Value → Value
  | some v => v
  | none => .null

end Value

namespace Scalar

/-- The name of a scalar's type, as messages spell it. -/
def typeName : Scalar → String
  | .null => "NoneType"
  | .bool _ => "bool"
  | .int _ => "int"
  | .float _ => "float"
  | .text _ => "str"
  | .moment m _ => m.typeName
  | .bytes _ => "bytes"

/-- The name of a scalar's type with that of the module it belongs to, which the types of moments
have. -/
def fullTypeName : Scalar → String
  | .moment m _ => "datetime." ++ m.typeName
  | s => s.typeName

/-- Whether a scalar counts as true: all but nothing, the zeros and what is empty do. -/
def truthy : Scalar → Bool
  | .null => false
  | .bool b => b
  | .int n => n != 0
  | .float x => !x.isZero
  | .text s => s != ""
  | .moment _ _ => true
  | .bytes b => !b.isEmpty

/-- The integer that a number equals; the truth values are one and zero. -/
def toInt? : Scalar → Option Int
  | .bool b => some (if b then 1 else 0)
  | .int n => some n
  | .float x => x.toInt?
  | _ => none

/-- **Equality by value.** Numbers are compared across their types; not a number equals nothing. -/
def sameValue : Scalar → Scalar → Bool
  | .text s, .text t => s == t
  | .null, .null => true
  | .float x, .float y => x.numericEq y
  | .moment m _, .moment n _ => m.same n
  | .bytes b, .bytes c => b == c
  | a, b =>
    match a.toInt?, b.toInt? with
    | some m, some n => m == n
    | _, _ => false

/-- **Equality of keys**: by identity or by value, so that not a number is the same key as itself.
-/
def sameKey (a b : Scalar) : Bool := a == b || a.sameValue b

/-- Texts have the same value where they are equal: `sameValue (.text s) (.text t) = (s == t)`. -/
@[simp] theorem sameValue_text (s t : String) : sameValue (.text s) (.text t) = (s == t) := rfl

/-- Texts are the same key where they are equal: `sameKey (.text s) (.text t) = (s == t)`. -/
@[simp] theorem sameKey_text (s t : String) : sameKey (.text s) (.text t) = (s == t) := by
  by_cases h : s = t <;> simp [sameKey, h]

/-- Every scalar is the same key as itself, even where `sameValue` denies it. -/
@[simp] theorem sameKey_self (a : Scalar) : a.sameKey a = true := by
  simp [sameKey]

end Scalar

namespace Entries

/-- The value under a key that is a text. -/
def field? (entries : Entries) (name : String) : Option Value :=
  (entries.find? fun entry => entry.1 == .text name).map (·.2)

/-- A map without entries has no field: `field? [] name = none`. -/
@[simp] theorem field?_nil (name : String) : field? [] name = none := rfl

/-- The value under a key, and nothing where the key is missing. -/
def field (entries : Entries) (name : String) : Value := Value.ofOption (entries.field? name)

/-- **Writing an entry.** A key that is there keeps its place and its spelling and gets the value; a
new one goes to the end. -/
def put {α : Type} (key : Scalar) (value : α) : List (Scalar × α) → List (Scalar × α)
  | [] => [(key, value)]
  | entry :: rest =>
    if entry.1.sameKey key then (entry.1, value) :: rest else entry :: put key value rest

/-- In a map without entries `put` leaves the one that is put. -/
@[simp] theorem put_nil {α : Type} (key : Scalar) (value : α) : put key value [] = [(key, value)] :=
  rfl

/-- The entries of a list of written pairs: the first place and the last value of every key. -/
def ofPairs {α : Type} (pairs : List (Scalar × α)) : List (Scalar × α) :=
  pairs.foldl (fun entries pair => put pair.1 pair.2 entries) []

end Entries

namespace Store

/-- The items of a list; a reference outside the store is an empty list. -/
def items (store : Store) (ref : Nat) : List Value := store.lists.getD ref []

/-- The entries of a map; a reference outside the store is an empty map. -/
def entries (store : Store) (ref : Nat) : Entries := store.maps.getD ref []

/-- How many lists and maps the store holds. -/
def size (store : Store) : Nat := store.lists.size + store.maps.size

/-- The store with one more list, and the reference to it. -/
def addList (store : Store) (items : List Value) : Store × Value :=
  ({ store with lists := store.lists.push items }, .list store.lists.size)

/-- The store with one more map, and the reference to it. -/
def addMap (store : Store) (entries : Entries) : Store × Value :=
  ({ store with maps := store.maps.push entries }, .map store.maps.size)

/-- Whether a value counts as true: what is kept in the store does when it is not empty. -/
def truthy (store : Store) : Value → Bool
  | .scalar s => s.truthy
  | .list ref | .pair ref => !(store.items ref).isEmpty
  | .map ref | .set ref => !(store.entries ref).isEmpty

end Store

namespace Value

/-- The name of a value's type, as messages spell it. -/
def typeName : Value → String
  | .scalar s => s.typeName
  | .list _ => "list"
  | .pair _ => "tuple"
  | .map _ => "dict"
  | .set _ => "set"

/-- The name of a value's type with that of its module. -/
def fullTypeName : Value → String
  | .scalar s => s.fullTypeName
  | v => v.typeName

end Value

end ModuleSurface
