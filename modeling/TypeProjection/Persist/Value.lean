/-!
# Persisted values

The data format in which handles, flag sets and dimensions are kept: numbers, texts,
lists and records.  A value of a domain type is stored in one form, and reading
accepts some further forms of the same value.
-/

namespace TypeProjection.Persist

inductive Value where
  | null
  | boolean (value : Bool)
  | integer (value : Int)
  /-- A number that is not written as an integer. -/
  | fraction
  | text (value : String)
  | list (values : List Value)
  | record (fields : List (String × Value))
  deriving Inhabited

/-- Types whose values can be stored and read back. -/
class Persistent (α : Type) where
  store : α → Value
  load? : Value → Option α

namespace Value

def integerBetween? (least greatest : Int) : Value → Option Int
  | integer value => if least ≤ value ∧ value ≤ greatest then some value else none
  | _ => none

def list? : Value → Option (List Value)
  | list values => some values
  | _ => none

def text? : Value → Option String
  | text value => some value
  | _ => none

/-- The name of an alternative without contents: the bare name, or a record with
the name as its only field and nothing in it. -/
def alternative? : Value → Option String
  | text name => some name
  | record [(name, null)] => some name
  | _ => none

/-- The values of the named fields: those of a record, which may have others
beside them, or the elements of a list of just as many. -/
def fields? (names : List String) : Value → Option (List Value)
  | record fields => names.mapM fun name => fields.lookup name
  | list values => if values.length = names.length then some values else none
  | _ => none

end Value

instance : Persistent UInt32 where
  store number := .integer number.toNat
  load? value := (value.integerBetween? 0 0xFFFFFFFF).map fun number =>
    UInt32.ofNat number.toNat

instance : Persistent Int32 where
  store number := .integer number.toInt
  load? value := (value.integerBetween? (-0x80000000) 0x7FFFFFFF).map Int32.ofInt

instance {α : Type} [Persistent α] : Persistent (List α) where
  store values := .list (values.map Persistent.store)
  load? value := do (← value.list?).mapM Persistent.load?

end TypeProjection.Persist
