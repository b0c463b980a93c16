/-
CONFIGURATION VALUES: scalars, lists and records nested to any depth, and the operations that layers of configuration
need.

- A record has fields of its own and a parent, whose fields it inherits. Records that are read in or made here have the
  parent `root`, which has no fields but `builtin` functions. Under the name `parentName` a record shows its parent
  (`Value.property?`), and writing that field sets the parent in place of making a field (`Value.assign`).
- `Value.merge` lays a second value over a first: over a record, the fields of a record are assigned one by one, each
  merged with what is found there, and anything else is replaced. Only fields of their own count on either side.
- `Record.setPath` writes at a path of names and makes every name before the last a record.
- `Value.getPath?` reads at a path; what is not a record has no fields, neither of its own nor inherited.

Values are trees as they come from JSON, but a field may also hold `undefined`. A read tells that apart from a field that
is missing, though a program cannot. Values with shared or circular parts, with functions, instances of classes or
computed fields in them are left out. Where a record holds a name twice, the first counts. Fields stand in the order
they were written in, also where a program puts names that are indexes in front; beside the order of all names, only a
field under `parentName` could tell.
-/
import SliceParser.Number.Basic
import SliceParser.Unicode.Utf16

namespace SliceParser.Config

inductive Value where
  | undefined
  | null
  | bool (value : Bool)
  | number (value : Number)
  | text (value : Units)
  | list (items : List Value)
  /-- a function that is inherited under this name -/
  | builtin (name : Units)
  /-- what records inherit from in the end, unless their parent was set -/
  | root
  | object (fields : List (Units × Value)) (parent : Value)

/-- values by name, in the order the names were first written -/
abbrev Record := List (Units × Value)

abbrev Path := List Units

namespace Record

def get? (name : Units) : Record → Option Value
  | [] => none
  | (other, value) :: rest => if name = other then some value else get? name rest

/-- a name keeps its place when it is written again -/
def insert (name : Units) (value : Value) : Record → Record
  | [] => [(name, value)]
  | (other, old) :: rest => if name = other then (name, value) :: rest else (other, old) :: insert name value rest

theorem get?_insert (name other : Units) (value : Value) (record : Record) :
    get? other (insert name value record) = if other = name then some value else get? other record := by
  induction record with
  | nil => simp [insert, get?]
  | cons field rest ih =>
    obtain ⟨key, old⟩ := field
    by_cases hn : name = key
    · subst hn
      by_cases ho : other = name
      · simp [insert, get?, ho]
      · simp [insert, get?, ho]
    · by_cases ho : other = key
      · subst ho
        simp [insert, get?, hn, Ne.symm hn]
      · simp [insert, get?, hn, ho, ih]

end Record

/-! ## Inheritance -/

/-- the name that a record shows its parent under -/
def parentName : Units := .ofString "__proto__"

/-- what every record inherits, besides its parent -/
def builtinNames : List Units :=
  ["constructor", "hasOwnProperty", "isPrototypeOf", "propertyIsEnumerable", "toLocaleString", "toString", "valueOf",
    "__defineGetter__", "__defineSetter__", "__lookupGetter__", "__lookupSetter__"].map .ofString

/-- what a record inherits besides, if a list is its parent -/
def listBuiltinNames : List Units :=
  ["at", "concat", "copyWithin", "entries", "every", "fill", "filter", "find", "findIndex", "findLast", "findLastIndex",
    "flat", "flatMap", "forEach", "includes", "indexOf", "join", "keys", "lastIndexOf", "map", "pop", "push", "reduce",
    "reduceRight", "reverse", "shift", "slice", "some", "sort", "splice", "toReversed", "toSorted", "toSpliced",
    "unshift", "values", "with"].map .ofString

namespace Value

/-- a record with the parent that records have from the start -/
@[match_pattern] abbrev record (fields : Record) : Value := .object fields .root

def isRecord : Value → Bool
  | .object .. => true
  | .root => true
  | _ => false

/-- the fields of a value itself; one that is not a record has none -/
def fields : Value → Record
  | .object fields _ => fields
  | _ => []

@[simp] theorem fields_object (fields : Record) (parent : Value) : (object fields parent).fields = fields := rfl

def parent : Value → Value
  | .object _ parent => parent
  | .root => .null
  | _ => .undefined

def reachesRoot : Value → Bool
  | .object _ parent => parent.reachesRoot
  | .list _ => true
  | .root => true
  | _ => false

/-- what a list holds under a name: its items by their index, and its length -/
def item? (name : Units) (items : List Value) : Option Value :=
  if name = .ofString "length" then some (.number (.ofNat items.length))
  else ((items.mapIdx fun index item => (Units.ofString (toString index), item)).find? fun entry =>
    name = entry.1).map Prod.snd

/-- what a value holds under a name, or what it inherits from holds -/
def held? (name : Units) : Value → Option Value
  | .object fields parent => (Record.get? name fields).or (parent.held? name)
  | .list items =>
    (item? name items).or (if name ∈ builtinNames ++ listBuiltinNames then some (.builtin name) else none)
  | .root => if name ∈ builtinNames then some (.builtin name) else none
  | _ => none

/-- under this name the value shows its parent, as nothing is held under it -/
def showsParent (name : Units) (value : Value) : Bool :=
  name = parentName && (value.held? name).isNone && value.reachesRoot

/-- what is found under a name -/
def property? (name : Units) (value : Value) : Option Value :=
  if value.showsParent name then some value.parent else value.held? name

/-- the value can be a parent: it is null, or has fields to inherit -/
def isParent : Value → Bool
  | .null => true
  | .list _ => true
  | .builtin _ => true
  | .root => true
  | .object .. => true
  | _ => false

/-- writes a field; where the name shows the parent, that is set, and stays as it is if the value cannot be one -/
def assign (holder : Value) (name : Units) (value : Value) : Value :=
  match holder with
  | .object fields parent =>
    if holder.showsParent name then .object fields (if value.isParent then value else parent)
    else .object (Record.insert name value fields) parent
  | other => other

/-! ## Layers -/

mutual

/-- `upper` laid over `lower` -/
def merge (lower : Value) : (upper : Value) → Value
  | .object fields parent =>
    if lower.isRecord then mergeFields (.record lower.fields) fields else .object fields parent
  | .root => if lower.isRecord then .record lower.fields else .root
  | upper => upper
termination_by structural upper => upper

/-- the fields of the upper layer assigned in their order, each merged with what is found there by then -/
def mergeFields (result : Value) : (upper : List (Units × Value)) → Value
  | [] => result
  | (name, new) :: rest =>
    mergeFields (result.assign name (merge ((result.property? name).getD .undefined) new)) rest
termination_by structural upper => upper

end

theorem merge_of_isRecord {lower : Value} (h : lower.isRecord = true) (fields : Record) (parent : Value) :
    merge lower (.object fields parent) = mergeFields (.record lower.fields) fields := by
  rw [merge, if_pos h]

end Value

/-- one whole layer over another; the parent of the result is left out, since no layer is asked for its parent -/
def Record.merge (lower upper : Record) : Record :=
  (Value.merge (.record lower) (.record upper)).fields

theorem Value.fields_merge {lower upper : Value} (hlower : lower.isRecord = true) (hupper : upper.isRecord = true) :
    (merge lower upper).fields = Record.merge lower.fields upper.fields := by
  cases upper with
  | object fields parent =>
    rw [merge_of_isRecord hlower, Record.merge, merge_of_isRecord rfl, fields_object, fields_object]
  | root =>
    rw [merge, if_pos hlower]
    rfl
  | _ => exact nomatch hupper

/-! ## Paths -/

/-- writes at a path; what a name on the way holds is kept if it is a record. The names of the path are other ones than
`parentName`. -/
def Record.setPath (value : Value) : Path → Record → Record
  | [], record => record
  | [name], record => record.insert name value
  | name :: next :: path, record =>
    let inner := match record.get? name with
      | some old => old.fields
      | none => []
    record.insert name (.record (setPath value (next :: path) inner))

def Value.getPath? : Path → Value → Option Value
  | [], value => some value
  | name :: path, value =>
    if value.isRecord then
      match value.property? name with
      | some found => getPath? path found
      | none => none
    else none

/-! ## Readings -/

/-- whether a value counts as set: not undefined, not null, not false, not 0, not empty, and a number at all -/
def Value.isTruthy : Value → Bool
  | .undefined => false
  | .null => false
  | .bool value => value
  | .number value => value ≠ .nan && value ≠ .finite 0
  | .text value => !value.isEmpty
  | .list _ => true
  | .builtin _ => true
  | .root => true
  | .object .. => true

/-- the names that a dotted path spells, empty ones included -/
def splitPath : Units → Path
  | [] => [[]]
  | u :: us =>
    if u = 0x2E then [] :: splitPath us
    else match splitPath us with
      | name :: path => (u :: name) :: path
      | [] => [[u]]

end SliceParser.Config
