/-! Values of TOML documents, and how keys and headers add to tables. A table that was opened is not
opened again. -/

namespace TsToPhp.Toml

/-- How a table came to be: by its own header or braces, on the way to another header, or by a key
with dots. -/
inductive Origin where
  | explicit | implicit | dotted
  deriving DecidableEq, Repr

inductive Value where
  | string (s : String)
  /-- Numbers, truth values and dates, told apart from strings only. -/
  | scalar
  | array (items : List Value)
  /-- Tables in braces are closed to later keys. -/
  | table (isInline : Bool) (origin : Origin) (entries : List (String × Value))
  /-- Tables under one header in double brackets, the last one first. -/
  | tables (elements : List (List (String × Value)))

abbrev Entries := List (String × Value)

namespace Entries

/-- Replaces the value of a key, or adds the key at the end. -/
def set (key : String) (v : Value) : Entries → Entries
  | [] => [(key, v)]
  | (k, old) :: es => if k = key then (k, v) :: es else (k, old) :: set key v es

/-- Adds a key that is not there yet. The table it goes to must be made by dotted keys exactly if
the key had dots. -/
def addNew? (origin : Origin) (hadDots : Bool) (key : String) (v : Value) (es : Entries) :
    Option Entries :=
  if (origin == .dotted) != hadDots then none
  else
    match es.lookup key with
    | some _ => none
    | none => some (es ++ [(key, v)])

/-- Adds the value of a key with dots. `path` is the key without its last name. -/
def addKey? (isInline : Bool) (origin : Origin) (hadDots : Bool) (path : List String)
    (key : String) (v : Value) (es : Entries) : Option Entries :=
  match path with
  | [] => addNew? origin hadDots key v es
  | name :: path =>
    match es.lookup name with
    | none => do
      let inner ← addKey? isInline .dotted true path key v []
      return es ++ [(name, .table isInline .dotted inner)]
    | some (.table inlined from_ inner) =>
      if from_ = .explicit ∨ (inlined && !isInline) then none
      else do
        let inner ← addKey? isInline from_ true path key v inner
        return set name (.table inlined from_ inner) es
    | some (.tables (last :: others)) => do
      let last ← addKey? isInline .explicit true path key v last
      return set name (.tables (last :: others)) es
    | some _ => none

/-- Applies `f` to the table that a header's path leads to. Tables on the way are made as needed,
and of several tables under one header the last is meant. -/
def within? (f : Entries → Option Entries) : List String → Entries → Option Entries
  | [], es => f es
  | name :: path, es =>
    match es.lookup name with
    | none => do
      let inner ← within? f path []
      return es ++ [(name, .table false .implicit inner)]
    | some (.table false origin inner) => do
      let inner ← within? f path inner
      return set name (.table false origin inner) es
    | some (.tables (last :: others)) => do
      let last ← within? f path last
      return set name (.tables (last :: others)) es
    | some _ => none

/-- Opens the table of a header in single brackets: a new one, or one that was only passed through
before. -/
def open? (name : String) (es : Entries) : Option Entries :=
  match es.lookup name with
  | none => some (es ++ [(name, .table false .explicit [])])
  | some (.table false .implicit inner) => some (set name (.table false .explicit inner) es)
  | some _ => none

/-- Opens one more table under a header in double brackets. -/
def push? (name : String) (es : Entries) : Option Entries :=
  match es.lookup name with
  | none => some (es ++ [(name, .tables [[]])])
  | some (.tables elements) => some (set name (.tables ([] :: elements)) es)
  | some _ => none

end Entries

end TsToPhp.Toml
