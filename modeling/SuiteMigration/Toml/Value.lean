/-!
Values of TOML documents, and the tables that keys and headers build. A table remembers how it came
about, because that decides which later keys and headers may add to it.
-/

set_option autoImplicit false
set_option relaxedAutoImplicit false

namespace SuiteMigration.Toml

/-- How a table came about. -/
inductive Form where
  /-- By a header of its own. -/
  | header
  /-- By the header of a table inside it. -/
  | implied
  /-- By a dotted key. -/
  | dotted
  /-- Between braces. -/
  | inline
  deriving DecidableEq, Repr

inductive Value where
  | text (s : String)
  | integer (i : Int)
  | real (x : Float)
  | boolean (b : Bool)
  /-- A date, a time or both. -/
  | moment
  | array (items : List Value)
  | table (form : Form) (entries : List (String × Value))
  /-- The tables of headers with double brackets. -/
  | tables (items : List Value)

abbrev Entries := List (String × Value)

/-- Puts a value under a key, in the place of an earlier one. -/
def Entries.put (key : String) (value : Value) (entries : Entries) : Entries :=
  if (entries.lookup key).isSome then
    entries.map fun (k, v) ↦ if k == key then (k, value) else (k, v)
  else entries ++ [(key, value)]

/-- Changes the table at the end of a path. Tables that are missing on the way are made with a form,
and tables of a closed form cannot be passed. -/
def change (made : Form) (isClosed : Form → Bool) (f : Form → Entries → Option Entries) :
    List String → Form → Entries → Option Entries
  | [], form, entries => f form entries
  | key :: rest, _, entries => do
      match entries.lookup key with
      | none =>
          let inner ← change made isClosed f rest made []
          return entries.put key (.table made inner)
      | some (.table form inner) =>
          if isClosed form then none
          else
            let inner ← change made isClosed f rest form inner
            return entries.put key (.table form inner)
      | some (.tables items) =>
          match items.getLast? with
          | some (.table form inner) =>
              let inner ← change made isClosed f rest form inner
              return entries.put key (.tables (items.dropLast ++ [.table form inner]))
          | _ => none
      | some _ => none

/-- A key, which may be dotted, with its value. -/
structure Pair where
  path : List String
  key : String
  value : Value

/-- Adds the value of a key that is new to its table. Only a table that dotted keys made can be
extended by a dotted key. -/
def addKey (p : Pair) (form : Form) (entries : Entries) : Option Entries :=
  if (form == .dotted) == p.path.isEmpty then none
  else if (entries.lookup p.key).isSome then none
  else some (entries.put p.key p.value)

/-- Adds a pair to the table of a header. -/
def addPair (entries : Entries) (p : Pair) : Option Entries :=
  change .dotted (fun form ↦ form == .header || form == .inline) (addKey p) p.path .header entries

/-- Adds a pair to a table between braces. -/
def addInline (entries : Entries) (p : Pair) : Option Entries :=
  change .dotted (fun _ ↦ false) (addKey p) p.path .inline entries

/-- What the pairs of a section belong to. -/
inductive Heading where
  | root
  | table (parents : List String) (key : String)
  | tables (parents : List String) (key : String)

structure Section where
  heading : Heading
  pairs : List Pair

/-- Changes the table that a header stands in. -/
def underHeader (parents : List String) (f : Entries → Option Entries) (root : Entries) :
    Option Entries :=
  change .implied (· == .inline) (fun _ ↦ f) parents .header root

/-- Adds a section. A table may have one header; one that was implied before may still get it. -/
def addSection (root : Entries) (s : Section) : Option Entries :=
  match s.heading with
  | .root => s.pairs.foldlM addPair root
  | .table parents key =>
      root |> underHeader parents fun entries ↦ do
        let start ←
          match entries.lookup key with
          | none => some []
          | some (.table .implied inner) => some inner
          | some _ => none
        let built ← s.pairs.foldlM addPair start
        return entries.put key (.table .header built)
  | .tables parents key =>
      root |> underHeader parents fun entries ↦ do
        let items ←
          match entries.lookup key with
          | none => some []
          | some (.tables items) => some items
          | some _ => none
        let built ← s.pairs.foldlM addPair []
        return entries.put key (.tables (items ++ [.table .header built]))

end SuiteMigration.Toml
