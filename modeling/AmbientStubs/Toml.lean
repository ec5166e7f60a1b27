import AmbientStubs.Toml.DateTime

/-!
TOML documents as trees.  Texts, dates, lists and tables are told apart further; numbers
and booleans are values of which it matters that they are written correctly and are no
texts.  A table remembers how it was defined, because that decides which later
lines may add to it.
-/

namespace AmbientStubs

inductive TableForm where
  /-- By a header of its own, or as the document. -/
  | header
  /-- By the header of something inside it. -/
  | implied
  /-- By a dotted key. -/
  | dotted
  /-- Between braces; nothing is ever added to it. -/
  | inline
deriving DecidableEq, Repr

inductive Toml where
  | text (value : String)
  /-- A number or boolean. -/
  | scalar
  | dateTime (value : DateTime)
  | list (elements : List Toml)
  | table (form : TableForm) (entries : List (String × Toml))
  /-- The tables of an array that double-bracket headers define, the last one first. -/
  | tables (latest : List (String × Toml)) (earlier : List (List (String × Toml)))

namespace Toml

abbrev Entries := List (String × Toml)

def lookup? (key : String) (entries : Entries) : Option Toml :=
  (entries.find? fun entry => entry.1 == key).map (·.2)

/-- The key under which a date shows its text where a table is wanted. -/
def dateTimeKey : String := "$__toml_private_datetime"

/-- The entries of a value where a table is wanted.  A date has one. -/
def entries? : Toml → Option Entries
  | table _ entries => some entries
  | dateTime value => some [(dateTimeKey, text value.text)]
  | _ => none

def setEntry (key : String) (value : Toml) : Entries → Entries
  | [] => [(key, value)]
  | (present, old) :: rest =>
      if present = key then (present, value) :: rest
      else (present, old) :: setEntry key value rest

/-- Change the table that a path of keys leads to.  A missing table on the way is made in
the given form; a list of tables stands for its latest one; a table between braces and
any other value stop the way, and so does a table that has a header of its own if the
way is a dotted key. -/
def alterAt? (made : TableForm) (change : TableForm → Entries → Option Entries) :
    List String → TableForm → Entries → Option Entries
  | [], form, entries => change form entries
  | key :: rest, _, entries => do
      match lookup? key entries with
      | none =>
          let inner ← alterAt? made change rest made []
          some (setEntry key (table made inner) entries)
      | some (table .inline _) => none
      | some (table form inner) =>
          if made = .dotted ∧ form = .header then none
          else do some (setEntry key (table form (← alterAt? made change rest form inner)) entries)
      | some (tables latest earlier) => do
          some (setEntry key (tables (← alterAt? made change rest .header latest) earlier) entries)
      | some _ => none

/-- Add a value under a dotted key to a table.  The key is new, and the table that its
path leads to was made by dotted keys too. -/
def insert? (path : List String) (key : String) (value : Toml) (form : TableForm)
    (entries : Entries) : Option Entries :=
  alterAt? .dotted (fun form entries =>
    if path.isEmpty = false ∧ form ≠ .dotted then none
    else if (lookup? key entries).isSome then none
    else some (entries ++ [(key, value)])) path form entries

/-- Open the table of a header.  It is new, or so far only implied. -/
def openTable? (path : List String) (key : String) (document : Entries) : Option Entries :=
  alterAt? .implied (fun _ entries =>
    match lookup? key entries with
    | none => some (entries ++ [(key, table .header [])])
    | some (table .implied inner) => some (setEntry key (table .header inner) entries)
    | some _ => none) path .header document

def openNextTable? (path : List String) (key : String) (document : Entries) : Option Entries :=
  alterAt? .implied (fun _ entries =>
    match lookup? key entries with
    | none => some (entries ++ [(key, tables [] [])])
    | some (tables latest earlier) => some (setEntry key (tables [] (latest :: earlier)) entries)
    | some _ => none) path .header document

end Toml

end AmbientStubs
