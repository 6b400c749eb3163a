/-
This file builds the tables of a TOML document, in which each key is set only once and a table is
opened only once.
-/

import BranchCatalog.Text.Basic

namespace BranchCatalog.Toml

/-- The values of a document. Numbers, dates, times and inline tables are read and then forgotten. -/
inductive Value where
  | text (text : Text)
  | boolean (value : Bool)
  | list (values : List Value)
  | other

/-- A table is opened by its own header, implied by the header of a table below it, or implied by a
key with dots. -/
inductive TableKind where
  | opened
  | implied
  | dotted
  deriving DecidableEq, Repr

/-- What a key is bound to: a value, a table, or a list of tables. -/
inductive Item where
  | value (value : Value)
  | table (kind : TableKind) (entries : List (Text × Item))
  | tables (tables : List (List (Text × Item)))

/-- The entries of a table in the order of their keys' first mention. -/
abbrev Entries : Type := List (Text × Item)

namespace Entries

/-- Binds a key to an item, in place of the one it was bound to. -/
def set (entries : Entries) (key : Text) (item : Item) : Entries :=
  match entries with
  | [] => [(key, item)]
  | entry :: entries =>
    if entry.1 = key then (key, item) :: entries else entry :: set entries key item

/-- Changes the table at the end of a path of keys and gives its kind to the change. Missing tables on
the way are made, of a list of tables the last one is meant, and keys with dots lead through no table
that a header has opened. -/
def change (byDots : Bool) (update : TableKind → Entries → Option Entries) :
    List Text → TableKind → Entries → Option Entries
  | [], kind, entries => update kind entries
  | key :: path, _, entries =>
    match List.lookup key entries with
    | none =>
      let kind := if byDots then TableKind.dotted else TableKind.implied
      (change byDots update path kind []).map fun inner => entries.set key (.table kind inner)
    | some (.value _) => none
    | some (.tables tables) =>
      match tables.getLast? with
      | none => none
      | some last =>
        (change byDots update path .opened last).map fun inner =>
          entries.set key (.tables (tables.dropLast ++ [inner]))
    | some (.table kind inner) =>
      if byDots ∧ kind = .opened then none
      else
        (change byDots update path kind inner).map fun inner =>
          entries.set key (.table kind inner)

/-- Binds a new key of a table to a value. -/
def bind (key : Text) (value : Value) (entries : Entries) : Option Entries :=
  match List.lookup key entries with
  | some _ => none
  | none => some (entries ++ [(key, .value value)])

/-- Binds a key with dots, given by its parts, to a value. The last table on the way must be one that
dots have made. -/
def bindPath (path : List Text) (value : Value) (entries : Entries) : Option Entries :=
  match path.getLast? with
  | none => none
  | some key =>
    if path.length = 1 then bind key value entries
    else
      change true (fun kind inner => if kind = .dotted then bind key value inner else none)
        path.dropLast .opened entries

/-- Opens the table of a header, which may have been implied but not opened before. -/
def openTable (path : List Text) (entries : Entries) : Option Entries :=
  match path.getLast? with
  | none => none
  | some key =>
    change false (fun _ inner =>
      match List.lookup key inner with
      | none => some (inner.set key (.table .opened []))
      | some (.table .implied below) => some (inner.set key (.table .opened below))
      | some _ => none) path.dropLast .opened entries

/-- Adds a table to the list of a header. -/
def appendTable (path : List Text) (entries : Entries) : Option Entries :=
  match path.getLast? with
  | none => none
  | some key =>
    change false (fun _ inner =>
      match List.lookup key inner with
      | none => some (inner.set key (.tables [[]]))
      | some (.tables tables) => some (inner.set key (.tables (tables ++ [[]])))
      | some _ => none) path.dropLast .opened entries

end Entries

end BranchCatalog.Toml
