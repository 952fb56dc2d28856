import RuleCanon.File.System
import RuleCanon.Table
import RuleCanon.Text.Span

/-!
# Disks

A disk is a small file system to try programs on: the files below a working directory, under
their paths from there.  Reading follows a path name by name, and so does writing, which puts a
text where the path leads.

## Main Definitions

* `Entry` — a file or a directory
* `Disk` — the entries below the working directory
* `Disk.resolve` — where a path leads
* `Disk.read`, `Disk.write` — the text at a path, before and after a change; with these a disk is
  a `FileSystem`

## Main Statements

* `Disk.write_eq_ok_iff` — a text can be written exactly where the path has a target
* `Disk.entries_write_self`, `Disk.entries_write_of_ne` — what writing changes

## Design Notes

A directory is there as soon as something is in it.  The directories above the working
directory can be reached with `..` and from the root, but there is nothing in them.  Every file
may be read and written, and there are no links; what a program does where this is not so is said
for file systems in general.
-/

namespace RuleCanon

/-- What stands at a path. -/
inductive Entry where
  /-- A file with a text. -/
  | text (content : List Char)
  /-- A file whose bytes are not UTF-8. -/
  | binary (content : List UInt8)
  /-- A directory. -/
  | directory
deriving DecidableEq

namespace Entry

/-- The file that holds the bytes. -/
def ofBytes (bytes : ByteArray) : Entry :=
  match String.fromUTF8? bytes with
  | some s => text s.toList
  | none => binary bytes.toList

/-- The text of a file. -/
def read : Entry → Except FileFault (List Char)
  | text content => .ok content
  | binary _ => .error .notText
  | directory => .error .isDirectory

end Entry

/-- Where a path leads. -/
inductive Place where
  /-- Below the working directory, by the names from there. -/
  | inside (names : List (List Char))
  /-- A directory above the working directory. -/
  | outside
  /-- A missing entry of a directory above the working directory. -/
  | missing
deriving DecidableEq

/-- The most bytes that a name may have. -/
def Place.nameLimit : Nat := 255

/-- The files below a working directory. -/
structure Disk where
  /-- The entries by their paths from the working directory. -/
  entries : Table Entry := ∅

namespace Disk

/-- The path of an entry from the working directory. -/
def key (names : List (List Char)) : String := String.ofList (['/'].intercalate names)

/-- Whether some entry has a path that starts with those names and goes on. -/
def hasBelow (d : Disk) (names : List (List Char)) : Bool :=
  d.entries.keys.any ((key names ++ "/").toList.isPrefixOf ·.toList)

/-- What stands at a place, if anything does. -/
def lookup? (d : Disk) : Place → Option Entry
  | .outside => some .directory
  | .missing => none
  | .inside [] => some .directory
  | .inside names =>
    match d.entries.find? (key names) with
    | some e => some e
    | none => if d.hasBelow names then some .directory else none

/-- The place to which the next name of a path leads. -/
def step (d : Disk) (place : Place) (name : List Char) : Except FileFault Place :=
  match d.lookup? place with
  | none => .error .notFound
  | some .directory =>
    if name = [] ∨ name = ['.'] then .ok place
    else if name = ['.', '.'] then
      match place with
      | .inside names => .ok (if names = [] then .outside else .inside names.dropLast)
      | _ => .ok .outside
    else if Place.nameLimit < utf8Length name then .error .nameTooLong
    else
      match place with
      | .inside names => .ok (.inside (names ++ [name]))
      | _ => .ok .missing
  | some _ => .error .notDirectory

/-- The place to which a path leads.  All names but the last must be those of directories. -/
def resolve (d : Disk) (path : List Char) : Except FileFault Place :=
  match path with
  | '/' :: rest => (rest.splitOn '/').foldlM d.step .outside
  | path => (path.splitOn '/').foldlM d.step (.inside [])

/-- The text at a path. -/
def read (d : Disk) (path : String) : Except FileFault (List Char) :=
  match d.resolve path.toList with
  | .error fault => .error fault
  | .ok place =>
    match d.lookup? place with
    | some e => e.read
    | none => .error .notFound

/-- The path without slashes at its end. -/
def dropSlashes (path : List Char) : List Char :=
  (path.reverse.dropWhile (· == '/')).reverse

/-- Where a text written to a path goes.  A path that ends in a slash means a directory. -/
def target (d : Disk) (path : String) : Except FileFault (List (List Char)) :=
  match d.resolve (dropSlashes path.toList) with
  | .error fault => .error fault
  | .ok place =>
    if path.toList.getLast? = some '/' ∨ d.lookup? place = some .directory then
      .error .isDirectory
    else
      match place with
      | .inside names => .ok names
      | _ => .error .notFound

/-- The disk after a text was written to a path. -/
def write (d : Disk) (path : String) (content : List Char) : Except FileFault Disk :=
  match d.target path with
  | .error fault => .error fault
  | .ok names => .ok ⟨d.entries.insert (key names) (.text content)⟩

/-- A text can be written where the path has a target, and then it is put there. -/
theorem write_eq_ok_iff {d e : Disk} {path : String} {content : List Char} :
    d.write path content = .ok e ↔
      ∃ names, d.target path = .ok names ∧
        e = ⟨d.entries.insert (key names) (.text content)⟩ := by
  rw [write]
  split
  · next fault h => simp [h]
  · next names h => simp [h, eq_comm]

/-- The text that was written is at its place. -/
theorem entries_write_self {d e : Disk} {path : String} {content : List Char}
    {names : List (List Char)} (htarget : d.target path = .ok names)
    (h : d.write path content = .ok e) : e.entries.find? (key names) = some (.text content) := by
  obtain ⟨names', htarget', rfl⟩ := write_eq_ok_iff.1 h
  obtain rfl : names = names' := by simpa [htarget] using htarget'
  exact Table.find?_insert_self ..

/-- Nothing else changes. -/
theorem entries_write_of_ne {d e : Disk} {path other : String} {content : List Char}
    {names : List (List Char)} (htarget : d.target path = .ok names)
    (h : d.write path content = .ok e) (hother : other ≠ key names) :
    e.entries.find? other = d.entries.find? other := by
  obtain ⟨names', htarget', rfl⟩ := write_eq_ok_iff.1 h
  obtain rfl : names = names' := by simpa [htarget] using htarget'
  exact Table.find?_insert_of_ne _ hother _

instance : FileSystem Disk where
  read := read
  write := write
  content? d path := (d.read path).toOption

/-- The disk with those entries. -/
def ofList (l : List (String × Entry)) : Disk := ⟨.ofList l⟩

end Disk

end RuleCanon
