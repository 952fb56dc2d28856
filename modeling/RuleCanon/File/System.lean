import RuleCanon.File.Fault

/-!
# File systems

A program asks little of the files around it: it reads the text at a path, or puts a text there.
Where a path leads, which files may be read and which may be written is up to the file system.

## Main Definitions

* `FileSystem` — what reading and writing a path comes to
* `LawfulFileSystem` — what can be relied on

## Design Notes

A value of the type is the state of all files together.  Reading leaves it as it is, and a write
that fails gives no new state: either the text is written or no file is created or changed.  A
file that can be written need not be open to readers, so the laws are about what it holds.  They
leave out devices, which take a text without keeping it.
-/

namespace RuleCanon

/-- Files under paths, as a program can read and write them. -/
class FileSystem (σ : Type) where
  /-- The text that a reader gets at a path. -/
  read : σ → String → Except FileFault (List Char)
  /-- The files after a text was written to a path. -/
  write : σ → String → List Char → Except FileFault σ
  /-- The text that is held by the file at a path, be it open to reading or not. -/
  content? : σ → String → Option (List Char)

/-- A file system that keeps the texts that are written. -/
class LawfulFileSystem (σ : Type) [FileSystem σ] : Prop where
  /-- A reader gets what the file holds. -/
  content?_of_read {files : σ} {path : String} {text : List Char} :
    FileSystem.read files path = .ok text → FileSystem.content? files path = some text
  /-- A file holds the text that was written to it and nothing else. -/
  content?_of_write {files after : σ} {path : String} {text : List Char} :
    FileSystem.write files path text = .ok after → FileSystem.content? after path = some text

/-- A reader gets the text that was written. -/
theorem FileSystem.eq_of_read_of_write {σ : Type} [FileSystem σ] [LawfulFileSystem σ]
    {files after : σ} {path : String} {text other : List Char}
    (hwrite : write files path text = .ok after) (hread : read after path = .ok other) :
    other = text :=
  Option.some.inj ((LawfulFileSystem.content?_of_read hread).symm.trans
    (LawfulFileSystem.content?_of_write hwrite))

end RuleCanon
