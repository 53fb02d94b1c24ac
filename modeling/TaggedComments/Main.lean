import TaggedComments.Command.Basic
import TaggedComments.Registry.Builtin

/-!
# The program

The command line program: it reads the files that a call may need, calls the library, and writes
what the call shows.
-/

namespace TaggedComments.Program

/-- The bytes of an array. -/
def bytesOf (b : ByteArray) : List Nat :=
  b.toList.map UInt8.toNat

/-- The tree at an entry of a directory; what cannot be read is empty. -/
partial def treeOf (e : IO.FS.DirEntry) : IO Tree := do
  if ← e.path.isDir then
    let entries ← (try e.path.readDir catch _ => pure #[])
    return .directory (← entries.toList.mapM fun d => do return (d.fileName, ← treeOf d))
  else
    return .file (bytesOf (← (try IO.FS.readBinFile e.path catch _ => pure .empty)))

/-- The names on the way from the root to the working directory. -/
def workingNames : IO (List String) := do
  return (← IO.FS.realPath ".").components.filter Path.isName

/-- The tree at names that start at the root, if something is there. -/
def treeAt? (names : List String) : IO (Option Tree) := do
  match names.reverse with
  | [] => return none
  | last :: above =>
    let around := "/" ++ "/".intercalate above.reverse
    let entry ← (try
        let root ← IO.FS.realPath around
        pure ((← root.readDir).find? fun e => e.fileName = last)
      catch _ => pure none)
    match entry with
    | none => return none
    | some e => return some (← treeOf e)

/-- The files below the places that an invocation names, and where it works. -/
def systemFor (places : List Path) : IO FileSystem := do
  let working ← workingNames
  let bare : FileSystem := ⟨Tree.graft (.directory []) working (.directory []), working⟩
  let mut root := bare.root
  for names in distinct (places.map bare.resolve) do
    match ← treeAt? names with
    | some t => root := Tree.graft t names root
    | none => pure ()
  return ⟨root, working⟩

/-- The bytes of the standard input up to its end. -/
partial def readAll (s : IO.FS.Stream) (sofar : ByteArray) : IO ByteArray := do
  let more ← s.read 65536
  if more.isEmpty then return sofar else readAll s (sofar ++ more)

/-- What a call sees of the world. -/
def environmentFor (words : List String) : IO Environment := do
  match Invocation.ofWords words with
  | .error _ => return ⟨⟨.directory [], []⟩, none⟩
  | .ok i =>
    let system ← systemFor i.places
    let input ← IO.getStdin
    if !i.readsInput || (← input.isTty) then return ⟨system, none⟩
    else return ⟨system, some (bytesOf (← readAll input .empty))⟩

end TaggedComments.Program

open TaggedComments in
/-- Run the program on the words of its command line. -/
def main (words : List String) : IO UInt32 := do
  let environment ← Program.environmentFor words
  let (_, shown) := callProgram environment Registry.builtin words
  IO.print shown.output
  IO.eprint shown.messages
  match shown.status with
  | .ok code => return code.toUInt32
  | .error e =>
    IO.eprintln (e.message.getD "a value has the wrong kind")
    return 1
