import StoreTrial.Fault

/-!
# Paths

A path is a directory to start from and the parts between its slashes, which are followed one by
one. Only the directories that need no name are known: the working directory, those above it and the
root directory. The name of a file is a path that leads to that name (`ofText_name`, `file_name`).
-/

namespace StoreTrial.Command

/-- A directory that needs no name. -/
inductive Directory where
  /-- The directory that is `height` steps above the working directory. -/
  | above (height : Nat)
  /-- The root directory. -/
  | root
deriving DecidableEq

namespace Directory

/-- The directory that commands run in. -/
def working : Directory := above 0

/-- The directory that a directory is in; the root directory is in itself. -/
def parent : Directory → Directory
  | above height => above (height + 1)
  | root => root

/-- The plain path of what has the name `name` in a directory. -/
def entry : Directory → (name : String) → String
  | above height, name => String.join (List.replicate height "../") ++ name
  | root, name => "/" ++ name

/-- The plain path of a name in the working directory is the name. -/
theorem working_entry (name : String) : working.entry name = name := by
  simp [working, entry, String.join]

end Directory

/-- A path, taken apart. -/
structure Path where
  /-- The directory that the path starts from. -/
  start : Directory
  /-- What is between slashes, without empty parts. -/
  parts : List String
  /-- `endsInSlash` is true of paths that end in a slash. -/
  endsInSlash : Bool
deriving DecidableEq

namespace Path

/-- The most bytes of a path. -/
def maxSize : Nat := 4095

/-- The most bytes of a name. -/
def maxNameSize : Nat := 255

/-- The path that a text writes. -/
def ofText (text : String) : Except AccessFault Path :=
  let chars := text.toList
  if chars.contains '\x00' then .error .nullInName
  else if text.isEmpty then .error .notFound
  else if maxSize < text.utf8ByteSize then .error .nameTooLong
  else
    .ok {
      start := if chars.head? = some '/' then .root else .working
      parts := ((chars.splitOn '/').filter fun part => !part.isEmpty).map String.ofList
      endsInSlash := chars.getLast? = some '/' }

/-- The directory that a part of a path leads to. A name leads to none: what has a name is a file,
as `isFile` tells of its plain path, or nothing. -/
def enter (isFile : String → Bool) (directory : Directory) :
    (part : String) → Except AccessFault Directory
  | "." => .ok directory
  | ".." => .ok directory.parent
  | name =>
    if maxNameSize < name.utf8ByteSize then .error .nameTooLong
    else .error (if isFile (directory.entry name) then .notDirectory else .notFound)

/-- The directory that all of `parts` lead to, one after the other. -/
def follow (isFile : String → Bool) (start : Directory) (parts : List String) :
    Except AccessFault Directory :=
  parts.foldlM (enter isFile) start

/-- The plain path of the file that a path names, whether or not there is such a file. -/
def file (isFile : String → Bool) (path : Path) : Except AccessFault String :=
  match path.parts.getLast? with
  | none => .error .isDirectory
  | some name => do
    let directory ← follow isFile path.start path.parts.dropLast
    if path.endsInSlash || name = "." || name = ".." then .error .isDirectory
    else if maxNameSize < name.utf8ByteSize then .error .nameTooLong
    else .ok (directory.entry name)

/-- A text that is the name of a file in the working directory. -/
structure IsName (text : String) : Prop where
  /-- A name has a character. -/
  ne_empty : text ≠ ""
  /-- A name is not that of the working directory. -/
  ne_dot : text ≠ "."
  /-- A name is not that of the directory above. -/
  ne_dots : text ≠ ".."
  /-- A name has no slash in it. -/
  slash_notMem : '/' ∉ text.toList
  /-- A name has no null character in it. -/
  null_notMem : '\x00' ∉ text.toList
  /-- A name is not too long. -/
  size_le : text.utf8ByteSize ≤ maxNameSize

/-- A name is a path with one part. -/
theorem ofText_name {name : String} (h : IsName name) :
    ofText name = .ok ⟨.working, [name], false⟩ := by
  have hsplit : name.toList.splitOn '/' = [name.toList] := by
    unfold List.splitOn
    rw [List.splitOnP_eq_singleton]
    intro c hc
    simpa using fun e : c = '/' => h.slash_notMem (e ▸ hc)
  have hne : name.toList ≠ [] := by simpa using h.ne_empty
  have hsize : ¬ maxSize < name.utf8ByteSize := by
    have hle := h.size_le
    unfold maxNameSize at hle
    unfold maxSize
    omega
  have hhead : name.toList.head? ≠ some '/' := fun e => h.slash_notMem (List.mem_of_head? e)
  have hlast : name.toList.getLast? ≠ some '/' := fun e => h.slash_notMem (List.mem_of_getLast? e)
  simp [ofText, h.null_notMem, hsplit, hsize, hhead, hlast, hne, h.ne_empty]

/-- The plain path of a name is the name. -/
theorem file_name {name : String} (h : IsName name) (isFile : String → Bool) :
    (Path.mk .working [name] false).file isFile = .ok name := by
  simp [file, follow, bind, Except.bind, pure, Except.pure, h.ne_dot, h.ne_dots,
    Nat.not_lt.2 h.size_le, Directory.working_entry]

end Path

end StoreTrial.Command
