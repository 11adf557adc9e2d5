import StoreTrial.Command.Host
import StoreTrial.Command.Path

/-!
# A world of files

A system that is a value: files, standard streams and a seed. Commands run on it as
on any other system, which makes their effect on files and streams a matter of computation.
-/

namespace StoreTrial.Command

/-- Files, standard streams and a seed. -/
structure World where
  /-- The contents of the files by their plain paths. -/
  files : String → Option ByteArray
  /-- What is left of standard input. -/
  input : ByteArray
  /-- What was written to standard output. -/
  output : String
  /-- What was written to standard error. -/
  errors : String
  /-- The seed that nobody chose. -/
  seed : UInt64

namespace World

/-- `isFile` is true of the plain paths of files. -/
def isFile (world : World) (path : String) : Bool := (world.files path).isSome

/-- The text of the file at a path. A path that ends in a slash is followed to its end before the
file is looked for, and so leads to a fault. -/
def text (path : String) (world : World) : Except AccessFault String := do
  let path ← Path.ofText path
  if path.endsInSlash then discard (Path.follow world.isFile path.start path.parts)
  match world.files (← path.file world.isFile) with
  | some bytes => textOf bytes
  | none => .error .notFound

/-- The world after the content of the file at a path is replaced. -/
def replace (path content : String) (world : World) : Except AccessFault World := do
  let place ← (← Path.ofText path).file world.isFile
  let files := fun other => if other = place then some content.toUTF8 else world.files other
  return { world with files }

end World

instance : Host (StateM World) where
  readFile path := do return (← get).text path
  writeFile path content := do
    match (← get).replace path content with
    | .ok world => do
      set world
      return .ok ()
    | .error fault => return .error fault
  readInput := do
    let world ← get
    set { world with input := ByteArray.empty }
    return textOf world.input
  readInputLine := do
    let world ← get
    set { world with input := afterFirstLine world.input }
    return textOf (firstLine world.input)
  writeOutput content := modify fun world => { world with output := world.output ++ content }
  writeError content := modify fun world => { world with errors := world.errors ++ content }
  freshSeed := do return (← get).seed
  keep _ := pure ()

end StoreTrial.Command
