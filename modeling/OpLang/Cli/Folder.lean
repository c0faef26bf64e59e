import OpLang.Source.LineReader

/-! # Folders held in memory

A folder is a list of paths with what they lead to. Looking a path up walks through it name by name:
a name that is missing, a name that is too long and a file that is treated as a folder are told
apart. Paths that begin with a slash start at the root of the system, of which little is known.

A run of the program can be given such a folder for the files it may open, so that it depends on
nothing outside.
-/

namespace OpLang

/-- What a path leads to. -/
inductive Node where
  | file (contents : List UInt8)
  | folder
deriving DecidableEq, Repr

namespace Node

/-- What reading a node answers; a folder can be opened but not read. -/
def script : Node → List Fill
  | file contents => [.bytes contents]
  | folder => [.failed "Is a directory (os error 21)"]

end Node

/-- The nodes of a folder by their paths, each a list of names. -/
abbrev Folder := List (List String × Node)

namespace Folder

/-- Why a path cannot be opened. -/
inductive Fault where
  | missing
  | notFolder
  | tooLong
deriving DecidableEq, Repr

/-- The wording of a fault. -/
def Fault.text : Fault → String
  | missing => "No such file or directory (os error 2)"
  | notFolder => "Not a directory (os error 20)"
  | tooLong => "File name too long (os error 36)"

/-- How many bytes a name may have. -/
def nameLimit : Nat := 255

/-- How many bytes a path may have. -/
def pathLimit : Nat := 4095

/-- The node at a path inside the folder; every path on the way to a node is a folder. -/
def at? (folder : Folder) (path : List String) : Option Node :=
  if path.isEmpty then some .folder
  else
    match folder.lookup path with
    | some node => some node
    | none => if folder.any (path.isPrefixOf ·.1) then some .folder else none

/-- Walk on from a place in a folder, or from outside, where nothing is known but that folders lead
up. Above the root of the system there is the root again. -/
def walk (folder : Folder) (isRoot : Bool) (here? : Option (List String)) :
    List String → Except Fault Node
  | [] => .ok .folder
  | name :: names =>
    if name = "" || name = "." then walk folder isRoot here? names
    else if name = ".." then
      let above := fun (here : List String) =>
        if here.isEmpty && !isRoot then none else some here.dropLast
      walk folder isRoot (here?.bind above) names
    else if nameLimit < name.utf8ByteSize then .error .tooLong
    else
      match here? with
      | none => .error .missing
      | some here =>
        match folder.at? (here ++ [name]) with
        | none => .error .missing
        | some .folder => walk folder isRoot (some (here ++ [name])) names
        | some (.file contents) =>
          if names.isEmpty then .ok (.file contents) else .error .notFolder

/-- What is known of the system: the empty device and the standard input. -/
def system (input : Node) : Folder :=
  [(["dev", "null"], .file []), (["dev", "stdin"], input), (["etc"], .folder),
    (["proc"], .folder), (["tmp"], .folder), (["usr"], .folder)]

/-- Open a path: what reading it will answer, or why it cannot be opened. -/
def openPath (folder : Folder) (input : Node) (path : String) :
    Except String (List Fill) :=
  let names := path.splitOn "/"
  let found :=
    if path = "" then .error .missing
    else if pathLimit < path.utf8ByteSize then .error .tooLong
    else if names.head? = some "" then walk (system input) true (some []) names
    else walk folder false (some []) names
  match found with
  | .ok node => .ok node.script
  | .error fault => .error fault.text

end Folder

end OpLang
