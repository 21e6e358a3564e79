namespace TextTemplate.CommandLine

/-- Why a file cannot be read or written. -/
inductive FileFailure where
  | missing | notDirectory | isDirectory | nameTooLong | notText
  | other (reason : String)
deriving DecidableEq, Repr

namespace FileFailure

def message : FileFailure → String
  | missing => "No such file or directory (os error 2)"
  | notDirectory => "Not a directory (os error 20)"
  | isDirectory => "Is a directory (os error 21)"
  | nameTooLong => "File name too long (os error 36)"
  | notText => "stream did not contain valid UTF-8"
  | other reason => reason

end FileFailure

/-- Reading and writing of whole texts by path. -/
structure FileAccess (m : Type → Type) where
  read : String → m (Except FileFailure String)
  write : String → String → m (Except FileFailure Unit)

inductive Entry where
  | directory
  | file (content : ByteArray)

/-- Entries by the names that lead to them. Directories on the way need no entry of their own, and a path from the
root or to above the directory finds nothing. -/
structure Directory where
  entries : List (List String × Entry)

namespace Directory

def entry? (d : Directory) (names : List String) : Option Entry :=
  match d.entries.lookup names with
  | some entry => some entry
  | none =>
    if names.isEmpty || d.entries.any (fun e => names.isPrefixOf e.1) then some .directory
    else none

/-- The directory at a place, `none` being a place outside. -/
def enter (d : Directory) : Option (List String) → Except FileFailure Unit
  | none => .ok ()
  | some names =>
    match d.entry? names with
    | some .directory => .ok ()
    | some (.file _) => .error .notDirectory
    | none => .error .missing

def nameLimit : Nat := 255

/-- The most bytes in a path, one less than a path with its end mark may take. -/
def pathLimit : Nat := 4095

/-- One step of a path from a place, which has to be a directory. -/
def step (d : Directory) (place : Option (List String)) (name : String) :
    Except FileFailure (Option (List String)) := do
  d.enter place
  if name.utf8ByteSize > nameLimit then throw .nameTooLong
  match name, place with
  | ".", place => return place
  | "..", none | "..", some [] => return none
  | "..", some names => return some names.dropLast
  | _, none => .error .missing
  | name, some names => return some (names ++ [name])

/-- The names in a path, without the empty ones between adjacent slashes. -/
def names (path : String) : List String :=
  (path.splitOn "/").filter fun name => !name.isEmpty

/-- Where a path starts, if it is not too long to be followed. -/
def origin (path : String) : Except FileFailure (Option (List String)) :=
  if path.utf8ByteSize > pathLimit then .error .nameTooLong
  else .ok (if path.startsWith "/" then none else some [])

/-- The content of the file at a path. A slash at the end asks for a directory. -/
def content (d : Directory) (path : String) : Except FileFailure ByteArray := do
  let place ← (names path).foldlM d.step (← origin path)
  if path.endsWith "/" then d.enter place
  match place with
  | none => .error .isDirectory
  | some names =>
    match d.entry? names with
    | none => .error .missing
    | some .directory => .error .isDirectory
    | some (.file bytes) => .ok bytes

def read (d : Directory) (path : String) : Except FileFailure String := do
  let bytes ← d.content path
  match String.fromUTF8? bytes with
  | some text => .ok text
  | none => .error .notText

/-- Where a file of this path is written: in an existing directory, under a name that is no directory. -/
def target (d : Directory) (path : String) : Except FileFailure (List String) := do
  let names := names path
  let place ← names.dropLast.foldlM d.step (← origin path)
  d.enter place
  match names.getLast? with
  | none => .error .isDirectory
  | some name =>
    if name = "." ∨ name = ".." ∨ path.endsWith "/" then .error .isDirectory
    else
      match ← d.step place name with
      | none => .error .missing
      | some names =>
        match d.entry? names with
        | some .directory => .error .isDirectory
        | some (.file _) | none => .ok names

def put (d : Directory) (names : List String) (text : String) : Directory :=
  ⟨(names, .file text.toUTF8) :: d.entries.filter fun e => e.1 != names⟩

def write (d : Directory) (path text : String) : Except FileFailure Directory := do
  let names ← d.target path
  return d.put names text

/-- Access to the files of a directory that is carried along. -/
def access : FileAccess (StateM Directory) where
  read path := fun d => (d.read path, d)
  write path text := fun d =>
    match d.write path text with
    | .ok d => (.ok (), d)
    | .error e => (.error e, d)

end Directory

end TextTemplate.CommandLine
