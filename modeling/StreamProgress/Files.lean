/-!
# Files as text

The library reads no files. What it needs to know of them is a `Files`, a function that gives for
every path the text of the file or why there is none, so that everything which depends on files is
a function of their content.

## Paths in a directory

`Files.ofContents` is the files of a working directory that holds nothing else, and nothing is
known to stand outside of it. A path is resolved from component to component: empty components and
single dots stay where they are, two dots go back to the directory above, any other component is a
name. A file is no directory, so nothing may follow its name, not even a slash.

## Main definitions

* `Files.ofContents` — the files of a directory, given by their names and contents
* `Files.decode` — the text of a content
-/

namespace StreamProgress

/-- Why a file has no text. -/
inductive ReadFault where
  /-- There is nothing at the path. -/
  | missing
  /-- A component of the path is a file, but more components follow. -/
  | notDirectory
  /-- There is a directory at the path. -/
  | isDirectory
  /-- The path or one of its components is too long. -/
  | nameTooLong
  /-- The path holds a null character. -/
  | nullInPath
  /-- The content of the file is not UTF-8. -/
  | notText
  /-- The system refused for another reason, in its own words. -/
  | refused (reason : String)
  deriving DecidableEq, Repr

/-- The wording of a fault. -/
def ReadFault.message : ReadFault → String
  | .missing => "No such file or directory (os error 2)"
  | .notDirectory => "Not a directory (os error 20)"
  | .isDirectory => "Is a directory (os error 21)"
  | .nameTooLong => "File name too long (os error 36)"
  | .nullInPath => "file name contained an unexpected NUL byte"
  | .notText => "stream did not contain valid UTF-8"
  | .refused reason => reason

/-- The text of every file. -/
abbrev Files := String → Except ReadFault String

namespace Files

/-- The text of a content. -/
def decode (content : ByteArray) : Except ReadFault String :=
  match String.fromUTF8? content with
  | some text => .ok text
  | none => .error .notText

/-! ### Paths -/

/-- The components of a path, the empty ones included. -/
def components : List Char → List (List Char)
  | [] => [[]]
  | c :: rest =>
    if c = '/' then [] :: components rest
    else
      match components rest with
      | [] => [[c]]
      | first :: others => (c :: first) :: others

/-- The bytes of a text. -/
def size (s : List Char) : Nat := s.foldl (fun n c => n + c.utf8Size) 0

/-- The most bytes that a component may have. -/
def maxComponent : Nat := 255

/-- The most bytes that a path may have. -/
def maxPath : Nat := 4095

/-- Whether there is a directory at a place, given the places of all files. A place is the list of
the names that lead to it; the working directory is the empty one. -/
def isDirectory (files : List (List (List Char))) (place : List (List Char)) : Bool :=
  place.isEmpty || files.any fun file => place.isPrefixOf file && place.length < file.length

/-- Whether a component leads to a directory wherever it stands. -/
def isDots (name : List Char) : Bool := name == [] || name == ['.'] || name == ['.', '.']

/-- Where components lead from above the working directory. There are directories, but nothing is
known to be in them. -/
def outside (names : List (List Char)) : ReadFault :=
  match names.find? fun name => !isDots name with
  | none => .isDirectory
  | some name => if maxComponent < size name then .nameTooLong else .missing

/-- The place to which the components of a path lead from a directory. -/
def walk (files : List (List (List Char))) (place : List (List Char)) :
    List (List Char) → Except ReadFault (List (List Char))
  | [] => .ok place
  | name :: rest =>
    if !isDirectory files place then .error .notDirectory
    else if name = [] ∨ name = ['.'] then walk files place rest
    else if name = ['.', '.'] then
      if place.isEmpty then .error (outside rest) else walk files place.dropLast rest
    else if maxComponent < size name then .error .nameTooLong
    else
      let next := place ++ [name]
      if isDirectory files next || files.contains next then walk files next rest
      else .error .missing

/-- The place to which a path leads from the working directory. -/
def resolve (files : List (List (List Char))) (path : List Char) :
    Except ReadFault (List (List Char)) :=
  if path.contains '\x00' then .error .nullInPath
  else if maxPath < size path then .error .nameTooLong
  else if path.isEmpty then .error .missing
  else if path.head? = some '/' then .error (outside (components path))
  else walk files [] (components path)

/-- The place of a file in the working directory that is given by its path. -/
def placeOf (name : String) : List (List Char) :=
  (components name.toList).filter fun part => part != [] && part != ['.']

/-- The files of a working directory, by their names and contents, and no others. -/
def ofContents (contents : List (String × ByteArray)) : Files := fun path =>
  let files := contents.map fun (name, content) => (placeOf name, content)
  match resolve (files.map (·.1)) path.toList with
  | .error fault => .error fault
  | .ok place =>
    match files.lookup place with
    | some content => decode content
    | none => .error .isDirectory

example : components ['a', '/', '/', 'b', '/'] = [['a'], [], ['b'], []] := by decide

/-- Dots and slashes before a name lead to the same file, a slash behind it to none. -/
example :
    resolve [[['f']]] ['.', '/', '/', 'f'] = .ok [['f']] ∧
      resolve [[['f']]] ['f', '/'] = .error .notDirectory := ⟨rfl, rfl⟩

end Files

end StreamProgress
