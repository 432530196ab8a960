/-!
# Paths

A path is a text whose pieces are separated by slashes.  Joining keeps the text of
both parts as it is, so that a path that was found is reported in the spelling that
led to it.  Empty pieces, and single dots past the first piece, name nothing.
-/

namespace EffectHost
namespace Path

/-- One step of a path. -/
inductive Step where
  | root
  | here
  | up
  | name (text : String)
deriving DecidableEq, Repr

/-- The pieces between the slashes. -/
def pieces (path : String) : List String :=
  (path.toList.splitOn '/').map String.ofList

/-- A path that starts at the root. -/
def isAbsolute (path : String) : Bool :=
  path.toList.head? == some '/'

/-- `path` continued by `more`; an absolute continuation stands for itself. -/
def join (path more : String) : String :=
  if isAbsolute more || path.isEmpty then more
  else if path.toList.getLast? == some '/' then path ++ more
  else path ++ "/" ++ more

/-- The step that a piece stands for, if any.  A dot counts only in front. -/
def stepOf? (isFirst : Bool) (piece : String) : Option Step :=
  if piece == "" then none
  else if piece == "." then if isFirst then some .here else none
  else if piece == ".." then some .up
  else some (.name piece)

/-- The steps of a path. -/
def steps (path : String) : List Step :=
  match pieces path with
  | [] => []
  | first :: rest =>
    let lead := if isAbsolute path then [Step.root] else (stepOf? true first).toList
    lead ++ rest.filterMap (stepOf? false)

/-- The name in the last step, if that step is a name. -/
def fileName? (path : String) : Option String :=
  match (steps path).getLast? with
  | some (.name text) => some text
  | _ => none

/-- Drop the empty pieces and dots behind the last step; pieces are in reverse. -/
def dropIdle : List String → List String
  | last :: previous :: rest =>
    if last == "" || last == "." then dropIdle (previous :: rest)
    else last :: previous :: rest
  | short => short

/-- The text of reversed pieces. -/
def ofReversed : List String → String
  | [""] => "/"
  | parts => String.intercalate "/" parts.reverse

/-- The path without its last step.  The root and the empty path have no parent. -/
def parent? (path : String) : Option String :=
  match dropIdle (pieces path).reverse with
  | [] => none
  | [first] => if first == "" then none else some ""
  | _ :: rest => some (ofReversed (dropIdle rest))

/-- What follows the last dot of a file name.  A name whose only dot comes first
has no extension. -/
def extensionOf? (name : String) : Option String :=
  let behind := name.toList.reverse.takeWhile (· != '.')
  if name == ".." || behind.length + 1 ≥ name.length then none
  else some (String.ofList behind.reverse)

end Path
end EffectHost
