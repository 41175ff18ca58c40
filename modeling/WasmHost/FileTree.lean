import WasmHost.Source

namespace WasmHost

inductive PathPart
  | root
  | current
  | parent
  | name (name : String)
deriving DecidableEq

/-- The parts by which paths are compared: repeated and trailing slashes and inner dots do not
count. -/
def pathParts (path : String) : List PathPart :=
  let pieces := path.splitOn "/"
  let lead :=
    if path.startsWith "/" then [.root] else if pieces.head? = some "." then [.current] else []
  lead ++ pieces.filterMap fun piece =>
    if piece = "" ∨ piece = "." then none
    else if piece = ".." then some .parent
    else some (.name piece)

/-- Whether two sources are the same place or the same bytes. -/
def Source.same : Source → Source → Bool
  | file p, file q => pathParts p == pathParts q
  | bytes b, bytes c => b == c
  | _, _ => false

inductive Node
  | file (bytes : Bytes)
  | directory
deriving DecidableEq

/-- The files and directories below a working directory, by the names that lead to them; the last
entry of a place comes first. -/
structure FileTree where
  entries : List (List String × Node) := []

namespace FileTree

/-- What stands at a place. The working directory itself is always there. -/
def node? (tree : FileTree) (place : List String) : Option Node :=
  if place = [] then some .directory else tree.entries.lookup place

def set (tree : FileTree) (place : List String) (node : Node) : FileTree :=
  ⟨(place, node) :: tree.entries⟩

theorem node?_set {tree : FileTree} {place : List String} {node : Node} (h : place ≠ [])
    (other : List String) :
    (tree.set place node).node? other = if other = place then some node else tree.node? other := by
  by_cases ho : other = place
  · subst ho; simp [set, node?, h]
  · simp [set, node?, ho, List.lookup_cons, beq_eq_false_iff_ne.mpr ho]

def makeDirectory (tree : FileTree) (place : List String) : FileTree :=
  if (tree.node? place).isSome then tree else tree.set place .directory

/-- Follows the pieces of a path from a place and puts a node where they end, with the directories
that lead there. Nothing is put outside of the tree. -/
def putFrom (tree : FileTree) (place : List String) (node : Node) : List String → FileTree
  | [] => tree.set place node
  | piece :: rest =>
    let tree := tree.makeDirectory place
    if piece = "" ∨ piece = "." then tree.putFrom place node rest
    else if piece = ".." then if place = [] then tree else tree.putFrom place.dropLast node rest
    else tree.putFrom (place ++ [piece]) node rest

def put (tree : FileTree) (path : String) (node : Node) : FileTree :=
  if path.startsWith "/" then tree else tree.putFrom [] node (path.splitOn "/")

/-- Follows the pieces of a path from a place. Only a directory can be left, by whatever piece.
Without a place the walk is outside of the tree, where nothing is known but directories. -/
def walk (tree : FileTree) : Option (List String) → List String → Except IoError Node
  | none, pieces =>
    if pieces.all (fun piece => piece ∈ ["", ".", ".."]) then .ok .directory else .error .notFound
  | some place, [] =>
    match tree.node? place with
    | some node => .ok node
    | none => .error .notFound
  | some place, piece :: rest =>
    match tree.node? place with
    | none => .error .notFound
    | some (.file _) => .error .notADirectory
    | some .directory =>
      if piece = "" ∨ piece = "." then tree.walk (some place) rest
      else if piece = ".." then tree.walk (if place = [] then none else some place.dropLast) rest
      else tree.walk (some (place ++ [piece])) rest

def resolve (tree : FileTree) (path : String) : Except IoError Node :=
  if path = "" then .error .notFound
  else tree.walk (if path.startsWith "/" then none else some []) (path.splitOn "/")

def pieceSize : Nat := 65536

/-- Opening succeeds on a directory, too; only reading from it fails. -/
def files (tree : FileTree) : Files := fun path =>
  match tree.resolve path with
  | .ok (.file bytes) => .ok ((Checksum.blocks pieceSize bytes).map .piece)
  | .ok .directory => .ok [.failed .isADirectory]
  | .error e => .error e

end FileTree

end WasmHost
