import TsToPhp.FileSystem.Access

/-! File systems as values: every route from the root with what is there. -/

namespace TsToPhp

/-- The names that lead from the root to a file. -/
abbrev Route := List String

inductive Entry where
  | file (bytes : ByteArray)
  | directory
  | link (target : Path)

structure FileTree where
  /-- Where relative paths start. -/
  here : Route
  entries : List (Route × Entry)

namespace FileTree

def entry? (t : FileTree) : Route → Option Entry
  | [] => some .directory
  | route => t.entries.lookup route

def set (t : FileTree) (route : Route) (e : Entry) : FileTree :=
  { t with entries := t.entries.filter (·.1 != route) ++ [(route, e)] }

/-- Puts an entry at a route, and directories where the way to it is missing. -/
def add (t : FileTree) (route : Route) (e : Entry) : FileTree :=
  let above := (List.range route.length).map fun n => route.take n
  (above.foldl (fun t r => if (t.entry? r).isNone then t.set r .directory else t) t).set route e

def file? (t : FileTree) (route : Route) : Option ByteArray :=
  match t.entry? route with
  | some (.file bytes) => some bytes
  | _ => none

/-- The files that were not there before, or had other bytes. -/
def changedSince (before t : FileTree) : List (Route × ByteArray) :=
  t.entries.filterMap fun (route, e) =>
    match e with
    | .file bytes => if (before.file? route).any (· == bytes) then none else some (route, bytes)
    | _ => none

/-- Where names lead from a directory. `behind` says where they lead from a link. A link that comes last
is followed only if `last` holds. -/
def walk (t : FileTree) (last : Bool) (behind : Route → List String → Except FileError Route)
    (route : Route) : List String → Except FileError Route
  | [] => .ok route
  | name :: names =>
    match t.entry? route with
    | none => .error .notFound
    | some .directory =>
      if Path.isBlank name then t.walk last behind route names
      else if name == ".." then t.walk last behind route.dropLast names
      else
        let next := route ++ [name]
        match t.entry? next with
        | some (.link target) =>
          if names.isEmpty && !last then .ok next
          else behind (if target.isAbsolute then [] else route) (target.segments ++ names)
        | _ => t.walk last behind next names
    | some _ => .error .notDirectory

/-- As `walk`, through at most so many links. -/
def walkLinks (t : FileTree) (last : Bool) : Nat → Route → List String → Except FileError Route
  | 0 => t.walk last fun _ _ => .error .tooManyLinks
  | links + 1 => t.walk last (t.walkLinks last links)

def maxLinks : Nat := 40

/-- The route of a path. Only its last name may be missing. -/
def route (t : FileTree) (last : Bool) (p : Path) : Except FileError Route :=
  if p.text.isEmpty then .error .notFound
  else t.walkLinks last maxLinks (if p.isAbsolute then [] else t.here) p.segments

def found (t : FileTree) (p : Path) : Except FileError (Route × Entry) := do
  let route ← t.route true p
  match t.entry? route with
  | some e => return (route, e)
  | none => throw .notFound

def bytes (t : FileTree) (p : Path) : Except FileError ByteArray := do
  match ← t.found p with
  | (_, .file bytes) => return bytes
  | (_, .directory) => throw .isDirectory
  | (_, .link _) => throw .notFound

def read (t : FileTree) (p : Path) : Except FileError String := do
  match String.fromUTF8? (← t.bytes p) with
  | some text => return text
  | none => throw .notText

/-- No file is made under a name with a slash behind it. -/
def write (t : FileTree) (p : Path) (text : String) : Except FileError FileTree :=
  let bare := p.text.toList.reverse.dropWhile (· == '/')
  if bare.length < p.text.length then do
    let above := bare.dropWhile (· != '/')
    let _ ← t.route true ⟨String.ofList above.reverse ++ "."⟩
    throw .isDirectory
  else do
    let route ← t.route true p
    match t.entry? route with
    | some .directory => throw .isDirectory
    | _ => return t.set route (.file text.toUTF8)

def makeDir (t : FileTree) (p : Path) : Except FileError FileTree := do
  let bare := (p.text.toList.reverse.dropWhile (· == '/')).reverse
  let route ← t.route false ⟨String.ofList bare⟩
  match t.entry? route with
  | some _ => throw .alreadyThere
  | none => return t.set route .directory

def kind? (t : FileTree) (p : Path) : Option FileKind :=
  match t.found p with
  | .ok (_, .file _) => some .file
  | .ok (_, .directory) => some .directory
  | _ => none

def isLink (t : FileTree) (p : Path) : Bool :=
  match t.route false p with
  | .ok route =>
    match t.entry? route with
    | some (.link _) => true
    | _ => false
  | .error _ => false

def pathOf (route : Route) : Path := ⟨"/" ++ Path.joined route⟩

def canonical? (t : FileTree) (p : Path) : Option Path :=
  match t.found p with
  | .ok (route, _) => some (pathOf route)
  | .error _ => none

def list (t : FileTree) (p : Path) : List String :=
  match t.found p with
  | .ok (route, .directory) =>
    t.entries.filterMap fun (q, _) => if q.dropLast = route then q.getLast? else none
  | _ => []

/-- The answer of an operation that changes the tree if it succeeds. -/
def change (f : FileTree → Except FileError FileTree) : StateM FileTree (Except FileError Unit) :=
  fun t =>
    match f t with
    | .ok t' => (.ok (), t')
    | .error e => (.error e, t)

instance : FileAccess (StateM FileTree) where
  read p := fun t => (t.read p, t)
  write p text := change (·.write p text)
  makeDir p := change (·.makeDir p)
  kind? p := fun t => (t.kind? p, t)
  isLink p := fun t => (t.isLink p, t)
  canonical? p := fun t => (t.canonical? p, t)
  list p := fun t => (t.list p, t)

end FileTree

end TsToPhp
