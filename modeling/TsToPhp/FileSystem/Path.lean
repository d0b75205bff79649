/-! Paths as text. Two paths are the same place for a reader if their parts are equal. -/

namespace TsToPhp

structure Path where
  text : String
  deriving DecidableEq, Repr, Inhabited

namespace Path

inductive Part where
  | root
  /-- A leading `.`; elsewhere it says nothing. -/
  | here
  | up
  | name (s : String)
  deriving DecidableEq, Repr

/-- The texts between slashes. -/
def segmentsOf : List Char → List (List Char)
  | [] => [[]]
  | c :: cs =>
    match segmentsOf cs with
    | [] => [[c]]
    | s :: ss => if c = '/' then [] :: s :: ss else (c :: s) :: ss

def segments (p : Path) : List String :=
  (segmentsOf p.text.toList).map String.ofList

def isAbsolute (p : Path) : Bool :=
  p.text.toList.head? == some '/'

/-- Empty segments and dots add nothing. -/
def isBlank (segment : String) : Bool :=
  segment.isEmpty || segment == "."

def Part.ofSegment (s : String) : Part :=
  if s == ".." then up else name s

def parts (p : Path) : List Part :=
  let lead : List Part :=
    match p.segments with
    | "." :: _ => [.here]
    | "" :: _ :: _ => [.root]
    | _ => []
  lead ++ (p.segments.filter (!isBlank ·)).map Part.ofSegment

def samePlace (p q : Path) : Bool :=
  p.parts == q.parts

/-- Puts a relative path behind another. -/
def join (p q : Path) : Path :=
  if q.isAbsolute || p.text.isEmpty then q
  else if p.text.toList.getLast? == some '/' then ⟨p.text ++ q.text⟩
  else ⟨p.text ++ "/" ++ q.text⟩

def joined : List String → String
  | [] => ""
  | [s] => s
  | s :: ss => s ++ "/" ++ joined ss

/-- The path up to and without its last part, and no slash at its end but that of the root. -/
def parent? (p : Path) : Option Path :=
  match p.parts.getLast? with
  | none | some .root => none
  | some _ =>
    let isLead := p.parts.length == 1
    let kept := ((p.segments.reverse.dropWhile isBlank).drop 1).dropWhile isBlank
    if isLead then some ⟨""⟩
    else if kept.isEmpty then
      match p.parts.head? with
      | some .root => some ⟨"/"⟩
      | some .here => some ⟨"."⟩
      | _ => some ⟨""⟩
    else some ⟨joined kept.reverse⟩

/-- The path itself and those above it. Every step leaves out a part. -/
def ancestorsWithin : Nat → Path → List Path
  | 0, _ => []
  | n + 1, p =>
    p :: match p.parent? with
      | some q => ancestorsWithin n q
      | none => []

def ancestors (p : Path) : List Path :=
  ancestorsWithin (p.parts.length + 2) p

def fileName? (p : Path) : Option String :=
  match p.parts.getLast? with
  | some (.name s) => some s
  | _ => none

/-- What follows the last dot of the file name, unless that dot begins it. -/
def extension? (p : Path) : Option String :=
  p.fileName?.bind fun name =>
    let tail := name.toList.reverse.takeWhile (· != '.')
    if tail.length + 1 < name.length then some (String.ofList tail.reverse) else none

end Path

end TsToPhp
