import TsToPhp.Emit.Piece
import TsToPhp.Php.Quoted

/-! Template literals become concatenations of their chunks and expressions. -/

namespace TsToPhp.Template

/-- Resolves the escapes of a chunk as written. Unknown escapes stay as they are. -/
def unescapeChars : List Char → List Char
  | [] => []
  | ['\\'] => ['\\']
  | '\\' :: c :: cs =>
    match c with
    | 'n' => '\n' :: unescapeChars cs
    | 't' => '\t' :: unescapeChars cs
    | 'r' => '\r' :: unescapeChars cs
    | '0' => '\x00' :: unescapeChars cs
    | '\n' => unescapeChars cs
    | c =>
      if c ∈ ['\\', '$', '\x60', '\'', '"'] then c :: unescapeChars cs
      else '\\' :: c :: unescapeChars cs
  | c :: cs => c :: unescapeChars cs

def unescape (raw : String) : String :=
  String.ofList (unescapeChars raw.toList)

def chunkPart (raw : String) : List Pieces :=
  if raw.isEmpty then [] else [[.text (Php.quote (unescape raw))]]

/-- Chunks and expressions in turn. Empty chunks leave no part, and an expression counts only behind
its chunk. -/
def parts : List String → List Pieces → List Pieces
  | [], _ => []
  | chunk :: chunks, [] => chunkPart chunk ++ parts chunks []
  | chunk :: chunks, e :: es => chunkPart chunk ++ e :: parts chunks es

def pieces (chunks : List String) (exprs : List Pieces) : Pieces :=
  match parts chunks exprs with
  | [] => [.text (Php.quote "")]
  | ps => Pieces.joined " . " ps

end TsToPhp.Template
