namespace Offload

/-- A name with its quotes doubled, followed by more text. -/
def writeDoubled : List Char → List Char → List Char
  | [], more => more
  | c :: rest, more =>
    if c = '"' then '"' :: '"' :: writeDoubled rest more else c :: writeDoubled rest more

/-- The identifier of a name, followed by more text. -/
def writeIdentifier (name more : List Char) : List Char :=
  '"' :: writeDoubled name ('"' :: more)

def identifier (name : String) : String :=
  String.ofList (writeIdentifier name.toList [])

/-- The name up to the first quote that is not doubled, and what follows that quote. -/
def quotedTail? : List Char → Option (List Char × List Char)
  | [] => none
  | '"' :: '"' :: rest => (quotedTail? rest).map fun found => ('"' :: found.1, found.2)
  | c :: rest =>
    if c = '"' then some ([], rest)
    else (quotedTail? rest).map fun found => (c :: found.1, found.2)

/-- The name of the identifier at the start of a text, and what follows the identifier. -/
def readIdentifier? : List Char → Option (List Char × List Char)
  | '"' :: rest => quotedTail? rest
  | _ => none

end Offload
