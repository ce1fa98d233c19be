namespace Offload

/-- The two characters of a pattern language that do not stand for themselves. -/
structure Wildcards where
  /-- Stands for any run of characters. -/
  run : Char
  /-- Stands for any one character. -/
  one : Char

def globWildcards : Wildcards := ⟨'*', '?'⟩

def likeWildcards : Wildcards := ⟨'%', '_'⟩

/-- The LIKE wildcard in place of a glob wildcard; every other character stays. -/
def likeChar (c : Char) : Char :=
  if c = '*' then '%' else if c = '?' then '_' else c

/-- The LIKE pattern with the wildcards of a glob. Characters that only LIKE treats as wildcards
are not escaped. -/
def likeOfGlob (pattern : String) : String :=
  String.ofList (pattern.toList.map likeChar)

/-- The texts that a pattern matches. -/
inductive Wildcards.Matches (w : Wildcards) : List Char → List Char → Prop
  | done : Matches w [] []
  | run {pattern rest : List Char} (skipped : List Char) :
    Matches w pattern rest → Matches w (w.run :: pattern) (skipped ++ rest)
  | one {pattern rest : List Char} (c : Char) :
    Matches w pattern rest → Matches w (w.one :: pattern) (c :: rest)
  | self {pattern rest : List Char} {c : Char} : c ≠ w.run → c ≠ w.one →
    Matches w pattern rest → Matches w (c :: pattern) (c :: rest)

end Offload
