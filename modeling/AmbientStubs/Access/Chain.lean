import AmbientStubs.Access

/-!
Chains on a line.  A chain is an identifier that starts with an ASCII capital and stands
at the start of a word, followed by one or more members; it is as long as possible, and
chains do not overlap.
-/

namespace AmbientStubs

open Text

structure Chain where
  base : List Char
  members : List (List Char)
  /-- An opening parenthesis follows, possibly after blanks. -/
  isCall : Bool
  /-- The word `new` precedes, possibly with blanks in between. -/
  followsNew : Bool
deriving DecidableEq, Repr

namespace Chain

def isMemberCharacter (character : Char) : Bool :=
  isAsciiAlphanumeric character || character == '_'

def segments (chain : Chain) : List (List Char) :=
  chain.base :: chain.members

def path (chain : Chain) : List Char :=
  ['.'].intercalate chain.segments

/-- The members right at the start of a text: each is a dot and a non-empty run of member
characters. -/
def membersAt : List Char → List (List Char)
  | '.' :: rest =>
      (pieces '.' (rest.takeWhile fun character =>
        isMemberCharacter character || character == '.')).takeWhile (· ≠ [])
  | _ => []

def atWordStart : List Char → Bool
  | [] => true
  | previous :: _ => !isWord previous

/-- Whether the text before, held in reverse, ends in the word `new`. -/
def endsInNew (before : List Char) : Bool :=
  match trimStart before with
  | 'w' :: 'e' :: 'n' :: [] => true
  | 'w' :: 'e' :: 'n' :: previous :: _ =>
      !(isAlphanumeric previous || previous == '_' || previous == '$' || previous == '.')
  | _ => false

/-- The chain that starts exactly here, between the text before (in reverse) and the
text from here on. -/
def at? (before text : List Char) : Option Chain :=
  match text with
  | [] => none
  | first :: rest =>
      if atWordStart before && isAsciiUpper first then
        let base := first :: rest.takeWhile isAsciiAlphanumeric
        match membersAt (rest.dropWhile isAsciiAlphanumeric) with
        | [] => none
        | members =>
            let length := (['.'].intercalate (base :: members)).length
            some {
              base := base
              members := members
              isCall := (trimStart (text.drop length)).head? = some '('
              followsNew := endsInNew before
            }
      else none

/-- The chains from here on, after skipping the remaining characters of a chain already
found.  A chain right after a dot is a member of something else and is passed over. -/
def scan (before : List Char) (skip : Nat) : List Char → List Chain
  | [] => []
  | character :: rest =>
      match skip with
      | skip + 1 => scan (character :: before) skip rest
      | 0 =>
          match at? before (character :: rest) with
          | none => scan (character :: before) 0 rest
          | some chain =>
              let others := scan (character :: before) (chain.path.length - 1) rest
              if before.head? = some '.' then others else chain :: others

def ofLine (line : List Char) : List Chain :=
  scan [] 0 line

def isClassName : List Char → Bool
  | [] => false
  | first :: rest => isAsciiUpper first && rest.all isAsciiAlphanumeric

/-- The class that a called chain names as the owner of its last member: the second-last
of at least three segments, unless a segment between it and the base is reserved. -/
def owner? (reserved : List String) (chain : Chain) : Option (List Char) :=
  match chain.members.reverse with
  | _ :: owner :: between =>
      if isClassName owner &&
          !between.any (fun segment => reserved.contains (String.ofList segment))
      then some owner
      else none
  | _ => none

def access (reserved : List String) (chain : Chain) : Access :=
  let plain (context : AccessContext) (className : Option String) : Access := {
    base := String.ofList chain.base
    path := String.ofList chain.path
    member := String.ofList (chain.members.getLast?.getD [])
    context := context
    className := className
  }
  if chain.isCall then
    match owner? reserved chain with
    | some owner => plain .staticCall (some (String.ofList owner))
    | none => plain (if chain.followsNew then .constructorCall else .methodCall) none
  else plain .propertyAccess none

end Chain

end AmbientStubs
