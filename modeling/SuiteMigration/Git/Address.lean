import SuiteMigration.Text.Basic

/-!
Addresses of remotes. A remote on the host of pull requests names an owner and a repository, in the
short form of secure shell or as a URL.
-/

set_option autoImplicit false
set_option relaxedAutoImplicit false

namespace SuiteMigration.Git

open SuiteMigration.Text

def host : String :=
  "github.com"

/-- An owner and a repository of the host. -/
structure Project where
  owner : String
  repository : String
  deriving DecidableEq, Repr

/-- A text without the endings `.git`; `fuel` bounds their number. -/
def withoutGitEndings : Nat → String → String
  | 0, text => text
  | fuel + 1, text =>
      match beforeEnd? ".git" text with
      | some start => withoutGitEndings fuel start
      | none => text

/-- The project of a path: what precedes and what follows its first slash. -/
def Project.ofPath? (path : String) : Option Project := do
  let (owner, repository) ← breakOn? "/" (withoutGitEndings path.length path)
  let owner := trim owner
  let repository := trim repository
  if owner.isEmpty || repository.isEmpty then none else some ⟨owner, repository⟩

/-- How a scheme treats what follows it. -/
inductive Scheme where
  /-- Backslashes count as slashes, and the number of slashes before the host does not matter. -/
  | web
  | file
  | other
  deriving DecidableEq, Repr

def Scheme.ofName (name : String) : Scheme :=
  match toLower name with
  | "http" | "https" | "ws" | "wss" | "ftp" => .web
  | "file" => .file
  | _ => .other

def Scheme.isSlash (s : Scheme) (c : Char) : Bool :=
  c == '/' || (c == '\\' && s != .other)

def isAsciiLetter (c : Char) : Bool :=
  ('a' ≤ c && c ≤ 'z') || ('A' ≤ c && c ≤ 'Z')

def isAsciiDigit (c : Char) : Bool :=
  '0' ≤ c && c ≤ '9'

/-- A URL without the white space that does not belong to it. -/
def urlChars (text : String) : List Char :=
  let isOuter := fun c : Char ↦ decide (c.toNat ≤ 32)
  (Chars.dropEndWhile isOuter (text.toList.dropWhile isOuter)).filter fun c ↦
    c != '\t' && c != '\n' && c != '\r'

/-- The scheme of a URL and what follows the colon. -/
def scheme? (cs : List Char) : Option (Scheme × List Char) :=
  let isPart := fun c : Char ↦
    isAsciiLetter c || isAsciiDigit c || c == '+' || c == '-' || c == '.'
  let name := cs.takeWhile isPart
  match cs.dropWhile isPart with
  | ':' :: rest =>
      if name.head?.any isAsciiLetter then some (.ofName (String.ofList name), rest) else none
  | _ => none

/-- What follows the slashes before the host. -/
def afterSlashes? (s : Scheme) (cs : List Char) : Option (List Char) :=
  match s, cs with
  | .web, _ => some (cs.dropWhile s.isSlash)
  | _, a :: b :: rest => if s.isSlash a && s.isSlash b then some rest else none
  | _, _ => none

def endsAuthority (s : Scheme) (c : Char) : Bool :=
  s.isSlash c || c == '?' || c == '#'

/-- An authority without its user. Files have no user. -/
def withoutUser (s : Scheme) (authority : List Char) : List Char :=
  if s == .file then authority
  else
    match Chars.breakOnLast? ['@'] authority with
    | some (_, rest) => rest
    | none => authority

/-- Whether a text is the number of a service: digits, below 65536. -/
def isService (digits : List Char) : Bool :=
  digits.all isAsciiDigit &&
    decide (digits.foldl (fun n c ↦ 10 * n + (c.toNat - 48)) 0 < 65536)

/-- Resolves the bytes that are written with percent signs, where they are ASCII. -/
def percentDecoded : List Char → List Char
  | '%' :: a :: b :: rest =>
      match digit? a, digit? b with
      | some x, some y => Char.ofNat (16 * x + y) :: percentDecoded rest
      | _, _ => '%' :: percentDecoded (a :: b :: rest)
  | c :: rest => c :: percentDecoded rest
  | [] => []
where
  digit? (c : Char) : Option Nat :=
    if isAsciiDigit c then some (c.toNat - 48)
    else if 'a' ≤ c && c ≤ 'f' then some (c.toNat - 87)
    else if 'A' ≤ c && c ≤ 'F' then some (c.toNat - 55)
    else none

/-- Whether an authority is that of the host. -/
def isHost (s : Scheme) (authority : List Char) : Bool :=
  let name := authority.takeWhile (· != ':')
  let serviceIsGood :=
    match authority.dropWhile (· != ':') with
    | ':' :: service => s != .file && isService service
    | _ => true
  let written := if s == .other then name else percentDecoded name
  let shown := String.ofList written
  serviceIsGood && (if s == .other then shown else toLower shown) == host

/-- A character of a path; those outside of the path characters are written by their bytes. -/
def pathChar (c : Char) : List Char :=
  if c.toNat ≤ 32 || 127 ≤ c.toNat || "\"<>`#?\x7b\x7d".toList.contains c then
    (String.utf8EncodeChar c).flatMap fun byte ↦
      '%' :: (Nat.toDigits 16 (256 + byte.toNat)).tail.map Char.toUpper
  else [c]

/-- The dots that a segment stands for. -/
def dots (segment : String) : String :=
  replace "%2e" "." (toLower segment)

/-- Resolves the segments of one and two dots. -/
def resolveDots (segments : List String) : List String :=
  let last := segments.length - 1
  (segments.mapIdx fun i s ↦ (decide (i = last), s)).foldl (fun done (isLast, s) ↦
    if dots s == ".." then done.dropLast ++ (if isLast then [""] else [])
    else if dots s == "." then done ++ (if isLast then [""] else [])
    else done ++ [s]) []

/-- The path of a URL, after the authority. -/
def urlPath (s : Scheme) (cs : List Char) : String :=
  let path := cs.takeWhile fun c ↦ c != '?' && c != '#'
  let segments := (Chars.splitBy s.isSlash path).map fun segment ↦
    String.ofList (segment.flatMap pathChar)
  String.intercalate "/" (resolveDots segments.tail)

/-- The project of a URL on the host. -/
def Project.ofUrl? (text : String) : Option Project := do
  let (scheme, rest) ← scheme? (urlChars text)
  let rest ← afterSlashes? scheme rest
  let authority := rest.takeWhile fun c ↦ !endsAuthority scheme c
  if isHost scheme (withoutUser scheme authority) then
    let path := urlPath scheme (rest.dropWhile fun c ↦ !endsAuthority scheme c)
    Project.ofPath? (dropStartWhile (· == '/') path)
  else none

/-- The project of the address of a remote. -/
def Project.ofAddress? (address : String) : Option Project :=
  match afterStart? ("git@" ++ host ++ ":") address with
  | some path => Project.ofPath? path
  | none => if contains address host then Project.ofUrl? address else none

end SuiteMigration.Git
