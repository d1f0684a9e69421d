/-!
# Addresses

An address is read as a link on the root page of a site under `https`. Only its path matters: the
segments between its slashes, once those that consist of dots have been followed. A host is passed
over and not judged, and the segments stay as they are spelled.

## Main definitions

* `Address.Kind`, `Address.splitScheme`: what a scheme lets stand behind it
* `Address.segments`, `Address.resolve`: the pieces of a path, and the path without dots
* `Address.path`: the path of an address
-/

namespace ParseReplay.Page.Address

/-! ## Schemes -/

/-- What a scheme lets stand behind it. -/
inductive Kind where
  /-- The scheme of the site, or none: a path, or a host behind two slashes or more. -/
  | site
  /-- Another scheme of the web: a host behind any number of slashes. -/
  | web
  /-- The scheme of files: a path, or a host behind two slashes. -/
  | file
  /-- Any other scheme: a text, a path behind a slash, or a host behind two. -/
  | other
deriving DecidableEq

namespace Kind

/-- The kind of a scheme in lower case. -/
def ofName (name : String) : Kind :=
  if name = "https" then .site
  else if name = "file" then .file
  else if ["http", "ws", "wss", "ftp"].contains name then .web
  else .other

/-- The character ends a segment. Known schemes take a backslash for a slash. -/
def isSlash (k : Kind) (c : Char) : Bool := c = '/' || (c = '\\' && k ≠ .other)

end Kind

/-- The character may stand in a scheme. -/
def isSchemeChar (c : Char) : Bool := c.isAlphanum || c = '+' || c = '-' || c = '.'

/-- The kind of an address, and the text behind its scheme if it has one. -/
def splitScheme (cs : List Char) : Kind × List Char :=
  let name := cs.takeWhile isSchemeChar
  match name.head?.any Char.isAlpha, cs.dropWhile isSchemeChar with
  | true, ':' :: rest => (.ofName (String.ofList (name.map Char.toLower)), rest)
  | _, _ => (.site, cs)

/-! ## Paths -/

/-- A piece of a path. -/
abbrev Segment := List Char

/-- The pieces between the slashes; there is one more than there are slashes. -/
def segments (k : Kind) : List Char → List Segment
  | [] => [[]]
  | c :: cs =>
    if k.isSlash c then [] :: segments k cs
    else (segments k cs).modifyHead (c :: ·)

/-- The number of dots of a segment that consists of dots, written as themselves or by their
code. -/
def dots : Segment → Option Nat
  | [] => some 0
  | '.' :: cs => (dots cs).map (· + 1)
  | '%' :: '2' :: e :: cs => if e = 'e' || e = 'E' then (dots cs).map (· + 1) else none
  | _ => none

/-- The segment names a drive. -/
def isDrive : Segment → Bool
  | [c, d] => c.isAlpha && (d = ':' || d = '|')
  | _ => false

/-- One level up, the last segment first. A file does not leave its drive. -/
def parent (k : Kind) (before : List Segment) : List Segment :=
  match before with
  | [s] => if k = .file && isDrive s then [s] else []
  | _ => before.tail

/-- The path of segments behind those before, the last one first: one dot stays, two dots go up.
Dots at the end leave an empty segment. -/
def resolve (k : Kind) (before : List Segment) : List Segment → List Segment
  | [] => before.reverse
  | s :: rest =>
    let close (above : List Segment) : List Segment := if rest.isEmpty then [] :: above else above
    match dots s with
    | some 1 => resolve k (close before) rest
    | some 2 => resolve k (close (parent k before)) rest
    | _ => resolve k (s :: before) rest

/-- The path of a text, with or without the slash of the root. -/
def rooted (k : Kind) (cs : List Char) : List Segment :=
  resolve k [] <| segments k <|
    match cs with
    | [] => []
    | c :: rest => if k.isSlash c then rest else cs

/-- The text behind a host. -/
def dropHost (k : Kind) (cs : List Char) : List Char := cs.dropWhile fun c => !k.isSlash c

/-- The path without empty segments at its start, except the last one. -/
def trimRoot : List Segment → List Segment
  | [] :: s :: rest => trimRoot (s :: rest)
  | p => p

/-- The path of the text behind a scheme. -/
def pathBehind (k : Kind) (cs : List Char) : List Segment :=
  let slashes := (cs.takeWhile k.isSlash).length
  match k with
  | .site => rooted k (if slashes < 2 then cs else dropHost k (cs.drop slashes))
  | .web => rooted k (dropHost k (cs.drop slashes))
  | .file =>
    let behind := cs.drop 2
    -- A drive where a host is due belongs to the path.
    let drive := isDrive (behind.takeWhile fun c => !k.isSlash c)
    trimRoot <| rooted k <|
      if slashes < 2 then cs else if drive then behind else dropHost k behind
  | .other =>
    if slashes = 0 then if cs.isEmpty then [] else [cs]
    else if slashes = 1 then rooted k cs
    else
      let behind := dropHost k (cs.drop 2)
      if behind.isEmpty then [] else rooted k behind

/-! ## Addresses -/

/-- The text without blanks and controls at its ends, and without tabs and line breaks. -/
def clean (cs : List Char) : List Char :=
  let isEdge (c : Char) : Bool := c.toNat ≤ 0x20
  ((cs.dropWhile isEdge).reverse.dropWhile isEdge).reverse.filter fun c =>
    c ≠ '\t' && c ≠ '\n' && c ≠ '\r'

/-- The path of an address; what follows a question mark or a number sign is no part of it. -/
def path (address : String) : List Segment :=
  let (k, rest) := splitScheme ((clean address.toList).takeWhile fun c => c ≠ '?' && c ≠ '#')
  pathBehind k rest

/-- The address leads to the root of the site. -/
def isRoot (address : String) : Bool := path address = [] || path address = [[]]

end ParseReplay.Page.Address
