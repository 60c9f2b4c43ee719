/-
**Paths of files.**

* `Path.components` — the parts between slashes that mean something;
* `Path.normal` — a path without empty parts and dots;
* `Path.absolute` — a path made absolute, with the steps upwards taken;
* `Path.resolve?` — the place a path leads to when only directories can be walked through;
* `Path.Obstacle` — why there is no file to open under a path;
* `Path.uri`, `Path.ofUri` — the name of a file for a client, and the path in such a name.
-/

import EmbeddedSql.Text.Quoted

set_option relaxedAutoImplicit false
set_option autoImplicit false

namespace EmbeddedSql.Path

/-! ### Parts of a path -/

/-- Puts one character in front of a nonempty list of parts. -/
def consPart (c : Char) (parts : List Text) : List Text :=
  if c = '/' then
    [] :: parts
  else
    match parts with
    | [] => [[c]]
    | p :: rest => (c :: p) :: rest

/-- The parts between slashes. -/
def parts (path : Text) : List Text :=
  path.foldr consPart [[]]

/-- The parts between slashes, without empty ones and single dots. -/
def components (path : Text) : List Text :=
  (parts path).filter fun p => !p.isEmpty && p != ['.']

/-- How many slashes an absolute path keeps in front: two if there are exactly two, else one. -/
def root (path : Text) : Text :=
  match path with
  | '/' :: '/' :: '/' :: _ => ['/']
  | '/' :: '/' :: _ => ['/', '/']
  | '/' :: _ => ['/']
  | _ => []

/-- The path without empty parts and single dots; a path of nothing else is a dot. -/
def normal (path : String) : String :=
  let front := root path.toList
  let parts := components path.toList
  if front.isEmpty && parts.isEmpty then "."
  else String.ofList (front ++ ['/'].intercalate parts)

/-- Takes the steps upwards; `above` holds the parts before, last one first. -/
def ascend : (above : List Text) → List Text → List Text
  | above, [] => above.reverse
  | above, p :: rest =>
    if p = ['.', '.'] then ascend (above.drop 1) rest else ascend (p :: above) rest

/-- The absolute path of a path that is seen from a directory. -/
def absolute (directory path : String) : String :=
  let parts :=
    if (root path.toList).isEmpty then components directory.toList ++ components path.toList
    else components path.toList
  String.ofList ('/' :: ['/'].intercalate (ascend [] parts))

/-- The absolute path of some parts, given last one first. -/
def ofParts (reversed : List Text) : String :=
  String.ofList ('/' :: ['/'].intercalate reversed.reverse)

/-- Walks along the parts of a path.  `place` holds the parts of the place before, last one first;
only from a directory is there a way on, be it only to itself or upwards. -/
def walk (isDirectory : String → Bool) : (place : List Text) → List Text → Option (List Text)
  | place, [] => some place
  | place, p :: rest =>
    if !isDirectory (ofParts place) then none
    else if p.isEmpty || p = ['.'] then walk isDirectory place rest
    else if p = ['.', '.'] then walk isDirectory (place.drop 1) rest
    else walk isDirectory (p :: place) rest

/-- The absolute path of the place that a path leads to, seen from a directory.  The empty path
leads nowhere. -/
def resolve? (isDirectory : String → Bool) (directory path : String) : Option String :=
  if path.isEmpty then none
  else
    let start := if (root path.toList).isEmpty then components directory.toList else []
    (walk isDirectory start.reverse (parts path.toList)).map ofParts

/-! ### Paths without a file -/

/-- Why there is no file to open under a path. -/
inductive Obstacle where
  | missing (path : String)
  | directory (path : String)
  | tooLong (path : String)
  /-- The path holds a character that ends it. -/
  | nullCharacter
  deriving Repr, DecidableEq

/-- The wording of an obstacle. -/
def Obstacle.message : Obstacle → String
  | .missing path =>
    "[Errno 2] No such file or directory: " ++ String.ofList (Text.quoted path.toList)
  | .directory path => "[Errno 21] Is a directory: " ++ String.ofList (Text.quoted path.toList)
  | .tooLong path => "[Errno 36] File name too long: " ++ String.ofList (Text.quoted path.toList)
  | .nullCharacter => "embedded null byte"

/-- Why a path cannot be opened when there is nothing but the directories on the way to the root. -/
def obstacle (path : String) : Obstacle :=
  let steps := components path.toList
  let first := (steps.head?.map fun p => (String.ofList p).utf8ByteSize).getD 0
  if path.toList.contains '\x00' then .nullCharacter
  else if 4095 < path.utf8ByteSize || 255 < first then .tooLong path
  else if !path.isEmpty && steps.all (· = ['.', '.']) then .directory path
  else .missing path

/-! ### Names for clients -/

/-- The value of a hexadecimal digit. -/
def hexValue? (c : Char) : Option Nat :=
  let n := c.toLower.toNat
  if c.isDigit then some (c.toNat - '0'.toNat)
  else if 'a'.toNat ≤ n && n ≤ 'f'.toNat then some (n - 'a'.toNat + 10)
  else none

/-- Characters that stand for themselves in the name of a file. -/
def isPlain (c : Char) : Bool :=
  c.isAlphanum || ['/', '_', '.', '-', '~'].contains c

/-- A character of a name: itself, or its bytes in upper-case hexadecimal. -/
def uriChar (c : Char) : Text :=
  if isPlain c then [c]
  else (String.utf8EncodeChar c).flatMap fun b => '%' :: (Text.hex 2 b.toNat).map Char.toUpper

/-- The name of the file with an absolute path. -/
def uri (path : String) : String :=
  "file://" ++ String.ofList (path.toList.flatMap uriChar)

/-- The bytes and characters of a name, percent signs with two hexadecimal digits taken for
bytes. -/
def unescape : Text → List (UInt8 ⊕ Char)
  | '%' :: a :: b :: rest =>
    match hexValue? a, hexValue? b with
    | some m, some n => .inl (16 * m + n).toUInt8 :: unescape rest
    | _, _ => .inr '%' :: unescape (a :: b :: rest)
  | c :: rest => .inr c :: unescape rest
  | [] => []

/-- A character of which the first bytes were read. -/
structure Begun where
  /-- How many bytes are missing. -/
  missing : Nat
  value : Nat
  /-- The least and the greatest byte that may follow. -/
  low : Nat
  high : Nat
  deriving Repr, DecidableEq

/-- The character of which a byte is the first one, if there are such characters. -/
def Begun.ofByte? (b : Nat) : Option Begun :=
  if 0xC2 ≤ b && b ≤ 0xDF then some ⟨1, b - 0xC0, 0x80, 0xBF⟩
  else if 0xE0 ≤ b && b ≤ 0xEF then
    some ⟨2, b - 0xE0, if b = 0xE0 then 0xA0 else 0x80, if b = 0xED then 0x9F else 0xBF⟩
  else if 0xF0 ≤ b && b ≤ 0xF4 then
    some ⟨3, b - 0xF0, if b = 0xF0 then 0x90 else 0x80, if b = 0xF4 then 0x8F else 0xBF⟩
  else none

/-- What a byte adds to a text: characters that are complete, and one that is begun. -/
def addByte (begun : Option Begun) (b : Nat) : Text × Option Begun :=
  let fresh : Text × Option Begun :=
    if b < 0x80 then ([Char.ofNat b], none)
    else
      match Begun.ofByte? b with
      | some c => ([], some c)
      | none => (['\uFFFD'], none)
  match begun with
  | none => fresh
  | some c =>
    if c.low ≤ b && b ≤ c.high then
      let value := 64 * c.value + (b - 0x80)
      if c.missing ≤ 1 then ([Char.ofNat value], none)
      else ([], some ⟨c.missing - 1, value, 0x80, 0xBF⟩)
    else ('\uFFFD' :: fresh.1, fresh.2)

/-- The text of some bytes.  As many bytes as may start a character, and then do not go on like
one, become one replacement character. -/
def ofBytes (begun : Option Begun) : List UInt8 → Text
  | [] => if begun.isSome then ['\uFFFD'] else []
  | b :: rest =>
    let (complete, begun) := addByte begun b.toNat
    complete ++ ofBytes begun rest

/-- The text of bytes and characters; `bytes` were read just before, last one first. -/
def decode : (bytes : List UInt8) → List (UInt8 ⊕ Char) → Text
  | bytes, [] => ofBytes none bytes.reverse
  | bytes, .inl b :: rest => decode (b :: bytes) rest
  | bytes, .inr c :: rest => ofBytes none bytes.reverse ++ c :: decode [] rest

/-- The name without what no name holds: controls and blanks in front, tabs and line ends. -/
def tidy (uri : Text) : Text :=
  (uri.dropWhile fun c => c.toNat ≤ 0x20).filter fun c => c ≠ '\t' && c ≠ '\n' && c ≠ '\r'

/-- The scheme of a name in lower case, and what follows its colon. -/
def splitScheme (uri : Text) : Text × Text :=
  match uri.dropWhile (· ≠ ':') with
  | ':' :: rest =>
    let scheme := uri.takeWhile (· ≠ ':')
    if scheme.head?.any Char.isAlpha &&
        scheme.all (fun c => c.isAlphanum || ['+', '-', '.'].contains c) then
      (scheme.map Char.toLower, rest)
    else ([], uri)
  | _ => ([], uri)

/-- The host and what follows it, in what follows the scheme. -/
def splitHost : Text → Text × Text
  | '/' :: '/' :: rest =>
    let host := rest.takeWhile fun c => !(['/', '?', '#'].contains c)
    (host, rest.drop host.length)
  | rest => ([], rest)

/-- The schemes whose last part may have parameters after a semicolon. -/
def parameterSchemes : List String :=
  ["", "ftp", "hdl", "prospero", "http", "imap", "https", "shttp", "rtsp", "rtsps", "rtspu", "sip",
   "sips", "mms", "sftp", "tel"]

/-- A path without the parameters of its last part. -/
def dropParameters (path : Text) : Text :=
  let last := (path.reverse.takeWhile (· ≠ '/')).length
  path.take (path.length - last) ++ (path.drop (path.length - last)).takeWhile (· ≠ ';')

/-- A name that is none. -/
inductive UriError where
  /-- A bracket in the host that is not closed, or not opened. -/
  | brackets
  deriving Repr, DecidableEq

/-- The wording of an error. -/
def UriError.message : UriError → String
  | .brackets => "Invalid IPv6 URL"

/-- The path in the name of a file. -/
def ofUri (uri : String) : Except UriError String :=
  let (scheme, rest) := splitScheme (tidy uri.toList)
  let (host, rest) := splitHost rest
  let path := rest.takeWhile fun c => c ≠ '?' && c ≠ '#'
  let path :=
    if parameterSchemes.contains (String.ofList scheme) then dropParameters path else path
  let path := decode [] (unescape path)
  if host.contains '[' != host.contains ']' then .error .brackets
  else if !host.isEmpty && !path.isEmpty && scheme = "file".toList then
    .ok (String.ofList (['/', '/'] ++ decode [] (unescape host) ++ path))
  else
    match path with
    | '/' :: drive :: ':' :: more =>
      .ok (String.ofList (if drive.isAlpha then drive.toLower :: ':' :: more else path))
    | _ => .ok (String.ofList path)

end EmbeddedSql.Path
