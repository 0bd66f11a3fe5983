import SyncEndpoint.Text.Basic

set_option autoImplicit false

/-! # TOML strings

A string is written in one of four ways: between double quotes, where a backslash escapes, or
between single quotes, where nothing does; and either on one line, or over several between three
quotes. A reader first finds the body up to the closing quotes and then says what it stands for. -/

namespace SyncEndpoint.Toml.Quoted

/-! ## Characters -/

/-- The characters that a string cannot hold as they are: control characters except the tab. -/
def isControl (c : Char) : Bool :=
  (c.toNat < 0x20 && c != '\t') || c.toNat == 0x7F

def shortEscape? : Char → Option Char
  | 'b' => some '\x08'
  | 't' => some '\t'
  | 'n' => some '\n'
  | 'f' => some '\x0c'
  | 'r' => some '\r'
  | 'e' => some '\x1b'
  | '"' => some '"'
  | '\\' => some '\\'
  | _ => none

/-- The character whose number is written in hexadecimal digits. -/
def numbered? (digits : List Char) : Option Char :=
  match Text.numeral? 16 Text.hexValue? digits with
  | some n => if n.isValidChar then some (Char.ofNat n) else none
  | none => none

/-- Adds a character to a text that may be missing. -/
def consChar (c : Char) (rest : Option (List Char)) : Option (List Char) :=
  rest.map (c :: ·)

/-! ## Bodies -/

/-- Whether, after blanks, a line ends here. -/
def isLineEndAhead (cs : List Char) : Bool :=
  match cs.dropWhile (fun c => c == ' ' || c == '\t') with
  | '\n' :: _ => true
  | '\r' :: '\n' :: _ => true
  | _ => false

/-- What the body of a string between double quotes stands for. A string over several lines may
hold line ends, and a backslash at the end of a line takes the white space behind it away; while
that goes on, `trimming` is set. -/
def unescape? (multiline : Bool) : Bool → List Char → Option (List Char)
  | _, [] => some []
  | _, '\\' :: rest =>
    match rest with
    | [] => none
    | 'x' :: a :: b :: rest =>
      (numbered? [a, b]).bind fun c => consChar c (unescape? multiline false rest)
    | 'u' :: a :: b :: c :: d :: rest =>
      (numbered? [a, b, c, d]).bind fun c => consChar c (unescape? multiline false rest)
    | 'U' :: a :: b :: c :: d :: e :: f :: g :: h :: rest =>
      (numbered? [a, b, c, d, e, f, g, h]).bind fun c =>
        consChar c (unescape? multiline false rest)
    | e :: rest =>
      match shortEscape? e with
      | some c => consChar c (unescape? multiline false rest)
      | none =>
        if multiline && isLineEndAhead (e :: rest) then unescape? multiline true rest else none
  | trimming, '\r' :: '\n' :: rest =>
    if !multiline then none
    else if trimming then unescape? multiline true rest
    else consChar '\r' (consChar '\n' (unescape? multiline false rest))
  | trimming, c :: rest =>
    if c == '\n' then
      if !multiline then none
      else if trimming then unescape? multiline true rest
      else consChar c (unescape? multiline false rest)
    else if isControl c then none
    else if trimming && (c == ' ' || c == '\t') then unescape? multiline true rest
    else consChar c (unescape? multiline false rest)

/-- What the body of a string between single quotes stands for: itself, if it may. -/
def plain? (multiline : Bool) : List Char → Option (List Char)
  | [] => some []
  | '\r' :: '\n' :: rest =>
    if multiline then consChar '\r' (consChar '\n' (plain? multiline rest)) else none
  | c :: rest =>
    if c == '\n' && multiline then consChar c (plain? multiline rest)
    else if isControl c then none
    else consChar c (plain? multiline rest)

/-- A body over several lines without the line end right behind its opening quotes. -/
def trimFirstLineEnd : List Char → List Char
  | '\n' :: rest => rest
  | '\r' :: '\n' :: rest => rest
  | cs => cs

/-! ## Closing quotes -/

/-- Cuts a text at the double quote that closes a string. -/
def cutBasic? : List Char → Option (List Char × List Char)
  | [] => none
  | '"' :: rest => some ([], rest)
  | '\\' :: c :: rest => (cutBasic? rest).map fun (body, rest) => ('\\' :: c :: body, rest)
  | c :: rest => (cutBasic? rest).map fun (body, rest) => (c :: body, rest)

/-- Cuts a text at the single quote that closes a string. -/
def cutLiteral? : List Char → Option (List Char × List Char)
  | [] => none
  | '\'' :: rest => some ([], rest)
  | c :: rest => (cutLiteral? rest).map fun (body, rest) => (c :: body, rest)

/-- Cuts a text at the three double quotes that close a string. Up to two more in front of them
belong to the string. -/
def cutBasicLines? : List Char → Option (List Char × List Char)
  | [] => none
  | '"' :: '"' :: '"' :: '"' :: '"' :: rest => some (['"', '"'], rest)
  | '"' :: '"' :: '"' :: '"' :: rest => some (['"'], rest)
  | '"' :: '"' :: '"' :: rest => some ([], rest)
  | '\\' :: c :: rest => (cutBasicLines? rest).map fun (body, rest) => ('\\' :: c :: body, rest)
  | c :: rest => (cutBasicLines? rest).map fun (body, rest) => (c :: body, rest)

/-- Cuts a text at the three single quotes that close a string. Up to two more in front of them
belong to the string. -/
def cutLiteralLines? : List Char → Option (List Char × List Char)
  | [] => none
  | '\'' :: '\'' :: '\'' :: '\'' :: '\'' :: rest => some (['\'', '\''], rest)
  | '\'' :: '\'' :: '\'' :: '\'' :: rest => some (['\''], rest)
  | '\'' :: '\'' :: '\'' :: rest => some ([], rest)
  | c :: rest => (cutLiteralLines? rest).map fun (body, rest) => (c :: body, rest)

/-! ## Whole strings -/

/-- Reads a string on one line, which may be a key. -/
def line? : List Char → Option (List Char × List Char)
  | '"' :: rest => do
    let (body, rest) ← cutBasic? rest
    pure (← unescape? false false body, rest)
  | '\'' :: rest => do
    let (body, rest) ← cutLiteral? rest
    pure (← plain? false body, rest)
  | _ => none

/-- Reads a string of any of the four ways. -/
def string? : List Char → Option (List Char × List Char)
  | '"' :: '"' :: '"' :: rest => do
    let (body, rest) ← cutBasicLines? rest
    pure (← unescape? true false (trimFirstLineEnd body), rest)
  | '\'' :: '\'' :: '\'' :: rest => do
    let (body, rest) ← cutLiteralLines? rest
    pure (← plain? true (trimFirstLineEnd body), rest)
  | cs => line? cs

/-! ## Writing -/

def longestRun (c : Char) (cs : List Char) : Nat :=
  (cs.foldl (fun (best, run) x =>
    if x == c then (max best (run + 1), run + 1) else (best, 0)) ((0 : Nat), (0 : Nat))).1

/-- The two upper-case digits of a number less than 256. -/
def hex2 (n : Nat) : List Char :=
  let digit (n : Nat) : Char :=
    if n < 10 then Char.ofNat ('0'.toNat + n) else Char.ofNat ('A'.toNat + (n - 10))
  [digit (n / 16), digit (n % 16)]

/-- How a character other than the double quote is written between double quotes. -/
def escapeChar (multiline : Bool) (c : Char) : List Char :=
  if c == '\x08' then ['\\', 'b']
  else if c == '\t' then ['\\', 't']
  else if c == '\n' then (if multiline then ['\n'] else ['\\', 'n'])
  else if c == '\x0c' then ['\\', 'f']
  else if c == '\r' then ['\\', 'r']
  else if c == '\\' then ['\\', '\\']
  else if isControl c then '\\' :: 'u' :: '0' :: '0' :: hex2 c.toNat
  else [c]

/-- A text as the body of a string between double quotes. Where `quotes` more double quotes may
stand in a row they are left as they are, and the next one is escaped. -/
def escape (multiline : Bool) : Nat → List Char → List Char
  | _, [] => []
  | quotes, c :: rest =>
    let most := if multiline then 2 else 0
    if c == '"' then
      match quotes with
      | 0 => '\\' :: '"' :: escape multiline most rest
      | quotes + 1 => '"' :: escape multiline quotes rest
    else escapeChar multiline c ++ escape multiline most rest

/-- Three quotes on both sides; a text with a line end starts on a line of its own. -/
def lines (quote : Char) (cs body : List Char) : List Char :=
  let quotes := [quote, quote, quote]
  quotes ++ (if cs.contains '\n' then ['\n'] else []) ++ body ++ quotes

/-- How a text is written: in the first way that needs no escape, and else between double
quotes. -/
def write (cs : List Char) : List Char :=
  let hasLineEnd := cs.contains '\n'
  let hasControl := cs.any fun c => isControl c && c != '\n'
  let hasBackslash := cs.contains '\\'
  let doubles := longestRun '"' cs
  let singles := longestRun '\'' cs
  if !hasControl && !hasBackslash && doubles == 0 && !hasLineEnd then
    '"' :: escape false 0 cs ++ ['"']
  else if !hasControl && singles == 0 && !hasLineEnd then '\'' :: cs ++ ['\'']
  else if !hasControl && !hasBackslash && doubles ≤ 2 then lines '"' cs (escape true 2 cs)
  else if !hasControl && singles ≤ 2 then lines '\'' cs cs
  else if hasLineEnd then lines '"' cs (escape true 2 cs)
  else '"' :: escape false 0 cs ++ ['"']

end SyncEndpoint.Toml.Quoted
