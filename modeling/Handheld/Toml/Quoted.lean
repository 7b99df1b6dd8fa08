import Handheld.Text.Hex

/-!
# TOML strings and keys

The four kinds of strings and the two kinds of keys.  Each reader takes the
characters behind the opening delimiter and answers the text together with
the characters behind the closing one.
-/

namespace Handheld.Toml

/-- Whether the character is a space or a tab. -/
def isSpace (c : Char) : Bool := c = ' ' || c = '\t'

/-- Whether the character may stand in strings and comments: no control
character besides the tab. -/
def isTextual (c : Char) : Bool := c = '\t' || (' ' ≤ c && c ≠ '\x7f')

/-- The characters behind a line break, if there is one. -/
def afterBreak? : List Char → Option (List Char)
  | '\n' :: rest => some rest
  | '\r' :: '\n' :: rest => some rest
  | _ => none

/-! ## Escapes -/

/-- The character that a letter behind a backslash stands for. -/
def escapeOfLetter? : Char → Option Char
  | 'b' => some '\x08'
  | 't' => some '\t'
  | 'n' => some '\n'
  | 'f' => some '\x0c'
  | 'r' => some '\r'
  | 'e' => some '\x1b'
  | '"' => some '"'
  | '\\' => some '\\'
  | _ => none

/-- How many hexadecimal digits follow a letter behind a backslash. -/
def escapeLength : Char → Nat
  | 'x' => 2
  | 'u' => 4
  | 'U' => 8
  | _ => 0

/-- The character that an escape stands for, and how many characters the
escape takes behind its backslash. -/
def escape? : List Char → Option (Char × Nat)
  | [] => none
  | letter :: rest =>
    match escapeLength letter with
    | 0 => (escapeOfLetter? letter).map (·, 1)
    | n => do
      let digits := rest.take n
      guard (digits.length = n)
      return (← Text.charOfCode? (← Text.hexNumber? digits), n + 1)

/-! ## Strings -/

/-- A literal string: it ends at the next apostrophe. -/
def literalBody : List Char → Option (List Char × List Char)
  | [] => none
  | '\'' :: rest => some ([], rest)
  | c :: rest =>
    if isTextual c then (literalBody rest).map fun (text, rest) => (c :: text, rest) else none

/-- A basic string: it ends at the next quotation mark that is not escaped.
`skip` counts characters that belong to an escape read before. -/
def basicBody : (skip : Nat) → List Char → Option (List Char × List Char)
  | _, [] => none
  | skip + 1, _ :: rest => basicBody skip rest
  | 0, '"' :: rest => some ([], rest)
  | 0, '\\' :: rest => do
    let (c, length) ← escape? rest
    let (text, rest) ← basicBody length rest
    return (c :: text, rest)
  | 0, c :: rest =>
    if isTextual c then (basicBody 0 rest).map fun (text, rest) => (c :: text, rest) else none

/-- Without a line break right at its start. -/
def dropBreak (cs : List Char) : List Char :=
  (afterBreak? cs).getD cs

/-- The end of a string of several lines: three delimiters, before which up to
two more may belong to the text. -/
def closing? (delimiter : Char) (cs : List Char) : Option (List Char × List Char) :=
  let count := (cs.takeWhile (· = delimiter)).length
  if count < 3 then none
  else
    let extra := min (count - 3) 2
    some (List.replicate extra delimiter, cs.drop (extra + 3))

/-- A literal string of several lines. -/
def literalLines : List Char → Option (List Char × List Char)
  | [] => none
  | c :: rest =>
    match closing? '\'' (c :: rest) with
    | some done => some done
    | none =>
      if isTextual c || c = '\n' || (c = '\r' && rest.head? = some '\n') then
        (literalLines rest).map fun (text, rest) => (c :: text, rest)
      else none

/-- Whether only spaces stand before the next line break. -/
def endsLine (cs : List Char) : Bool :=
  (afterBreak? (cs.dropWhile isSpace)).isSome

/-- A basic string of several lines.  A backslash at the end of a line takes
away the blanks and line breaks behind it; `joining` says that this goes on. -/
def basicLines : (skip : Nat) → (joining : Bool) → List Char → Option (List Char × List Char)
  | _, _, [] => none
  | skip + 1, joining, _ :: rest => basicLines skip joining rest
  | 0, joining, c :: rest =>
    if joining && (isSpace c || (afterBreak? (c :: rest)).isSome) then
      basicLines ((if c = '\r' then 1 else 0)) true rest
    else
      match closing? '"' (c :: rest) with
      | some done => some done
      | none =>
        if c = '\\' then
          if endsLine rest then basicLines 0 true rest
          else do
            let (c, length) ← escape? rest
            let (text, rest) ← basicLines length false rest
            return (c :: text, rest)
        else if isTextual c || c = '\n' || (c = '\r' && rest.head? = some '\n') then
          (basicLines 0 false rest).map fun (text, rest) => (c :: text, rest)
        else none

/-- Reads a string of any kind. -/
def readString? : List Char → Option (String × List Char)
  | '"' :: '"' :: '"' :: rest => pack (basicLines 0 false (dropBreak rest))
  | '\'' :: '\'' :: '\'' :: rest => pack (literalLines (dropBreak rest))
  | '"' :: rest => pack (basicBody 0 rest)
  | '\'' :: rest => pack (literalBody rest)
  | _ => none
where
  pack (result : Option (List Char × List Char)) : Option (String × List Char) :=
    result.map fun (text, rest) => (String.ofList text, rest)

/-! ## Keys -/

/-- Whether the character may stand in a key without quotes. -/
def isBare (c : Char) : Bool :=
  ('a' ≤ c && c ≤ 'z') || ('A' ≤ c && c ≤ 'Z') || ('0' ≤ c && c ≤ '9') ||
    c = '_' || c = '-'

/-- Reads one key. -/
def readSimpleKey? : List Char → Option (String × List Char)
  | '"' :: rest => (basicBody 0 rest).map fun (text, rest) => (String.ofList text, rest)
  | '\'' :: rest => (literalBody rest).map fun (text, rest) => (String.ofList text, rest)
  | cs =>
    match cs.takeWhile isBare with
    | [] => none
    | key => some (String.ofList key, cs.dropWhile isBare)

/-- Reads keys with dots between them.  `fuel` bounds their number. -/
def readKeys? : (fuel : Nat) → List Char → Option (List String × List Char)
  | 0, _ => none
  | fuel + 1, cs => do
    let (key, rest) ← readSimpleKey? (cs.dropWhile isSpace)
    match rest.dropWhile isSpace with
    | '.' :: rest =>
      let (keys, rest) ← readKeys? fuel rest
      return (key :: keys, rest)
    | rest => return ([key], rest)

/-- The most parts that a dotted key may have. -/
def maxParts : Nat := 80

/-- Reads a dotted key and the spaces around it. -/
def readKey? (cs : List Char) : Option (List String × List Char) :=
  readKeys? maxParts cs

end Handheld.Toml
