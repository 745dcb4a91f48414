import Letterpress.Json

/-!
# Settings Documents

Reads the part of TOML that settings are written in: keys with texts, whole numbers, flags and
tables of these. A table may be given by a header, inside braces, or by keys with a point.
Values of any other kind and tables within tables are refused, because nothing that can be set
has such a value; so a document is accepted here exactly if it is a TOML document without them.

A name can be given once only. A table that was given inside braces or by a header is complete
and cannot be added to, and a header cannot reopen what keys with a point have begun.

## Main definitions

* `Toml.Statement`: A header, or a key with its value.
* `Toml.statements`: The statements of a text.
* `Toml.Draft`: What the statements so far add up to.
* `Toml.read`: Reads a text.
-/

namespace Letterpress

namespace Toml

/-- A reader takes something off the front of a text, or fails. -/
abbrev Reader (α : Type) := List Char → Option (α × List Char)

/-- Goes past spaces and tabs. -/
def skipSpaces (cs : List Char) : List Char :=
  cs.dropWhile fun c => c == ' ' || c == '\t'

/-- A character that may stand in comments and in texts on one line: no control character but
    the tab. -/
def isPlain (c : Char) : Bool :=
  c == '\t' || (0x20 ≤ c.toNat && c.toNat != 0x7f)

/-- Takes a line end off the front. -/
def lineFeed? : List Char → Option (List Char)
  | '\n' :: rest => some rest
  | '\r' :: '\n' :: rest => some rest
  | _ => none

/-- Goes to the end of a line on which nothing but a comment may still stand. -/
def endLine? (cs : List Char) : Option (List Char) :=
  let rest :=
    match skipSpaces cs with
    | '#' :: comment => comment.dropWhile isPlain
    | cs => cs
  if rest.isEmpty then some [] else lineFeed? rest

/-- The character with a number written in hexadecimal digits. -/
def numbered? (ds : List Char) : Option Char :=
  let digit (c : Char) : Option Nat :=
    if c.isDigit then some (c.toNat - '0'.toNat)
    else if 'a' ≤ c ∧ c ≤ 'f' then some (c.toNat - 'a'.toNat + 10)
    else if 'A' ≤ c ∧ c ≤ 'F' then some (c.toNat - 'A'.toNat + 10)
    else none
  (ds.mapM digit).bind fun ns =>
    let n := ns.foldl (fun n d => 16 * n + d) 0
    if n.isValidChar then some (Char.ofNat n) else none

/-- The character of an escape behind its backslash, and the count of characters it takes. -/
def escape? : List Char → Option (Char × Nat)
  | 'b' :: _ => some ('\x08', 1)
  | 't' :: _ => some ('\t', 1)
  | 'n' :: _ => some ('\n', 1)
  | 'f' :: _ => some ('\x0c', 1)
  | 'r' :: _ => some ('\r', 1)
  | '"' :: _ => some ('"', 1)
  | '\\' :: _ => some ('\\', 1)
  | 'u' :: ds => if ds.length < 4 then none else (numbered? (ds.take 4)).map fun c => (c, 5)
  | 'U' :: ds => if ds.length < 8 then none else (numbered? (ds.take 8)).map fun c => (c, 9)
  | _ => none

/-- Puts characters in front of what a reader has found. -/
def withFront (front : List Char) (found : Option (List Char × List Char)) :
    Option (List Char × List Char) :=
  found.map fun (s, rest) => (front ++ s, rest)

/-- The rest of a text on one line between double quotes. The first `skip` characters belong to
    an escape. -/
def basicText : Nat → Reader (List Char)
  | _, [] => none
  | skip + 1, _ :: rest => basicText skip rest
  | 0, c :: rest =>
    if c == '"' then some ([], rest)
    else if c == '\\' then
      (escape? rest).bind fun (e, n) => withFront [e] (basicText n rest)
    else if isPlain c then withFront [c] (basicText 0 rest)
    else none

/-- The rest of a text on one line between single quotes, where nothing is escaped. -/
def literalText : Reader (List Char)
  | [] => none
  | c :: rest =>
    if c == '\'' then some ([], rest)
    else if isPlain c then withFront [c] (literalText rest)
    else none

/-- How many characters a backslash at the end of a line takes with it: the blanks and line
    ends up to the next character, if there is a line end among the first of them. -/
def lineContinuation? (cs : List Char) : Option Nat :=
  (lineFeed? (skipSpaces cs)).map fun _ =>
    (cs.takeWhile fun c => c == ' ' || c == '\t' || c == '\n' || c == '\r').length

/-- What a row of quotes means in a text of several lines: three close the text, and up to two
    more in front of them belong to it. -/
def closingQuotes? (quote : Char) (cs : List Char) : Option (List Char × List Char) :=
  let count := (cs.takeWhile (· == quote)).length
  if count < 3 then none
  else
    let own := min (count - 3) 2
    some (List.replicate own quote, cs.drop (own + 3))

/-- The rest of a text of several lines. Escapes mean something between double quotes only, and
    every line end is a line feed. -/
def blockText (quote : Char) : Nat → Reader (List Char)
  | _, [] => none
  | skip + 1, _ :: rest => blockText quote skip rest
  | 0, c :: rest =>
    if c == quote then
      match closingQuotes? quote (c :: rest) with
      | some closed => some closed
      | none => withFront [c] (blockText quote 0 rest)
    else if c == '\\' && quote == '"' then
      match lineContinuation? rest with
      | some n => blockText quote n rest
      | none => (escape? rest).bind fun (e, n) => withFront [e] (blockText quote n rest)
    else if c == '\n' || isPlain c then withFront [c] (blockText quote 0 rest)
    else if c == '\r' && rest.head? == some '\n' then blockText quote 0 rest
    else none

/-- Goes past a line end directly behind the opening of a text of several lines. -/
def skipFirstLineFeed (cs : List Char) : List Char :=
  (lineFeed? cs).getD cs

/-- Reads a text on one line, from its opening quote. -/
def lineText : Reader String := fun cs =>
  let found :=
    match cs with
    | '"' :: rest => basicText 0 rest
    | '\'' :: rest => literalText rest
    | _ => none
  found.map fun (s, rest) => (String.ofList s, rest)

/-- Reads a text of either form, from its opening quote. -/
def text : Reader String := fun cs =>
  match cs with
  | '"' :: '"' :: '"' :: rest =>
    (blockText '"' 0 (skipFirstLineFeed rest)).map fun (s, rest) => (String.ofList s, rest)
  | '\'' :: '\'' :: '\'' :: rest =>
    (blockText '\'' 0 (skipFirstLineFeed rest)).map fun (s, rest) => (String.ofList s, rest)
  | cs => lineText cs

/-- A character of a key without quotes. -/
def isBareKey (c : Char) : Bool := c.isAlphanum || c == '_' || c == '-'

/-- Reads one name of a key. -/
def keyName : Reader String := fun cs =>
  match lineText cs with
  | some found => some found
  | none =>
    let name := cs.takeWhile isBareKey
    if name.isEmpty then none else some (String.ofList name, cs.dropWhile isBareKey)

/-- Reads names with points between them, and the blanks around all of them. -/
def key (cs : List Char) : Option (List String × List Char) :=
  match keyName (skipSpaces cs) with
  | none => none
  | some (name, rest) =>
    match skipSpaces rest with
    | '.' :: rest =>
      if rest.length < cs.length then
        (key rest).map fun (names, rest) => (name :: names, rest)
      else none
    | rest => some ([name], rest)
termination_by cs.length

/-- Digits with single underscores between them, without the underscores. -/
def separatedDigits? (isDigit : Char → Bool) : List Char → Option (List Char)
  | [] => none
  | c :: rest =>
    if !isDigit c then none
    else
      match rest with
      | [] => some [c]
      | '_' :: rest => (separatedDigits? isDigit rest).map (c :: ·)
      | rest => (separatedDigits? isDigit rest).map (c :: ·)

/-- The value of digits in a base. -/
def digitsIn (base : Nat) (ds : List Char) : Nat :=
  let digit (c : Char) : Nat :=
    if c.isDigit then c.toNat - '0'.toNat else c.toLower.toNat - 'a'.toNat + 10
  ds.foldl (fun n c => base * n + digit c) 0

/-- The digits of a base up to sixteen. -/
def isDigitIn (base : Nat) (c : Char) : Bool :=
  (c.isDigit || ('a' ≤ c.toLower && c.toLower ≤ 'f')) && digitsIn base [c] < base

/-- The whole number that a word stands for: decimal with an optional sign and no needless zero,
    or without a sign in another base. -/
def wholeNumber? (word : List Char) : Option Int :=
  let based (base : Nat) (ds : List Char) : Option Int :=
    (separatedDigits? (isDigitIn base) ds).map fun ds => (digitsIn base ds : Int)
  let decimal (ds : List Char) : Option Int :=
    if ds.head? == some '0' && ds != ['0'] then none else based 10 ds
  let value :=
    match word with
    | '0' :: 'x' :: ds => based 16 ds
    | '0' :: 'o' :: ds => based 8 ds
    | '0' :: 'b' :: ds => based 2 ds
    | '+' :: ds => decimal ds
    | '-' :: ds => (decimal ds).map fun i => -i
    | ds => decimal ds
  value.filter fun i => -(Number.twoTo 63 : Int) ≤ i && i < Number.twoTo 63

/-- A character of a word that is no text. -/
def isWordPart (c : Char) : Bool := isBareKey c || c == '+' || c == '.' || c == ':'

/-- Reads a text, a whole number or a flag. -/
def scalar : Reader Json := fun cs =>
  match cs with
  | '"' :: _ => (text cs).map fun (s, rest) => (.text s, rest)
  | '\'' :: _ => (text cs).map fun (s, rest) => (.text s, rest)
  | _ =>
    let word := cs.takeWhile isWordPart
    let rest := cs.dropWhile isWordPart
    if word == "true".toList then some (.bool true, rest)
    else if word == "false".toList then some (.bool false, rest)
    else (wholeNumber? word).map fun i => (.whole i, rest)

/-- Reads a name with its value, and the blanks behind them. -/
def inlineEntry : Reader (String × Json) := fun cs =>
  match key cs with
  | some ([name], '=' :: rest) =>
    (scalar (skipSpaces rest)).map fun (v, rest) => ((name, v), skipSpaces rest)
  | _ => none

/-- Reads the entries of a table up to its closing brace. No name may come twice. -/
def inlineEntries (soFar : Entries Json) (cs : List Char) : Option (Entries Json × List Char) :=
  match inlineEntry cs with
  | none => none
  | some ((name, v), rest) =>
    if (soFar.get? name).isSome then none
    else
      match rest with
      | '}' :: rest => some (soFar.insert name v, rest)
      | ',' :: rest =>
        if rest.length < cs.length then inlineEntries (soFar.insert name v) rest else none
      | _ => none
termination_by cs.length

/-- Reads any value that settings can have. -/
def value : Reader Json := fun cs =>
  match cs with
  | '{' :: rest =>
    match skipSpaces rest with
    | '}' :: rest => some (.record [], rest)
    | rest => (inlineEntries [] rest).map fun (es, rest) => (.record es, rest)
  | cs => scalar cs

/-- A header, or a key with its value. -/
inductive Statement where
  | header (names : List String)
  | entry (names : List String) (v : Json)

/-- Reads one statement, without the end of its line. -/
def statement : Reader Statement := fun cs =>
  match cs with
  | '[' :: rest =>
    match key rest with
    | some (names, ']' :: rest) => some (.header names, rest)
    | _ => none
  | cs =>
    match key cs with
    | some (names, '=' :: rest) =>
      (value (skipSpaces rest)).map fun (v, rest) => (.entry names v, rest)
    | _ => none

/-- Reads the statements of a text, each on a line of its own. -/
def statements (cs : List Char) : Option (List Statement) :=
  if cs.isEmpty then some []
  else
    match endLine? cs with
    | some rest => if rest.length < cs.length then statements rest else none
    | none =>
      match statement (skipSpaces cs) with
      | none => none
      | some (s, rest) =>
        match endLine? rest with
        | none => none
        | some rest =>
          if rest.length < cs.length then (statements rest).map (s :: ·) else none
termination_by cs.length

/-- What the statements so far add up to: the name of the header above, single values, and
    tables. -/
structure Draft where
  header : Option String := none
  values : Entries Json := []
  tables : Entries (Entries Json) := []

namespace Draft

/-- The name has been given already. -/
def knows (d : Draft) (name : String) : Bool :=
  (d.values.get? name).isSome || (d.tables.get? name).isSome

/-- Puts an entry into a table that may have been begun before. -/
def addTo (d : Draft) (table name : String) (v : Json) : Option Draft :=
  let entries := (d.tables.get? table).getD []
  if (d.values.get? table).isSome || (entries.get? name).isSome then none
  else some { d with tables := d.tables.insert table (entries.insert name v) }

/-- Adds a statement. -/
def add (d : Draft) (s : Statement) : Option Draft :=
  match s, d.header with
  | .header [name], _ =>
    if d.knows name then none
    else some { d with header := some name, tables := d.tables.insert name [] }
  | .entry [name] v, none =>
    if d.knows name then none else some { d with values := d.values.insert name v }
  | .entry [table, name] v, none => d.addTo table name v
  | .entry [name] v, some table => d.addTo table name v
  | _, _ => none

/-- The draft as one document. -/
def toJson (d : Draft) : Json :=
  .record (d.tables.foldl (fun es (name, entries) => Entries.insert name (.record entries) es)
    d.values)

end Draft

/-- Reads a text. A byte order mark in front does not count. -/
def read (source : String) : Option Json := do
  let cs := source.toList
  let ss ← statements (if cs.head? == some '\ufeff' then cs.drop 1 else cs)
  let d ← ss.foldlM Draft.add {}
  return d.toJson

end Toml

end Letterpress
