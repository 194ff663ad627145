import SliceControl.Yaml.Scanner

/-!
# Reading documents

In block style the column in which a line begins says where it belongs: the entries of a mapping or
sequence begin in one column, and what belongs to an entry begins further right, except that a
sequence may begin in the column of the key that it belongs to. In flow style, which is marked by
brackets and braces, line breaks and columns do not count.

Every function that calls itself takes at least one character or goes down one level, so twice the
length of the text is fuel enough.
-/

namespace SliceControl.Yaml

/-! ## Between tokens -/

/-- Skips blanks, line breaks and comments. -/
def skipSpace (inComment : Bool) : List Char → List Char
  | [] => []
  | character :: rest =>
    if character = '\n' then skipSpace false rest
    else if inComment || character = '#' then skipSpace true rest
    else if isGap character then skipSpace false rest
    else character :: rest

/-- Goes to the next line with something on it, where indentation is by blanks only; gives the
column where that begins. -/
def nextLine (column : Nat) (inComment : Bool) : List Char → Nat × List Char
  | [] => (column, [])
  | character :: rest =>
    if character = '\n' then nextLine 0 false rest
    else if inComment || character = '#' then nextLine column true rest
    else if character = ' ' then nextLine (column + 1) false rest
    else (column, character :: rest)

/-- Skips a comment up to the end of the line. -/
def skipComment (characters : List Char) : List Char := characters.dropWhile (· ≠ '\n')

/-- The end of the line, if nothing but a comment stands before it. -/
def lineEnd? (characters : List Char) : Option (List Char) :=
  match characters.dropWhile isGap with
  | [] => some []
  | '\n' :: rest => some ('\n' :: rest)
  | '#' :: rest => some (skipComment rest)
  | _ => none

/-! ## Flow style -/

mutual

/-- A scalar or collection in flow style. -/
def flowNode : Nat → List Char → Option (Yaml × List Char)
  | 0, _ => none
  | fuel + 1, characters =>
    match skipSpace false characters with
    | '[' :: rest => flowItems fuel [] rest
    | '\x7b' :: rest => flowEntries fuel [] rest
    | characters => (scalar? true 0 characters).map fun (found, rest) => (scalar found, rest)

/-- The items of a sequence up to its bracket; an item may be a mapping with a single entry. -/
def flowItems : Nat → List Yaml → List Char → Option (Yaml × List Char)
  | 0, _, _ => none
  | fuel + 1, before, characters =>
    match skipSpace false characters with
    | ']' :: rest => some (sequence before.reverse, rest)
    | characters => do
      let (first, rest) ← flowNode fuel characters
      let (item, rest) ← match first, skipSpace false rest with
        | scalar key, ':' :: rest =>
          (flowValue fuel rest).map fun (value, rest) => (mapping [(key, value)], rest)
        | _, rest => some (first, rest)
      match skipSpace false rest with
      | ',' :: rest => flowItems fuel (item :: before) rest
      | ']' :: rest => some (sequence (item :: before).reverse, rest)
      | _ => none

/-- The entries of a mapping up to its brace; a key may stand without a value. -/
def flowEntries : Nat → List (Scalar × Yaml) → List Char → Option (Yaml × List Char)
  | 0, _, _ => none
  | fuel + 1, before, characters =>
    match skipSpace false characters with
    | '\x7d' :: rest => some (mapping before.reverse, rest)
    | characters => do
      let (key, rest) ← scalar? true 0 characters
      let (value, rest) ← match skipSpace false rest with
        | ':' :: rest => flowValue fuel rest
        | rest => some (nothing, rest)
      match skipSpace false rest with
      | ',' :: rest => flowEntries fuel ((key, value) :: before) rest
      | '\x7d' :: rest => some (mapping ((key, value) :: before).reverse, rest)
      | _ => none

/-- The value after a colon, which may be missing. -/
def flowValue : Nat → List Char → Option (Yaml × List Char)
  | 0, _ => none
  | fuel + 1, characters =>
    match skipSpace false characters with
    | ',' :: rest => some (nothing, ',' :: rest)
    | ']' :: rest => some (nothing, ']' :: rest)
    | '\x7d' :: rest => some (nothing, '\x7d' :: rest)
    | characters => flowNode fuel characters

end

/-! ## Block style -/

/-- A key with the colon after it, all on one line. -/
def key? (characters : List Char) : Option (Scalar × List Char) := do
  let (key, rest) ← match characters with
    | '"' :: _ | '\x27' :: _ => quoted? characters
    | _ => do
      guard (isPlainStart false characters)
      let (text, rest) ← plainLine? false characters
      some (⟨String.ofList (trimGaps text), true⟩, rest)
  guard !((characters.take (characters.length - rest.length)).contains '\n')
  match rest.dropWhile isGap with
  | ':' :: rest => if isBreakNext rest then some (key, rest) else none
  | _ => none

/-- Whether an item of a sequence begins here. -/
def isItemStart : List Char → Bool
  | '-' :: rest => isBreakNext rest
  | _ => false

/-- A scalar or flow collection with nothing after it on its line. -/
def inline? (floor : Nat) (characters : List Char) : Option (Yaml × List Char) := do
  let (value, rest) ← match characters with
    | '[' :: _ | '\x7b' :: _ => flowNode (2 * characters.length) characters
    | _ => (scalar? false floor characters).map fun (found, rest) => (scalar found, rest)
  return (value, ← lineEnd? rest)

mutual

/-- A node that begins in `column`, the lines that continue a scalar being indented by `floor`. -/
def blockNode : Nat → Nat → Nat → List Char → Option (Yaml × List Char)
  | 0, _, _, _ => none
  | fuel + 1, floor, column, characters =>
    if isItemStart characters then blockItems fuel column [] characters
    else match key? characters with
      | some (key, rest) => blockEntries fuel column [] key rest
      | none => inline? floor characters

/-- The items of a sequence in `column`; the characters begin with a dash. -/
def blockItems : Nat → Nat → List Yaml → List Char → Option (Yaml × List Char)
  | 0, _, _, _ => none
  | fuel + 1, column, before, characters => do
    let (item, rest) ← blockItem fuel column (characters.drop 1)
    match nextLine 0 false rest with
    | (next, characters) =>
      if next = column && isItemStart characters then
        blockItems fuel column (item :: before) characters
      else some (sequence (item :: before).reverse, rest)

/-- What stands after the dash of an item. -/
def blockItem : Nat → Nat → List Char → Option (Yaml × List Char)
  | 0, _, _ => none
  | fuel + 1, column, characters =>
    let inner := characters.dropWhile (· = ' ')
    match lineEnd? characters with
    | none =>
      blockNode fuel (column + 1) (column + 1 + (characters.length - inner.length)) inner
    | some rest =>
      match nextLine 0 false rest with
      | (next, characters) =>
        if column < next && !characters.isEmpty then blockNode fuel (column + 1) next characters
        else some (nothing, rest)

/-- The entries of a mapping in `column`, from the value of `key` on. -/
def blockEntries :
    Nat → Nat → List (Scalar × Yaml) → Scalar → List Char → Option (Yaml × List Char)
  | 0, _, _, _, _ => none
  | fuel + 1, column, before, key, characters => do
    let (value, rest) ← blockValue fuel column characters
    match nextLine 0 false rest with
    | (next, characters) =>
      match if next = column then key? characters else none with
      | some (nextKey, characters) =>
        blockEntries fuel column ((key, value) :: before) nextKey characters
      | none => some (mapping ((key, value) :: before).reverse, rest)

/-- What stands after the colon of an entry. -/
def blockValue : Nat → Nat → List Char → Option (Yaml × List Char)
  | 0, _, _ => none
  | fuel + 1, column, characters =>
    match lineEnd? characters with
    | none => inline? (column + 1) (characters.dropWhile isGap)
    | some rest =>
      match nextLine 0 false rest with
      | (next, characters) =>
        if column < next && !characters.isEmpty then blockNode fuel (column + 1) next characters
        else if next = column && isItemStart characters then blockItems fuel column [] characters
        else some (nothing, rest)

end

/-! ## Documents -/

/-- The text with every line break written as one line feed, and without a mark in front. -/
def normalizeBreaks : List Char → List Char
  | '\r' :: '\n' :: rest => '\n' :: normalizeBreaks rest
  | character :: rest =>
    (if character = '\r' || character = '\u0085' || character = '\u2028' || character = '\u2029'
      then '\n' else character) :: normalizeBreaks rest
  | [] => []

/-- The characters that may occur in a document. -/
def isPrintable (character : Char) : Bool :=
  let code := character.toNat
  code = 9 || code = 10 || code = 13 || (0x20 ≤ code && code ≤ 0x7e) || code = 0x85 ||
    (0xa0 ≤ code && code ≤ 0xd7ff) || (0xe000 ≤ code && code ≤ 0xfffd && code ≠ 0xfeff) ||
    0x10000 ≤ code

/-- Whether a line of three equal marks, which separate documents, begins here. -/
def isSeparator (mark : Char) : List Char → Bool
  | first :: second :: third :: rest =>
    first = mark && second = mark && third = mark && isBreakNext rest
  | _ => false

/-- What follows the document: nothing, or a line of three points. -/
def isDocumentEnd (characters : List Char) : Bool :=
  match nextLine 0 false characters with
  | (_, []) => true
  | (column, rest) =>
    column = 0 && isSeparator '.' rest &&
      match lineEnd? (rest.drop 3) with
      | some rest => (nextLine 0 false rest).2.isEmpty
      | none => false

/-- The node after the line of three dashes that may introduce a document. -/
def rootNode (fuel : Nat) (characters : List Char) : Option (Yaml × List Char) :=
  match nextLine 0 false characters with
  | (_, []) => some (nothing, [])
  | (column, rest) =>
    if column = 0 && isSeparator '-' rest then
      match lineEnd? (rest.drop 3) with
      | none => inline? 0 ((rest.drop 3).dropWhile isGap)
      | some rest =>
        match nextLine 0 false rest with
        | (_, []) => some (nothing, [])
        | (column, rest) => blockNode fuel 0 column rest
    else blockNode fuel 0 column rest

/-- The document that a text stands for. -/
def parse? (text : String) : Option Yaml :=
  let characters := match text.toList with
    | '\ufeff' :: rest => rest
    | characters => characters
  if characters.all isPrintable then do
    let characters := normalizeBreaks characters
    let (root, rest) ← rootNode (2 * characters.length + 4) characters
    if isDocumentEnd rest then some root else none
  else none

end SliceControl.Yaml
