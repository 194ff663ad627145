import SliceControl.Yaml

/-!
# Scanning scalars

A scalar is written plain, or between single or double quotes. A line break within a scalar is
folded: one break stands for a blank, and of several breaks one is dropped. Blanks around a break
do not count.

A function here takes the characters that are still to be read and gives back what it found together
with those that follow.
-/

namespace SliceControl.Yaml

def isGap (character : Char) : Bool := character = ' ' || character = '\t'

/-- Whether there is a blank, a line break or the end next. -/
def isBreakNext : List Char → Bool
  | [] => true
  | character :: _ => isGap character || character = '\n'

/-- The number of line breaks at the front, with the blanks between them skipped. -/
def skipBreaks (breaks : Nat) : List Char → Nat × List Char
  | [] => (breaks, [])
  | character :: rest =>
    if character = '\n' then skipBreaks (breaks + 1) rest
    else if isGap character then skipBreaks breaks rest
    else (breaks, character :: rest)

/-- What a number of line breaks stands for within a scalar. -/
def folded (breaks : Nat) : List Char :=
  if breaks = 1 then [' '] else List.replicate (breaks - 1) '\n'

/-- The characters without the blanks after them. -/
def trimGaps (characters : List Char) : List Char := (characters.reverse.dropWhile isGap).reverse

/-! ## Quoted scalars -/

/-- What the letter after a backslash stands for. -/
def escapes : List (Char × Char) :=
  [('0', '\x00'), ('a', '\x07'), ('b', '\x08'), ('t', '\t'), ('\t', '\t'), ('n', '\n'),
    ('v', '\x0b'), ('f', '\x0c'), ('r', '\r'), ('e', '\x1b'), (' ', ' '), ('"', '"'), ('/', '/'),
    ('\\', '\\'), ('N', '\u0085'), ('_', '\u00a0'), ('L', '\u2028'), ('P', '\u2029')]

/-- How many digits follow a letter that announces a code point. -/
def codeLengths : List (Char × Nat) := [('x', 2), ('u', 4), ('U', 8)]

/-- The character that an escape without its backslash stands for. -/
def escape? : List Char → Option (Char × List Char)
  | [] => none
  | letter :: rest =>
    match codeLengths.lookup letter with
    | some length => do
      let digits := rest.take length
      guard (digits.length = length)
      let code ← readDigits? 16 digits
      if code.isValidChar then some (Char.ofNat code, rest.drop length) else none
    | none => (escapes.lookup letter).map fun character => (character, rest)

/-- The rest of a quoted scalar, where every step takes at least one character. -/
def quotedRest (mark : Char) : Nat → List Char → Option (List Char × List Char)
  | 0, _ => none
  | _, [] => none
  | fuel + 1, character :: rest =>
    let prepend (front : List Char) (rest : List Char) : Option (List Char × List Char) :=
      (quotedRest mark fuel rest).map fun (text, rest) => (front ++ text, rest)
    if character = mark then
      match mark, rest with
      | '\x27', '\x27' :: rest => prepend ['\x27'] rest
      | _, _ => some ([], rest)
    else if character = '\\' && mark = '"' then
      match rest with
      | '\n' :: rest =>
        let (breaks, rest) := skipBreaks 0 rest
        prepend (List.replicate breaks '\n') rest
      | _ => (escape? rest).bind fun (meant, rest) => prepend [meant] rest
    else if isGap character || character = '\n' then
      let (breaks, next) := skipBreaks 0 (character :: rest)
      if breaks = 0 then prepend [character] rest else prepend (folded breaks) next
    else prepend [character] rest

/-- A scalar in quotes, if one begins here. -/
def quoted? : List Char → Option (Scalar × List Char)
  | [] => none
  | mark :: rest =>
    if mark = '"' || mark = '\x27' then
      (quotedRest mark rest.length.succ rest).map fun (text, rest) =>
        (⟨String.ofList text, false⟩, rest)
    else none

/-! ## Plain scalars -/

/-- The characters that cannot begin a plain scalar, unless those of the second list stand before
something else than a blank. -/
def indicators : List Char :=
  [',', '[', ']', '\x7b', '\x7d', '#', '&', '*', '!', '|', '>', '\x27', '"', '%', '@', '\x60']

/-- Whether a plain scalar begins here. Within a flow collection neither a question mark nor a
colon begins one. -/
def isPlainStart (inFlow : Bool) : List Char → Bool
  | [] => false
  | character :: rest =>
    if character = '-' then !isBreakNext rest
    else if character = '?' || character = ':' then !inFlow && !isBreakNext rest
    else !(isGap character || character = '\n' || indicators.contains character)

/-- The flow indicators that end a plain scalar within a flow collection. -/
def flowMarks : List Char := [',', '[', ']', '\x7b', '\x7d']

/-- The part of a plain scalar that stands on one line. A colon before a blank ends it, and so does
a comment, which begins after a blank. -/
def plainLine? (inFlow : Bool) : List Char → Option (List Char × List Char)
  | [] => some ([], [])
  | character :: rest =>
    let more : Option (List Char × List Char) :=
      (plainLine? inFlow rest).map fun (text, after) => (character :: text, after)
    if character = '\n' then some ([], character :: rest)
    else if isGap character then
      if rest.head? = some '#' then some ([], character :: rest) else more
    else if character = ':' then
      if isBreakNext rest then some ([], character :: rest)
      else if inFlow && ('?' :: flowMarks).any (rest.head? = some ·) then none
      else more
    else if inFlow && flowMarks.contains character then some ([], character :: rest)
    else more

/-- The column of the first character after blank lines, where lines are as they stand. -/
def columnAfter (column : Nat) : List Char → Nat
  | [] => column
  | character :: rest =>
    if character = '\n' then columnAfter 0 rest
    else if isGap character then columnAfter (column + 1) rest
    else column

/-- The lines that continue a plain scalar: those that are indented by `floor` columns at least,
wherever they stand within a flow collection. -/
def plainRest (inFlow : Bool) (floor : Nat) : Nat → List Char → Option (List Char × List Char)
  | 0, _ => none
  | fuel + 1, characters =>
    let (breaks, next) := skipBreaks 0 characters
    let continues := breaks ≠ 0 && !next.isEmpty && next.head? ≠ some '#' &&
      (inFlow || floor ≤ columnAfter 0 characters)
    if continues then do
      let (text, after) ← plainLine? inFlow next
      if text.isEmpty then some ([], characters)
      else
        let (more, rest) ← plainRest inFlow floor fuel after
        some (folded breaks ++ trimGaps text ++ more, rest)
    else some ([], characters)

/-- A plain scalar, if one begins here. -/
def plain? (inFlow : Bool) (floor : Nat) (characters : List Char) :
    Option (Scalar × List Char) := do
  guard (isPlainStart inFlow characters)
  let (text, after) ← plainLine? inFlow characters
  let (more, rest) ← plainRest inFlow floor characters.length.succ after
  some (⟨String.ofList (trimGaps text ++ more), true⟩, rest)

/-- A scalar of any style, if one begins here. -/
def scalar? (inFlow : Bool) (floor : Nat) (characters : List Char) :
    Option (Scalar × List Char) :=
  match characters with
  | '"' :: _ | '\x27' :: _ => quoted? characters
  | _ => plain? inFlow floor characters

end SliceControl.Yaml
