import SliceControl.Text.Numeral
import SliceControl.Text.Sha256

/-!
# Slice names

A slice is named after the replica that it backs. Namespace, job, group and index are joined by
hyphens if the name is short enough and can be taken apart again, which is so when every part
consists of lower-case letters and digits. Any other replica gets a name of at most 54 characters
with everything else replaced by hyphens, followed by eight letters drawn from a digest of the
replica's own key. A plain name ends in a digit and a hashed one in a letter.
-/

namespace SliceControl

open Text

/-- The replica that a slice backs. -/
structure SliceKey where
  namespaceName : String
  job : String
  group : String
  index : Nat
  deriving DecidableEq

namespace SliceKey

/-- The longest name that a resource may have. -/
def maxLength : Nat := 63

/-- The number of letters drawn from the digest. -/
def digestLength : Nat := 8

/-- The longest name before the digest. -/
def maxStem : Nat := maxLength - digestLength - 1

/-- The parts of the key joined by `separator`. -/
def join (key : SliceKey) (separator : Char) : List Char :=
  key.namespaceName.toList ++ separator :: key.job.toList ++ separator :: key.group.toList ++
    separator :: Numeral.digits key.index

/-- The text that tells replicas apart. -/
def write (key : SliceKey) : String := String.ofList (key.join '/')

def isPlainChar (character : Char) : Bool := character.isLower || character.isDigit

/-- Lower-case letters and digits, at least one, so that a hyphen can only be a separator. -/
def isPlainPart (part : String) : Bool := !part.toList.isEmpty && part.toList.all isPlainChar

def isPlain (key : SliceKey) : Bool :=
  isPlainPart key.namespaceName && isPlainPart key.job && isPlainPart key.group &&
    (key.join '-').length ≤ maxLength

/-- Lower case for ASCII letters, digits as they are, and a hyphen for everything else. -/
def sanitizeChar (character : Char) : Char :=
  if character.isAlphanum then character.toLower else '-'

/-- Drops hyphens at the end. -/
def trimHyphens (characters : List Char) : List Char :=
  (characters.reverse.dropWhile (· = '-')).reverse

/-- What stands before the digest in a hashed name. -/
def stem (key : SliceKey) : List Char :=
  trimHyphens (((key.join '-').map sanitizeChar).take maxStem)

def letter (byte : UInt8) : Char := Char.ofNat (97 + byte.toNat % 26)

/-- One letter for each of the first bytes of the digest of the key. -/
def digest (key : SliceKey) : List Char :=
  ((Sha256.digest key.write.toUTF8.toList).take digestLength).map letter

/-- The name of the slice that backs the replica. -/
def sliceName (key : SliceKey) : String :=
  if key.isPlain then String.ofList (key.join '-')
  else String.ofList (key.stem ++ '-' :: key.digest)

end SliceKey

end SliceControl
