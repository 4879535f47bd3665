import LedgerScript.Text.Blank

/-! Whole numbers as text. Written plainly in base ten. A text that is not plain as it
stands is read leniently: blanks around it, a plus sign, leading zeros, single underscores
between digits, and a fraction of zeros are taken away, which has to leave the plain
form. -/
namespace LedgerScript.Decimal

def natText (n : Nat) : String := String.ofList (Nat.toDigits 10 n)

def intText : Int → String
  | .ofNat n => natText n
  | .negSucc n => "-" ++ natText (n + 1)

def digitValue (c : Char) : Nat := c.toNat - '0'.toNat

def digitsValue (ds : List Char) : Nat := ds.foldl (fun n c => 10 * n + digitValue c) 0

inductive Reading where
  | number (n : Int)
  | oversized
  | malformed
deriving DecidableEq, Repr

def plainLimit : Nat := 4300

def isWritable (n : Int) : Bool := (Nat.toDigits 10 n.natAbs).length ≤ plainLimit

/-- Digits without a leading zero. Too many are found out before what follows them. -/
def magnitude (sign : Int) (cs : List Char) : Reading :=
  let ds := cs.takeWhile Char.isDigit
  if ds = [] then .malformed
  else if ds.head? = some '0' then (if cs = ['0'] then .number 0 else .malformed)
  else if plainLimit < ds.length then .oversized
  else if cs.dropWhile Char.isDigit = [] then .number (sign * Int.ofNat (digitsValue ds))
  else .malformed

/-- The plain form: digits, and a minus sign in front of a negative number. -/
def plain : List Char → Reading
  | '-' :: cs => magnitude (-1) cs
  | cs => magnitude 1 cs

/-- A plus sign says nothing, unless a minus sign follows. -/
def dropPlus : List Char → List Char
  | '+' :: '-' :: cs => '+' :: '-' :: cs
  | '+' :: cs => cs
  | cs => cs

def isStart (c : Char) : Bool := ('1' ≤ c && c ≤ '9') || c == '-'

/-- Goes on after a zero or an underscore, which is kept if a point or nothing follows. -/
def dropZerosAfter (last : Char) : List Char → Option (List Char)
  | [] => some [last]
  | c :: cs =>
    if c = '0' ∨ c = '_' then dropZerosAfter c cs
    else if c = '.' then some (last :: c :: cs)
    else if isStart c then some (c :: cs)
    else none

def dropZeros : List Char → Option (List Char)
  | [] => none
  | c :: cs =>
    if c = '0' then dropZerosAfter c cs
    else if isStart c then some (c :: cs)
    else none

/-- Drops a point and the zeros after it, of which there must be one. -/
def dropFraction (cs : List Char) : List Char :=
  let zeros := (cs.dropWhile (· ≠ '.')).drop 1
  if zeros ≠ [] ∧ zeros.all (· == '0') then cs.takeWhile (· ≠ '.') else cs

/-- Every underscore has another character on both sides. -/
def separated (cs : List Char) : Bool :=
  cs.head? ≠ some '_' && cs.getLast? ≠ some '_' &&
    (cs.zip (cs.drop 1)).all fun (a, b) => a ≠ '_' || b ≠ '_'

def dropUnderscores (cs : List Char) : List Char :=
  if separated cs then cs.filter (· ≠ '_') else cs

def unsignedToPlain? (cs : List Char) : Option (List Char) :=
  (dropZeros cs).map fun cs => dropUnderscores (dropFraction cs)

/-- What should be a plain form. A minus sign is set aside before zeros are dropped. -/
def toPlain? (cs : List Char) : Option (List Char) :=
  match dropPlus (Text.strip Text.isSpace cs) with
  | '-' :: cs => (unsignedToPlain? cs).map ('-' :: ·)
  | cs => unsignedToPlain? cs

/-- Too many digits are an error of its own only where nothing had to be taken away. -/
def readInt (s : String) : Reading :=
  match plain s.toList with
  | .malformed =>
    match (toPlain? s.toList).map plain with
    | some (.number n) => .number n
    | _ => .malformed
  | r => r

end LedgerScript.Decimal
