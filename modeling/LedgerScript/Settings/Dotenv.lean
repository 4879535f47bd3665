import LedgerScript.Settings.File
import LedgerScript.Text.Blank

/-! Assignments in a settings file, one a line: an optional `export`, a name, an equals
sign and a value, which may stand in quotes and may then hold line ends. A line that
does not fit is passed over from the place where it stops fitting. A name alone is an
assignment of nothing. -/
namespace LedgerScript.Dotenv

abbrev Assignment := String × Option String

abbrev Step (α : Type) := Option α × List Char

def unifyLines : List Char → List Char
  | '\r' :: '\n' :: cs => '\n' :: unifyLines cs
  | '\r' :: cs => '\n' :: unifyLines cs
  | c :: cs => c :: unifyLines cs
  | [] => []

def dropMark : List Char → List Char
  | '\uFEFF' :: cs => cs
  | cs => cs

def isGap (c : Char) : Bool := Text.isBlank c && c ≠ '\n'

def skipGap (cs : List Char) : List Char := cs.dropWhile isGap

def isLineEnd (c : Char) : Bool := c = '\n'

def nextLine (cs : List Char) : List Char := (cs.dropWhile (!isLineEnd ·)).drop 1

def skipExport (cs : List Char) : List Char :=
  let rest := cs.drop 6
  if "export".toList.isPrefixOf cs ∧ (rest.head?.map isGap).getD false then skipGap rest else cs

def isNameChar (c : Char) : Bool := c ≠ '=' && c ≠ '#' && !Text.isBlank c

/-- A name in single quotes or up to the first character that no name holds. -/
def name (cs : List Char) : Step String :=
  if cs.head? = some '\x27' then
    let inner := (cs.drop 1).takeWhile (· ≠ '\x27')
    let rest := (cs.drop 1).dropWhile (· ≠ '\x27')
    if inner = [] ∨ rest = [] then (none, cs) else (some (String.ofList inner), rest.drop 1)
  else
    let inner := cs.takeWhile isNameChar
    if inner = [] then (none, cs) else (some (String.ofList inner), cs.dropWhile isNameChar)

/-- The text up to the closing quote, the last character first. What follows a backslash
does not close. -/
def quotedBody (q : Char) : List Char → List Char → Option (List Char × List Char)
  | _, [] => none
  | acc, c :: cs =>
    if c = q then some (acc, cs)
    else if c = '\\' then
      match cs with
      | d :: ds => quotedBody q (d :: c :: acc) ds
      | [] => none
    else quotedBody q (c :: acc) cs

/-- The character that a backslash and a letter stand for; single quotes know only the
backslash and the quote. -/
def escaped? (q c : Char) : Option Char :=
  if c = '\\' ∨ c = '\x27' then some c
  else if q = '\x27' then none
  else
    [('\x22', '\x22'), ('a', '\x07'), ('b', '\x08'), ('f', '\x0c'), ('n', '\n'), ('r', '\r'),
     ('t', '\t'), ('v', '\x0b')].lookup c

/-- A backslash that starts no known pair stands for itself. -/
def unescape (q : Char) : List Char → List Char
  | '\\' :: c :: cs =>
    match escaped? q c with
    | some d => d :: unescape q cs
    | none => '\\' :: c :: unescape q cs
  | c :: cs => c :: unescape q cs
  | [] => []

/-- A value without quotes ends before a blank and a number sign. -/
def cutComment : List Char → List Char
  | [] => []
  | c :: cs =>
    if Text.isBlank c ∧ (cs.dropWhile Text.isBlank).head? = some '#' then []
    else c :: cutComment cs

def value (cs : List Char) : Step String :=
  let opened := skipGap cs
  match opened.head?.filter (fun q => q = '\x27' || q = '\x22') with
  | some q =>
    match quotedBody q [] (opened.drop 1) with
    | some (acc, rest) => (some (String.ofList (unescape q acc.reverse)), rest)
    | none => (none, opened)
  | none =>
    let line := cs.takeWhile (!isLineEnd ·)
    (some (String.ofList (Text.strip Text.isBlank (cutComment line))),
      cs.dropWhile (!isLineEnd ·))

def assigned (cs : List Char) : Step (Option String) :=
  if cs.head? = some '=' then
    let (v, rest) := value (cs.drop 1)
    (v.map some, rest)
  else (some none, cs)

def lineDone (cs : List Char) : Bool :=
  let c := (skipGap cs).head?
  c = none || c = some '\n' || c = some '#'

def assignment (cs : List Char) : Step Assignment :=
  match name (skipExport cs) with
  | (none, rest) => (none, nextLine rest)
  | (some n, rest) =>
    match assigned (skipGap rest) with
    | (none, rest) => (none, nextLine rest)
    | (some v, rest) => (if lineDone rest then some (n, v) else none, nextLine rest)

def assignments : Nat → List Char → List Assignment
  | 0, _ => []
  | n + 1, cs =>
    match cs.dropWhile Text.isBlank with
    | [] => []
    | cs =>
      let (a, rest) := assignment cs
      a.toList ++ assignments n rest

/-- Every line takes a character, so the length of the text bounds their number. -/
def read (s : String) : List Assignment :=
  assignments (s.length + 1) (dropMark (unifyLines s.toList))

/-- A reference to a variable: its name, the text that stands in for it, and how many
characters the reference takes. -/
structure Reference where
  name : String
  fallback : String
  size : Nat

/-- A name in braces after a dollar sign. After `:-` the text up to the closing brace
stands in. -/
def reference? : List Char → Option Reference
  | '$' :: '\x7b' :: cs =>
    let name := cs.takeWhile fun c => c ≠ '\x7d' && c ≠ ':'
    match cs.dropWhile fun c => c ≠ '\x7d' && c ≠ ':' with
    | '\x7d' :: _ => some ⟨String.ofList name, "", name.length + 3⟩
    | ':' :: '-' :: rest =>
      let fallback := rest.takeWhile (· ≠ '\x7d')
      if fallback.length < rest.length then
        some ⟨String.ofList name, String.ofList fallback, name.length + fallback.length + 5⟩
      else none
    | _ => none
  | _ => none

/-- The text with every reference replaced; the first `skip` characters are passed over. -/
def expand (resolve : Reference → String) (skip : Nat) : List Char → List Char
  | [] => []
  | c :: cs =>
    match skip with
    | k + 1 => expand resolve k cs
    | 0 =>
      match reference? (c :: cs) with
      | some r => (resolve r).toList ++ expand resolve (r.size - 1) cs
      | none => c :: expand resolve 0 cs

/-- The file comes before the environment, and a name without a value gives nothing. -/
def resolve (env : Environment) (done : Variables (Option String)) (r : Reference) : String :=
  match done.named? r.name with
  | some v => v.getD ""
  | none => (env.named? r.name).getD r.fallback

def perform (env : Environment) (done : Variables (Option String)) :
    List Assignment → Variables (Option String)
  | [] => done
  | (name, value) :: rest =>
    let value := value.map fun v => String.ofList (expand (resolve env done) 0 v.toList)
    perform env (done.set name value) rest

def definitions (env : Environment) (s : String) : Variables (Option String) :=
  perform env [] (read s)

end LedgerScript.Dotenv

namespace LedgerScript

def SettingsFile.ofText (s : String) : SettingsFile := .text fun env => Dotenv.definitions env s

instance : Coe String SettingsFile := ⟨.ofText⟩

end LedgerScript
