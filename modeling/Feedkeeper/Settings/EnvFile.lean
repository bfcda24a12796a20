import Feedkeeper.Settings.Environment
import Feedkeeper.Text.Blank

/-!
# Plain environment files

A loader for files of lines `KEY=VALUE` that are plain : valid text without a zero character, and
without the dollar sign by which a value takes up other variables. It loads no other file
(`EnvFile.text?`).

A value may be quoted, and a quoted value may hold line ends, so lines are first joined: a machine
over the characters of a line says whether the line ends inside quotes, and whether a comment cuts
it short. Each joined line is then read on its own (`EnvFile.entries`). A variable is set only if it
has no valid text yet, and the first bad line ends the file (`EnvFile.assign`).
-/

namespace Feedkeeper

namespace EnvFile

/-! ## Joining lines -/

/-- Where a line stands after a character. -/
inductive Mark where
  | plain
  /-- Behind a blank, where a comment may begin. -/
  | blank
  | escaped
  | single
  | singleEscaped
  | double
  | doubleEscaped
  deriving DecidableEq, Repr

/-- The mark after one more character; nothing if the character begins a comment. -/
def Mark.next? : Mark → Char → Option Mark
  | .blank, '#' => none
  | .blank, '\\' | .plain, '\\' => some .escaped
  | .blank, '"' | .plain, '"' => some .double
  | .blank, '\x27' | .plain, '\x27' => some .single
  | .blank, _ => some .plain
  | .plain, c => some (if Text.isBlank c ∧ c ≠ '\n' ∧ c ≠ '\r' then .blank else .plain)
  | .escaped, _ => some .plain
  | .double, '\\' => some .doubleEscaped
  | .double, '"' => some .plain
  | .double, _ | .doubleEscaped, _ => some .double
  | .single, '\\' => some .singleEscaped
  | .single, '\x27' => some .plain
  | .single, _ | .singleEscaped, _ => some .single

/-- What the characters of a line lead to. -/
inductive Extent where
  | upTo (mark : Mark)
  /-- A comment, with what stands before it. -/
  | comment (kept : List Char)

/-- What the characters lead to from a mark. -/
def extent (mark : Mark) : List Char → Extent
  | [] => .upTo mark
  | c :: rest =>
    match mark.next? c with
    | none => .comment []
    | some mark =>
      match extent mark rest with
      | .upTo mark => .upTo mark
      | .comment kept => .comment (c :: kept)

/-- The lines of a text, each with its line end. -/
def lines : List Char → List (List Char)
  | [] => []
  | c :: rest =>
    if c = '\n' then [c] :: lines rest
    else match lines rest with
      | [] => [[c]]
      | line :: others => (c :: line) :: others

/-- A line without its line end. -/
def chomp (line : List Char) : List Char :=
  match line.reverse with
  | '\n' :: '\r' :: rest => rest.reverse
  | '\n' :: rest => rest.reverse
  | _ => line

/-- The joined lines, given what is open before them. A line that the file leaves open is bad, and
stands as `none`. -/
def join (opened : List Char) (mark : Mark) : List (List Char) → List (Option (List Char))
  | [] => if mark = .plain then [] else [none]
  | line :: rest =>
    let whole := opened ++ line
    if (Text.skipBlanks whole).head? = some '#' then some [] :: join [] .plain rest
    else match extent mark line with
      | .comment kept => some (opened ++ kept) :: join [] .plain rest
      | .upTo .plain => some (chomp whole) :: join [] .plain rest
      | .upTo mark => join whole mark rest

/-! ## Reading a line -/

/-- The characters that a key may begin with. -/
def isKeyStart (c : Char) : Bool :=
  c.isAlpha || c = '_'

/-- The characters that a key may hold. -/
def isKeyChar (c : Char) : Bool :=
  c.isAlphanum || c = '_' || c = '.'

/-- A key, and what follows it and the blanks behind it. -/
def key? : List Char → Option (List Char × List Char)
  | [] => none
  | c :: rest =>
    if isKeyStart c then
      some (c :: rest.takeWhile isKeyChar, Text.skipBlanks (rest.dropWhile isKeyChar))
    else none

/-- What follows an equals sign. -/
def afterEquals? : List Char → Option (List Char)
  | '=' :: rest => some rest
  | _ => none

/-- The quotes that a value is within. -/
inductive Quote where
  | none
  | single
  | double
  /-- Behind a value that is not quoted, where only blanks and a comment may follow. -/
  | ended
  deriving DecidableEq, Repr

/-- The character that an escape stands for. -/
def unescape? (c : Char) : Option Char :=
  if c = '\\' ∨ c = '\x27' ∨ c = '"' ∨ c = '$' ∨ c = ' ' then some c
  else if c = 'n' then some '\n'
  else none

/-- The value of the characters: quotes may begin and end anywhere in it, a blank outside of them
ends it, and a backslash escapes the next character except in single quotes. -/
def value? : Quote → List Char → Option (List Char)
  | .none, [] | .ended, [] => some []
  | .single, [] | .double, [] => none
  | .ended, c :: rest =>
    if c = ' ' ∨ c = '\t' then value? .ended rest
    else if c = '#' then some []
    else none
  | .single, c :: rest =>
    if c = '\x27' then value? .none rest else (value? .single rest).map (c :: ·)
  | quote, '\\' :: c :: rest => do
    let c ← unescape? c
    return c :: (← value? quote rest)
  | .double, c :: rest =>
    if c = '"' then value? .none rest
    else if c = '\\' then none
    else (value? .double rest).map (c :: ·)
  | .none, c :: rest =>
    if c = '\x27' then value? .single rest
    else if c = '"' then value? .double rest
    else if c = '\\' then value? .none rest
    else if c = ' ' ∨ c = '\t' then value? .ended rest
    else (value? .none rest).map (c :: ·)

/-- The value behind the equals sign. -/
def assigned? (chars : List Char) : Option (List Char) :=
  let chars := Text.skipBlanks chars
  if chars = [] ∨ chars.head? = some '#' then some [] else value? .none chars

/-- An assignment: a key, possibly behind the word `export`, and its value. -/
def assignment? (chars : List Char) : Option (String × String) := do
  let (key, rest) ← key? chars
  let (key, rest) ← match afterEquals? rest with
    | some rest => some (key, rest)
    | none =>
      if key = "export".toList then
        (key? rest).bind fun (key, rest) => (afterEquals? rest).map (key, ·)
      else none
  return (String.ofList key, String.ofList (← assigned? rest))

/-- A line without the blanks around it. -/
def trim (line : List Char) : List Char :=
  (Text.skipBlanks (Text.skipBlanks line).reverse).reverse

/-- What the joined lines assign, in order, and `none` for a bad one. -/
def entries : List (Option (List Char)) → List (Option (String × String))
  | [] => []
  | none :: rest => none :: entries rest
  | some line :: rest =>
    let line := trim line
    if line = [] ∨ line.head? = some '#' then entries rest else assignment? line :: entries rest

/-- The text without a byte order mark. -/
def withoutMark : List Char → List Char
  | '\uFEFF' :: rest => rest
  | chars => chars

/-! ## Loading a file -/

/-- The text of a plain file, which is empty if there is no file; nothing if the file is not
plain. -/
def text? (environment : Environment) : Option String :=
  match environment.file with
  | none => some ""
  | some bytes =>
    (String.fromUTF8? bytes).filter fun text => text.toList.all fun c => c ≠ '$' ∧ c ≠ '\x00'

/-- What the lines of a text assign, in order, and `none` for a bad one. -/
def ofText (text : String) : List (Option (String × String)) :=
  entries (join [] .plain (lines (withoutMark text.toList)))

/-- The variables after assignments up to the first bad line, which set no variable that has valid
text. -/
def assign (vars : Variables) : List (Option (String × String)) → Variables
  | some (name, value) :: rest =>
    assign (if (vars.text? name).isSome then vars else (name, value.toUTF8) :: vars) rest
  | _ => vars

/-- The loader of plain files. -/
def dotenv : Dotenv where
  lines environment := ((text? environment).map ofText).getD []
  load environment := (text? environment).map fun text => assign environment.vars (ofText text)

end EnvFile

end Feedkeeper
