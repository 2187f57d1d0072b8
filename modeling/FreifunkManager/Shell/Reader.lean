/-! # Reading a command text as a POSIX shell does

Token recognition of the shell command language, one character at a time: quoting with
backslash, single and double quotes, comments, control and redirection operators, and the extent
of expansions. Expansions are delimited but not performed: a word that contains one keeps its
source text, since what it stands for depends on the running shell. The text ends at its first
NUL, as every C string does; an unclosed quote or expansion makes it unreadable.
-/

namespace Shell

/-- A part of a word: one character that stands for itself, or the source of an expansion. -/
inductive Piece where
  | literal (c : Char)
  | expansion (source : List Char)
deriving DecidableEq

/-- An operator of several characters, such as `&&`, is read as its single characters. -/
inductive Token where
  | word (pieces : List Piece)
  | operator (c : Char)
deriving DecidableEq

/-- What has to be closed before an expansion ends. -/
inductive Bracket where
  | paren | brace | backquote | single | double
deriving DecidableEq

/-- What the next character means. `quoted` tells whether double quotes are open around it. -/
inductive Mode where
  | plain
  | single
  | double
  | escape (quoted : Bool)
  | comment
  | dollar (quoted : Bool)
  | name (quoted : Bool) (source : List Char)
  | capture (quoted : Bool) (opened : List Bracket) (previous : Option Char) (source : List Char)
deriving DecidableEq

/-- The tokens so far and the pieces of the word being read, both with the latest first. -/
structure Scanner where
  tokens : List Token
  word : Option (List Piece)
  mode : Mode
deriving DecidableEq

def isOperator (c : Char) : Bool := c ∈ ['\n', ';', '&', '|', '<', '>', '(', ')']

/-- A character of a parameter name. -/
def isName (c : Char) : Bool := c.isAlphanum || c == '_'

/-- Digits and the special parameters: names of one character. -/
def isSpecial (c : Char) : Bool := c.isDigit || c ∈ ['*', '@', '#', '?', '-', '$', '!']

namespace Scanner

def start : Scanner := { tokens := [], word := none, mode := .plain }

def push (s : Scanner) (piece : Piece) : Scanner := { s with word := some (piece :: s.word.getD []) }

/-- Begin a word, if none is being read: even an empty pair of quotes makes one. -/
def quote (s : Scanner) : Scanner := { s with word := some (s.word.getD []) }

/-- End the word being read. -/
def flush (s : Scanner) : Scanner :=
  match s.word with
  | some pieces => { s with tokens := .word pieces.reverse :: s.tokens, word := none }
  | none => s

def operator (s : Scanner) (c : Char) : Scanner :=
  { s.flush with tokens := .operator c :: s.flush.tokens }

/-- A character outside of all quotes. -/
def plain (s : Scanner) (c : Char) : Scanner :=
  if c = '\'' then { s.quote with mode := .single }
  else if c = '"' then { s.quote with mode := .double }
  else if c = '\\' then { s with mode := .escape false }
  else if c = '$' then { s with mode := .dollar false }
  else if c = '`' then { s with mode := .capture false [.backquote] none [c] }
  else if c = ' ' ∨ c = '\t' then { s.flush with mode := .plain }
  else if isOperator c then { s.operator c with mode := .plain }
  else if c = '#' ∧ s.word = none then { s with mode := .comment }
  else { s.push (.literal c) with mode := .plain }

/-- A character between double quotes. -/
def quoted (s : Scanner) (c : Char) : Scanner :=
  if c = '"' then { s with mode := .plain }
  else if c = '\\' then { s with mode := .escape true }
  else if c = '$' then { s with mode := .dollar true }
  else if c = '`' then { s with mode := .capture true [.backquote] none [c] }
  else { s.push (.literal c) with mode := .double }

/-- A character after an expansion without a closing bracket. -/
def resume (s : Scanner) (between : Bool) (c : Char) : Scanner :=
  if between then s.quoted c else s.plain c

/-- The mode around a part that began between double quotes or not. -/
def outer (between : Bool) : Mode := if between then .double else .plain

/-- The open brackets after one more character of an expansion; a character after a backslash
changes nothing, nor does anything but the closing quote between single quotes. -/
def nest (previous : Option Char) (c : Char) : List Bracket → List Bracket
  | .single :: rest => if c = '\'' then rest else .single :: rest
  | opened =>
    if previous = some '\\' then opened
    else match opened, c with
    | .backquote :: rest, '`' => rest
    | .backquote :: rest, _ => .backquote :: rest
    | .double :: rest, '"' => rest
    | .paren :: rest, ')' => rest
    | .brace :: rest, '}' => rest
    | .double :: rest, '\'' => .double :: rest
    | opened, '\'' => .single :: opened
    | opened, '"' => .double :: opened
    | opened, '`' => .backquote :: opened
    | .paren :: rest, '(' => .paren :: .paren :: rest
    | opened, '(' => if previous = some '$' then .paren :: opened else opened
    | opened, '{' => if previous = some '$' then .brace :: opened else opened
    | opened, _ => opened

def step (s : Scanner) (c : Char) : Scanner :=
  match s.mode with
  | .plain => s.plain c
  | .double => s.quoted c
  | .single => if c = '\'' then { s with mode := .plain } else s.push (.literal c)
  | .escape between =>
    if c = '\n' then { s with mode := outer between }
    else if between ∧ c ∉ ['$', '`', '"', '\\'] then
      { (s.push (.literal '\\')).push (.literal c) with mode := outer between }
    else { s.push (.literal c) with mode := outer between }
  | .comment => if c = '\n' then { s.operator c with mode := .plain } else s
  | .dollar between =>
    if c = '(' then { s with mode := .capture between [.paren] none [c] }
    else if c = '{' then { s with mode := .capture between [.brace] none [c] }
    else if isSpecial c then { s.push (.expansion [c]) with mode := outer between }
    else if isName c then { s with mode := .name between [c] }
    else (s.push (.literal '$')).resume between c
  | .name between source =>
    if isName c then { s with mode := .name between (c :: source) }
    else (s.push (.expansion source.reverse)).resume between c
  | .capture between opened previous source =>
    match nest previous c opened with
    | [] => { s.push (.expansion (c :: source).reverse) with mode := outer between }
    | opened =>
      let previous := if previous = some '\\' then none else some c
      { s with mode := .capture between opened previous (c :: source) }

def scan (s : Scanner) (text : List Char) : Scanner := text.foldl step s

/-- The tokens at the end of the text, unless something is still open. -/
def finish (s : Scanner) : Option (List Token) :=
  match s.mode with
  | .plain | .comment => some s.flush.tokens.reverse
  | .escape false => some (s.push (.literal '\\')).flush.tokens.reverse
  | .dollar false => some (s.push (.literal '$')).flush.tokens.reverse
  | .name false source => some (s.push (.expansion source.reverse)).flush.tokens.reverse
  | _ => none

end Scanner

/-- The tokens of a text without NUL. -/
def tokenize (text : List Char) : Option (List Token) := (Scanner.start.scan text).finish

/-- The simple commands of a token list, with their redirections: what stands between semicolons
and newlines. -/
def commands (tokens : List Token) : List (List Token) :=
  (tokens.splitOnP fun token => token == .operator ';' || token == .operator '\n').filter (· ≠ [])

/-- The commands of a text, when the shell can read it. -/
def read (text : String) : Option (List (List Token)) :=
  (tokenize (text.toList.takeWhile (· ≠ '\x00'))).map commands

/-- The word whose characters all stand for themselves. -/
def Token.text (chars : List Char) : Token := .word (chars.map .literal)

def Piece.char? : Piece → Option Char
  | .literal c => some c
  | .expansion _ => none

/-- The characters of a word without expansions. -/
def Token.chars? : Token → Option (List Char)
  | .word pieces => pieces.mapM Piece.char?
  | .operator _ => none

theorem Token.chars?_text (chars : List Char) : (Token.text chars).chars? = some chars := by
  induction chars with
  | nil => rfl
  | cons c chars ih =>
    simp only [text, chars?] at ih
    rw [text, chars?, List.map_cons, List.mapM_cons, ih]
    rfl

theorem Token.chars?_eq_some {token : Token} {chars : List Char} (literal : token.chars? = some chars) :
    token = Token.text chars := by
  cases token with
  | operator c => contradiction
  | word pieces =>
    rw [chars?] at literal
    rw [text, word.injEq]
    induction pieces generalizing chars with
    | nil =>
      cases literal
      rfl
    | cons piece pieces ih =>
      rw [List.mapM_cons] at literal
      obtain ⟨c, first, literal⟩ := Option.bind_eq_some_iff.mp literal
      obtain ⟨rest, read, same⟩ := Option.bind_eq_some_iff.mp literal
      cases same
      cases piece with
      | expansion source => contradiction
      | literal d =>
        cases first
        rw [List.map_cons, ih read]

end Shell
