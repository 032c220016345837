/-!
Contract: the kinds of tokens in attribute source.

Owns:
- the kinds, their names and the words that messages use for them;
- the spellings of punctuation, of one and of two characters.

Does not own: which characters make up words and literals.
-/

namespace AttrGrammar

inductive TokenKind where
  | ident
  | lifetime
  | int
  | float
  | str
  | byteStr
  | char
  | byte
  | lparen
  | rparen
  | lbracket
  | rbracket
  | lbrace
  | rbrace
  | langle
  | rangle
  | equals
  | comma
  | dot
  | dotDot
  | colon
  | pathSep
  | semi
  | arrow
  | fatArrow
  | pound
  | question
  | atSign
  | eqEq
  | notEq
  | lessEq
  | greaterEq
  | plus
  | minus
  | star
  | slash
  | percent
  | caret
  | amp
  | pipe
  | bang
  | shiftLeft
  | andAnd
  | orOr
  | eof
deriving DecidableEq, Repr

namespace TokenKind

def name : TokenKind → String
  | ident => "IDENT"
  | lifetime => "LIFETIME"
  | int => "INT"
  | float => "FLOAT"
  | str => "STR"
  | byteStr => "BYTE_STR"
  | char => "CHAR"
  | byte => "BYTE"
  | lparen => "LPAREN"
  | rparen => "RPAREN"
  | lbracket => "LBRACKET"
  | rbracket => "RBRACKET"
  | lbrace => "LBRACE"
  | rbrace => "RBRACE"
  | langle => "LANGLE"
  | rangle => "RANGLE"
  | equals => "EQUALS"
  | comma => "COMMA"
  | dot => "DOT"
  | dotDot => "DOTDOT"
  | colon => "COLON"
  | pathSep => "PATHSEP"
  | semi => "SEMI"
  | arrow => "ARROW"
  | fatArrow => "FATARROW"
  | pound => "POUND"
  | question => "QUESTION"
  | atSign => "AT"
  | eqEq => "EQ"
  | notEq => "NEQ"
  | lessEq => "LTE"
  | greaterEq => "GTE"
  | plus => "PLUS"
  | minus => "MINUS"
  | star => "STAR"
  | slash => "SLASH"
  | percent => "PERCENT"
  | caret => "CARET"
  | amp => "AMP"
  | pipe => "PIPE"
  | bang => "BANG"
  | shiftLeft => "SHL"
  | andAnd => "ANDAND"
  | orOr => "OROR"
  | eof => "EOF"

/-- All kinds, in the order of their declaration. -/
def all : List TokenKind :=
  [ident, lifetime, int, float, str, byteStr, char, byte, lparen, rparen, lbracket, rbracket,
    lbrace, rbrace, langle, rangle, equals, comma, dot, dotDot, colon, pathSep, semi, arrow,
    fatArrow, pound, question, atSign, eqEq, notEq, lessEq, greaterEq, plus, minus, star, slash,
    percent, caret, amp, pipe, bang, shiftLeft, andAnd, orOr, eof]

def ofName? (text : String) : Option TokenKind :=
  all.find? fun kind => kind.name = text

theorem mem_all (kind : TokenKind) : kind ∈ all := by
  cases kind <;> decide

theorem ofName?_name (kind : TokenKind) : ofName? kind.name = some kind := by
  cases kind <;> decide

/-- Punctuation of two characters. -/
def ofPair? : Char → Char → Option TokenKind
  | ':', ':' => some pathSep
  | '-', '>' => some arrow
  | '=', '>' => some fatArrow
  | '=', '=' => some eqEq
  | '!', '=' => some notEq
  | '<', '=' => some lessEq
  | '>', '=' => some greaterEq
  | '<', '<' => some shiftLeft
  | '&', '&' => some andAnd
  | '|', '|' => some orOr
  | '.', '.' => some dotDot
  | _, _ => none

def ofChar? : Char → Option TokenKind
  | '(' => some lparen
  | ')' => some rparen
  | '[' => some lbracket
  | ']' => some rbracket
  | '{' => some lbrace
  | '}' => some rbrace
  | '<' => some langle
  | '>' => some rangle
  | '=' => some equals
  | ',' => some comma
  | '.' => some dot
  | ':' => some colon
  | ';' => some semi
  | '#' => some pound
  | '?' => some question
  | '@' => some atSign
  | '+' => some plus
  | '-' => some minus
  | '*' => some star
  | '/' => some slash
  | '%' => some percent
  | '^' => some caret
  | '&' => some amp
  | '|' => some pipe
  | '!' => some bang
  | _ => none

/-- The characters of a kind that has one spelling only: none for words, literals and the end. -/
def spelling : TokenKind → List Char
  | ident | lifetime | int | float | str | byteStr | char | byte | eof => []
  | lparen => ['(']
  | rparen => [')']
  | lbracket => ['[']
  | rbracket => [']']
  | lbrace => ['\x7b']
  | rbrace => ['\x7d']
  | langle => ['<']
  | rangle => ['>']
  | equals => ['=']
  | comma => [',']
  | dot => ['.']
  | dotDot => ['.', '.']
  | colon => [':']
  | pathSep => [':', ':']
  | semi => [';']
  | arrow => ['-', '>']
  | fatArrow => ['=', '>']
  | pound => ['#']
  | question => ['?']
  | atSign => ['@']
  | eqEq => ['=', '=']
  | notEq => ['!', '=']
  | lessEq => ['<', '=']
  | greaterEq => ['>', '=']
  | plus => ['+']
  | minus => ['-']
  | star => ['*']
  | slash => ['/']
  | percent => ['%']
  | caret => ['^']
  | amp => ['&']
  | pipe => ['|']
  | bang => ['!']
  | shiftLeft => ['<', '<']
  | andAnd => ['&', '&']
  | orOr => ['|', '|']

/-- What messages call a kind: punctuation is shown as it is spelled. -/
def description : TokenKind → String
  | ident => "identifier"
  | lifetime => "lifetime"
  | int => "integer literal"
  | float => "float literal"
  | str => "string literal"
  | byteStr => "byte string literal"
  | char => "character literal"
  | byte => "byte literal"
  | eof => "end of input"
  | kind => "`" ++ String.ofList kind.spelling ++ "`"

/-- Whether the tokens of a kind are literals by themselves. The words `true` and `false` are literals of
kind `ident`. -/
def isLiteral : TokenKind → Bool
  | int | float | str | byteStr | char | byte => true
  | _ => false

theorem spelling_ofChar? {c : Char} {kind : TokenKind} (found : ofChar? c = some kind) :
    kind.spelling = [c] := by
  unfold ofChar? at found
  split at found <;> simp_all <;> subst found <;> rfl

theorem spelling_ofPair? {c d : Char} {kind : TokenKind} (found : ofPair? c d = some kind) :
    kind.spelling = [c, d] := by
  unfold ofPair? at found
  split at found <;> simp_all <;> subst found <;> rfl

end TokenKind

end AttrGrammar
