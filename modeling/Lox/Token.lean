/-!
Contract: tokens of Lox source text.

Owns:
- punctuation and operators (`Symbol`) and reserved words (`Keyword`), with
  their spellings and their names in token listings;
- `TokenKind`, in which string and number tokens carry their value;
- `Token`, a kind with the text it was read from and the line it starts on.

Does not own: reading tokens from a source, or writing them out.
-/

namespace Lox

/-- Punctuation and operators. -/
inductive Symbol where
  | leftParen
  | rightParen
  | leftBrace
  | rightBrace
  | comma
  | dot
  | minus
  | plus
  | semicolon
  | slash
  | star
  | bang
  | bangEqual
  | equal
  | equalEqual
  | greater
  | greaterEqual
  | less
  | lessEqual
deriving DecidableEq, Repr

namespace Symbol

/-- The name of a symbol in a token listing. -/
def name : Symbol → String
  | leftParen => "LEFT_PAREN"
  | rightParen => "RIGHT_PAREN"
  | leftBrace => "LEFT_BRACE"
  | rightBrace => "RIGHT_BRACE"
  | comma => "COMMA"
  | dot => "DOT"
  | minus => "MINUS"
  | plus => "PLUS"
  | semicolon => "SEMICOLON"
  | slash => "SLASH"
  | star => "STAR"
  | bang => "BANG"
  | bangEqual => "BANG_EQUAL"
  | equal => "EQUAL"
  | equalEqual => "EQUAL_EQUAL"
  | greater => "GREATER"
  | greaterEqual => "GREATER_EQUAL"
  | less => "LESS"
  | lessEqual => "LESS_EQUAL"

/-- The symbol that a single character stands for. -/
def ofChar? : Char → Option Symbol
  | '(' => some leftParen
  | ')' => some rightParen
  | '{' => some leftBrace
  | '}' => some rightBrace
  | ',' => some comma
  | '.' => some dot
  | '-' => some minus
  | '+' => some plus
  | ';' => some semicolon
  | '/' => some slash
  | '*' => some star
  | '!' => some bang
  | '=' => some equal
  | '>' => some greater
  | '<' => some less
  | _ => none

/-- The symbol that an equals sign after a symbol makes of the two. -/
def withEqual? : Symbol → Option Symbol
  | bang => some bangEqual
  | equal => some equalEqual
  | greater => some greaterEqual
  | less => some lessEqual
  | _ => none

/-- All symbols, each once. -/
def all : List Symbol :=
  [leftParen, rightParen, leftBrace, rightBrace, comma, dot, minus, plus, semicolon,
    slash, star, bang, bangEqual, equal, equalEqual, greater, greaterEqual, less, lessEqual]

end Symbol

/-- Reserved words. -/
inductive Keyword where
  | and
  | «class»
  | else
  | false
  | fun
  | for
  | if
  | nil
  | or
  | print
  | return
  | super
  | this
  | true
  | var
  | while
deriving DecidableEq, Repr

namespace Keyword

/-- How a reserved word is written in a source. -/
def spelling : Keyword → String
  | .and => "and"
  | .class => "class"
  | .else => "else"
  | .false => "false"
  | .fun => "fun"
  | .for => "for"
  | .if => "if"
  | .nil => "nil"
  | .or => "or"
  | .print => "print"
  | .return => "return"
  | .super => "super"
  | .this => "this"
  | .true => "true"
  | .var => "var"
  | .while => "while"

/-- All reserved words, each once. -/
def all : List Keyword :=
  [.and, .class, .else, .false, .fun, .for, .if, .nil, .or, .print, .return, .super, .this,
    .true, .var, .while]

/-- The reserved word with a spelling. -/
def ofSpelling? (text : String) : Option Keyword :=
  all.find? (·.spelling = text)

/-- The name of a reserved word in a token listing. -/
def name (keyword : Keyword) : String :=
  keyword.spelling.toUpper

end Keyword

/-- What a token is. -/
inductive TokenKind where
  | symbol (symbol : Symbol)
  | keyword (keyword : Keyword)
  | identifier
  /-- A string token, with the text between its quotes. -/
  | string (contents : String)
  /-- A number token, with the number it denotes. -/
  | number (value : Float)
  /-- The end of a source. -/
  | eof
deriving DecidableEq

/-- The name of a kind in a token listing. -/
def TokenKind.name : TokenKind → String
  | .symbol found => found.name
  | .keyword found => found.name
  | .identifier => "IDENTIFIER"
  | .string _ => "STRING"
  | .number _ => "NUMBER"
  | .eof => "EOF"

/-- A token with the text it was read from and the line, counted from one, on
which that text starts. -/
structure Token where
  kind : TokenKind
  lexeme : String
  line : Nat
deriving DecidableEq

namespace Token

/-- Whether a token is the end of a source. -/
def isEof (token : Token) : Bool :=
  match token.kind with
  | .eof => true
  | _ => false

/-- Whether a token is the given symbol. -/
def isSymbol (symbol : Symbol) (token : Token) : Bool :=
  match token.kind with
  | .symbol found => found == symbol
  | _ => false

/-- Whether a token is the given reserved word. -/
def isKeyword (keyword : Keyword) (token : Token) : Bool :=
  match token.kind with
  | .keyword found => found == keyword
  | _ => false

/-- Whether a token is a name. -/
def isIdentifier (token : Token) : Bool :=
  match token.kind with
  | .identifier => true
  | _ => false

end Token

end Lox
