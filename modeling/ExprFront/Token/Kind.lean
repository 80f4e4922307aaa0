/-!
# Kinds of tokens

The vocabulary of the language: each kind with its name, and the texts of the kinds whose text is
fixed. Every operator sign may be doubled up with an equals sign to a kind of its own.
-/

namespace ExprFront

/-- What a token is. -/
inductive TokenKind where
  | leftParen
  | rightParen
  | leftBrace
  | rightBrace
  | comma
  | semicolon
  | dollar
  | minus
  | plus
  | slash
  | star
  | minusEqual
  | plusEqual
  | slashEqual
  | starEqual
  | bang
  | bangEqual
  | equal
  | equalEqual
  | less
  | lessEqual
  | greater
  | greaterEqual
  | identifier
  | number
  | elseWord
  | falseWord
  | ifWord
  | trueWord
  deriving DecidableEq, Inhabited

namespace TokenKind

/-- The name of a kind in messages. -/
def name : TokenKind → String
  | .leftParen => "LPAREN"
  | .rightParen => "RPAREN"
  | .leftBrace => "LBRACE"
  | .rightBrace => "RBRACE"
  | .comma => "COMMA"
  | .semicolon => "SEMICOLON"
  | .dollar => "DOLLAR"
  | .minus => "MINUS"
  | .plus => "PLUS"
  | .slash => "SLASH"
  | .star => "STAR"
  | .minusEqual => "MINUS_EQUAL"
  | .plusEqual => "PLUS_EQUAL"
  | .slashEqual => "SLASH_EQUAL"
  | .starEqual => "STAR_EQUAL"
  | .bang => "BANG"
  | .bangEqual => "BANG_EQUAL"
  | .equal => "EQUAL"
  | .equalEqual => "EQUAL_EQUAL"
  | .less => "LESS"
  | .lessEqual => "LESS_EQUAL"
  | .greater => "GREATER"
  | .greaterEqual => "GREATER_EQUAL"
  | .identifier => "IDENTIFIER"
  | .number => "NUMBER"
  | .elseWord => "ELSE"
  | .falseWord => "FALSE"
  | .ifWord => "IF"
  | .trueWord => "TRUE"

/-- All kinds, in the order of their declaration. -/
def all : List TokenKind :=
  [.leftParen, .rightParen, .leftBrace, .rightBrace, .comma, .semicolon, .dollar, .minus, .plus,
   .slash, .star, .minusEqual, .plusEqual, .slashEqual, .starEqual, .bang, .bangEqual, .equal,
   .equalEqual, .less, .lessEqual, .greater, .greaterEqual, .identifier, .number, .elseWord,
   .falseWord, .ifWord, .trueWord]

/-- All kinds, in the alphabetical order of their names. -/
def alphabetical : List TokenKind :=
  [.bang, .bangEqual, .comma, .dollar, .elseWord, .equal, .equalEqual, .falseWord, .greater,
   .greaterEqual, .identifier, .ifWord, .leftBrace, .less, .lessEqual, .leftParen, .minus,
   .minusEqual, .number, .plus, .plusEqual, .rightBrace, .rightParen, .semicolon, .slash,
   .slashEqual, .star, .starEqual, .trueWord]

/-- The kind of a name. -/
def ofName? (name : String) : Option TokenKind :=
  all.find? (·.name == name)

/-! ## Fixed texts -/

/-- The kinds of a single character that nothing extends. -/
def punctuation : List (Char × TokenKind) :=
  [('(', .leftParen), (')', .rightParen), ('{', .leftBrace), ('}', .rightBrace), (',', .comma),
   (';', .semicolon), ('$', .dollar)]

/-- The signs, each with its kind alone and its kind before an equals sign. -/
def signs : List (Char × TokenKind × TokenKind) :=
  [('-', .minus, .minusEqual), ('+', .plus, .plusEqual), ('/', .slash, .slashEqual),
   ('*', .star, .starEqual), ('!', .bang, .bangEqual), ('=', .equal, .equalEqual),
   ('<', .less, .lessEqual), ('>', .greater, .greaterEqual)]

/-- The words that are no names. -/
def keywords : List (List Char × TokenKind) :=
  [(['e', 'l', 's', 'e'], .elseWord), (['f', 'a', 'l', 's', 'e'], .falseWord),
   (['i', 'f'], .ifWord), (['t', 'r', 'u', 'e'], .trueWord)]

/-- The kind of a punctuation character. -/
def ofPunctuation? (c : Char) : Option TokenKind :=
  punctuation.lookup c

/-- The kinds of a sign, alone and before an equals sign. -/
def ofSign? (c : Char) : Option (TokenKind × TokenKind) :=
  signs.lookup c

/-- The kind of a keyword. -/
def ofKeyword? (word : List Char) : Option TokenKind :=
  keywords.lookup word

end TokenKind

end ExprFront
