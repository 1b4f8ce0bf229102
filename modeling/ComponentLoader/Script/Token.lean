import ComponentLoader.Script.Binary64
import ComponentLoader.Text.Basic

/-
  This file defines the tokens of scripts and the words
  that are reserved in them.

  Key definitions include:
    * `Script.Punct`
    * `Script.Token`
    * `Script.keywords`
    * `Script.strictWords`
    * `Script.contextualWords`
    * `Script.Token.isReference`
    * `Script.Token.isBinding`
-/

namespace ComponentLoader
namespace Script

------------------------------------------------------------
-- Punctuators
------------------------------------------------------------

/- The punctuators of scripts. -/
inductive Punct where
  | lbrace | rbrace | lparen | rparen | lbracket | rbracket
  | dot | ellipsis | semi | comma | colon | question
  | optionalDot | arrow | at | hash | backtick
  | assign | lt | gt | le | ge | eq | ne | eqq | neq
  | plus | minus | star | slash | percent | power
  | plusPlus | minusMinus | shl | shr | ushr
  | amp | bar | caret | bang | tilde
  | andAnd | orOr | coalesce
  | plusAssign | minusAssign | starAssign | slashAssign
  | percentAssign | powerAssign | shlAssign | shrAssign
  | ushrAssign | ampAssign | barAssign | caretAssign
  | andAssign | orAssign | coalesceAssign
  deriving DecidableEq, Inhabited

/- Whether a punctuator assigns. -/
def Punct.isAssign : Punct → Bool
  | assign | plusAssign | minusAssign | starAssign
  | slashAssign | percentAssign | powerAssign | shlAssign
  | shrAssign | ushrAssign | ampAssign | barAssign
  | caretAssign | andAssign | orAssign
  | coalesceAssign => true
  | _ => false

/- Whether a punctuator joins two operands. -/
def Punct.isBinary : Punct → Bool
  | lt | gt | le | ge | eq | ne | eqq | neq | plus | minus
  | star | slash | percent | power | shl | shr | ushr
  | amp | bar | caret | andAnd | orOr | coalesce => true
  | _ => false

/- Whether a punctuator changes what stands after it. -/
def Punct.isPrefixOp : Punct → Bool
  | plus | minus | bang | tilde => true
  | _ => false

/- Whether a punctuator counts up or down. -/
def Punct.isUpdate : Punct → Bool
  | plusPlus | minusMinus => true
  | _ => false

------------------------------------------------------------
-- Tokens
------------------------------------------------------------

/- A token of a script. -/
inductive Token where
  /- The end of the script. -/
  | finish
  /- A punctuator. -/
  | punct (p : Punct)
  /- A name or keyword; with escapes it is a plain name. -/
  | word (name : Text) (escaped : Bool)
  /- A name after a number sign. -/
  | privateName
  /- A number. -/
  | number (value : Binary64)
  /- A whole number of any size. -/
  | bigint
  /- A string. -/
  | string (value : Option Text)
  /- Something that is no token. -/
  | invalid
  deriving DecidableEq, Inhabited

/- Whether a token is the given punctuator. -/
def Token.isPunct
    (t : Token)
    (p : Punct) : Bool :=
  t == .punct p

/- Whether a token is the given word without escapes. -/
def Token.isWord
    (t : Token)
    (w : String) : Bool :=
  t == .word w.toList false

/- Whether a token is one of several words without escapes. -/
def Token.isOneOf
    (t : Token)
    (ws : List String) : Bool :=
  ws.any fun w => t.isWord w

/- Whether a token is the given word, however written. -/
def Token.spells
    (t : Token)
    (w : String) : Bool :=
  match t with
  | .word name _ => name == w.toList
  | _ => false

/- Whether a token is some word. -/
def Token.isAnyWord : Token → Bool
  | word _ _ => true
  | _ => false

/- Whether a token is a string. -/
def Token.isString : Token → Bool
  | string _ => true
  | _ => false

/- Whether a token joins two operands. -/
def Token.isBinary : Token → Bool
  | punct p => p.isBinary
  | _ => false

/- Whether a token assigns. -/
def Token.isAssign : Token → Bool
  | punct p => p.isAssign
  | _ => false

/- Whether a token counts up or down. -/
def Token.isUpdate : Token → Bool
  | punct p => p.isUpdate
  | _ => false

------------------------------------------------------------
-- Reserved Words
------------------------------------------------------------

/- The words that never are names of things. -/
def keywords : List Text :=
  ["break", "case", "catch", "class", "const", "continue",
    "debugger", "default", "delete", "do", "else", "export",
    "extends", "false", "finally", "for", "function", "if",
    "import", "in", "instanceof", "new", "null", "return",
    "super", "switch", "this", "throw", "true", "try",
    "typeof", "var", "void", "while", "with"].map
    String.toList

/- The words that can be bound in places but not used. -/
def strictWords : List Text :=
  ["await", "enum", "implements", "interface", "let",
    "package", "private", "protected", "public", "static",
    "yield"].map String.toList

/-
  The words that mean something in some places.  Written
  with escapes, such a word is another name, which is the
  text as written.
-/
def contextualWords : List Text :=
  ["abstract", "accessor", "any", "as", "assert", "asserts",
    "async", "bigint", "boolean", "constructor", "declare",
    "from", "get", "global", "infer", "intrinsic", "is",
    "keyof", "meta", "module", "namespace", "never",
    "number", "object", "of", "out", "override", "readonly",
    "require", "satisfies", "set", "string", "symbol",
    "target", "type", "undefined", "unique", "unknown",
    "using"].map String.toList

/- Whether a word never is the name of a thing. -/
def isKeyword
    (w : Text) : Bool :=
  keywords.contains w

/- Whether a word cannot refer to a thing. -/
def isReserved
    (w : Text) : Bool :=
  keywords.contains w || strictWords.contains w

/- Whether a token is a word that can refer to a thing. -/
def Token.isReference : Token → Bool
  | word w escaped => escaped || !isReserved w
  | _ => false

/- Whether a token is a word that can be bound. -/
def Token.isBinding : Token → Bool
  | word w escaped =>
      escaped || !(isKeyword w || w == "await".toList)
  | _ => false

end Script
end ComponentLoader
