/-
This file reads TOML documents.

Lines, array elements and the entries of tables in braces are found by their
separators outside of all brackets, and then read one by one. What goes wrong
anywhere makes the whole document unreadable, so no reader tells why it failed.
-/

import Scaffold.Toml.Table

namespace Scaffold.Toml

/-- The number of brackets that may be nested, and of parts that a dotted key may have. -/
def nestingLimit : Nat := 80

/-! ### Tokens that mean nothing -/

/-- Whether a token is a run of spaces and tabs. -/
def Token.isBlank (token : Token) : Bool :=
  match token.kind with
  | .space _ => true
  | _ => false

/-- Whether a token may stand between the parts of a bracketed value. -/
def Token.isFiller (token : Token) : Bool :=
  token.isBlank ∨ token.kind = .lineEnd ∨ token.kind = .comment

/-- Tokens without the ones to drop at their start and at their end. -/
def trimTokens (dropFirst dropLast : Token → Bool) (tokens : List Token) : List Token :=
  ((tokens.dropWhile dropFirst).reverse.dropWhile dropLast).reverse

/-- Tokens without the meaningless ones around them. -/
def withoutFiller (tokens : List Token) : List Token :=
  trimTokens Token.isFiller Token.isFiller tokens

/-- What a token does to the depth of brackets. -/
def Token.turn (token : Token) : Turn :=
  match token.kind with
  | .openBracket | .openBrace => .opens
  | .closeBracket | .closeBrace => .closes
  | _ => .stays

/-! ### Keys -/

/-- Whether a character may stand in a key without quotes. -/
def isKeyChar (c : Char) : Bool :=
  c.isAlphanum ∨ c = '_' ∨ c = '-'

/-- One part of a key. Quotes that allow several lines do not make a key. -/
def Token.key? (token : Token) : Option Key :=
  match token.kind with
  | .bare written => if written.all isKeyChar then some ⟨written, token.span⟩ else none
  | .string value false => some ⟨value, token.span⟩
  | _ => none

/-- The parts of a dotted key, where there are no spaces between the tokens any more. -/
def keyParts? : List Token → Option (List Key)
  | [] => none
  | [part] => part.key?.map ([·])
  | part :: dot :: rest => do
    let key ← part.key?
    let more ← keyParts? rest
    if dot.kind = .dot then some (key :: more) else none

/-- Reads a dotted key: the parts that lead to the last one, and the last one. -/
def readKey? (tokens : List Token) : Option (List Key × Key) := do
  let parts ← keyParts? (tokens.filter (!·.isBlank))
  let last ← parts.getLast?
  if parts.length ≤ nestingLimit then some (parts.dropLast, last) else none

/-! ### Values -/

/-- What a token of a value without quotes is written as. -/
def Token.written? (token : Token) : Option Text :=
  match token.kind with
  | .bare written => some written
  | .space written => some written
  | .dot => some ['.']
  | _ => none

/-- The stretch from the first of some tokens to the last of them. -/
def spanOf (first : Token) (rest : List Token) : Span :=
  ⟨first.span.start, (rest.getLast?.getD first).span.stop⟩

/-- Reads a value without brackets. -/
def readSimple? : List Token → Option Tree
  | [] => none
  | first :: rest =>
    match first.kind, rest with
    | .string value _, [] => some (.text first.span value)
    | _, _ => do
      let written ← (first :: rest).mapM Token.written?
      let value ← Plain.read? written.flatten
      some (.plain (spanOf first rest) value)

/-- The elements between brackets. There may be a comma behind the last one. -/
def elements (inner : List Token) : List (List Token) :=
  let pieces := (splitOutside Token.turn (·.kind = .comma) 0 inner).map withoutFiller
  if pieces.getLast? = some [] then pieces.dropLast else pieces

/-- Reads a key, the sign behind it and a value, given how the value is read. In braces there may be
line ends and comments around the sign; elsewhere the line is over by then. -/
def readAssignment? (readValue? : List Token → Option Tree) (tokens : List Token) :
    Option Assignment := do
  let (path, key) ← readKey? (withoutFiller (tokens.takeWhile (·.kind ≠ .equals)))
  match tokens.dropWhile (·.kind ≠ .equals) with
  | _ :: rest => do
    let value ← readValue? (withoutFiller rest)
    some ⟨path, key, value⟩
  | [] => none

/-- Reads a value whose brackets are nested no deeper than a bound. -/
def readValue? : Nat → List Token → Option Tree
  | _, [] => none
  | depth, first :: rest =>
    match first.kind, depth with
    | .openBracket, depth + 1 => do
      let inner ← inside? (·.kind = .closeBracket) rest
      let trees ← (elements inner).mapM (readValue? depth)
      some (.array (spanOf first rest) false trees)
    | .openBrace, depth + 1 => do
      let inner ← inside? (·.kind = .closeBrace) rest
      let assignments ← (elements inner).mapM (readAssignment? (readValue? depth))
      let entries ← assignAll? [] assignments
      some (.table (spanOf first rest) .inline entries)
    | _, _ => readSimple? (first :: rest)

/-! ### Lines -/

/-- What a line of a document says. -/
inductive Statement where
  | header (header : Header)
  | assignment (assignment : Assignment)

/-- Reads a header behind its first bracket. A second bracket right behind it, and one right in front
of the last bracket, make a header that adds to an array. -/
def readHeader? (first : Token) (rest : List Token) : Option Header := do
  let inner ← inside? (·.kind = .closeBracket) rest
  match inner with
  | second :: behind =>
    if second.kind = .openBracket then do
      let (path, key) ← readKey? (← inside? (·.kind = .closeBracket) behind)
      some ⟨true, path, key, spanOf first rest⟩
    else do
      let (path, key) ← readKey? inner
      some ⟨false, path, key, spanOf first rest⟩
  | [] => none

/-- Reads a line that is not empty. -/
def readStatement? : List Token → Option Statement
  | [] => none
  | first :: rest =>
    if first.kind = .openBracket then (readHeader? first rest).map .header
    else (readAssignment? (readValue? nestingLimit) (first :: rest)).map .assignment

/-- The lines of a document that say something, without the comments at their ends. -/
def statementLines (tokens : List Token) : List (List Token) :=
  let lines := splitOutside Token.turn (·.kind = .lineEnd) 0 tokens
  (lines.map (trimTokens Token.isBlank fun token => token.isBlank ∨ token.kind = .comment)).filter
    (· ≠ [])

/-! ### Documents -/

/-- The assignments in front of the first header, and those under each header. -/
def gather : List Statement → List Assignment × List (Header × List Assignment)
  | [] => ([], [])
  | .assignment assignment :: rest =>
    let (top, parts) := gather rest
    (assignment :: top, parts)
  | .header header :: rest =>
    let (under, parts) := gather rest
    ([], (header, under) :: parts)

/-- A text without the mark of its byte order. -/
def dropByteOrderMark : Text → Text
  | '\ufeff' :: rest => rest
  | text => text

/-- Reads a document. None if it is not one. -/
def read? (text : Text) : Option Entries := do
  let statements ← (statementLines (tokens (dropByteOrderMark text))).mapM readStatement?
  let (top, parts) := gather statements
  let entries ← assignAll? [] top
  parts.foldlM addSection? entries

end Scaffold.Toml
