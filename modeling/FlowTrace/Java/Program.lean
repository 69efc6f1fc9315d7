import FlowTrace.Braced.Source
import FlowTrace.Java.Declarator

/-! # Java programs

A tolerant reader of Java's statements: it follows the structure of blocks and headers and keeps
everything else as text. Outside classes a bare statement is accepted too, so that snippets can be
read.

The readers call each other. `bound` bounds the calls still to be made, and a reader that is left
without any is `exhausted`. Every few calls read a token, so that eight times the number of tokens
is enough (`Program.parse`). -/

namespace FlowTrace.Java

/-- What a reader yields: a result and the tokens left over. -/
abbrev Readout (α : Type) := α × List Token

/-- Reads one token with a given text. -/
def expect (src : Source) (text : Text) (tokens : List Token) : Except SyntaxError (List Token) :=
  match tokens with
  | [] => src.fail tokens .unexpectedEnd
  | _ :: rest => if next tokens text then .ok rest else src.fail tokens (.missing text)

/-- Reads parentheses behind a word: the tokens between them, and those behind. -/
def readParens (src : Source) (word : Text) (tokens : List Token) :
    Except SyntaxError (Readout (List Token)) :=
  if next tokens "(" then
    match enclosed? tokens with
    | some found => .ok found
    | none => src.fail tokens (.neverClosed '(')
  else src.fail tokens (.missingAfter "(" word)

/-- Reads up to a semicolon. -/
def readToSemicolon (src : Source) (tokens : List Token) :
    Except SyntaxError (Readout (List Token)) :=
  match until? [";"] tokens with
  | some (before, _, rest) => .ok (before, rest)
  | none => src.fail tokens (.missing ";")

/-- Whether a class, interface, enumeration or record begins here. -/
def atClass (tokens : List Token) : Bool :=
  next tokens "class" || next tokens "interface" || next tokens "enum" || next tokens "@" ||
    (next tokens "record" && identAt tokens 1 && textAt tokens 2 != "=")

/-- Whether a constructor begins here: a name, parentheses, and a body or what it throws. -/
def atConstructor (tokens : List Token) : Bool :=
  match tokens with
  | name :: rest =>
    name.kind == .ident && !reserved.contains name.text && textAt rest 0 == "(" &&
      (match enclosed? rest with
      | some (_, after) => textAt after 0 == "\x7b" || textAt after 0 == "throws"
      | none => false)
  | [] => false

/-- The tokens from the name on, if a method begins here with its type. -/
def atMethod? (src : Source) (tokens : List Token) : Option (List Token) :=
  match readType? src tokens with
  | some (_, _, rest) => if identAt rest 0 && textAt rest 1 == "(" then some rest else none
  | none => none

/-- Whether a case label begins here. -/
def atLabel (tokens : List Token) : Bool :=
  next tokens "case" ||
    (next tokens "default" && (textAt tokens 1 == ":" || textAt tokens 1 == "->"))

/-- Words that begin a statement up to a semicolon that has no place in a flowchart. -/
def plainWords : List Text := ["break", "continue", "throw", "yield", "assert"]

/-- The form of a loop whose header has the tokens `inside`; `tokens` are those from the first of
them on. A colon outside brackets makes it a loop over items. -/
def forForm (src : Source) (inside tokens : List Token) : Except SyntaxError Form :=
  let header := src.text inside
  if (until? [":"] inside).isSome then .ok (.forEach header)
  else if atLocal src tokens then do
    let (declared, _) ← readLocal src tokens
    return .forLoop header declared
  else .ok (.forLoop header [])

mutual
/-- Reads a statement; a lone semicolon yields none. -/
def readStatement (src : Source) : Nat → List Token →
    Except SyntaxError (Readout (Option Statement))
  | 0, tokens => src.fail tokens .exhausted
  | bound + 1, tokens =>
    let line := src.line tokens
    let rest := tokens.drop 1
    if next tokens "\x7b" then do
      let (body, rest) ← readBlock src bound tokens
      return (some (.around line .block body), rest)
    else if next tokens ";" then .ok (none, rest)
    else if next tokens "if" then do
      let (condition, rest) ← readParens src "if" rest
      let (body, rest) ← readStatement src bound rest
      let (orelse, rest) ← readElse src bound rest
      let form := Form.branch (src.text condition)
      return (some ⟨line, form, Statement.unwrap body, orelse, []⟩, rest)
    else if next tokens "for" then readFor src bound line rest
    else if next tokens "while" then do
      let (condition, rest) ← readParens src "while" rest
      let (body, rest) ← readStatement src bound rest
      return (some (.around line (.whileLoop (src.text condition)) (Statement.unwrap body)), rest)
    else if next tokens "do" then do
      let (body, rest) ← readStatement src bound rest
      let rest ← expect src "while" rest
      let (condition, rest) ← readParens src "while" rest
      let rest ← expect src ";" rest
      return (some (.around line (.doLoop (src.text condition)) (Statement.unwrap body)), rest)
    else if next tokens "try" then readTry src bound line rest
    else if next tokens "switch" then do
      let (subject, rest) ← readParens src "switch" rest
      let rest ← expect src "\x7b" rest
      let (body, rest) ← readCases src bound rest []
      return (some (.around line (.choice (src.text subject)) body), rest)
    else if next tokens "return" then do
      let (value, rest) ← readToSemicolon src rest
      return (some (.leaf line (.ret (src.text value))), rest)
    else if plainWords.any (next tokens) then do
      let (_, rest) ← readToSemicolon src tokens
      return (some (.leaf line .other), rest)
    else if next tokens "synchronized" then do
      let (_, rest) ← readParens src "synchronized" rest
      let (body, rest) ← readBlock src bound rest
      return (some (.around line .block body), rest)
    else if next tokens "class" || next tokens "interface" || next tokens "enum" then do
      let (s, rest) ← readClass src bound tokens
      return (some s, rest)
    else if next tokens "else" then src.fail tokens .elseWithoutIf
    else if next tokens "catch" then src.fail tokens (.handlerWithoutTry "catch")
    else if next tokens "finally" then src.fail tokens (.handlerWithoutTry "finally")
    else if next tokens "case" then src.fail tokens .orphanedCase
    else if identAt tokens 0 && textAt tokens 1 == ":" then
      readStatement src bound (tokens.drop 2)
    else if atLocal src tokens then do
      let (declared, rest) ← readLocal src tokens
      let rest ← expect src ";" rest
      return (some (.leaf line (.locals declared)), rest)
    else do
      let (expression, rest) ← readToSemicolon src tokens
      return (some (.leaf line (expressionForm src expression)), rest)

/-- Reads the alternative of a conditional, if there is one. An empty alternative is kept as a
statement of its own. -/
def readElse (src : Source) : Nat → List Token → Except SyntaxError (Readout (List Statement))
  | 0, tokens => src.fail tokens .exhausted
  | bound + 1, tokens =>
    if next tokens "else" then do
      let (alternative, rest) ← readStatement src bound (tokens.drop 1)
      match Statement.unwrap alternative with
      | [] => return ([.leaf (src.line tokens) .other], rest)
      | orelse => return (orelse, rest)
    else .ok ([], tokens)

/-- Reads a loop behind its word `for`. -/
def readFor (src : Source) : Nat → Nat → List Token →
    Except SyntaxError (Readout (Option Statement))
  | 0, _, tokens => src.fail tokens .exhausted
  | bound + 1, line, tokens => do
    let (inside, after) ← readParens src "for" tokens
    let form ← forForm src inside (tokens.drop 1)
    let (body, rest) ← readStatement src bound after
    return (some (.around line form (Statement.unwrap body)), rest)

/-- Reads an attempt behind its word `try`. Without resources it needs a handler or a final
block. -/
def readTry (src : Source) : Nat → Nat → List Token →
    Except SyntaxError (Readout (Option Statement))
  | 0, _, tokens => src.fail tokens .exhausted
  | bound + 1, line, tokens => do
    let resources := next tokens "("
    let tokens ← if resources then
        match enclosed? tokens with
        | some (_, after) => .ok after
        | none => src.fail tokens (.neverClosed '(')
      else .ok tokens
    let (body, rest) ← readBlock src bound tokens
    let (handlers, rest) ← readHandlers src bound rest []
    if next rest "finally" then do
      let (final, rest) ← readBlock src bound (rest.drop 1)
      return (some ⟨line, .attempt, body, final, handlers⟩, rest)
    else if !resources && handlers.isEmpty then src.fail rest .missingHandler
    else return (some ⟨line, .attempt, body, [], handlers⟩, rest)

/-- Reads the handlers of an attempt. -/
def readHandlers (src : Source) :
    Nat → List Token → List Statement → Except SyntaxError (Readout (List Statement))
  | 0, tokens, _ => src.fail tokens .exhausted
  | bound + 1, tokens, done =>
    if next tokens "catch" then
      match readParens src "catch" (tokens.drop 1) with
      | .error e => .error e
      | .ok (inside, rest) =>
        match readBlock src bound rest with
        | .error e => .error e
        | .ok (body, rest) =>
          readHandlers src bound rest
            (.around (src.line tokens) (.handler (readParams src inside)) body :: done)
    else .ok (done.reverse, tokens)

/-- Reads the cases of a choice behind its opening brace. -/
def readCases (src : Source) : Nat → List Token → List Statement →
    Except SyntaxError (Readout (List Statement))
  | 0, tokens, _ => src.fail tokens .exhausted
  | bound + 1, tokens, done =>
    if next tokens "\x7d" then .ok (done.reverse, tokens.drop 1)
    else if tokens.isEmpty then src.fail tokens .unexpectedEnd
    else if atLabel tokens then
      match until? [":", "->"] tokens with
      | none => src.fail tokens .missingLabelEnd
      | some (_, _, rest) => readCases src bound rest done
    else
      match readStatement src bound tokens with
      | .error e => .error e
      | .ok (s, rest) => readCases src bound rest (s.toList ++ done)

/-- Reads a block with its braces. -/
def readBlock (src : Source) : Nat → List Token → Except SyntaxError (Readout (List Statement))
  | 0, tokens => src.fail tokens .exhausted
  | bound + 1, tokens => do
    let rest ← expect src "\x7b" tokens
    readBlockRest src bound rest []

/-- Reads the statements of a block behind its opening brace. -/
def readBlockRest (src : Source) : Nat → List Token → List Statement →
    Except SyntaxError (Readout (List Statement))
  | 0, tokens, _ => src.fail tokens .exhausted
  | bound + 1, tokens, done =>
    if next tokens "\x7d" then .ok (done.reverse, tokens.drop 1)
    else if tokens.isEmpty then src.fail tokens .unexpectedEnd
    else
      match readStatement src bound tokens with
      | .error e => .error e
      | .ok (s, rest) => readBlockRest src bound rest (s.toList ++ done)

/-- Reads a class. The body of an enumeration is passed over. -/
def readClass (src : Source) : Nat → List Token → Except SyntaxError (Readout Statement)
  | 0, tokens => src.fail tokens .exhausted
  | bound + 1, tokens =>
    let tokens := if next tokens "@" then tokens.drop 1 else tokens
    let line := src.line tokens
    let rest := tokens.drop 1
    match rest with
    | [] => src.fail rest .missingName
    | name :: rest' =>
      if name.kind != .ident then src.fail rest .missingName
      else
        match until? ["\x7b"] rest' with
        | none => src.fail rest' (.missing "\x7b")
        | some (_, brace, inside) =>
          if textAt tokens 0 == "enum" then
            match enclosed? (brace :: inside) with
            | some (_, after) => .ok (.leaf line (.classDecl name.text), after)
            | none => src.fail (brace :: inside) .unexpectedEnd
          else do
            let (body, rest) ← readMembers src bound inside []
            return (.around line (.classDecl name.text) body, rest)

/-- Reads the members of a class behind its opening brace. -/
def readMembers (src : Source) : Nat → List Token → List Statement →
    Except SyntaxError (Readout (List Statement))
  | 0, tokens, _ => src.fail tokens .exhausted
  | bound + 1, tokens, done =>
    if next tokens "\x7d" then .ok (done.reverse, tokens.drop 1)
    else if tokens.isEmpty then src.fail tokens .unexpectedEnd
    else
      match readMember src bound false tokens with
      | .error e => .error e
      | .ok (s, rest) => readMembers src bound rest (s.toList ++ done)

/-- Reads a member of a class. At the top level of a source anything that is not a declaration
is read as a statement; in a class it is passed over up to a semicolon. -/
def readMember (src : Source) : Nat → Bool → List Token →
    Except SyntaxError (Readout (Option Statement))
  | 0, _, tokens => src.fail tokens .exhausted
  | bound + 1, topLevel, start =>
    let tokens := skipModifiers (start.length + 1) start
    if next tokens ";" then .ok (none, tokens.drop 1)
    else if next tokens "\x7b" then do
      let (body, rest) ← readBlock src bound tokens
      return (some (.around (src.line tokens) .block body), rest)
    else if atClass tokens then do
      let (s, rest) ← readClass src bound tokens
      return (some s, rest)
    else
      let tokens := if next tokens "<" then (skipAngles? tokens 0).getD tokens else tokens
      if atConstructor tokens then do
        let (s, rest) ← readMethod src bound tokens
        return (some s, rest)
      else
        match atMethod? src tokens with
        | some named => do
          let (s, rest) ← readMethod src bound named
          return (some s, rest)
        | none =>
          if topLevel then readStatement src bound start
          else
            match until? [";"] tokens with
            | some (_, _, rest) => .ok (none, rest)
            | none => src.fail tokens .missingName

/-- Reads a method from its name on. -/
def readMethod (src : Source) : Nat → List Token → Except SyntaxError (Readout Statement)
  | 0, tokens => src.fail tokens .exhausted
  | bound + 1, tokens =>
    match tokens with
    | [] => src.fail tokens .missingName
    | name :: rest =>
      match enclosed? rest with
      | none => src.fail rest (.neverClosed '(')
      | some (inside, rest) => do
        let form := Form.method name.text (readParams src inside)
        let rest := (skipDims rest).2
        let rest ← if next rest "throws" then
            match until? ["\x7b", ";"] rest with
            | some (_, stop, after) => .ok (stop :: after)
            | none => src.fail rest (.missing "\x7b")
          else .ok rest
        if next rest ";" then return (.leaf name.line form, rest.drop 1)
        else do
          let (body, rest) ← readBlock src bound rest
          return (.around name.line form body, rest)
end

/-- Reads the declarations of a source. Packages and imports are passed over. -/
def readUnit (src : Source) : Nat → List Token → List Statement →
    Except SyntaxError (List Statement)
  | 0, tokens, _ => src.fail tokens .exhausted
  | bound + 1, tokens, done =>
    if tokens.isEmpty then .ok done.reverse
    else if next tokens "package" || next tokens "import" then
      match readToSemicolon src tokens with
      | .error e => .error e
      | .ok (_, rest) => readUnit src bound rest done
    else
      match readMember src bound true tokens with
      | .error e => .error e
      | .ok (s, rest) => readUnit src bound rest (s.toList ++ done)

/-- A **program**: a source and its statements. -/
structure Program where
  /-- The source. -/
  source : Text
  /-- The source with its comments blanked. -/
  code : Text
  /-- The declarations and statements at its top level. -/
  statements : List Statement
  deriving Repr

/-- Reads a program. -/
def Program.parse (source : Text) : Except SyntaxError Program := do
  let code ← Braced.blankComments source
  Braced.checkBrackets code
  let tokens ← tokenize code
  let lastLine := (tokens.getLast?.map (·.line)).getD 1
  let statements ← readUnit ⟨code, lastLine⟩ (8 * (tokens.length + 1)) tokens []
  return ⟨source, code, statements⟩

/-- All statements of a program in source order. -/
def Program.walk (p : Program) : List Statement := Statement.walkAll p.statements

end FlowTrace.Java
