import Lox.Parse.Parser
import Lox.Raw.Tree

/-!
# Parsing with nothing taken for granted

The rules of the grammar over a vector of tokens and an index into it. A look beside the vector has
no result, and nor has a literal token that carries no literal. A rule that fails hands on the
parser as it has left it, so the rules are written one after the other as the grammar has them;
only where nesting is counted, and where a program goes on after a mistake, is a failure looked at.

Loops and levels are bounded as in `Lox.Parse.Parser`: a loop that does not get on has no result,
and nor has a nest of levels deeper than the count allows.
-/

set_option autoImplicit false

namespace Lox.Raw

open Lox.Parser (Round Entry)

structure Parser where
  tokens : List Token
  current : Nat
  depth : Nat
deriving DecidableEq, Repr

/-- A fault, and the token it is about. -/
structure ParseError where
  fault : ParseFault
  token : Token
deriving DecidableEq, Repr

/-- Computations with a parser that may have no result. -/
abbrev ParserM := StateT Parser Option

/-- Computations with a parser that can fail. -/
abbrev RuleM := ExceptT ParseError ParserM

namespace Parser

/-- A parser at its beginning. If the last token is not the end, an end is put behind it. -/
def new? (tokens : List Token) : Option Parser :=
  match tokens.getLast? with
  | none => do
    let span ← Span.between? 0 0
    return ⟨[⟨.eof, "", none, span, 1⟩], 0, 0⟩
  | some last =>
    if last.kind = .eof then some ⟨tokens, 0, 0⟩
    else do
      let stop ← last.span.stop?
      let span ← Span.between? stop stop
      return ⟨tokens ++ [⟨.eof, "", none, span, last.line⟩], 0, 0⟩

/-! ## One token at a time -/

/-- The token that the parser is at. There is none beside the vector. -/
def peek : ParserM Token := fun p => p.tokens[p.current]?.map (·, p)

/-- The kind of the token before the position. -/
def previousKind : ParserM (Option Kind) := fun p =>
  some (if p.current = 0 then none else p.tokens[p.current - 1]?.map Token.kind, p)

/-- Goes on by one token. At the end it stays there. -/
def advance : ParserM Token := do
  let t ← peek
  if t.kind = .eof then return t
  else
    modify fun p => { p with current := p.current + 1 }
    return t

/-- Goes past a token of one of the given kinds. -/
def eatIf (kinds : List Kind) : ParserM (Option Token) := do
  if (← peek).kind ∈ kinds then return some (← advance) else return none

/-- Fails about the token that the parser is at. -/
def fail {α : Type} (fault : ParseFault) : RuleM α := do
  throw ⟨fault, ← peek⟩

def expect (kind : Kind) (fault : ParseFault) : RuleM Token := do
  match ← eatIf [kind] with
  | some t => return t
  | none => fail fault

/-! ## Levels and loops -/

/-- Follows a rule one level further in. -/
def nested {α : Type} (rule : RuleM α) : RuleM α := ExceptT.mk do
  if Grammar.nestingLimit ≤ (← get).depth then
    (fail .excessiveNesting).run
  else
    modify fun p => { p with depth := p.depth + 1 }
    let result ← rule.run
    modify fun p => { p with depth := p.depth - 1 }
    return result

/-- Has no result. -/
def stuck {α : Type} : RuleM α := fun _ => none

/-- How many tokens there are from the position on. -/
def left (p : Parser) : Nat := p.tokens.length - p.current

/-- Goes round until it is done. A round that asks for another has to get on. -/
def loop {σ α : Type} (round : σ → ParserM (Round σ α)) (s : σ) : ParserM α := fun p =>
  match round s p with
  | none => none
  | some (.done a, p') => some (a, p')
  | some (.again s', p') => if p'.left < p.left then loop round s' p' else none
termination_by p => p.left

/-! ## Expressions -/

def chainRound (kinds : List Kind) (operand : RuleM Expr) (lhs : Expr) :
    ParserM (Round Expr (Except ParseError Expr)) := do
  match ← eatIf kinds with
  | none => return .done (.ok lhs)
  | some operator =>
    match ← operand.run with
    | .error e => return .done (.error e)
    | .ok rhs => return .again (.binary lhs operator rhs)

/-- Goes on with the chain of which `lhs` has been read. -/
def chain (kinds : List Kind) (operand : RuleM Expr) (lhs : Expr) : RuleM Expr :=
  ExceptT.mk (loop (chainRound kinds operand) lhs)

/-- The kinds of the operators of a level. -/
def operators : Grammar.Level → List Kind
  | .equality => [.symbol .bangEqual, .symbol .equalEqual]
  | .comparison => [.symbol .greater, .symbol .greaterEqual, .symbol .less, .symbol .lessEqual]
  | .term => [.symbol .plus, .symbol .minus]
  | .factor => [.symbol .slash, .symbol .star]

/-- Those that no operand can begin with. -/
def nonLeading : Grammar.Level → List Kind
  | .term => [.symbol .plus]
  | level => operators level

/-- Operands and operators of one level. -/
def leftAssociative (level : Grammar.Level) (operand : RuleM Expr) : RuleM Expr := do
  match ← eatIf (nonLeading level) with
  | some operator =>
    let _ ← operand
    throw ⟨.missingLeftOperand, operator⟩
  | none =>
    let lhs ← operand
    chain (operators level) operand lhs

section

variable (inner : Entry → RuleM Expr)

def primary : RuleM Expr := do
  let t ← peek
  match t.kind with
  | .keyword .falseWord => do
    let _ ← advance
    return .literal (.bool false)
  | .keyword .trueWord => do
    let _ ← advance
    return .literal (.bool true)
  | .keyword .nilWord => do
    let _ ← advance
    return .literal .nil
  | .number | .string =>
    match t.literal with
    | some literal => do
      let _ ← advance
      return .literal literal.value
    | none => stuck
  | .ident => do
    let _ ← advance
    return .name t
  | .eof => fail .nonExpression
  | _ =>
    match ← eatIf [.symbol .leftParen] with
    | some _ =>
      let e ← inner .expression
      let _ ← expect (.symbol .rightParen) .unclosedGroup
      return .grouping e
    | none => fail .nonExpression

def unary : RuleM Expr := do
  match ← eatIf [.symbol .bang, .symbol .minus] with
  | some operator => return .unary operator (← inner .unary)
  | none => primary inner

def equality : RuleM Expr :=
  leftAssociative .equality <| leftAssociative .comparison <| leftAssociative .term <|
    leftAssociative .factor <| unary inner

def ternary : RuleM Expr := do
  let condition ← equality inner
  match ← eatIf [.symbol .question] with
  | none => return condition
  | some question =>
    let success ← inner .expression
    let colon ← expect (.symbol .colon) .missingColon
    return .ternary condition question success colon (← equality inner)

def assignment : RuleM Expr := do
  let target ← ternary inner
  match ← eatIf [.symbol .equal] with
  | none => return target
  | some equals =>
    let value ← inner .assignment
    match target with
    | .name name => return .assign name value
    | _ => throw ⟨.invalidTarget, equals⟩

def comma : RuleM Expr := do
  let lhs ← assignment inner
  chain [.symbol .comma] (assignment inner) lhs

end

/-- Follows the rule for what begins a level, one level further in. -/
def inside : (levels : Nat) → Entry → RuleM Expr
  | 0, _ => nested stuck
  | levels + 1, .expression => nested (comma (inside levels))
  | levels + 1, .assignment => nested (assignment (inside levels))
  | levels + 1, .unary => nested (unary (inside levels))

def expression : RuleM Expr := inside Grammar.nestingLimit .expression

/-! ## Statements -/

def variableDeclaration : RuleM Stmt := do
  let name ← expect .ident .missingVariableName
  let initial ← match ← eatIf [.symbol .equal] with
    | some _ => some <$> expression
    | none => pure none
  let _ ← expect (.symbol .semicolon) (.missingSemicolon .variableDeclaration)
  return .var name initial

/-- An expression and a semicolon. -/
def terminated (what : Terminated) : RuleM Expr := do
  let e ← expression
  let _ ← expect (.symbol .semicolon) (.missingSemicolon what)
  return e

/-- A statement, where `block` reads what follows an opening brace. -/
def statement (block : RuleM Stmt) : RuleM Stmt := do
  match ← eatIf [.keyword .printWord] with
  | some _ => return .print (← terminated .value)
  | none =>
    match ← eatIf [.symbol .leftBrace] with
    | some _ => block
    | none => return .expression (← terminated .expression)

def declaration (block : RuleM Stmt) : RuleM Stmt := do
  match ← eatIf [.keyword .varWord] with
  | some _ => variableDeclaration
  | none => statement block

/-- Reads a declaration behind those of `body`, unless there is the brace or the end. -/
def blockRound (declaration : RuleM Stmt) (body : List Stmt) :
    ParserM (Round (List Stmt) (Except ParseError (List Stmt))) := do
  let kind := (← peek).kind
  if kind = .symbol .rightBrace ∨ kind = .eof then return .done (.ok body)
  else
    match ← declaration.run with
    | .error e => return .done (.error e)
    | .ok s => return .again (body ++ [s])

def block (declaration : RuleM Stmt) : RuleM Stmt := do
  let body ← ExceptT.mk (loop (blockRound declaration) [])
  let _ ← expect (.symbol .rightBrace) .unclosedBlock
  return .block body

/-- A declaration that can have `levels` blocks within each other. -/
def declarationWithin : (levels : Nat) → RuleM Stmt
  | 0 => declaration (nested stuck)
  | levels + 1 => declaration (nested (block (declarationWithin levels)))

/-! ## Recovery and programs -/

/-- Goes on by a token, unless it is behind a semicolon, or before a word that begins a statement,
or at the end. -/
def seekRound (_ : Unit) : ParserM (Round Unit Unit) := do
  let kind := (← peek).kind
  if kind = .eof then return .done ()
  else if (← previousKind) = some (.symbol .semicolon) ∨ kind.startsStatement then
    return .done ()
  else
    let _ ← advance
    return .again ()

def synchronize : ParserM Unit := do
  let _ ← advance
  loop seekRound ()

/-- What has been read of a program. -/
structure Progress where
  statements : List Stmt
  errors : List ParseError

/-- Reads a declaration, with a recovery if it is wrong, unless there is the end. -/
def programRound (read : Progress) : ParserM (Round Progress Progress) := do
  if (← peek).kind = .eof then return .done read
  else
    match ← (declarationWithin Grammar.nestingLimit).run with
    | .ok s => return .again { read with statements := read.statements ++ [s] }
    | .error e =>
      synchronize
      return .again { read with errors := read.errors ++ [e] }

def parse : ParserM (Except (List ParseError) (List Stmt)) := do
  let read ← loop programRound ⟨[], []⟩
  if read.errors = [] then return .ok read.statements else return .error read.errors

end Parser

/-! ## Calls -/

/-- What has come of a call. -/
inductive ParseAnswer where
  | expression (result : Except ParseError Expr)
  | program (result : Except (List ParseError) (List Stmt))
  | synchronized

namespace Parser

/-- Makes a call. -/
def call : ParseStep → ParserM ParseAnswer
  | .expression => return .expression (← expression.run)
  | .program => return .program (← parse)
  | .synchronize => do
    synchronize
    return .synchronized

/-- Makes calls one after the other. -/
def callAll : List ParseStep → ParserM (List ParseAnswer)
  | [] => return []
  | step :: steps => do
    let answer ← call step
    return answer :: (← callAll steps)

end Parser

end Lox.Raw
