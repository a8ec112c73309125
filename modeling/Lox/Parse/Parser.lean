import Lox.Parse.Steps

/-!
# The parser as a machine

The rules of the grammar as a parser follows them that is kept from one call to the next. It has
all the tokens, the position it has come to, and a count of the levels of nesting it is in. The
count goes up where a level is entered and has to come down again wherever it is left, also when
what was inside has failed; recovery looks at the token before the position. Nothing is handed on
from call to call but this state.

What the calls answer is what `ParseStep.runAll` says, which knows of no state; this is proved in
`Lox.Proofs.Grammar.Machine`.

**A computation may have no result.** The end of the input has a place among the tokens here, the
last one, and the position never goes past it; a look at a position where there is nothing has no
result. Nor has a loop that goes round without getting on (`Parser.loop`), or a nest of levels
deeper than the count allows (`Parser.inside`), which a parser would not come back from. That none
of this ever happens has to be proved.
-/

set_option autoImplicit false

namespace Lox

/-- What there is at a position: a token, or the end of the input. -/
inductive Slot where
  | token (t : Token)
  | finish (site : Lexeme)
deriving DecidableEq, Repr

namespace Slot

/-- The kind of the token, if it is one. -/
def kind? : Slot → Option TokenKind
  | token t => some t.kind
  | finish _ => none

def lexeme : Slot → Lexeme
  | token t => t.lexeme
  | finish site => site

end Slot

/-- A scan's tokens and the end behind them. -/
def Scan.slots (s : Scan) : List Slot := s.tokens.map .token ++ [.finish s.finish]

structure Parser where
  slots : List Slot
  current : Nat
  depth : Nat
deriving DecidableEq, Repr

/-- Computations with a parser that may have no result. -/
abbrev ParserM (α : Type) := StateT Parser Option α

namespace Parser

/-- A parser at its beginning. If the last slot is not the end, an end is put behind it. -/
def new (slots : List Slot) : Parser where
  slots :=
    match slots.getLast? with
    | none => [.finish (.endingAt .origin)]
    | some (.finish _) => slots
    | some (.token t) => slots ++ [.finish ⟨"", t.lexeme.span.stop, t.lexeme.line⟩]
  current := 0
  depth := 0

/-! ## One token at a time -/

/-- What the parser is at. -/
def peek : ParserM Slot := fun p => p.slots[p.current]?.map (·, p)

/-- The kind of the token before the position. -/
def previousKind : ParserM (Option TokenKind) := fun p =>
  some (if p.current = 0 then none else p.slots[p.current - 1]?.bind Slot.kind?, p)

/-- Goes on by one token. At the end it stays there. -/
def advance : ParserM Unit := do
  match ← peek with
  | .token _ => modify fun p => { p with current := p.current + 1 }
  | .finish _ => return ()

/-- Goes past a token if `f` has an answer for its kind. -/
def eatIf {β : Type} (f : TokenKind → Option β) : ParserM (Option (β × Token)) := do
  match ← peek with
  | .finish _ => return none
  | .token t =>
    match f t.kind with
    | none => return none
    | some b =>
      advance
      return some (b, t)

def eatKind (kind : TokenKind) : ParserM (Option Token) := do
  let eaten ← eatIf fun k => if k = kind then some () else none
  return eaten.map (·.2)

/-- The error about what the parser is at. -/
def failure (fault : ParseFault) : ParserM ParseError := do
  let slot ← peek
  return ⟨fault, slot.kind?, slot.lexeme⟩

def expect (kind : TokenKind) (fault : ParseFault) : ParserM (Except ParseError Lexeme) := do
  match ← eatKind kind with
  | some t => return .ok t.lexeme
  | none => return .error (← failure fault)

/-! ## Levels of nesting -/

/-- Enters a level, unless the limit has been reached. -/
def enter : ParserM (Except ParseError Unit) := do
  if Grammar.nestingLimit ≤ (← get).depth then
    return .error (← failure .excessiveNesting)
  else
    modify fun p => { p with depth := p.depth + 1 }
    return .ok ()

/-- Leaves a level. -/
def leave : ParserM Unit := modify fun p => { p with depth := p.depth - 1 }

/-- Follows a rule one level further in. -/
def nested {α : Type} (rule : ParserM (Except ParseError α)) : ParserM (Except ParseError α) := do
  match ← enter with
  | .error e => return .error e
  | .ok () =>
    let result ← rule
    leave
    return result

/-- Has no result. -/
def stuck {α : Type} : ParserM α := fun _ => none

/-! ## Loops -/

/-- What a round of a loop comes to: another round, or the end of the loop. -/
inductive Round (σ α : Type) where
  | again (s : σ)
  | done (a : α)

/-- How many slots there are from the position on. -/
def left (p : Parser) : Nat := p.slots.length - p.current

/-- Goes round until it is done. A round that asks for another has to get on. -/
def loop {σ α : Type} (round : σ → ParserM (Round σ α)) (s : σ) : ParserM α := fun p =>
  match round s p with
  | none => none
  | some (.done a, p') => some (a, p')
  | some (.again s', p') => if p'.left < p.left then loop round s' p' else none
termination_by p => p.left

/-! ## Expressions -/

/-- Reads an operator and an operand behind the expression `lhs`, unless it is all there is. -/
def chainRound (ops : List BinaryOp) (operand : ParserM (Except ParseError Expr)) (lhs : Expr) :
    ParserM (Round Expr (Except ParseError Expr)) := do
  match ← eatIf fun k => k.symbol?.bind (BinaryOp.among ops) with
  | none => return .done (.ok lhs)
  | some (op, t) =>
    match ← operand with
    | .error e => return .done (.error e)
    | .ok rhs => return .again (.binary op t.lexeme lhs rhs)

/-- Goes on with the chain of which `lhs` has been read. -/
def chain (ops : List BinaryOp) (operand : ParserM (Except ParseError Expr)) (lhs : Expr) :
    ParserM (Except ParseError Expr) :=
  loop (chainRound ops operand) lhs

/-- Operands and operators of one level. -/
def leftAssociative (level : Grammar.Level) (operand : ParserM (Except ParseError Expr)) :
    ParserM (Except ParseError Expr) := do
  match ← eatIf fun k => k.symbol?.bind (BinaryOp.among level.nonLeading) with
  | some (_, t) =>
    match ← operand with
    | .error e => return .error e
    | .ok _ => return .error ⟨.missingLeftOperand, some t.kind, t.lexeme⟩
  | none =>
    match ← operand with
    | .error e => return .error e
    | .ok lhs => chain level.operators operand lhs

/-- What begins a level of nesting in an expression. -/
inductive Entry where
  | expression
  | assignment
  | unary

section

variable (inner : Entry → ParserM (Except ParseError Expr))

def primary : ParserM (Except ParseError Expr) := do
  match ← peek with
  | .finish _ => return .error (← failure .nonExpression)
  | .token t =>
    match Grammar.atom? t with
    | some e =>
      advance
      return .ok e
    | none =>
      match ← eatKind (.symbol .leftParen) with
      | none => return .error (← failure .nonExpression)
      | some _ =>
        match ← inner .expression with
        | .error e => return .error e
        | .ok e =>
          match ← expect (.symbol .rightParen) .unclosedGroup with
          | .error e => return .error e
          | .ok _ => return .ok (.grouping e)

def unary : ParserM (Except ParseError Expr) := do
  match ← eatIf fun k => k.symbol?.bind (UnaryOp.among [.not, .negate]) with
  | none => primary inner
  | some (op, t) =>
    match ← inner .unary with
    | .error e => return .error e
    | .ok rhs => return .ok (.unary op t.lexeme rhs)

def equality : ParserM (Except ParseError Expr) :=
  leftAssociative .equality <| leftAssociative .comparison <| leftAssociative .term <|
    leftAssociative .factor <| unary inner

def ternary : ParserM (Except ParseError Expr) := do
  match ← equality inner with
  | .error e => return .error e
  | .ok condition =>
    match ← eatKind (.symbol .question) with
    | none => return .ok condition
    | some question =>
      match ← inner .expression with
      | .error e => return .error e
      | .ok success =>
        match ← expect (.symbol .colon) .missingColon with
        | .error e => return .error e
        | .ok colon =>
          match ← equality inner with
          | .error e => return .error e
          | .ok other => return .ok (.ternary condition question.lexeme success colon other)

def assignment : ParserM (Except ParseError Expr) := do
  match ← ternary inner with
  | .error e => return .error e
  | .ok target =>
    match ← eatKind (.symbol .equal) with
    | none => return .ok target
    | some equals =>
      match ← inner .assignment with
      | .error e => return .error e
      | .ok value =>
        match target with
        | .name site => return .ok (.assign site value)
        | _ => return .error ⟨.invalidTarget, some equals.kind, equals.lexeme⟩

def comma : ParserM (Except ParseError Expr) := do
  match ← assignment inner with
  | .error e => return .error e
  | .ok lhs => chain [.comma] (assignment inner) lhs

end

/-- Follows the rule for what begins a level, one level further in. It is the parser's own count
that refuses a level; `levels` is how often this can go on at all. -/
def inside : (levels : Nat) → Entry → ParserM (Except ParseError Expr)
  | 0, _ => nested stuck
  | levels + 1, .expression => nested (comma (inside levels))
  | levels + 1, .assignment => nested (assignment (inside levels))
  | levels + 1, .unary => nested (unary (inside levels))

def expression : ParserM (Except ParseError Expr) := inside Grammar.nestingLimit .expression

/-! ## Statements -/

def variableDeclaration : ParserM (Except ParseError Stmt) := do
  match ← expect .ident .missingVariableName with
  | .error e => return .error e
  | .ok site =>
    let initial ← match ← eatKind (.symbol .equal) with
      | some _ => Except.map some <$> expression
      | none => pure (.ok none)
    match initial with
    | .error e => return .error e
    | .ok initial =>
      match ← expect (.symbol .semicolon) (.missingSemicolon .variableDeclaration) with
      | .error e => return .error e
      | .ok _ => return .ok (.var site initial)

/-- An expression and a semicolon. -/
def terminated (what : Terminated) : ParserM (Except ParseError Expr) := do
  match ← expression with
  | .error e => return .error e
  | .ok e =>
    match ← expect (.symbol .semicolon) (.missingSemicolon what) with
    | .error e => return .error e
    | .ok _ => return .ok e

/-- A statement, where `block` reads what follows an opening brace. -/
def statement (block : ParserM (Except ParseError Stmt)) : ParserM (Except ParseError Stmt) := do
  match ← eatKind (.keyword .printWord) with
  | some _ => return (← terminated .value).map .print
  | none =>
    match ← eatKind (.symbol .leftBrace) with
    | some _ => block
    | none => return (← terminated .expression).map .expression

def declaration (block : ParserM (Except ParseError Stmt)) : ParserM (Except ParseError Stmt) := do
  match ← eatKind (.keyword .varWord) with
  | some _ => variableDeclaration
  | none => statement block

/-- Reads a declaration behind those of `body`, unless there is the brace or the end. -/
def blockRound (declaration : ParserM (Except ParseError Stmt)) (body : List Stmt) :
    ParserM (Round (List Stmt) (Except ParseError (List Stmt))) := do
  let kind := (← peek).kind?
  if kind == none || kind == some (.symbol .rightBrace) then return .done (.ok body)
  else
    match ← declaration with
    | .error e => return .done (.error e)
    | .ok s => return .again (body ++ [s])

def block (declaration : ParserM (Except ParseError Stmt)) : ParserM (Except ParseError Stmt) := do
  match ← loop (blockRound declaration) [] with
  | .error e => return .error e
  | .ok body =>
    match ← expect (.symbol .rightBrace) .unclosedBlock with
    | .error e => return .error e
    | .ok _ => return .ok (.block body)

/-- A declaration that can have `levels` blocks within each other. -/
def declarationWithin : (levels : Nat) → ParserM (Except ParseError Stmt)
  | 0 => declaration (nested stuck)
  | levels + 1 => declaration (nested (block (declarationWithin levels)))

/-! ## Recovery and programs -/

/-- Goes on by a token, unless it is behind a semicolon, or before a word that begins a statement,
or at the end. -/
def seekRound (_ : Unit) : ParserM (Round Unit Unit) := do
  match ← peek with
  | .finish _ => return .done ()
  | .token t =>
    if (← previousKind) = some (.symbol .semicolon) ∨ Grammar.startsStatement t then
      return .done ()
    else
      advance
      return .again ()

def synchronize : ParserM Unit := do
  advance
  loop seekRound ()

/-- What has been read of a program. -/
structure Progress where
  statements : List Stmt
  errors : List ParseError

/-- Reads a declaration, with a recovery if it is wrong, unless there is the end. -/
def programRound (read : Progress) : ParserM (Round Progress Progress) := do
  match ← peek with
  | .finish _ => return .done read
  | .token _ =>
    match ← declarationWithin Grammar.nestingLimit with
    | .ok s => return .again { read with statements := read.statements ++ [s] }
    | .error e =>
      synchronize
      return .again { read with errors := read.errors ++ [e] }

def parse : ParserM (Except (List ParseError) Program) := do
  let read ← loop programRound ⟨[], []⟩
  if read.errors = [] then return .ok read.statements else return .error read.errors

/-! ## Calls -/

/-- Makes a call. -/
def call : ParseStep → ParserM ParseAnswer
  | .expression => return .expression (← expression)
  | .program => return .program (← parse)
  | .synchronize => do
    synchronize
    return .synchronized

/-- Makes calls one after the other. -/
def callAll : List ParseStep → ParserM (List ParseAnswer)
  | [] => return []
  | step :: steps => do
    let answer ← call step
    return answer :: (← callAll steps)

end Parser

end Lox
