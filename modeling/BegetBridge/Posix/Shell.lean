import Mathlib

/-!
# Words and commands of the shell

The tokens of a text of the shell, by its rules of quoting, and the commands that they form. What is not read here is
refused where it begins: substitutions, here-documents, numbers of descriptors, pipelines, lists that are joined by `||`
or `&`, and compound commands other than the subshell.

## Main definitions

* `Piece`, `Token`, `Lexer.step`: the text is read character by character
* `Command`, `Parser.step`: the commands are read token by token
* `commandsOf`: the commands of a text

## Main results

* `Lexer.read_append`: the text is read in parts
* `Lexer.read_single`: what stands between single quotes is literal
-/

namespace Posix.Shell

/-! ## Words -/

/-- A piece of a word: a character, or a parameter that is expanded, within quotes or not. -/
inductive Piece
  | char (quoted : Bool) (c : Char)
  | param (quoted : Bool) (name : List Char)
  deriving DecidableEq

abbrev Word := List Piece

inductive Token
  | word (pieces : Word)
  | op (text : List Char)
  deriving DecidableEq

/-- Where in the text the reading is. -/
inductive Mode
  | plain
  | escape
  | single
  | double
  | doubleEscape
  | dollar (quoted : Bool)
  | name (quoted : Bool) (name : List Char)
  | operator (text : List Char)
  | comment
  | refused
  deriving DecidableEq

/-- The tokens that were read, the word that is read, if one has begun, and where the reading is. -/
structure Lexer where
  tokens : List Token
  word : Option Word
  mode : Mode
  deriving DecidableEq

def blank (c : Char) : Bool := c == ' ' || c == '\t'

def nameStart (c : Char) : Bool := c.isAlpha || c == '_'

def nameChar (c : Char) : Bool := c.isAlphanum || c == '_'

/-- The special and the positional parameters of one character. -/
def specialParameter (c : Char) : Bool := c.isDigit || c ∈ ['@', '*', '#', '?', '-', '$', '!']

/-- The characters that begin an operator. -/
def operatorStart (c : Char) : Bool := c ∈ [';', '&', '|', '<', '>', '(', ')']

/-- The operators that another character follows. -/
def operators : List (List Char) :=
  [['&', '&'], ['|', '|'], [';', ';'], ['<', '<'], ['>', '>'], ['<', '&'], ['>', '&'], ['<', '>'], ['>', '|'], ['<', '<', '-']]

/-- The text stands in the word within quotes. -/
def Word.quoted (text : List Char) : Word := text.map (.char true)

/-- The text is the word, and nothing of it is quoted. -/
def Word.unquoted (text : List Char) : Word := text.map (.char false)

/-- The word before a redirection is the number of a descriptor. -/
def descriptor (word : Option Word) : Bool :=
  match word with
  | none => false
  | some pieces => !pieces.isEmpty && pieces.all fun | .char false c => c.isDigit | _ => false

namespace Lexer

/-- A word has begun. -/
def begun (l : Lexer) (mode : Mode) : Lexer := { l with word := some (l.word.getD []), mode := mode }

def add (l : Lexer) (piece : Piece) (mode : Mode) : Lexer :=
  { l with word := some (l.word.getD [] ++ [piece]), mode := mode }

/-- The word that is read has ended. -/
def delimited (l : Lexer) : Lexer :=
  { l with tokens := l.tokens ++ (l.word.map .word).toList, word := none }

def push (l : Lexer) (text : List Char) : Lexer := { l with tokens := l.tokens ++ [.op text], mode := .plain }

/-- A character outside of quotes. -/
def plainStep (l : Lexer) (c : Char) : Lexer :=
  if c = '\\' then { l with mode := .escape }
  else if c = '\'' then l.begun .single
  else if c = '"' then l.begun .double
  else if c = '$' then { l with mode := .dollar false }
  else if c = '`' then { l with mode := .refused }
  else if blank c then { l.delimited with mode := .plain }
  else if c = '\n' then l.delimited.push ['\n']
  else if c = '#' ∧ l.word = none then { l with mode := .comment }
  else if (c = '<' ∨ c = '>') ∧ descriptor l.word then { l with mode := .refused }
  else if operatorStart c then { l.delimited with mode := .operator [c] }
  else l.add (.char false c) .plain

/-- A character within double quotes. -/
def doubleStep (l : Lexer) (c : Char) : Lexer :=
  if c = '"' then { l with mode := .plain }
  else if c = '\\' then { l with mode := .doubleEscape }
  else if c = '$' then { l with mode := .dollar true }
  else if c = '`' then { l with mode := .refused }
  else l.add (.char true c) .double

/-- A character where the parameter or the dollar before it has ended. -/
def resume (l : Lexer) (quoted : Bool) (c : Char) : Lexer := if quoted then l.doubleStep c else l.plainStep c

def within (quoted : Bool) : Mode := if quoted then .double else .plain

def step (l : Lexer) (c : Char) : Lexer :=
  match l.mode with
  | .plain => l.plainStep c
  | .escape => if c = '\n' then { l with mode := .plain } else l.add (.char true c) .plain
  | .single => if c = '\'' then { l with mode := .plain } else l.add (.char true c) .single
  | .double => l.doubleStep c
  | .doubleEscape =>
    if c = '\n' then { l with mode := .double }
    else if c ∈ ['$', '`', '"', '\\'] then l.add (.char true c) .double
    else (l.add (.char true '\\') .double).add (.char true c) .double
  | .dollar quoted =>
    if specialParameter c then l.add (.param quoted [c]) (within quoted)
    else if nameStart c then { l with mode := .name quoted [c] }
    else if c = '(' ∨ c = '{' then { l with mode := .refused }
    else (l.add (.char quoted '$') (within quoted)).resume quoted c
  | .name quoted name =>
    if nameChar c then { l with mode := .name quoted (name ++ [c]) }
    else (l.add (.param quoted name) (within quoted)).resume quoted c
  | .operator text =>
    if text ++ [c] ∈ operators then { l with mode := .operator (text ++ [c]) } else (l.push text).plainStep c
  | .comment => if c = '\n' then l.push ['\n'] else l
  | .refused => l

def start : Lexer := ⟨[], none, .plain⟩

/-- The reading of the text goes on. -/
def read (l : Lexer) (text : List Char) : Lexer := text.foldl step l

/-- The tokens where the text ends there. -/
def ended (l : Lexer) : Option (List Token) :=
  match l.mode with
  | .plain => some l.delimited.tokens
  | .name false name => some (l.add (.param false name) .plain).delimited.tokens
  | .dollar false => some (l.add (.char false '$') .plain).delimited.tokens
  | .operator text => some (l.tokens ++ [.op text])
  | .comment => some l.tokens
  | _ => none

/-- **The text is read in parts.** -/
theorem read_append (l : Lexer) (text rest : List Char) : l.read (text ++ rest) = (l.read text).read rest :=
  List.foldl_append

/-- What is quoted is added to the word as it is. -/
def literal (l : Lexer) (s : List Char) : Lexer :=
  { l with word := some (l.word.getD [] ++ Word.quoted s) }

/-- **Between single quotes everything is literal**, but for the quote. -/
theorem read_single {l : Lexer} {s : List Char} (hl : l.mode = .single) (hs : '\'' ∉ s) (hw : l.word ≠ none) :
    l.read s = l.literal s := by
  induction s generalizing l with
  | nil =>
    obtain ⟨tokens, _ | word, mode⟩ := l
    · exact absurd rfl hw
    · simp [read, literal, Word.quoted]
  | cons c s ih =>
    have hc : c ≠ '\'' := fun h => hs (h ▸ List.mem_cons_self)
    have hstep : l.step c = l.add (.char true c) .single := by simp [step, hl, hc]
    change (l.step c).read s = _
    rw [hstep, ih rfl (fun h => hs (List.mem_cons_of_mem c h)) (by simp [add])]
    simp [add, literal, Word.quoted, ← hl]

end Lexer

/-! ## Commands -/

/-- A command: assignments, words and redirections; or a subshell, with the lists of commands that are joined by `&&`,
one after another. -/
inductive Command
  | simple (assignments : List (List Char × Word)) (words : List Word) (redirections : List (List Char × Word))
  | subshell (body : List (List Command))

/-- The words that begin another kind of command. -/
def reserved : List (List Char) :=
  ["if", "then", "else", "elif", "fi", "do", "done", "case", "esac", "while", "until", "for", "\x7b", "\x7d", "!", "in"].map
    String.toList

/-- `name=value`, of which the name and the sign are not quoted. -/
def assignment (name : List Char) : Word → Option (List Char × Word)
  | .char false c :: rest =>
    if c = '=' ∧ name ≠ [] then some (name, rest)
    else if (if name = [] then nameStart c else nameChar c) then assignment (name ++ [c]) rest
    else none
  | _ => none

/-- What is read of a command. -/
inductive Part
  | none
  | simple (assignments : List (List Char × Word)) (words : List Word) (redirections : List (List Char × Word))
    (pending : Option (List Char))
  | closed (body : List (List Command))

/-- The lists that were read, the one that is read, and the command. -/
structure Frame where
  done : List (List Command)
  joined : List Command
  part : Part

namespace Frame

def empty : Frame := ⟨[], [], .none⟩

/-- The command has ended. -/
def finished (f : Frame) : Option Frame :=
  match f.part with
  | .none => none
  | .simple assignments words redirections Option.none =>
    some ⟨f.done, f.joined ++ [.simple assignments words redirections], .none⟩
  | .simple _ _ _ (some _) => none
  | .closed body => some ⟨f.done, f.joined ++ [.subshell body], .none⟩

/-- The list has ended. -/
def separated (f : Frame) : Option Frame := f.finished.map fun f => ⟨f.done ++ [f.joined], [], .none⟩

/-- The lists of a frame that ends, where the last one may be missing. -/
def ended (f : Frame) : Option (List (List Command)) :=
  match f.part, f.joined with
  | .none, [] => some f.done
  | _, _ => f.separated.map Frame.done

/-- A word of the command. -/
def word (f : Frame) (w : Word) : Option Frame :=
  match f.part with
  | .none =>
    if w ∈ reserved.map Word.unquoted then none
    else match assignment [] w with
      | some a => some { f with part := .simple [a] [] [] none }
      | none => some { f with part := .simple [] [w] [] none }
  | .simple assignments words redirections (some op) =>
    some { f with part := .simple assignments words (redirections ++ [(op, w)]) none }
  | .simple assignments [] redirections none =>
    match assignment [] w with
    | some a => some { f with part := .simple (assignments ++ [a]) [] redirections none }
    | none => some { f with part := .simple assignments [w] redirections none }
  | .simple assignments words redirections none =>
    some { f with part := .simple assignments (words ++ [w]) redirections none }
  | .closed _ => none

/-- A redirection of the command. -/
def redirected (f : Frame) (op : List Char) : Option Frame :=
  match f.part with
  | .none => some { f with part := .simple [] [] [] (some op) }
  | .simple assignments words redirections none => some { f with part := .simple assignments words redirections (some op) }
  | _ => none

end Frame

/-- The subshells that were begun, the innermost one first. -/
structure Parser where
  top : Frame
  outer : List Frame

namespace Parser

def step (p : Parser) : Token → Option Parser
  | .word w => (p.top.word w).map fun f => { p with top := f }
  | .op [';'] => p.top.separated.map fun f => { p with top := f }
  -- A line ends where a command does; elsewhere its end stands for nothing.
  | .op ['\n'] =>
    match p.top.part with
    | .none => some p
    | _ => p.top.separated.map fun f => { p with top := f }
  | .op ['&', '&'] => p.top.finished.map fun f => { p with top := f }
  | .op ['>'] => (p.top.redirected ['>']).map fun f => { p with top := f }
  | .op ['<'] => (p.top.redirected ['<']).map fun f => { p with top := f }
  | .op ['('] =>
    match p.top.part with
    | .none => some ⟨.empty, p.top :: p.outer⟩
    | _ => none
  | .op [')'] =>
    match p.outer with
    | [] => none
    | f :: outer =>
      match p.top.ended with
      | some (list :: body) => some ⟨{ f with part := .closed (list :: body) }, outer⟩
      | _ => none
  | _ => none

def read (p : Parser) : List Token → Option Parser
  | [] => some p
  | t :: rest => (p.step t).bind fun p => p.read rest

/-- The commands, where no subshell is open. -/
def ended (p : Parser) : Option (List (List Command)) :=
  match p.outer with
  | [] => p.top.ended
  | _ => none

end Parser

/-- **The commands of a text**, the lists one after another. -/
def commandsOf (text : List Char) : Option (List (List Command)) := do
  let tokens ← (Lexer.start.read text).ended
  let p ← (Parser.mk .empty []).read tokens
  p.ended

/-- Two commands are read; a substitution is refused. -/
example : ((commandsOf "echo 'a b'; true".toList).map fun lists => lists.map List.length) = some [1, 1] ∧
    (commandsOf "echo `date`".toList).isSome = false := by decide +kernel

end Posix.Shell
