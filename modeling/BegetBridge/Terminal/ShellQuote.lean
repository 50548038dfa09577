import BegetBridge.Posix.Shell

/-!
# The line of a command

A command of a session is pasted into its shell as one line, in which it stands quoted, and which publishes the status
of the command in a file under its final name.

## Main definitions

* `shellQuote`, `wrapped`, `pasted`: the text that is pasted

## Main results

* `read_shellQuote`: what is quoted is read as it is, and the reading goes on after it
* `shellQuote_exact`: the shell reads the line as the command and the record of its status, whatever the command is
-/

namespace BegetBridge.ShellQuote

open Posix.Shell

/-- `shellQuote`: every quote of the value ends the quotes, stands for itself, and begins them again. -/
def shellQuote (value : List Char) : List Char :=
  '\'' :: value.flatMap (fun c => if c = '\'' then ['\'', '\\', '\'', '\''] else [c]) ++ ['\'']

/-- The line of `runCommand`. -/
def wrapped (command completionPartPath completionPath : List Char) : List Char :=
  "eval -- ".toList ++ shellQuote command ++
    "; __dpb_exit=$?; ( umask 077; printf '%s\\n' \"$__dpb_exit\" > ".toList ++ shellQuote completionPartPath ++
    " && mv -f -- ".toList ++ shellQuote completionPartPath ++ " ".toList ++ shellQuote completionPath ++ " )".toList

/-- `paste` with `enter`: the end of the line enters it. -/
def pasted (text : List Char) : List Char := text ++ ['\n']

/-! ## Quoting -/

/-- Within the quotes, the value is read as it is. -/
theorem read_value {s : List Char} {tokens : List Token} {word : Word} :
    (Lexer.mk tokens (some word) .single).read
      (s.flatMap fun c => if c = '\'' then ['\'', '\\', '\'', '\''] else [c]) =
      ⟨tokens, some (word ++ Word.quoted s), .single⟩ := by
  induction s generalizing word with
  | nil => simp [Lexer.read, Word.quoted]
  | cons c s ih =>
    rw [List.flatMap_cons, Lexer.read_append]
    have hc : (Lexer.mk tokens (some word) .single).read (if c = '\'' then ['\'', '\\', '\'', '\''] else [c]) =
        ⟨tokens, some (word ++ Word.quoted [c]), .single⟩ := by
      split
      case isTrue h =>
        subst h
        rfl
      case isFalse h => simp [Lexer.read, Lexer.step, Lexer.add, Word.quoted, h]
    rw [hc, ih]
    simp [Word.quoted]

/-- **What is quoted is added to the word as it is.** -/
theorem read_shellQuote {tokens : List Token} {word : Option Word} {s : List Char} :
    (Lexer.mk tokens word .plain).read (shellQuote s) =
      ⟨tokens, some (word.getD [] ++ Word.quoted s), .plain⟩ := by
  unfold shellQuote
  rw [Lexer.read_append]
  change ((Lexer.mk tokens (some (word.getD [])) .single).read _).read _ = _
  rw [read_value]
  rfl

example : (Lexer.start.read (shellQuote "it's".toList)).ended = some [.word (.quoted "it's".toList)] := by decide

/-! ## The line -/

/-- The command of the line. -/
def evaluation (command : List Char) : Command :=
  .simple [] [.unquoted "eval".toList, .unquoted "--".toList, .quoted command] []

/-- The status of the command is kept. -/
def status : Command := .simple [("__dpb_exit".toList, [.param false ['?']])] [] []

/-- The status is written to the first file, which is moved to the second one. -/
def record (completionPartPath completionPath : List Char) : Command :=
  .subshell
    [[.simple [] [.unquoted "umask".toList, .unquoted "077".toList] []],
      [.simple [] [.unquoted "printf".toList, .quoted "%s\\n".toList, [.param true "__dpb_exit".toList]]
          [(">".toList, .quoted completionPartPath)],
        .simple [] [.unquoted "mv".toList, .unquoted "-f".toList, .unquoted "--".toList, .quoted completionPartPath,
          .quoted completionPath] []]]

/-- The tokens of the line. -/
def tokensOf (command part path : List Char) : List Token :=
  [.word (.unquoted "eval".toList), .word (.unquoted "--".toList), .word (.quoted command), .op [';'],
    .word (Word.unquoted "__dpb_exit=".toList ++ [.param false ['?']]), .op [';'], .op ['('],
    .word (.unquoted "umask".toList), .word (.unquoted "077".toList), .op [';'], .word (.unquoted "printf".toList),
    .word (.quoted "%s\\n".toList), .word [.param true "__dpb_exit".toList], .op ['>'], .word (.quoted part),
    .op ['&', '&'], .word (.unquoted "mv".toList), .word (.unquoted "-f".toList), .word (.unquoted "--".toList),
    .word (.quoted part), .word (.quoted path), .op [')'], .op ['\n']]

/-- The reading of the line, from one of its values to the next. -/
theorem read_wrapped {command part path : List Char} :
    Lexer.start.read (pasted (wrapped command part path)) = ⟨tokensOf command part path, none, .plain⟩ := by
  have heval : Lexer.start.read "eval -- ".toList = ⟨(tokensOf command part path).take 2, none, .plain⟩ := rfl
  have hstatus : (Lexer.mk ((tokensOf command part path).take 2) (some (.quoted command)) .plain).read
      "; __dpb_exit=".toList = ⟨(tokensOf command part path).take 4, some (.unquoted "__dpb_exit=".toList), .plain⟩ :=
    rfl
  have hdollar : (Lexer.mk ((tokensOf command part path).take 4) (some (.unquoted "__dpb_exit=".toList)) .plain).read
      "$?; ( ".toList = ⟨(tokensOf command part path).take 7, none, .plain⟩ := rfl
  have humask : (Lexer.mk ((tokensOf command part path).take 7) none .plain).read "umask 077; ".toList =
      ⟨(tokensOf command part path).take 10, none, .plain⟩ := rfl
  have hprintf : (Lexer.mk ((tokensOf command part path).take 10) none .plain).read
      "printf '%s\\n' ".toList = ⟨(tokensOf command part path).take 12, none, .plain⟩ := rfl
  have hexit : (Lexer.mk ((tokensOf command part path).take 12) none .plain).read "\"$__dpb_exit\" > ".toList =
      ⟨(tokensOf command part path).take 14, none, .plain⟩ := rfl
  have hmove : (Lexer.mk ((tokensOf command part path).take 14) (some (.quoted part)) .plain).read
      " && mv -f -- ".toList = ⟨(tokensOf command part path).take 19, none, .plain⟩ := rfl
  have hblank : (Lexer.mk ((tokensOf command part path).take 19) (some (.quoted part)) .plain).read " ".toList =
      ⟨(tokensOf command part path).take 20, none, .plain⟩ := rfl
  have hend : (Lexer.mk ((tokensOf command part path).take 20) (some (.quoted path)) .plain).read
      (" )".toList ++ ['\n']) = ⟨tokensOf command part path, none, .plain⟩ := rfl
  have hsplit : "; __dpb_exit=$?; ( umask 077; printf '%s\\n' \"$__dpb_exit\" > ".toList =
      "; __dpb_exit=".toList ++ ("$?; ( ".toList ++ ("umask 077; ".toList ++ ("printf '%s\\n' ".toList ++
        "\"$__dpb_exit\" > ".toList))) := by
    decide
  unfold pasted wrapped
  rw [hsplit]
  simp only [List.append_assoc, Lexer.read_append, heval, read_shellQuote, Option.getD_none, List.nil_append, hstatus,
    hdollar, humask, hprintf, hexit, hmove, hblank]
  rw [← Lexer.read_append, hend]

theorem commandsOf_wrapped {command part path : List Char} :
    commandsOf (pasted (wrapped command part path)) = some [[evaluation command], [status], [record part path]] := by
  unfold commandsOf
  rw [read_wrapped]
  rfl

/-- **The quoting is exact**: the shell reads what is quoted as one part of a word whose value it is, and goes on after
it; and of the line that is pasted it reads the evaluation of the command, its status, and the record of it with the two
paths, whatever they contain. -/
theorem shellQuote_exact :
    (∀ (tokens : List Token) (word : Option Word) (s t : List Char),
      (Lexer.mk tokens word .plain).read (shellQuote s ++ t) =
        (Lexer.mk tokens (some (word.getD [] ++ Word.quoted s)) .plain).read t) ∧
      ∀ command completionPartPath completionPath : List Char,
        commandsOf (pasted (wrapped command completionPartPath completionPath)) =
          some [[evaluation command], [status], [record completionPartPath completionPath]] :=
  ⟨fun _ _ _ _ => by rw [Lexer.read_append, read_shellQuote], fun _ _ _ => commandsOf_wrapped⟩

end BegetBridge.ShellQuote
