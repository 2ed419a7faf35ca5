import Schemata.Text.Basic

/-! The command language of generators: pipelines of simple commands and groups, joined by `;`, `&&` and `||`, with
    quotes, parameters, command substitution and redirections. -/

namespace Schemata.Shell

/-! ### Words -/

/-- A piece of a word. What a piece that is not quoted stands for is cut at blanks. -/
inductive Piece
  | text (s : Text) (quoted : Bool)
  | parameter (name : Text) (quoted : Bool)
  /-- The output of a script. -/
  | output (script : Text) (quoted : Bool)
  deriving DecidableEq, Repr

abbrev Word := List Piece

inductive Lexeme
  | word (w : Word)
  | sign (s : Text)
  /-- A redirection of a descriptor, which may be left out. -/
  | redirect (descriptor : Option Nat) (sign : Text)
  deriving DecidableEq, Repr

inductive Quoting
  | plain
  | single
  | double
  deriving DecidableEq, Repr

/-- How far a text reaches up to the parenthesis that closes it, which is not counted. -/
def closing? (depth : Nat) (quote : Option Char) : Text → Option Nat
  | [] => none
  | c :: s =>
    match quote with
    | some q => (closing? depth (if c == q then none else quote) s).map (· + 1)
    | none =>
      if c == '\'' || c == '"' then (closing? depth (some c) s).map (· + 1)
      else if c == '(' then (closing? (depth + 1) none s).map (· + 1)
      else if c == ')' then
        match depth with
        | 0 => some 0
        | d + 1 => (closing? d none s).map (· + 1)
      else (closing? depth none s).map (· + 1)

def isNameStart (c : Char) : Bool := c.isAlpha || c == '_'

def isNameChar (c : Char) : Bool := c.isAlphanum || c == '_'

/-- What follows a dollar sign, and how many characters it has. A sign that nothing fits behind stands for itself. -/
def readDollar (quoted : Bool) (s : Text) : Piece × Nat :=
  match s with
  | '(' :: r =>
    match closing? 0 none r with
    | some n => (.output (r.take n) quoted, n + 2)
    | none => (.text ['$'] quoted, 0)
  | '{' :: r =>
    match Text.cut? '}' r with
    | some (name, _) => (.parameter name quoted, name.length + 2)
    | none => (.text ['$'] quoted, 0)
  | c :: _ =>
    if isNameStart c then (.parameter (s.takeWhile isNameChar) quoted, (s.takeWhile isNameChar).length)
    else if c.isDigit || ['#', '@', '*', '?', '$'].contains c then (.parameter [c] quoted, 1)
    else (.text ['$'] quoted, 0)
  | [] => (.text ['$'] quoted, 0)

/-- The script between backquotes, and how many characters it has with the closing one. -/
def readBackquoted (quoted : Bool) (s : Text) : Option (Piece × Nat) :=
  (Text.cut? '`' s).map fun (script, _) => (.output script quoted, script.length + 1)

def addPiece (w : Option Word) (p : Piece) : Option Word := some (w.getD [] ++ [p])

/-- The word that ends here, if there is one. -/
def endWord (w : Option Word) : List Lexeme := (w.map Lexeme.word).toList

/-- The descriptor that a word of digits names in front of a redirection. -/
def descriptor? (w : Option Word) : Option Nat :=
  match w with
  | some [.text [d] false] => if d.isDigit then some (d.toNat - '0'.toNat) else none
  | _ => none

/-- The sign of a redirection behind its first character, and how many characters it has. -/
def readRedirect (c : Char) (s : Text) : Text × Nat :=
  match s with
  | '>' :: _ => if c == '>' then (">>", 1) else ([c], 0)
  | '&' :: _ => ([c, '&'], 1)
  | _ => ([c], 0)

/-- A sign that separates commands, and how many characters follow its first. -/
def readSign? (c : Char) (s : Text) : Option (Text × Nat) :=
  if c == '&' || c == '|' then (if s.head? == some c then some ([c, c], 1) else some ([c], 0))
  else if [';', '(', ')', '\n'].contains c then some ([c], 0)
  else none

/-- The lexemes of a script, read in the given quoting with the given beginning of a word; none if a quote stays
    open. -/
def lexemes? (quoting : Quoting) (word : Option Word) : Text → Option (List Lexeme)
  | [] => if quoting == .plain then some (endWord word) else none
  | c :: s =>
    match quoting with
    | .single =>
      if c == '\'' then lexemes? .plain word s else lexemes? .single (addPiece word (.text [c] true)) s
    | .double =>
      if c == '"' then lexemes? .plain word s
      else if c == '$' then
        let (piece, n) := readDollar true s
        lexemes? .double (addPiece word piece) (s.drop n)
      else if c == '`' then
        match readBackquoted true s with
        | some (piece, n) => lexemes? .double (addPiece word piece) (s.drop n)
        | none => none
      else if c == '\\' then
        match s.head? with
        | some d =>
          if d == '\n' then lexemes? .double word (s.drop 1)
          else if ['$', '`', '"', '\\'].contains d then lexemes? .double (addPiece word (.text [d] true)) (s.drop 1)
          else lexemes? .double (addPiece word (.text [c] true)) s
        | none => none
      else lexemes? .double (addPiece word (.text [c] true)) s
    | .plain =>
      if c == ' ' || c == '\t' then (lexemes? .plain none s).map (endWord word ++ ·)
      else if c == '#' && word.isNone then lexemes? .plain none (s.drop (s.takeWhile (· != '\n')).length)
      else if c == '\'' then lexemes? .single (addPiece word (.text [] true)) s
      else if c == '"' then lexemes? .double (addPiece word (.text [] true)) s
      else if c == '\\' then
        match s.head? with
        | some d => lexemes? .plain (if d == '\n' then word else addPiece word (.text [d] true)) (s.drop 1)
        | none => some (endWord (addPiece word (.text [c] true)))
      else if c == '$' then
        let (piece, n) := readDollar false s
        lexemes? .plain (addPiece word piece) (s.drop n)
      else if c == '`' then
        match readBackquoted false s with
        | some (piece, n) => lexemes? .plain (addPiece word piece) (s.drop n)
        | none => none
      else if c == '<' || c == '>' then
        let (sign, n) := readRedirect c s
        let front := if (descriptor? word).isSome then [] else endWord word
        (lexemes? .plain none (s.drop n)).map ((front ++ [.redirect (descriptor? word) sign]) ++ ·)
      else match readSign? c s with
        | some (sign, n) => (lexemes? .plain none (s.drop n)).map ((endWord word ++ [.sign sign]) ++ ·)
        | none => lexemes? .plain (addPiece word (.text [c] false)) s
termination_by s => s.length
decreasing_by all_goals (simp only [List.length_drop, List.length_cons]; omega)

/-! ### Commands -/

/-- When a pipeline runs: always, or by the status of what ran before it. -/
inductive Join
  | always
  | onSuccess
  | onFailure
  deriving DecidableEq, Repr

/-- A redirection of a descriptor to a file, or with `duplicates` to what another descriptor is. -/
structure Redirection where
  descriptor : Nat
  duplicates : Bool
  target : Word
  deriving Repr

/-- A command: words with redirections, or a compound of steps: in braces, in a process of their own, under a
    condition, or repeated. A step is a pipeline with its condition, and whether its status is turned around. -/
inductive Command
  | simple (words : List Word) (redirections : List Redirection)
  | group (steps : List (Join × Bool × List Command)) (redirections : List Redirection)
  | subshell (steps : List (Join × Bool × List Command)) (redirections : List Redirection)
  | branch (condition yes no : List (Join × Bool × List Command)) (redirections : List Redirection)
  /-- Steps that are repeated as long as the condition succeeds or, with `negated`, fails. -/
  | loop ( negated : Bool) (condition body : List (Join × Bool × List Command)) (redirections : List Redirection)
  /-- Steps that run once for each field of words or, if there are no words, for each argument. -/
  | each (name : Text) (words : Option (List Word)) (body : List (Join × Bool × List Command))
    (redirections : List Redirection)

abbrev Step := Join × Bool × List Command

/-- The word that is written as it stands. -/
def plainWord? : Word → Option Text
  | [] => some []
  | .text s false :: rest => (plainWord? rest).map (s ++ ·)
  | _ => none

def isPlain (l : Lexeme) (s : Text) : Bool :=
  match l with
  | .word w => plainWord? w == some s
  | _ => false

/-- The words and redirections at the front. -/
def readSimple : List Lexeme → List Word × List Redirection × List Lexeme
  | .word w :: rest =>
    let (words, redirections, rest) := readSimple rest
    (w :: words, redirections, rest)
  | .redirect d sign :: .word w :: rest =>
    let (words, redirections, rest) := readSimple rest
    (words, ⟨d.getD (if sign.head? == some '<' then 0 else 1), sign.any (· == '&'), w⟩ :: redirections, rest)
  | rest => ([], [], rest)

/-- Words that end steps where a command could begin. -/
def closers : List Text := ["\x7d", "then", "else", "elif", "fi", "do", "done"]

/-- Words that begin compound commands. -/
def openers : List Text := ["\x7b", "if", "while", "until", "for"]

/-- Whether a lexeme separates steps and nothing more. -/
def isBreak (l : Lexeme) : Bool :=
  match l with
  | .sign s => s == ";" || s == "\n"
  | _ => false

mutual

/-- The steps at the front, up to a closing sign or the end. The first argument bounds the calls. -/
def readSteps : Nat → Join → List Lexeme → Option (List Step × List Lexeme)
  | 0, _, _ => none
  | _ + 1, _, [] => some ([], [])
  | n + 1, join, l :: rest =>
    if closers.any (isPlain l) then some ([], l :: rest)
    else match l with
      | .sign s =>
        if s == ")" then some ([], l :: rest)
        else if s == "&&" then readSteps n .onSuccess rest
        else if s == "||" then readSteps n .onFailure rest
        else if s == "\n" then readSteps n join rest
        else if s == "(" then readStep n join (l :: rest)
        else if s == "|" then none
        else readSteps n .always rest
      | _ => readStep n join (l :: rest)

/-- A pipeline and the steps behind it. -/
def readStep : Nat → Join → List Lexeme → Option (List Step × List Lexeme)
  | 0, _, _ => none
  | n + 1, join, ls =>
    let negated := ls.head?.any (isPlain · "!")
    match readStages n (if negated then ls.tail else ls) with
    | none => none
    | some (stages, rest) =>
      match readSteps n .always rest with
      | none => none
      | some (steps, rest) => some ((join, negated, stages) :: steps, rest)

/-- The commands of a pipeline. -/
def readStages : Nat → List Lexeme → Option (List Command × List Lexeme)
  | 0, _ => none
  | n + 1, ls =>
    match readCommand n ls with
    | none => none
    | some (command, .sign ['|'] :: rest) =>
      match readStages n (rest.dropWhile isBreak) with
      | none => none
      | some (commands, rest) => some (command :: commands, rest)
    | some (command, rest) => some ([command], rest)

/-- The steps at the front, up to the given word, which is not among what is left. -/
def readBlock : Nat → Text → List Lexeme → Option (List Step × List Lexeme)
  | 0, _, _ => none
  | n + 1, closer, ls =>
    match readSteps n .always ls with
    | some (steps, l :: rest) => if isPlain l closer then some (steps, rest) else none
    | _ => none

/-- What stands behind `if`: its condition, the steps that follow it, and those that run otherwise. -/
def readBranch : Nat → List Lexeme → Option ((List Step × List Step × List Step) × List Lexeme)
  | 0, _ => none
  | n + 1, ls =>
    match readBlock n "then" ls with
    | none => none
    | some (condition, rest) =>
      match readSteps n .always rest with
      | some (yes, l :: rest) =>
        if isPlain l "fi" then some ((condition, yes, []), rest)
        else if isPlain l "else" then
          match readBlock n "fi" rest with
          | some (no, rest) => some ((condition, yes, no), rest)
          | none => none
        else if isPlain l "elif" then
          match readBranch n rest with
          | some ((condition', yes', no'), rest) =>
            some ((condition, yes, [(.always, false, [.branch condition' yes' no' []])]), rest)
          | none => none
        else none
      | _ => none

/-- The body of a loop, from its `do` on. -/
def readBody : Nat → List Lexeme → Option (List Step × List Lexeme)
  | 0, _ => none
  | n + 1, ls =>
    match ls.dropWhile isBreak with
    | l :: rest => if isPlain l "do" then readBlock n "done" rest else none
    | [] => none

/-- A compound command up to its closing word or sign, which takes the redirections behind it. -/
def readCompound : Nat → List Lexeme → Option ((List Redirection → Command) × List Lexeme)
  | 0, _ => none
  | _ + 1, [] => none
  | n + 1, l :: rest =>
    if l = .sign ['('] then
      match readSteps n .always rest with
      | some (steps, .sign [')'] :: rest) => some (.subshell steps, rest)
      | _ => none
    else if isPlain l "\x7b" then (readBlock n "\x7d" rest).map fun (steps, rest) => (.group steps, rest)
    else if isPlain l "if" then
      (readBranch n rest).map fun ((condition, yes, no), rest) => (.branch condition yes no, rest)
    else if isPlain l "while" || isPlain l "until" then
      (readBlock n "do" rest).bind fun (condition, rest) =>
        (readBlock n "done" rest).map fun (body, rest) => (.loop (isPlain l "until") condition body, rest)
    else if isPlain l "for" then
      match rest with
      | .word name :: rest =>
        let (words, rest) :=
          if rest.head?.any (isPlain · "in") then
            let (words, _, rest) := readSimple rest.tail
            (some words, rest)
          else (none, rest)
        (readBody n rest).map fun (body, rest) => (.each ((plainWord? name).getD []) words body, rest)
      | _ => none
    else none

def readCommand : Nat → List Lexeme → Option (Command × List Lexeme)
  | 0, _ => none
  | n + 1, ls =>
    match readCompound n ls with
    | some (command, rest) =>
      let (_, redirections, rest) := readSimple rest
      some (command redirections, rest)
    | none =>
      let (words, redirections, rest) := readSimple ls
      if words.isEmpty && redirections.isEmpty || ls.head?.any (openers.any <| isPlain ·) then none
      else some (.simple words redirections, rest)

end

/-- The steps of a script; none if it is malformed. -/
def parse? (script : Text) : Option (List Step) :=
  match lexemes? .plain none script with
  | none => none
  | some ls =>
    match readSteps (8 * ls.length + 8) .always ls with
    | some (steps, []) => some steps
    | _ => none

end Schemata.Shell
