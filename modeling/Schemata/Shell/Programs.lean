import Schemata.Shell.Process

/-! The programs a generator may be made of, as functions of their arguments and their input. -/

namespace Schemata.Shell

def newline : UInt8 := 10

/-- How a program refuses its arguments. -/
def refusal (program message : Text) : Completion :=
  .failure (program ++ ": " ++ message ++ "\nTry '" ++ program ++ " --help' for more information.\n") 1

/-- How a program refuses a letter that is not among its options. -/
def unknownOption (program : Text) (letter : Char) : Completion :=
  refusal program ("invalid option -- '" ++ [letter] ++ "'")

/-! ### Escapes -/

def isOctal (c : Char) : Bool := '0' ≤ c && c ≤ '7'

def octalValue (digits : Text) : UInt8 := UInt8.ofNat (digits.foldl (fun n c => n * 8 + (c.toNat - '0'.toNat)) 0)

/-- The character that a letter behind a backslash stands for. -/
def escaped? : Char → Option UInt8
  | 'a' => some 7
  | 'b' => some 8
  | 't' => some 9
  | 'n' => some 10
  | 'v' => some 11
  | 'f' => some 12
  | 'r' => some 13
  | '\\' => some 92
  | _ => none

/-- One character of a text with escapes: its bytes, and how many characters of `s` behind `c` belong to it. With
    `leadingZero`, an octal escape has a zero before its digits. -/
def unescapeFirst (leadingZero : Bool) (c : Char) (s : Text) : Bytes × Nat :=
  match c, s with
  | '\\', d :: r =>
    let digits :=
      if leadingZero then (if d == '0' then d :: (r.take 3).takeWhile isOctal else [])
      else (s.take 3).takeWhile isOctal
    if digits.isEmpty then
      match escaped? d with
      | some b => ([b], 1)
      | none => (Utf8.encode [c], 0)
    else ([octalValue digits], digits.length)
  | _, _ => (Utf8.encode [c], 0)

/-- The bytes of a text with escapes, up to the escape `\c` if that is honoured, and whether it was met. -/
def unescape (leadingZero : Bool) : Text → Bytes × Bool
  | [] => ([], false)
  | c :: s =>
    if leadingZero && c == '\\' && s.head? == some 'c' then ([], true)
    else
      let (bytes, n) := unescapeFirst leadingZero c s
      let (rest, stopped) := unescape leadingZero (s.drop n)
      (bytes ++ rest, stopped)
termination_by s => s.length
decreasing_by simp only [List.length_drop, List.length_cons]; omega

/-! ### Writing arguments -/

/-- The arguments with blanks between them. With `escapes`, backslashes are honoured. -/
def echoWith (escapes ended : Bool) (args : List Text) : Completion :=
  let line := Text.join " " args
  if escapes then
    let (bytes, stopped) := unescape true line
    .success (if ended && !stopped then bytes ++ [newline] else bytes)
  else .success (if ended then Utf8.encode line ++ [newline] else Utf8.encode line)

/-- The shell's own `echo`, which always honours backslashes. -/
def echoBuiltin : List Text → Completion
  | ['-', 'n'] :: args => echoWith true false args
  | args => echoWith true true args

/-- `echo` as a program, with its options in front. -/
def echoProgram (escapes ended : Bool) : List Text → Completion
  | [] => echoWith escapes ended []
  | arg :: args =>
    match arg with
    | '-' :: o :: os =>
      if (o :: os).all ['n', 'e', 'E'].contains then
        let final := ((o :: os).filter (· != 'n')).getLast?
        echoProgram (final.elim escapes (· == 'e')) (ended && !(o :: os).contains 'n') args
      else echoWith escapes ended (arg :: args)
    | _ => echoWith escapes ended (arg :: args)

/-- A piece of a format: bytes, or a place for an argument with its width and precision. -/
inductive FormatPiece
  | bytes (b : Bytes)
  | place (left zero : Bool) (width : Nat) (precision : Option Nat) (conversion : Char)

def natOf (digits : Text) : Nat := digits.foldl (fun n c => n * 10 + (c.toNat - '0'.toNat)) 0

/-- A place of a format behind its percent sign, and how many characters it has. -/
def readPlace (s : Text) : Option (FormatPiece × Nat) :=
  let flags := s.takeWhile fun c => c == '-' || c == '0'
  let s₁ := s.drop flags.length
  let width := s₁.takeWhile Char.isDigit
  let s₂ := s₁.drop width.length
  let (precision, s₃) := match s₂ with
    | '.' :: r => (some (natOf (r.takeWhile Char.isDigit)), r.dropWhile Char.isDigit)
    | _ => (none, s₂)
  match s₃ with
  | c :: r => some (.place (flags.contains '-') (flags.contains '0') (natOf width) precision c, s.length - r.length)
  | [] => none

/-- A byte that is written `\xHH`, and how many characters are behind its backslash. -/
def hexEscape? (c : Char) (s : Text) : Option (Bytes × Nat) :=
  match c, s with
  | '\\', 'x' :: r =>
    let digits := (r.take 2).takeWhile fun d => d.isDigit || ('a' ≤ d && d ≤ 'f') || ('A' ≤ d && d ≤ 'F')
    let value := digits.foldl (fun n d => n * 16 + hexValue d) 0
    if digits.isEmpty then none else some ([UInt8.ofNat value], digits.length + 1)
  | _, _ => none
where
  hexValue (d : Char) : Nat :=
    if d.isDigit then d.toNat - '0'.toNat else d.toLower.toNat - 'a'.toNat + 10

/-- The pieces of a format. With `hex`, the escapes `\xHH` are honoured. -/
def formatPieces (hex : Bool) : Text → List FormatPiece
  | [] => []
  | c :: s =>
    if c == '%' then
      if s.head? == some '%' then .bytes [37] :: formatPieces hex (s.drop 1)
      else match readPlace s with
        | some (piece, n) => piece :: formatPieces hex (s.drop n)
        | none => [.bytes [37]]
    else
      let (b, n) := (if hex then hexEscape? c s else none).getD (unescapeFirst false c s)
      .bytes b :: formatPieces hex (s.drop n)
termination_by s => s.length
decreasing_by all_goals (simp only [List.length_drop, List.length_cons]; omega)

/-- Fills up to a width. -/
def pad (left zero : Bool) (width : Nat) (b : Bytes) : Bytes :=
  let fill : Bytes := List.replicate (width - b.length) (if zero && !left then 48 else 32)
  if left then b ++ fill else fill ++ b

/-- A number as it stands in an argument, without its sign. -/
def wholeNumber (arg : Text) : Bool × Nat :=
  match arg with
  | '-' :: r => (true, natOf (r.takeWhile Char.isDigit))
  | '+' :: r => (false, natOf (r.takeWhile Char.isDigit))
  | r => (false, natOf (r.takeWhile Char.isDigit))

/-- An argument in its place. -/
def fillPlace (left zero : Bool) (width : Nat) (precision : Option Nat) (conversion : Char) (arg : Text) : Bytes :=
  match conversion with
  | 's' => pad left false width (precision.elim (Utf8.encode arg) (Utf8.encode arg).take)
  | 'b' => pad left false width (unescape true arg).1
  | 'c' => pad left false width ((Utf8.encode arg).take 1)
  | 'x' => pad left zero width (Utf8.encode (Nat.toDigits 16 (wholeNumber arg).2))
  | 'o' => pad left zero width (Utf8.encode (Nat.toDigits 8 (wholeNumber arg).2))
  | _ =>
    let (negative, n) := wholeNumber arg
    pad left zero width (Utf8.encode (if negative then '-' :: decimal n else decimal n))

/-- Writes the pieces of a format with arguments from the front, and gives the arguments left. -/
def fillFormat : List FormatPiece → List Text → Bytes × List Text
  | [], args => ([], args)
  | .bytes b :: rest, args =>
    let (out, args) := fillFormat rest args
    (b ++ out, args)
  | .place left zero width precision conversion :: rest, args =>
    let (out, left') := fillFormat rest args.tail
    (fillPlace left zero width precision conversion (args.headD []) ++ out, left')

/-- Writes a format again and again until no argument is left; `rounds` bounds the rounds. -/
def fillRounds (pieces : List FormatPiece) : Nat → List Text → Bytes
  | 0, _ => []
  | rounds + 1, args =>
    let (out, left) := fillFormat pieces args
    if left.isEmpty || left.length == args.length then out else out ++ fillRounds pieces rounds left

/-- `printf` as a program or, with less escapes, as the shell has it. -/
def printf (builtin : Bool) : List Text → Completion
  | [] => refusal "printf" "missing operand"
  | format :: args =>
    let (format, args) := if format == "--" then (args.headD [], args.tail) else (format, args)
    .success (fillRounds (formatPieces (!builtin) format) (args.length + 1) args)

/-! ### Reading input -/

/-- The files of a program in order, `-` for its input, which ends when it is read. Files that cannot be read are
    complained about, with the words of the program in front. -/
def readFiles (complaint : Text → Text) (read : ReadFile) : Bytes → List Text → Bytes × Bytes × Nat
  | _, [] => ([], [], 0)
  | input, file :: rest =>
    if file == "-" || file == "/dev/stdin" then
      let (out, errors, code) := readFiles complaint read [] rest
      (input ++ out, errors, code)
    else match read file with
      | .ok bytes =>
        let (out, errors, code) := readFiles complaint read input rest
        (bytes ++ out, errors, code)
      | .error e =>
        let (out, errors, _) := readFiles complaint read input rest
        (out, Utf8.encode (complaint file ++ ": " ++ e.reason ++ "\n") ++ errors, 1)

/-- What a program that works on files reads: the named ones one after the other, and its input if none is named. -/
def readAll (complaint : Text → Text) (read : ReadFile) (input : Bytes) (files : List Text) : Bytes × Bytes × Nat :=
  readFiles complaint read input (if files.isEmpty then ["-"] else files)

/-- Whether an argument is an option. -/
def isOption (arg : Text) : Bool := arg.head? == some '-' && arg.length > 1

def cat (read : ReadFile) (input : Bytes) (args : List Text) : Completion :=
  match (args.filter fun a => isOption a && a != "--").flatMap List.tail |>.find? (· != 'u') with
  | some letter => unknownOption "cat" letter
  | none =>
    let (out, errors, code) := readAll ("cat: " ++ ·) read input (args.filter (!isOption ·))
    ⟨out, errors, .exited code⟩

/-- Cuts bytes behind each line feed. -/
def byteLines : Bytes → List Bytes
  | [] => []
  | b :: s =>
    match byteLines s with
    | [] => [[b]]
    | line :: rest => if b == newline then [b] :: line :: rest else (b :: line) :: rest

/-- What is counted from: so many units before the end or, with a plus sign, from a unit on. -/
structure Extent where
  bytes : Bool
  fromStart : Bool
  count : Nat

/-- The options of `tail` and `head`, and the files behind them. -/
def readExtent (e : Extent) : List Text → Extent × List Text
  | [] => (e, [])
  | arg :: rest =>
    match arg with
    | ['-', 'n'] => readExtent (amount { e with bytes := false } (rest.headD [])) rest.tail
    | ['-', 'c'] => readExtent (amount { e with bytes := true } (rest.headD [])) rest.tail
    | '-' :: 'n' :: n => readExtent (amount { e with bytes := false } n) rest
    | '-' :: 'c' :: n => readExtent (amount { e with bytes := true } n) rest
    | '-' :: d :: n => if d.isDigit then readExtent (amount e (d :: n)) rest else (e, arg :: rest)
    | _ => (e, arg :: rest)
termination_by args => args.length
decreasing_by all_goals (simp only [List.length_tail, List.length_cons]; omega)
where
  amount (e : Extent) : Text → Extent
    | '+' :: n => { e with fromStart := true, count := natOf n }
    | '-' :: n => { e with fromStart := false, count := natOf n }
    | n => { e with fromStart := false, count := natOf n }

/-- The last of some units. -/
def lastUnits {α : Type} (e : Extent) (units : List α) : List α :=
  if e.fromStart then units.drop (e.count - 1) else units.drop (units.length - e.count)

def openComplaint (program file : Text) : Text := program ++ ": cannot open '" ++ file ++ "' for reading"

def tail (read : ReadFile) (input : Bytes) (args : List Text) : Completion :=
  let (e, files) := readExtent ⟨false, false, 10⟩ args
  let (bytes, errors, code) := readAll (openComplaint "tail") read input files
  ⟨if e.bytes then lastUnits e bytes else (lastUnits e (byteLines bytes)).flatten, errors, .exited code⟩

def head (read : ReadFile) (input : Bytes) (args : List Text) : Completion :=
  let (e, files) := readExtent ⟨false, false, 10⟩ args
  let (bytes, errors, code) := readAll (openComplaint "head") read input files
  ⟨if e.bytes then bytes.take e.count else ((byteLines bytes).take e.count).flatten, errors, .exited code⟩

def isByteSpace (b : UInt8) : Bool := b == 32 || (9 ≤ b && b ≤ 13)

/-- The number of words: of stretches without white space. -/
def countWords (s : Bytes) : Nat := ((s.splitOnP isByteSpace).filter fun w => !w.isEmpty).length

/-- Counts lines, words, characters and bytes, as asked for, or all but characters. -/
def wc (read : ReadFile) (input : Bytes) (args : List Text) : Completion :=
  let options := ((args.filter isOption).flatMap List.tail).filter (· != '-')
  let files := args.filter (!isOption ·)
  let (bytes, errors, code) := readAll ("wc: " ++ ·) read input files
  let asked (c : Char) : Bool := if options.isEmpty then c != 'm' else options.contains c
  let counts := (if asked 'l' then [bytes.count newline] else []) ++ (if asked 'w' then [countWords bytes] else []) ++
    (if asked 'm' then [(Utf8.decodeLossy bytes).length] else []) ++ (if asked 'c' then [bytes.length] else [])
  let width :=
    if counts.length == 1 then 1 else if files.isEmpty || files.contains "-" then 7 else (decimal bytes.length).length
  let column (n : Nat) : Text := List.replicate (width - (decimal n).length) ' ' ++ decimal n
  let columns := counts.map column ++ files.take 1
  match options.find? fun c => c != 'l' && c != 'w' && c != 'm' && c != 'c' with
  | some letter => unknownOption "wc" letter
  | none => ⟨if code == 0 then Utf8.encode (Text.join " " columns) ++ [newline] else [], errors, .exited code⟩

/-! ### Exchanging characters -/

/-- The bytes of a character class. -/
def classBytes (name : Text) : Bytes :=
  let all : Bytes := (List.range 128).map UInt8.ofNat
  let p : Char → Bool :=
    if name == "upper" then Char.isUpper else if name == "lower" then Char.isLower
    else if name == "digit" then Char.isDigit else if name == "alpha" then Char.isAlpha
    else if name == "alnum" then Char.isAlphanum
    else if name == "space" then fun c => c == ' ' || (9 ≤ c.toNat && c.toNat ≤ 13)
    else if name == "blank" then fun c => c == ' ' || c == '\t'
    else if name == "punct" then fun c => 32 < c.toNat && c.toNat < 127 && !c.isAlphanum
    else if name == "cntrl" then fun c => c.toNat < 32 || c.toNat == 127
    else fun _ => false
  all.filter fun b => p (Char.ofNat b.toNat)

/-- The bytes a set of characters stands for, with ranges and classes. -/
def setBytes : Text → Bytes
  | [] => []
  | c :: s =>
    match (if c == '[' then Text.dropPrefix? ":" s else none).bind (Text.cutAt? ":]") with
    | some (name, _) => classBytes name ++ setBytes (s.drop (name.length + 3))
    | none =>
      let (low, n) := unescapeFirst false c s
      match s.drop n with
      | '-' :: h :: r =>
        let (high, m) := unescapeFirst false h r
        range low high ++ setBytes (s.drop (n + 2 + m))
      | _ => low ++ setBytes (s.drop n)
termination_by s => s.length
decreasing_by all_goals (simp only [List.length_drop, List.length_cons]; omega)
where
  range (low high : Bytes) : Bytes :=
    match low, high with
    | [a], [b] => (List.range (b.toNat + 1 - a.toNat)).map fun i => UInt8.ofNat (a.toNat + i)
    | _, _ => low ++ [45] ++ high

/-- One byte for each run of a repeated byte of the set. -/
def squeeze (set : Bytes) : Bytes → Bytes
  | a :: b :: s => if a == b && set.contains a then squeeze set (b :: s) else a :: squeeze set (b :: s)
  | s => s

def tr (input : Bytes) (args : List Text) : Completion :=
  let options := (args.takeWhile isOption).flatMap List.tail
  let sets := (args.dropWhile isOption).map setBytes
  let complement := options.contains 'c' || options.contains 'C'
  let given := sets.headD []
  let first : Bytes :=
    if complement then ((List.range 256).map UInt8.ofNat).filter fun b => !given.contains b else given
  let second := sets[1]?.getD []
  let deleted := options.contains 'd'
  let exchanged : Bytes :=
    if deleted then input.filter fun b => !first.contains b
    else if second.isEmpty then input
    else input.map fun b =>
      match first.findIdx? (· == b) with
      | some i => (second[i]? <|> second.getLast?).getD b
      | none => b
  let quotedArgument (i : Nat) : Text := "'" ++ (args.dropWhile isOption)[i]?.getD [] ++ "'"
  if sets.isEmpty then refusal "tr" "missing operand"
  else if sets.length == 1 && !deleted && !options.contains 's' then
    refusal "tr" ("missing operand after " ++ quotedArgument 0 ++ "\nTwo strings must be given when translating.")
  else if sets.length == 2 && deleted && !options.contains 's' then
    refusal "tr" ("extra operand " ++ quotedArgument 1 ++
      "\nOnly one string may be given when deleting without squeezing repeats.")
  else if sets.length > 2 then refusal "tr" ("extra operand " ++ quotedArgument 2)
  else .success (if options.contains 's' then squeeze (if second.isEmpty then first else second) exchanged
    else exchanged)

end Schemata.Shell
