import VncDoTool.Lib.ShellWords
import VncDoTool.Script.Numbers

/-!
# The commands of a script

`build_command_list` of `command.py`: it turns the words of a command line, and of the script files
named among them, into calls of the client.

* `Command`: such a call.
* `Script.parse`: the words of one command; `Script.build`: all of them.
-/

namespace VncDoTool

/-- A call that sends input events or lets time pass. -/
inductive Input : Type
  | keyPress (key : String)
  | keyDown (key : String)
  | keyUp (key : String)
  | mouseMove (x y : ℤ)
  | mousePress (button : ℤ)
  | mouseDown (button : ℤ)
  | mouseUp (button : ℤ)
  | pause (duration : PyFloat)
  deriving DecidableEq

/-- A call of the client that the connection's Deferred is to make. -/
inductive Command : Type
  | input (call : Input)
  | paste (content : List Char)
  | captureScreen (filename : String) (incremental : Bool)
  | expectScreen (filename : String) (fuzz : Option ℕ)
  | captureRegion (filename : String) (x y w h : ℤ)
  | expectRegion (filename : String) (x y : ℤ) (fuzz : Option ℕ)
  | stableScreen (seconds : PyFloat) (fuzz : Option ℕ)
  | stableRegion (seconds : PyFloat) (x y w h : ℤ) (fuzz : Option ℕ)
  | mouseDrag (x y : ℤ)
  deriving DecidableEq

/-- What `build_command_list` raises. -/
inductive CommandError : Type
  | commandParseError (message : String)
  /-- `IndexError`: a command without its operands. -/
  | index
  | value
  | overflow
  | zeroDivision
  | os
  deriving DecidableEq, Repr

namespace Script

/-- The files of the machine, and its standard input. -/
structure Shell : Type where
  file : String → Option (List Char)
  stdin : List Char := []

/-- The arguments besides the words: `delay`, in seconds already, `warp` and
`incremental_refreshes`. -/
structure Options : Type where
  delay : Option ℚ := none
  warp : ℚ := 1
  incrementalRefreshes : Bool := false

/-- Code that takes words off the front of the arguments. -/
abbrev Parse (α : Type) : Type := StateT (List String) (Except CommandError) α

/-- `args.pop(0)`. -/
def pop : Parse String := fun args =>
  match args with
  | [] => .error .index
  | word :: args => .ok (word, args)

/-- `int(args.pop(0))`. -/
def popInt : Parse ℤ := do
  let word ← pop
  match PyNumber.int word.toList with
  | some n => pure n
  | none => throw .value

/-- `float(args.pop(0))`. -/
def popFloat : Parse PyFloat := do
  let word ← pop
  match PyNumber.float word.toList with
  | some value => pure value
  | none => throw .value

/-- Divide by the warp factor. -/
def warped (warp : ℚ) : PyFloat → Except CommandError PyFloat
  | .finite value => if warp = 0 then .error .zeroDivision else .ok (.finite (value / warp))
  | .inf negative =>
    if warp = 0 then .error .zeroDivision else .ok (.inf (if warp < 0 then !negative else negative))
  | .nan => if warp = 0 then .error .zeroDivision else .ok .nan

/-- `_trailing_fuzz`. -/
def trailingFuzz (cmd : String) : Parse (Option ℕ) := do
  let args ← get
  match args with
  | [] => pure none
  | written :: rest =>
    match PyNumber.float written.toList with
    | none => pure none
    | some (.finite fuzz) =>
      set rest
      if fuzz ≠ fuzz.floor ∨ ¬(0 ≤ fuzz ∧ fuzz ≤ 255) then
        throw (.commandParseError
          s!"{cmd} takes a whole-number fuzz from 0 (exact) to 255, not {written}")
      else pure (some fuzz.floor.toNat)
    | some (.inf _) => throw .overflow
    | some .nan => throw .value

/-- `SUPPORTED_FORMATS`. -/
def supportedFormats : List String := ["png", "jpg", "jpeg", "gif", "bmp"]

/-- `os.path.splitext(filename)[1][1:]`: what follows the last dot of the last part of the path, dots
it begins with apart. -/
def extension (filename : String) : String :=
  let name := (filename.toList.reverse.takeWhile (· ≠ '/')).reverse.dropWhile (· = '.')
  if '.' ∈ name then String.ofList (name.reverse.takeWhile (· ≠ '.')).reverse else ""

/-- A filename for an image. -/
def popImage : Parse String := do
  let filename ← pop
  if extension filename ∈ supportedFormats then pure filename
  else throw (.commandParseError (s!"unsupported image format \"{extension filename}\", choose one of " ++
    "('png', 'jpg', 'jpeg', 'gif', 'bmp')"))

/-- `open(filename).read()`, and standard input for a dash. Line endings come out as newlines. -/
def universalNewlines : List Char → List Char
  | '\r' :: '\n' :: text => '\n' :: universalNewlines text
  | '\r' :: text => '\n' :: universalNewlines text
  | c :: text => c :: universalNewlines text
  | [] => []

/-- The content of the file that is named next. -/
def popContent (shell : Shell) : Parse (List Char) := do
  let filename ← pop
  if filename = "-" then pure (universalNewlines shell.stdin)
  else
    match shell.file filename with
    | some content => pure (universalNewlines content)
    | none => throw .os

/-- `client.pause` after a key that was typed, where there is a delay. -/
def delays (delay : Option ℚ) : List Command :=
  match delay with
  | some seconds => if seconds = 0 then [] else [.input (.pause (.finite seconds))]
  | none => []

/-- The key a character is typed with. -/
def typedKey (c : Char) : String := if c = '-' then "minus" else String.ofList [c]

/-- The key a character of a file is typed with. -/
def filedKey (c : Char) : Option String :=
  if c = '\r' then none
  else if c = '\n' then some "enter"
  else if c = '\t' then some "tab"
  else some (typedKey c)

/-- The words of a script file stand where its name stood. -/
def insertWords : Option (List (List Char)) → Parse (List Command)
  | some words => do
    modify fun args => words.map String.ofList ++ args
    pure []
  | none => throw .value

/-- One command: its word is off the arguments already. -/
def parse (shell : Shell) (o : Options) (cmd : String) : Parse (List Command) :=
  if cmd = "key" then do
    let key ← pop
    pure [.input (.keyPress key)]
  else if cmd = "kdown" ∨ cmd = "keydown" then do
    let key ← pop
    pure [.input (.keyDown key)]
  else if cmd = "kup" ∨ cmd = "keyup" then do
    let key ← pop
    pure [.input (.keyUp key)]
  else if cmd = "move" ∨ cmd = "mousemove" then do
    let x ← popInt
    let y ← popInt
    pure [.input (.mouseMove x y)]
  else if cmd = "click" then do
    let button ← popInt
    pure [.input (.mousePress button)]
  else if cmd = "mdown" ∨ cmd = "mousedown" then do
    let button ← popInt
    pure [.input (.mouseDown button)]
  else if cmd = "mup" ∨ cmd = "mouseup" then do
    let button ← popInt
    pure [.input (.mouseUp button)]
  else if cmd = "type" then do
    let text ← pop
    pure (text.toList.flatMap fun c => .input (.keyPress (typedKey c)) :: delays o.delay)
  else if cmd = "typefile" then do
    let content ← popContent shell
    pure ((content.filterMap filedKey).flatMap fun key => .input (.keyPress key) :: delays o.delay)
  else if cmd = "pastefile" then do
    let content ← popContent shell
    pure [.paste content]
  else if cmd = "capture" then do
    let filename ← popImage
    pure [.captureScreen filename o.incrementalRefreshes]
  else if cmd = "expect" then do
    let filename ← pop
    let fuzz ← trailingFuzz "expect"
    pure [.expectScreen filename fuzz]
  else if cmd = "rcapture" then do
    let filename ← pop
    let x ← popInt
    let y ← popInt
    let w ← popInt
    let h ← popInt
    if extension filename ∈ supportedFormats then pure [.captureRegion filename x y w h]
    else throw (.commandParseError (s!"unsupported image format \"{extension filename}\", choose one of " ++
      "('png', 'jpg', 'jpeg', 'gif', 'bmp')"))
  else if cmd = "rexpect" then do
    let filename ← pop
    let x ← popInt
    let y ← popInt
    let fuzz ← trailingFuzz "expect"
    pure [.expectRegion filename x y fuzz]
  else if cmd = "stable" then do
    let seconds ← popFloat
    let fuzz ← trailingFuzz cmd
    pure [.stableScreen seconds fuzz]
  else if cmd = "rstable" then do
    let seconds ← popFloat
    let x ← popInt
    let y ← popInt
    let w ← popInt
    let h ← popInt
    let fuzz ← trailingFuzz cmd
    pure [.stableRegion seconds x y w h fuzz]
  else if cmd = "pause" ∨ cmd = "sleep" then do
    let duration ← popFloat
    let duration ← (warped o.warp duration : Except CommandError PyFloat)
    pure [.input (.pause duration)]
  else if cmd = "drag" then do
    let x ← popInt
    let y ← popInt
    pure [.mouseDrag x y]
  else
    match shell.file cmd with
    | some text => insertWords (ShellWords.split (universalNewlines text))
    | none => throw (.commandParseError s!"unknown cmd \"{cmd}\"")

/-- `build_command_list`, at most `fuel` commands. -/
def build (shell : Shell) (o : Options) : (fuel : ℕ) → List String →
    Option (Except CommandError (List Command))
  | _, [] => some (.ok [])
  | 0, _ :: _ => none
  | fuel + 1, cmd :: args =>
    match (parse shell o cmd).run args with
    | .error e => some (.error e)
    | .ok (commands, args) =>
      (build shell o fuel args).map fun rest =>
        rest.map fun rest => commands ++ (if args = [] then [] else delays o.delay) ++ rest

end Script

end VncDoTool
