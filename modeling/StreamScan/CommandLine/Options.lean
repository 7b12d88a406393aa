import StreamScan.Cursor
import StreamScan.Text.Notation

/-!
# Options — the words of a command line

A command line consists of words.  Each is sorted by its form alone: an option that takes no
value, an option that takes one, a plain value, or the divider `--`, after which every word is a
value.  Options may stand anywhere and be shortened as long as only one option begins that way.
A value is attached to its option by an equals sign or is the next word.  A word that begins with
a hyphen is a value only if it is a single hyphen, a negative number, or has a space in it.

The words are then taken in order.  One of the values is the address to scan.

* **`Word.ofText?`** — a word by its form.
* **`Options.parse`** — the options of a command line, or why there are none.
-/

namespace StreamScan.CommandLine

/-- The options that take no value. -/
inductive Flag where
  | writer
  | count
  | verbose
  | help
deriving DecidableEq, Repr

/-- The options that take a value. -/
inductive Setting where
  | regex
  | bufferSize
deriving DecidableEq, Repr

/-- What an option is. -/
inductive OptionKind where
  | flag (flag : Flag)
  | setting (setting : Setting)
deriving DecidableEq, Repr

/-- The options by their spellings. -/
def spellings : List (List Char × OptionKind) :=
  [("-h".toList, .flag .help), ("--help".toList, .flag .help),
   ("--regex".toList, .setting .regex), ("--buffer-size".toList, .setting .bufferSize),
   ("--writer".toList, .flag .writer), ("--count".toList, .flag .count),
   ("-v".toList, .flag .verbose), ("--verbose".toList, .flag .verbose)]

/-- A word of a command line. -/
inductive Word where
  | value (text : String)
  /-- Options without a value, several if they are written with one hyphen, and whether letters
      follow that are none. -/
  | flags (flags : List Flag) (surplus : Bool)
  /-- An option with a value, which may be attached to it. -/
  | setting (setting : Setting) (attached : Option String)
  /-- An option that there is not. -/
  | unknown
  /-- An option with something attached that it cannot have. -/
  | malformed
  | divider
deriving DecidableEq, Repr

namespace Word

/-- The flag that a letter after a single hyphen stands for. -/
def letter? (c : Char) : Option Flag :=
  match spellings.lookup ['-', c] with
  | some (.flag flag) => some flag
  | _ => none

/-- The flags that letters stand for, up to one that stands for none, and whether there is such a
    one.  No value can be attached to them, and no hyphen stands among them. -/
def letters? : List Char → Option (List Flag × Bool)
  | [] => some ([], false)
  | c :: cs =>
    if c = '-' then none
    else
      match letter? c with
      | none => some ([], true)
      | some flag =>
        if cs.head? = some '=' then none
        else (letters? cs).map fun (more, surplus) => (flag :: more, surplus)

/-- An option with the value that an equals sign attaches to it. -/
def ofOption (kind : OptionKind) (attached : Option (List Char)) : Word :=
  match kind, attached with
  | .setting which, attached => .setting which (attached.map String.ofList)
  | .flag flag, none => .flags [flag] false
  | .flag _, some _ => .malformed

/-- The letters after a single hyphen. -/
def ofLetters (letters : List Char) : Word :=
  match letters? letters with
  | some (found, surplus) => .flags found surplus
  | none => .malformed

/-- Whether a text is a negative number, perhaps with a fraction. -/
def isNegativeNumber (cs : List Char) : Bool :=
  match cs with
  | '-' :: rest =>
    let rest := if rest.getLast? = some '\n' then rest.dropLast else rest
    let whole := rest.takeWhile Text.isDigit
    match rest.dropWhile Text.isDigit with
    | [] => !whole.isEmpty
    | '.' :: fraction => !fraction.isEmpty && fraction.all Text.isDigit
    | _ => false
  | _ => false

/-- A word that begins with a hyphen and spells no option. -/
def ofOther (cs : List Char) : Word :=
  if isNegativeNumber cs || cs.contains ' ' then .value (String.ofList cs) else .unknown

/-- The options that a word with two hyphens may be short for. -/
def candidates (cs : List Char) : List (List Char × OptionKind) :=
  spellings.filter fun option => cs.isPrefixOf option.1

/-- A word before the divider, by its form; none if it is short for more than one option. -/
def ofText? (text : String) : Option Word :=
  let cs := text.toList
  let name := cs.takeWhile (· != '=')
  let attached := if cs.contains '=' then some (cs.drop (name.length + 1)) else none
  match cs with
  | '-' :: second :: rest =>
    if cs = ['-', '-'] then some .divider
    else
      match spellings.lookup cs, spellings.lookup name with
      | some kind, _ => some (ofOption kind none)
      | none, some kind => some (ofOption kind attached)
      | none, none =>
        if second = '-' then
          match candidates name with
          | [] => some (ofOther cs)
          | [option] => some (ofOption option.2 attached)
          | _ => none
        else if (letter? second).isSome then some (ofLetters (second :: rest))
        else some (ofOther cs)
  | _ => some (.value text)

/-- The words of a command line. -/
def ofTexts? : List String → Option (List Word)
  | [] => some []
  | text :: texts => do
    match ← ofText? text with
    | .divider => some (.divider :: texts.map .value)
    | word => some (word :: (← ofTexts? texts))

end Word

/-- What a command line asks for. -/
structure Options where
  address : String
  regex : Option String
  bufferSize : Int
  writer : Bool
  count : Bool
  verbose : Bool
deriving DecidableEq, Repr

/-- What comes of reading a command line. -/
inductive Parsed where
  | options (options : Options)
  | help
  | badUsage
deriving DecidableEq, Repr

namespace Options

/-- What has been read of a command line. -/
structure Draft where
  address : Option String := none
  regex : Option String := none
  bufferSize : Int := Cursor.defaultCapacity
  writer : Bool := false
  count : Bool := false
  verbose : Bool := false
  /-- There was a word that has no place. -/
  surplus : Bool := false

/-- The options, if the address is there and every word has its place. -/
def Draft.finish (d : Draft) : Parsed :=
  match d.address, d.surplus with
  | some address, false =>
    .options ⟨address, d.regex, d.bufferSize, d.writer, d.count, d.verbose⟩
  | _, _ => .badUsage

/-- Sets a flag; none if help is asked for. -/
def Draft.raise (d : Draft) : Flag → Option Draft
  | .writer => some { d with writer := true }
  | .count => some { d with count := true }
  | .verbose => some { d with verbose := true }
  | .help => none

/-- Gives an option its value; none if it cannot have that value. -/
def Draft.set (d : Draft) (value : String) : Setting → Option Draft
  | .regex => some { d with regex := some value }
  | .bufferSize => do some { d with bufferSize := ← Text.integer? value }

/-- Reads words in order.  A divider has its place just before the address or just after it. -/
def read : Draft → List Word → Parsed
  | d, [] => d.finish
  | d, .flags flags surplus :: words =>
    match flags.foldlM Draft.raise d with
    | some d => read { d with surplus := d.surplus || surplus } words
    | none => .help
  | d, .setting setting (some value) :: words =>
    match d.set value setting with
    | some d => read d words
    | none => .badUsage
  | d, .setting setting none :: .value value :: words =>
    match d.set value setting with
    | some d => read d words
    | none => .badUsage
  | _, .setting _ none :: _ => .badUsage
  | _, .malformed :: _ => .badUsage
  | d, .unknown :: words => read { d with surplus := true } words
  | d, .value text :: .divider :: words =>
    if d.address.isNone then read { d with address := some text } words
    else read { d with surplus := true } words
  | d, .value text :: words =>
    if d.address.isNone then read { d with address := some text } words
    else read { d with surplus := true } words
  | d, .divider :: .value text :: words =>
    if d.address.isNone then read { d with address := some text } words
    else read { d with surplus := true } words
  | d, .divider :: words => read { d with surplus := true } words

/-- Reads a command line. -/
def parse (arguments : List String) : Parsed :=
  match Word.ofTexts? arguments with
  | some words => read {} words
  | none => .badUsage

end Options

end StreamScan.CommandLine
