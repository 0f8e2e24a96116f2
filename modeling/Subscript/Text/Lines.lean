/-!
# Lines for a stream that is no terminal

A log line goes to a plain stream, so what only a terminal understands is taken out of it: control
characters other than white space, and control sequences, which start with the escape character. A
sequence is never recognized by its meaning, only by its shape. What was written is then read line
by line.

White space that interrupts an escape or control sequence is kept, and the text after it is kept
as well, up to the next control character; from there on the sequence goes on. A character beyond
ASCII in that text gives the sequence up.

## Architecture

- §1 the kinds of character
- §2 `Mode`, the place in a sequence
- §3 `Scanner`, which characters are kept, and `withoutControls`
- §4 `lines`
-/

namespace Subscript.Text

/-! ## §1 Characters -/

/-- White space of ASCII other than the blank: tab, line feed, form feed and carriage return. -/
def isLayout (c : Char) : Bool := c = '\t' || c = '\n' || c = '\x0C' || c = '\r'

/-- Whether a character is kept outside sequences: all are but the control characters of ASCII
that are not white space. -/
def isKept (c : Char) : Bool := isLayout c || (0x20 ≤ c.toNat && c.toNat ≠ 0x7F)

/-- Whether the code point of a character lies between two others, both included. -/
private def between (low high : Nat) (c : Char) : Bool := low ≤ c.toNat && c.toNat ≤ high

/-! ## §2 Sequences -/

/-- Where in a text a character stands. -/
inductive Mode where
  /-- outside sequences -/
  | text
  /-- after the escape character -/
  | escape
  /-- after an escape and intermediate characters -/
  | escapeTail
  /-- in a control sequence: colours, cursor movements -/
  | control
  /-- at the start of a device control string -/
  | device
  /-- among the parameters of a device control string -/
  | deviceParameters
  /-- among the intermediate characters of a device control string -/
  | deviceTail
  /-- in a string for the terminal, until the string terminator -/
  | string
  /-- in a command for the operating system, until the bell -/
  | command
  deriving DecidableEq, Repr

namespace Mode

/-- The mode after a character of a sequence. The escape character starts a new sequence
anywhere, cancel and substitute end the present one. A string ends at the byte 9C, the
eight-bit string terminator, also where that byte is part of the encoding of a character. -/
def next (mode : Mode) (c : Char) : Mode :=
  if c = '\x1B' then .escape
  else if c = '\x18' || c = '\x1A' then .text
  else match mode with
  | .text => .text
  | .escape =>
    if between 0x20 0x2F c then .escapeTail
    else if c = '[' then .control
    else if c = ']' then .command
    else if c = 'P' then .device
    else if c = 'X' || c = '^' || c = '_' then .string
    else if between 0x30 0x7E c then .text
    else .escape
  | .escapeTail => if between 0x30 0x7E c then .text else .escapeTail
  | .control => if between 0x40 0x7E c then .text else .control
  | .device =>
    if between 0x20 0x2F c then .deviceTail
    else if between 0x30 0x3F c then .deviceParameters
    else if between 0x40 0x7E c then .string
    else .device
  | .deviceParameters =>
    if between 0x20 0x2F c then .deviceTail
    else if between 0x3C 0x7E c then .string
    else .deviceParameters
  | .deviceTail => if between 0x30 0x7E c then .string else .deviceTail
  | .string => if (String.utf8EncodeChar c).contains 0x9C then .text else .string
  | .command => if c = '\x07' then .text else .command

/-- Whether white space inside a sequence is kept; strings and commands swallow it. -/
def keepsLayout : Mode → Bool
  | .escape | .escapeTail | .control => true
  | _ => false

end Mode

/-! ## §3 Reading a text -/

/-- What has to be known of the text read so far. -/
structure Scanner where
  /-- the place in a sequence -/
  mode : Mode := .text
  /-- whether white space has interrupted the sequence, so that the text after it is kept; of no
  account outside sequences -/
  interrupted : Bool := false
  deriving DecidableEq, Repr

namespace Scanner

/-- Whether the next character is kept. -/
def keeps (scanner : Scanner) (c : Char) : Bool :=
  if scanner.mode = .text || scanner.interrupted then isKept c
  else scanner.mode.keepsLayout && isLayout c

/-- Read a character. -/
def next (scanner : Scanner) (c : Char) : Scanner :=
  if scanner.keeps c then
    ⟨if c.toNat < 0x80 then scanner.mode else .text, true⟩
  else
    ⟨scanner.mode.next c, false⟩

/-- The characters of the rest of a text that are kept. -/
def kept (scanner : Scanner) : List Char → List Char
  | [] => []
  | c :: rest =>
    if scanner.keeps c then c :: (scanner.next c).kept rest else (scanner.next c).kept rest

end Scanner

/-- A text without terminal controls. -/
def withoutControls (text : String) : String := String.ofList (Scanner.kept {} text.toList)

/-! ## §4 Lines

A line ends with a line feed, or with a carriage return and a line feed. The last line may lack its
ending; a carriage return without a line feed is part of its line. -/

/-- The lines of a text, after some characters of the first one, which are given in reverse. -/
def linesFrom (read : List Char) : List Char → List (List Char)
  | [] => if read.isEmpty then [] else [read.reverse]
  | c :: rest =>
    if c = '\n' then
      (if read.head? = some '\r' then read.tail else read).reverse :: linesFrom [] rest
    else
      linesFrom (c :: read) rest

/-- The lines of a text, without their endings. -/
def lines (text : String) : List String := (linesFrom [] text.toList).map String.ofList

end Subscript.Text
