import MonkeyTokens.Text.Utf8

/-!
# Text for a terminal

To a terminal some characters are commands and no text: the control characters, and the sequences
that an escape character starts. `plain` takes them out of a text and keeps the layout, which is
tabs and the ends of lines and pages.

What starts a sequence says how it ends: most end at a final character, strings at a terminator.
Any sequence ends where another one starts or where it is cancelled. Layout in the middle of a
short sequence breaks it off: the text behind is shown again, until a control character takes up
the sequence or a character beyond ASCII ends it.
-/

namespace MonkeyTokens.Text.Terminal

/-- Tab, line feed, form feed and carriage return. -/
def isLayout (c : Char) : Bool := c == '\t' || c == '\n' || c == '\x0C' || c == '\r'

/-- Whether a character can be shown: layout and all but the control characters of ASCII. -/
def canShow (c : Char) : Bool := isLayout c || (0x20 ≤ c.toNat && c.toNat != 0x7F)

/-- The part of a sequence that the characters so far have led to. -/
inductive Part where
  /-- Behind the escape character. -/
  | escape
  /-- Behind a character that qualifies the escape. -/
  | qualified
  /-- In a control sequence. -/
  | control
  /-- At the start of a device control string. -/
  | device
  /-- In the parameters of a device control string. -/
  | deviceParameters
  /-- In the characters that qualify a device control string. -/
  | deviceQualified
  /-- In a string that a terminator ends. -/
  | string
  /-- In a command to the system, which a bell ends. -/
  | command
  deriving DecidableEq, Repr

/-- Whether a character qualifies the function that a sequence names. -/
def isQualifier (c : Char) : Bool := 0x20 ≤ c.toNat && c.toNat ≤ 0x2F

/-- Whether a character is part of a parameter. -/
def isParameter (c : Char) : Bool := 0x30 ≤ c.toNat && c.toNat ≤ 0x3F

/-- Whether a parameter is of private use. -/
def isPrivate (c : Char) : Bool := 0x3C ≤ c.toNat && c.toNat ≤ 0x3F

/-- Whether a character names the function of a sequence. -/
def isFinal (c : Char) : Bool := 0x40 ≤ c.toNat && c.toNat ≤ 0x7E

/-- Whether the encoding of a character has the byte that terminates strings. -/
def hasTerminator (c : Char) : Bool := (Utf8.encode c).contains 0x9C

namespace Part

/-- Whether layout breaks a sequence off here; in the strings it is part of the string. -/
def isBrokenOff : Part → Bool
  | escape | qualified | control => true
  | _ => false

/-- The part that a character leads to, if the sequence does not end with it. -/
def next? : Part → Char → Option Part
  | escape, c =>
    if c = '[' then some control
    else if c = ']' then some command
    else if c = 'P' then some device
    else if c = 'X' || c = '^' || c = '_' then some string
    else if isQualifier c then some qualified
    else if isParameter c || isFinal c then none
    else some escape
  | qualified, c => if isParameter c || isFinal c then none else some qualified
  | control, c => if isFinal c then none else some control
  | device, c =>
    if isQualifier c then some deviceQualified
    else if isParameter c then some deviceParameters
    else if isFinal c then some string
    else some device
  | deviceParameters, c =>
    if isQualifier c then some deviceQualified
    else if isPrivate c || isFinal c then some string
    else some deviceParameters
  | deviceQualified, c => if isParameter c || isFinal c then some string else some deviceQualified
  | string, c => if hasTerminator c then none else some string
  | command, c => if c = '\x07' then none else some command

end Part

/-- How the next character is taken. -/
inductive Mode where
  /-- As text. -/
  | text
  /-- As part of a sequence. -/
  | inside (p : Part)
  /-- As text behind layout, with a sequence broken off in this part. -/
  | brokenOff (p : Part)
  deriving DecidableEq, Repr

namespace Mode

/-- Whether a character is shown. -/
def shows : Mode → Char → Bool
  | inside p, c => p.isBrokenOff && isLayout c
  | _, c => canShow c

/-- The mode behind a character. -/
def next (m : Mode) (c : Char) : Mode :=
  if c = '\x1B' then inside .escape
  else if c = '\x18' || c = '\x1A' then text
  else
    match m with
    | text => text
    | inside p => if m.shows c then brokenOff p else ((p.next? c).map inside).getD text
    | brokenOff p => if 0x80 ≤ c.toNat then text else if m.shows c then brokenOff p else inside p

/-- What is shown of a text. -/
def shown : Mode → List Char → List Char
  | _, [] => []
  | m, c :: cs => if m.shows c then c :: (m.next c).shown cs else (m.next c).shown cs

end Mode

/-- The text without its control characters and sequences. -/
def plain (text : String) : String := String.ofList (Mode.text.shown text.toList)

end MonkeyTokens.Text.Terminal
