/-!
# Text without control sequences

Messages for a stream that is no terminal lose their control sequences: an escape character and
what belongs to it. Other control characters are dropped too, apart from tab, line feed, form
feed and carriage return. One of these inside a sequence is kept, and text follows it plainly
until the next dropped character. There the sequence goes on, unless a character outside ASCII
was among that text. The one-octet string terminator is looked for in the octets of the text, so
a character with that octet inside ends a string too.
-/
namespace RamLog.Text.Plain

/-- Where a character stands with respect to control sequences. -/
inductive Mode where
  | outside
  /-- After an escape character. -/
  | escape
  /-- After an escape character and characters that announce its last one. -/
  | announced
  /-- In a control sequence, which a letter or a like character ends. -/
  | control
  /-- In a string that a bell may end. -/
  | title
  /-- At the beginning of a device string, in front of its values. -/
  | device
  /-- In the values of a device string. -/
  | values
  /-- After characters that announce the body of a device string. -/
  | bodyAnnounced
  /-- In any other string, or in the body of a device string; the terminator may end it. -/
  | string
  deriving DecidableEq, Repr

/-- The control characters that are kept. -/
def isBlank (c : Char) : Bool := c = '\t' || c = '\n' || c = '\x0c' || c = '\r'

/-- The octet that ends strings. -/
def terminator : UInt8 := 0x9C

def Mode.keeps : Mode → Char → Bool
  | .outside, c => isBlank c || (0x20 ≤ c.toNat && c.toNat ≠ 0x7F)
  | .escape, c | .announced, c | .control, c => isBlank c
  | .title, _ | .device, _ | .values, _ | .bodyAnnounced, _ | .string, _ => false

/-- The mode after a character. Cancel and substitute end every sequence, escape begins one. -/
def Mode.next (mode : Mode) (c : Char) : Mode :=
  let code := c.toNat
  if code = 0x18 ∨ code = 0x1A then .outside
  else if code = 0x1B then .escape
  else match mode with
  | .outside => .outside
  | .escape =>
    if 0x20 ≤ code ∧ code ≤ 0x2F then .announced
    else if c = '[' then .control
    else if c = ']' then .title
    else if c = 'P' then .device
    else if c = 'X' ∨ c = '^' ∨ c = '_' then .string
    else if 0x30 ≤ code ∧ code ≤ 0x7E then .outside
    else .escape
  | .announced => if 0x30 ≤ code ∧ code ≤ 0x7E then .outside else .announced
  | .control => if 0x40 ≤ code ∧ code ≤ 0x7E then .outside else .control
  | .title => if code = 0x07 then .outside else .title
  | .device =>
    if 0x20 ≤ code ∧ code ≤ 0x2F then .bodyAnnounced
    else if 0x30 ≤ code ∧ code ≤ 0x3F then .values
    else if 0x40 ≤ code ∧ code ≤ 0x7E then .string
    else .device
  | .values =>
    if 0x20 ≤ code ∧ code ≤ 0x2F then .bodyAnnounced
    else if 0x3C ≤ code ∧ code ≤ 0x7E then .string
    else .values
  | .bodyAnnounced => if 0x30 ≤ code ∧ code ≤ 0x7E then .string else .bodyAnnounced
  | .string => if terminator ∈ String.utf8EncodeChar c then .outside else .string

/-- The mode after a character that was kept plainly: outside ASCII it ends the sequence. -/
def Mode.nextPlainly (mode : Mode) (c : Char) : Mode := if c.toNat < 0x80 then mode else .outside

/-- The kept characters of a text; `plainly` while text follows a kept character. -/
def stripFrom (mode : Mode) (plainly : Bool) : List Char → List Char
  | [] => []
  | c :: rest =>
    if plainly && Mode.outside.keeps c then c :: stripFrom (mode.nextPlainly c) true rest
    else if mode.keeps c then c :: stripFrom (mode.next c) true rest
    else stripFrom (mode.next c) false rest

def strip (text : List Char) : List Char := stripFrom .outside true text

/-- Outside a sequence, text that is kept plainly leaves no sequence to go on. -/
@[simp] theorem nextPlainly_outside (c : Char) : Mode.outside.nextPlainly c = .outside := by
  simp [Mode.nextPlainly]

/-- Text without dropped characters stays as it is. -/
theorem strip_eq_self (text : List Char) (h : ∀ c ∈ text, Mode.outside.keeps c = true) :
    strip text = text := by
  unfold strip
  induction text with
  | nil => rfl
  | cons c rest ih =>
    have hc := h c (by simp)
    simp [stripFrom, hc, ih fun d hd => h d (by simp [hd])]

end RamLog.Text.Plain
