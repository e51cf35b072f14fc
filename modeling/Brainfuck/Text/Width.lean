import Brainfuck.Text.Width.Table
/-!
# The width of a text

How many columns of a screen a text takes.  Most characters take one, ideographs and emoji two, marks and invisible
signs none; a control takes one, but a line feed and the return before it take none.  What follows a character may
change its width, so `columns` reads a text from its end: a selector asks for the text form or the emoji form, a skin
tone merges with the emoji before it, emoji and flags tied by joiners are as wide as one, and a subjoined letter adds
nothing to the letter above it.

These are the widths that the terminal library ratatui 0.28 reckons with when it lays out text.  Its tables are those of
Unicode 15.1; the rules for what follows a character are its own.
-/
namespace Brainfuck.Text.Width

/-- The forms a selector may ask for. -/
inductive Form where
  | text
  | emoji
  deriving DecidableEq, Repr

/-- What comes after a character, selectors aside, as far as that can change the character's width: so many regional
signs; a joiner and an emoji, with an enclosing keycap, so many regional signs, or the digits and letters of a flag's
name before them; or a letter that can be subjoined. -/
inductive Following where
  | plain
  | lineFeed
  | emoji
  | skinTone
  | regionals (count : Nat)
  | joined (keycap : Bool)
  | joinedRegionals (count : Nat)
  | named (digits letters : Nat)
  | letter
  deriving DecidableEq, Repr

/-- What comes after a character, and the selector right after it. -/
structure Context where
  following : Following
  form : Option Form := none
  deriving DecidableEq, Repr

def plain : Context := { following := .plain }

/-! ## Kinds of characters -/

def isSkinTone (c : Char) : Bool := 0x1F3FB ≤ c.toNat && c.toNat ≤ 0x1F3FF

/-- Whether a character is one of the signs that spell a flag in pairs. -/
def isRegional (c : Char) : Bool := 0x1F1E6 ≤ c.toNat && c.toNat ≤ 0x1F1FF

/-- Whether a character is an invisible digit in the name of a flag. -/
def isNameDigit (c : Char) : Bool := 0xE0030 ≤ c.toNat && c.toNat ≤ 0xE0039

/-- Whether a character is an invisible letter in the name of a flag. -/
def isNameLetter (c : Char) : Bool := 0xE0061 ≤ c.toNat && c.toNat ≤ 0xE007A

/-- Whether a character is an ideograph in an enclosure, which is wide in any form. -/
def isEnclosedIdeograph (c : Char) : Bool := 0x1F200 ≤ c.toNat && c.toNat ≤ 0x1F2FF

/-- Whether the text form of a character is narrower than the character. -/
def hasNarrowForm (c : Char) : Bool := emoji.contains c && twoForms.contains c && !isEnclosedIdeograph c

/-- Whether a character is ASCII, one of the controls after ASCII, or the hard space.  Each takes one column on its own.
-/
def isCommon (c : Char) : Bool := c.toNat ≤ 0xA0

/-- The width of a character on its own.  The one sign that takes three columns stands for a whole word. -/
def ofChar (c : Char) : Nat :=
  if isCommon c then 1
  else if c = '\u17D8' then 3
  else if wide.contains c then 2
  else if silent.contains c then 0
  else 1

def kind (c : Char) : Following :=
  if isCommon c then .plain
  else if isSkinTone c then .skinTone
  else if isRegional c then .regionals 1
  else if emoji.contains c then .emoji
  else if subjoinable.contains c then .letter
  else .plain

/-! ## Reading from the end -/

namespace Context

/-- The context before a selector.  A joiner keeps its emoji only if the emoji form is asked for, right before it. -/
def select (s : Context) (form : Form) : Context :=
  match s.following, form with
  | .letter, _ => ⟨.letter, some form⟩
  | .joined keycap, .emoji => ⟨.joined keycap, some .emoji⟩
  | _, _ => ⟨.plain, some form⟩

/-- The context for a character that has no emoji form though a selector asks for it. -/
def withoutEmojiForm (s : Context) : Context :=
  match s.following with
  | .letter => ⟨.letter, none⟩
  | _ => plain

end Context

/-- Whether the name of a flag is complete: a region of three digits, or one of two letters and at least one letter
more. -/
def isName (digits letters : Nat) : Bool := if digits = 0 then 3 ≤ letters else digits = 3

/-- The width a character adds before what follows it, no selector between, and what it then is to the one before it;
none where what follows does not matter.  Of regional signs before a joiner and an emoji, the last two are a flag that
adds nothing if all of them pair up to flags. -/
def tied? (c : Char) : Following → Option (Int × Following)
  | .plain | .lineFeed => none
  | .emoji => if c = '\u200D' then some (0, .joined false) else none
  | .skinTone =>
    if modifiable.contains c then some (0, .emoji)
    else if c = '\u200D' then some (0, .joined false)
    else none
  | .regionals count =>
    if isRegional c then some (1, .regionals (count + 1))
    else if c = '\u200D' && 2 ≤ count then some (0, .joined false)
    else none
  | .joined true => none
  | .joined false =>
    if c = '\u20E3' then some (0, .joined true)
    else if isRegional c then some (1, .joinedRegionals 1)
    else if isSkinTone c then some (0, .skinTone)
    else if c.toNat = 0xE007F then some (0, .named 0 0)
    else if emoji.contains c then some (0, .emoji)
    else none
  | .joinedRegionals count =>
    if isRegional c then some (if count % 2 = 1 then -1 else 3, .joinedRegionals (count + 1))
    else if c = '\u200D' && 2 ≤ count then some (0, .joined false)
    else none
  | .named digits letters =>
    if isNameLetter c && digits = 0 && letters < 6 then some (0, .named 0 (letters + 1))
    else if isNameDigit c && letters ≤ 4 && digits < 3 then some (0, .named (digits + 1) letters)
    else if c.toNat = 0x1F3F4 && isName digits letters then some (0, .emoji)
    else none
  | .letter =>
    if selecting.contains c then some (0, .letter)
    else if c = '\u17D2' then some (-1, .plain)
    else none

/-- The width a character adds before what follows it, no selector between, and what it then is to the one before it. -/
def unselected (c : Char) (following : Following) : Int × Context :=
  match tied? c following with
  | some (width, kind) => (width, ⟨kind, none⟩)
  | none => (ofChar c, ⟨kind c, none⟩)

/-- The width a character adds before a context that asks for no emoji form. -/
def beforeText (c : Char) (s : Context) : Int × Context :=
  if c = '\n' then (0, ⟨.lineFeed, none⟩)
  else if c = '\r' && s.following = .lineFeed then (0, plain)
  else if isCommon c then (1, plain)
  else if c = '\uFE0F' then (0, s.select .emoji)
  else if c = '\uFE0E' then (0, s.select .text)
  else if s.form = some .text && hasNarrowForm c then (1, plain)
  else unselected c s.following

/-- The width a character adds, and the context it makes for the one before it. -/
def step (c : Char) (s : Context) : Int × Context :=
  match s.form with
  | some .emoji =>
    if twoForms.contains c then
      (match s.following with | .joined _ => 0 | _ => 2, ⟨.emoji, none⟩)
    else beforeText c s.withoutEmojiForm
  | _ => beforeText c s

def columns (text : List Char) : Nat :=
  (text.foldr (fun c (acc : Int × Context) => (acc.1 + (step c acc.2).1, (step c acc.2).2)) (0, plain)).1.toNat

end Brainfuck.Text.Width
