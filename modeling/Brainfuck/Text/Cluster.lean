import Brainfuck.Text.Cluster.Table
/-!
# Clusters

What a reader takes for one character may be spelled with several: a letter and its accents, the parts of a Korean
syllable, a flag, emoji tied together by joiners.  `clusters` cuts a text between such characters, by the rules for
extended grapheme clusters of the Unicode standard, version 17, as the terminal library ratatui 0.28 does before it
draws a text.  It reads a text once and remembers of the cluster it is in no more than `Tail` holds.
-/
namespace Brainfuck.Text.Cluster

/-- What a character is for the rules.  The jamo are the parts of a Korean syllable; an open syllable has no final one.
-/
inductive Role where
  | carriageReturn
  | lineFeed
  | control
  | extending
  | joiner
  | spacing
  | prepended
  | regional
  | pictograph
  | initialJamo
  | medialJamo
  | finalJamo
  | openSyllable
  | closedSyllable
  | other
  deriving DecidableEq, Repr

namespace Role

def ofHangul? (n : Nat) : Option Role :=
  if 0xAC00 ≤ n ∧ n ≤ 0xD7A3 then some (if (n - 0xAC00) % 28 = 0 then .openSyllable else .closedSyllable)
  else if 0x1100 ≤ n ∧ n ≤ 0x115F ∨ 0xA960 ≤ n ∧ n ≤ 0xA97C then some .initialJamo
  else if 0x1160 ≤ n ∧ n ≤ 0x11A7 ∨ 0xD7B0 ≤ n ∧ n ≤ 0xD7C6 then some .medialJamo
  else if 0x11A8 ≤ n ∧ n ≤ 0x11FF ∨ 0xD7CB ≤ n ∧ n ≤ 0xD7FB then some .finalJamo
  else none

/-- Whether a vowel sign of another script goes by the rules of the Korean ones. -/
def isMedialVowel (n : Nat) : Bool := n = 0x16D63 || (0x16D67 ≤ n && n ≤ 0x16D6A)

def isRegional (n : Nat) : Bool := 0x1F1E6 ≤ n && n ≤ 0x1F1FF

def ofWideChar (c : Char) : Role :=
  if c = '\u200D' then .joiner
  else if Cluster.extending.contains c then .extending
  else if Cluster.controls.contains c then .control
  else if Cluster.spacing.contains c then .spacing
  else if Cluster.pictographs.contains c then .pictograph
  else if isRegional c.toNat then .regional
  else if isMedialVowel c.toNat then .medialJamo
  else if Cluster.prepended.contains c then .prepended
  else (ofHangul? c.toNat).getD .other

def ofChar (c : Char) : Role :=
  if c.toNat < 0x7F then
    if c = '\r' then .carriageReturn
    else if c = '\n' then .lineFeed
    else if c.toNat < 0x20 then .control
    else .other
  else ofWideChar c

def standsAlone : Role → Bool
  | .carriageReturn | .lineFeed | .control => true
  | _ => false

/-- Whether two Korean letters or syllables next to each other are one syllable. -/
def composes : Role → Role → Bool
  | .initialJamo, .initialJamo | .initialJamo, .medialJamo | .initialJamo, .openSyllable
  | .initialJamo, .closedSyllable => true
  | .openSyllable, .medialJamo | .openSyllable, .finalJamo => true
  | .medialJamo, .medialJamo | .medialJamo, .finalJamo => true
  | .closedSyllable, .finalJamo | .finalJamo, .finalJamo => true
  | _, _ => false

end Role

/-- How far a pictograph has got towards being tied to another one: marks may follow it, and then a joiner. -/
inductive Tie where
  | none
  | pictograph
  | joined
  deriving DecidableEq, Repr

/-- How far a consonant has got towards being tied to another one: marks may follow it, a linker among them. -/
inductive Conjunct where
  | none
  | consonant
  | linked
  deriving DecidableEq, Repr

/-- What the rules need to know of the cluster so far: the role of its last character, what it may be tied to, and
whether it ends in an odd number of regional signs. -/
structure Tail where
  last : Role
  tie : Tie
  conjunct : Conjunct
  halfFlag : Bool
  deriving DecidableEq, Repr

namespace Tail

def tieAfter (tie : Tie) : Role → Tie
  | .pictograph => .pictograph
  | .extending => if tie = .pictograph then .pictograph else .none
  | .joiner => if tie = .pictograph then .joined else .none
  | _ => .none

def conjunctAfter (conjunct : Conjunct) (c : Char) (role : Role) : Conjunct :=
  if consonants.contains c then .consonant
  else if conjunct = .none then .none
  else if linkers.contains c then .linked
  else if role = .joiner ∨ role = .extending ∧ c ≠ '\u200C' then conjunct
  else .none

def start (c : Char) (role : Role) : Tail :=
  ⟨role, tieAfter .none role, if c.toNat < 0x7F then .none else conjunctAfter .none c role, role = .regional⟩

def push (t : Tail) (c : Char) (role : Role) : Tail :=
  ⟨role, tieAfter t.tie role, if c.toNat < 0x7F then .none else conjunctAfter t.conjunct c role,
    role = .regional && !t.halfFlag⟩

/-- Whether a character goes on with the cluster. -/
def takes (t : Tail) (c : Char) (role : Role) : Bool :=
  if t.last = .carriageReturn ∧ role = .lineFeed then true
  else if t.last.standsAlone || role.standsAlone then false
  else if Role.composes t.last role then true
  else if role = .extending ∨ role = .joiner ∨ role = .spacing then true
  else if t.last = .prepended then true
  else if t.conjunct = .linked ∧ consonants.contains c then true
  else if t.tie = .joined ∧ role = .pictograph then true
  else t.halfFlag && role = .regional

end Tail

/-- A text partly cut: the clusters before the current one, last first, and the current one with its tail. -/
structure Cutting where
  done : List String
  current : String
  tail : Option Tail

namespace Cutting

def start : Cutting := ⟨[], "", none⟩

def step (s : Cutting) (c : Char) : Cutting :=
  let role := Role.ofChar c
  match s.tail with
  | none => ⟨s.done, s.current.push c, some (.start c role)⟩
  | some t =>
    if t.takes c role then ⟨s.done, s.current.push c, some (t.push c role)⟩
    else ⟨s.current :: s.done, "".push c, some (.start c role)⟩

/-- The clusters when no character is left. -/
def finish (s : Cutting) : List String :=
  match s.tail with
  | none => s.done.reverse
  | some _ => (s.current :: s.done).reverse

end Cutting

end Brainfuck.Text.Cluster

namespace Brainfuck.Text

/-- The clusters of a text, in order. -/
def clusters (text : List Char) : List String := (text.foldl Cluster.Cutting.step .start).finish

end Brainfuck.Text
