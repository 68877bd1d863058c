import Formwork.DateText.Token

/-!
# Words of a date text

The words are English and are recognized in either case. One word may have several
meanings; the reader asks for them in a fixed order.
-/

namespace Formwork.DateText

/-- The token in lower case, as far as the words are concerned. -/
def lower (t : Token) : Token :=
  t.map Char.toLower

/-- The token is one of the words. -/
def isOneOf (words : List String) (t : Token) : Bool :=
  words.any fun w => w.toList == lower t

/-- The number that a table gives for the token. -/
def meaning? (table : List (String × Nat)) (t : Token) : Option Nat :=
  (table.find? fun w => w.1.toList == lower t).map (·.2)

/-- The words and marks that may stand anywhere and mean nothing. -/
def isFiller : Token → Bool :=
  isOneOf [" ", ".", ",", ";", "-", "/", "\x27", "at", "on", "and", "ad", "m", "t", "of",
    "st", "nd", "rd", "th"]

/-- The day of the week, zero for Monday. -/
def weekday? : Token → Option Nat :=
  meaning? [("mon", 0), ("monday", 0), ("tue", 1), ("tuesday", 1), ("wed", 2), ("wednesday", 2),
    ("thu", 3), ("thursday", 3), ("fri", 4), ("friday", 4), ("sat", 5), ("saturday", 5),
    ("sun", 6), ("sunday", 6)]

/-- The month. -/
def month? : Token → Option Nat :=
  meaning? [("jan", 1), ("january", 1), ("feb", 2), ("february", 2), ("mar", 3), ("march", 3),
    ("apr", 4), ("april", 4), ("may", 5), ("jun", 6), ("june", 6), ("jul", 7), ("july", 7),
    ("aug", 8), ("august", 8), ("sep", 9), ("sept", 9), ("september", 9), ("oct", 10),
    ("october", 10), ("nov", 11), ("november", 11), ("dec", 12), ("december", 12)]

/-- The part of a time of day that a number counts. -/
inductive TimeUnit where
  | hour
  | minute
  | second
  deriving DecidableEq, Repr

/-- The unit that a token names. -/
def timeUnit? (t : Token) : Option TimeUnit :=
  if isOneOf ["h", "hour", "hours"] t then some .hour
  else if isOneOf ["m", "minute", "minutes"] t then some .minute
  else if isOneOf ["s", "second", "seconds"] t then some .second
  else none

/-- The half of the day. -/
inductive Meridiem where
  | am
  | pm
  deriving DecidableEq, Repr

/-- The half of the day that a token names. -/
def meridiem? (t : Token) : Option Meridiem :=
  if isOneOf ["am", "a"] t then some .am
  else if isOneOf ["pm", "p"] t then some .pm
  else none

/-- The hour of the day for an hour of a clock with twelve hours. -/
def Meridiem.adjust (hour : Nat) : Meridiem → Nat
  | .pm => if hour < 12 then hour + 12 else hour
  | .am => if hour = 12 then 0 else hour

/-- The token names universal time. -/
def isUniversal : Token → Bool :=
  isOneOf ["utc", "gmt", "z"]

/-- The token can be the name of a zone: at most five capital letters, or a small `z`. -/
def isZoneName (t : Token) : Bool :=
  t.length ≤ 5 && (t.all Char.isUpper || t == ['z'])

/-- The word that stands between a month and its year. -/
def isOf : Token → Bool :=
  isOneOf ["of"]

/-- The tokens that a reader of numbers takes for a number though they have no digits. -/
def isNotFinite : Token → Bool :=
  isOneOf ["nan", "inf", "infinity"]

end Formwork.DateText
