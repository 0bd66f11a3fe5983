import SyncEndpoint.Unicode.Decomposition
import SyncEndpoint.Unicode.CombiningClass

set_option autoImplicit false

/-! # Canonical normal forms

`nfd` decomposes every character and puts each run of combining characters in the order of their
classes; `nfc` then composes what can be composed. Both work on code points, and `String` versions
wrap them. -/

namespace SyncEndpoint.Unicode

/-! ## Decomposition -/

namespace Hangul

def syllableBase : Nat := 0xAC00
def leadBase : Nat := 0x1100
def vowelBase : Nat := 0x1161
def trailBase : Nat := 0x11A7
def leadCount : Nat := 19
def vowelCount : Nat := 21
def trailCount : Nat := 28
def syllableCount : Nat := leadCount * vowelCount * trailCount

/-- Whether a code point is a Hangul syllable. -/
def isSyllable (c : Nat) : Bool :=
  syllableBase ≤ c && c < syllableBase + syllableCount

/-- The letters of a syllable: lead, vowel and, if there is one, trail. -/
def decompose (c : Nat) : List Nat :=
  let s := c - syllableBase
  let lead := leadBase + s / (vowelCount * trailCount)
  let vowel := vowelBase + s % (vowelCount * trailCount) / trailCount
  let trail := s % trailCount
  if trail = 0 then [lead, vowel] else [lead, vowel, trailBase + trail]

/-- The syllable of a lead and a vowel, or of a syllable without trail and a trail. -/
def compose? (a b : Nat) : Option Nat :=
  if leadBase ≤ a && a < leadBase + leadCount && vowelBase ≤ b && b < vowelBase + vowelCount then
    some (syllableBase + ((a - leadBase) * vowelCount + (b - vowelBase)) * trailCount)
  else if isSyllable a && (a - syllableBase) % trailCount == 0 && trailBase < b &&
      b < trailBase + trailCount then
    some (a + (b - trailBase))
  else none

end Hangul

/-- One step of decomposition: the code points that `c` stands for, if it decomposes. Nothing
below U+00C0 does. -/
def decomposeOnce? (c : Nat) : Option (List Nat) :=
  if c < 0xC0 then none
  else if Hangul.isSyllable c then some (Hangul.decompose c)
  else
    match singletons.find? (fun e => e.1 == c) with
    | some (_, a) => some [a]
    | none => (pairs.find? (fun e => e.1 == c)).map fun (_, a, b) => [a, b]

/-- The decomposition of a code point, followed `depth` times into its parts. -/
def decomposeWithin : Nat → Nat → List Nat
  | 0, c => [c]
  | depth + 1, c =>
    match decomposeOnce? c with
    | none => [c]
    | some parts => parts.flatMap (decomposeWithin depth)

/-- No character of the tables decomposes more than four levels deep. -/
def decompositionDepth : Nat := 4

/-- The full canonical decomposition of a code point. -/
def decompose (c : Nat) : List Nat :=
  decomposeWithin decompositionDepth c

/-! ## Canonical order -/

/-- Puts a code point of class `cls > 0` before the longest tail of `reversed` (a list in reverse)
whose classes are greater: after every combining character of a class that is not greater. -/
def insertByClass (c cls : Nat) : List Nat → List Nat
  | [] => [c]
  | d :: ds =>
    if cls < combiningClass d then d :: insertByClass c cls ds else c :: d :: ds

/-- Adds a code point behind a list that is kept in reverse and in canonical order. -/
def pushOrdered (reversed : List Nat) (c : Nat) : List Nat :=
  let cls := combiningClass c
  if cls = 0 then c :: reversed else insertByClass c cls reversed

/-- Sorts each run of combining characters by class, keeping the order within a class. -/
def canonicalOrder (cs : List Nat) : List Nat :=
  (cs.foldl pushOrdered []).reverse

/-- Canonical decomposition of a list of code points. -/
def nfd (cs : List Nat) : List Nat :=
  canonicalOrder (cs.flatMap decompose)

/-! ## Composition -/

/-- The character that stands for the pair `a`, `b`, if there is one. -/
def compose? (a b : Nat) : Option Nat :=
  match Hangul.compose? a b with
  | some c => some c
  | none =>
    (pairs.find? fun e => e.2.1 == a && e.2.2 == b && !compositionExclusions.contains e.1).map
      (·.1)

/-- A composition under way: the text finished, in reverse; the last starter, if there is one; and
the characters that follow it and were not composed, in reverse. -/
structure Composing where
  done : List Nat := []
  starter : Option Nat := none
  pending : List Nat := []

/-- Whether a character of class `cls` is kept from the starter by the one before it. -/
def Composing.blocks (s : Composing) (cls : Nat) : Bool :=
  match s.pending with
  | [] => false
  | last :: _ => cls ≤ combiningClass last

/-- Adds the next code point. It joins the starter when the two compose and no character between
them has its class or a greater one. -/
def Composing.push (s : Composing) (c : Nat) : Composing :=
  let cls := combiningClass c
  match s.starter with
  | none => if cls = 0 then { s with starter := some c } else { s with done := c :: s.done }
  | some starter =>
    match if s.blocks cls then none else compose? starter c with
    | some joined => { s with starter := some joined }
    | none =>
      if cls = 0 then { done := s.pending ++ starter :: s.done, starter := some c }
      else { s with pending := c :: s.pending }

/-- The text composed so far. -/
def Composing.finish (s : Composing) : List Nat :=
  match s.starter with
  | none => s.done.reverse
  | some starter => (s.pending ++ starter :: s.done).reverse

/-- Composes a text that is in canonical order. -/
def composeAll (cs : List Nat) : List Nat :=
  (cs.foldl Composing.push {}).finish

/-- Canonical composition of a list of code points. -/
def nfc (cs : List Nat) : List Nat :=
  composeAll (nfd cs)

/-! ## Texts -/

/-- A text with its code points changed by a function. -/
def mapCodePoints (f : List Nat → List Nat) (cs : List Char) : List Char :=
  (f (cs.map Char.toNat)).map Char.ofNat

/-- Canonical decomposition of a text. -/
def toNFD (s : String) : String :=
  String.ofList (mapCodePoints nfd s.toList)

/-- Canonical composition of a text. -/
def toNFC (s : String) : String :=
  String.ofList (mapCodePoints nfc s.toList)

end SyncEndpoint.Unicode
