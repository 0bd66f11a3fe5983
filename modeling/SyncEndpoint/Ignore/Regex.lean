import SyncEndpoint.Text.Utf8

set_option autoImplicit false

/-! # Regular expressions over bytes

The expressions that globs compile to, matched against a whole byte string by partial
derivatives: after each byte a set of expressions remains, of which one has to match the rest. -/

namespace SyncEndpoint.Ignore

/-- A regular expression over bytes. -/
inductive Regex where
  | empty
  /-- One byte that lies in one of the ranges, or in none of them if negated. -/
  | byte (negated : Bool) (ranges : List (UInt8 × UInt8))
  | seq (first second : Regex)
  | alt (left right : Regex)
  | star (body : Regex)
  deriving BEq

namespace Regex

/-! ## Building expressions -/

def literal (b : UInt8) : Regex := .byte false [(b, b)]

def anyByte : Regex := .byte true []

def anyBut (b : UInt8) : Regex := .byte true [(b, b)]

/-- Expressions one after the other. -/
def concat (rs : List Regex) : Regex := rs.foldr .seq .empty

/-- A byte string. -/
def bytes (bs : Bytes) : Regex := concat (bs.map literal)

/-- One of several expressions; the empty expression if there are none. -/
def oneOf : List Regex → Regex
  | [] => .empty
  | [r] => r
  | r :: rs => .alt r (oneOf rs)

/-! ## Matching -/

/-- Whether the empty byte string matches. -/
def nullable : Regex → Bool
  | .empty => true
  | .byte _ _ => false
  | .seq a b => a.nullable && b.nullable
  | .alt a b => a.nullable || b.nullable
  | .star _ => true

/-- Whether a byte lies in a set given by ranges. -/
def admits (negated : Bool) (ranges : List (UInt8 × UInt8)) (b : UInt8) : Bool :=
  (ranges.any fun r => r.1 ≤ b && b ≤ r.2) != negated

/-- `a` and then `b`, without an empty expression in front. -/
def andThen (a b : Regex) : Regex :=
  match a with
  | .empty => b
  | a => .seq a b

/-- What may follow after the byte `b`. -/
def partials (b : UInt8) : Regex → List Regex
  | .empty => []
  | .byte negated ranges => if admits negated ranges b then [.empty] else []
  | .seq r s =>
    let front := (r.partials b).map (·.andThen s)
    if r.nullable then front ++ s.partials b else front
  | .alt r s => r.partials b ++ s.partials b
  | .star r => (r.partials b).map (·.andThen (.star r))

/-- Whether one of the expressions matches the byte string. -/
def anyMatches : List Regex → Bytes → Bool
  | rs, [] => rs.any nullable
  | rs, b :: bs => anyMatches (rs.flatMap (partials b)).eraseDups bs

/-- Whether the whole byte string matches. -/
def isMatch (r : Regex) (bs : Bytes) : Bool :=
  anyMatches [r] bs

end Regex

end SyncEndpoint.Ignore
