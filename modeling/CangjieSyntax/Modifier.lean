/-!
# Modifiers

The words in front of a declaration that modify it. Some are keywords; the others are special only
there.
-/

namespace CangjieSyntax

/-- The modifiers, in the order in which they are shown. -/
inductive Modifier where
  | mPublic
  | mPrivate
  | mProtected
  | mInternal
  | mOpen
  | mAbstract
  | mSealed
  | mOverride
  | mRedef
  | mMut
  | mStatic
  | mConst
  | mUnsafe
  | mForeign
  | mOperator
  deriving DecidableEq, Inhabited

namespace Modifier

/-- Every modifier, in the order in which they are shown. -/
def all : List Modifier :=
  [mPublic, mPrivate, mProtected, mInternal, mOpen, mAbstract, mSealed, mOverride, mRedef, mMut,
   mStatic, mConst, mUnsafe, mForeign, mOperator]

/-- The word of a modifier. -/
def word : Modifier → String
  | mPublic => "public"
  | mPrivate => "private"
  | mProtected => "protected"
  | mInternal => "internal"
  | mOpen => "open"
  | mAbstract => "abstract"
  | mSealed => "sealed"
  | mOverride => "override"
  | mRedef => "redef"
  | mMut => "mut"
  | mStatic => "static"
  | mConst => "const"
  | mUnsafe => "unsafe"
  | mForeign => "foreign"
  | mOperator => "operator"

/-- Whether the word of a modifier is a keyword. -/
def isReserved : Modifier → Bool
  | mStatic | mConst | mUnsafe | mForeign | mOperator => true
  | _ => false

/-- The modifier that a word which is no keyword spells. -/
def ofWord? (word : String) : Option Modifier :=
  all.find? fun m => !m.isReserved && m.word == word

/-- The number of a modifier's bit. -/
def bit : Modifier → Nat
  | mPublic => 0
  | mPrivate => 1
  | mProtected => 2
  | mInternal => 3
  | mOpen => 4
  | mAbstract => 5
  | mSealed => 6
  | mOverride => 7
  | mRedef => 8
  | mMut => 9
  | mStatic => 10
  | mConst => 11
  | mUnsafe => 12
  | mForeign => 13
  | mOperator => 14

/-- Whether the modifier says who may use the declaration. -/
def isAccess : Modifier → Bool
  | mPublic | mPrivate | mProtected | mInternal => true
  | _ => false

end Modifier

/-- A set of modifiers, one bit for each. -/
structure Modifiers where
  bits : BitVec 15
  deriving DecidableEq, Inhabited

namespace Modifiers

/-- No modifier. -/
def none : Modifiers :=
  ⟨0⟩

/-- The set whose bits are set in a number; other bits mean nothing. -/
def ofBits (n : Nat) : Modifiers :=
  ⟨BitVec.ofNat 15 n⟩

/-- Whether a modifier is in the set. -/
def contains (ms : Modifiers) (m : Modifier) : Bool :=
  ms.bits.getLsbD m.bit

/-- The set with one more modifier. -/
def insert (ms : Modifiers) (m : Modifier) : Modifiers :=
  ⟨ms.bits ||| BitVec.twoPow 15 m.bit⟩

/-- The set of the given modifiers. -/
def ofList (l : List Modifier) : Modifiers :=
  l.foldl insert none

/-- The modifiers in the set, in the order in which they are shown. -/
def toList (ms : Modifiers) : List Modifier :=
  Modifier.all.filter ms.contains

/-- The set as a number. -/
def toBits (ms : Modifiers) : Nat :=
  ms.bits.toNat

/-- Whether the set says who may use the declaration. -/
def hasAccess (ms : Modifiers) : Bool :=
  ms.toList.any Modifier.isAccess

/-- The words of the set with blanks between them. -/
def text (ms : Modifiers) : String :=
  " ".intercalate (ms.toList.map Modifier.word)

end Modifiers

end CangjieSyntax
