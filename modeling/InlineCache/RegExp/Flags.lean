/-!
Regular expression flags, a set of seven letters kept as bits.
-/

namespace InlineCache.RegExp

/-- Why a regular expression cannot be made. -/
inductive SyntaxError
  | invalidFlag (letter : Char)
  | duplicateFlag (letter : Char)
  | pattern (reason : String)
  deriving DecidableEq, Repr

def SyntaxError.message : SyntaxError → String
  | .invalidFlag letter => s!"invalid flag '{letter}'"
  | .duplicateFlag letter => s!"duplicate flag '{letter}'"
  | .pattern reason => reason

structure Flags where
  bits : UInt32
  deriving DecidableEq, Repr

namespace Flags

def ignoreCase : UInt32 := 0x01

def global : UInt32 := 0x02

def multiline : UInt32 := 0x04

def sticky : UInt32 := 0x08

def unicode : UInt32 := 0x10

def dotAll : UInt32 := 0x20

def hasIndices : UInt32 := 0x40

def bit? : Char → Option UInt32
  | 'd' => some hasIndices
  | 'g' => some global
  | 'i' => some ignoreCase
  | 'm' => some multiline
  | 's' => some dotAll
  | 'u' => some unicode
  | 'y' => some sticky
  | _ => none

def containsAny (flags : Flags) (mask : UInt32) : Bool :=
  flags.bits &&& mask ≠ 0

/-- Adds the flag of a letter, which must be new. -/
def add (flags : Flags) (letter : Char) : Except SyntaxError Flags :=
  match bit? letter with
  | none => .error (.invalidFlag letter)
  | some bit =>
      if flags.containsAny bit then .error (.duplicateFlag letter) else .ok ⟨flags.bits ||| bit⟩

def parse (text : String) : Except SyntaxError Flags :=
  text.toList.foldlM add ⟨0⟩

end Flags

end InlineCache.RegExp
