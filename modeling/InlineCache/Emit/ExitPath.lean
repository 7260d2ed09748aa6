import InlineCache.Code.Inst

/-!
The ways out of a stub before its end.  A path restores the float registers that are saved where it
is taken, and jumps to the exit of its status; places that need the same share a path.
-/

namespace InlineCache

/-- The saved float registers with their slots, in the order in which they were saved. -/
abbrev SavedFloats := List (FloatRegister × Nat)

structure ExitPath where
  label : Label
  status : ExitStatus
  saved : SavedFloats
  deriving DecidableEq, Repr

abbrev ExitPaths := List ExitPath

namespace ExitPaths

/-- The label of the path for a status and saved registers, a new one if there is none yet. -/
def add (paths : ExitPaths) (buffer : CodeBuffer) (status : ExitStatus) (saved : SavedFloats) :
    Label × ExitPaths × CodeBuffer :=
  match paths.find? fun path => path.status = status && path.saved = saved with
  | some path => (path.label, paths, buffer)
  | none =>
      let (label, buffer) := buffer.newLabel
      (label, paths ++ [⟨label, status, saved⟩], buffer)

/-- A label for each status. -/
abbrev Exits := List (ExitStatus × Label)

def exitOf (exits : Exits) (buffer : CodeBuffer) (status : ExitStatus) :
    Label × Exits × CodeBuffer :=
  match exits.find? (·.1 = status) with
  | some (_, label) => (label, exits, buffer)
  | none =>
      let (label, buffer) := buffer.newLabel
      (label, exits ++ [(status, label)], buffer)

/-- Binds a path, restores its registers, the last one saved first, and jumps to its exit. -/
def emitPath (exits : Exits) (buffer : CodeBuffer) (path : ExitPath) : Exits × CodeBuffer :=
  let (exit, exits, buffer) := exitOf exits buffer path.status
  let buffer := buffer.emit (.bind path.label)
  let buffer := path.saved.reverse.foldl
    (fun buffer (reg, slot) => buffer.emit (.restoreFloat reg slot)) buffer
  (exits, buffer.emit (.jump exit))

def emitExit (buffer : CodeBuffer) (exit : ExitStatus × Label) : CodeBuffer :=
  (buffer.emit (.bind exit.2)).emit (.ret exit.1)

/-- Emits every path, then the exits that they jump to. -/
def emit (paths : ExitPaths) (buffer : CodeBuffer) : CodeBuffer :=
  let (exits, buffer) :=
    paths.foldl (fun (exits, buffer) path => emitPath exits buffer path) ([], buffer)
  exits.foldl emitExit buffer

end ExitPaths

end InlineCache
