import FlowTrace.Text.Basic

/-! # Lexical paths

A **path** in normal form: whether it starts at the root, and its components, without empty ones,
without `.`, and with `..` only at the beginning of a path that does not start at the root. Normal
forms are computed from texts alone, without looking at any directory. -/

namespace FlowTrace

/-- The byte between two components. -/
abbrev Path.separator : UInt8 := 0x2F

/-- The component that leads one directory up. -/
abbrev Path.up : Text := [0x2E, 0x2E]

/-- The component that leads nowhere. -/
abbrev Path.here : Text := [0x2E]

/-- A **path** in normal form. -/
structure Path where
  /-- Whether the path starts at the root. -/
  rooted : Bool
  /-- The components. -/
  parts : List Text
  deriving DecidableEq, Repr

namespace Path

/-- The components of a text, as they are written, without empty ones. -/
def components (t : Text) : List Text := (t.splitAtByte separator).filter fun part => !part.isEmpty

/-- Adds a component behind the components so far, the last of which comes first. Going up from
a proper component removes it; at the root there is nothing above. -/
def push (rooted : Bool) (stack : List Text) (part : Text) : List Text :=
  if part = here then stack
  else if part = up then
    match stack with
    | [] => if rooted then [] else [up]
    | top :: rest => if top = up then up :: top :: rest else rest
  else part :: stack

/-- The normal form of components that follow those of a normal form. -/
def extend (rooted : Bool) (parts new : List Text) : List Text :=
  (new.foldl (push rooted) parts.reverse).reverse

/-- Whether a text starts at the root. -/
def isRooted (t : Text) : Bool := t.head? == some separator

/-- The normal form of a text. -/
def ofText (t : Text) : Path := ⟨isRooted t, extend (isRooted t) [] (components t)⟩

/-- The text of a path. -/
def toText (p : Path) : Text :=
  if p.rooted then separator :: Text.joinWith "/" p.parts
  else if p.parts.isEmpty then here
  else Text.joinWith "/" p.parts

/-- The path that a text leads to from another path. -/
def append (p : Path) (t : Text) : Path := ⟨p.rooted, extend p.rooted p.parts (components t)⟩

/-- The text of the normal form of a text. -/
def clean (t : Text) : Text := (ofText t).toText

/-- The clean text of several texts one after the other; empty ones are left out. -/
def join (texts : List Text) : Text :=
  let texts := texts.filter fun t => !t.isEmpty
  if texts.isEmpty then [] else clean (Text.joinWith "/" texts)

/-- The clean text of everything before the last component. -/
def directory (t : Text) : Text :=
  clean ((t.reverse.dropWhile fun c => c != separator).reverse)

/-- The two lists without the beginning that they share. -/
def dropShared : List Text → List Text → List Text × List Text
  | a :: as, b :: bs => if a = b then dropShared as bs else (a :: as, b :: bs)
  | as, bs => (as, bs)

/-- The components that lead from `base` to `target`; `none` when only the directory tree could
tell. -/
def relative? (base target : Path) : Option (List Text) :=
  if base.rooted != target.rooted then none
  else
    let (above, below) := dropShared base.parts target.parts
    if above.head? = some up then none
    else some (List.replicate above.length up ++ below)

/-- The text of components that lead from a directory. -/
def relativeText (parts : List Text) : Text :=
  if parts.isEmpty then here else Text.joinWith "/" parts

/-- The part that stands for the same directory adds nothing to a path. -/
@[simp] theorem push_here (rooted : Bool) (stack : List Text) : push rooted stack here = stack := by
  simp [push]

@[simp] theorem dropShared_nil (parts : List Text) : dropShared [] parts = ([], parts) := by
  cases parts <;> rfl

end Path

end FlowTrace
