import StubNames.Schema.Builder
/-!
# Workspaces

Several graphs side by side, each under a number that is issued once. Graph zero is the empty
graph and is always there; every other one takes declarations until it is built.
-/

namespace StubNames.Schema

inductive Slot where
  | underway (b : Builder)
  | built (g : Graph)

inductive WorkspaceError where
  /-- No graph of this number takes declarations. -/
  | noBuilder (number : Nat)
  | refused (cause : DeclarationError)
  deriving DecidableEq, Repr

/-- The graph numbered `n` is in slot `n - 1`. -/
structure Workspace where
  slots : List Slot

namespace Workspace

def empty : Workspace :=
  ⟨[]⟩

def start (w : Workspace) : Nat × Workspace :=
  let number := w.slots.length + 1
  (number, ⟨w.slots ++ [.underway (.start number)]⟩)

def slot? (w : Workspace) : Nat → Option Slot
  | 0 => none
  | n + 1 => w.slots[n]?

def builder? (w : Workspace) (number : Nat) : Option Builder :=
  match w.slot? number with
  | some (.underway b) => some b
  | _ => none

def graph? (w : Workspace) (number : Nat) : Option Graph :=
  if number = 0 then some (.empty 0)
  else
    match w.slot? number with
    | some (.built g) => some g
    | _ => none

def setSlot (w : Workspace) (number : Nat) (s : Slot) : Workspace :=
  ⟨w.slots.set (number - 1) s⟩

/-- A refusal leaves the builder and so the workspace as it was. -/
def declare (w : Workspace) (number : Nat) (d : Declaration) :
    Except WorkspaceError (Handle × Workspace) :=
  match w.builder? number with
  | none => .error (.noBuilder number)
  | some b =>
    match b.declare d with
    | (.error cause, _) => .error (.refused cause)
    | (.ok h, b) => .ok (h, w.setSlot number (.underway b))

def build (w : Workspace) (number : Nat) : Except WorkspaceError (Graph × Workspace) :=
  match w.builder? number with
  | none => .error (.noBuilder number)
  | some b => .ok (b.build, w.setSlot number (.built b.build))

end Workspace

end StubNames.Schema
