import Bulwark.Roster
import Bulwark.Settings

/-!
Policies: which settings hold for which command.

A policy has defaults for all commands and overrides for some. Both are
replaced as a whole, never merged with what they replace, and settings are
resolved only when they are asked for: overrides of the command first, then the
defaults, then the settings of the library.
-/

namespace Bulwark

structure Policy where
  defaults : Settings := .library
  overrides : Roster Overrides := []
  deriving DecidableEq, Repr, Inhabited

inductive Policy.Change where
  | setDefaults (o : Overrides)
  | configure (name : Name) (o : Overrides)
  | configureAll (items : List (Name × Overrides))
  deriving DecidableEq, Repr, Inhabited

namespace Policy

def setDefaults (p : Policy) (o : Overrides) : Policy :=
  { p with defaults := o.resolve .library }

def configure (p : Policy) (name : Name) (o : Overrides) : Policy :=
  { p with overrides := p.overrides.put name o }

def configureAll (p : Policy) (items : List (Name × Overrides)) : Policy :=
  items.foldl (fun p item => p.configure item.1 item.2) p

def change (p : Policy) : Change → Policy
  | .setDefaults o => p.setDefaults o
  | .configure name o => p.configure name o
  | .configureAll items => p.configureAll items

def settings (p : Policy) (name : Name) : Settings :=
  match p.overrides.get? name with
  | some o => o.resolve p.defaults
  | none => p.defaults

def build (defaults : Overrides) (items : List (Name × Overrides)) : Policy :=
  (Policy.setDefaults {} defaults).configureAll items

end Policy

end Bulwark
