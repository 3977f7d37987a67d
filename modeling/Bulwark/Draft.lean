import Bulwark.Schedule

/-!
Drafts: engines that are being put together.

A draft takes down what an engine is to start with: defaults, of which only the last
count, overrides of commands, in the order in which they were given, and hooks. Nothing
is resolved before the engine is built.
-/

namespace Bulwark

/-- What an engine is to start with. -/
structure Draft where
  defaults : Overrides := .none
  items : List (Name × Overrides) := []
  hooks : Hooks := {}
  deriving Repr, Inhabited

namespace Draft

inductive Word where
  | setDefaults (o : Overrides)
  | configure (name : Name) (o : Overrides)
  | setHooks (hooks : Hooks)
  deriving Repr, Inhabited

def add (d : Draft) : Word → Draft
  | .setDefaults o => { d with defaults := o }
  | .configure name o => { d with items := d.items ++ [(name, o)] }
  | .setHooks hooks => { d with hooks := hooks }

def of (words : List Word) : Draft := words.foldl add {}

def build (d : Draft) : Engine := .build d.defaults d.items d.hooks

end Draft

end Bulwark
