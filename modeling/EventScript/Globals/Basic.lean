import EventScript.Globals.FileStore

/-!
# Global variables

The variables that all activations share, in memory only or backed by a file. Writing `null` unbinds a name.
-/

namespace EventScript

/-- A store of global variables. -/
inductive Globals where
  | memory (values : Variables)
  | file (store : FileStore)

namespace Globals

/-- The variables that the store answers from. -/
def values : Globals → Variables
  | memory values => values
  | file store => store.cache

def get? (g : Globals) (name : String) : Option Value := g.values[name]?

def has (g : Globals) (name : String) : Bool := g.values.contains name

def size (g : Globals) : Nat := g.values.size

/-- Binds a name, or unbinds it if the value is `null`. -/
def set (g : Globals) (name : String) (v : Value) : Except Fault Globals :=
  match g with
  | memory values => .ok (memory (if v.isNull then values.erase name else values.insert name v))
  | file store => (store.set name v).map file

/-- Unbinds a name and returns what it was bound to. -/
def remove (g : Globals) (name : String) : Option Value × Globals :=
  match g with
  | memory values => (values[name]?, memory (values.erase name))
  | file store => let r := store.remove name; (r.1, file r.2)

/-- Writes pending changes to the backing file. -/
def flush : Globals → StateM Files (Except Fault Unit × Globals)
  | memory values => pure (.ok (), memory values)
  | file store => do let r ← store.save; pure (r.1, file r.2)

/-- Takes the variables from the backing file again. -/
def reload : Globals → StateM Files (Except Fault Unit × Globals)
  | memory values => pure (.ok (), memory values)
  | file store => do let r ← store.reload; pure (r.1, file r.2)

/-- Gives up the store. -/
def close : Globals → StateM Files Globals
  | memory values => pure (memory values)
  | file store => do let s ← store.close; pure (file s)

/-- The store of those variables that are not `null`, in memory. -/
def ofVariables (vars : Variables) : Globals := memory (vars.filter fun _ v => !v.isNull)

end Globals

/-- The variables of one activation over the global ones. -/
structure Environment where
  locals : Variables
  globals : Globals

namespace Environment

/-- The value of a name: of the activation first, global second. -/
def get? (env : Environment) (name : String) : Option Value :=
  match env.locals[name]? with
  | some v => some v
  | none => env.globals.get? name

def has (env : Environment) (name : String) : Bool := env.locals.contains name || env.globals.has name

/-- Binds a variable of the activation, to `null` as well. -/
def set (env : Environment) (name : String) (v : Value) : Environment :=
  { env with locals := env.locals.insert name v }

/-- Unbinds a variable of the activation and returns what it was bound to. -/
def remove (env : Environment) (name : String) : Option Value × Environment :=
  (env.locals[name]?, { env with locals := env.locals.erase name })

end Environment

end EventScript
