import QueryTree.Dialect.Registry

/-!
# Sessions

All dialects of a program are in one registry.  A *session* is a sequence of steps
on it.  A step registers a dialect, or looks something up.  It finds the registry
that the steps before it have left, failed look-ups included.
-/

namespace QueryTree.Registry

/-- A step of a session. -/
inductive Step where
  /-- A dialect is registered with its aliases. -/
  | register (d : Dialect) (aliases : List String)
  /-- The name a look-up ends at. -/
  | canonicalName (name : String)
  /-- The dialect of a name. -/
  | get (name : String)
  /-- The names of all dialects. -/
  | available
  /-- Settings with the quotes of the dialect of a name. -/
  | settingsFor (name : String) (base : Settings) (quote : Bool)

/-- The answer to a step. -/
inductive Answer where
  /-- It is done. -/
  | done
  /-- A name. -/
  | name (found : String)
  /-- A dialect, or that there is none. -/
  | dialect (found : Except UnknownDialect Dialect)
  /-- Names in order. -/
  | names (found : List String)
  /-- Settings, or that there is no dialect for them. -/
  | settings (found : Except UnknownDialect Settings)

/-- What is known after a step. -/
structure Progress where
  /-- The answer to the step. -/
  answer : Answer
  /-- The registry it leaves. -/
  registry : Registry

/-- What is known after a step on a registry. -/
def advance (r : Registry) : Step → Progress
  | .register d aliases => ⟨.done, r.register d aliases⟩
  | .canonicalName name => ⟨.name (r.canonicalName name), r⟩
  | .get name => ⟨.dialect (r.get name), r⟩
  | .available => ⟨.names r.available, r⟩
  | .settingsFor name base quote => ⟨.settings (r.settingsFor name base quote), r⟩

/-- The answers to some steps on a registry, each on what the steps before it leave. -/
def run : Registry → List Step → List Answer
  | _, [] => []
  | r, s :: rest => (r.advance s).answer :: run (r.advance s).registry rest

end QueryTree.Registry
