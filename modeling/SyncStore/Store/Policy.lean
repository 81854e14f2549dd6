/-! Callers choose per call whether to write outside and what a failed read falls back to. -/

namespace SyncStore

/-- Whether a single change is written outside. -/
inductive WritePolicy where
  | default
  | always
  | never
  deriving DecidableEq

namespace WritePolicy

/-- Only the default policy looks at the default of the store. -/
def resolve (policy : WritePolicy) (writesByDefault : Bool) : Bool :=
  match policy with
  | .default => writesByDefault
  | .always => true
  | .never => false

/-- An explicit choice overrides the default, and no choice follows it. -/
def ofChoice : Option Bool → WritePolicy
  | none => .default
  | some true => .always
  | some false => .never

end WritePolicy

/-- What a failed read outside answers. -/
inductive Fallback where
  | propagate
  | cached
  deriving DecidableEq

/-- Every call comes from a blocking or from a suspending caller, and each has
a connection of its own. -/
inductive Side where
  | sync
  | async
  deriving DecidableEq

end SyncStore
